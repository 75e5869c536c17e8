import MultichainIndexer.Lib.Ledger
import MultichainIndexer.Identity
import MultichainIndexer.Store.BalanceRepo

/-!
# What the balances are for

The balance events are a ledger, and the `balances` table stores its totals.
Every account, an address and a token on one chain and network, has two
balances: the liquid one sums the deltas of all its applied events, and the
staked one takes back what its applied `STAKE` and `UNSTAKE` events moved.
`Reconciled` says that the stored amounts are the totals.
-/

namespace MultichainIndexer

open Relational

structure Account where
  chain : Chain
  network : Network
  address : String
  tokenID : UUID
  deriving DecidableEq

def BalanceEventRow.account (r : BalanceEventRow) : Account :=
  ⟨r.chain, r.network, r.address, r.tokenID⟩

inductive BalanceKind where
  | liquid | staked
  deriving DecidableEq

namespace BalanceKind

def balanceType : BalanceKind → String
  | .liquid => ""
  | .staked => "staked"

def counts : BalanceKind → ActivityType → Bool
  | .liquid, _ => true
  | .staked, t => isStakingActivity t

def signed : BalanceKind → Int → Int
  | .liquid, d => d
  | .staked, d => -d

theorem balanceType_inj {b b' : BalanceKind} (h : b.balanceType = b'.balanceType) : b = b' := by
  cases b <;> cases b' <;> simp [balanceType] at h ⊢

theorem signed_eq_zero {b : BalanceKind} {d : Int} : b.signed d = 0 ↔ d = 0 := by
  cases b <;> simp [signed]

/-- The ledger whose totals a kind of balance stores. -/
def book (b : BalanceKind) : Ledger.Book BalanceEventRow Account Int where
  applied r := r.balanceApplied && b.counts r.activityType
  account := BalanceEventRow.account
  value r := b.signed r.delta

end BalanceKind

def Account.key (a : Account) (b : BalanceKind) : BalanceKey :=
  ⟨a.chain, a.network, a.address, a.tokenID, b.balanceType⟩

theorem account_key_inj {a a' : Account} {b b' : BalanceKind} :
    a.key b = a'.key b' ↔ a = a' ∧ b = b' := by
  constructor
  · intro h
    cases a
    cases a'
    simp only [Account.key, BalanceKey.mk.injEq] at h
    obtain ⟨rfl, rfl, rfl, rfl, hb⟩ := h
    exact ⟨rfl, BalanceKind.balanceType_inj hb⟩
  · rintro ⟨rfl, rfl⟩
    rfl

/-- The stored balances of a kind are the totals of its ledger. -/
def ReconciledAt (b : BalanceKind) (db : Db) : Prop :=
  ∀ a : Account, amountOf db.balances (a.key b) = b.book.total db.balanceEvents.rows a

def Reconciled (db : Db) : Prop := ∀ b, ReconciledAt b db

theorem reconciled_of_account {db : Db} (acct : Account)
    (hbal : ∀ r ∈ db.balances.rows, r.key = acct.key .liquid ∨ r.key = acct.key .staked)
    (heve : ∀ r ∈ db.balanceEvents.rows, r.account = acct)
    (h : amountOf db.balances (acct.key .liquid) =
        BalanceKind.liquid.book.total db.balanceEvents.rows acct ∧
      amountOf db.balances (acct.key .staked) =
        BalanceKind.staked.book.total db.balanceEvents.rows acct) : Reconciled db := by
  intro b a
  by_cases ha : a = acct
  · subst ha
    cases b with
    | liquid => exact h.1
    | staked => exact h.2
  · have hkey : ∀ b', a.key b ≠ acct.key b' := fun b' he => ha (account_key_inj.mp he).1
    have hnone : KeyedTable.find? db.balances (a.key b) = none := by
      apply KeyedTable.find?_eq_none_iff.mpr
      intro r hr he
      rcases hbal r hr with hl | hs
      · exact hkey _ (he.symm.trans hl)
      · exact hkey _ (he.symm.trans hs)
    rw [amountOf_none hnone]
    symm
    apply SumWhere.sumWhere_eq_zero
    intro r hr hp
    rw [Bool.and_eq_true, decide_eq_true_eq] at hp
    exact absurd (hp.2.symm.trans (heve r hr)) ha

/-- The item that posts an event, times `sign`, to a kind of balance. -/
def BalanceEventRow.item (b : BalanceKind) (sign : Int) (r : BalanceEventRow) : BulkAdjustItem where
  address := r.address
  tokenID := r.tokenID
  walletID := r.walletID
  orgID := r.organizationID
  delta := sign * b.signed r.delta
  cursor := r.blockCursor
  txHash := r.txHash
  balanceType := b.balanceType

section Items
variable {chain : Chain} {network : Network}

theorem item_key {r : BalanceEventRow} (hc : r.chain = chain) (hn : r.network = network)
    (b : BalanceKind) (sign : Int) : (r.item b sign).key chain network = r.account.key b := by
  subst hc
  subst hn
  rfl

/-- Items of one kind: a key of this kind lists the events of its account, others list nothing. -/
theorem listedFor_items {l : List BalanceEventRow}
    (hl : ∀ r ∈ l, r.chain = chain ∧ r.network = network) (p : BalanceEventRow → Bool)
    (b b' : BalanceKind) (sign : Int) (a : Account) :
    listedFor chain network ((l.filter p).map (BalanceEventRow.item b sign)) (a.key b') =
      if b = b' then (b.book.entries p l a).map (BalanceEventRow.item b sign) else [] := by
  induction l with
  | nil => simp [Ledger.Book.entries]
  | cons r l ih =>
    obtain ⟨hc, hn⟩ := hl r List.mem_cons_self
    have ht := ih (List.forall_mem_cons.mp hl).2
    have hacc : b.book.account r = r.account := rfl
    rw [List.filter_cons, Ledger.Book.entries_cons, hacc]
    by_cases hp : p r = true
    · rw [if_pos hp, List.map_cons, listedFor_cons, item_key hc hn, ht]
      simp only [account_key_inj]
      by_cases hb : b = b'
      · by_cases ha : r.account = a
        · simp [hp, hb, ha]
        · simp [hp, hb, ha]
      · simp [hb]
    · rw [if_neg hp, ht]
      simp [hp]

/-- Items of both kinds in one list, the liquid item of an event before its staked one. -/
def bothItems (sign : Int) (p : BalanceKind → BalanceEventRow → Bool)
    (l : List BalanceEventRow) : List BulkAdjustItem :=
  l.flatMap fun r => ([BalanceKind.liquid, .staked].filter fun b => p b r).map fun b => r.item b sign

theorem listedFor_bothItems {l : List BalanceEventRow}
    (hl : ∀ r ∈ l, r.chain = chain ∧ r.network = network)
    (p : BalanceKind → BalanceEventRow → Bool) (b : BalanceKind) (sign : Int) (a : Account) :
    listedFor chain network (bothItems sign p l) (a.key b) =
      (b.book.entries (p b) l a).map (BalanceEventRow.item b sign) := by
  induction l with
  | nil => rfl
  | cons r l ih =>
    obtain ⟨hc, hn⟩ := hl r List.mem_cons_self
    have ht := ih (List.forall_mem_cons.mp hl).2
    have hcons : bothItems sign p (r :: l) =
        (([BalanceKind.liquid, .staked].filter fun b => p b r).map fun b => r.item b sign) ++
          bothItems sign p l := rfl
    have hacc : b.book.account r = r.account := rfl
    have hhead : listedFor chain network
        (([BalanceKind.liquid, .staked].filter fun b => p b r).map fun b => r.item b sign)
        (a.key b) = if p b r && decide (r.account = a) then [r.item b sign] else [] := by
      cases hpl : p .liquid r <;> cases hps : p .staked r <;> cases b <;>
        simp [hpl, hps, listedFor_cons, item_key hc hn, account_key_inj]
    rw [hcons, listedFor_append, ht, hhead, Ledger.Book.entries_cons, hacc]
    split
    · simp
    · simp

theorem mem_bothItems {sign : Int} {p : BalanceKind → BalanceEventRow → Bool}
    {l : List BalanceEventRow} {i : BulkAdjustItem} :
    i ∈ bothItems sign p l ↔ ∃ r ∈ l, ∃ b, p b r = true ∧ i = r.item b sign := by
  unfold bothItems
  simp only [List.mem_flatMap, List.mem_map, List.mem_filter]
  constructor
  · rintro ⟨r, hr, b, ⟨_, hb⟩, rfl⟩
    exact ⟨r, hr, b, hb, rfl⟩
  · rintro ⟨r, hr, b, hb, rfl⟩
    exact ⟨r, hr, b, ⟨by cases b <;> simp, hb⟩, rfl⟩

/-- The events of an account may be posted in one statement: there is one, or all are zero. -/
def Postable (l : List BalanceEventRow) : Prop := l.length ≤ 1 ∨ ∀ r ∈ l, r.delta = 0

theorem postable_of_pairwise {l : List BalanceEventRow}
    (h : l.Pairwise fun r r' => r.delta = 0 ∧ r'.delta = 0) : Postable l := by
  cases l with
  | nil => exact .inl (by simp)
  | cons r l =>
    obtain ⟨hr, _⟩ := List.pairwise_cons.mp h
    cases l with
    | nil => exact .inl (by simp)
    | cons r' l =>
      refine .inr fun s hs => ?_
      rcases List.mem_cons.mp hs with rfl | hs
      · exact (hr r' List.mem_cons_self).1
      · exact (hr s hs).2

theorem separable_items_iff {l : List BalanceEventRow} {b : BalanceKind} {sign : Int}
    (hsign : sign ≠ 0) : Separable (l.map (BalanceEventRow.item b sign)) ↔ Postable l := by
  have hzero : ∀ r : BalanceEventRow, (r.item b sign).delta = 0 ↔ r.delta = 0 := by
    intro r
    show sign * b.signed r.delta = 0 ↔ _
    rw [Int.mul_eq_zero, BalanceKind.signed_eq_zero]
    simp [hsign]
  unfold Separable Postable
  rw [List.length_map, List.forall_mem_map]
  simp only [hzero]

theorem sum_items (l : List BalanceEventRow) (b : BalanceKind) (sign : Int) :
    ((l.map (BalanceEventRow.item b sign)).map BulkAdjustItem.delta).sum =
      sign * (l.map b.book.value).sum := by
  induction l with
  | nil => simp
  | cons r l ih =>
    simp only [List.map_cons, List.sum_cons] at ih ⊢
    rw [ih, Int.mul_add]
    rfl

variable {c : RowChoice BulkAdjustItem} {items : List BulkAdjustItem} {t : Balances}
variable {b : BalanceKind} {a : Account} {sign : Int} {l : List BalanceEventRow}

/-- What a statement that lists the events `l` for a balance adds to it: their values, if they may
be posted together. An unstored balance has at most one item, or the statement fails. -/
theorem appliedDelta_posts (hsign : sign ≠ 0)
    (hlist : (listedFor chain network items (a.key b)).Perm (l.map (BalanceEventRow.item b sign)))
    (hpost : (KeyedTable.find? t (a.key b)).isSome = true → Postable l)
    (hnew : KeyedTable.find? t (a.key b) = none →
      (listedFor chain network items (a.key b)).length ≤ 1) :
    appliedDelta chain network c items t (a.key b) = sign * (l.map b.book.value).sum := by
  have hsep : Separable (listedFor chain network items (a.key b)) := by
    cases hf : KeyedTable.find? t (a.key b) with
    | none => exact .inl (hnew hf)
    | some r => exact ((separable_items_iff hsign).mpr (hpost (by rw [hf]; rfl))).perm hlist.symm
  rw [appliedDelta_eq_listedSum hsep, listedSum_eq, (hlist.map BulkAdjustItem.delta).sum_eq,
    sum_items]

theorem postable_of_posts (hsign : sign ≠ 0)
    (hlist : (listedFor chain network items (a.key b)).Perm (l.map (BalanceEventRow.item b sign)))
    (hsto : (KeyedTable.find? t (a.key b)).isSome = true)
    (h : ∀ c, appliedDelta chain network c items t (a.key b) = sign * (l.map b.book.value).sum) :
    Postable l := by
  have hsep : Separable (listedFor chain network items (a.key b)) := by
    refine separable_of_adds hsto fun c => ?_
    rw [h c, listedSum_eq, (hlist.map BulkAdjustItem.delta).sum_eq, sum_items]
  exact (separable_items_iff hsign).mp (hsep.perm hlist)

end Items

end MultichainIndexer
