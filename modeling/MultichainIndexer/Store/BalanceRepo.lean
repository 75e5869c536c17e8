import MultichainIndexer.Lib.SumWhere
import MultichainIndexer.Lib.Result
import MultichainIndexer.Store.Db

/-!
# Balance adjustments

`adjustBalanceTx` upserts one balance. `bulkAdjustBalanceTx` is one statement
for a list of items: it updates the stored rows from the list and inserts the
items whose key is not stored. Which of several items listed for one stored row
is applied is the database's choice, so it is a `RowChoice` here.

`Separable` says when the list may be read as a whole: no key is listed twice,
unless every delta listed for it is zero. On such a list the statement adds, to
every key, the sum of the deltas listed for it.
-/

namespace MultichainIndexer

open Relational SumWhere

/-- One adjustment. `delta` is the integer that the decimal text of the source denotes. -/
structure BulkAdjustItem where
  address : String
  tokenID : UUID
  walletID : Option String := none
  orgID : Option String := none
  delta : Int
  cursor : Int := 0
  txHash : String := ""
  balanceType : String
  deriving DecidableEq

structure AdjustRequest extends BulkAdjustItem where
  chain : Chain
  network : Network

def BulkAdjustItem.key (chain : Chain) (network : Network) (i : BulkAdjustItem) : BalanceKey :=
  ⟨chain, network, i.address, i.tokenID, i.balanceType⟩

def BalanceRow.adjust (r : BalanceRow) (i : BulkAdjustItem) : BalanceRow :=
  { r with
    amount := r.amount + i.delta
    lastUpdatedCursor := max r.lastUpdatedCursor i.cursor
    lastUpdatedTxHash := i.txHash }

def BulkAdjustItem.row (chain : Chain) (network : Network) (i : BulkAdjustItem) : BalanceRow where
  key := i.key chain network
  walletID := i.walletID
  organizationID := i.orgID
  amount := i.delta
  lastUpdatedCursor := i.cursor
  lastUpdatedTxHash := i.txHash

theorem BalanceRow.adjust_key (r : BalanceRow) (i : BulkAdjustItem) : (r.adjust i).key = r.key := rfl

theorem BulkAdjustItem.row_key (chain : Chain) (network : Network) (i : BulkAdjustItem) :
    (i.row chain network).key = i.key chain network := rfl

def amountOf (t : Balances) (k : BalanceKey) : Int :=
  match KeyedTable.find? t k with
  | some r => r.amount
  | none => 0

variable {k : BalanceKey} {t : Balances}

theorem amountOf_some {r : BalanceRow} (h : KeyedTable.find? t k = some r) :
    amountOf t k = r.amount := by
  simp [amountOf, h]

theorem amountOf_none (h : KeyedTable.find? t k = none) : amountOf t k = 0 := by
  simp [amountOf, h]

theorem amountOf_congr {u : Balances} (h : KeyedTable.find? t k = KeyedTable.find? u k) :
    amountOf t k = amountOf u k := by
  simp only [amountOf, h]

/-- `GetByAddress`: the rows of an address, whatever their token and type. -/
def getByAddress (chain : Chain) (network : Network) (address : String) (t : Balances) :
    List BalanceRow :=
  t.rows.filter fun r => r.key.chain = chain && r.key.network = network && r.key.address = address

def adjustBalanceTx (req : AdjustRequest) (t : Balances) : Except String Balances :=
  -- the inserted row is formed first, so its amount has to fit even when it is not stored
  if FitsNumeric req.delta ∧
      FitsNumeric (amountOf t (req.key req.chain req.network) + req.delta) then
    .ok (upsertFrom BalanceRow.adjust (BulkAdjustItem.key req.chain req.network)
      (BulkAdjustItem.row req.chain req.network) BalanceRow.adjust_key
      (BulkAdjustItem.row_key req.chain req.network) req.toBulkAdjustItem t)
  else wrapSql "adjust balance" (.error .numericOutOfRange)

def adjustEach (chain : Chain) (network : Network) (items : List BulkAdjustItem) (t : Balances) :
    Except String Balances :=
  items.foldlM (fun t i => adjustBalanceTx ⟨i, chain, network⟩ t) t

section Bulk
variable (chain : Chain) (network : Network)

def listedFor (items : List BulkAdjustItem) (k : BalanceKey) : List BulkAdjustItem :=
  listed (BulkAdjustItem.key chain network) items k

/-- Every amount that the statement would store fits its column. -/
def writesFit (c : RowChoice BulkAdjustItem) (items : List BulkAdjustItem) (t : Balances) : Bool :=
  items.all fun i =>
    match KeyedTable.find? t (i.key chain network) with
    | some r => decide (FitsNumeric (applyJoined BalanceRow.adjust c
        (listedFor chain network items (i.key chain network)) r).amount)
    | none => decide (FitsNumeric i.delta)

def bulkAdjustBalanceTx (c : RowChoice BulkAdjustItem) (items : List BulkAdjustItem)
    (t : Balances) : Except String Balances :=
  if items.isEmpty then .ok t
  else wrapSql "bulk adjust balances" <|
    if writesFit chain network c items t then
      match mergeFrom BalanceRow.adjust (BulkAdjustItem.key chain network)
          (BulkAdjustItem.row chain network) BalanceRow.adjust_key c items t with
      | some t' => .ok t'
      | none => .error .uniqueViolation
    else .error .numericOutOfRange

variable {chain network}

variable {k : BalanceKey}

theorem mem_listedFor {items : List BulkAdjustItem} {i : BulkAdjustItem} :
    i ∈ listedFor chain network items k ↔ i ∈ items ∧ i.key chain network = k :=
  mem_listed (BulkAdjustItem.key chain network)

@[simp] theorem listedFor_nil (k : BalanceKey) : listedFor chain network [] k = [] := rfl

theorem listedFor_cons (i : BulkAdjustItem) (items : List BulkAdjustItem) (k : BalanceKey) :
    listedFor chain network (i :: items) k =
      if i.key chain network = k then i :: listedFor chain network items k
      else listedFor chain network items k := by
  simp [listedFor, listed, List.filter_cons]

theorem listedFor_append (l m : List BulkAdjustItem) (k : BalanceKey) :
    listedFor chain network (l ++ m) k =
      listedFor chain network l k ++ listedFor chain network m k := by
  simp [listedFor, listed]

def listedSum (chain : Chain) (network : Network) (items : List BulkAdjustItem) (k : BalanceKey) :
    Int :=
  sumWhere (fun i => decide (BulkAdjustItem.key chain network i = k)) BulkAdjustItem.delta items

theorem listedSum_eq (items : List BulkAdjustItem) (k : BalanceKey) :
    listedSum chain network items k =
      ((listedFor chain network items k).map BulkAdjustItem.delta).sum := by
  unfold listedSum
  induction items with
  | nil => rfl
  | cons i l ih =>
    rw [sumWhere_cons, ih, listedFor_cons]
    split
    · rename_i hk
      simp only [decide_eq_true_eq] at hk
      simp [hk]
    · rename_i hk
      simp only [decide_eq_true_eq] at hk
      simp [hk]

variable {c : RowChoice BulkAdjustItem} {items : List BulkAdjustItem} {t t' : Balances}

theorem bulkAdjust_ok (h : bulkAdjustBalanceTx chain network c items t = .ok t') :
    writesFit chain network c items t = true ∧
      mergeFrom BalanceRow.adjust (BulkAdjustItem.key chain network)
        (BulkAdjustItem.row chain network) BalanceRow.adjust_key c items t = some t' := by
  unfold bulkAdjustBalanceTx at h
  split at h
  · rename_i he
    cases h
    rw [List.isEmpty_iff.mp he]
    refine ⟨rfl, ?_⟩
    -- an empty list joins nothing to any row
    show some _ = some t
    congr 1
    apply Table.update_eq_self
    intro r _
    simp [applyJoined, listed]
  · have h := Result.mapError_ok h
    split at h
    · rename_i hfit
      split at h
      · rename_i t'' hm
        cases h
        exact ⟨hfit, hm⟩
      · cases h
    · cases h

/-- The statement fails on an amount that does not fit, and on a new key that is listed twice. -/
theorem bulkAdjust_ok_iff :
    (∃ t', bulkAdjustBalanceTx chain network c items t = .ok t') ↔
      writesFit chain network c items t = true ∧
        ∀ k, KeyedTable.find? t k = none → (listedFor chain network items k).length ≤ 1 := by
  have hmerge : (∃ t', mergeFrom BalanceRow.adjust (BulkAdjustItem.key chain network)
      (BulkAdjustItem.row chain network) BalanceRow.adjust_key c items t = some t') ↔
      ∀ k, KeyedTable.find? t k = none → (listedFor chain network items k).length ≤ 1 :=
    mergeFrom_isSome_iff BalanceRow.adjust_key (BulkAdjustItem.row_key chain network)
  constructor
  · rintro ⟨t', h⟩
    exact ⟨(bulkAdjust_ok h).1, hmerge.mp ⟨t', (bulkAdjust_ok h).2⟩⟩
  · rintro ⟨hfit, hone⟩
    obtain ⟨t', hm⟩ := hmerge.mpr hone
    unfold bulkAdjustBalanceTx
    split
    · exact ⟨t, rfl⟩
    · exact ⟨t', by rw [hm]; rfl⟩

theorem bulkAdjust_find? (h : bulkAdjustBalanceTx chain network c items t = .ok t')
    (k : BalanceKey) :
    KeyedTable.find? t' k =
      ((KeyedTable.find? t k).map
          (applyJoined BalanceRow.adjust c (listedFor chain network items k))).or
        ((listedFor chain network items k).head?.map (BulkAdjustItem.row chain network)) :=
  mergeFrom_find? BalanceRow.adjust_key (BulkAdjustItem.row_key chain network)
    (bulkAdjust_ok h).2 k

/-- The delta that the statement adds to a key: the chosen one, or that of the inserted item. -/
def appliedDelta (chain : Chain) (network : Network) (c : RowChoice BulkAdjustItem)
    (items : List BulkAdjustItem) (t : Balances) (k : BalanceKey) : Int :=
  let l := listedFor chain network items k
  ((if (KeyedTable.find? t k).isSome then c.pick l else l.head?).map BulkAdjustItem.delta).getD 0

theorem applyJoined_amount {r : BalanceRow} (hr : KeyedTable.find? t k = some r) :
    (applyJoined BalanceRow.adjust c (listedFor chain network items k) r).amount =
      amountOf t k + appliedDelta chain network c items t k := by
  unfold applyJoined appliedDelta
  rw [amountOf_some hr, hr]
  cases hp : c.pick (listedFor chain network items k) with
  | none => simp [hp]
  | some i => simp [hp, BalanceRow.adjust]

theorem bulkAdjust_amount (h : bulkAdjustBalanceTx chain network c items t = .ok t')
    (k : BalanceKey) :
    amountOf t' k = amountOf t k + appliedDelta chain network c items t k := by
  have hf := bulkAdjust_find? h k
  cases hr : KeyedTable.find? t k with
  | some r =>
    rw [hr] at hf
    rw [amountOf_some hf, applyJoined_amount hr]
  | none =>
    rw [hr] at hf
    simp only [amountOf, appliedDelta, hf, hr, Option.isSome_none, Option.map_none, Option.none_or]
    cases (listedFor chain network items k).head? with
    | none => rfl
    | some i => simp [BulkAdjustItem.row]

theorem bulkAdjust_isSome (h : bulkAdjustBalanceTx chain network c items t = .ok t')
    (k : BalanceKey) : (KeyedTable.find? t' k).isSome = true ↔
      (KeyedTable.find? t k).isSome = true ∨ listedFor chain network items k ≠ [] := by
  rw [bulkAdjust_find? h k]
  cases KeyedTable.find? t k with
  | some r => simp
  | none => cases listedFor chain network items k <;> simp

theorem appliedDelta_congr {u : Balances}
    (h : (KeyedTable.find? t k).isSome = (KeyedTable.find? u k).isSome) :
    appliedDelta chain network c items t k = appliedDelta chain network c items u k := by
  simp only [appliedDelta, h]

theorem bulkAdjust_frame (h : bulkAdjustBalanceTx chain network c items t = .ok t')
    (hk : listedFor chain network items k = []) : KeyedTable.find? t' k = KeyedTable.find? t k := by
  rw [bulkAdjust_find? h k, hk]
  cases KeyedTable.find? t k with
  | none => rfl
  | some r => simp [applyJoined]

theorem listedFor_foreign (h : ¬ (k.chain = chain ∧ k.network = network)) :
    listedFor chain network items k = [] := by
  apply List.filter_eq_nil_iff.mpr
  intro i _
  simp only [decide_eq_true_eq]
  rintro rfl
  exact h ⟨rfl, rfl⟩

/-- The items listed for one key may be summed up: there is one, or all are zero. -/
def Separable (l : List BulkAdjustItem) : Prop := l.length ≤ 1 ∨ ∀ i ∈ l, i.delta = 0

theorem Separable.perm {l m : List BulkAdjustItem} (h : l.Perm m) (hl : Separable l) :
    Separable m := by
  rcases hl with hl | hl
  · exact .inl (h.length_eq ▸ hl)
  · exact .inr fun i hi => hl i (h.mem_iff.mpr hi)

theorem Separable.sum_eq {l : List BulkAdjustItem} (h : Separable l) {i : BulkAdjustItem}
    (hi : i ∈ l) : (l.map BulkAdjustItem.delta).sum = i.delta := by
  rcases h with h | h
  · have hlen : l.length = 1 := by
      have := List.length_pos_of_mem hi
      omega
    obtain ⟨j, rfl⟩ := List.length_eq_one_iff.mp hlen
    rw [List.mem_singleton.mp hi]
    simp
  · rw [h i hi]
    apply List.sum_eq_zero
    intro d hd
    obtain ⟨j, hj, rfl⟩ := List.mem_map.mp hd
    exact h j hj

theorem appliedDelta_eq_listedSum (h : Separable (listedFor chain network items k)) :
    appliedDelta chain network c items t k = listedSum chain network items k := by
  have hpick : ∀ o : Option BulkAdjustItem, (listedFor chain network items k ≠ [] →
      ∃ i, o = some i) → (∀ i, o = some i → i ∈ listedFor chain network items k) →
      (o.map BulkAdjustItem.delta).getD 0 = listedSum chain network items k := by
    intro o hne hmem
    rw [listedSum_eq]
    cases o with
    | none =>
      have hnil : listedFor chain network items k = [] := by
        by_contra hn
        obtain ⟨i, hi⟩ := hne hn
        cases hi
      simp [hnil]
    | some i => exact (h.sum_eq (hmem i rfl)).symm
  apply hpick
  · intro hne
    split
    · exact c.pick_isSome hne
    · exact ⟨_, List.head?_eq_some_head hne⟩
  · intro i hi
    split at hi
    · exact c.pick_mem hi
    · exact List.mem_of_head? hi

theorem bulkAdjust_adds (h : bulkAdjustBalanceTx chain network c items t = .ok t')
    (hk : Separable (listedFor chain network items k)) :
    amountOf t' k = amountOf t k + listedSum chain network items k := by
  rw [bulkAdjust_amount h, appliedDelta_eq_listedSum hk]

theorem separable_of_adds (hsto : (KeyedTable.find? t k).isSome = true)
    (h : ∀ c, appliedDelta chain network c items t k = listedSum chain network items k) :
    Separable (listedFor chain network items k) := by
  rw [listedSum_eq] at h
  have hall : ∀ i ∈ listedFor chain network items k,
      i.delta = ((listedFor chain network items k).map BulkAdjustItem.delta).sum := by
    intro i hi
    obtain ⟨c, hc⟩ := RowChoice.exists_pick hi
    rw [← h c]
    simp [appliedDelta, hsto, hc]
  rcases Nat.lt_or_ge (listedFor chain network items k).length 2 with hlt | hge
  · exact .inl (by omega)
  · refine .inr fun i hi => (hall i hi).trans (sum_eq_zero_of_forall_eq_sum ?_ (by simpa using hge))
    intro d hd
    obtain ⟨j, hj, rfl⟩ := List.mem_map.mp hd
    exact hall j hj

end Bulk

end MultichainIndexer
