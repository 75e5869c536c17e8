import MultichainIndexer.Reconciliation.Service

/-!
# What a reconciliation run reports

The chain answers with its balances, and the books say what is stored. A report
is truthful if a match is one with the balance of the row's own token, right
books give no mismatch, and the counters count the snapshots.
-/

namespace MultichainIndexer

open Relational

namespace Reconciliation

/-- The adapter answers each query with the balance on the chain. -/
def Truthful (adapter : Adapter) (onChain : String → String → Int) : Prop :=
  ∀ address contract, ∃ text, adapter address contract = .ok text ∧
    Text.parseInt text = some (onChain address contract)

section Spec
variable (books : Books) (failures : Failures) (chain : Chain) (network : Network)
  (onChain : String → String → Int) (staked : String → UUID → Int)

/-- Every liquid row has the balance on the chain and every staked row the staked amount; an
address without rows has nothing of the native coin. -/
structure BooksRight : Prop where
  liquid : ∀ wa ∈ getActive chain network books.watched,
    ∀ row ∈ getByAddress chain network wa.address books.balances, row.key.balanceType = "" →
      row.amount = onChain wa.address (Entry.contract books ⟨wa.address, some row⟩)
  staked : ∀ wa ∈ getActive chain network books.watched,
    ∀ row ∈ getByAddress chain network wa.address books.balances, row.key.balanceType = "staked" →
      row.amount = staked wa.address row.key.tokenID
  empty : ∀ wa ∈ getActive chain network books.watched,
    getByAddress chain network wa.address books.balances = [] → onChain wa.address "" = 0

structure ReportsTruly (result : RunResult) : Prop where
  length : result.snapshots.length = (entries books failures chain network).length
  isMatch : ∀ (i : Nat) e snap, (entries books failures chain network)[i]? = some e →
    result.snapshots[i]? = some snap → snap.isMatch = true →
      e.amount = onChain e.address (e.contract books)
  noMismatch : BooksRight books chain network onChain staked →
    ∀ snap ∈ result.snapshots, snap.isMatch = true
  total : result.total = result.snapshots.length
  sum : result.total = result.matched + result.mismatched

/-- No failed lookup and no staked row misleads the comparison. -/
structure NotMisled : Prop where
  /-- An amount that equals the native balance, for which the chain is asked where the lookup has
  failed, equals the balance of the row's own token. -/
  lookups : ∀ (i : Nat) e row, (entries books failures chain network)[i]? = some e →
    e.row = some row → Unresolved failures (entries books failures chain network) i row.key.tokenID →
      row.amount = onChain e.address "" → row.amount = onChain e.address (e.contract books)
  liquid : BooksRight books chain network onChain staked → ∀ (i : Nat) e row,
    (entries books failures chain network)[i]? = some e → e.row = some row →
      row.key.balanceType = "" →
      Unresolved failures (entries books failures chain network) i row.key.tokenID →
        onChain e.address (e.contract books) = onChain e.address ""
  staked : BooksRight books chain network onChain staked → ∀ (i : Nat) e row,
    (entries books failures chain network)[i]? = some e → e.row = some row →
      row.key.balanceType = "staked" → staked e.address row.key.tokenID =
        onChain e.address (asked books failures (entries books failures chain network) i e)

end Spec

section Report
variable {adapter : Adapter} {books : Books} {failures : Failures} {chain : Chain}
  {network : Network} {onChain : String → String → Int} {staked : String → UUID → Int}

theorem reconcileOne_isMatch (htruth : Truthful adapter onChain) (address contract : String)
    (amount : Int) :
    (reconcileOne adapter chain network address contract (toString amount)).isMatch = true ↔
      amount = onChain address contract := by
  obtain ⟨text, hans, hparse⟩ := htruth address contract
  simp only [reconcileOne, hans, hparse, Text.parseInt_toString, decide_eq_true_eq]
  omega

variable {e : Entry} {row : BalanceRow}

theorem mem_entries (h : e ∈ entries books failures chain network) :
    ∃ wa ∈ getActive chain network books.watched, e.address = wa.address ∧
      match e.row with
      | none => getByAddress chain network wa.address books.balances = []
      | some row => row ∈ getByAddress chain network wa.address books.balances := by
  obtain ⟨⟨wa, n⟩, hwa, he⟩ := List.mem_flatMap.mp h
  have hmem : wa ∈ getActive chain network books.watched := by
    obtain ⟨-, hget⟩ := List.mem_zipIdx' hwa
    exact hget ▸ List.getElem_mem _
  unfold entriesOf at he
  split_ifs at he with hfails
  · cases he
  · split at he
    · rename_i hrows
      cases List.mem_singleton.mp he
      exact ⟨wa, hmem, rfl, hrows⟩
    · obtain ⟨row, hrow, rfl⟩ := List.mem_map.mp he
      exact ⟨wa, hmem, rfl, hrow⟩

theorem kind_of_entry (h : e ∈ entries books failures chain network) (hrow : e.row = some row) :
    row.key.balanceType = "" ∨ row.key.balanceType = "staked" := by
  obtain ⟨wa, -, -, hmem⟩ := mem_entries h
  rw [hrow] at hmem
  exact books.kinds row (List.mem_filter.mp hmem).1

theorem BooksRight.amount (h : BooksRight books chain network onChain staked)
    (he : e ∈ entries books failures chain network) :
    (e.row = none → onChain e.address "" = 0) ∧ ∀ row, e.row = some row →
      (row.key.balanceType = "" → row.amount = onChain e.address (e.contract books)) ∧
      (row.key.balanceType = "staked" → row.amount = staked e.address row.key.tokenID) := by
  obtain ⟨address, erow⟩ := e
  obtain ⟨wa, hwa, rfl, hmem⟩ := mem_entries he
  constructor
  · rintro rfl
    exact h.empty wa hwa hmem
  · rintro row rfl
    exact ⟨h.liquid wa hwa row hmem, h.staked wa hwa row hmem⟩

variable {es : List Entry}

theorem asked_none {i : Nat} (h : e.row = none) :
    asked books failures es i e = "" := by
  simp only [asked, h]

theorem asked_some {i : Nat} (h : e.row = some row) :
    asked books failures es i e =
      if Unresolved failures es i row.key.tokenID then "" else e.contract books := by
  simp only [asked, h]

theorem Entry.amount_some (h : e.row = some row) : e.amount = row.amount := by
  simp only [Entry.amount, h]

theorem matches_iff :
    (∀ (i : Nat) e, es[i]? = some e →
      e.amount = onChain e.address (asked books failures es i e) →
      e.amount = onChain e.address (e.contract books)) ↔
    ∀ (i : Nat) e row, es[i]? = some e → e.row = some row →
      Unresolved failures es i row.key.tokenID →
      row.amount = onChain e.address "" → row.amount = onChain e.address (e.contract books) := by
  constructor
  · intro h i e row hi hrow hun hamo
    have hi' := h i e hi
    rw [Entry.amount_some hrow, asked_some hrow, if_pos hun] at hi'
    exact hi' hamo
  · intro h i e hi hamo
    cases hrow : e.row with
    | none =>
      rw [asked_none hrow] at hamo
      rw [hamo, Entry.contract, hrow]
    | some row =>
      rw [Entry.amount_some hrow, asked_some hrow] at hamo
      rw [Entry.amount_some hrow]
      split_ifs at hamo with hun
      · exact h i e row hi hrow hun hamo
      · exact hamo

/-- With right books, every row is found to match exactly if neither a failed lookup nor a staked
row misleads the comparison. -/
theorem noMismatch_iff (hbooks : BooksRight books chain network onChain staked)
    (hes : ∀ e ∈ es, e ∈ entries books failures chain network) :
    (∀ (i : Nat) e, es[i]? = some e → e.amount = onChain e.address (asked books failures es i e)) ↔
    (∀ (i : Nat) e row, es[i]? = some e → e.row = some row → row.key.balanceType = "" →
      Unresolved failures es i row.key.tokenID →
        onChain e.address (e.contract books) = onChain e.address "") ∧
    ∀ (i : Nat) e row, es[i]? = some e → e.row = some row → row.key.balanceType = "staked" →
      staked e.address row.key.tokenID = onChain e.address (asked books failures es i e) := by
  constructor
  · intro h
    refine ⟨fun i e row hi hrow hkind hun => ?_, fun i e row hi hrow hkind => ?_⟩
    · have hright := (hbooks.amount (hes e (List.mem_of_getElem? hi))).2 row hrow
      have hi' := h i e hi
      rw [Entry.amount_some hrow, asked_some hrow, if_pos hun, hright.1 hkind] at hi'
      exact hi'
    · have hright := (hbooks.amount (hes e (List.mem_of_getElem? hi))).2 row hrow
      have hi' := h i e hi
      rw [Entry.amount_some hrow, hright.2 hkind] at hi'
      exact hi'
  · rintro ⟨hliq, hsta⟩ i e hi
    have hmem := hes e (List.mem_of_getElem? hi)
    have hright := hbooks.amount hmem
    cases hrow : e.row with
    | none =>
      rw [asked_none hrow, hright.1 hrow, Entry.amount, hrow]
    | some row =>
      rw [Entry.amount_some hrow]
      rcases kind_of_entry hmem hrow with hkind | hkind
      · rw [(hright.2 row hrow).1 hkind, asked_some hrow]
        split_ifs with hun
        · exact hliq i e row hi hrow hkind hun
        · rfl
      · rw [(hright.2 row hrow).2 hkind]
        exact hsta i e row hi hrow hkind

theorem reportsTruly_iff_of_done {p : Progress} (htruth : Truthful adapter onChain)
    (h : Done adapter books failures chain network (entries books failures chain network) p) :
    ReportsTruly books failures chain network onChain staked p.result ↔
      NotMisled books failures chain network onChain staked := by
  have hmatch : ∀ (i : Nat) e snap, (entries books failures chain network)[i]? = some e →
      p.result.snapshots[i]? = some snap → (snap.isMatch = true ↔ e.amount = onChain e.address
        (asked books failures (entries books failures chain network) i e)) := by
    intro i e snap hi hsnap
    rw [h.each i e hi, Option.some.injEq] at hsnap
    rw [← hsnap]
    exact reconcileOne_isMatch htruth _ _ _
  constructor
  · intro hrep
    have hmat := matches_iff.mp fun i e hi hamo =>
      hrep.isMatch i e _ hi (h.each i e hi) ((hmatch i e _ hi (h.each i e hi)).mpr hamo)
    have hall := fun hbooks => (noMismatch_iff hbooks fun _ he => he).mp fun i e hi =>
      (hmatch i e _ hi (h.each i e hi)).mp
        (hrep.noMismatch hbooks _ (List.mem_of_getElem? (h.each i e hi)))
    exact ⟨hmat, fun hbooks => (hall hbooks).1, fun hbooks => (hall hbooks).2⟩
  · intro hsound
    refine ⟨h.count, ?_, ?_, h.total, ?_⟩
    · intro i e snap hi hsnap htrue
      exact matches_iff.mpr hsound.lookups i e hi ((hmatch i e snap hi hsnap).mp htrue)
    · intro hbooks snap hmem
      obtain ⟨i, hlt, hget⟩ := List.mem_iff_getElem.mp hmem
      have hlt' : i < (entries books failures chain network).length := h.count ▸ hlt
      have hall := (noMismatch_iff hbooks fun _ he => he).mpr ⟨hsound.liquid hbooks, hsound.staked hbooks⟩
      have hi := List.getElem?_eq_getElem hlt'
      exact (hmatch i _ snap hi (hget ▸ List.getElem?_eq_getElem hlt)).mpr (hall i _ hi)
    · rw [h.total, h.matched, h.mismatched]
      simpa using List.length_eq_countP_add_countP (l := p.result.snapshots) (·.isMatch)

/-- The report of a run is truthful exactly if no failed lookup and no staked row misleads it. -/
theorem reconcile_reportsTruly_iff {adapters : Chain → Network → Option Adapter}
    (hadapter : adapters chain network = some adapter) (htruth : Truthful adapter onChain)
    (hwatched : failures.watched = none) :
    ∃ result, reconcile adapters books failures chain network = .ok result ∧
      (ReportsTruly books failures chain network onChain staked result ↔
        NotMisled books failures chain network onChain staked) := by
  have hdone : Done adapter books failures chain network (entries books failures chain network) _ :=
    (Done.init chain network).addresses _
  refine ⟨_, ?_, reportsTruly_iff_of_done htruth hdone⟩
  simp only [reconcile, hadapter, hwatched]

theorem notMisled_of_liquid (htoken : ∀ n, failures.token n = false)
    (hliq : ∀ r ∈ books.balances.rows, r.key.balanceType = "") :
    NotMisled books failures chain network onChain staked := by
  have hres : ∀ {i : Nat} {e : Entry} {row : BalanceRow},
      (entries books failures chain network)[i]? = some e → e.row = some row →
      ¬Unresolved failures (entries books failures chain network) i row.key.tokenID := by
    intro i e row hi hrow hun
    have hfails := hun i (Nat.le_refl i) (by simp [tokenAt, hi, hrow])
    rw [htoken] at hfails
    cases hfails
  refine ⟨fun i e row hi hrow hun => absurd hun (hres hi hrow),
    fun _ i e row hi hrow _ hun => absurd hun (hres hi hrow),
    fun _ i e row hi hrow hkind => ?_⟩
  obtain ⟨wa, -, -, hmem⟩ := mem_entries (List.mem_of_getElem? hi)
  rw [hrow] at hmem
  have hno := hliq row (List.mem_filter.mp hmem).1
  rw [hno] at hkind
  exact absurd hkind (by decide)

end Report

section Runs

def oneAddress (rows : List BalanceRow) (unique : rows.Pairwise fun a b => ¬a.key = b.key)
    (kinds : ∀ r ∈ rows, r.key.balanceType = "" ∨ r.key.balanceType = "staked") : Books where
  watched := ⟨[{ address := "a", chain := .base, network := .mainnet }], by simp⟩
  balances := ⟨rows, unique⟩
  tokens := ⟨[{ id := 1, chain := .base, network := .mainnet, contractAddress := "c" }], by simp⟩
  kinds := kinds

def liquidBooks : Books :=
  oneAddress [{ key := ⟨.base, .mainnet, "a", 1, ""⟩, amount := 5 }] (by simp) (by simp)

def stakedBooks : Books :=
  oneAddress [{ key := ⟨.base, .mainnet, "a", 1, ""⟩, amount := 5 },
    { key := ⟨.base, .mainnet, "a", 1, "staked"⟩, amount := 7 }] (by simp) (by simp)

def onlyOf (contract : String) (_address c : String) : Int := if c = contract then 5 else 0

def answers (contract : String) : Adapter :=
  fun address c => .ok (toString (onlyOf contract address c))

theorem answers_truthful (contract : String) : Truthful (answers contract) (onlyOf contract) :=
  fun _ _ => ⟨_, rfl, Text.parseInt_toString _⟩

theorem reconcile_reportsTruly_liquid :
    ∃ result, reconcile (fun _ _ => some (answers "c")) liquidBooks {} .base .mainnet = .ok result ∧
      ReportsTruly liquidBooks {} .base .mainnet (onlyOf "c") (fun _ _ => 0) result := by
  have hliq : NotMisled liquidBooks {} .base .mainnet (onlyOf "c") fun _ _ => 0 := by
    apply notMisled_of_liquid fun _ => rfl
    simp [liquidBooks, oneAddress]
  have hrep : ∃ result,
      reconcile (fun _ _ => some (answers "c")) liquidBooks {} .base .mainnet = .ok result ∧
        (ReportsTruly liquidBooks {} .base .mainnet (onlyOf "c") (fun _ _ => 0) result ↔
          NotMisled liquidBooks {} .base .mainnet (onlyOf "c") fun _ _ => 0) :=
    reconcile_reportsTruly_iff rfl (answers_truthful "c") rfl
  obtain ⟨result, hrun, hiff⟩ := hrep
  exact ⟨result, hrun, hiff.mpr hliq⟩

/-- Where the lookup fails, five of the token match five of the native coin, though the address
has none of the token. With right books and seven staked, the staked row is a mismatch. -/
theorem reconcile_misled :
    (∃ result, reconcile (fun _ _ => some (answers "")) liquidBooks { token := fun _ => true }
        .base .mainnet = .ok result ∧ result.matched = 1 ∧
      ¬ReportsTruly liquidBooks { token := fun _ => true } .base .mainnet (onlyOf "")
        (fun _ _ => 0) result) ∧
    ∃ result, reconcile (fun _ _ => some (answers "c")) stakedBooks {} .base .mainnet = .ok result ∧
      BooksRight stakedBooks .base .mainnet (onlyOf "c") (fun _ _ => 7) ∧
      result.mismatched = 1 ∧
      ¬ReportsTruly stakedBooks {} .base .mainnet (onlyOf "c") (fun _ _ => 7) result := by
  constructor
  · refine ⟨_, rfl, by decide +kernel, fun hrep => ?_⟩
    have hfalse := hrep.isMatch 0 ⟨"a", some _⟩ _ rfl rfl (by decide +kernel)
    exact absurd hfalse (by decide +kernel)
  · have hbooks : BooksRight stakedBooks .base .mainnet (onlyOf "c") fun _ _ => 7 := by
      refine ⟨?_, ?_, ?_⟩ <;> decide +kernel
    refine ⟨_, rfl, hbooks, by decide +kernel, fun hrep => ?_⟩
    have hall := hrep.noMismatch hbooks
    exact absurd hall (by decide +kernel)

end Runs

end Reconciliation

end MultichainIndexer
