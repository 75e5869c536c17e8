import MultichainIndexer.Store.BalanceRepo
import MultichainIndexer.Store.WatchedAddressRepo

/-!
# Reconciliation of stored balances

A run goes through the watched addresses and through the stored rows of each. For
a row it asks the chain for the balance of the row's token and compares the two
amounts. The contract of a token is looked up once; where the lookup fails the
native coin is asked for. A row of a staked balance is treated as any other.

The times of the run and of the snapshots, the metrics, the alert and the
persistence of the snapshots are left out: no comparison reads them.
-/

namespace MultichainIndexer

open Relational

namespace Reconciliation

structure SnapshotResult where
  chain : Chain
  network : Network
  address : String
  tokenContract : String
  onChainBalance : String := ""
  dbBalance : String
  difference : String := ""
  isMatch : Bool := false

structure RunResult where
  chain : Chain
  network : Network
  total : Nat := 0
  matched : Nat := 0
  mismatched : Nat := 0
  errors : Nat := 0
  snapshots : List SnapshotResult := []

/-- The tables that a run reads. A balance is liquid or staked. -/
structure Books where
  watched : WatchedAddresses
  balances : Balances
  tokens : Tokens
  kinds : ∀ r ∈ balances.rows, r.key.balanceType = "" ∨ r.key.balanceType = "staked"

/-- Which queries fail: that of the watched addresses, that of the rows of an address, by its
place among the addresses, and the lookup of a token, by the place of its snapshot. -/
structure Failures where
  watched : Option String := none
  rows : Nat → Bool := fun _ => false
  token : Nat → Bool := fun _ => false

/-- `GetBalance` of an address and a contract; the empty contract is the native coin. -/
abbrev Adapter := String → String → Except String String

structure Progress where
  tokenContractCache : UUID → Option String := fun _ => none
  result : RunResult

def RunResult.add (r : RunResult) (snap : SnapshotResult) : RunResult :=
  { r with
    snapshots := r.snapshots ++ [snap]
    total := r.total + 1
    matched := if snap.isMatch then r.matched + 1 else r.matched
    mismatched := if snap.isMatch then r.mismatched else r.mismatched + 1 }

def findByID (tokens : Tokens) (id : UUID) : Option Token := tokens.rows.find? fun t => t.id = id

def findTokenContract (tokens : Tokens) (fails : Bool) (id : UUID) : Option String :=
  if fails then none else (findByID tokens id).map Token.contractAddress

section Run
variable (adapter : Adapter) (books : Books) (failures : Failures) (chain : Chain)
  (network : Network)

def reconcileOne (address tokenContract dbAmount : String) : SnapshotResult :=
  let snap : SnapshotResult :=
    { chain := chain
      network := network
      address := address
      tokenContract := tokenContract
      dbBalance := dbAmount }
  match adapter address tokenContract with
  | .error _ => { snap with onChainBalance := "ERROR", difference := "N/A" }
  | .ok onChain =>
    match Text.parseInt onChain, Text.parseInt dbAmount with
    | some onChainBig, some dbBig =>
      { snap with
        onChainBalance := onChain
        difference := toString (onChainBig - dbBig)
        isMatch := onChainBig - dbBig = 0 }
    | _, _ =>
      { snap with
        onChainBalance := onChain
        difference := "PARSE_ERROR"
        isMatch := onChain = dbAmount }

/-- The contract that is asked for, and the cache after that. -/
def contractOf (cache : UUID → Option String) (fails : Bool) (id : UUID) :
    String × (UUID → Option String) :=
  match cache id with
  | some cached => (cached, cache)
  | none =>
    match findTokenContract books.tokens fails id with
    | some contract => (contract, fun i => if i = id then some contract else cache i)
    | none => ("", cache)

def reconcileRow (address : String) (p : Progress) (row : BalanceRow) : Progress :=
  let looked := contractOf books p.tokenContractCache (failures.token p.result.snapshots.length)
    row.key.tokenID
  { tokenContractCache := looked.2
    result := p.result.add
      (reconcileOne adapter chain network address looked.1 (toString row.amount)) }

def reconcileAddress (p : Progress) (wa : WatchedAddress × Nat) : Progress :=
  if failures.rows wa.2 then { p with result.errors := p.result.errors + 1 }
  else
    match getByAddress chain network wa.1.address books.balances with
    | [] => { p with
        result := p.result.add (reconcileOne adapter chain network wa.1.address "" "0") }
    | dbBalances => dbBalances.foldl
        (reconcileRow adapter books failures chain network wa.1.address) p

end Run

def reconcile (adapters : Chain → Network → Option Adapter) (books : Books) (failures : Failures)
    (chain : Chain) (network : Network) : Except String RunResult :=
  match adapters chain network with
  | none => .error ("no balance query adapter registered for " ++ chain.text ++ ":" ++ network.text)
  | some adapter =>
    match failures.watched with
    | some err => .error ("get watched addresses: " ++ err)
    | none => .ok ((getActive chain network books.watched).zipIdx.foldl
      (reconcileAddress adapter books failures chain network)
      { result := { chain := chain, network := network } }).result

structure Entry where
  address : String
  row : Option BalanceRow

def Entry.amount (e : Entry) : Int :=
  match e.row with
  | none => 0
  | some row => row.amount

section Entries
variable (books : Books) (failures : Failures) (chain : Chain) (network : Network)

def entriesOf (wa : WatchedAddress × Nat) : List Entry :=
  if failures.rows wa.2 then []
  else
    match getByAddress chain network wa.1.address books.balances with
    | [] => [⟨wa.1.address, none⟩]
    | dbBalances => dbBalances.map fun row => ⟨wa.1.address, some row⟩

def entries : List Entry :=
  (getActive chain network books.watched).zipIdx.flatMap (entriesOf books failures chain network)

def Entry.contract (e : Entry) : String :=
  match e.row with
  | none => ""
  | some row => ((findByID books.tokens row.key.tokenID).map Token.contractAddress).getD ""

end Entries

def tokenAt (es : List Entry) (i : Nat) : Option UUID :=
  (es[i]?.bind Entry.row).map fun row => row.key.tokenID

/-- No lookup of the token has succeeded, up to and with the one for the place. -/
def Unresolved (failures : Failures) (es : List Entry) (i : Nat) (id : UUID) : Prop :=
  ∀ j, j ≤ i → tokenAt es j = some id → failures.token j = true

instance (failures : Failures) (es : List Entry) (i : Nat) (id : UUID) :
    Decidable (Unresolved failures es i id) :=
  inferInstanceAs (Decidable (∀ j, j ≤ i → tokenAt es j = some id → failures.token j = true))

def asked (books : Books) (failures : Failures) (es : List Entry) (i : Nat) (e : Entry) : String :=
  match e.row with
  | none => ""
  | some row => if Unresolved failures es i row.key.tokenID then "" else e.contract books

section Loop
variable {adapter : Adapter} {books : Books} {failures : Failures} {chain : Chain}
  {network : Network} {es : List Entry} {p : Progress}

theorem tokenAt_append {e : Entry} {i : Nat} (h : i < es.length) :
    tokenAt (es ++ [e]) i = tokenAt es i := by
  simp only [tokenAt, List.getElem?_append_left h]

theorem tokenAt_length (es : List Entry) (e : Entry) :
    tokenAt (es ++ [e]) es.length = e.row.map fun row => row.key.tokenID := by
  simp [tokenAt]

theorem asked_append {e e' : Entry} {i : Nat} (h : i < es.length) :
    asked books failures (es ++ [e']) i e = asked books failures es i e := by
  have hiff : ∀ id, Unresolved failures (es ++ [e']) i id ↔ Unresolved failures es i id := by
    intro id
    refine forall_congr' fun j => forall_congr' fun hj => ?_
    rw [tokenAt_append (Nat.lt_of_le_of_lt hj h)]
  simp only [asked, hiff]

/-- The token has been looked up with success. -/
def Resolved (failures : Failures) (es : List Entry) (id : UUID) : Prop :=
  ∃ j, j < es.length ∧ tokenAt es j = some id ∧ failures.token j = false

structure Done (adapter : Adapter) (books : Books) (failures : Failures) (chain : Chain)
    (network : Network) (es : List Entry) (p : Progress) : Prop where
  count : p.result.snapshots.length = es.length
  each : ∀ (i : Nat) e, es[i]? = some e → p.result.snapshots[i]? =
    some (reconcileOne adapter chain network e.address (asked books failures es i e)
      (toString e.amount))
  cached : ∀ id contract, p.tokenContractCache id = some contract ↔
    Resolved failures es id ∧ (findByID books.tokens id).map Token.contractAddress = some contract
  total : p.result.total = p.result.snapshots.length
  matched : p.result.matched = p.result.snapshots.countP (·.isMatch)
  mismatched : p.result.mismatched = p.result.snapshots.countP (!·.isMatch)

def reconcileEntry (adapter : Adapter) (books : Books) (failures : Failures) (chain : Chain)
    (network : Network) (p : Progress) (e : Entry) : Progress :=
  match e.row with
  | none => { p with
      result := p.result.add (reconcileOne adapter chain network e.address "" "0") }
  | some row => reconcileRow adapter books failures chain network e.address p row

theorem reconcileAddress_eq (p : Progress) (wa : WatchedAddress × Nat) :
    reconcileAddress adapter books failures chain network p wa =
      if failures.rows wa.2 then { p with result.errors := p.result.errors + 1 }
      else (entriesOf books failures chain network wa).foldl
        (reconcileEntry adapter books failures chain network) p := by
  unfold reconcileAddress entriesOf
  split_ifs with hfails
  · rfl
  · split
    · rfl
    · rw [List.foldl_map]
      rfl

theorem Done.add (h : Done adapter books failures chain network es p) (e : Entry)
    {cache : UUID → Option String} {contract : String}
    (hcon : contract = asked books failures (es ++ [e]) es.length e)
    (hcache : ∀ id c, cache id = some c ↔ Resolved failures (es ++ [e]) id ∧
      (findByID books.tokens id).map Token.contractAddress = some c) :
    Done adapter books failures chain network (es ++ [e])
      { tokenContractCache := cache
        result := p.result.add
          (reconcileOne adapter chain network e.address contract (toString e.amount)) } := by
  refine ⟨?_, ?_, hcache, ?_, ?_, ?_⟩
  · simp [RunResult.add, h.count]
  · intro i e' hi
    by_cases hlt : i < es.length
    · rw [List.getElem?_append_left hlt] at hi
      rw [asked_append hlt]
      exact (List.getElem?_append_left (h.count ▸ hlt)).trans (h.each i e' hi)
    · have hlt' := (List.getElem?_eq_some_iff.mp hi).1
      rw [List.length_append, List.length_singleton] at hlt'
      obtain rfl : i = es.length := by omega
      rw [List.getElem?_concat_length] at hi
      cases hi
      rw [← hcon, ← h.count]
      exact List.getElem?_concat_length
  · simp [RunResult.add, h.total]
  · simp only [RunResult.add, List.countP_append, List.countP_singleton, h.matched]
    split_ifs <;> rfl
  · simp only [RunResult.add, List.countP_append, List.countP_singleton, h.mismatched]
    split_ifs <;> simp_all

theorem resolved_append (es : List Entry) (e : Entry) (id : UUID) :
    Resolved failures (es ++ [e]) id ↔ Resolved failures es id ∨
      (e.row.map fun row => row.key.tokenID) = some id ∧ failures.token es.length = false := by
  constructor
  · rintro ⟨j, hj, htoken, hok⟩
    rw [List.length_append, List.length_singleton] at hj
    by_cases hlt : j < es.length
    · rw [tokenAt_append hlt] at htoken
      exact .inl ⟨j, hlt, htoken, hok⟩
    · obtain rfl : j = es.length := by omega
      rw [tokenAt_length] at htoken
      exact .inr ⟨htoken, hok⟩
  · rintro (⟨j, hj, htoken, hok⟩ | ⟨htoken, hok⟩)
    · refine ⟨j, ?_, (tokenAt_append hj).trans htoken, hok⟩
      rw [List.length_append]
      omega
    · exact ⟨es.length, by simp, (tokenAt_length es e).trans htoken, hok⟩

variable {address : String} {row : BalanceRow}

theorem asked_of_resolved (h : Resolved failures (es ++ [⟨address, some row⟩]) row.key.tokenID) :
    asked books failures (es ++ [⟨address, some row⟩]) es.length ⟨address, some row⟩ =
      Entry.contract books ⟨address, some row⟩ := by
  apply if_neg
  intro hun
  obtain ⟨j, hj, htoken, hok⟩ := h
  rw [List.length_append, List.length_singleton] at hj
  have hfails := hun j (Nat.le_of_lt_succ hj) htoken
  rw [hok] at hfails
  cases hfails

theorem asked_of_not_resolved (h : ¬Resolved failures (es ++ [⟨address, some row⟩]) row.key.tokenID) :
    asked books failures (es ++ [⟨address, some row⟩]) es.length ⟨address, some row⟩ = "" := by
  apply if_pos
  intro j hj htoken
  by_contra hok
  apply h
  refine ⟨j, ?_, htoken, Bool.not_eq_true _ ▸ hok⟩
  rw [List.length_append, List.length_singleton]
  omega

theorem asked_of_native (h : Resolved failures (es ++ [⟨address, some row⟩]) row.key.tokenID →
      Entry.contract books ⟨address, some row⟩ = "") :
    asked books failures (es ++ [⟨address, some row⟩]) es.length ⟨address, some row⟩ = "" := by
  by_cases hres : Resolved failures (es ++ [⟨address, some row⟩]) row.key.tokenID
  · exact (asked_of_resolved hres).trans (h hres)
  · exact asked_of_not_resolved hres

def Caches (books : Books) (failures : Failures) (es : List Entry)
    (cache : UUID → Option String) : Prop :=
  ∀ id contract, cache id = some contract ↔
    Resolved failures es id ∧ (findByID books.tokens id).map Token.contractAddress = some contract

theorem contractOf_spec {cache : UUID → Option String} (h : Caches books failures es cache)
    (address : String) (row : BalanceRow) :
    let e : Entry := ⟨address, some row⟩
    let looked := contractOf books cache (failures.token es.length) row.key.tokenID
    looked.1 = asked books failures (es ++ [e]) es.length e ∧
      Caches books failures (es ++ [e]) looked.2 := by
  intro e looked
  have hnew : ∀ id, Resolved failures (es ++ [e]) id ↔
      Resolved failures es id ∨ row.key.tokenID = id ∧ failures.token es.length = false := by
    intro id
    rw [resolved_append]
    simp [e]
  have hcon : e.contract books =
      ((findByID books.tokens row.key.tokenID).map Token.contractAddress).getD "" := rfl
  cases hcache : cache row.key.tokenID with
  | some cached =>
    obtain ⟨hres, htoken⟩ := (h _ _).mp hcache
    have hloo : looked = (cached, cache) := by simp [looked, contractOf, hcache]
    rw [hloo]
    refine ⟨?_, fun id c => ?_⟩
    · rw [asked_of_resolved ((hnew _).mpr (.inl hres)), hcon, htoken]
      rfl
    · rw [h, hnew]
      refine and_congr_left fun _ => ⟨.inl, ?_⟩
      rintro (hres' | ⟨rfl, -⟩)
      · exact hres'
      · exact hres
  | none =>
    have hmis : Resolved failures es row.key.tokenID →
        (findByID books.tokens row.key.tokenID).map Token.contractAddress = none := by
      intro hres
      cases htoken : (findByID books.tokens row.key.tokenID).map Token.contractAddress with
      | none => rfl
      | some c => exact absurd ((h _ _).mpr ⟨hres, htoken⟩) (by rw [hcache]; nofun)
    cases hfails : failures.token es.length with
    | true =>
      have hloo : looked = ("", cache) := by
        simp [looked, contractOf, hcache, findTokenContract, hfails]
      rw [hloo]
      refine ⟨(asked_of_native fun hres => ?_).symm, fun id c => ?_⟩
      · rcases (hnew _).mp hres with hres | ⟨-, hok⟩
        · rw [hcon, hmis hres]
          rfl
        · exact absurd (hfails.symm.trans hok) nofun
      · rw [h, hnew]
        simp [hfails]
    | false =>
      have hres := (hnew row.key.tokenID).mpr (.inr ⟨rfl, hfails⟩)
      cases htoken : (findByID books.tokens row.key.tokenID).map Token.contractAddress with
      | none =>
        have hloo : looked = ("", cache) := by
          simp only [looked, contractOf, hcache, findTokenContract, hfails, htoken,
            Bool.false_eq_true, if_false]
        rw [hloo]
        refine ⟨?_, fun id c => ?_⟩
        · rw [asked_of_resolved hres, hcon, htoken]
          rfl
        · rw [h, hnew]
          refine and_congr_left fun htoken' => ⟨.inl, ?_⟩
          rintro (hres' | ⟨rfl, -⟩)
          · exact hres'
          · rw [htoken] at htoken'
            cases htoken'
      | some contract =>
        have hloo : looked = (contract,
            fun i => if i = row.key.tokenID then some contract else cache i) := by
          simp only [looked, contractOf, hcache, findTokenContract, hfails, htoken,
            Bool.false_eq_true, if_false]
        rw [hloo]
        refine ⟨?_, fun id c => ?_⟩
        · rw [asked_of_resolved hres, hcon, htoken]
          rfl
        · by_cases hid : id = row.key.tokenID
          · subst hid
            simp only [if_true, Option.some.injEq, hres, true_and, htoken]
          · simp only [hid, if_false]
            rw [h, hnew]
            simp [Ne.symm hid]

theorem Done.entry (h : Done adapter books failures chain network es p) (e : Entry) :
    Done adapter books failures chain network (es ++ [e])
      (reconcileEntry adapter books failures chain network p e) := by
  obtain ⟨address, row⟩ := e
  cases row with
  | none =>
    refine h.add ⟨address, none⟩ rfl fun id c => ?_
    rw [resolved_append, h.cached]
    simp
  | some row =>
    obtain ⟨hasked, hcac⟩ := contractOf_spec h.cached address row
    rw [← h.count] at hasked hcac
    exact h.add ⟨address, some row⟩ (h.count ▸ hasked) hcac

theorem Done.entries (h : Done adapter books failures chain network es p) (more : List Entry) :
    Done adapter books failures chain network (es ++ more)
      (more.foldl (reconcileEntry adapter books failures chain network) p) := by
  induction more generalizing es p with
  | nil => rwa [List.append_nil]
  | cons e more ih =>
    have hnext := ih (h.entry e)
    rwa [← List.append_cons] at hnext

theorem Done.addresses (h : Done adapter books failures chain network es p)
    (was : List (WatchedAddress × Nat)) :
    Done adapter books failures chain network
      (es ++ was.flatMap (entriesOf books failures chain network))
      (was.foldl (reconcileAddress adapter books failures chain network) p) := by
  induction was generalizing es p with
  | nil => rwa [List.flatMap_nil, List.append_nil]
  | cons wa was ih =>
    rw [List.flatMap_cons, ← List.append_assoc, List.foldl_cons]
    apply ih
    rw [reconcileAddress_eq]
    split_ifs with hfails
    · have hnone : entriesOf books failures chain network wa = [] := by
        simp [entriesOf, hfails]
      rw [hnone, List.append_nil]
      exact ⟨h.count, h.each, h.cached, h.total, h.matched, h.mismatched⟩
    · exact h.entries _

theorem Done.init (chain : Chain) (network : Network) :
    Done adapter books failures chain network []
      { result := { chain := chain, network := network } } := by
  refine ⟨rfl, nofun, ?_, rfl, rfl, rfl⟩
  rintro id contract
  refine ⟨nofun, ?_⟩
  rintro ⟨⟨j, hj, -⟩, -⟩
  cases hj

end Loop

end Reconciliation

end MultichainIndexer
