import Mathlib.Data.List.Dedup
import MultichainIndexer.Ingester.Prefetch
import MultichainIndexer.Ingester.BuildFacts
import MultichainIndexer.Ingester.ProcessBatch
import MultichainIndexer.Lib.Overwrite
import MultichainIndexer.Normalizer.Balance

/-!
# The replay verifier against the ingester

The verifier compares replayed transactions with stored events by event id. It
takes the contract address of a stored event from its program id, and it knows
nothing of the fee event that the ingester makes up for a failed transaction.
-/

namespace MultichainIndexer

open Overwrite Text

namespace Replay

structure Entry where
  activityType : String
  delta : String
  actorAddress : String
  assetID : String
  counterpartyAddress : String
  contractAddress : String
  deriving DecidableEq

structure DivergentEvent where
  eventID : String
  field : String
  replayValue : String
  dbValue : String

structure CompareResult where
  matching : List String
  missing : List String
  extra : List String
  divergent : List DivergentEvent

def CompareResult.hasMismatch (r : CompareResult) : Bool :=
  !r.missing.isEmpty || !r.extra.isEmpty || !r.divergent.isEmpty

def replayEntry (be : NormalizedBalanceEvent) : Entry where
  activityType := be.activityType.text
  delta := be.delta
  actorAddress := be.actorAddress
  assetID := be.assetID
  counterpartyAddress := be.counterpartyAddress
  contractAddress := be.contractAddress

def dbEntry (ev : BalanceEvent) : Entry where
  activityType := ev.activityType.text
  delta := ev.delta
  actorAddress := ev.actorAddress
  assetID := ev.assetID
  counterpartyAddress := ev.counterpartyAddress
  contractAddress := ev.programID

def replayEvents (replayBatches : List NormalizedTransaction) : List NormalizedBalanceEvent :=
  (replayBatches.flatMap NormalizedTransaction.balanceEvents).filter fun be => be.eventID ≠ ""

def replayMap (replayBatches : List NormalizedTransaction) : String → Option Entry :=
  writeAll NormalizedBalanceEvent.eventID replayEntry (fun _ => none) (replayEvents replayBatches)

def dbMap (dbEvents : List BalanceEvent) : String → Option Entry :=
  writeAll BalanceEvent.eventID dbEntry (fun _ => none) dbEvents

def checkField (eventID field replayVal dbVal : String) : List DivergentEvent :=
  if replayVal ≠ dbVal then [⟨eventID, field, replayVal, dbVal⟩] else []

def checkFields (eventID : String) (re de : Entry) : List DivergentEvent :=
  checkField eventID "activity_type" re.activityType de.activityType ++
    checkField eventID "delta" re.delta de.delta ++
    checkField eventID "actor_address" re.actorAddress de.actorAddress ++
    checkField eventID "asset_id" re.assetID de.assetID ++
    checkField eventID "counterparty_address" re.counterpartyAddress de.counterpartyAddress ++
    checkField eventID "contract_address" re.contractAddress de.contractAddress

def divergencesOf (replayed stored : String → Option Entry) (eventID : String) :
    List DivergentEvent :=
  match replayed eventID, stored eventID with
  | some re, some de => checkFields eventID re de
  | _, _ => []

def sortStrings (l : List String) : List String := l.insertionSort (· ≤ ·)

def sortDivergent (l : List DivergentEvent) : List DivergentEvent :=
  l.insertionSort fun a b =>
    a.eventID < b.eventID ∨ a.eventID = b.eventID ∧ a.field ≤ b.field

def compareEvents (replayBatches : List NormalizedTransaction) (dbEvents : List BalanceEvent) :
    CompareResult :=
  let replayed := replayMap replayBatches
  let stored := dbMap dbEvents
  let replayIDs := ((replayEvents replayBatches).map NormalizedBalanceEvent.eventID).dedup
  let dbIDs := (dbEvents.map BalanceEvent.eventID).dedup
  { matching := sortStrings (replayIDs.filter fun eid =>
      (stored eid).isSome && decide (replayed eid = stored eid))
    missing := sortStrings (replayIDs.filter fun eid => (stored eid).isNone)
    extra := sortStrings (dbIDs.filter fun eid => (replayed eid).isNone)
    divergent := sortDivergent (replayIDs.flatMap (divergencesOf replayed stored)) }

section Result
variable {txs : List NormalizedTransaction} {rows : List BalanceEvent}

theorem checkField_eq_nil {eventID field a b : String} :
    checkField eventID field a b = [] ↔ a = b := by
  unfold checkField
  split
  · rename_i h
    exact iff_of_false nofun h
  · rename_i h
    exact iff_of_true rfl (not_not.mp h)

theorem checkFields_eq_nil {eventID : String} {re de : Entry} :
    checkFields eventID re de = [] ↔ re = de := by
  unfold checkFields
  simp only [List.append_eq_nil_iff, checkField_eq_nil]
  constructor
  · rintro ⟨⟨⟨⟨⟨h₁, h₂⟩, h₃⟩, h₄⟩, h₅⟩, h₆⟩
    cases re
    cases de
    simp_all
  · rintro rfl
    simp

theorem insertionSort_isEmpty {α : Type} (r : α → α → Prop) [DecidableRel r] (l : List α) :
    (l.insertionSort r).isEmpty = l.isEmpty := by
  have hperm := List.perm_insertionSort r l
  cases hl : l with
  | nil => rfl
  | cons a l' =>
    rw [← hl]
    cases hs : l.insertionSort r with
    | nil =>
      rw [hs, hl] at hperm
      exact absurd hperm.length_eq (by simp)
    | cons b m =>
      rw [hl]
      rfl

theorem replayMap_eq_none {eventID : String} :
    replayMap txs eventID = none ↔ ∀ be ∈ replayEvents txs, be.eventID ≠ eventID := by
  rw [replayMap, writeAll_apply]
  simp

/-- Nothing is reported where each replayed event is stored with the same fields and each stored
event is replayed. -/
theorem compareEvents_clean_iff :
    (compareEvents txs rows).hasMismatch = false ↔
      (∀ be ∈ replayEvents txs, dbMap rows be.eventID = replayMap txs be.eventID) ∧
        ∀ ev ∈ rows, ∃ be ∈ replayEvents txs, be.eventID = ev.eventID := by
  simp only [CompareResult.hasMismatch, compareEvents, sortStrings, sortDivergent,
    insertionSort_isEmpty, Bool.or_eq_false_iff, Bool.not_eq_false', List.isEmpty_iff,
    List.filter_eq_nil_iff, List.flatMap_eq_nil_iff, List.mem_dedup, List.forall_mem_map,
    Option.isNone_iff_eq_none]
  constructor
  · rintro ⟨⟨hmis, hextra⟩, hdiv⟩
    refine ⟨?_, ?_⟩
    · intro be hbe
      have hsto := hmis be hbe
      have hsame := hdiv be hbe
      unfold divergencesOf at hsame
      cases hdb : dbMap rows be.eventID with
      | none => exact absurd hdb hsto
      | some de =>
        cases hre : replayMap txs be.eventID with
        | none => exact absurd rfl (replayMap_eq_none.mp hre be hbe)
        | some re =>
          rw [hdb, hre] at hsame
          rw [checkFields_eq_nil.mp hsame]
    · intro ev hev
      by_contra hnone
      apply hextra ev hev
      rw [replayMap_eq_none]
      intro be hbe heq
      exact hnone ⟨be, hbe, heq⟩
  · rintro ⟨hsame, hrep⟩
    have hfound : ∀ be ∈ replayEvents txs, replayMap txs be.eventID ≠ none := by
      intro be hbe hnone
      exact replayMap_eq_none.mp hnone be hbe rfl
    refine ⟨⟨?_, ?_⟩, ?_⟩
    · intro be hbe
      rw [hsame be hbe]
      exact hfound be hbe
    · intro ev hev
      obtain ⟨be, hbe, heq⟩ := hrep ev hev
      rw [← heq]
      exact hfound be hbe
    · intro be hbe
      unfold divergencesOf
      rw [hsame be hbe]
      cases replayMap txs be.eventID with
      | none => rfl
      | some re => exact checkFields_eq_nil.mpr rfl

end Result

section Built
variable {env : IngestEnv} {addrMap : Option (List WatchedAddress)} {batch : NormalizedBatch}
variable {pre : Prefetched} {db : Db}

def builtRows (env : IngestEnv) (batch : NormalizedBatch) (db : Db) :
    Except String (List BalanceEvent) := do
  let addrMap ← blockScanAddresses env batch
  let s := collectEvents batch
  let (pre, db) ← prefetchBulkData env batch s db
  let st ← buildEventModels env addrMap batch pre s.allEvents db
  return st.eventModels

/-- When the build comes to an event, its contract is not denied and it looks like no scam. -/
def Unflagged (env : IngestEnv) (batch : NormalizedBatch) (db : Db) : Prop :=
  ∀ addrMap pre db', blockScanAddresses env batch = .ok addrMap →
    prefetchBulkData env batch (collectEvents batch) db = .ok (pre, db') →
    ∀ before ec after st, batchEvents batch = before ++ ec :: after →
      buildEventModels env addrMap batch pre before db' = .ok st →
      st.cachedDenied ec.be.contractAddress = false ∧
        ∀ tokenID, pre.tokenIDMap ec.be.contractAddress = some tokenID →
          detectScamSignal batch.chain ec.be
            (st.inMemoryBalances (ec.be.address, tokenID)).present = ""

theorem build_unflagged (haddr : blockScanAddresses env batch = .ok addrMap) {db' : Db}
    (hpre : prefetchBulkData env batch (collectEvents batch) db = .ok (pre, db'))
    (hclean : Unflagged env batch db) {before after : List EventContext} {st : BuildState}
    (hall : batchEvents batch = before ++ after)
    (h : buildEventModels env addrMap batch pre before db' = .ok st) :
    List.Forall₂ (BuiltFrom env addrMap batch pre) before st.eventModels := by
  have hfor := (prefetchBulkData_for hpre).2
  induction before using List.reverseRecOn generalizing after st with
  | nil =>
    cases h
    exact .nil
  | append_singleton before ec ih =>
    rw [← List.append_cons] at hall
    have hmem : ec ∈ batchEvents batch := by
      rw [hall]
      exact List.mem_append_cons_self
    rw [buildEventModels_eq] at h
    rw [List.foldlM_append] at h
    obtain ⟨u, hu, hlast⟩ := Result.bind_ok h
    obtain ⟨u', hone, hnil⟩ := Result.bind_ok hlast
    cases hnil
    obtain ⟨tokenID, htok⟩ := hfor.token ec hmem
    obtain ⟨txID, htx⟩ := hfor.tx ec hmem
    obtain ⟨hden, hsig⟩ := hclean addrMap pre db' haddr hpre before ec after u hall hu
    obtain ⟨rfl, -⟩ := buildEvent_follow hone
    rw [verdict_known htok htx, if_neg (Bool.eq_false_iff.mp hden),
      if_neg (not_not.mpr (hsig tokenID htok))]
    exact List.rel_append (ih hall hu) (.cons ⟨txID, tokenID, _, _, htok, rfl⟩ .nil)

def storedEntry (be : NormalizedBalanceEvent) : Entry :=
  { replayEntry be with contractAddress := be.programID }

def storedEvents (batch : NormalizedBatch) : List NormalizedBalanceEvent :=
  batch.transactions.flatMap (eventsOf batch.chain)

theorem batchEvents_be (batch : NormalizedBatch) :
    (batchEvents batch).map EventContext.be = storedEvents batch := by
  unfold batchEvents storedEvents
  rw [List.map_flatMap]
  congr 1
  funext ntx
  rw [List.map_map]
  exact List.map_id _

/-- The rows under their ids are the events of the batch. -/
theorem builtRows_entries (hclean : Unflagged env batch db) {rows : List BalanceEvent}
    (h : builtRows env batch db = .ok rows) :
    rows.map (fun ev => (ev.eventID, dbEntry ev)) =
      (storedEvents batch).map fun be => (be.eventID, storedEntry be) := by
  unfold builtRows at h
  obtain ⟨addrMap, haddr, h⟩ := Result.bind_ok h
  obtain ⟨⟨pre, db'⟩, hpre, h⟩ := Result.bind_ok h
  obtain ⟨st, hst, h⟩ := Result.bind_ok h
  cases h
  rw [collectEvents_allEvents] at hst
  have hbuilt := build_unflagged haddr hpre hclean (List.append_nil _).symm hst
  rw [← batchEvents_be, List.map_map]
  generalize batchEvents batch = evs at hbuilt
  generalize st.eventModels = rows at hbuilt
  induction hbuilt with
  | nil => rfl
  | cons hm _ ih =>
    obtain ⟨txID, tokenID, before, after, _, rfl⟩ := hm
    rw [List.map_cons, List.map_cons, ih]
    rfl

/-- The last event that is stored under an id. -/
def storedUnder (batch : NormalizedBatch) (eventID : String) : Option NormalizedBalanceEvent :=
  (storedEvents batch).reverse.find? fun be => be.eventID = eventID

theorem dbMap_built (hclean : Unflagged env batch db) {rows : List BalanceEvent}
    (h : builtRows env batch db = .ok rows) (eventID : String) :
    dbMap rows eventID = (storedUnder batch eventID).map storedEntry := by
  rw [dbMap, writeAll_congr (builtRows_entries hclean h), writeAll_apply, Option.or_none]
  rfl

end Built

section Accepts
variable {env : IngestEnv} {batch : NormalizedBatch} {db : Db}

def normalizedEvents (batch : NormalizedBatch) : List NormalizedBalanceEvent :=
  batch.transactions.flatMap NormalizedTransaction.balanceEvents

theorem replayEvents_eq (hid : ∀ be ∈ normalizedEvents batch, be.eventID ≠ "") :
    replayEvents batch.transactions = normalizedEvents batch := by
  apply List.filter_eq_self.mpr
  intro be hbe
  simpa using hid be hbe

theorem replayMap_of_mem (hid : ∀ be ∈ normalizedEvents batch, be.eventID ≠ "")
    (hdis : ((normalizedEvents batch).map NormalizedBalanceEvent.eventID).Nodup)
    {be : NormalizedBalanceEvent} (hbe : be ∈ normalizedEvents batch) :
    replayMap batch.transactions be.eventID = some (replayEntry be) := by
  cases hre : replayMap batch.transactions be.eventID with
  | none =>
    rw [replayMap_eq_none, replayEvents_eq hid] at hre
    exact absurd rfl (hre be hbe)
  | some re =>
    rcases writeAll_eq_some hre with ⟨be', hbe', heq, hval⟩ | ⟨_, hnone⟩
    · rw [replayEvents_eq hid] at hbe'
      rw [← hval, List.inj_on_of_nodup_map hdis hbe' hbe heq]
    · cases hnone

theorem mem_storedEvents {be : NormalizedBalanceEvent} :
    be ∈ storedEvents batch ↔ be ∈ normalizedEvents batch ∨
      ∃ ntx ∈ batch.transactions, isFeeOnly ntx = true ∧ be = buildFeeOnlyEvent ntx batch.chain := by
  simp only [storedEvents, normalizedEvents, eventsOf, List.mem_flatMap, List.mem_append]
  constructor
  · rintro ⟨ntx, hntx, hbe | hbe⟩
    · exact .inl ⟨ntx, hntx, hbe⟩
    · split at hbe
      · rename_i hfee
        exact .inr ⟨ntx, hntx, hfee, List.mem_singleton.mp hbe⟩
      · cases hbe
  · rintro (⟨ntx, hntx, hbe⟩ | ⟨ntx, hntx, hfee, rfl⟩)
    · exact ⟨ntx, hntx, .inl hbe⟩
    · refine ⟨ntx, hntx, .inr ?_⟩
      rw [if_pos hfee]
      exact List.mem_singleton_self _

/-- Where no synthetic event shares its id, an event is the one stored under it. -/
theorem storedUnder_self (hdis : ((normalizedEvents batch).map NormalizedBalanceEvent.eventID).Nodup)
    {be : NormalizedBalanceEvent} (hbe : be ∈ normalizedEvents batch)
    (hfee : ∀ ntx ∈ batch.transactions, isFeeOnly ntx = true →
      (buildFeeOnlyEvent ntx batch.chain).eventID ≠ be.eventID) :
    storedUnder batch be.eventID = some be := by
  have hsome : (storedUnder batch be.eventID).isSome = true :=
    List.find?_isSome.mpr ⟨be, List.mem_reverse.mpr (mem_storedEvents.mpr (.inl hbe)), by simp⟩
  obtain ⟨stored, hstored⟩ := Option.isSome_iff_exists.mp hsome
  have hsame : stored.eventID = be.eventID := of_decide_eq_true
    (List.find?_some (p := fun b : NormalizedBalanceEvent => b.eventID = be.eventID) hstored)
  rw [hstored]
  rcases mem_storedEvents.mp (List.mem_reverse.mp (List.mem_of_find?_eq_some hstored)) with
    hmem | ⟨ntx, hntx, honly, rfl⟩
  · rw [List.inj_on_of_nodup_map hdis hmem hbe hsame]
  · exact absurd hsame (hfee ntx hntx honly)

/-- The verifier accepts the rows of a batch exactly when each synthetic fee event hides behind an
event of the transactions, and each event is stored under its id with its contract for its
program. -/
theorem replay_accepts_iff {rows : List BalanceEvent} (h : builtRows env batch {} = .ok rows)
    (hclean : Unflagged env batch {})
    (hid : ∀ be ∈ normalizedEvents batch, be.eventID ≠ "")
    (hdistinct : ((normalizedEvents batch).map NormalizedBalanceEvent.eventID).Nodup) :
    (compareEvents batch.transactions rows).hasMismatch = false ↔
      (∀ ntx ∈ batch.transactions, isFeeOnly ntx = true →
        ∃ be ∈ normalizedEvents batch,
          be.eventID = (buildFeeOnlyEvent ntx batch.chain).eventID) ∧
      ∀ be ∈ normalizedEvents batch, ∀ stored, storedUnder batch be.eventID = some stored →
        storedEntry stored = replayEntry be := by
  rw [compareEvents_clean_iff, replayEvents_eq hid]
  have hent := builtRows_entries hclean h
  have hrows : ∀ id, (∃ ev ∈ rows, ev.eventID = id) ↔
      ∃ be ∈ storedEvents batch, be.eventID = id := by
    intro id
    have hids : rows.map BalanceEvent.eventID =
        (storedEvents batch).map NormalizedBalanceEvent.eventID := by
      simpa [Function.comp_def] using congrArg (List.map Prod.fst) hent
    rw [← List.mem_map, hids, List.mem_map]
  refine and_comm.trans (and_congr ?_ ?_)
  · constructor
    · intro hrep ntx hntx hfee
      have hsto := mem_storedEvents.mpr (.inr ⟨ntx, hntx, hfee, rfl⟩)
      obtain ⟨ev, hev, heq⟩ := (hrows _).mpr ⟨_, hsto, rfl⟩
      rw [← heq]
      exact hrep ev hev
    · intro hhid ev hev
      obtain ⟨stored, hsto, heq⟩ := (hrows _).mp ⟨ev, hev, rfl⟩
      rw [← heq]
      rcases mem_storedEvents.mp hsto with hmem | ⟨ntx, hntx, hfee, rfl⟩
      · exact ⟨stored, hmem, rfl⟩
      · exact hhid ntx hntx hfee
  · apply forall₂_congr
    intro be hbe
    rw [dbMap_built hclean h, replayMap_of_mem hid hdistinct hbe]
    constructor
    · intro hsame stored hsto
      rw [hsto] at hsame
      exact Option.some.inj hsame
    · intro hsame
      cases hfind : storedUnder batch be.eventID with
      | none =>
        have hmem := List.mem_reverse.mpr (mem_storedEvents.mpr (.inl hbe))
        exact absurd (List.find?_eq_none.mp hfind be hmem) (by simp)
      | some stored => exact congrArg some (hsame stored hfind)

def deposit (tokenType : TokenType) (program contract : String) : NormalizedBalanceEvent where
  activityType := .deposit
  programID := program
  contractAddress := contract
  address := "0xa"
  delta := "5"
  tokenType := tokenType
  eventID := "e1"
  finalityState := "finalized"

def depositOf (tokenType : TokenType) (program contract : String) : NormalizedBatch where
  chain := .ethereum
  network := .mainnet
  transactions := [{
    txHash := "0xaa"
    blockCursor := 10
    feeAmount := "0"
    balanceEvents := [deposit tokenType program contract] }]

theorem deposit_no_signal (tokenType : TokenType) (program contract : String) (present : Bool) :
    detectScamSignal .ethereum (deposit tokenType program contract) present = "" := by
  have hdelta : (trimSpace (deposit tokenType program contract).delta).toList = ['5'] := by
    change (trimSpace "5").toList = ['5']
    decide
  unfold detectScamSignal
  rw [hdelta]
  cases tokenType <;> rfl

theorem depositOf_unflagged (tokenType : TokenType) (program contract : String)
    (hden : deniedBefore {} (depositOf tokenType program contract) {} contract = false) :
    Unflagged {} (depositOf tokenType program contract) {} := by
  intro addrMap pre db' haddr hpre before ec after st hall hst
  obtain ⟨rfl, hec⟩ : before = [] ∧ ec ∈ batchEvents (depositOf tokenType program contract) := by
    refine ⟨?_, hall ▸ List.mem_append_cons_self⟩
    have hlen := congrArg List.length hall
    rw [List.length_append, List.length_cons] at hlen
    apply List.eq_nil_of_length_eq_zero
    have hone : (batchEvents (depositOf tokenType program contract)).length = 1 := rfl
    omega
  have hbe := (prefetchBulkData_for hpre).2.denied ec hec
  cases hst
  obtain rfl := List.mem_singleton.mp hec
  exact ⟨hbe.trans hden, fun tokenID _ => deposit_no_signal tokenType program contract _⟩

/-- The transfer of a token whose program is its contract is accepted. -/
theorem replay_accepts_token : ∃ rows,
    builtRows {} (depositOf .fungible "0xt" "0xt") {} = .ok rows ∧
      (compareEvents (depositOf .fungible "0xt" "0xt").transactions rows).hasMismatch = false := by
  obtain ⟨rows, h, _⟩ : ∃ rows, builtRows {} (depositOf .fungible "0xt" "0xt") {} = .ok rows ∧
      True := by decide
  have hclean := depositOf_unflagged .fungible "0xt" "0xt" (by decide)
  refine ⟨rows, h, (replay_accepts_iff h hclean (by decide) (by decide)).mpr ⟨by decide, ?_⟩⟩
  intro be hbe stored hsto
  rw [storedUnder_self (by decide) hbe (by decide +revert)] at hsto
  obtain rfl := List.mem_singleton.mp hbe
  cases hsto
  rfl

def zeroProgramID : String := "0x0000000000000000000000000000000000000000000000000000000000000000"

def nativeDeposit : NormalizedBatch := depositOf .native zeroProgramID "ETH"

/-- A deposit of the native coin, whose program is the zero id, is reported as divergent. -/
theorem replay_rejects_native : ∃ rows,
    builtRows {} nativeDeposit {} = .ok rows ∧ Unflagged {} nativeDeposit {} ∧
    (∀ be ∈ normalizedEvents nativeDeposit, be.eventID ≠ "") ∧
    ((normalizedEvents nativeDeposit).map NormalizedBalanceEvent.eventID).Nodup ∧
    (compareEvents nativeDeposit.transactions rows).hasMismatch = true := by
  obtain ⟨rows, h, _⟩ : ∃ rows, builtRows {} nativeDeposit {} = .ok rows ∧ True := by decide
  have hclean := depositOf_unflagged .native zeroProgramID "ETH" (by decide)
  refine ⟨rows, h, hclean, by decide, by decide, ?_⟩
  by_contra hmis
  obtain ⟨hsame, _⟩ := compareEvents_clean_iff.mp (Bool.eq_false_of_not_eq_true hmis)
  have hentry := hsame (deposit .native zeroProgramID "ETH")
    (List.mem_singleton_self _)
  rw [dbMap_built hclean h] at hentry
  exact absurd hentry (by decide)

end Accepts

end Replay

end MultichainIndexer
