import MultichainIndexer.Lib.Chunk
import MultichainIndexer.Lib.Result
import MultichainIndexer.Store.Db

/-!
# The balance event repository

`bulkUpsertEventsTx` upserts the events of a batch by their event id: up to
five events in one statement, more in statements of 1500. A stored event takes
a new finality state and may become applied, unless the new state ranks lower;
its address, token and delta stay. An event without an id is always inserted.
-/

namespace MultichainIndexer

open Relational

def bulkChunkSize : Nat := 1500

def smallBatchThreshold : Nat := 5

/-- An event as the values of its row, with the delta as a number and a block time. -/
structure EventValues where
  event : BalanceEvent
  delta : Int
  blockTime : Int

def fitsNumeric? (x : Option Int) : Bool := x.all fun n => decide (FitsNumeric n)

/-- The values of a row; a text that is not a number of the column fails the statement. -/
def eventValues (now : Int) (be : BalanceEvent) : Except SqlError EventValues :=
  match numericText be.delta with
  | .error e => .error e
  | .ok delta =>
    if fitsNumeric? be.balanceBefore && fitsNumeric? be.balanceAfter then
      .ok ⟨be, delta, be.blockTime.getD now⟩
    else .error .numericOutOfRange

def EventValues.row (v : EventValues) (id : UUID) (hid : 0 < id) : BalanceEventRow where
  id := id
  id_pos := hid
  chain := v.event.chain
  network := v.event.network
  transactionID := v.event.transactionID
  txHash := v.event.txHash
  outerInstructionIndex := v.event.outerInstructionIndex
  innerInstructionIndex := v.event.innerInstructionIndex
  tokenID := v.event.tokenID
  activityType := v.event.activityType
  eventAction := v.event.eventAction
  programID := v.event.programID
  address := v.event.address
  counterpartyAddress := v.event.counterpartyAddress
  delta := v.delta
  balanceBefore := v.event.balanceBefore
  balanceAfter := v.event.balanceAfter
  watchedAddress := v.event.watchedAddress
  walletID := v.event.walletID
  organizationID := v.event.organizationID
  blockCursor := v.event.blockCursor
  blockTime := v.blockTime
  chainData := v.event.chainData.getD []
  balanceApplied := v.event.balanceApplied
  eventID := v.event.eventID
  blockHash := v.event.blockHash
  txIndex := v.event.txIndex
  eventPath := v.event.eventPath
  eventPathType := v.event.eventPathType
  actorAddress := v.event.actorAddress
  assetType := v.event.assetType
  assetID := v.event.assetID
  finalityState := v.event.finalityState
  decoderVersion := v.event.decoderVersion
  schemaVersion := v.event.schemaVersion

/-- `COALESCE(NULLIF(new, ''), old)`. -/
def nonemptyOr (new old : String) : String := if new = "" then old else new

def BalanceEventRow.merge (r : BalanceEventRow) (v : EventValues) : BalanceEventRow :=
  { r with
    finalityState := v.event.finalityState
    balanceApplied := if v.event.balanceApplied && !r.balanceApplied then true else r.balanceApplied
    blockHash := nonemptyOr v.event.blockHash r.blockHash
    txIndex := if v.event.txIndex ≠ 0 then v.event.txIndex else r.txIndex
    blockCursor := max r.blockCursor v.event.blockCursor
    blockTime := max r.blockTime v.blockTime
    chainData := v.event.chainData.getD r.chainData
    decoderVersion := nonemptyOr v.event.decoderVersion r.decoderVersion
    schemaVersion := nonemptyOr v.event.schemaVersion r.schemaVersion }

def EventValues.eventKey (v : EventValues) : Option String :=
  if v.event.eventID = "" then none else some v.event.eventID

theorem EventValues.eventKey_eq_some {v : EventValues} {k : String} :
    v.eventKey = some k ↔ v.event.eventID ≠ "" ∧ v.event.eventID = k := by
  unfold EventValues.eventKey
  split
  · rename_i h
    simp [h]
  · rename_i h
    simp [h]

def eventUpsert : Upsert BalanceEventRow.id BalanceEventRow.eventKey EventValues where
  itemKey := EventValues.eventKey
  fresh rows v := v.row (freshID BalanceEventRow.id rows) (freshID_pos _ _)
  apply := BalanceEventRow.merge
  admits r v := decide (finalityRank r.finalityState ≤ finalityRank v.event.finalityState)
  key_fresh _ _ := rfl
  key_apply _ _ := rfl
  ident_apply _ _ := rfl

theorem eventUpsert_admits (r : BalanceEventRow) (v : EventValues) :
    eventUpsert.admits r v =
      decide (finalityRank r.finalityState ≤ finalityRank v.event.finalityState) := by
  simp only [eventUpsert]

structure BulkUpsertEventResult where
  insertedCount : Nat := 0
  finalityCrossedCount : Nat := 0

/-- One statement. A row that was stored and not applied and is applied now has crossed. -/
def upsertEvents (vs : List EventValues) (t : BalanceEvents) :
    Except SqlError (BalanceEvents × BulkUpsertEventResult) :=
  match eventUpsert.run t vs with
  | none => .error .affectsRowTwice
  | some (t', returned) =>
    .ok (t', {
      insertedCount := (returned.filter fun x => x.2).length
      finalityCrossedCount := (returned.filter fun x => !x.2 && x.1.balanceApplied &&
        !(t.rows.any fun r => r.eventID = x.1.eventID && r.balanceApplied)).length })

def bulkUpsertPerEvent (now : Int) (events : List BalanceEvent) (t : BalanceEvents) :
    Except String (BalanceEvents × BulkUpsertEventResult) :=
  wrapSql "bulk upsert per-event CTE" (events.mapM (eventValues now) >>= fun vs => upsertEvents vs t)

/-- One chunk of a large batch, whose crossings are not counted. -/
def execBulkChunk (now : Int) (s : BalanceEvents × BulkUpsertEventResult)
    (chunk : List BalanceEvent) : Except String (BalanceEvents × BulkUpsertEventResult) :=
  wrapSql "bulk upsert balance events" (chunk.mapM (eventValues now) >>= fun vs =>
    (upsertEvents vs s.1).map fun r =>
      (r.1, { insertedCount := s.2.insertedCount + r.2.insertedCount }))

def bulkUpsertMultiValues (now : Int) (events : List BalanceEvent) (t : BalanceEvents) :
    Except String (BalanceEvents × BulkUpsertEventResult) :=
  (Chunk.chunks bulkChunkSize events).foldlM (execBulkChunk now) (t, {})

def bulkUpsertEventsTx (now : Int) (events : List BalanceEvent) (t : BalanceEvents) :
    Except String (BalanceEvents × BulkUpsertEventResult) :=
  if events.isEmpty then .ok (t, {})
  else if events.length ≤ smallBatchThreshold then bulkUpsertPerEvent now events t
  else bulkUpsertMultiValues now events t

section Spec
variable {now : Int}

theorem eventValues_ok {be : BalanceEvent} {v : EventValues} (h : eventValues now be = .ok v) :
    v.event = be ∧ numericText be.delta = .ok v.delta := by
  unfold eventValues at h
  split at h
  · cases h
  · rename_i d hd
    split at h
    · cases h
      exact ⟨rfl, hd⟩
    · cases h

variable {events : List BalanceEvent} {vs : List EventValues}

theorem mapM_eventValues (h : events.mapM (eventValues now) = .ok vs) :
    vs.map EventValues.event = events ∧
      ∀ v ∈ vs, numericText v.event.delta = .ok v.delta := by
  induction events generalizing vs with
  | nil =>
    cases h
    exact ⟨rfl, by simp⟩
  | cons be events ih =>
    rw [List.mapM_cons] at h
    obtain ⟨v, hv, h⟩ := Result.bind_ok h
    obtain ⟨ws, hws, h⟩ := Result.bind_ok h
    cases h
    obtain ⟨hmap, hnum⟩ := ih hws
    obtain ⟨hev, hdelta⟩ := eventValues_ok hv
    refine ⟨by rw [List.map_cons, hev, hmap], ?_⟩
    intro w hw
    rcases List.mem_cons.mp hw with rfl | hw
    · rw [hev]
      exact hdelta
    · exact hnum w hw

theorem upsertEvents_wrote {t t' : BalanceEvents} {res : BulkUpsertEventResult}
    (h : upsertEvents vs t = .ok (t', res)) : eventUpsert.WroteAll t vs t' := by
  unfold upsertEvents at h
  split at h
  · cases h
  · rename_i u returned hrun
    cases h
    exact Upsert.run_wroteAll hrun

/-- A bulk upsert writes the values of its events in order, however they are chunked. -/
theorem bulkUpsertEventsTx_wrote {t t' : BalanceEvents} {res : BulkUpsertEventResult}
    (h : bulkUpsertEventsTx now events t = .ok (t', res)) :
    ∃ vs : List EventValues, vs.map EventValues.event = events ∧
      (∀ v ∈ vs, numericText v.event.delta = .ok v.delta) ∧ eventUpsert.WroteAll t vs t' := by
  unfold bulkUpsertEventsTx at h
  split at h
  · rename_i he
    cases h
    exact ⟨[], (List.isEmpty_iff.mp he).symm, by simp, rfl⟩
  split at h
  · obtain ⟨vs, hvs, hup⟩ := Result.bind_ok (Result.mapError_ok h)
    exact ⟨vs, (mapM_eventValues hvs).1, (mapM_eventValues hvs).2, upsertEvents_wrote hup⟩
  · unfold bulkUpsertMultiValues at h
    rw [← Chunk.chunks_flatten (n := bulkChunkSize) (by decide) events]
    generalize Chunk.chunks bulkChunkSize events = chunks at h ⊢
    generalize ({} : BulkUpsertEventResult) = start at h
    induction chunks generalizing t start with
    | nil =>
      cases h
      exact ⟨[], rfl, by simp, rfl⟩
    | cons chunk chunks ih =>
      obtain ⟨⟨u, ures⟩, hchunk, hrest⟩ := Result.bind_ok h
      obtain ⟨vs, hvs, hup⟩ := Result.bind_ok (Result.mapError_ok hchunk)
      cases hr : upsertEvents vs t with
      | error e =>
        rw [hr] at hup
        cases hup
      | ok r =>
        rw [hr] at hup
        cases hup
        obtain ⟨ws, hws, hnum, hwrote⟩ := ih _ hrest
        refine ⟨vs ++ ws, ?_, ?_, (upsertEvents_wrote hr).append hwrote⟩
        · rw [List.map_append, (mapM_eventValues hvs).1, hws, List.flatten_cons]
        · intro v hv
          rcases List.mem_append.mp hv with hv | hv
          · exact (mapM_eventValues hvs).2 v hv
          · exact hnum v hv

/-- Events of which no two share an id. -/
def DistinctIDs (events : List BalanceEvent) : Prop :=
  events.Pairwise fun be be' => be.eventID ≠ "" → be.eventID ≠ be'.eventID

theorem upsertEvents_isOk (t : BalanceEvents) (hdis : DistinctIDs (vs.map EventValues.event)) :
    ∃ res, upsertEvents vs t = .ok res := by
  have hkeys : vs.Pairwise fun v w => ∀ k, v.eventKey = some k → w.eventKey ≠ some k := by
    refine (List.pairwise_map.mp hdis).imp ?_
    intro v w hne k hv hw
    rw [EventValues.eventKey_eq_some] at hv hw
    exact hne hv.1 (hv.2.trans hw.2.symm)
  obtain ⟨res, hrun⟩ := Upsert.run_isSome (U := eventUpsert) (t := t)
    (fun rows _ _ r hr => (ident_lt_freshID hr).ne) hkeys
  unfold upsertEvents
  rw [hrun]
  exact ⟨_, rfl⟩

theorem upsertValues_ok_iff (hdis : DistinctIDs events) (t : BalanceEvents) :
    (∃ res, (events.mapM (eventValues now) >>= fun vs => upsertEvents vs t) = .ok res) ↔
      ∀ be ∈ events, ∃ v, eventValues now be = .ok v := by
  rw [← Result.mapM_ok_iff]
  constructor
  · rintro ⟨res, h⟩
    obtain ⟨vs, hvs, _⟩ := Result.bind_ok h
    exact ⟨vs, hvs⟩
  · rintro ⟨vs, hvs⟩
    rw [← (mapM_eventValues hvs).1] at hdis
    rw [hvs]
    exact upsertEvents_isOk t hdis

theorem bulkUpsertEventsTx_ok_iff (hdis : DistinctIDs events) (t : BalanceEvents) :
    (∃ res, bulkUpsertEventsTx now events t = .ok res) ↔
      ∀ be ∈ events, ∃ v, eventValues now be = .ok v := by
  have hwrap : ∀ {α : Type} {context : String} {x : Except SqlError α},
      (∃ r, wrapSql context x = .ok r) ↔ ∃ r, x = .ok r := by
    intro α context x
    cases x with
    | error e => simp [wrapSql, Except.mapError]
    | ok a => simp [wrapSql, Except.mapError]
  unfold bulkUpsertEventsTx
  split
  · rename_i hnil
    rw [List.isEmpty_iff.mp hnil]
    exact ⟨fun _ => by simp, fun _ => ⟨_, rfl⟩⟩
  split
  · unfold bulkUpsertPerEvent
    rw [hwrap, upsertValues_ok_iff hdis]
  · -- the chunks are parts of the list, and each of them is one statement
    have hflat : (Chunk.chunks bulkChunkSize events).flatten = events :=
      Chunk.chunks_flatten (by decide) events
    have hchu : ∀ chunk ∈ Chunk.chunks bulkChunkSize events, DistinctIDs chunk := by
      rw [← hflat] at hdis
      exact (List.pairwise_flatten.mp hdis).1
    unfold bulkUpsertMultiValues
    rw [Result.foldlM_ok_iff (P := fun chunk => ∀ be ∈ chunk, ∃ v, eventValues now be = .ok v)]
    · constructor
      · intro h be hbe
        rw [← hflat] at hbe
        obtain ⟨chunk, hchunk, hmem⟩ := List.mem_flatten.mp hbe
        exact h chunk hchunk be hmem
      · intro h chunk hchunk be hbe
        apply h be
        rw [← hflat]
        exact List.mem_flatten.mpr ⟨chunk, hchunk, hbe⟩
    · intro chunk hchunk s
      unfold execBulkChunk
      rw [hwrap, ← upsertValues_ok_iff (hchu chunk hchunk) s.1]
      constructor
      · rintro ⟨r, h⟩
        obtain ⟨vs, hvs, hup⟩ := Result.bind_ok h
        obtain ⟨x, hx, _⟩ := Result.map_ok hup
        exact ⟨x, by rw [hvs]; exact hx⟩
      · rintro ⟨r, h⟩
        obtain ⟨vs, hvs, hup⟩ := Result.bind_ok h
        rw [hvs]
        simp only [bind, Except.bind, hup]
        exact ⟨_, rfl⟩

end Spec

end MultichainIndexer
