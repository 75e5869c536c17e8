import MultichainIndexer.Store.EventRepo

/-!
# Events one at a time and in bulk

`UpsertTx` reads whether the stored event is applied and then upserts in a
statement of its own. The conflict clauses of the three statements of the
repository are the same. Over events with distinct ids a statement is the same
as one statement for each event, in order: no item finds a row that another item
wrote, and the state before the statement is, for each id, the state that its own
statement finds.
-/

namespace MultichainIndexer

open Relational

structure UpsertResult where
  inserted : Bool := false
  finalityCrossed : Bool := false

/-- The value of `balance_applied` under an event id, none where no row has it. -/
def existingBalanceApplied (t : BalanceEvents) (eventID : String) : Option Bool :=
  (t.rows.find? fun r => r.eventID = eventID).map BalanceEventRow.balanceApplied

/-- What the row that the statement returns says; none is returned where the update is rejected. -/
def upsertResult (existing : Option Bool) (be : BalanceEvent) :
    List (BalanceEventRow × Bool) → UpsertResult
  | [] => {}
  | (_, true) :: _ => { inserted := true }
  | (_, false) :: _ => { finalityCrossed := existing = some false && be.balanceApplied }

def upsertEventTx (now : Int) (be : BalanceEvent) (t : BalanceEvents) :
    Except String (BalanceEvents × UpsertResult) :=
  if be.eventID = "" then .error "upsert balance event: event_id is required"
  else
    wrapSql "upsert balance event" (eventValues now be >>= fun v =>
      match eventUpsert.run t [v] with
      | none => .error .affectsRowTwice
      | some (t', returned) =>
        .ok (t', upsertResult (existingBalanceApplied t be.eventID) be returned))

/-- Calls of `UpsertTx` one after another, with what they report added up. -/
def upsertEach (now : Int) (events : List BalanceEvent) (t : BalanceEvents) :
    Except String (BalanceEvents × BulkUpsertEventResult) :=
  events.foldlM (fun s be => (upsertEventTx now be s.1).map fun r => (r.1, {
    insertedCount := s.2.insertedCount + r.2.inserted.toNat
    finalityCrossedCount := s.2.finalityCrossedCount + r.2.finalityCrossed.toNat })) (t, {})

def BulkUpsertEventResult.add (a b : BulkUpsertEventResult) : BulkUpsertEventResult where
  insertedCount := a.insertedCount + b.insertedCount
  finalityCrossedCount := a.finalityCrossedCount + b.finalityCrossedCount

def storedApplied (t : BalanceEvents) (eventID : String) : Bool :=
  t.rows.any fun r => r.eventID = eventID && r.balanceApplied

section Other
variable {t t' : BalanceEvents} {v : EventValues} {returned : List (BalanceEventRow × Bool)}

theorem storedApplied_other (h : eventUpsert.run t [v] = some (t', returned))
    {eventID : String} (hne : eventID ≠ v.event.eventID) :
    storedApplied t' eventID = storedApplied t eventID := by
  obtain ⟨u, hu, hnil⟩ := Upsert.run_wroteAll h
  have hrows : t'.rows = u.rows := hnil
  unfold storedApplied
  rw [hrows]
  cases hu with
  | inserted _ hrows =>
    have hid : (eventUpsert.fresh t.rows v).eventID = v.event.eventID := rfl
    rw [hrows, List.any_append]
    simp [hid, Ne.symm hne]
  | @updated k r hitem _ _ _ hrows =>
    rw [hrows, List.any_map]
    apply congrArg (fun p => t.rows.any p)
    funext s
    simp only [Function.comp_apply, Upsert.applyAt]
    split
    · rename_i hkey
      have hid : s.eventID = v.event.eventID := by
        rw [(BalanceEventRow.eventKey_eq_some.mp hkey).2]
        exact (EventValues.eventKey_eq_some.mp hitem).2.symm
      have happly : (eventUpsert.apply s v).eventID = s.eventID := rfl
      simp [happly, hid, Ne.symm hne]
    · rfl
  | rejected _ _ _ _ hrows => rw [hrows]

end Other

section Single
variable {t t' : BalanceEvents} {v : EventValues} {returned : List (BalanceEventRow × Bool)}

theorem stored_of_mem {r : BalanceEventRow} {k : String} (hr : r ∈ t.rows)
    (hkey : r.eventKey = some k) :
    existingBalanceApplied t k = some r.balanceApplied ∧ storedApplied t k = r.balanceApplied := by
  obtain ⟨hne, hid⟩ := BalanceEventRow.eventKey_eq_some.mp hkey
  have hsame : ∀ s ∈ t.rows, s.eventID = k → s = r := by
    intro s hs hsid
    apply IndexedTable.eq_of_key_eq hs hr _ hkey
    rw [BalanceEventRow.eventKey_eq_some, hsid]
    exact ⟨fun h => hne (hid.trans h), rfl⟩
  constructor
  · unfold existingBalanceApplied
    cases hfind : t.rows.find? fun s => s.eventID = k with
    | none =>
      have hnot := List.find?_eq_none.mp hfind r hr
      simp [hid] at hnot
    | some s =>
      have hs : s.eventID = k := by simpa using List.find?_some hfind
      rw [hsame s (List.mem_of_find?_eq_some hfind) hs]
      rfl
  · unfold storedApplied
    rw [Bool.eq_iff_iff, List.any_eq_true]
    constructor
    · rintro ⟨s, hs, happ⟩
      rw [Bool.and_eq_true, decide_eq_true_eq] at happ
      rw [← hsame s hs happ.1]
      exact happ.2
    · intro happ
      exact ⟨r, hr, by simp [hid, happ]⟩

/-- What `UpsertTx` reports is what a statement of the one event counts. -/
theorem upsertResult_counts (hrun : eventUpsert.run t [v] = some (t', returned)) :
    upsertEvents [v] t = .ok (t', {
      insertedCount := (upsertResult (existingBalanceApplied t v.event.eventID) v.event
        returned).inserted.toNat
      finalityCrossedCount := (upsertResult (existingBalanceApplied t v.event.eventID) v.event
        returned).finalityCrossed.toNat }) := by
  have hone : ∃ s, eventUpsert.upsertOne ⟨t, [], []⟩ v = some s ∧ s.returned = returned := by
    obtain ⟨s, hs, heq⟩ := Option.map_eq_some_iff.mp hrun
    obtain ⟨u, hu, hnil⟩ := Option.bind_eq_some_iff.mp hs
    cases hnil
    cases heq
    exact ⟨s, hu, rfl⟩
  obtain ⟨s, hs, hretu⟩ := hone
  unfold upsertEvents
  rw [hrun]
  rcases Upsert.upsertOne_cases hs with ⟨_, _, _, hret⟩ | ⟨k, r, hitem, hr, hkey, _, _, _, _, hret⟩ |
    ⟨_, _, _, _, _, _, _, hsame⟩
  · rw [← hretu, hret]
    rfl
  · obtain ⟨hexi, hsto⟩ := stored_of_mem hr hkey
    have hid : v.event.eventID = k := (EventValues.eventKey_eq_some.mp hitem).2
    have hrow : (eventUpsert.apply r v).eventID = k :=
      (BalanceEventRow.eventKey_eq_some.mp hkey).2
    have happ : (eventUpsert.apply r v).balanceApplied =
        (v.event.balanceApplied || r.balanceApplied) := by
      show (if v.event.balanceApplied && !r.balanceApplied then true else r.balanceApplied) = _
      cases v.event.balanceApplied
      all_goals cases r.balanceApplied
      all_goals rfl
    rw [← hretu, hret, hid, hexi]
    unfold storedApplied at hsto
    simp only [List.nil_append, List.filter_cons, List.filter_nil, hrow, hsto, happ,
      upsertResult]
    cases v.event.balanceApplied
    all_goals cases r.balanceApplied
    all_goals rfl
  · rw [← hretu, hsame]
    rfl

end Single

section Bulk
variable {now : Int}

theorem eventID_of_key {r : BalanceEventRow} {w : EventValues}
    (h : r.eventKey = eventUpsert.itemKey w) : r.eventID = w.event.eventID := by
  have hkey : r.eventKey = w.eventKey := h
  by_cases hw : w.event.eventID = ""
  · by_contra hne
    rw [EventValues.eventKey, if_pos hw, BalanceEventRow.eventKey,
      if_neg fun hr => hne (hr.trans hw.symm)] at hkey
    cases hkey
  · exact (BalanceEventRow.eventKey_eq_some.mp
      (hkey.trans (EventValues.eventKey_eq_some.mpr ⟨hw, rfl⟩))).2

theorem upsertEvents_cons {v : EventValues} {vs : List EventValues} (t : BalanceEvents)
    (hother : ∀ w ∈ vs, v.event.eventID ≠ w.event.eventID) :
    upsertEvents (v :: vs) t = upsertEvents [v] t >>= fun first =>
      (upsertEvents vs first.1).map fun rest => (rest.1, first.2.add rest.2) := by
  have hkeys : ∀ w ∈ vs, eventUpsert.Apart v w := by
    intro w hw k hv hwk
    exact hother w hw ((EventValues.eventKey_eq_some.mp hv).2.trans
      (EventValues.eventKey_eq_some.mp hwk).2.symm)
  unfold upsertEvents
  rw [Upsert.run_cons hkeys]
  cases hfirst : eventUpsert.run t [v] with
  | none => rfl
  | some first =>
    obtain ⟨u, ret⟩ := first
    simp only [Option.bind_some, bind, Except.bind]
    cases hrest : eventUpsert.run u vs with
    | none => rfl
    | some rest =>
      obtain ⟨t', ret'⟩ := rest
      -- the events of the rest are found as they were before the first one
      have hbef : ∀ x ∈ ret', storedApplied u x.1.eventID = storedApplied t x.1.eventID := by
        intro x hx
        obtain ⟨w, hw, hkey⟩ := Upsert.run_returned hrest x hx
        apply storedApplied_other hfirst
        rw [eventID_of_key hkey]
        exact (hother w hw).symm
      have hcro : (ret'.filter fun x => !x.2 && x.1.balanceApplied &&
            !storedApplied t x.1.eventID) =
          ret'.filter fun x => !x.2 && x.1.balanceApplied && !storedApplied u x.1.eventID := by
        apply List.filter_congr
        intro x hx
        rw [hbef x hx]
      unfold storedApplied at hcro
      simp only [Option.map_some, List.filter_append, List.length_append, hcro]
      rfl

def upsertNext (now : Int) (s : BalanceEvents × BulkUpsertEventResult) (be : BalanceEvent) :
    Option (BalanceEvents × BulkUpsertEventResult) :=
  (eventValues now be >>= fun v => upsertEvents [v] s.1).toOption.map fun r =>
    (r.1, s.2.add r.2)

theorem upsertEventTx_next {be : BalanceEvent} (hid : be.eventID ≠ "")
    (s : BalanceEvents × BulkUpsertEventResult) :
    ((upsertEventTx now be s.1).map fun r => (r.1, ({
        insertedCount := s.2.insertedCount + r.2.inserted.toNat
        finalityCrossedCount := s.2.finalityCrossedCount + r.2.finalityCrossed.toNat } :
          BulkUpsertEventResult))).toOption = upsertNext now s be := by
  unfold upsertEventTx upsertNext
  rw [if_neg hid, Result.toOption_map]
  cases hv : eventValues now be with
  | error e => rfl
  | ok v =>
    have hevent : v.event = be := (eventValues_ok hv).1
    cases hrun : eventUpsert.run s.1 [v] with
    | none =>
      simp only [bind, Except.bind, upsertEvents, hrun]
      rfl
    | some r =>
      obtain ⟨t', returned⟩ := r
      have hcou := upsertResult_counts hrun
      rw [hevent] at hcou
      simp only [bind, Except.bind, hrun, hcou]
      rfl

variable {events : List BalanceEvent}

/-- A statement over events with distinct ids is a statement for each of them. -/
theorem upsertValues_eq_next (hdis : events.Pairwise fun a b => a.eventID ≠ b.eventID)
    (t : BalanceEvents) (counted : BulkUpsertEventResult) :
    (events.mapM (eventValues now) >>= fun vs => upsertEvents vs t).toOption.map
        (fun r => (r.1, counted.add r.2)) =
      events.foldlM (upsertNext now) (t, counted) := by
  induction events generalizing t counted with
  | nil => rfl
  | cons be events ih =>
    obtain ⟨hfirst, hdis⟩ := List.pairwise_cons.mp hdis
    rw [List.mapM_cons, List.foldlM_cons]
    cases hv : eventValues now be with
    | error e =>
      have hnext : upsertNext now (t, counted) be = none := by
        rw [upsertNext, hv]
        rfl
      rw [hnext]
      rfl
    | ok v =>
      have hevent : v.event = be := (eventValues_ok hv).1
      have hok : ∃ res, upsertEvents [v] t = .ok res :=
        upsertEvents_isOk t (List.pairwise_singleton _ _)
      obtain ⟨⟨u, res⟩, hone⟩ := hok
      have hnext : upsertNext now (t, counted) be = some (u, counted.add res) := by
        rw [upsertNext, hv]
        simp only [bind, Except.bind, hone]
        rfl
      rw [hnext, Option.bind_eq_bind, Option.bind_some, ← ih hdis u (counted.add res)]
      cases hvs : events.mapM (eventValues now) with
      | error e => rfl
      | ok vs =>
        have hother : ∀ w ∈ vs, v.event.eventID ≠ w.event.eventID := by
          intro w hw
          rw [hevent]
          apply hfirst
          rw [← (mapM_eventValues hvs).1]
          exact List.mem_map_of_mem hw
        simp only [bind, Except.bind, pure, Except.pure, upsertEvents_cons t hother, hone]
        cases upsertEvents vs u with
        | error e => rfl
        | ok r =>
          simp [Except.map, Except.toOption, BulkUpsertEventResult.add, Nat.add_assoc]

theorem upsertEach_eq_next (hid : ∀ be ∈ events, be.eventID ≠ "") (t : BalanceEvents) :
    (upsertEach now events t).toOption = events.foldlM (upsertNext now) (t, {}) := by
  unfold upsertEach
  rw [Result.toOption_foldlM]
  generalize (t, ({} : BulkUpsertEventResult)) = s
  induction events generalizing s with
  | nil => rfl
  | cons be events ih =>
    rw [List.foldlM_cons, List.foldlM_cons, upsertEventTx_next (hid be List.mem_cons_self)]
    cases upsertNext now s be with
    | none => rfl
    | some s' => exact ih (List.forall_mem_cons.mp hid).2 s'

theorem toOption_wrapSql {α : Type} (context : String) (x : Except SqlError α) :
    (wrapSql context x).toOption = x.toOption := by
  cases x with
  | error e => rfl
  | ok a => rfl

theorem bulkUpsertPerEvent_eq_next (hdis : events.Pairwise fun a b => a.eventID ≠ b.eventID)
    (t : BalanceEvents) :
    (bulkUpsertPerEvent now events t).toOption = events.foldlM (upsertNext now) (t, {}) := by
  unfold bulkUpsertPerEvent
  have hzero : (fun r : BalanceEvents × BulkUpsertEventResult =>
      (r.1, ({} : BulkUpsertEventResult).add r.2)) = id := by
    funext r
    simp [BulkUpsertEventResult.add]
  rw [toOption_wrapSql, ← upsertValues_eq_next hdis, hzero, Option.map_id]
  rfl

def written (s : BalanceEvents × BulkUpsertEventResult) : BalanceEvents × Nat :=
  (s.1, s.2.insertedCount)

theorem execBulkChunk_eq_next {chunk : List BalanceEvent}
    (hdis : chunk.Pairwise fun a b => a.eventID ≠ b.eventID)
    {s s' : BalanceEvents × BulkUpsertEventResult} (hsame : written s = written s') :
    (execBulkChunk now s chunk).toOption.map written =
      (chunk.foldlM (upsertNext now) s').map written := by
  obtain ⟨t, counted⟩ := s
  obtain ⟨t', counted'⟩ := s'
  obtain ⟨rfl, hcount⟩ := Prod.mk.inj hsame
  unfold execBulkChunk
  rw [toOption_wrapSql, ← upsertValues_eq_next hdis]
  cases chunk.mapM (eventValues now) with
  | error e => rfl
  | ok vs =>
    simp only [bind, Except.bind]
    cases upsertEvents vs t with
    | error e => rfl
    | ok r =>
      simp only [Except.map, Except.toOption, Option.map_some, written,
        BulkUpsertEventResult.add]
      rw [hcount]

theorem chunks_eq_next {chunks : List (List BalanceEvent)}
    (hdis : chunks.flatten.Pairwise fun a b => a.eventID ≠ b.eventID)
    {s s' : BalanceEvents × BulkUpsertEventResult} (hsame : written s = written s') :
    (chunks.foldlM (execBulkChunk now) s).toOption.map written =
      (chunks.flatten.foldlM (upsertNext now) s').map written := by
  induction chunks generalizing s s' with
  | nil => exact congrArg some hsame
  | cons chunk chunks ih =>
    rw [List.flatten_cons] at hdis
    obtain ⟨hchunk, hrest, _⟩ := List.pairwise_append.mp hdis
    have hstep : (execBulkChunk now s chunk).toOption.map written =
        (chunk.foldlM (upsertNext now) s').map written := execBulkChunk_eq_next hchunk hsame
    rw [List.foldlM_cons, List.flatten_cons, List.foldlM_append, Result.toOption_bind]
    cases hexec : (execBulkChunk now s chunk).toOption with
    | none =>
      rw [hexec, Option.map_none, eq_comm, Option.map_eq_none_iff] at hstep
      rw [hstep]
      rfl
    | some u =>
      rw [hexec, Option.map_some, eq_comm, Option.map_eq_some_iff] at hstep
      obtain ⟨u', hu', hwri⟩ := hstep
      rw [hu']
      exact ih hrest hwri.symm

/-- A bulk upsert of events with distinct ids leaves the table of one upsert for each event and
counts the rows that those insert; a small batch counts the crossings of those as well. -/
theorem bulkUpsertEventsTx_eq_each {events : List BalanceEvent}
    (hdistinct : events.Pairwise fun a b => a.eventID ≠ b.eventID)
    (hid : ∀ be ∈ events, be.eventID ≠ "") (t : BalanceEvents) :
    (bulkUpsertEventsTx now events t).toOption.map (fun r => (r.1, r.2.insertedCount)) =
        (upsertEach now events t).toOption.map (fun r => (r.1, r.2.insertedCount)) ∧
      (events.length ≤ smallBatchThreshold →
        (bulkUpsertEventsTx now events t).toOption = (upsertEach now events t).toOption) := by
  have hsmall : events.length ≤ smallBatchThreshold →
      (bulkUpsertEventsTx now events t).toOption = (upsertEach now events t).toOption := by
    intro hlen
    unfold bulkUpsertEventsTx
    split
    · rename_i hnil
      rw [List.isEmpty_iff.mp hnil]
      rfl
    · rw [bulkUpsertPerEvent_eq_next hdistinct, upsertEach_eq_next hid]
  refine ⟨?_, hsmall⟩
  by_cases hlen : events.length ≤ smallBatchThreshold
  · rw [hsmall hlen]
  · have hne : events.isEmpty = false := by
      cases events with
      | nil => exact absurd (Nat.zero_le _) hlen
      | cons be events => rfl
    have hflat : (Chunk.chunks bulkChunkSize events).flatten = events :=
      Chunk.chunks_flatten (by decide) events
    have hbulk : bulkUpsertEventsTx now events t =
        (Chunk.chunks bulkChunkSize events).foldlM (execBulkChunk now) (t, {}) := by
      unfold bulkUpsertEventsTx
      rw [hne, if_neg nofun, if_neg hlen]
      rfl
    rw [hbulk, upsertEach_eq_next hid]
    rw [← hflat] at hdistinct
    have heq : ((Chunk.chunks bulkChunkSize events).foldlM (execBulkChunk now) (t, {})).toOption.map
        written = _ := chunks_eq_next hdistinct (rfl : written (t, {}) = written (t, {}))
    rw [hflat] at heq
    exact heq

def storedEvent (eventID finalityState : String) (balanceApplied : Bool) : BalanceEvent where
  chain := .base
  network := .mainnet
  txHash := "0x01"
  tokenID := 1
  activityType := .deposit
  address := "0xaa"
  delta := "5"
  blockCursor := 7
  balanceApplied := balanceApplied
  eventID := eventID
  finalityState := finalityState

/-- A stored event that becomes final and a new one: one row is inserted and one crosses. -/
theorem bulkUpsertEventsTx_eq_each_two : ∃ t : BalanceEvents,
    (bulkUpsertEventsTx 0 [storedEvent "a" "finalized" true, storedEvent "b" "confirmed" false]
        t).toOption =
      (upsertEach 0 [storedEvent "a" "finalized" true, storedEvent "b" "confirmed" false]
        t).toOption ∧
    (upsertEach 0 [storedEvent "a" "finalized" true, storedEvent "b" "confirmed" false]
        t).toOption.map (fun r => (r.2.insertedCount, r.2.finalityCrossedCount)) = some (1, 1) := by
  have hsto : ((upsertEventTx 0 (storedEvent "a" "confirmed" false) Table.empty).toOption.bind
      fun r => (upsertEach 0 [storedEvent "a" "finalized" true, storedEvent "b" "confirmed" false]
        r.1).toOption.map fun r => (r.2.insertedCount, r.2.finalityCrossedCount)) = some (1, 1) := by
    decide +kernel
  obtain ⟨r, _, hcou⟩ := Option.bind_eq_some_iff.mp hsto
  exact ⟨r.1, (bulkUpsertEventsTx_eq_each (by decide) (by decide) r.1).2 (by decide), hcou⟩

end Bulk

end MultichainIndexer
