import MultichainIndexer.Lib.Related
import MultichainIndexer.Ingester.AdjustTotals
import MultichainIndexer.Ingester.BatchFacts

/-!
# One batch at two finality states

A batch may be ingested while its events are `processed` and again, in another
history, once they are `finalized`. Both times the same transactions, tokens and
owners are written; what differs is which deltas are applied. The build phases
run in lockstep as long as no event is taken for a scam at one state only.
-/

namespace MultichainIndexer

open Relational Text

def NormalizedBalanceEvent.withFinality (state : String) (be : NormalizedBalanceEvent) :
    NormalizedBalanceEvent :=
  { be with finalityState := state }

def NormalizedTransaction.withFinality (state : String) (ntx : NormalizedTransaction) :
    NormalizedTransaction :=
  { ntx with balanceEvents := ntx.balanceEvents.map (NormalizedBalanceEvent.withFinality state) }

/-- The batch with the events of the decoder at one finality state. -/
def NormalizedBatch.withFinality (state : String) (batch : NormalizedBatch) : NormalizedBatch :=
  { batch with transactions :=
      batch.transactions.map (NormalizedTransaction.withFinality state) }

/-- An event at `processed` and at `finalized`. A synthetic fee event has no state. -/
structure SameEvent (ec ec' : EventContext) : Prop where
  be : ec'.be = ec.be.withFinality ec'.be.finalityState
  hash : ec'.canonicalTxHash = ec.canonicalTxHash
  cursor : ec'.ntx.blockCursor = ec.ntx.blockCursor
  state : ec.be.finalityState = "processed" ∧ ec'.be.finalityState = "finalized" ∨
    ec.be.finalityState = "" ∧ ec'.be.finalityState = ""

section Collect
variable (state : String) (batch : NormalizedBatch)

theorem eventsOf_withFinality (chain : Chain) (ntx : NormalizedTransaction) :
    eventsOf chain (ntx.withFinality state) =
      ntx.balanceEvents.map (NormalizedBalanceEvent.withFinality state) ++
        if isFeeOnly ntx then [buildFeeOnlyEvent ntx chain] else [] := by
  have hempty : (ntx.withFinality state).balanceEvents.isEmpty = ntx.balanceEvents.isEmpty :=
    List.isEmpty_map
  have hfee : isFeeOnly (ntx.withFinality state) = isFeeOnly ntx := by
    unfold isFeeOnly
    rw [hempty]
    simp only [NormalizedTransaction.withFinality]
    rfl
  unfold eventsOf
  rw [hfee]
  rfl

theorem batchEvents_related :
    List.Forall₂ SameEvent (batchEvents (batch.withFinality "processed"))
      (batchEvents (batch.withFinality "finalized")) := by
  unfold batchEvents NormalizedBatch.withFinality
  simp only [List.flatMap_map]
  induction batch.transactions with
  | nil => exact .nil
  | cons ntx l ih =>
    rw [List.flatMap_cons, List.flatMap_cons]
    refine List.rel_append ?_ ih
    rw [eventsOf_withFinality, eventsOf_withFinality, List.map_append, List.map_append,
      List.map_map, List.map_map]
    refine List.rel_append ?_ ?_
    · rw [List.forall₂_map_left_iff, List.forall₂_map_right_iff, List.forall₂_same]
      exact fun be _ => ⟨rfl, rfl, rfl, .inl ⟨rfl, rfl⟩⟩
    · rw [List.forall₂_map_left_iff, List.forall₂_map_right_iff, List.forall₂_same]
      intro be hbe
      split at hbe
      · rw [List.mem_singleton.mp hbe]
        exact ⟨rfl, rfl, rfl, .inr ⟨rfl, rfl⟩⟩
      · cases hbe

theorem collectEvents_withFinality :
    (collectEvents (batch.withFinality state)).txModels = (collectEvents batch).txModels ∧
      (collectEvents (batch.withFinality state)).tokenModels =
        (collectEvents batch).tokenModels := by
  unfold collectEvents
  rw [show (batch.withFinality state).transactions =
    batch.transactions.map (NormalizedTransaction.withFinality state) from rfl, List.foldl_map]
  refine List.foldl_rel (r := fun s s' : Collected =>
    s.txModels = s'.txModels ∧ s.tokenModels = s'.tokenModels) ⟨rfl, rfl⟩ ?_
  intro ntx _ s s' hs
  have hadd : ∀ (u u' : Collected) (be be' : NormalizedBalanceEvent) (ec ec' : EventContext),
      tokenModel (batch.withFinality state) be = tokenModel batch be' →
      u.txModels = u'.txModels ∧ u.tokenModels = u'.tokenModels →
      ((u.addToken (tokenModel (batch.withFinality state) be)).addEvent ec).txModels =
          ((u'.addToken (tokenModel batch be')).addEvent ec').txModels ∧
        ((u.addToken (tokenModel (batch.withFinality state) be)).addEvent ec).tokenModels =
          ((u'.addToken (tokenModel batch be')).addEvent ec').tokenModels := by
    rintro u u' be be' ec ec' hbe ⟨htx, htok⟩
    simp only [Collected.addToken, Collected.addEvent, hbe, htok]
    split
    · exact ⟨htx, htok⟩
    · exact ⟨htx, rfl⟩
  have htx : (s.addTx (txModel (batch.withFinality state) (ntx.withFinality state))).txModels =
        (s'.addTx (txModel batch ntx)).txModels ∧
      (s.addTx (txModel (batch.withFinality state) (ntx.withFinality state))).tokenModels =
        (s'.addTx (txModel batch ntx)).tokenModels := by
    have hsame : txModel (batch.withFinality state) (ntx.withFinality state) = txModel batch ntx :=
      rfl
    simp only [Collected.addTx, hsame, hs.1]
    split
    · exact hs
    · exact ⟨rfl, hs.2⟩
  unfold collectTx
  have hev : eventsOf (batch.withFinality state).chain (ntx.withFinality state) =
      ntx.balanceEvents.map (NormalizedBalanceEvent.withFinality state) ++
        if isFeeOnly ntx then [buildFeeOnlyEvent ntx batch.chain] else [] :=
    eventsOf_withFinality state batch.chain ntx
  simp only [hev]
  unfold eventsOf
  rw [List.foldl_append, List.foldl_append, List.foldl_map]
  refine List.foldl_rel (r := fun s s' : Collected =>
    s.txModels = s'.txModels ∧ s.tokenModels = s'.tokenModels) ?_ ?_
  · refine List.foldl_rel (r := fun s s' : Collected =>
      s.txModels = s'.txModels ∧ s.tokenModels = s'.tokenModels) htx ?_
    exact fun be _ u u' hu => hadd u u' _ _ _ _ rfl hu
  · exact fun be _ u u' hu => hadd u u' _ _ _ _ rfl hu

theorem prefetchBulkData_withFinality (env : IngestEnv) (db : Db) :
    prefetchBulkData env (batch.withFinality state) (collectEvents (batch.withFinality state)) db =
      prefetchBulkData env batch (collectEvents batch) db := by
  unfold prefetchBulkData
  rw [(collectEvents_withFinality state batch).1, (collectEvents_withFinality state batch).2]
  rfl

end Collect

section Drift
variable (state : String) (batch : NormalizedBatch)

theorem transactions_withFinality_isEmpty :
    (batch.withFinality state).transactions.isEmpty = batch.transactions.isEmpty :=
  List.isEmpty_map

theorem rollsBack_withFinality : rollsBack (batch.withFinality state) = rollsBack batch := by
  unfold rollsBack isCanonicalityDrift isBTCRestartAnchorReplay
  rw [transactions_withFinality_isEmpty]
  rfl

theorem shouldContinue_withFinality :
    shouldContinueCompetingBranchReplay (batch.withFinality state) =
      shouldContinueCompetingBranchReplay batch := by
  unfold shouldContinueCompetingBranchReplay
  rw [transactions_withFinality_isEmpty]
  rfl

theorem rollbackFork_withFinality :
    rollbackForkCursorSequence (batch.withFinality state) = rollbackForkCursorSequence batch := by
  unfold rollbackForkCursorSequence rollbackBTCEarliestCompetingSequence
  rw [transactions_withFinality_isEmpty, show (batch.withFinality state).transactions =
    batch.transactions.map (NormalizedTransaction.withFinality state) from rfl, List.foldl_map]
  rfl

theorem rollbackDrift_withFinality (env : IngestEnv) (db : Db) :
    rollbackCanonicalityDrift env (withRollbackForkCursor (batch.withFinality state)) db =
      rollbackCanonicalityDrift env (withRollbackForkCursor batch) db := by
  have hcom : withRollbackForkCursor (batch.withFinality state) =
      (withRollbackForkCursor batch).withFinality state := by
    unfold withRollbackForkCursor
    rw [rollbackFork_withFinality]
    rfl
  unfold rollbackCanonicalityDrift
  rw [hcom, rollbackFork_withFinality]
  rfl

theorem processBatch_withFinality {env : IngestEnv} {batch : NormalizedBatch} {db d d' : Db}
    {state state' : String} (h : processBatch env (batch.withFinality state) db = .ok d)
    (h' : processBatch env (batch.withFinality state') db = .ok d') :
    ∃ u, (rollsBack (canonicalizeCursors batch) = false ∧ u = db ∨
        rollsBack (canonicalizeCursors batch) = true ∧
          DriftedBy env (withRollbackForkCursor (canonicalizeCursors batch)) db u) ∧
      (ingestBatch env ((canonicalizeCursors batch).withFinality state) u = .ok d ∧
          ingestBatch env ((canonicalizeCursors batch).withFinality state') u = .ok d' ∨
        d = u ∧ d' = u) := by
  have hcanon : ∀ state, canonicalizeCursors (batch.withFinality state) =
      (canonicalizeCursors batch).withFinality state := fun _ => rfl
  unfold processBatch at h h'
  simp only [hcanon, rollsBack_withFinality, rollbackDrift_withFinality,
    shouldContinue_withFinality] at h h'
  split at h
  · rename_i hback
    rw [if_pos hback] at h'
    cases hu : rollbackCanonicalityDrift env
        (withRollbackForkCursor (canonicalizeCursors batch)) db with
    | error e =>
      rw [hu] at h
      cases h
    | ok u =>
      rw [hu] at h h'
      simp only at h h'
      refine ⟨u, .inr ⟨hback, rollbackCanonicalityDrift_ok hu⟩, ?_⟩
      split at h
      · rename_i hcont
        rw [if_pos hcont] at h'
        exact .inl ⟨h, h'⟩
      · rename_i hcont
        rw [if_neg hcont] at h'
        cases h
        cases h'
        exact .inr ⟨rfl, rfl⟩
  · rename_i hback
    rw [if_neg hback] at h'
    exact ⟨db, .inl ⟨by simpa using hback, rfl⟩, .inl ⟨h, h'⟩⟩

end Drift

section Build
variable {env : IngestEnv} {addrMap : Option (List WatchedAddress)} {batch : NormalizedBatch}
variable {pre : Prefetched}

variable {ec ec' : EventContext} {st st' : BuildState} {t : Balances}

structure SameModel (m m' : BalanceEvent) : Prop where
  account : m'.account = m.account
  activityType : m'.activityType = m.activityType
  delta : m'.delta = m.delta
  walletID : m'.walletID = m.walletID
  organizationID : m'.organizationID = m.organizationID
  applied : m.finalityState = "" ∧ m'.balanceApplied = m.balanceApplied ∨
    m.finalityState = "processed" ∧ (m.balanceApplied = true → m'.balanceApplied = true) ∧
      (m'.balanceApplied = false → deltaValue m.delta = 0)

/-- Whatever is applied at `processed` is applied at `finalized`, where only zeros are held back. -/
theorem meetsBalanceThreshold_finalized {chain : Chain} {tokenType : TokenType} {delta : String} :
    (meetsBalanceThreshold chain "processed" tokenType delta = true →
      meetsBalanceThreshold chain "finalized" tokenType delta = true) ∧
    (meetsBalanceThreshold chain "finalized" tokenType delta = false → deltaValue delta = 0) := by
  have hrank : finalityStateRank "finalized" = 4 := by decide
  unfold meetsBalanceThreshold
  rw [hrank]
  constructor
  · intro h
    rw [Bool.and_eq_true] at h ⊢
    exact ⟨by simp, h.2⟩
  · intro h
    simp only [Nat.reduceLeDiff, decide_true, Bool.or_true, Bool.true_and, Bool.or_eq_false_iff,
      decide_eq_false_iff_not] at h
    unfold deltaValue
    cases hp : parseInt (trimSpace delta) with
    | none => rfl
    | some v =>
      rw [hp] at h
      simpa using h.2

theorem SameEvent.threshold (h : SameEvent ec ec') (chain : Chain) :
    ec.be.finalityState = "" ∧
      meetsBalanceThreshold chain ec'.be.finalityState ec'.be.tokenType ec'.be.delta =
        meetsBalanceThreshold chain ec.be.finalityState ec.be.tokenType ec.be.delta ∨
    ec.be.finalityState = "processed" ∧
      (meetsBalanceThreshold chain ec.be.finalityState ec.be.tokenType ec.be.delta = true →
        meetsBalanceThreshold chain ec'.be.finalityState ec'.be.tokenType ec'.be.delta = true) ∧
      (meetsBalanceThreshold chain ec'.be.finalityState ec'.be.tokenType ec'.be.delta = false →
        deltaValue ec.be.delta = 0) := by
  have htype : ec'.be.tokenType = ec.be.tokenType := by rw [h.be]; rfl
  have hdelta : ec'.be.delta = ec.be.delta := by rw [h.be]; rfl
  rw [htype, hdelta]
  rcases h.state with ⟨hp, hf⟩ | ⟨hp, hf⟩
  · rw [hp, hf]
    exact .inr ⟨rfl, meetsBalanceThreshold_finalized⟩
  · rw [hp, hf]
    exact .inl ⟨rfl, rfl⟩

theorem SameEvent.applies (h : SameEvent ec ec') {chain : Chain}
    (happ : meetsBalanceThreshold chain ec.be.finalityState ec.be.tokenType ec.be.delta = true) :
    meetsBalanceThreshold chain ec'.be.finalityState ec'.be.tokenType ec'.be.delta = true := by
  rcases h.threshold chain with ⟨_, heq⟩ | ⟨_, himp, _⟩
  · exact heq.trans happ
  · exact himp happ

theorem sameModel_of_sameEvent (h : SameEvent ec ec') {txID tokenID : UUID}
    {before after before' after' : Int} :
    SameModel
      (eventModel (batch.withFinality "processed") ec
        (resolveOwner env addrMap (batch.withFinality "processed") ec.be) txID tokenID before after)
      (eventModel (batch.withFinality "finalized") ec'
        (resolveOwner env addrMap (batch.withFinality "finalized") ec'.be) txID tokenID
        before' after') := by
  have hthr := h.threshold batch.chain
  obtain ⟨ntx', be', hash'⟩ := ec'
  obtain ⟨hbe, hhash, hcursor, hstate⟩ := h
  simp only at hbe hthr
  generalize be'.finalityState = state at hbe
  subst hbe
  refine ⟨rfl, rfl, rfl, rfl, rfl, ?_⟩
  simpa only [eventModel, NormalizedBatch.withFinality] using hthr

def Backed (batch : NormalizedBatch) (pre : Prefetched) (t : Balances) : Prop :=
  ∀ ec ∈ batchEvents (batch.withFinality "processed"), ∀ tokenID,
    pre.tokenIDMap ec.be.contractAddress = some tokenID →
    detectScamSignal batch.chain ec.be false ≠ detectScamSignal batch.chain ec.be true →
    (prefetchedBalance batch t (ec.be.address, tokenID)).present = true

structure InStep (batch : NormalizedBatch) (t : Balances) (st st' : BuildState) : Prop where
  denied : st'.cachedDenied = st.cachedDenied
  stored : ∀ k, (prefetchedBalance batch t k).present = true →
    (st.inMemoryBalances k).present = true
  present : ∀ k, (st.inMemoryBalances k).present = true → (st'.inMemoryBalances k).present = true
  models : List.Forall₂ SameModel st.eventModels st'.eventModels

theorem detectScamSignal_withFinality (chain : Chain) (be : NormalizedBalanceEvent)
    (state : String) (balanceExists : Bool) :
    detectScamSignal chain (be.withFinality state) balanceExists =
      detectScamSignal chain be balanceExists := by
  simp only [detectScamSignal, NormalizedBalanceEvent.withFinality]
  rfl

theorem verdict_inStep (hbac : Backed batch pre t)
    (hec : ec ∈ batchEvents (batch.withFinality "processed")) (h : SameEvent ec ec')
    (hst : InStep batch t st st') :
    verdict (batch.withFinality "finalized") pre st' ec' =
      verdict (batch.withFinality "processed") pre st ec := by
  obtain ⟨ntx', be', hash'⟩ := ec'
  obtain ⟨hbe, hhash, _, _⟩ := h
  simp only at hbe hhash
  generalize be'.finalityState = state at hbe
  subst hbe
  subst hhash
  unfold verdict
  simp only [detectScamSignal_withFinality]
  simp only [NormalizedBalanceEvent.withFinality, NormalizedBatch.withFinality]
  cases htok : pre.tokenIDMap ec.be.contractAddress with
  | none => rfl
  | some tokenID =>
    cases pre.txIDMap ec.canonicalTxHash with
    | none => rfl
    | some txID =>
      have hsig : detectScamSignal batch.chain ec.be
          (st'.inMemoryBalances (ec.be.address, tokenID)).present =
          detectScamSignal batch.chain ec.be
            (st.inMemoryBalances (ec.be.address, tokenID)).present := by
        cases hp : (st.inMemoryBalances (ec.be.address, tokenID)).present with
        | true => rw [hst.present _ hp]
        | false =>
          have hsame : detectScamSignal batch.chain ec.be false =
              detectScamSignal batch.chain ec.be true := by
            by_contra hne
            rw [hst.stored _ (hbac ec hec tokenID htok hne)] at hp
            cases hp
          cases (st'.inMemoryBalances (ec.be.address, tokenID)).present with
          | true => exact hsame.symm
          | false => rfl
      simp only [hsig, hst.denied]
      rfl

theorem buildEvent_inStep {u u' : BuildState} (hbac : Backed batch pre t)
    (hec : ec ∈ batchEvents (batch.withFinality "processed")) (h : SameEvent ec ec')
    (hst : InStep batch t st st')
    (hu : buildEvent env addrMap (batch.withFinality "processed") pre st ec = .ok u)
    (hu' : buildEvent env addrMap (batch.withFinality "finalized") pre st' ec' = .ok u') :
    InStep batch t u u' := by
  have hcon : ec'.be.contractAddress = ec.be.contractAddress := by rw [h.be]; rfl
  have hadd : ec'.be.address = ec.be.address := by rw [h.be]; rfl
  obtain ⟨rfl, -⟩ := buildEvent_follow hu
  obtain ⟨rfl, -⟩ := buildEvent_follow hu'
  rw [verdict_inStep hbac hec h hst]
  cases verdict (batch.withFinality "processed") pre st ec with
  | skip => exact hst
  | scam signal =>
    refine ⟨?_, hst.stored, hst.present, hst.models⟩
    simp only [BuildState.follow, hst.denied, hcon]
  | take tokenID txID =>
    refine ⟨hst.denied, fun k hk => ?_, fun k hk => ?_, ?_⟩
    · rw [follow_present, hst.stored k hk]
      rfl
    · rw [follow_present] at hk
      rw [follow_present, hadd]
      rcases Bool.or_eq_true _ _ ▸ hk with hk | hk
      · rw [hst.present k hk]
        rfl
      · -- an event applied at the earlier state is applied at the later one
        rw [Bool.and_eq_true] at hk
        rw [Bool.or_eq_true, Bool.and_eq_true]
        exact .inr ⟨hk.1, h.applies hk.2⟩
    · exact List.rel_append hst.models (.cons (sameModel_of_sameEvent h) .nil)

theorem buildEventModels_related {db db' : Db} (hbac : Backed batch pre t) (ht : db.balances = t)
    (ht' : db'.balances = t) (h : buildEventModels env addrMap (batch.withFinality "processed") pre
      (batchEvents (batch.withFinality "processed")) db = .ok st)
    (h' : buildEventModels env addrMap (batch.withFinality "finalized") pre
      (batchEvents (batch.withFinality "finalized")) db' = .ok st') :
    List.Forall₂ SameModel st.eventModels st'.eventModels := by
  have hstart : InStep batch t (.start (batch.withFinality "processed") pre db)
      (.start (batch.withFinality "finalized") pre db') := by
    rw [BuildState.start, BuildState.start, ht, ht']
    exact ⟨rfl, fun _ hk => hk, fun _ hk => hk, .nil⟩
  have hend := Related.foldlM_lockstep (batchEvents_related batch) h h' hstart
    fun ec hec ec' _ hsame _ _ _ _ hst hu hu' => buildEvent_inStep hbac hec hsame hst hu hu'
  exact hend.models

end Build

end MultichainIndexer
