import MultichainIndexer.Accounting
import MultichainIndexer.Ingester.Build

/-!
# What the build phase produces

Every event model comes from an event of the batch, in the batch's order, and
the aggregated deltas hold what the applied models post: their value to the
liquid balance and, for staking, its inverse to the staked one.
-/

namespace MultichainIndexer

open Relational Text SumWhere

def BalanceEvent.account (m : BalanceEvent) : Account := ⟨m.chain, m.network, m.address, m.tokenID⟩

def BalanceEvent.posts (b : BalanceKind) (m : BalanceEvent) : Bool :=
  m.balanceApplied && b.counts m.activityType

def posting (b : BalanceKind) (m : BalanceEvent) : AdjustmentKey × Int :=
  (adjustmentKey m b.balanceType, b.signed (deltaValue m.delta))

def BalanceEvent.postings (m : BalanceEvent) : List (AdjustmentKey × Int) :=
  ([BalanceKind.liquid, .staked].filter fun b => m.posts b).map fun b => posting b m

/-- The aggregated deltas add up the postings of the models. -/
structure Aggregated (ms : List BalanceEvent) (agg : List (AdjustmentKey × AdjustmentAccum)) :
    Prop where
  nodup : (agg.map Prod.fst).Nodup
  sum : ∀ p : AdjustmentKey → Bool,
    sumWhere (fun e => p e.1) (fun e => e.2.delta) agg =
      sumWhere (fun e => p e.1) (fun e => e.2) (ms.flatMap BalanceEvent.postings)
  keys : ∀ ak ∈ agg.map Prod.fst, ak ∈ (ms.flatMap BalanceEvent.postings).map Prod.fst

/-- Postings of a model are added one after the other. -/
def postAll (cursor : Int) (txHash : String) (agg : List (AdjustmentKey × AdjustmentAccum))
    (l : List (AdjustmentKey × Int)) : List (AdjustmentKey × AdjustmentAccum) :=
  l.foldl (fun agg e => addDelta e.1 e.2 cursor txHash agg) agg

theorem postAll_spec (cursor : Int) (txHash : String)
    (agg : List (AdjustmentKey × AdjustmentAccum)) (l : List (AdjustmentKey × Int)) :
    ((agg.map Prod.fst).Nodup → ((postAll cursor txHash agg l).map Prod.fst).Nodup) ∧
    (∀ p : AdjustmentKey → Bool,
      sumWhere (fun e => p e.1) (fun e => e.2.delta) (postAll cursor txHash agg l) =
        sumWhere (fun e => p e.1) (fun e => e.2.delta) agg +
          sumWhere (fun e => p e.1) (fun e => e.2) l) ∧
    ∀ ak, ak ∈ (postAll cursor txHash agg l).map Prod.fst ↔
      ak ∈ agg.map Prod.fst ∨ ak ∈ l.map Prod.fst := by
  induction l generalizing agg with
  | nil => simp [postAll]
  | cons e l ih =>
    obtain ⟨hnodup, hsum, hkeys⟩ := ih (addDelta e.1 e.2 cursor txHash agg)
    refine ⟨fun h => hnodup (Accumulate.nodup_keys_bump h), fun p => ?_, fun ak => ?_⟩
    · have hone : sumWhere (fun e => p e.1) (fun e => e.2.delta)
          (addDelta e.1 e.2 cursor txHash agg) =
          sumWhere (fun e => p e.1) (fun e => e.2.delta) agg + if p e.1 then e.2 else 0 := by
        refine Accumulate.sumWhere_bump rfl (fun acc => ?_) p agg
        split <;> rfl
      refine (hsum p).trans ?_
      rw [hone, sumWhere_cons, add_assoc]
    · refine (hkeys ak).trans ?_
      rw [addDelta, Accumulate.mem_keys_bump, List.map_cons, List.mem_cons, or_assoc, or_left_comm]

theorem negateDecimalString_value {delta inverted : String} {d : Int}
    (h : negateDecimalString delta = .ok inverted)
    (hd : parseInt (trimSpace inverted) = some d) : d = -deltaValue delta := by
  unfold negateDecimalString at h
  split at h
  · cases h
  · rename_i v hv
    cases h
    rw [trimSpace_of_parseInt (parseInt_toString (-v)), parseInt_toString] at hd
    cases hd
    rw [deltaValue, trimSpace_of_parseInt hv, hv]
    rfl

section Aggregate
variable {m : BalanceEvent} {agg agg' : List (AdjustmentKey × AdjustmentAccum)}

theorem aggregate_ok {d : Int} (hd : parseInt m.delta = some d)
    (agg : List (AdjustmentKey × AdjustmentAccum)) : ∃ agg', aggregate m agg = .ok agg' := by
  unfold aggregate
  rw [trimSpace_of_parseInt hd, hd]
  simp only
  split
  · have hneg : negateDecimalString m.delta = .ok (toString (-d)) := by
      unfold negateDecimalString
      rw [hd]
    rw [hneg]
    simp only [trimSpace_of_parseInt (parseInt_toString (-d)), parseInt_toString]
    exact ⟨_, rfl⟩
  · exact ⟨_, rfl⟩

theorem aggregate_posts (hm : m.balanceApplied = true) (h : aggregate m agg = .ok agg') :
    agg' = postAll m.blockCursor m.txHash agg m.postings := by
  unfold aggregate at h
  split at h
  · cases h
  · rename_i d hd
    have hvalue : deltaValue m.delta = d := by rw [deltaValue, hd]; rfl
    simp only at h
    split at h
    · rename_i hstake
      split at h
      · cases h
      · rename_i inverted hinv
        split at h
        · cases h
        · rename_i sd hsd
          cases h
          rw [negateDecimalString_value hinv hsd]
          simp [BalanceEvent.postings, BalanceEvent.posts, posting, hm, BalanceKind.counts, hstake,
            BalanceKind.signed, BalanceKind.balanceType, hvalue, postAll]
    · rename_i hstake
      cases h
      simp [BalanceEvent.postings, BalanceEvent.posts, posting, hm, BalanceKind.counts, hstake,
        BalanceKind.signed, BalanceKind.balanceType, hvalue, postAll]

theorem postings_of_not_applied (hm : m.balanceApplied = false) : m.postings = [] := by
  simp [BalanceEvent.postings, BalanceEvent.posts, hm]

theorem Aggregated.post {ms : List BalanceEvent} (h : Aggregated ms agg) (m : BalanceEvent) :
    Aggregated (ms ++ [m]) (postAll m.blockCursor m.txHash agg m.postings) := by
  obtain ⟨hnodup, hsum, hkeys⟩ := postAll_spec m.blockCursor m.txHash agg m.postings
  refine ⟨hnodup h.nodup, fun p => ?_, fun ak hak => ?_⟩
  · rw [hsum, h.sum, List.flatMap_append, List.flatMap_singleton, sumWhere_append]
  · rw [List.flatMap_append, List.flatMap_singleton, List.map_append, List.mem_append]
    exact ((hkeys ak).mp hak).imp_left (h.keys ak)

end Aggregate

def EventContext.applies (batch : NormalizedBatch) (ec : EventContext) : Bool :=
  meetsBalanceThreshold batch.chain ec.be.finalityState ec.be.tokenType ec.be.delta

/-- What the build decides about an event. -/
inductive Verdict where
  | skip
  | scam (signal : String)
  | take (tokenID txID : UUID)

def verdict (batch : NormalizedBatch) (pre : Prefetched) (st : BuildState) (ec : EventContext) :
    Verdict :=
  match pre.tokenIDMap ec.be.contractAddress, pre.txIDMap ec.canonicalTxHash with
  | some tokenID, some txID =>
    let signal := detectScamSignal batch.chain ec.be
      (st.inMemoryBalances (ec.be.address, tokenID)).present
    if st.cachedDenied ec.be.contractAddress then .skip
    else if signal ≠ "" then .scam signal
    else .take tokenID txID
  | _, _ => .skip

section Follow
variable (env : IngestEnv) (addrMap : Option (List WatchedAddress)) (batch : NormalizedBatch)
variable (st : BuildState) (ec : EventContext)

def BuildState.after (tokenID : UUID) : Int :=
  (st.inMemoryBalances (ec.be.address, tokenID)).amount + deltaValue ec.be.delta

def BuildState.model (tokenID txID : UUID) : BalanceEvent :=
  eventModel batch ec (resolveOwner env addrMap batch ec.be) txID tokenID
    (st.inMemoryBalances (ec.be.address, tokenID)).amount (st.after ec tokenID)

/-- What a verdict on an event leaves of the state. -/
def BuildState.follow : Verdict → BuildState
  | .skip => st
  | .scam signal =>
    { st with
      tokens := denyTokenTx batch.chain batch.network ec.be.contractAddress
        ("auto-detected: " ++ signal) "ingester_auto" 100 [signal] st.tokens
      cachedDenied := fun c => if c = ec.be.contractAddress then true else st.cachedDenied c }
  | .take tokenID txID =>
    let m := st.model env addrMap batch ec tokenID txID
    { st with
      inMemoryBalances := if ec.applies batch then fun k =>
          if k = (ec.be.address, tokenID) then ⟨st.after ec tokenID, true⟩
          else st.inMemoryBalances k
        else st.inMemoryBalances
      eventModels := st.eventModels ++ [m]
      aggregatedDeltas := postAll m.blockCursor m.txHash st.aggregatedDeltas m.postings }

end Follow

section Build
variable {env : IngestEnv} {addrMap : Option (List WatchedAddress)} {batch : NormalizedBatch}
variable {pre : Prefetched}

def BuiltFrom (env : IngestEnv) (addrMap : Option (List WatchedAddress)) (batch : NormalizedBatch)
    (pre : Prefetched) (ec : EventContext) (m : BalanceEvent) : Prop :=
  ∃ txID tokenID before after, pre.tokenIDMap ec.be.contractAddress = some tokenID ∧
    m = eventModel batch ec (resolveOwner env addrMap batch ec.be) txID tokenID before after

section Step
variable {st st' : BuildState} {ec : EventContext} {tokenID txID : UUID}

theorem follow_present (k : String × UUID) :
    ((st.follow env addrMap batch ec (.take tokenID txID)).inMemoryBalances k).present =
      ((st.inMemoryBalances k).present ||
        decide (k = (ec.be.address, tokenID)) && ec.applies batch) := by
  rw [BuildState.follow]
  cases ec.applies batch with
  | false => simp
  | true =>
    by_cases hk : k = (ec.be.address, tokenID)
    · simp [hk]
    · simp [hk]

theorem verdict_known (htok : pre.tokenIDMap ec.be.contractAddress = some tokenID)
    (htx : pre.txIDMap ec.canonicalTxHash = some txID) :
    verdict batch pre st ec =
      if st.cachedDenied ec.be.contractAddress then .skip
      else if detectScamSignal batch.chain ec.be
          (st.inMemoryBalances (ec.be.address, tokenID)).present ≠ "" then
        .scam (detectScamSignal batch.chain ec.be
          (st.inMemoryBalances (ec.be.address, tokenID)).present)
      else .take tokenID txID := by
  unfold verdict
  rw [htok, htx]

theorem verdict_take (h : verdict batch pre st ec = .take tokenID txID) :
    pre.tokenIDMap ec.be.contractAddress = some tokenID := by
  unfold verdict at h
  split at h
  · rename_i htok _
    simp only at h
    split_ifs at h
    cases h
    exact htok
  · cases h

theorem addDecimalStrings_ok {a after : Int} {b : String} (h : addDecimalStrings a b = .ok after) :
    (parseInt (trimSpace b)).isSome = true ∧ FitsNumeric after ∧ after = a + deltaValue b := by
  unfold addDecimalStrings at h
  split at h
  · cases h
  · rename_i d hd
    split at h
    · rename_i hfits
      cases h
      rw [deltaValue, hd]
      exact ⟨rfl, hfits, rfl⟩
    · cases h

/-- The build follows its verdict; an event that is taken has a delta, and a balance that fits. -/
theorem buildEvent_follow (h : buildEvent env addrMap batch pre st ec = .ok st') :
    st' = st.follow env addrMap batch ec (verdict batch pre st ec) ∧
      ∀ tokenID txID, verdict batch pre st ec = .take tokenID txID →
        (parseInt (trimSpace ec.be.delta)).isSome = true ∧ FitsNumeric (st.after ec tokenID) := by
  unfold buildEvent at h
  split at h
  · rename_i tokenID txID htok htx
    rw [verdict_known htok htx]
    split at h
    · rename_i hden
      cases h
      rw [if_pos hden]
      exact ⟨rfl, nofun⟩
    · rename_i hden
      rw [if_neg hden]
      simp only at h
      split at h
      · rename_i hsig
        cases h
        rw [if_pos hsig]
        exact ⟨rfl, nofun⟩
      · rename_i hsig
        rw [if_neg hsig]
        split at h
        · cases h
        · rename_i after hafter
          obtain ⟨hnum, hfits, rfl⟩ := addDecimalStrings_ok hafter
          refine ⟨?_, fun _ _ htake => by cases htake; exact ⟨hnum, hfits⟩⟩
          split at h
          · rename_i happ
            split at h
            · cases h
            · rename_i agg hagg
              cases h
              rw [aggregate_posts happ hagg, BuildState.follow,
                if_pos (show ec.applies batch = true from happ)]
              rfl
          · rename_i happ
            have hnone : (st.model env addrMap batch ec tokenID txID).postings = [] :=
              postings_of_not_applied (Bool.eq_false_iff.mpr happ)
            cases h
            rw [BuildState.follow, if_neg (show ¬ ec.applies batch = true from happ), hnone]
            rfl
  · rename_i hnone
    cases h
    have hskip : verdict batch pre st ec = .skip := by
      unfold verdict
      split
      · rename_i tokenID txID htok htx
        exact absurd htx (hnone tokenID txID htok)
      · rfl
    rw [hskip]
    exact ⟨rfl, nofun⟩

/-- The build fails only where a balance does not fit. -/
theorem buildEvent_ok {d : Int} (hd : parseInt ec.be.delta = some d)
    (hfits : ∀ tokenID txID, verdict batch pre st ec = .take tokenID txID →
      FitsNumeric (st.after ec tokenID)) :
    ∃ st', buildEvent env addrMap batch pre st ec = .ok st' := by
  unfold buildEvent
  split
  · rename_i tokenID txID htok htx
    rw [verdict_known htok htx] at hfits
    split
    · exact ⟨_, rfl⟩
    · rename_i hden
      simp only
      split
      · exact ⟨_, rfl⟩
      · rename_i hsig
        rw [if_neg hden, if_neg hsig] at hfits
        have hfit : FitsNumeric ((st.inMemoryBalances (ec.be.address, tokenID)).amount + d) := by
          have hafter := hfits tokenID txID rfl
          rwa [BuildState.after, deltaValue, trimSpace_of_parseInt hd, hd] at hafter
        have hadd : addDecimalStrings (st.inMemoryBalances (ec.be.address, tokenID)).amount
            ec.be.delta = .ok ((st.inMemoryBalances (ec.be.address, tokenID)).amount + d) := by
          unfold addDecimalStrings
          rw [trimSpace_of_parseInt hd, hd]
          exact if_pos hfit
        rw [hadd]
        simp only
        split
        · obtain ⟨agg, hagg⟩ := aggregate_ok (m := eventModel batch ec
            (resolveOwner env addrMap batch ec.be) txID tokenID
            (st.inMemoryBalances (ec.be.address, tokenID)).amount
            ((st.inMemoryBalances (ec.be.address, tokenID)).amount + d)) hd st.aggregatedDeltas
          rw [hagg]
          exact ⟨_, rfl⟩
        · exact ⟨_, rfl⟩
  · exact ⟨_, rfl⟩

end Step

/-- The models come from a sublist of the events, and the aggregated deltas are theirs. -/
theorem buildEventModels_spec {allEvents : List EventContext} {db : Db} {st : BuildState}
    (h : buildEventModels env addrMap batch pre allEvents db = .ok st) :
    ∃ kept, kept.Sublist allEvents ∧
      List.Forall₂ (BuiltFrom env addrMap batch pre) kept st.eventModels ∧
      Aggregated st.eventModels st.aggregatedDeltas := by
  have hall : ∀ (l : List EventContext) (s s' : BuildState),
      l.foldlM (buildEvent env addrMap batch pre) s = .ok s' →
      Aggregated s.eventModels s.aggregatedDeltas →
      ∃ kept ms, kept.Sublist l ∧ List.Forall₂ (BuiltFrom env addrMap batch pre) kept ms ∧
        s'.eventModels = s.eventModels ++ ms ∧ Aggregated s'.eventModels s'.aggregatedDeltas := by
    intro l
    induction l with
    | nil =>
      intro s s' hs hagg
      cases hs
      exact ⟨[], [], List.Sublist.refl _, .nil, by simp, hagg⟩
    | cons ec l ih =>
      intro s s' hs hagg
      obtain ⟨u, hu, hrest⟩ := Result.bind_ok hs
      obtain ⟨rfl, -⟩ := buildEvent_follow hu
      cases hver : verdict batch pre s ec with
      | skip =>
        rw [hver] at hrest
        obtain ⟨kept, ms, hsub, hrel⟩ := ih _ s' hrest hagg
        exact ⟨kept, ms, hsub.cons ec, hrel⟩
      | scam signal =>
        rw [hver] at hrest
        obtain ⟨kept, ms, hsub, hrel⟩ := ih _ s' hrest hagg
        exact ⟨kept, ms, hsub.cons ec, hrel⟩
      | take tokenID txID =>
        rw [hver] at hrest
        obtain ⟨kept, ms, hsub, hrel, hout, hagg'⟩ := ih _ s' hrest (hagg.post _)
        refine ⟨ec :: kept, s.model env addrMap batch ec tokenID txID :: ms, hsub.cons_cons ec,
          .cons ⟨txID, tokenID, _, _, verdict_take hver, rfl⟩ hrel, ?_, hagg'⟩
        rw [hout, BuildState.follow, ← List.append_cons]
  obtain ⟨kept, ms, hsub, hrel, hout, hagg⟩ := hall allEvents _ st h
    ⟨List.nodup_nil, fun p => rfl, by simp⟩
  rw [List.nil_append] at hout
  rw [← hout] at hrel
  exact ⟨kept, hsub, hrel, hagg⟩

end Build

end MultichainIndexer
