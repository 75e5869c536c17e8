import Mathlib.Data.List.Chain
import MultichainIndexer.Ingester.BuildFacts

/-!
# The chain of balance snapshots

An applied event model carries the balance of its address and token before and
after it. The build keeps that balance in a map, and next to it adds the deltas
up by address, token and owner. Over one address and token, the snapshots of the
applied models follow one another from the prefetched balance, and the deltas of
all owners add up to what lies between the first and the last of them.
-/

namespace MultichainIndexer

open Relational Text SumWhere

def appliedTo (key : String × UUID) (ms : List BalanceEvent) : List BalanceEvent :=
  ms.filter fun m => m.balanceApplied && decide ((m.address, m.tokenID) = key)

def liquidDelta (key : String × UUID) (agg : List (AdjustmentKey × AdjustmentAccum)) : Int :=
  sumWhere (fun e => decide ((e.1.address, e.1.tokenID) = key) && decide (e.1.balanceType = ""))
    (fun e => e.2.delta) agg

structure SnapshotChain (start : Int) (ms : List BalanceEvent) : Prop where
  first : ∀ m, ms.head? = some m → m.balanceBefore = some start
  step : ∀ m ∈ ms, ∃ before delta, m.balanceBefore = some before ∧
    parseInt (trimSpace m.delta) = some delta ∧ m.balanceAfter = some (before + delta)
  next : ms.IsChain fun m m' => m'.balanceBefore = m.balanceAfter

def closing (start : Int) (ms : List BalanceEvent) : Int :=
  (ms.getLast?.bind BalanceEvent.balanceAfter).getD start

section Chain
variable {start : Int} {ms : List BalanceEvent} {m : BalanceEvent}

theorem SnapshotChain.nil (start : Int) : SnapshotChain start [] := by
  refine ⟨?_, ?_, ?_⟩
  · intro m hm
    cases hm
  · intro m hm
    cases hm
  · exact .nil

theorem closing_append {after : Int} (h : m.balanceAfter = some after) :
    closing start (ms ++ [m]) = after := by
  simp [closing, h]

theorem SnapshotChain.balanceAfter_last (h : SnapshotChain start ms) (hm : ms.getLast? = some m) :
    m.balanceAfter = some (closing start ms) := by
  obtain ⟨before, delta, -, -, hafter⟩ := h.step m (List.mem_of_getLast? hm)
  rw [closing, hm, Option.bind_some, hafter]
  rfl

theorem SnapshotChain.append (h : SnapshotChain start ms) {delta : Int}
    (hbef : m.balanceBefore = some (closing start ms))
    (hdelta : parseInt (trimSpace m.delta) = some delta)
    (hafter : m.balanceAfter = some (closing start ms + delta)) :
    SnapshotChain start (ms ++ [m]) := by
  refine ⟨?_, ?_, ?_⟩
  · intro m' hm'
    cases hms : ms with
    | nil =>
      rw [hms] at hm' hbef
      cases hm'
      exact hbef
    | cons a l =>
      apply h.first
      rw [hms] at hm' ⊢
      exact hm'
  · intro m' hm'
    rcases List.mem_append.mp hm' with hm' | hm'
    · exact h.step m' hm'
    · cases List.mem_singleton.mp hm'
      exact ⟨_, delta, hbef, hdelta, hafter⟩
  · apply List.isChain_append.mpr
    refine ⟨h.next, .singleton m, ?_⟩
    intro last hlast m' hm'
    cases hm'
    rw [hbef, h.balanceAfter_last hlast]

end Chain

theorem liquidDelta_post {m : BalanceEvent} (hm : m.balanceApplied = true)
    (agg : List (AdjustmentKey × AdjustmentAccum)) (key : String × UUID) :
    liquidDelta key (postAll m.blockCursor m.txHash agg m.postings) =
      liquidDelta key agg + if (m.address, m.tokenID) = key then deltaValue m.delta else 0 := by
  have hsum := (postAll_spec m.blockCursor m.txHash agg m.postings).2.1 fun ak =>
    decide ((ak.address, ak.tokenID) = key) && decide (ak.balanceType = "")
  refine hsum.trans (congrArg (liquidDelta key agg + ·) ?_)
  cases hstake : isStakingActivity m.activityType
  all_goals
    simp [BalanceEvent.postings, BalanceEvent.posts, posting, adjustmentKey, hm, hstake,
      BalanceKind.counts, BalanceKind.signed, BalanceKind.balanceType]

section Build
variable {env : IngestEnv} {addrMap : Option (List WatchedAddress)} {batch : NormalizedBatch}
variable {pre : Prefetched} {st st' : BuildState}

structure Tracks (start : Int) (key : String × UUID) (st : BuildState) : Prop where
  chain : SnapshotChain start (appliedTo key st.eventModels)
  amount : (st.inMemoryBalances key).amount = closing start (appliedTo key st.eventModels)
  sum : liquidDelta key st.aggregatedDeltas =
    closing start (appliedTo key st.eventModels) - start
  bare : ∀ m ∈ st.eventModels, m.balanceApplied = false →
    m.balanceBefore = none ∧ m.balanceAfter = none

theorem appliedTo_append (key : String × UUID) (ms : List BalanceEvent) (m : BalanceEvent) :
    appliedTo key (ms ++ [m]) = appliedTo key ms ++
      if m.balanceApplied = true ∧ (m.address, m.tokenID) = key then [m] else [] := by
  rw [appliedTo, List.filter_append, ← appliedTo]
  by_cases hm : m.balanceApplied = true ∧ (m.address, m.tokenID) = key
  · simp [hm.1, hm.2]
  · have hno : (m.balanceApplied && decide ((m.address, m.tokenID) = key)) = false := by
      simpa using hm
    rw [if_neg hm]
    simp [hno]

variable {start : Int} {key : String × UUID}

theorem Tracks.of_same (h : Tracks start key st) {m : BalanceEvent}
    (hmod : st'.eventModels = st.eventModels ++ [m])
    (hother : ¬(m.balanceApplied = true ∧ (m.address, m.tokenID) = key))
    (hamo : st'.inMemoryBalances key = st.inMemoryBalances key)
    (hsum : liquidDelta key st'.aggregatedDeltas = liquidDelta key st.aggregatedDeltas)
    (hbare : m.balanceApplied = false → m.balanceBefore = none ∧ m.balanceAfter = none) :
    Tracks start key st' := by
  have hsame : appliedTo key st'.eventModels = appliedTo key st.eventModels := by
    rw [hmod, appliedTo_append, if_neg hother, List.append_nil]
  refine ⟨?_, ?_, ?_, ?_⟩
  · rw [hsame]
    exact h.chain
  · rw [hsame, hamo]
    exact h.amount
  · rw [hsame, hsum]
    exact h.sum
  · intro m' hm'
    rw [hmod] at hm'
    rcases List.mem_append.mp hm' with hm' | hm'
    · exact h.bare m' hm'
    · cases List.mem_singleton.mp hm'
      exact hbare

theorem Tracks.take {ec : EventContext} {tokenID txID : UUID} (h : Tracks start key st)
    (hnum : (parseInt (trimSpace ec.be.delta)).isSome = true) :
    Tracks start key (st.follow env addrMap batch ec (.take tokenID txID)) := by
  cases happ : ec.applies batch with
  | false =>
    have hno : ¬ ec.applies batch = true := Bool.eq_false_iff.mp happ
    apply h.of_same (m := st.model env addrMap batch ec tokenID txID) rfl
    · exact fun hyes => hno hyes.1
    · rw [BuildState.follow, if_neg hno]
    · rw [BuildState.follow, postings_of_not_applied happ]
      rfl
    · exact fun _ => ⟨if_neg hno, if_neg hno⟩
  | true =>
    have hliq : liquidDelta key
        (st.follow env addrMap batch ec (.take tokenID txID)).aggregatedDeltas =
        liquidDelta key st.aggregatedDeltas +
          if (ec.be.address, tokenID) = key then deltaValue ec.be.delta else 0 :=
      liquidDelta_post happ st.aggregatedDeltas key
    by_cases hkey : (ec.be.address, tokenID) = key
    · -- the model goes on where the chain of its key has come to
      subst hkey
      rw [if_pos rfl, h.sum] at hliq
      have hbef : (st.model env addrMap batch ec tokenID txID).balanceBefore =
          some (closing start (appliedTo (ec.be.address, tokenID) st.eventModels)) := by
        rw [← h.amount]
        exact if_pos happ
      have hafter : (st.model env addrMap batch ec tokenID txID).balanceAfter =
          some (closing start (appliedTo (ec.be.address, tokenID) st.eventModels) +
            deltaValue ec.be.delta) := by
        rw [← h.amount]
        exact if_pos happ
      have hlist : appliedTo (ec.be.address, tokenID)
          (st.follow env addrMap batch ec (.take tokenID txID)).eventModels =
          appliedTo (ec.be.address, tokenID) st.eventModels ++
            [st.model env addrMap batch ec tokenID txID] := by
        rw [BuildState.follow, appliedTo_append, if_pos ⟨happ, rfl⟩]
      obtain ⟨d, hd⟩ := Option.isSome_iff_exists.mp hnum
      have hvalue : deltaValue ec.be.delta = d := by rw [deltaValue, hd]; rfl
      refine ⟨?_, ?_, ?_, ?_⟩
      · rw [hlist]
        exact h.chain.append hbef hd (hvalue ▸ hafter)
      · rw [hlist, closing_append hafter]
        simp only [BuildState.follow, happ, if_true, BuildState.after, h.amount]
      · rw [hlist, closing_append hafter]
        rw [hliq]
        omega
      · intro m' hm' hno
        rcases List.mem_append.mp hm' with hm' | hm'
        · exact h.bare m' hm' hno
        · cases List.mem_singleton.mp hm'
          exact absurd (happ.symm.trans hno) (by decide)
    · apply h.of_same (m := st.model env addrMap batch ec tokenID txID) rfl
      · exact fun hboth => hkey hboth.2
      · rw [BuildState.follow, if_pos happ]
        exact if_neg (Ne.symm hkey)
      · rw [hliq, if_neg hkey, Int.add_zero]
      · exact fun hno => absurd (happ.symm.trans hno) (by decide)

theorem Tracks.run {l : List EventContext} (h : Tracks start key st)
    (hrun : l.foldlM (buildEvent env addrMap batch pre) st = .ok st') : Tracks start key st' := by
  induction l generalizing st with
  | nil =>
    cases hrun
    exact h
  | cons ec l ih =>
    obtain ⟨u, hu, hrest⟩ := Result.bind_ok hrun
    refine ih ?_ hrest
    obtain ⟨rfl, htake⟩ := buildEvent_follow hu
    cases hver : verdict batch pre st ec with
    | skip => exact h
    | scam signal => exact ⟨h.chain, h.amount, h.sum, h.bare⟩
    | take tokenID txID => exact h.take (htake tokenID txID hver).1

/-- Over every address and token, the snapshots of the applied models form a chain from the
prefetched balance, whose two ends differ by the deltas of all owners. -/
theorem buildEventModels_snapshotChain {balanceMap : String × UUID → Option BalanceAccum}
    {allEvents : List EventContext} {tokens : Tokens}
    (h : buildEventModelsFrom env addrMap batch pre balanceMap allEvents tokens = .ok st)
    (address : String) (tokenID : UUID) :
    let start := ((balanceMap (address, tokenID)).map BalanceAccum.amount).getD 0
    let models := appliedTo (address, tokenID) st.eventModels
    SnapshotChain start models ∧
      liquidDelta (address, tokenID) st.aggregatedDeltas = closing start models - start ∧
      ∀ m ∈ st.eventModels, m.balanceApplied = false →
        m.balanceBefore = none ∧ m.balanceAfter = none := by
  intro start models
  have hstart : Tracks start (address, tokenID)
      { tokens := tokens
        inMemoryBalances := fun k => (balanceMap k).getD ⟨0, false⟩
        cachedDenied := pre.cachedDenied } := by
    refine ⟨.nil start, ?_, (Int.sub_self start).symm, ?_⟩
    · simp only [start]
      cases balanceMap (address, tokenID) <;> rfl
    · intro m hm
      cases hm
  have hend := hstart.run h
  exact ⟨hend.chain, hend.sum, hend.bare⟩

def depositIn (finality delta : String) : EventContext where
  ntx := { txHash := "0xaa", blockCursor := 10 }
  be :=
    { activityType := .deposit
      contractAddress := "0xt"
      address := "0xa"
      delta := delta
      tokenType := .fungible
      eventID := "e"
      finalityState := finality }
  canonicalTxHash := "0xaa"

def buildDeposits : Except String BuildState :=
  buildEventModelsFrom {} none { chain := .ethereum, network := .mainnet }
    { txIDMap := fun _ => some 1, tokenIDMap := fun _ => some 1, cachedDenied := fun _ => false }
    (fun _ => some ⟨10, true⟩)
    [depositIn "finalized" "5", depositIn "pending" "3", depositIn "finalized" "7"] Table.empty

/-- From a prefetched balance of 10, an applied deposit, one below finality and another one. -/
theorem buildEventModels_snapshotChain_deposits :
    ∃ st, buildDeposits = .ok st ∧
      st.eventModels.map (fun m => (m.balanceBefore, m.balanceAfter)) =
        [(some 10, some 15), (none, none), (some 15, some 22)] ∧
      SnapshotChain 10 (appliedTo ("0xa", 1) st.eventModels) ∧
      liquidDelta ("0xa", 1) st.aggregatedDeltas =
        closing 10 (appliedTo ("0xa", 1) st.eventModels) - 10 := by
  have hval : buildDeposits.map (fun st =>
      st.eventModels.map fun m => (m.balanceBefore, m.balanceAfter)) =
        .ok [(some 10, some 15), (none, none), (some 15, some 22)] := by
    decide +kernel
  cases h : buildDeposits with
  | error e =>
    rw [h] at hval
    cases hval
  | ok st =>
    rw [h] at hval
    have hchain := buildEventModels_snapshotChain h "0xa" 1
    exact ⟨st, rfl, Except.ok.inj hval, hchain.1, hchain.2.1⟩

end Build

end MultichainIndexer
