import MultichainIndexer.Normalizer.EvmSums
import MultichainIndexer.Normalizer.FeeMetadata

/-!
# The fee of a layer 2 transaction and its components

The fee events of the payer are the execution fee and, where there is one, the
data fee. They add up to the fee, or the event of the execution fee says that
they do not or that the data fee is missing, except for one case: a data fee
without an execution fee. The whole fee then stands for the execution fee and
the data fee is charged on top.
-/

namespace MultichainIndexer

open Text BestOf SumWhere

namespace Normalizer

def isFeeOf (chain : Chain) (payer : String) (be : NormalizedBalanceEvent) : Bool :=
  isFeeActivity be.activityType && be.address = canonicalizeAddressIdentity chain payer

/-- The execution fee of the payer carries one of the two markers. -/
def FeeMarked (chain : Chain) (payer : String) (events : List NormalizedBalanceEvent) : Prop :=
  ∃ be ∈ events, be.activityType = .feeExecutionL2 ∧ isFeeOf chain payer be = true ∧
    (metaGet (be.chainData.getD []) "fee_total_mismatch" = "true" ∨
      metaGet (be.chainData.getD []) "data_fee_l1_unavailable" = "true")

/-- The events give a data fee other than zero and no execution fee. The second case is a gas
amount and a gas price of different events whose product is negative, as of the text `--1`, and
completes the data fee to the total. -/
def DataFeeAlone (rawEvents : List BalanceEventInfo) (total : Int) : Prop :=
  (∀ be ∈ rawEvents, deriveBaseExecutionFeeFromMetadata be.metadata = none) ∧
    ∃ d, ((dataSource rawEvents).bind fun be => deriveBaseDataFee be.metadata) = some d ∧
      (gasExecutionFee (firstMetadata rawEvents) = none ∧ d ≠ 0 ∨
        ∃ e, gasExecutionFee (firstMetadata rawEvents) = some e ∧ e < 0 ∧ e + d.natAbs = total)

def NoFeeEvents (rawEvents : List BalanceEventInfo) : Prop :=
  ∀ be ∈ rawEvents, be.eventCategory ∉ ["FEE", "fee_execution_l2", "fee_data_l1"]

theorem isFeeActivity_normalizeRaw {be : BalanceEventInfo}
    (h : be.eventCategory ∉ ["FEE", "fee_execution_l2", "fee_data_l1"]) :
    isFeeActivity (normalizeRaw true be).activityType = false := by
  have hclass : ∀ category delta, category ∉ ["FEE", "fee_execution_l2", "fee_data_l1"] →
      isFeeActivity (classifyActivity category delta true) = false := by
    intro category delta hcat
    unfold classifyActivity
    split
    · cases deltaIsPositive delta
      all_goals rfl
    · split
      all_goals rfl
    all_goals first | rfl | exact absurd (by decide) hcat
  unfold normalizeRaw
  split
  · rfl
  · exact hclass _ _ h

theorem deltaValue_canonical_fee {hash : String → String} {chain : Chain} {network : Network}
    {txHash finalityState : String} {be : NormalizedBalanceEvent} {n : Int}
    (hfee : isFeeActivity be.activityType = true) (hdelta : be.delta = canonicalFeeDelta (toString n)) :
    deltaValue (canonicalBaseEvent hash chain network txHash finalityState be).delta =
      -(n.natAbs : Int) := by
  rw [canonicalBaseEvent_delta_fee hfee, hdelta, canonicalFeeDelta_toString,
    canonicalFeeDelta_idem, ← canonicalFeeDelta_toString, deltaValue_canonicalFeeDelta]

section Built
variable (payer feeAmount : String) (metadata : Metadata)

def executionFeeEvent : NormalizedBalanceEvent :=
  buildBaseFeeBalanceEvent .feeExecutionL2 payer
    (toString (deriveBaseExecutionFee feeAmount metadata)) (resolveBaseFeeEventPath metadata)
    "net_base" (baseFeeMarker feeAmount metadata)

def dataFeeEvent (dataFee : Int) : NormalizedBalanceEvent :=
  buildBaseFeeBalanceEvent .feeDataL1 payer (toString dataFee) (resolveBaseFeeEventPath metadata)
    "net_base_data" []

theorem baseFeeEvents_of_l2 {chain : Chain} (h : isEVML1Chain chain = false) :
    baseFeeEvents chain payer feeAmount metadata =
      executionFeeEvent payer feeAmount metadata ::
        ((deriveBaseDataFee metadata).map (dataFeeEvent payer metadata)).toList := by
  unfold baseFeeEvents
  simp only [h, Bool.false_eq_true, if_false]
  cases deriveBaseDataFee metadata with
  | none => rfl
  | some d => rfl

@[simp] theorem executionFeeEvent_activity :
    (executionFeeEvent payer feeAmount metadata).activityType = .feeExecutionL2 := rfl

@[simp] theorem executionFeeEvent_address :
    (executionFeeEvent payer feeAmount metadata).address = payer := rfl

theorem executionFeeEvent_delta : (executionFeeEvent payer feeAmount metadata).delta =
    canonicalFeeDelta (toString (deriveBaseExecutionFee feeAmount metadata)) := by
  simp only [executionFeeEvent, buildBaseFeeBalanceEvent, evmFeeEvent]

theorem executionFeeEvent_chainData : (executionFeeEvent payer feeAmount metadata).chainData =
    some (baseFeeMarker feeAmount metadata) := by
  simp only [executionFeeEvent, buildBaseFeeBalanceEvent, evmFeeEvent]

@[simp] theorem dataFeeEvent_activity (d : Int) :
    (dataFeeEvent payer metadata d).activityType = .feeDataL1 := rfl

@[simp] theorem dataFeeEvent_address (d : Int) : (dataFeeEvent payer metadata d).address = payer := rfl

theorem dataFeeEvent_delta (d : Int) :
    (dataFeeEvent payer metadata d).delta = canonicalFeeDelta (toString d) := by
  simp only [dataFeeEvent, buildBaseFeeBalanceEvent, evmFeeEvent]

theorem isFeeActivity_executionFeeEvent :
    isFeeActivity (executionFeeEvent payer feeAmount metadata).activityType = true := rfl

theorem isFeeActivity_dataFeeEvent (d : Int) :
    isFeeActivity (dataFeeEvent payer metadata d).activityType = true := rfl

theorem baseFeeMarker_iff :
    (metaGet (baseFeeMarker feeAmount metadata) "fee_total_mismatch" = "true" ∨
      metaGet (baseFeeMarker feeAmount metadata) "data_fee_l1_unavailable" = "true") ↔
    hasBaseFeeComponentMetaMismatch feeAmount metadata = true ∨ deriveBaseDataFee metadata = none := by
  unfold baseFeeMarker metaGet
  cases hmis : hasBaseFeeComponentMetaMismatch feeAmount metadata with
  | true => simp
  | false =>
    cases hdata : deriveBaseDataFee metadata with
    | none => simp
    | some d => simp

end Built

theorem executionSource_none_iff {rawEvents : List BalanceEventInfo} :
    ((executionSource rawEvents).bind fun be => deriveBaseExecutionFeeFromMetadata be.metadata) =
      none ↔ ∀ be ∈ rawEvents, deriveBaseExecutionFeeFromMetadata be.metadata = none := by
  have hempty : deriveBaseExecutionFeeFromMetadata [] = none := by decide
  constructor
  · intro h be hbe
    cases hsou : executionSource rawEvents with
    | some source =>
      obtain ⟨fee, hfee⟩ := executionSource_gives hsou
      rw [hsou, Option.bind_some, hfee] at h
      cases h
    | none =>
      by_cases hmeta : be.metadata = []
      · rw [hmeta, hempty]
      · have hcand : be ∈ feeCandidates rawEvents :=
          List.mem_filter.mpr ⟨hbe, by simpa using hmeta⟩
        have hgives := executionSource_eq_none.mp hsou be hcand
        exact Option.not_isSome_iff_eq_none.mp (Bool.eq_false_iff.mp hgives)
  · intro h
    have hnone : executionSource rawEvents = none := by
      apply executionSource_eq_none.mpr
      intro be hbe
      rw [givesExecution, h be (List.mem_of_mem_filter hbe)]
      rfl
    rw [hnone]
    rfl

section Total
variable {payer feeAmount : String} {metadata : Metadata} {n : Int}

theorem deriveBaseExecutionFee_eq (hfee : parseBigInt feeAmount = some n) :
    deriveBaseExecutionFee feeAmount metadata =
      (deriveBaseExecutionFeeFromMetadata metadata).getD n := by
  unfold deriveBaseExecutionFee
  cases deriveBaseExecutionFeeFromMetadata metadata with
  | none => simp only [hfee, Option.getD_some, Option.getD_none]
  | some e => rfl

theorem mismatch_iff (hfee : parseBigInt feeAmount = some n) (hn : n ≠ 0) :
    hasBaseFeeComponentMetaMismatch feeAmount metadata = true ↔
      ∃ e d, deriveBaseExecutionFeeFromMetadata metadata = some e ∧
        deriveBaseDataFee metadata = some d ∧ e + d ≠ n := by
  unfold hasBaseFeeComponentMetaMismatch
  rw [hfee]
  cases deriveBaseExecutionFeeFromMetadata metadata with
  | none => simp
  | some e =>
    cases deriveBaseDataFee metadata with
    | none => simp
    | some d => simp [hn]

/-- When the components miss the total without a marker. -/
theorem components_iff (execution data gas : Option Int) (hn : 0 < n) :
    ((∃ e d, (execution.map fun e => (e.natAbs : Int)).or gas = some e ∧
        (data.map fun d => (d.natAbs : Int)) = some d ∧ e + d ≠ n) ∨
      (data.map fun d => (d.natAbs : Int)) = none ∨
      -((((execution.map fun e => (e.natAbs : Int)).or gas).getD n).natAbs : Int) -
        (((data.map fun d => (d.natAbs : Int)).getD 0).natAbs : Int) = -n) ↔
    ¬ (execution = none ∧ ∃ d, data = some d ∧
      (gas = none ∧ d ≠ 0 ∨ ∃ e, gas = some e ∧ e < 0 ∧ e + d.natAbs = n)) := by
  cases data with
  | none => simp
  | some d =>
    cases execution with
    | some e =>
      simp only [Option.map_some, Option.some_or, Option.some.injEq, Option.getD_some]
      have : ((e.natAbs : Int) + d.natAbs ≠ n) ∨
          -(((e.natAbs : Int)).natAbs : Int) - ((d.natAbs : Int).natAbs : Int) = -n := by omega
      constructor
      · exact fun _ h => nomatch h.1
      · intro _
        rcases this with h | h
        · exact .inl ⟨_, _, rfl, rfl, h⟩
        · exact .inr (.inr h)
    | none =>
      simp only [Option.map_some, Option.map_none, Option.none_or, Option.some.injEq,
        Option.getD_some, reduceCtorEq, false_or, true_and, exists_eq_left']
      cases gas with
      | none =>
        simp only [reduceCtorEq, false_and, exists_false, false_or, Option.getD_none, true_and,
          or_false]
        omega
      | some e =>
        simp only [Option.some.injEq, exists_eq_left', Option.getD_some, reduceCtorEq, false_and,
          false_or]
        constructor
        · rintro (⟨_, _, rfl, rfl, hne⟩ | h)
          · omega
          · omega
        · intro h
          by_cases hsum : e + d.natAbs = n
          · right
            omega
          · exact .inl ⟨_, _, rfl, rfl, hsum⟩

end Total

section Payer
variable {hash : String → String} {chain : Chain} {network : Network}
variable {txHash txStatus payer feeAmount finalityState : String}
variable {rawEvents : List BalanceEventInfo} {watched : List String} {n : Int}

def withFees (others : List NormalizedBalanceEvent) (payer feeAmount : String) (metadata : Metadata)
    (data : Option Int) : List NormalizedBalanceEvent :=
  others ++ executionFeeEvent payer feeAmount metadata ::
    (data.map (dataFeeEvent payer metadata)).toList

theorem baseBalanceEvents_eq (hchain : isEVML1Chain chain = false) (hpayer : payer ∈ watched)
    (hblank : trimSpace payer ≠ "") (hsta : isFeeEligibleStatus txStatus = true)
    (hfee : parseBigInt feeAmount = some n) (hn : n ≠ 0) :
    baseBalanceEvents chain txStatus payer feeAmount rawEvents watched =
      withFees (if equalFold txStatus "FAILED" then []
        else buildRawBalanceEventsMulti rawEvents watched true) payer feeAmount
        (collectBaseMetadata rawEvents) (deriveBaseDataFee (collectBaseMetadata rawEvents)) := by
  have hemit : shouldEmitSolanaFeeEvent txStatus payer feeAmount = true := by
    simp [shouldEmitSolanaFeeEvent, hsta, hblank, hfee, hn]
  unfold baseBalanceEvents
  rw [hemit, decide_eq_true hpayer, Bool.and_self, if_pos rfl, baseFeeEvents_of_l2 _ _ _ hchain,
    withFees]

variable {be : NormalizedBalanceEvent}

theorem not_fee_of_mem (hraw : NoFeeEvents rawEvents)
    (h : be ∈ (if equalFold txStatus "FAILED" then []
      else buildRawBalanceEventsMulti rawEvents watched true)) :
    isFeeActivity be.activityType = false := by
  split at h
  · cases h
  · obtain ⟨raw, hmem, rfl⟩ := List.mem_map.mp h
    exact isFeeActivity_normalizeRaw (hraw raw (List.mem_of_mem_filter hmem))

theorem isFeeOf_other {finality : String} (h : isFeeActivity be.activityType = false) :
    isFeeOf chain payer (canonicalBaseEvent hash chain network txHash finality be) = false := by
  rw [isFeeOf, canonicalBaseEvent_activityType, h, Bool.false_and]

theorem isFeeOf_own {finality : String} (hfee : isFeeActivity be.activityType = true)
    (hadd : be.address = payer) :
    isFeeOf chain payer (canonicalBaseEvent hash chain network txHash finality be) = true := by
  rw [isFeeOf, canonicalBaseEvent_activityType, hfee, canonicalBaseEvent_address, hadd,
    decide_eq_true rfl, Bool.and_self]

section Events
variable {others : List NormalizedBalanceEvent} {metadata : Metadata} {data : Option Int}
variable (hothers : ∀ be ∈ others, isFeeActivity be.activityType = false)
variable (hhash : CollisionFree hash ((withFees others payer feeAmount metadata data).map
  (evmEventText chain network txHash)))
include hothers hhash

theorem sumWhere_fees :
    sumWhere (isFeeOf chain payer) (fun be => deltaValue be.delta)
      (canonicalizeBaseBalanceEvents hash chain network txHash finalityState
        (withFees others payer feeAmount metadata data)) =
      -((deriveBaseExecutionFee feeAmount metadata).natAbs : Int) - ((data.getD 0).natAbs : Int) := by
  have hpair : ∀ finality, (withFees others payer feeAmount metadata data).Pairwise fun a b =>
        evmEventText chain network txHash a = evmEventText chain network txHash b →
        (isFeeOf chain payer (canonicalBaseEvent hash chain network txHash finality a) = true →
          deltaValue (canonicalBaseEvent hash chain network txHash finality a).delta = 0) ∧
        (isFeeOf chain payer (canonicalBaseEvent hash chain network txHash finality b) = true →
          deltaValue (canonicalBaseEvent hash chain network txHash finality b).delta = 0) := by
    -- equal texts have one activity, and no two of the fee events share theirs
    intro finality
    refine List.pairwise_append.mpr ⟨?_, ?_, ?_⟩
    · refine List.pairwise_of_forall_mem_list fun a ha b hb _ => ?_
      rw [isFeeOf_other (hothers a ha), isFeeOf_other (hothers b hb)]
      exact ⟨nofun, nofun⟩
    · cases data with
      | none => exact List.pairwise_singleton _ _
      | some d =>
        refine List.pairwise_pair.mpr fun htext => ?_
        have := evmEventText_activity htext
        rw [executionFeeEvent_activity, dataFeeEvent_activity] at this
        cases this
    · intro a ha b hb htext
      have hfee : isFeeActivity b.activityType = true := by
        rcases List.mem_cons.mp hb with rfl | hb
        · exact isFeeActivity_executionFeeEvent payer feeAmount metadata
        · obtain ⟨d, _, rfl⟩ := Option.map_eq_some_iff.mp (Option.mem_toList.mp hb)
          exact isFeeActivity_dataFeeEvent payer metadata d
      rw [← evmEventText_activity htext, hothers a ha] at hfee
      cases hfee
  obtain ⟨finality, hsum⟩ := sumWhere_canonicalBase (isFeeOf chain payer)
    (fun be => deltaValue be.delta) finalityState hhash hpair
  have hzero : sumWhere (fun be => isFeeOf chain payer
      (canonicalBaseEvent hash chain network txHash finality be))
      (fun be => deltaValue (canonicalBaseEvent hash chain network txHash finality be).delta)
      others = 0 := by
    refine sumWhere_eq_zero fun be hbe hfee => ?_
    rw [isFeeOf_other (hothers be hbe)] at hfee
    cases hfee
  have hexec := isFeeActivity_executionFeeEvent payer feeAmount metadata
  rw [hsum, withFees, sumWhere_append, hzero, zero_add, sumWhere_cons,
    isFeeOf_own hexec (executionFeeEvent_address payer feeAmount metadata), if_pos rfl,
    deltaValue_canonical_fee hexec (executionFeeEvent_delta payer feeAmount metadata)]
  cases data with
  | none =>
    rw [Option.map_none, Option.toList_none, sumWhere_nil, Option.getD_none]
    omega
  | some d =>
    have hdata := isFeeActivity_dataFeeEvent payer metadata d
    rw [Option.map_some, Option.toList_some, sumWhere_cons, sumWhere_nil,
      isFeeOf_own hdata (dataFeeEvent_address payer metadata d), if_pos rfl,
      deltaValue_canonical_fee hdata (dataFeeEvent_delta payer metadata d),
      Option.getD_some]
    omega

theorem feeMarked_iff :
    FeeMarked chain payer (canonicalizeBaseBalanceEvents hash chain network txHash finalityState
      (withFees others payer feeAmount metadata data)) ↔
      hasBaseFeeComponentMetaMismatch feeAmount metadata = true ∨ deriveBaseDataFee metadata = none := by
  have huni : ∀ be ∈ withFees others payer feeAmount metadata data,
      be.activityType = .feeExecutionL2 → be = executionFeeEvent payer feeAmount metadata := by
    intro be hbe hact
    rcases List.mem_append.mp hbe with hbe | hbe
    · have := hothers be hbe
      rw [hact] at this
      cases this
    · rcases List.mem_cons.mp hbe with rfl | hbe
      · rfl
      · obtain ⟨d, _, rfl⟩ := Option.map_eq_some_iff.mp (Option.mem_toList.mp hbe)
        rw [dataFeeEvent_activity] at hact
        cases hact
  rw [← baseFeeMarker_iff]
  constructor
  · rintro ⟨be, hbe, hact, _, hmar⟩
    obtain ⟨raw, hraw, rfl⟩ := List.mem_map.mp
      (mem_of_mem_keep ((List.perm_insertionSort _ _).mem_iff.mp hbe))
    rw [canonicalBaseEvent_activityType] at hact
    rw [huni raw hraw hact, canonicalBaseEvent_chainData, executionFeeEvent_chainData,
      Option.getD_some] at hmar
    exact hmar
  · intro hmar
    have hmem : executionFeeEvent payer feeAmount metadata ∈
        withFees others payer feeAmount metadata data :=
      List.mem_append_cons_self
    refine ⟨canonicalBaseEvent hash chain network txHash
      (normalizeFinalityStateOrDefault chain finalityState)
      (executionFeeEvent payer feeAmount metadata),
      (List.perm_insertionSort _ _).mem_iff.mpr (mem_keep_of_unique (List.mem_map_of_mem hmem) ?_),
      canonicalBaseEvent_activityType, ?_, ?_⟩
    · intro b hb heq
      obtain ⟨raw, hraw, rfl⟩ := List.mem_map.mp hb
      rw [canonicalBaseEvent_eventID, canonicalBaseEvent_eventID] at heq
      have htext := hhash _ (List.mem_map_of_mem hraw) _ (List.mem_map_of_mem hmem) heq
      rw [huni raw hraw (evmEventText_activity htext)]
    · exact isFeeOf_own (isFeeActivity_executionFeeEvent payer feeAmount metadata)
        (executionFeeEvent_address payer feeAmount metadata)
    · rw [canonicalBaseEvent_chainData, executionFeeEvent_chainData, Option.getD_some]
      exact hmar

end Events

/-- A positive fee that the payer, who is named, is to be charged, and no fee among the raw events,
which would be one more fee event. -/
structure PlainFee (txStatus payer : String) (rawEvents : List BalanceEventInfo) (n : Int) :
    Prop where
  status : isFeeEligibleStatus txStatus = true
  payer : trimSpace payer ≠ ""
  positive : 0 < n
  raw : NoFeeEvents rawEvents

/-- The fee events of the payer add up to a plain fee or carry a marker, except for a data fee that
no execution fee goes with. -/
theorem l2_fees_sum_iff (hash : String → String) (chain : Chain) (network : Network)
    (txHash txStatus payer feeAmount finalityState : String) (rawEvents : List BalanceEventInfo)
    (watched : List String) (n : Int) (hl2 : isEVML1Chain chain = false)
    (hpayer : payer ∈ watched) (hamount : parseInt (trimSpace feeAmount) = some n)
    (hhash : CollisionFree hash ((baseBalanceEvents chain txStatus payer feeAmount rawEvents
      watched).map (evmEventText chain network txHash))) :
    let events := buildCanonicalBaseBalanceEventsMulti hash chain network txHash txStatus payer
      feeAmount finalityState rawEvents watched
    let covered := FeeMarked chain payer events ∨
      sumWhere (isFeeOf chain payer) (fun be => deltaValue be.delta) events = -n
    (PlainFee txStatus payer rawEvents n ∧ ¬ DataFeeAlone rawEvents n → covered) ∧
      (PlainFee txStatus payer rawEvents n → (covered ↔ ¬ DataFeeAlone rawEvents n)) := by
  dsimp only
  refine (fun hiff => ⟨fun h => (hiff h.1).mpr h.2, hiff⟩) fun hplain => ?_
  have hn := hplain.positive
  have hfee := parseBigInt_of_pos hamount hn
  have heve : baseBalanceEvents chain txStatus payer feeAmount rawEvents watched = _ :=
    baseBalanceEvents_eq hl2 hpayer hplain.payer hplain.status hfee (by omega)
  unfold buildCanonicalBaseBalanceEventsMulti
  rw [heve] at hhash ⊢
  rw [feeMarked_iff (fun be => not_fee_of_mem hplain.raw) hhash,
    sumWhere_fees (fun be => not_fee_of_mem hplain.raw) hhash, mismatch_iff hfee (by omega),
    deriveBaseExecutionFee_eq hfee, deriveBaseDataFee_collect, deriveExecution_collect, or_assoc,
    components_iff _ _ _ hn, DataFeeAlone]
  refine not_congr (and_congr_left fun _ => ?_)
  exact executionSource_none_iff

def transferWithFees (metadata : Metadata) : BalanceEventInfo where
  eventCategory := "TRANSFER"
  eventAction := "erc20_transfer"
  address := "0xaa"
  contractAddress := "0x70"
  delta := "5"
  counterpartyAddress := "0xbb"
  tokenType := "FUNGIBLE"
  metadata := ("event_path", "log:1") :: metadata

theorem l2_fees_sum_both :
    PlainFee "SUCCESS" "0xaa" [transferWithFees [("fee_execution_l2", "70"), ("fee_data_l1", "30")]]
      100 ∧
    sumWhere (isFeeOf .base "0xaa") (fun be => deltaValue be.delta)
      (buildCanonicalBaseBalanceEventsMulti id .base .mainnet "0x01" "SUCCESS" "0xaa" "100"
        "confirmed" [transferWithFees [("fee_execution_l2", "70"), ("fee_data_l1", "30")]]
        ["0xaa"]) = -100 := by
  have hplain : PlainFee "SUCCESS" "0xaa"
      [transferWithFees [("fee_execution_l2", "70"), ("fee_data_l1", "30")]] 100 :=
    ⟨by decide, by decide, by decide, by unfold NoFeeEvents; decide⟩
  have h := (l2_fees_sum_iff id .base .mainnet "0x01" "SUCCESS" "0xaa" "100" "confirmed"
    [transferWithFees [("fee_execution_l2", "70"), ("fee_data_l1", "30")]] ["0xaa"] 100 rfl
    (by decide) (by decide) (fun _ _ _ _ heq => heq)).1
    ⟨hplain, fun hd => absurd (hd.1 _ List.mem_cons_self) (by decide +kernel)⟩
  refine ⟨hplain, ?_⟩
  rcases h with h | h
  · obtain ⟨be, hbe, _, _, hmarker⟩ := h
    revert be
    decide +kernel
  · exact h

/-- The data fee is charged on top of the whole fee, without a marker. -/
theorem l2_fees_exceed_total :
    sumWhere (isFeeOf .base "0xaa") (fun be => deltaValue be.delta)
      (buildCanonicalBaseBalanceEventsMulti id .base .mainnet "0x01" "SUCCESS" "0xaa" "100"
        "confirmed" [transferWithFees [("fee_data_l1", "30")]] ["0xaa"]) = -130 ∧
    ¬ FeeMarked .base "0xaa" (buildCanonicalBaseBalanceEventsMulti id .base .mainnet "0x01" "SUCCESS"
      "0xaa" "100" "confirmed" [transferWithFees [("fee_data_l1", "30")]] ["0xaa"]) ∧
    NoFeeEvents [transferWithFees [("fee_data_l1", "30")]] := by
  refine ⟨by decide +kernel, ?_, by unfold NoFeeEvents; decide⟩
  rintro ⟨be, hbe, _, _, hmarker⟩
  revert be
  decide +kernel

end Payer

end Normalizer

end MultichainIndexer
