import Mathlib.Data.List.Permutation
import MultichainIndexer.Normalizer.EvmOrder

/-!
# When the order of the decoded events shows in an EVM fee

Where no decoded event is itself a fee event, the fee events stand among the
canonical events as they were built, so canonical events that are the same in
every order have fee events that say the same in every order.
-/

namespace MultichainIndexer

open Text BestOf

namespace Normalizer

theorem canonicalEventText_path_cancel {chain : Chain} {network : Network}
    {txHash path path' actor asset : String} {activity : ActivityType}
    (h : canonicalEventText chain network txHash path actor asset activity =
      canonicalEventText chain network txHash path' actor asset activity) : path = path' := by
  have hrest := canonicalEventText_rest h
  simp only [tailed, tailFields, List.foldl_cons, List.foldl_nil, List.append_cancel_right_eq] at hrest
  exact label_append_inj hrest

section Fees
variable {chain : Chain} {feePayer feeAmount : String} {m m' : Metadata}
variable {be be' : NormalizedBalanceEvent}

theorem isFeeActivity_baseFeeEvents (h : be ∈ baseFeeEvents chain feePayer feeAmount m) :
    isFeeActivity be.activityType = true := by
  by_cases hl1 : isEVML1Chain chain = true
  · unfold baseFeeEvents at h
    simp only [if_pos hl1] at h
    rw [List.mem_singleton.mp h]
    rfl
  · rw [baseFeeEvents_of_l2 _ _ _ (Bool.eq_false_iff.mpr hl1)] at h
    rcases List.mem_cons.mp h with rfl | h
    · rfl
    · obtain ⟨d, -, rfl⟩ := Option.map_eq_some_iff.mp (Option.mem_toList.mp h)
      rfl

theorem baseFeeEvents_unique (h : be ∈ baseFeeEvents chain feePayer feeAmount m)
    (h' : be' ∈ baseFeeEvents chain feePayer feeAmount m)
    (hact : be.activityType = be'.activityType) : be = be' := by
  by_cases hl1 : isEVML1Chain chain = true
  · unfold baseFeeEvents at h h'
    simp only [if_pos hl1] at h h'
    rw [List.mem_singleton.mp h, List.mem_singleton.mp h']
  · rw [baseFeeEvents_of_l2 _ _ _ (Bool.eq_false_iff.mpr hl1)] at h h'
    rcases List.mem_cons.mp h with rfl | h
    · rcases List.mem_cons.mp h' with rfl | h'
      · rfl
      · obtain ⟨d, -, rfl⟩ := Option.map_eq_some_iff.mp (Option.mem_toList.mp h')
        cases hact
    · obtain ⟨d, hd, rfl⟩ := Option.map_eq_some_iff.mp (Option.mem_toList.mp h)
      rcases List.mem_cons.mp h' with rfl | h'
      · cases hact
      · obtain ⟨d', hd', rfl⟩ := Option.map_eq_some_iff.mp (Option.mem_toList.mp h')
        rw [hd] at hd'
        cases hd'
        rfl

end Fees

section Facts
variable {hash : String → String} {chain : Chain} {network : Network} {txHash finalityState : String}
variable {feePayer feeAmount : String} {m m' : Metadata}

/-- A fee event that is seen among those of another metadata. -/
def SeenIn (hash : String → String) (chain : Chain) (network : Network)
    (txHash finalityState feePayer feeAmount : String) (m : Metadata) (be : NormalizedBalanceEvent) :
    Prop :=
  ∃ be' ∈ baseFeeEvents chain feePayer feeAmount m,
    eventView (canonicalBaseEvent hash chain network txHash finalityState be) =
      eventView (canonicalBaseEvent hash chain network txHash finalityState be') ∧
    evmEventText chain network txHash be = evmEventText chain network txHash be'

theorem eventView_fee {be be' : NormalizedBalanceEvent} {n n' : Int}
    (hfee : isFeeActivity be.activityType = true) (hfee' : isFeeActivity be'.activityType = true)
    (hdelta : be.delta = canonicalFeeDelta (toString n))
    (hdelta' : be'.delta = canonicalFeeDelta (toString n'))
    (h : eventView (canonicalBaseEvent hash chain network txHash finalityState be) =
      eventView (canonicalBaseEvent hash chain network txHash finalityState be')) :
    n.natAbs = n'.natAbs := by
  have hvalue := congrArg (fun x => Option.getD x 0) (eventView_eq_iff.mp h).2.1
  change deltaValue _ = deltaValue _ at hvalue
  rw [deltaValue_canonical_fee hfee hdelta, deltaValue_canonical_fee hfee' hdelta'] at hvalue
  omega

theorem filedPath_of_text {activityType : ActivityType} {eventAction amount amount' : String}
    {eventPath eventPath' : String} {token : String × String × Int} {chainData chainData' : Metadata}
    (hdata : resolveBaseMetadataEventPath chainData = "")
    (hdata' : resolveBaseMetadataEventPath chainData' = "")
    (h : evmEventText chain network txHash
        (evmFeeEvent activityType eventAction feePayer amount eventPath token chainData) =
      evmEventText chain network txHash
        (evmFeeEvent activityType eventAction feePayer amount' eventPath' token chainData')) :
    filedPath eventPath = filedPath eventPath' := by
  rw [evmEventText_fee hdata, evmEventText_fee hdata'] at h
  exact canonicalEventText_path_cancel h

theorem feeFacts_of_seen
    (h : ∀ be ∈ baseFeeEvents chain feePayer feeAmount m,
      SeenIn hash chain network txHash finalityState feePayer feeAmount m' be)
    (h' : ∀ be ∈ baseFeeEvents chain feePayer feeAmount m',
      SeenIn hash chain network txHash finalityState feePayer feeAmount m be) :
    feeFacts chain feeAmount m = feeFacts chain feeAmount m' := by
  have hnone : resolveBaseMetadataEventPath [] = "" := by decide
  rw [feeFacts_eq_iff, feePathText_eq, feePathText_eq]
  by_cases hl1 : isEVML1Chain chain = true
  · unfold SeenIn baseFeeEvents at h
    simp only [if_pos hl1] at h
    obtain ⟨be', hbe', -, htext⟩ := h _ (List.mem_singleton.mpr rfl)
    rw [List.mem_singleton.mp hbe'] at htext
    exact ⟨filedPath_of_text hnone hnone htext, fun hl2 => absurd hl1 (by rw [hl2]; exact nofun)⟩
  · have hl2 : isEVML1Chain chain = false := Bool.eq_false_iff.mpr hl1
    -- the events of each kind, and no other, are seen as each other
    have hkind : ∀ {m m' : Metadata} {be : NormalizedBalanceEvent},
        SeenIn hash chain network txHash finalityState feePayer feeAmount m' be →
        ∃ be' ∈ baseFeeEvents chain feePayer feeAmount m', be.activityType = be'.activityType ∧
          eventView (canonicalBaseEvent hash chain network txHash finalityState be) =
            eventView (canonicalBaseEvent hash chain network txHash finalityState be') ∧
          evmEventText chain network txHash be = evmEventText chain network txHash be' := by
      rintro m m' be ⟨be', hbe', hview, htext⟩
      exact ⟨be', hbe', evmEventText_activity htext, hview, htext⟩
    have hdata : ∀ {m m' : Metadata} {d : Int},
        (∀ be ∈ baseFeeEvents chain feePayer feeAmount m,
          SeenIn hash chain network txHash finalityState feePayer feeAmount m' be) →
        deriveBaseDataFee m = some d →
        ∃ d', deriveBaseDataFee m' = some d' ∧ d.natAbs = d'.natAbs := by
      intro m m' d hseen hd
      have hmem : dataFeeEvent feePayer m d ∈ baseFeeEvents chain feePayer feeAmount m := by
        rw [baseFeeEvents_of_l2 _ _ _ hl2, hd]
        exact List.mem_cons_of_mem _ (List.mem_singleton.mpr rfl)
      obtain ⟨be', hbe', hact, hview, -⟩ := hkind (m := m) (hseen _ hmem)
      rw [baseFeeEvents_of_l2 _ _ _ hl2] at hbe'
      rcases List.mem_cons.mp hbe' with rfl | hbe'
      · cases hact
      · obtain ⟨d', hd', rfl⟩ := Option.map_eq_some_iff.mp (Option.mem_toList.mp hbe')
        exact ⟨d', hd', eventView_fee rfl rfl (dataFeeEvent_delta _ _ _) (dataFeeEvent_delta _ _ _)
          hview⟩
    have hmem : executionFeeEvent feePayer feeAmount m ∈
        baseFeeEvents chain feePayer feeAmount m := by
      rw [baseFeeEvents_of_l2 _ _ _ hl2]
      exact List.mem_cons_self
    obtain ⟨be', hbe', hact, hview, htext⟩ := hkind (m := m) (h _ hmem)
    rw [baseFeeEvents_of_l2 _ _ _ hl2] at hbe'
    rcases List.mem_cons.mp hbe' with rfl | hbe'
    · refine ⟨?_, fun _ => ⟨?_, ?_⟩⟩
      · exact filedPath_of_text (resolve_baseFeeMarker _) (resolve_baseFeeMarker _) htext
      · exact eventView_fee rfl rfl (executionFeeEvent_delta _ _ _) (executionFeeEvent_delta _ _ _)
          hview
      · cases hd : deriveBaseDataFee m with
        | some d =>
          obtain ⟨d', hd', heq⟩ := hdata h hd
          rw [hd', Option.map_some, Option.map_some, heq]
        | none =>
          cases hd' : deriveBaseDataFee m' with
          | none => rfl
          | some d' =>
            obtain ⟨d, hd'', -⟩ := hdata h' hd'
            rw [hd] at hd''
            cases hd''
    · obtain ⟨d', -, rfl⟩ := Option.map_eq_some_iff.mp (Option.mem_toList.mp hbe')
      cases hact

end Facts

section Build

/-- No decoded event of a watched address is itself a fee event. -/
def NoRawFees (txStatus : String) (rawEvents : List BalanceEventInfo)
    (watchedAddresses : List String) : Prop :=
  ∀ be ∈ watchedEvents txStatus rawEvents watchedAddresses, isFeeActivity be.activityType = false

variable {hash : String → String} {chain : Chain} {network : Network}
variable {txHash txStatus feePayer feeAmount finalityState : String} {watchedAddresses : List String}
variable {rawEvents events : List BalanceEventInfo}

theorem NoRawFees.perm (h : NoRawFees txStatus rawEvents watchedAddresses)
    (hperm : rawEvents.Perm events) : NoRawFees txStatus events watchedAddresses :=
  fun be hbe => h be ((watchedEvents_perm txStatus watchedAddresses hperm).mem_iff.mpr hbe)

theorem baseFeeEvents_of_activity (hplain : NoRawFees txStatus rawEvents watchedAddresses)
    {be : NormalizedBalanceEvent}
    (hbe : be ∈ baseBalanceEvents chain txStatus feePayer feeAmount rawEvents watchedAddresses)
    (hfee : isFeeActivity be.activityType = true) :
    be ∈ baseFeeEvents chain feePayer feeAmount (collectBaseMetadata rawEvents) := by
  rw [baseBalanceEvents_split] at hbe
  rcases List.mem_append.mp hbe with hbe | hbe
  · rw [hplain be hbe] at hfee
    cases hfee
  · split at hbe
    · exact hbe
    · cases hbe

def evmFinality (chain : Chain) (finalityState : String) : String :=
  normalizeFinalityStateOrDefault chain (normalizeFinalityStateOrDefault chain finalityState)

theorem mem_buildCanonicalBase {a : NormalizedBalanceEvent} :
    a ∈ buildCanonicalBaseBalanceEventsMulti hash chain network txHash txStatus feePayer feeAmount
      finalityState rawEvents watchedAddresses ↔
    a ∈ keep NormalizedBalanceEvent.eventID shouldReplaceCanonicalEvent
      ((baseBalanceEvents chain txStatus feePayer feeAmount rawEvents watchedAddresses).map
        (canonicalBaseEvent hash chain network txHash (evmFinality chain finalityState))) :=
  (perm_sortByEventID _).mem_iff

theorem fee_mem_buildCanonicalBase (finalityState : String) (hplain : NoRawFees txStatus rawEvents watchedAddresses)
    (hhash : CollisionFree hash (evmEventTexts chain network txHash
      (baseBalanceEvents chain txStatus feePayer feeAmount rawEvents watchedAddresses)))
    (hdue : feeDue txStatus feePayer feeAmount watchedAddresses = true) {be : NormalizedBalanceEvent}
    (hbe : be ∈ baseFeeEvents chain feePayer feeAmount (collectBaseMetadata rawEvents)) :
    be ∈ baseBalanceEvents chain txStatus feePayer feeAmount rawEvents watchedAddresses ∧
    canonicalBaseEvent hash chain network txHash (evmFinality chain finalityState) be ∈
      buildCanonicalBaseBalanceEventsMulti hash chain network txHash txStatus feePayer feeAmount
        finalityState rawEvents watchedAddresses := by
  have hmem : be ∈ baseBalanceEvents chain txStatus feePayer feeAmount rawEvents
      watchedAddresses := by
    rw [baseBalanceEvents_split, if_pos hdue]
    exact List.mem_append_right _ hbe
  refine ⟨hmem, mem_buildCanonicalBase.mpr ?_⟩
  apply mem_keep_of_unique (List.mem_map_of_mem hmem)
  intro b hb hid
  obtain ⟨e, he, rfl⟩ := List.mem_map.mp hb
  have hact := activity_of_eventID hhash he hmem hid
  have hefee := baseFeeEvents_of_activity hplain he
    (by rw [hact]; exact isFeeActivity_baseFeeEvents hbe)
  rw [baseFeeEvents_unique hefee hbe hact]

theorem seenIn_of_views (hplain : NoRawFees txStatus rawEvents watchedAddresses)
    (hplain' : NoRawFees txStatus events watchedAddresses)
    (hhash : CollisionFree hash (evmEventTexts chain network txHash
      (baseBalanceEvents chain txStatus feePayer feeAmount rawEvents watchedAddresses) ++
        evmEventTexts chain network txHash
          (baseBalanceEvents chain txStatus feePayer feeAmount events watchedAddresses)))
    (hdue : feeDue txStatus feePayer feeAmount watchedAddresses = true)
    (h : (buildCanonicalBaseBalanceEventsMulti hash chain network txHash txStatus feePayer feeAmount
        finalityState rawEvents watchedAddresses).map eventView =
      (buildCanonicalBaseBalanceEventsMulti hash chain network txHash txStatus feePayer feeAmount
        finalityState events watchedAddresses).map eventView) :
    ∀ be ∈ baseFeeEvents chain feePayer feeAmount (collectBaseMetadata rawEvents),
      SeenIn hash chain network txHash (evmFinality chain finalityState) feePayer feeAmount
        (collectBaseMetadata events) be := by
  intro be hbe
  obtain ⟨hmem, hbuilt⟩ := fee_mem_buildCanonicalBase finalityState hplain hhash.left hdue hbe
  have hview := List.mem_map_of_mem (f := eventView) hbuilt
  rw [h] at hview
  obtain ⟨a, ha, heq⟩ := List.mem_map.mp hview
  obtain ⟨e, he, rfl⟩ := List.mem_map.mp (mem_of_mem_keep (mem_buildCanonicalBase.mp ha))
  obtain ⟨hid, -, hact⟩ := eventView_eq_iff.mp heq
  rw [canonicalBaseEvent_activityType, canonicalBaseEvent_activityType] at hact
  rw [canonicalBaseEvent_eventID, canonicalBaseEvent_eventID] at hid
  refine ⟨e, baseFeeEvents_of_activity hplain' he ?_, heq.symm, ?_⟩
  · rw [hact]
    exact isFeeActivity_baseFeeEvents hbe
  · exact (hhash _ (List.mem_append_right _ (List.mem_map_of_mem he)) _
      (List.mem_append_left _ (List.mem_map_of_mem hmem)) hid).symm

/-- What is seen of the canonical events is the same in every order of the decoded ones. -/
def EvmOrderFree (hash : String → String) (chain : Chain) (network : Network)
    (txHash txStatus feePayer feeAmount finalityState : String) (rawEvents : List BalanceEventInfo)
    (watchedAddresses : List String) : Prop :=
  ∀ events, rawEvents.Perm events →
    (buildCanonicalBaseBalanceEventsMulti hash chain network txHash txStatus feePayer feeAmount
        finalityState rawEvents watchedAddresses).map eventView =
      (buildCanonicalBaseBalanceEventsMulti hash chain network txHash txStatus feePayer feeAmount
        finalityState events watchedAddresses).map eventView

/-- A steady fee makes the canonical events the same in every order, and where no decoded event is
a fee event they are the same in every order only if a fee that is due is steady. Events that agree
on what the fee reads make it steady. -/
theorem buildCanonicalBase_order_free_iff (hash : String → String) (chain : Chain)
    (network : Network) (txHash txStatus feePayer feeAmount finalityState : String)
    (watchedAddresses : List String) (hnumber : ∀ be ∈ rawEvents, BalanceEventInfo.IsNumber be)
    (hhash : ∀ events, rawEvents.Perm events → CollisionFree hash
      (evmEventTexts chain network txHash
        (baseBalanceEvents chain txStatus feePayer feeAmount rawEvents watchedAddresses) ++
      evmEventTexts chain network txHash
        (baseBalanceEvents chain txStatus feePayer feeAmount events watchedAddresses))) :
    ((feeDue txStatus feePayer feeAmount watchedAddresses = true →
      FeeSteady rawEvents chain feeAmount) →
      EvmOrderFree hash chain network txHash txStatus feePayer feeAmount finalityState rawEvents
        watchedAddresses) ∧
    (NoRawFees txStatus rawEvents watchedAddresses →
      (EvmOrderFree hash chain network txHash txStatus feePayer feeAmount finalityState rawEvents
        watchedAddresses ↔
      (feeDue txStatus feePayer feeAmount watchedAddresses = true →
        FeeSteady rawEvents chain feeAmount))) ∧
    ((feeDue txStatus feePayer feeAmount watchedAddresses = true → FeeAgrees rawEvents chain) →
      EvmOrderFree hash chain network txHash txStatus feePayer feeAmount finalityState rawEvents
        watchedAddresses) := by
  have heno : (feeDue txStatus feePayer feeAmount watchedAddresses = true →
      FeeSteady rawEvents chain feeAmount) →
      EvmOrderFree hash chain network txHash txStatus feePayer feeAmount finalityState rawEvents
        watchedAddresses := by
    intro hste events hperm
    apply buildCanonicalBase_perm hash chain network txHash txStatus feePayer feeAmount finalityState
      watchedAddresses hnumber
    · exact (hhash rawEvents (.refl _)).left
    · exact fun hdue => (feeFacts_steady_iff.mpr (hste hdue) events hperm).symm
    · exact hperm
  refine ⟨heno, fun hplain => ⟨fun hfree hdue => ?_, heno⟩,
    fun hagree => heno fun hdue => (hagree hdue).steady feeAmount⟩
  apply feeFacts_steady_iff.mp
  intro events hperm
  have hplain' := hplain.perm hperm
  have hviews := hfree events hperm
  exact feeFacts_of_seen
    (seenIn_of_views hplain' hplain (hhash events hperm).swap hdue hviews.symm)
    (seenIn_of_views hplain hplain' (hhash events hperm) hdue hviews)

def transferAt (path : String) (extra : Metadata) : BalanceEventInfo where
  eventCategory := "TRANSFER"
  eventAction := "erc20_transfer"
  address := "0xaa"
  contractAddress := "0x70"
  delta := "5"
  counterpartyAddress := "0xbb"
  tokenType := "FUNGIBLE"
  metadata := ("event_path", path) :: extra

def feeTransfers : List BalanceEventInfo :=
  [transferAt "log:2" [("fee_execution_l2", "70"), ("fee_data_l1", "30")],
    transferAt "log:1" [("fee_execution_l2", "70"), ("fee_data_l1", "30")]]

/-- Neither gives a component, but the first has the gas and the second its price. -/
def gasTransfers : List BalanceEventInfo :=
  [transferAt "log:2" [("gas_used", "7")], transferAt "log:2" [("effective_gas_price", "10")]]

/-- With the components on every event, the fee is filed under the lowest fingerprint; without
them, under the path on which the events agree. -/
theorem buildCanonicalBase_order_free_two :
    EvmOrderFree id .base .mainnet "0x01" "SUCCESS" "0xaa" "100" "confirmed" feeTransfers ["0xaa"] ∧
      EvmOrderFree id .base .mainnet "0x01" "SUCCESS" "0xaa" "100" "confirmed" gasTransfers
        ["0xaa"] := by
  have hsteady : ∀ rawEvents ∈ [feeTransfers, gasTransfers], FeeSteady rawEvents .base "100" := by
    intro rawEvents hraw
    apply feeFacts_steady_iff.mp
    intro events hperm
    have hmem := List.mem_permutations'.mpr hperm.symm
    clear hperm
    revert events rawEvents
    decide +kernel
  constructor
  · exact (buildCanonicalBase_order_free_iff id .base .mainnet "0x01" "SUCCESS" "0xaa" "100"
      "confirmed" ["0xaa"] (by decide) fun _ _ _ _ _ _ h => h).1 fun _ => hsteady _ (by simp)
  · refine (buildCanonicalBase_order_free_iff id .base .mainnet "0x01" "SUCCESS" "0xaa" "100"
      "confirmed" ["0xaa"] (by decide) fun _ _ _ _ _ _ h => h).2.2 fun _ =>
        ⟨(hsteady _ (by simp)).toLeadersAgree, fun _ => ⟨by decide, fun hempty => ?_⟩,
          fun _ _ => by decide⟩
    exact absurd (hempty _ List.mem_cons_self) (by decide)

/-- Without them it is filed under the event that comes first. -/
theorem buildCanonicalBase_order_leaks :
    ¬ EvmOrderFree id .ethereum .mainnet "0x01" "SUCCESS" "0xaa" "100" "confirmed"
      [transferAt "log:1" [], transferAt "log:2" []] ["0xaa"] := by
  intro h
  have hswap := h [transferAt "log:2" [], transferAt "log:1" []] (List.Perm.swap _ _ _)
  revert hswap
  decide +kernel

end Build

end Normalizer

end MultichainIndexer
