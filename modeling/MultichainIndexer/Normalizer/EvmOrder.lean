import MultichainIndexer.Normalizer.EventOrder
import MultichainIndexer.Normalizer.FeeSources
import MultichainIndexer.Normalizer.L2Fees

/-!
# EVM events and the order of the decoded ones

The events of the watched addresses do not depend on the order in which they were
decoded. The fee events do: their path and their components are read from the
metadata of all events, and a key that no event of a rank gives is read from the
event that comes first. They are the same in every order exactly if the fee is
steady.
-/

namespace MultichainIndexer

open Text BestOf

namespace Normalizer

section Rule
variable {a b : NormalizedBalanceEvent}

def eventRule : NormalizedBalanceEvent → NormalizedBalanceEvent → Bool :=
  lexReplaces NormalizedBalanceEvent.eventAction (fun x y => x < y) <|
  lexReplaces NormalizedBalanceEvent.contractAddress (fun x y => x < y) <|
  lexReplaces NormalizedBalanceEvent.counterpartyAddress (fun x y => x < y) (numberRule fun be => be)

structure EventClass (P : NormalizedBalanceEvent → Prop) : Prop where
  finality : ∀ a b, P a → P b → a.finalityState = b.finalityState
  ranked : ∀ a b, P a → P b → Ranked a b

variable {P : NormalizedBalanceEvent → Prop} (h : EventClass P)
include h

theorem shouldReplaceCanonicalEvent_eq (ha : P a) (hb : P b) :
    shouldReplaceCanonicalEvent a b = eventRule a b := by
  have hnum := numberRule_eq (f := fun be => be) (h.ranked a b ha hb)
  unfold shouldReplaceCanonicalEvent
  rw [h.finality a b ha hb, compareFinalityStateStrength_self, hnum]
  rfl

theorem shouldReplaceCanonicalEvent_consistent : Consistent shouldReplaceCanonicalEvent P := by
  have hrule : Consistent eventRule P :=
    Consistent.lex strictTotal_lt fun _ => Consistent.lex strictTotal_lt fun _ =>
      Consistent.lex strictTotal_lt fun _ => numberRule_consistent
  exact hrule.congr fun a b ha hb => shouldReplaceCanonicalEvent_eq h ha hb

theorem shouldReplaceCanonicalEvent_tie (ha : P a) (hb : P b)
    (hab : shouldReplaceCanonicalEvent a b = false) (hba : shouldReplaceCanonicalEvent b a = false) :
    numericDelta a = numericDelta b := by
  rw [shouldReplaceCanonicalEvent_eq h ha hb] at hab
  rw [shouldReplaceCanonicalEvent_eq h hb ha] at hba
  obtain ⟨-, hab, hba⟩ := lexReplaces_tie strictTotal_lt hab hba
  obtain ⟨-, hab, hba⟩ := lexReplaces_tie strictTotal_lt hab hba
  obtain ⟨-, hab, hba⟩ := lexReplaces_tie strictTotal_lt hab hba
  exact numberRule_tie (f := fun be => be) hab hba

end Rule

section Strip

/-- An event without what its metadata says, which neither the id nor the choice looks at. -/
def strip (be : NormalizedBalanceEvent) : NormalizedBalanceEvent := { be with chainData := none }

variable {hash : String → String} {chain : Chain} {network : Network} {txHash finalityState : String}
variable {be : NormalizedBalanceEvent}

theorem canonicalBaseEvent_delta :
    (canonicalBaseEvent hash chain network txHash finalityState be).delta =
      if isFeeActivity be.activityType then canonicalFeeDelta be.delta else be.delta := by
  cases hfee : isFeeActivity be.activityType with
  | true => rw [canonicalBaseEvent_delta_fee hfee, if_pos rfl]
  | false => rw [canonicalBaseEvent_delta_other hfee, if_neg nofun]

/-- The path under which an event is filed whose metadata gives none. -/
def filedPath (eventPath : String) : String :=
  if trimSpace eventPath = "" then balanceEventPath (toInt32 (-1)) (toInt32 (-1))
  else trimSpace eventPath

theorem feePathText_eq (metadata : Metadata) :
    feePathText metadata = filedPath (resolveBaseFeeEventPath metadata) := rfl

def evmEventPath (be : NormalizedBalanceEvent) : String :=
  let metadataPath := resolveBaseMetadataEventPath (be.chainData.getD [])
  let trimmedPath := trimSpace (if metadataPath ≠ "" then metadataPath else be.eventPath)
  if trimmedPath = "" then
    balanceEventPath (toInt32 be.outerInstructionIndex) (toInt32 be.innerInstructionIndex)
  else trimmedPath

def evmAsset (chain : Chain) (be : NormalizedBalanceEvent) : String :=
  if canonicalizeAddressIdentity chain be.assetID = "" then
    canonicalizeAddressIdentity chain be.contractAddress
  else canonicalizeAddressIdentity chain be.assetID

theorem canonicalBaseEvent_eq :
    canonicalBaseEvent hash chain network txHash finalityState be = { be with
      eventAction := if isBaseFeeActivity be.activityType then be.activityType.text else be.eventAction
      delta := if isFeeActivity be.activityType then canonicalFeeDelta be.delta else be.delta
      eventPath := evmEventPath be
      address := canonicalizeAddressIdentity chain be.address
      counterpartyAddress := canonicalizeAddressIdentity chain be.counterpartyAddress
      contractAddress := canonicalizeAddressIdentity chain be.contractAddress
      assetID := evmAsset chain be
      actorAddress := canonicalizeAddressIdentity chain (canonicalizeAddressIdentity chain be.address)
      assetType := if isFeeActivity be.activityType then "fee" else mapTokenTypeToAssetType be.tokenType
      eventPathType := "base_log"
      finalityState := finalityState
      decoderVersion := evmDecoderVersion chain
      schemaVersion := "v2"
      eventID := buildCanonicalEventID hash chain network txHash (evmEventPath be)
        (canonicalizeAddressIdentity chain (canonicalizeAddressIdentity chain be.address))
        (evmAsset chain be) be.activityType } := rfl

theorem evmEventText_eq :
    evmEventText chain network txHash be = canonicalEventText chain network txHash (evmEventPath be)
      (canonicalizeAddressIdentity chain (canonicalizeAddressIdentity chain be.address))
      (evmAsset chain be) be.activityType := rfl

theorem strip_canonical_congr {be be' : NormalizedBalanceEvent}
    (hpath : evmEventPath be = evmEventPath be')
    (h : strip { be with eventPath := "" } = strip { be' with eventPath := "" }) :
    strip (canonicalBaseEvent hash chain network txHash finalityState be) =
      strip (canonicalBaseEvent hash chain network txHash finalityState be') := by
  simp only [strip, NormalizedBalanceEvent.mk.injEq] at h
  simp only [canonicalBaseEvent_eq, strip, hpath, evmAsset, h]

variable {activityType : ActivityType} {eventAction feePayer : String}
variable {token : String × String × Int} {chainData chainData' : Metadata}
variable {amount amount' eventPath eventPath' : String}

theorem evmEventPath_fee (hdata : resolveBaseMetadataEventPath chainData = "") :
    evmEventPath (evmFeeEvent activityType eventAction feePayer amount eventPath token chainData) =
      filedPath eventPath := by
  simp only [evmEventPath, evmFeeEvent, filedPath, Option.getD_some, hdata, ne_eq,
    not_true_eq_false, if_false]

theorem evmAsset_fee :
    evmAsset chain (evmFeeEvent activityType eventAction feePayer amount eventPath token chainData) =
      canonicalizeAddressIdentity chain token.1 := by
  unfold evmAsset evmFeeEvent
  exact ite_self _

theorem evmEventText_fee (hdata : resolveBaseMetadataEventPath chainData = "") :
    evmEventText chain network txHash
        (evmFeeEvent activityType eventAction feePayer amount eventPath token chainData) =
      canonicalEventText chain network txHash (filedPath eventPath)
        (canonicalizeAddressIdentity chain (canonicalizeAddressIdentity chain feePayer))
        (canonicalizeAddressIdentity chain token.1) activityType := by
  rw [evmEventText_eq, evmEventPath_fee hdata, evmAsset_fee]
  rfl

theorem strip_canonical_fee (hdata : resolveBaseMetadataEventPath chainData = "")
    (hdata' : resolveBaseMetadataEventPath chainData' = "")
    (hamo : canonicalFeeDelta amount = canonicalFeeDelta amount')
    (hpath : filedPath eventPath = filedPath eventPath') :
    strip (canonicalBaseEvent hash chain network txHash finalityState
        (evmFeeEvent activityType eventAction feePayer amount eventPath token chainData)) =
      strip (canonicalBaseEvent hash chain network txHash finalityState
        (evmFeeEvent activityType eventAction feePayer amount' eventPath' token chainData')) := by
  apply strip_canonical_congr
  · rw [evmEventPath_fee hdata, evmEventPath_fee hdata', hpath]
  · simp only [strip, evmFeeEvent, hamo]

end Strip

section Fees
variable {hash : String → String} {chain : Chain} {network : Network} {txHash finalityState : String}
variable {feePayer feeAmount : String} {m m' : Metadata}

theorem resolve_baseFeeMarker (metadata : Metadata) :
    resolveBaseMetadataEventPath (baseFeeMarker feeAmount metadata) = "" := by
  have hempty : resolveBaseMetadataEventPath (baseFeeMarker feeAmount metadata) =
      resolveBaseMetadataEventPath [] := by
    apply resolveBaseMetadataEventPath_congr
    intro key hkey
    have hkeys : key ∉ ["fee_total_mismatch", "fee_execution_total_from_components",
        "fee_data_total_from_components", "fee_amount_total", "data_fee_l1_unavailable"] := by
      revert key
      decide
    have habs : ∀ entry ∈ baseFeeMarker feeAmount metadata, entry.1 ≠ key := by
      intro entry hentry heq
      apply hkeys
      rw [← heq]
      unfold baseFeeMarker at hentry
      rcases List.mem_append.mp hentry with hentry | hentry
      · split at hentry
        · simp only [List.mem_cons, List.not_mem_nil, or_false] at hentry
          rcases hentry with rfl | rfl | rfl | rfl
          all_goals simp only [List.mem_cons, true_or, or_true]
        · cases hentry
      · split at hentry
        · rw [List.mem_singleton.mp hentry]
          decide
        · cases hentry
    have hloo : (baseFeeMarker feeAmount metadata).lookup key = none :=
      List.lookup_eq_none_iff.mpr fun entry hentry => by
        rw [bne_iff_ne]
        exact fun heq => habs entry hentry heq.symm
    rw [metaGet, hloo]
    rfl
  rw [hempty]
  decide

theorem strip_fees (h : feeFacts chain feeAmount m = feeFacts chain feeAmount m') :
    (baseFeeEvents chain feePayer feeAmount m).map
        (fun be => strip (canonicalBaseEvent hash chain network txHash finalityState be)) =
      (baseFeeEvents chain feePayer feeAmount m').map
        (fun be => strip (canonicalBaseEvent hash chain network txHash finalityState be)) := by
  obtain ⟨hpath, hcom⟩ := feeFacts_eq_iff.mp h
  rw [feePathText_eq, feePathText_eq] at hpath
  have hnone : resolveBaseMetadataEventPath [] = "" := by decide
  by_cases hl1 : isEVML1Chain chain = true
  · unfold baseFeeEvents
    simp only [if_pos hl1, List.map_cons, List.map_nil]
    rw [buildEVML1FeeBalanceEvent, buildEVML1FeeBalanceEvent,
      strip_canonical_fee hnone hnone rfl hpath]
  · have hl2 : isEVML1Chain chain = false := Bool.eq_false_iff.mpr hl1
    obtain ⟨hexe, hdata⟩ := hcom hl2
    have hamo : ∀ {n n' : Int}, n.natAbs = n'.natAbs →
        canonicalFeeDelta (toString n) = canonicalFeeDelta (toString n') := by
      intro n n' hn
      rw [canonicalFeeDelta_toString, canonicalFeeDelta_toString, hn]
    rw [baseFeeEvents_of_l2 _ _ _ hl2, baseFeeEvents_of_l2 _ _ _ hl2, List.map_cons, List.map_cons]
    refine congrArg₂ _ ?_ ?_
    · exact strip_canonical_fee (resolve_baseFeeMarker _)
        (resolve_baseFeeMarker _) (hamo hexe) hpath
    · cases hd : deriveBaseDataFee m with
      | none =>
        rw [hd, Option.map_none, eq_comm, Option.map_eq_none_iff] at hdata
        rw [hdata]
        rfl
      | some d =>
        rw [hd, Option.map_some, eq_comm, Option.map_eq_some_iff] at hdata
        obtain ⟨d', hd', heq⟩ := hdata
        rw [hd']
        refine congrArg (fun be => [be]) ?_
        exact strip_canonical_fee hnone hnone
          (hamo heq.symm) hpath

end Fees

section Order
variable {hash : String → String} {chain : Chain} {network : Network} {txHash : String}

def evmEventTexts (chain : Chain) (network : Network) (txHash : String)
    (events : List NormalizedBalanceEvent) : List String :=
  events.map (evmEventText chain network txHash)

theorem strip_eventID (be : NormalizedBalanceEvent) : (strip be).eventID = be.eventID := rfl

theorem strip_delta (be : NormalizedBalanceEvent) : (strip be).delta = be.delta := rfl

theorem strip_activityType (be : NormalizedBalanceEvent) :
    (strip be).activityType = be.activityType := rfl

theorem shouldReplaceCanonicalEvent_strip (a b : NormalizedBalanceEvent) :
    shouldReplaceCanonicalEvent (strip a) (strip b) = shouldReplaceCanonicalEvent a b := by
  have hcongr : ∀ {a b a' b' : NormalizedBalanceEvent}, a.finalityState = a'.finalityState →
      b.finalityState = b'.finalityState → a.eventAction = a'.eventAction →
      b.eventAction = b'.eventAction → a.contractAddress = a'.contractAddress →
      b.contractAddress = b'.contractAddress → a.counterpartyAddress = a'.counterpartyAddress →
      b.counterpartyAddress = b'.counterpartyAddress → a.delta = a'.delta → b.delta = b'.delta →
      shouldReplaceCanonicalEvent a b = shouldReplaceCanonicalEvent a' b' := by
    intro a b a' b' h1 h2 h3 h4 h5 h6 h7 h8 h9 h10
    unfold shouldReplaceCanonicalEvent
    rw [h1, h2, h3, h4, h5, h6, h7, h8, h9, h10]
  exact hcongr rfl rfl rfl rfl rfl rfl rfl rfl rfl rfl

theorem view_keep_strip (events : List NormalizedBalanceEvent) :
    (keep NormalizedBalanceEvent.eventID shouldReplaceCanonicalEvent events).map eventView =
      (keep NormalizedBalanceEvent.eventID shouldReplaceCanonicalEvent (events.map strip)).map
        eventView := by
  have hkeep : (keep NormalizedBalanceEvent.eventID shouldReplaceCanonicalEvent events).map strip =
      keep NormalizedBalanceEvent.eventID shouldReplaceCanonicalEvent (events.map strip) :=
    map_keep strip_eventID shouldReplaceCanonicalEvent_strip events
  rw [← hkeep, List.map_map]
  rfl

theorem activity_of_eventID {finalityState : String} {events : List NormalizedBalanceEvent}
    (hhash : CollisionFree hash (evmEventTexts chain network txHash events))
    {e e' : NormalizedBalanceEvent} (he : e ∈ events) (he' : e' ∈ events)
    (h : (canonicalBaseEvent hash chain network txHash finalityState e).eventID =
      (canonicalBaseEvent hash chain network txHash finalityState e').eventID) :
    e.activityType = e'.activityType := by
  rw [canonicalBaseEvent_eventID, canonicalBaseEvent_eventID] at h
  exact evmEventText_activity (hhash _ (List.mem_map_of_mem he) _ (List.mem_map_of_mem he') h)

theorem canonicalBase_class {fee : NormalizedBalanceEvent}
    (hfee : isFeeActivity fee.activityType = true) (finalityState : String)
    {events : List NormalizedBalanceEvent} (heve : ∀ be ∈ events, NumberOrFee fee be)
    (hhash : CollisionFree hash (evmEventTexts chain network txHash events)) (id : String) :
    EventClass fun a => a ∈ events.map (fun be =>
      strip (canonicalBaseEvent hash chain network txHash finalityState be)) ∧ a.eventID = id := by
  refine ⟨fun a b ha hb => ?_, fun a b ha hb => ?_⟩
  · obtain ⟨e, -, rfl⟩ := List.mem_map.mp ha.1
    obtain ⟨e', -, rfl⟩ := List.mem_map.mp hb.1
    rfl
  · obtain ⟨e, he, rfl⟩ := List.mem_map.mp ha.1
    obtain ⟨e', he', rfl⟩ := List.mem_map.mp hb.1
    have hid := ha.2.trans hb.2.symm
    rw [strip_eventID, strip_eventID] at hid
    apply ranked_of_source isFeeActivity hfee (heve e he) (heve e' he')
      (activity_of_eventID hhash he he' hid)
    · rw [strip_delta, canonicalBaseEvent_delta]
    · rw [strip_delta, canonicalBaseEvent_delta]

theorem canonicalizeBase_perm {fee : NormalizedBalanceEvent}
    (hfee : isFeeActivity fee.activityType = true) (finalityState : String)
    {events events' : List NormalizedBalanceEvent} (heve : ∀ be ∈ events, NumberOrFee fee be)
    (hhash : CollisionFree hash (evmEventTexts chain network txHash events))
    (hperm : (events.map fun be => strip (canonicalBaseEvent hash chain network txHash
        (normalizeFinalityStateOrDefault chain finalityState) be)).Perm
      (events'.map fun be => strip (canonicalBaseEvent hash chain network txHash
        (normalizeFinalityStateOrDefault chain finalityState) be))) :
    (canonicalizeBaseBalanceEvents hash chain network txHash finalityState events).map eventView =
      (canonicalizeBaseBalanceEvents hash chain network txHash finalityState events').map
        eventView := by
  have hclass := canonicalBase_class hfee (normalizeFinalityStateOrDefault chain finalityState)
    heve hhash
  have hmap : ∀ events : List NormalizedBalanceEvent,
      (events.map (canonicalBaseEvent hash chain network txHash
        (normalizeFinalityStateOrDefault chain finalityState))).map strip =
      events.map fun be => strip (canonicalBaseEvent hash chain network txHash
        (normalizeFinalityStateOrDefault chain finalityState) be) := fun _ => List.map_map
  unfold canonicalizeBaseBalanceEvents
  apply sortByEventID_view
  · rw [view_keep_strip (events.map _), hmap, view_keep_strip (events'.map _), hmap]
    refine keep_perm (fun id => shouldReplaceCanonicalEvent_consistent (hclass id))
      (fun a ha => ha) hperm (fun a b hview => congrArg Prod.fst hview) ?_
    intro a ha b hb hkey hab hba
    have hnum := shouldReplaceCanonicalEvent_tie (hclass b.eventID) ⟨ha, hkey⟩ ⟨hb, rfl⟩ hab hba
    have hact : a.activityType = b.activityType := by
      obtain ⟨e, he, rfl⟩ := List.mem_map.mp ha
      obtain ⟨e', he', rfl⟩ := List.mem_map.mp hb
      rw [strip_eventID, strip_eventID] at hkey
      rw [strip_activityType, strip_activityType, canonicalBaseEvent_activityType,
        canonicalBaseEvent_activityType]
      exact activity_of_eventID hhash he he' hkey
    exact eventView_eq_iff.mpr ⟨hkey, hnum, hact⟩
  · exact nodup_keep _

end Order

section Build

def feeDue (txStatus feePayer feeAmount : String) (watchedAddresses : List String) : Bool :=
  feePayer ∈ watchedAddresses && shouldEmitSolanaFeeEvent txStatus feePayer feeAmount

def watchedEvents (txStatus : String) (rawEvents : List BalanceEventInfo)
    (watchedAddresses : List String) : List NormalizedBalanceEvent :=
  if equalFold txStatus "FAILED" then []
  else buildRawBalanceEventsMulti rawEvents watchedAddresses true

variable (hash : String → String) (chain : Chain) (network : Network)
variable (txHash txStatus feePayer feeAmount finalityState : String) (watchedAddresses : List String)
variable {rawEvents events : List BalanceEventInfo}

theorem baseBalanceEvents_split (rawEvents : List BalanceEventInfo) :
    baseBalanceEvents chain txStatus feePayer feeAmount rawEvents watchedAddresses =
      watchedEvents txStatus rawEvents watchedAddresses ++
        if feeDue txStatus feePayer feeAmount watchedAddresses then
          baseFeeEvents chain feePayer feeAmount (collectBaseMetadata rawEvents) else [] := rfl

theorem watchedEvents_perm (hperm : rawEvents.Perm events) :
    (watchedEvents txStatus rawEvents watchedAddresses).Perm
      (watchedEvents txStatus events watchedAddresses) := by
  unfold watchedEvents
  split
  · exact .refl _
  · exact buildRawBalanceEventsMulti_perm hperm watchedAddresses true

theorem baseBalanceEvents_number (hnum : ∀ be ∈ rawEvents, BalanceEventInfo.IsNumber be) :
    ∀ be ∈ baseBalanceEvents chain txStatus feePayer feeAmount rawEvents watchedAddresses,
      NumberOrFee (buildEVML1FeeBalanceEvent feePayer feeAmount
        (resolveBaseFeeEventPath (collectBaseMetadata rawEvents)) (evmNativeToken chain)) be := by
  have hfee : ∀ n : Int, (parseInt (trimSpace (canonicalFeeDelta (toString n)))).isSome = true := by
    intro n
    apply canonicalFeeDelta_isNumber
    rw [trimSpace_of_parseInt (parseInt_toString n), parseInt_toString]
    rfl
  intro be hbe
  rw [baseBalanceEvents_split] at hbe
  rcases List.mem_append.mp hbe with hbe | hbe
  · unfold watchedEvents at hbe
    split at hbe
    · cases hbe
    · obtain ⟨raw, hraw, rfl⟩ := List.mem_map.mp hbe
      exact .inl (numericDelta_normalizeRaw true (hnum raw (List.mem_filter.mp hraw).1))
  · split at hbe
    · by_cases hl1 : isEVML1Chain chain = true
      · unfold baseFeeEvents at hbe
        simp only [if_pos hl1] at hbe
        exact .inr (List.mem_singleton.mp hbe)
      · rw [baseFeeEvents_of_l2 _ _ _ (Bool.eq_false_iff.mpr hl1)] at hbe
        rcases List.mem_cons.mp hbe with rfl | hbe
        · left
          rw [numericDelta, executionFeeEvent_delta]
          exact hfee _
        · obtain ⟨d, -, rfl⟩ := Option.map_eq_some_iff.mp (Option.mem_toList.mp hbe)
          left
          rw [numericDelta, dataFeeEvent_delta]
          exact hfee d
    · cases hbe

/-- A steady fee leaves the canonical events as they are. -/
theorem buildCanonicalBase_perm (hnum : ∀ be ∈ rawEvents, BalanceEventInfo.IsNumber be)
    (hhash : CollisionFree hash (evmEventTexts chain network txHash
      (baseBalanceEvents chain txStatus feePayer feeAmount rawEvents watchedAddresses)))
    (hfacts : feeDue txStatus feePayer feeAmount watchedAddresses = true →
      feeFacts chain feeAmount (collectBaseMetadata rawEvents) =
        feeFacts chain feeAmount (collectBaseMetadata events))
    (hperm : rawEvents.Perm events) :
    (buildCanonicalBaseBalanceEventsMulti hash chain network txHash txStatus feePayer feeAmount
        finalityState rawEvents watchedAddresses).map eventView =
      (buildCanonicalBaseBalanceEventsMulti hash chain network txHash txStatus feePayer feeAmount
        finalityState events watchedAddresses).map eventView := by
  unfold buildCanonicalBaseBalanceEventsMulti
  refine canonicalizeBase_perm ?_ _
    (baseBalanceEvents_number chain txStatus feePayer feeAmount watchedAddresses hnum) hhash ?_
  · rfl
  · rw [baseBalanceEvents_split, baseBalanceEvents_split, List.map_append, List.map_append]
    refine List.Perm.append ((watchedEvents_perm txStatus watchedAddresses hperm).map _) ?_
    by_cases hdue : feeDue txStatus feePayer feeAmount watchedAddresses = true
    · rw [if_pos hdue, if_pos hdue]
      exact List.Perm.of_eq (strip_fees (hfacts hdue))
    · rw [if_neg hdue, if_neg hdue]

end Build

end Normalizer

end MultichainIndexer
