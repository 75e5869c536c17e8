import MultichainIndexer.Pipeline.EvmEvents

/-!
# Who is watched beside the payer of an EVM fee

The fee events of a transaction under two sets of watched addresses. They take
their path, and on an L2 their components, from the transfers that are watched,
so another watched address can give the fee of the payer another id.
-/

namespace MultichainIndexer

open Text BestOf Sidecar

namespace Normalizer

def FeeSeen (events : List NormalizedBalanceEvent) (eventID delta : String) : Prop :=
  ∃ be ∈ events, isFeeActivity be.activityType = true ∧ be.eventID = eventID ∧ be.delta = delta

section Seen
variable {hash : String → String} {chain : Chain} {network : Network}
variable {txHash txStatus feePayer feeAmount : String} (finalityState finalityState' : String)
variable {rawEvents rawEvents' : List BalanceEventInfo} {watched watched' : List String}

theorem feeSeen_iff (hplain : NoRawFees txStatus rawEvents watched)
    (hhash : CollisionFree hash (evmEventTexts chain network txHash
      (baseBalanceEvents chain txStatus feePayer feeAmount rawEvents watched)))
    (hdue : feeDue txStatus feePayer feeAmount watched = true) (eventID delta : String) :
    FeeSeen (buildCanonicalBaseBalanceEventsMulti hash chain network txHash txStatus feePayer feeAmount
      finalityState rawEvents watched) eventID delta ↔
    ∃ be ∈ baseFeeEvents chain feePayer feeAmount (collectBaseMetadata rawEvents),
      hash (evmEventText chain network txHash be) = eventID ∧ canonicalFeeDelta be.delta = delta := by
  constructor
  · rintro ⟨a, ha, hfee, rfl, rfl⟩
    obtain ⟨be, hbe, rfl⟩ := List.mem_map.mp (mem_of_mem_keep (mem_buildCanonicalBase.mp ha))
    rw [canonicalBaseEvent_activityType] at hfee
    refine ⟨be, baseFeeEvents_of_activity hplain hbe hfee, ?_, ?_⟩
    · exact canonicalBaseEvent_eventID.symm
    · exact (canonicalBaseEvent_delta_fee hfee).symm
  · rintro ⟨be, hbe, rfl, rfl⟩
    have hfee := isFeeActivity_baseFeeEvents hbe
    refine ⟨_, (fee_mem_buildCanonicalBase finalityState hplain hhash hdue hbe).2, ?_, ?_, ?_⟩
    · rw [canonicalBaseEvent_activityType]
      exact hfee
    · exact canonicalBaseEvent_eventID
    · exact canonicalBaseEvent_delta_fee hfee

theorem not_feeSeen (hplain : NoRawFees txStatus rawEvents watched)
    (hdue : feeDue txStatus feePayer feeAmount watched = false) (eventID delta : String) :
    ¬ FeeSeen (buildCanonicalBaseBalanceEventsMulti hash chain network txHash txStatus feePayer
      feeAmount finalityState rawEvents watched) eventID delta := by
  rintro ⟨a, ha, hfee, -⟩
  obtain ⟨be, hbe, rfl⟩ := List.mem_map.mp (mem_of_mem_keep (mem_buildCanonicalBase.mp ha))
  rw [canonicalBaseEvent_activityType] at hfee
  rw [baseBalanceEvents_split, hdue, if_neg nofun, List.append_nil] at hbe
  rw [hplain be hbe] at hfee
  cases hfee

theorem seenIn_of_match {m : Metadata} {be be' : NormalizedBalanceEvent}
    (hfee : isFeeActivity be.activityType = true)
    (hbe' : be' ∈ baseFeeEvents chain feePayer feeAmount m)
    (htext : evmEventText chain network txHash be = evmEventText chain network txHash be')
    (hdelta : canonicalFeeDelta be.delta = canonicalFeeDelta be'.delta) :
    SeenIn hash chain network txHash finalityState feePayer feeAmount m be := by
  have hact := evmEventText_activity htext
  refine ⟨be', hbe', eventView_eq_iff.mpr ⟨?_, ?_, ?_⟩, htext⟩
  · rw [canonicalBaseEvent_eventID, canonicalBaseEvent_eventID, htext]
  · rw [numericDelta, numericDelta, canonicalBaseEvent_delta_fee hfee,
      canonicalBaseEvent_delta_fee (hact ▸ hfee), hdelta]
  · rw [canonicalBaseEvent_activityType, canonicalBaseEvent_activityType, hact]

theorem match_of_feeFacts {m m' : Metadata}
    (h : feeFacts chain feeAmount m = feeFacts chain feeAmount m') {be : NormalizedBalanceEvent}
    (hbe : be ∈ baseFeeEvents chain feePayer feeAmount m) :
    ∃ be' ∈ baseFeeEvents chain feePayer feeAmount m',
      hash (evmEventText chain network txHash be') = hash (evmEventText chain network txHash be) ∧
        canonicalFeeDelta be'.delta = canonicalFeeDelta be.delta := by
  have hstrip := List.mem_map_of_mem
    (f := fun be => strip (canonicalBaseEvent hash chain network txHash "" be)) hbe
  rw [strip_fees h] at hstrip
  obtain ⟨be', hbe', heq⟩ := List.mem_map.mp hstrip
  have hid := congrArg NormalizedBalanceEvent.eventID heq
  have hdelta := congrArg NormalizedBalanceEvent.delta heq
  rw [strip_eventID, strip_eventID, canonicalBaseEvent_eventID, canonicalBaseEvent_eventID] at hid
  rw [strip_delta, strip_delta,
    canonicalBaseEvent_delta_fee (isFeeActivity_baseFeeEvents hbe'),
    canonicalBaseEvent_delta_fee (isFeeActivity_baseFeeEvents hbe)] at hdelta
  exact ⟨be', hbe', hid, hdelta⟩

variable (hplain : NoRawFees txStatus rawEvents watched)
  (hplain' : NoRawFees txStatus rawEvents' watched')
  (hhash : CollisionFree hash (evmEventTexts chain network txHash
    (baseBalanceEvents chain txStatus feePayer feeAmount rawEvents watched) ++
      evmEventTexts chain network txHash
        (baseBalanceEvents chain txStatus feePayer feeAmount rawEvents' watched')))
  (hdue : feeDue txStatus feePayer feeAmount watched = true)
  (hdue' : feeDue txStatus feePayer feeAmount watched' = true)
include hplain hplain' hhash hdue hdue'

theorem seenIn_of_matches
    (h : ∀ be ∈ baseFeeEvents chain feePayer feeAmount (collectBaseMetadata rawEvents),
      ∃ be' ∈ baseFeeEvents chain feePayer feeAmount (collectBaseMetadata rawEvents'),
        hash (evmEventText chain network txHash be') = hash (evmEventText chain network txHash be) ∧
          canonicalFeeDelta be'.delta = canonicalFeeDelta be.delta) :
    ∀ be ∈ baseFeeEvents chain feePayer feeAmount (collectBaseMetadata rawEvents),
      SeenIn hash chain network txHash "" feePayer feeAmount (collectBaseMetadata rawEvents') be := by
  intro be hbe
  obtain ⟨be', hbe', hid, hdelta⟩ := h be hbe
  have hmem := (fee_mem_buildCanonicalBase "" hplain hhash.left hdue hbe).1
  have hmem' := (fee_mem_buildCanonicalBase "" hplain' hhash.swap.left hdue' hbe').1
  have htext := hhash _ (List.mem_append_right _ (List.mem_map_of_mem hmem')) _
    (List.mem_append_left _ (List.mem_map_of_mem hmem)) hid
  exact seenIn_of_match "" (isFeeActivity_baseFeeEvents hbe) hbe' htext.symm hdelta.symm

theorem same_feeSeen_iff :
    (∀ eventID delta,
      FeeSeen (buildCanonicalBaseBalanceEventsMulti hash chain network txHash txStatus feePayer
        feeAmount finalityState rawEvents watched) eventID delta ↔
      FeeSeen (buildCanonicalBaseBalanceEventsMulti hash chain network txHash txStatus feePayer
        feeAmount finalityState' rawEvents' watched') eventID delta) ↔
    feeFacts chain feeAmount (collectBaseMetadata rawEvents) =
      feeFacts chain feeAmount (collectBaseMetadata rawEvents') := by
  simp only [feeSeen_iff _ hplain hhash.left hdue, feeSeen_iff _ hplain' hhash.swap.left hdue']
  constructor
  · intro hsame
    exact feeFacts_of_seen
      (seenIn_of_matches hplain hplain' hhash hdue hdue' fun be hbe =>
        (hsame _ _).mp ⟨be, hbe, rfl, rfl⟩)
      (seenIn_of_matches hplain' hplain hhash.swap hdue' hdue fun be hbe =>
        (hsame _ _).mpr ⟨be, hbe, rfl, rfl⟩)
  · intro hfacts eventID delta
    constructor
    · rintro ⟨be, hbe, rfl, rfl⟩
      exact match_of_feeFacts hfacts hbe
    · rintro ⟨be, hbe, rfl, rfl⟩
      exact match_of_feeFacts hfacts.symm hbe

end Seen

section Watched
variable {chain : Chain} {envelope : BaseEnvelope} {watched watched' : List String}

/-- The fee of a transaction is told alike for two sets of watched addresses: the transfer that
ranks first has one path under both. On an L2 a set that sees no transfer at all takes the total for
the execution fee, so one set may see none while the other sees some only if the total is the
execution fee and no data fee is told. -/
def SameFee (chain : Chain) (envelope : BaseEnvelope) (watched watched' : List String) : Prop :=
  leadPath (envelope.watchedTransfers watched) = leadPath (envelope.watchedTransfers watched') ∧
    (isEVML1Chain chain = false →
      (envelope.watchedTransfers watched = [] ↔ envelope.watchedTransfers watched' = []) ∨
        envelope.executionFee.natAbs = envelope.totalFee.natAbs ∧ envelope.tellsDataFee = false)

theorem feeFacts_watched_iff :
    feeFacts chain (toString envelope.totalFee)
        (collectBaseMetadata (envelope.watchedTransfers watched)) =
      feeFacts chain (toString envelope.totalFee)
        (collectBaseMetadata (envelope.watchedTransfers watched')) ↔
    SameFee chain envelope watched watched' := by
  have hmem : ∀ be ∈ envelope.watchedTransfers watched, be ∈ envelope.transfers :=
    fun be hbe => BaseEnvelope.mem_watchedTransfers hbe
  have hmem' : ∀ be ∈ envelope.watchedTransfers watched', be ∈ envelope.transfers :=
    fun be hbe => BaseEnvelope.mem_watchedTransfers hbe
  rw [feeFacts_eq_iff, feePathText_all hmem, feePathText_all hmem', executionFee_all hmem,
    executionFee_all hmem', dataFee_all hmem, dataFee_all hmem', SameFee]
  refine and_congr_right fun _ => imp_congr_right fun _ => ?_
  by_cases hnil : envelope.watchedTransfers watched = []
  · by_cases hnil' : envelope.watchedTransfers watched' = []
    · simp [hnil, hnil']
    · cases htells : envelope.tellsDataFee with
      | true => simp [hnil, hnil']
      | false => simp [hnil, hnil', eq_comm]
  · by_cases hnil' : envelope.watchedTransfers watched' = []
    · cases htells : envelope.tellsDataFee with
      | true => simp [hnil, hnil']
      | false => simp [hnil, hnil']
    · simp [hnil, hnil']

theorem noRawFees_decode (payload : BasePayload) (signature txStatus : String)
    (watched : List String) : NoRawFees txStatus
      (decodeBaseTransaction payload signature watched).balanceEvents watched := by
  intro be hbe
  unfold watchedEvents at hbe
  split at hbe
  · cases hbe
  · obtain ⟨raw, hraw, rfl⟩ := List.mem_map.mp hbe
    have htra := List.mem_of_mem_filter hraw
    rw [decode_balanceEvents] at htra
    exact isFeeActivity_normalizeRaw
      (BaseEnvelope.transfer_category (BaseEnvelope.mem_watchedTransfers htra))

end Watched

/-- Two sets of watched addresses with the fee payer show the same fee events exactly if no fee is
due or the fee is told alike. -/
theorem evm_fee_identity_iff (hash : String → String) (chain : Chain) (network : Network)
    (payload : BasePayload) (signature : String) (watched watched' : List String)
    (hpayer : (normalizeEnvelope payload).sender ∈ watched)
    (hpayer' : (normalizeEnvelope payload).sender ∈ watched')
    (hhash : CollisionFree hash
      (evmEventTexts chain network (evmTxHash chain payload signature)
        (evmRawEvents chain payload signature watched) ++
      evmEventTexts chain network (evmTxHash chain payload signature)
        (evmRawEvents chain payload signature watched'))) :
    (∀ eventID delta,
      FeeSeen (evmEvents hash chain network payload signature watched) eventID delta ↔
      FeeSeen (evmEvents hash chain network payload signature watched') eventID delta) ↔
    (trimSpace (normalizeEnvelope payload).sender ≠ "" → (normalizeEnvelope payload).totalFee ≠ 0 →
      SameFee chain (normalizeEnvelope payload) watched watched') := by
  have hdue := decode_feeDue payload signature watched
  have hdue' := decode_feeDue payload signature watched'
  rw [decide_eq_true hpayer, Bool.true_and] at hdue
  rw [decide_eq_true hpayer', Bool.true_and] at hdue'
  by_cases hfee : trimSpace (normalizeEnvelope payload).sender ≠ "" ∧
      (normalizeEnvelope payload).totalFee ≠ 0
  · rw [decide_eq_true hfee.1, decide_eq_true hfee.2, Bool.and_self] at hdue hdue'
    have hsame := same_feeSeen_iff
      (resolveResultFinalityState chain (decodeBaseTransaction payload signature watched))
      (resolveResultFinalityState chain (decodeBaseTransaction payload signature watched'))
      (noRawFees_decode payload signature _ watched)
      (noRawFees_decode payload signature _ watched') hhash hdue hdue'
    have hfacts : feeFacts chain (toString (normalizeEnvelope payload).totalFee)
        (collectBaseMetadata (decodeBaseTransaction payload signature watched).balanceEvents) =
      feeFacts chain (toString (normalizeEnvelope payload).totalFee)
        (collectBaseMetadata (decodeBaseTransaction payload signature watched').balanceEvents) ↔
      SameFee chain (normalizeEnvelope payload) watched watched' := by
      rw [decode_balanceEvents, decode_balanceEvents]
      exact feeFacts_watched_iff
    refine hsame.trans (hfacts.trans ?_)
    exact ⟨fun h _ _ => h, fun h => h hfee.1 hfee.2⟩
  · have hoff : (decide (trimSpace (normalizeEnvelope payload).sender ≠ "") &&
        decide ((normalizeEnvelope payload).totalFee ≠ 0)) = false := by
      rw [← Bool.decide_and]
      exact decide_eq_false hfee
    rw [hoff] at hdue hdue'
    refine iff_of_true (fun eventID delta => iff_of_false ?_ ?_) fun hsen htotal =>
      absurd ⟨hsen, htotal⟩ hfee
    · exact not_feeSeen _ (noRawFees_decode payload signature _ watched) hdue eventID delta
    · exact not_feeSeen _ (noRawFees_decode payload signature _ watched') hdue' eventID delta

def tokenPayment : BasePayload where
  tx := some { hash := some "0x01", sender := some "0xaa", recipient := some "0xcc" }
  receipt := some
    { status := .text "0x1", gasUsed := .text "0x2", effectiveGasPrice := .text "0x3"
      logs := [{ address := some "0x70"
                 topics := [transferTopic,
                   "0xbbbbbbbbbbbbbbbbbbbbbbbbbbbbbbbbbbbbbbbb",
                   "0xdddddddddddddddddddddddddddddddddddddddd"]
                 data := .text "0x5"
                 logIndex := .text "0x7" }] }

def tokenHolder : String := "0xbbbbbbbbbbbbbbbbbbbbbbbbbbbbbbbbbbbbbbbb"

theorem evm_fee_identity_same :
    (normalizeEnvelope tokenPayment).sender ∈ ["0xaa", tokenHolder] ∧ ∀ eventID delta,
    FeeSeen (evmEvents id .base .mainnet tokenPayment "0x01" ["0xaa", tokenHolder]) eventID delta ↔
      FeeSeen (evmEvents id .base .mainnet tokenPayment "0x01" [tokenHolder, "0xee", "0xaa"])
        eventID delta :=
  ⟨by decide +kernel, (evm_fee_identity_iff id .base .mainnet tokenPayment "0x01" _ _
    (by decide +kernel) (by decide +kernel) fun _ _ _ _ h => h).mpr
    fun _ _ => by unfold SameFee; decide +kernel⟩

/-- With the holder of a token watched as well, the fee of the same payer has another id. -/
theorem evm_fee_identity_differs :
    (normalizeEnvelope tokenPayment).sender ∈ ["0xaa"] ∧
    (normalizeEnvelope tokenPayment).sender ∈ ["0xaa", tokenHolder] ∧
    FeeSeen (evmEvents id .ethereum .mainnet tokenPayment "0x01" ["0xaa"])
      "chain=ethereum|network=mainnet|tx=0x01|path=log:0|actor=0xaa|asset=ETH|activity=FEE" "-6" ∧
    ¬ FeeSeen (evmEvents id .ethereum .mainnet tokenPayment "0x01" ["0xaa", tokenHolder])
      "chain=ethereum|network=mainnet|tx=0x01|path=log:0|actor=0xaa|asset=ETH|activity=FEE" "-6" := by
  unfold FeeSeen
  decide +kernel

end Normalizer

end MultichainIndexer
