import MultichainIndexer.Normalizer.Decoded

/-!
# Canonical balance events of the EVM chains

A reverted transaction has no events but its fee. The fee of an L1 chain is one
event. On an L2 it is the execution fee and, where the metadata of the events
has one, the data fee; the metadata of all events is put together for that, one
event giving the components and the path.
-/

namespace MultichainIndexer

open Text BestOf

namespace Normalizer

def deriveBaseExecutionFeeFromMetadata (metadata : Metadata) : Option Int :=
  match parseBigInt (metaGet metadata "fee_execution_l2") with
  | some fee => some fee
  | none =>
    match parseBigInt (metaGet metadata "gas_used"),
        parseBigInt (metaGet metadata "effective_gas_price") with
    | some gasUsed, some gasPrice => some (gasUsed * gasPrice)
    | _, _ =>
      match parseBigInt (metaGet metadata "base_gas_used"),
          parseBigInt (metaGet metadata "base_effective_gas_price") with
      | some gasUsed, some gasPrice => some (gasUsed * gasPrice)
      | _, _ => none

def deriveBaseDataFee (metadata : Metadata) : Option Int :=
  ["fee_data_l1", "data_fee_l1", "l1_data_fee", "l1_fee"].findSome? fun key =>
    parseBigInt (metaGet metadata key)

def deriveBaseExecutionFee (totalFee : String) (metadata : Metadata) : Int :=
  match deriveBaseExecutionFeeFromMetadata metadata with
  | some fee => fee
  | none => (parseBigInt totalFee).getD 0

def hasBaseFeeComponentMetaMismatch (totalFee : String) (metadata : Metadata) : Bool :=
  match parseBigInt totalFee, deriveBaseExecutionFeeFromMetadata metadata,
      deriveBaseDataFee metadata with
  | some total, some exec, some data => total ≠ 0 && exec + data ≠ total
  | _, _, _ => false

section Metadata

def baseFeePathMetadataKeys : List String :=
  ["event_path", "log_path", "log_index", "base_log_index", "base_event_path"]

def baseFeeComponentMetadataKeys : List String :=
  ["fee_execution_l2", "fee_data_l1", "data_fee_l1", "l1_data_fee", "l1_fee"]

def metaCount (m : Metadata) : Nat := (m.map Prod.fst).dedup.length

def metaSet (m : Metadata) (key value : String) : Metadata :=
  (key, value) :: m.filter (·.1 ≠ key)

def metaDeleteAll (m : Metadata) (keys : List String) : Metadata := m.filter (·.1 ∉ keys)

/-- The candidates are the events that have metadata. Whether one is preferred to another. -/
def shouldPreferBaseFeeMetadataCandidate (existing incoming : BalanceEventInfo) : Bool :=
  let existingHint : Bool := resolveBaseMetadataEventPath existing.metadata ≠ ""
  let incomingHint : Bool := resolveBaseMetadataEventPath incoming.metadata ≠ ""
  if existingHint ≠ incomingHint then incomingHint
  else if metaCount existing.metadata ≠ metaCount incoming.metadata then
    metaCount existing.metadata < metaCount incoming.metadata
  else decodedEventFingerprint .base incoming < decodedEventFingerprint .base existing

def pickBestBaseFeeMetadataCandidate (candidates : List BalanceEventInfo)
    (predicate : BalanceEventInfo → Bool) : Option BalanceEventInfo :=
  (candidates.filter predicate).foldl (fun best candidate =>
    match best with
    | none => some candidate
    | some b => if shouldPreferBaseFeeMetadataCandidate b candidate then some candidate else some b)
    none

def copyTrimmed (keys : List String) (metadata out : Metadata) : Metadata :=
  keys.foldl (fun out key =>
    let value := trimSpace (metaGet metadata key)
    if value = "" then out else metaSet out key value) out

def withMissing (out metadata : Metadata) : Metadata :=
  out ++ metadata.filter fun entry => (out.lookup entry.1).isNone

def applyBasePathMetadata (out metadata : Metadata) : Metadata :=
  copyTrimmed baseFeePathMetadataKeys metadata (metaDeleteAll out baseFeePathMetadataKeys)

def setComponent (out : Metadata) (key : String) (fee : Option Int) : Metadata :=
  match fee with
  | some fee => metaSet out key (toString fee)
  | none => out

def reconcileBaseFeeComponentMetadata (out : Metadata) (rawEvents : List BalanceEventInfo) :
    Metadata :=
  let candidates := rawEvents.filter fun be => !be.metadata.isEmpty
  let hasExecution := fun be : BalanceEventInfo =>
    (deriveBaseExecutionFeeFromMetadata be.metadata).isSome
  let hasData := fun be : BalanceEventInfo => (deriveBaseDataFee be.metadata).isSome
  let bestBoth := pickBestBaseFeeMetadataCandidate candidates fun be =>
    hasExecution be && hasData be
  let bestExecution := pickBestBaseFeeMetadataCandidate candidates hasExecution
  let bestData := pickBestBaseFeeMetadataCandidate candidates hasData
  match (bestBoth.or bestExecution).or bestData with
  | none => out
  | some selected =>
    let executionSource := bestBoth.or bestExecution
    let dataSource := bestBoth.or bestData
    let out := metaDeleteAll out baseFeeComponentMetadataKeys
    let out := setComponent out "fee_execution_l2"
      (executionSource.bind fun be => deriveBaseExecutionFeeFromMetadata be.metadata)
    let out := setComponent out "fee_data_l1"
      (dataSource.bind fun be => deriveBaseDataFee be.metadata)
    let pathSource :=
      if resolveBaseMetadataEventPath selected.metadata = "" then
        (pickBestBaseFeeMetadataCandidate candidates fun be =>
          resolveBaseMetadataEventPath be.metadata ≠ "").getD selected
      else selected
    applyBasePathMetadata out pathSource.metadata

/-- The first value of every key, then the components and the path. -/
def collectBaseMetadata (rawEvents : List BalanceEventInfo) : Metadata :=
  reconcileBaseFeeComponentMetadata (rawEvents.foldl (fun out be => withMissing out be.metadata) [])
    rawEvents

end Metadata

def evmNativeToken : Chain → String × String × Int
  | .polygon => ("POL", "POL", 18)
  | .bsc => ("BNB", "BNB", 18)
  | _ => ("ETH", "Ether", 18)

def isEVML1Chain : Chain → Bool
  | .ethereum | .polygon | .bsc => true
  | _ => false

def evmDecoderVersion (chain : Chain) : String :=
  if isEVML1Chain chain then "evm-l1-decoder-v1" else "base-decoder-v1"

def evmFeeEvent (activityType : ActivityType) (eventAction feePayer feeAmount eventPath : String)
    (token : String × String × Int) (chainData : Metadata) : NormalizedBalanceEvent where
  outerInstructionIndex := -1
  innerInstructionIndex := -1
  activityType := activityType
  eventAction := eventAction
  programID := "0x0000000000000000000000000000000000000000000000000000000000000000"
  contractAddress := token.1
  address := feePayer
  counterpartyAddress := ""
  delta := canonicalFeeDelta feeAmount
  chainData := some chainData
  tokenSymbol := token.1
  tokenName := token.2.1
  tokenDecimals := token.2.2
  tokenType := .native
  assetID := token.1
  eventPath := eventPath
  eventID := ""
  finalityState := ""

def buildEVML1FeeBalanceEvent (feePayer feeAmount eventPath : String)
    (token : String × String × Int) : NormalizedBalanceEvent :=
  evmFeeEvent .fee "net_eth" feePayer feeAmount eventPath token []

def buildBaseFeeBalanceEvent (activityType : ActivityType) (feePayer feeAmount eventPath
    eventAction : String) (chainData : Metadata) : NormalizedBalanceEvent :=
  evmFeeEvent activityType eventAction feePayer feeAmount eventPath ("ETH", "Ether", 18) chainData

def resolveBaseFeeEventPath (metadata : Metadata) : String :=
  let path := resolveBaseMetadataEventPath metadata
  if path ≠ "" then path else "log:0"

/-- What is noted on the execution fee: components that miss the total, a missing data fee. -/
def baseFeeMarker (feeAmount : String) (metadata : Metadata) : Metadata :=
  (if hasBaseFeeComponentMetaMismatch feeAmount metadata then
    [("fee_total_mismatch", "true"),
      ("fee_execution_total_from_components",
        toString ((deriveBaseExecutionFeeFromMetadata metadata).getD 0)),
      ("fee_data_total_from_components", toString ((deriveBaseDataFee metadata).getD 0)),
      ("fee_amount_total", feeAmount)]
    else []) ++
  if (deriveBaseDataFee metadata).isNone then [("data_fee_l1_unavailable", "true")] else []

def baseFeeEvents (chain : Chain) (feePayer feeAmount : String) (metadata : Metadata) :
    List NormalizedBalanceEvent :=
  let eventPath := resolveBaseFeeEventPath metadata
  if isEVML1Chain chain then
    [buildEVML1FeeBalanceEvent feePayer feeAmount eventPath (evmNativeToken chain)]
  else
    buildBaseFeeBalanceEvent .feeExecutionL2 feePayer
      (toString (deriveBaseExecutionFee feeAmount metadata)) eventPath "net_base"
      (baseFeeMarker feeAmount metadata) ::
    match deriveBaseDataFee metadata with
    | some dataFee => [buildBaseFeeBalanceEvent .feeDataL1 feePayer (toString dataFee) eventPath
        "net_base_data" []]
    | none => []

theorem baseFeeEvents_address {chain : Chain} {feePayer feeAmount : String} {metadata : Metadata}
    {be : NormalizedBalanceEvent} (h : be ∈ baseFeeEvents chain feePayer feeAmount metadata) :
    be.address = feePayer := by
  unfold baseFeeEvents at h
  simp only at h
  split at h
  · rw [List.mem_singleton.mp h, buildEVML1FeeBalanceEvent, evmFeeEvent]
  · rcases List.mem_cons.mp h with rfl | h
    · rw [buildBaseFeeBalanceEvent, evmFeeEvent]
    · split at h
      · rw [List.mem_singleton.mp h, buildBaseFeeBalanceEvent, evmFeeEvent]
      · cases h

def isBaseFeeActivity : ActivityType → Bool
  | .feeExecutionL2 | .feeDataL1 => true
  | _ => false

section Canonical
variable (hash : String → String) (chain : Chain) (network : Network)

def canonicalBaseEvent (txHash finalityState : String) (be : NormalizedBalanceEvent) :
    NormalizedBalanceEvent :=
  let isFee := isBaseFeeActivity be.activityType || be.activityType = .fee
  let metadataPath := resolveBaseMetadataEventPath (be.chainData.getD [])
  let trimmedPath := trimSpace (if metadataPath ≠ "" then metadataPath else be.eventPath)
  let eventPath := if trimmedPath = "" then
      balanceEventPath (toInt32 be.outerInstructionIndex) (toInt32 be.innerInstructionIndex)
    else trimmedPath
  let address := canonicalizeAddressIdentity chain be.address
  let contractAddress := canonicalizeAddressIdentity chain be.contractAddress
  let identity := canonicalizeAddressIdentity chain be.assetID
  let assetID := if identity = "" then contractAddress else identity
  let actorAddress := canonicalizeAddressIdentity chain address
  { be with
    eventAction := if isBaseFeeActivity be.activityType then be.activityType.text else be.eventAction
    delta := if isFee then canonicalFeeDelta be.delta else be.delta
    eventPath := eventPath
    address := address
    counterpartyAddress := canonicalizeAddressIdentity chain be.counterpartyAddress
    contractAddress := contractAddress
    assetID := assetID
    actorAddress := actorAddress
    assetType := if isFee then "fee" else mapTokenTypeToAssetType be.tokenType
    eventPathType := "base_log"
    finalityState := finalityState
    decoderVersion := evmDecoderVersion chain
    schemaVersion := "v2"
    eventID := buildCanonicalEventID hash chain network txHash eventPath actorAddress assetID
      be.activityType }

@[simp] theorem canonicalBaseEvent_address (txHash finalityState : String)
    (be : NormalizedBalanceEvent) :
    (canonicalBaseEvent hash chain network txHash finalityState be).address =
      canonicalizeAddressIdentity chain be.address := by
  simp only [canonicalBaseEvent]

def canonicalizeBaseBalanceEvents (txHash finalityState : String)
    (normalizedEvents : List NormalizedBalanceEvent) : List NormalizedBalanceEvent :=
  let finalityState := normalizeFinalityStateOrDefault chain finalityState
  sortByEventID (keep NormalizedBalanceEvent.eventID shouldReplaceCanonicalEvent
    (normalizedEvents.map (canonicalBaseEvent hash chain network txHash finalityState)))

/-- The raw events of watched addresses, none of a reverted transaction, with the fee events. -/
def baseBalanceEvents (txStatus feePayer feeAmount : String) (rawEvents : List BalanceEventInfo)
    (watchedAddresses : List String) : List NormalizedBalanceEvent :=
  (if equalFold txStatus "FAILED" then []
    else buildRawBalanceEventsMulti rawEvents watchedAddresses true) ++
  if feePayer ∈ watchedAddresses && shouldEmitSolanaFeeEvent txStatus feePayer feeAmount then
    baseFeeEvents chain feePayer feeAmount (collectBaseMetadata rawEvents)
  else []

def buildCanonicalBaseBalanceEventsMulti (txHash txStatus feePayer feeAmount finalityState : String)
    (rawEvents : List BalanceEventInfo) (watchedAddresses : List String) :
    List NormalizedBalanceEvent :=
  canonicalizeBaseBalanceEvents hash chain network txHash
    (normalizeFinalityStateOrDefault chain finalityState)
    (baseBalanceEvents chain txStatus feePayer feeAmount rawEvents watchedAddresses)

end Canonical

end Normalizer

end MultichainIndexer
