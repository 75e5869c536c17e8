import MultichainIndexer.Normalizer.Decoded

/-!
# Canonical balance events of Bitcoin

Every input and output of a watched address is an event, under the path of the
input or output. The miner's fee is an event of its own for the fee payer, left
out where an output back to the payer has the very amount of the fee.
-/

namespace MultichainIndexer

open Text BestOf

namespace Normalizer

def resolveBTCEventPathFromMetadata (metadata : Metadata) (outerInstructionIndex : Int) : String :=
  let eventPath := trimSpace (metaGet metadata "event_path")
  if eventPath ≠ "" then eventPath
  else
    let utxoPathType := toLower (trimSpace (metaGet metadata "utxo_path_type"))
    if (utxoPathType = "vin" || utxoPathType = "vout") && 0 ≤ outerInstructionIndex then
      utxoPathType ++ ":" ++ toString outerInstructionIndex
    else ""

def canonicalizeBTCAssetID (value : String) : String :=
  let trimmed := trimSpace value
  if trimmed = "" then "BTC" else if equalFold trimmed "btc" then "BTC" else trimmed

def hasBTCFeeRepresentedAsChangeOutput (events : List NormalizedBalanceEvent)
    (feePayer feeAmount : String) : Bool :=
  let feePayer := canonicalizeAddressIdentity .btc feePayer
  if feePayer = "" then false
  else
    match parseBigInt feeAmount with
    | none => false
    | some fee =>
      let moves := events.filter fun be =>
        be.activityType = .deposit || be.activityType = .withdrawal
      -- an output whose amount reads as a number other than zero
      let received := moves.filterMap fun be =>
        if trimSpace be.eventAction = "vout_receive" then
          (parseBigInt be.delta).bind fun v =>
            if v = 0 then none else some (canonicalizeAddressIdentity .btc be.address, v)
        else none
      fee ≠ 0 && (moves.any fun be => trimSpace be.eventAction = "vin_spend") &&
        (received.any fun r => r.1 ≠ feePayer) && received.any fun r => r.1 = feePayer && r.2 = fee

def shouldEmitBTCFeeEvent (txStatus feePayer feeAmount : String)
    (rawEvents : List NormalizedBalanceEvent) : Bool :=
  shouldEmitSolanaFeeEvent txStatus feePayer feeAmount &&
    !hasBTCFeeRepresentedAsChangeOutput rawEvents feePayer feeAmount

def buildBTCFeeBalanceEvent (feePayer feeAmount : String) : NormalizedBalanceEvent where
  outerInstructionIndex := -1
  innerInstructionIndex := -1
  activityType := .fee
  eventAction := "miner_fee"
  programID := "btc"
  contractAddress := "BTC"
  address := feePayer
  counterpartyAddress := ""
  delta := canonicalFeeDelta feeAmount
  chainData := some [("event_path", "fee:miner")]
  tokenSymbol := "BTC"
  tokenName := "Bitcoin"
  tokenDecimals := 8
  tokenType := .native
  assetID := "BTC"
  eventID := ""
  finalityState := ""

section Canonical
variable (hash : String → String) (chain : Chain) (network : Network)

def canonicalBTCEvent (txHash finalityState : String) (be : NormalizedBalanceEvent) :
    NormalizedBalanceEvent :=
  let metadataPath := resolveBTCEventPathFromMetadata (be.chainData.getD [])
    (toInt32 be.outerInstructionIndex)
  let eventPath := if metadataPath = "" then
      balanceEventPath (toInt32 be.outerInstructionIndex) (toInt32 be.innerInstructionIndex)
    else metadataPath
  let address := canonicalizeAddressIdentity chain be.address
  let contractAddress := canonicalizeBTCAssetID be.contractAddress
  let identity := canonicalizeBTCAssetID be.assetID
  let assetID := if identity = "" then contractAddress else identity
  let actorAddress := canonicalizeAddressIdentity chain address
  { be with
    eventPath := eventPath
    address := address
    counterpartyAddress := canonicalizeAddressIdentity chain be.counterpartyAddress
    contractAddress := contractAddress
    assetID := assetID
    actorAddress := actorAddress
    assetType := if be.activityType = .fee then "fee" else mapTokenTypeToAssetType be.tokenType
    eventPathType := if be.activityType = .fee then "btc_fee" else "btc_utxo"
    finalityState := finalityState
    decoderVersion := "btc-decoder-v1"
    schemaVersion := "v2"
    eventID := buildCanonicalEventID hash chain network txHash eventPath actorAddress assetID
      be.activityType }

@[simp] theorem canonicalBTCEvent_address (txHash finalityState : String)
    (be : NormalizedBalanceEvent) :
    (canonicalBTCEvent hash chain network txHash finalityState be).address =
      canonicalizeAddressIdentity chain be.address := by
  simp only [canonicalBTCEvent]

def canonicalizeBTCBalanceEvents (txHash finalityState : String)
    (normalizedEvents : List NormalizedBalanceEvent) : List NormalizedBalanceEvent :=
  let finalityState := normalizeFinalityStateOrDefault chain finalityState
  sortByEventID (keep NormalizedBalanceEvent.eventID shouldReplaceCanonicalEvent
    (normalizedEvents.map (canonicalBTCEvent hash chain network txHash finalityState)))

/-- The raw events of watched addresses, with the fee event where one is due. -/
def btcBalanceEvents (txStatus feePayer feeAmount : String) (rawEvents : List BalanceEventInfo)
    (watchedAddresses : List String) : List NormalizedBalanceEvent :=
  let events := buildRawBalanceEventsMulti rawEvents watchedAddresses false
  if feePayer ∈ watchedAddresses && shouldEmitBTCFeeEvent txStatus feePayer feeAmount events &&
      !hasFeeEvent events feePayer then
    events ++ [buildBTCFeeBalanceEvent feePayer feeAmount]
  else events

def buildCanonicalBTCBalanceEventsMulti (txHash txStatus feePayer feeAmount finalityState : String)
    (rawEvents : List BalanceEventInfo) (watchedAddresses : List String) :
    List NormalizedBalanceEvent :=
  canonicalizeBTCBalanceEvents hash chain network txHash
    (normalizeFinalityStateOrDefault chain finalityState)
    (btcBalanceEvents txStatus feePayer feeAmount rawEvents watchedAddresses)

end Canonical

end Normalizer

end MultichainIndexer
