import MultichainIndexer.Normalizer.Decoded

/-!
# Canonical balance events of Solana

An event happens at an outer instruction or at one of its inner instructions.
An inner event whose owner also has an event of the same asset and activity at
the outer instruction moves onto the outer path, where one of the two stays. The
fee is an event at no instruction.
-/

namespace MultichainIndexer

open Text BestOf

namespace Normalizer

def buildSolanaFeeBalanceEvent (feePayer feeAmount : String) : NormalizedBalanceEvent where
  outerInstructionIndex := -1
  innerInstructionIndex := -1
  activityType := .fee
  eventAction := "transaction_fee"
  programID := "11111111111111111111111111111111"
  contractAddress := "11111111111111111111111111111111"
  address := feePayer
  counterpartyAddress := ""
  delta := canonicalFeeDelta feeAmount
  chainData := some []
  tokenSymbol := "SOL"
  tokenName := "Solana"
  tokenDecimals := 9
  tokenType := .native
  assetID := "11111111111111111111111111111111"
  eventID := ""
  finalityState := ""

structure SolanaCanonicalSelection where
  fromOuterInstruction : Bool
  originalInnerIndex : Int

structure SolanaInstructionOwnerKey where
  outerInstruction : Int
  address : String
  assetID : String
  activityType : ActivityType
  deriving DecidableEq

def solanaOwnerKey (be : NormalizedBalanceEvent) : SolanaInstructionOwnerKey :=
  ⟨be.outerInstructionIndex, be.address, be.assetID, be.activityType⟩

/-- The canonical addresses of an event, and its place as its metadata gives it. -/
def placeSolanaEvent (chain : Chain) (be : NormalizedBalanceEvent) : NormalizedBalanceEvent :=
  let contractAddress := canonicalizeAddressIdentity chain be.contractAddress
  let identity := canonicalizeAddressIdentity chain be.assetID
  let be := { be with
    address := canonicalizeAddressIdentity chain be.address
    counterpartyAddress := canonicalizeAddressIdentity chain be.counterpartyAddress
    contractAddress := contractAddress
    assetID := if identity = "" then contractAddress else identity }
  if be.activityType = .fee then be
  else
    match solanaInstructionPath (be.chainData.getD []) with
    | some (outer, inner) => { be with outerInstructionIndex := outer, innerInstructionIndex := inner }
    | none => be

@[simp] theorem placeSolanaEvent_address (chain : Chain) (be : NormalizedBalanceEvent) :
    (placeSolanaEvent chain be).address = canonicalizeAddressIdentity chain be.address := by
  simp only [placeSolanaEvent]
  split
  · simp only
  · split
    · simp only
    · simp only

def outerOwners (events : List NormalizedBalanceEvent) : List SolanaInstructionOwnerKey :=
  (events.filter fun be => be.activityType ≠ .fee && 0 ≤ be.outerInstructionIndex &&
    be.innerInstructionIndex = -1).map solanaOwnerKey

def solanaOrder (a b : NormalizedBalanceEvent) : Bool :=
  if a.activityType ≠ b.activityType then a.activityType.text < b.activityType.text
  else if a.outerInstructionIndex ≠ b.outerInstructionIndex then
    a.outerInstructionIndex < b.outerInstructionIndex
  else if a.innerInstructionIndex ≠ b.innerInstructionIndex then
    a.innerInstructionIndex < b.innerInstructionIndex
  else if a.address ≠ b.address then a.address < b.address
  else a.contractAddress ≤ b.contractAddress

section Canonical
variable (hash : String → String) (chain : Chain) (network : Network)

def canonicalSolanaEvent (txHash finalityState : String) (owners : List SolanaInstructionOwnerKey)
    (be : NormalizedBalanceEvent) : NormalizedBalanceEvent × SolanaCanonicalSelection :=
  let isFee : Bool := be.activityType = .fee
  let outer := if isFee then -1 else be.outerInstructionIndex
  let inner := if isFee then -1 else be.innerInstructionIndex
  let moves : Bool := !isFee && 0 ≤ outer && -1 < inner && solanaOwnerKey be ∈ owners
  let eventPath := balanceEventPath (toInt32 outer) (toInt32 (if moves then -1 else inner))
  ({ be with
      outerInstructionIndex := outer
      innerInstructionIndex := if moves then -1 else inner
      delta := if isFee then canonicalFeeDelta be.delta else be.delta
      eventAction := if isFee then "transaction_fee" else be.eventAction
      actorAddress := be.address
      assetType := if isFee then "fee" else mapTokenTypeToAssetType be.tokenType
      eventPath := eventPath
      eventPathType := "solana_instruction"
      finalityState := finalityState
      decoderVersion := "solana-decoder-v1"
      schemaVersion := "v2"
      eventID := buildCanonicalEventID hash chain network txHash eventPath be.address be.assetID
        be.activityType },
    ⟨inner = -1, toInt32 inner⟩)

@[simp] theorem canonicalSolanaEvent_address (txHash finalityState : String)
    (owners : List SolanaInstructionOwnerKey) (be : NormalizedBalanceEvent) :
    (canonicalSolanaEvent hash chain network txHash finalityState owners be).1.address =
      be.address := by
  simp only [canonicalSolanaEvent]

def shouldReplaceCanonicalSolanaEvent
    (existing incoming : NormalizedBalanceEvent × SolanaCanonicalSelection) : Bool :=
  match compareFinalityStateStrength existing.1.finalityState incoming.1.finalityState with
  | .lt => true
  | .gt => false
  | .eq =>
    if existing.1.activityType = .fee || incoming.1.activityType = .fee then
      if existing.1.eventAction ≠ incoming.1.eventAction then
        incoming.1.eventAction < existing.1.eventAction
      else compareCanonicalDeltas existing.1.delta incoming.1.delta = .gt
    else if existing.2.fromOuterInstruction ≠ incoming.2.fromOuterInstruction then
      incoming.2.fromOuterInstruction
    else if existing.2.originalInnerIndex ≠ incoming.2.originalInnerIndex then
      incoming.2.originalInnerIndex < existing.2.originalInnerIndex
    else if existing.1.eventAction ≠ incoming.1.eventAction then
      incoming.1.eventAction < existing.1.eventAction
    else if existing.1.contractAddress ≠ incoming.1.contractAddress then
      incoming.1.contractAddress < existing.1.contractAddress
    else compareCanonicalDeltas existing.1.delta incoming.1.delta = .gt

def canonicalizeSolanaBalanceEvents (txHash finalityState : String)
    (normalizedEvents : List NormalizedBalanceEvent) : List NormalizedBalanceEvent :=
  let finalityState := normalizeFinalityStateOrDefault chain finalityState
  let placed := normalizedEvents.map (placeSolanaEvent chain)
  let ordered := placed.insertionSort fun a b => solanaOrder a b = true
  sortByEventID ((keep (fun e => e.1.eventID) shouldReplaceCanonicalSolanaEvent
    (ordered.map (canonicalSolanaEvent hash chain network txHash finalityState
      (outerOwners placed)))).map Prod.fst)

/-- The raw events of watched addresses, with the fee event where one is due. -/
def solanaBalanceEvents (txStatus feePayer feeAmount : String) (rawEvents : List BalanceEventInfo)
    (watchedAddresses : List String) : List NormalizedBalanceEvent :=
  let events := buildRawBalanceEventsMulti rawEvents watchedAddresses true
  if feePayer ∈ watchedAddresses && shouldEmitSolanaFeeEvent txStatus feePayer feeAmount &&
      !hasFeeEvent events feePayer then
    events ++ [buildSolanaFeeBalanceEvent feePayer feeAmount]
  else events

def buildCanonicalSolanaBalanceEventsMulti
    (txHash txStatus feePayer feeAmount finalityState : String)
    (rawEvents : List BalanceEventInfo) (watchedAddresses : List String) :
    List NormalizedBalanceEvent :=
  canonicalizeSolanaBalanceEvents hash chain network txHash
    (normalizeFinalityStateOrDefault chain finalityState)
    (solanaBalanceEvents txStatus feePayer feeAmount rawEvents watchedAddresses)

end Canonical

end Normalizer

end MultichainIndexer
