import MultichainIndexer.Normalizer.Response

/-!
# Balance events of an answer

What the canonical balance events of all chains share: the activity of a raw
event, the filter by watched addresses, when a fee is due and its delta, the
path and the id of an event, and the choice among events of one id. The hash of
the id is a parameter.
-/

namespace MultichainIndexer

open Text BestOf

def ActivityType.text : ActivityType → String
  | .deposit => "DEPOSIT"
  | .withdrawal => "WITHDRAWAL"
  | .stake => "STAKE"
  | .unstake => "UNSTAKE"
  | .claimReward => "CLAIM_REWARD"
  | .fee => "FEE"
  | .feeExecutionL2 => "FEE_EXECUTION_L2"
  | .feeDataL1 => "FEE_DATA_L1"
  | .swap => "SWAP"
  | .mint => "MINT"
  | .burn => "BURN"
  | .other => "OTHER"
  | .selfTransfer => "SELF_TRANSFER"

namespace Normalizer

def deltaIsPositive (delta : String) : Bool :=
  match parseInt (trimSpace delta) with
  | some v => 0 < v
  | none => false

def classifyActivity (category delta : String) (addressIsWatched : Bool) : ActivityType :=
  match category with
  | "TRANSFER" =>
    if !addressIsWatched then .other
    else if deltaIsPositive delta then .deposit else .withdrawal
  | "STAKE" => if deltaIsPositive delta then .unstake else .stake
  | "REWARD" => .claimReward
  | "FEE" => .fee
  | "fee_execution_l2" => .feeExecutionL2
  | "fee_data_l1" => .feeDataL1
  | "SWAP" => .swap
  | "MINT" => .mint
  | "BURN" => .burn
  | _ => .other

theorem deltaIsPositive_toString (n : Int) : deltaIsPositive (toString n) = decide (0 < n) := by
  have hparse := parseInt_toString n
  rw [deltaIsPositive, trimSpace_of_parseInt hparse, hparse]

theorem classifyActivity_credit {n : Int} (h : 0 < n) :
    classifyActivity "TRANSFER" (toString n) true = .deposit := by
  have hpos : deltaIsPositive (toString n) = true := by
    rw [deltaIsPositive_toString, decide_eq_true h]
  show (if deltaIsPositive (toString n) = true then ActivityType.deposit else .withdrawal) = _
  rw [hpos, if_pos rfl]

theorem classifyActivity_debit {n : Int} (h : 0 < n) :
    classifyActivity "TRANSFER" ("-" ++ toString n) true = .withdrawal := by
  have hneg : deltaIsPositive ("-" ++ toString n) = false := by
    rw [← toString_neg_of_pos h, deltaIsPositive_toString, decide_eq_false (by omega)]
  show (if deltaIsPositive ("-" ++ toString n) = true then ActivityType.deposit else .withdrawal) = _
  rw [hneg, if_neg nofun]

def tokenTypeOf : String → TokenType
  | "NATIVE" => .native
  | "FUNGIBLE" => .fungible
  | "NFT" => .nft
  | text => .other text

def rawEvent (be : BalanceEventInfo) (activityType : ActivityType) (eventAction delta : String) :
    NormalizedBalanceEvent where
  outerInstructionIndex := be.outerInstructionIndex
  innerInstructionIndex := be.innerInstructionIndex
  activityType := activityType
  eventAction := eventAction
  programID := be.programId
  contractAddress := be.contractAddress
  address := be.address
  counterpartyAddress := be.counterpartyAddress
  delta := delta
  chainData := some be.metadata
  tokenSymbol := be.tokenSymbol
  tokenName := be.tokenName
  tokenDecimals := be.tokenDecimals
  tokenType := tokenTypeOf be.tokenType
  assetID := be.contractAddress
  eventID := ""
  finalityState := ""

def BalanceEventInfo.isSelfTransfer (be : BalanceEventInfo) : Bool :=
  be.eventCategory = "TRANSFER" && be.counterpartyAddress = be.address

def normalizeRaw (handleSelfTransfer : Bool) (be : BalanceEventInfo) : NormalizedBalanceEvent :=
  if handleSelfTransfer && BalanceEventInfo.isSelfTransfer be then
    rawEvent be .selfTransfer "self_transfer" "0"
  else rawEvent be (classifyActivity be.eventCategory be.delta true) be.eventAction be.delta

def buildRawBalanceEventsMulti (rawEvents : List BalanceEventInfo) (watchedAddresses : List String)
    (handleSelfTransfer : Bool) : List NormalizedBalanceEvent :=
  (rawEvents.filter fun be => be.address ∈ watchedAddresses).map (normalizeRaw handleSelfTransfer)

/-- One sign in front is dropped; `parseInt` admits another. -/
def dropSign (s : String) : String :=
  match s.toList with
  | '+' :: l => String.ofList l
  | '-' :: l => String.ofList l
  | _ => s

def parseBigInt (value : String) : Option Int := parseInt (dropSign (trimSpace value))

theorem dropSign_toString (n : Int) : dropSign (toString n) = toString (n.natAbs : Int) := by
  cases n with
  | ofNat n =>
    have hs : (toString (Int.ofNat n)).toList = Nat.toDigits 10 n := Nat.toList_repr
    unfold dropSign
    rw [hs]
    split
    · rename_i l h
      exact absurd rfl (toDigits_sign_free n _ _ h).2
    · rename_i l h
      exact absurd rfl (toDigits_sign_free n _ _ h).1
    · rfl
  | negSucc n =>
    have hs : (toString (Int.negSucc n)).toList = '-' :: (toString (n + 1)).toList := by
      change ("-" ++ Nat.repr (n + 1)).toList = _
      rw [String.toList_append]
      rfl
    unfold dropSign
    rw [hs]
    exact String.ofList_toList

theorem parseBigInt_toString (n : Int) : parseBigInt (toString n) = some (n.natAbs : Int) := by
  rw [parseBigInt, trimSpace_of_parseInt (parseInt_toString n), dropSign_toString, parseInt_toString]

def canonicalFeeDelta (amount : String) : String :=
  let clean := trimSpace amount
  if clean = "" then "-0"
  else
    let trimmed := dropSign clean
    if trimmed = "" || trimmed = "0" then "-0"
    else if trimmed.toList.all Char.isDigit then "-" ++ trimmed
    else
      match parseInt trimmed with
      | none => "-0"
      | some v => if v = 0 then "-0" else "-" ++ toString v

theorem parseBigInt_of_pos {s : String} {n : Int} (h : parseInt (trimSpace s) = some n)
    (hn : 0 < n) : parseBigInt s = some n := by
  unfold parseBigInt dropSign
  split
  · rename_i l hl
    unfold parseInt at h
    rw [hl] at h
    obtain ⟨m, hm, rfl⟩ := Option.map_eq_some_iff.mp h
    have hdig := parseDigits_isDigit hm
    unfold parseInt
    rw [String.toList_ofList]
    split
    · exact absurd (hdig '-' List.mem_cons_self) (by decide)
    · exact absurd (hdig '+' List.mem_cons_self) (by decide)
    · rw [hm]
      rfl
  · rename_i l hl
    unfold parseInt at h
    rw [hl] at h
    obtain ⟨m, _, rfl⟩ := Option.map_eq_some_iff.mp h
    omega
  · exact h

theorem canonicalFeeDelta_toString (n : Int) :
    canonicalFeeDelta (toString n) = "-" ++ toString (n.natAbs : Int) := by
  unfold canonicalFeeDelta
  simp only [trimSpace_of_parseInt (parseInt_toString n), dropSign_toString,
    if_neg (toString_ne_empty n)]
  have hdig : (toString (n.natAbs : Int)).toList.all Char.isDigit = true := by
    have hs : (toString (n.natAbs : Int)).toList = Nat.toDigits 10 n.natAbs := Nat.toList_repr
    rw [hs, List.all_eq_true]
    exact fun c hc => Nat.isDigit_of_mem_toDigits (by omega) (by omega) hc
  by_cases hzero : n.natAbs = 0
  · rw [hzero]
    decide
  · have hne : ¬ (toString (n.natAbs : Int) = "" || toString (n.natAbs : Int) = "0") = true := by
      simp only [Bool.or_eq_true, decide_eq_true_eq, not_or]
      refine ⟨toString_ne_empty _, fun h => hzero ?_⟩
      have heq : toString (n.natAbs : Int) = toString (0 : Int) := h
      have := toString_injective heq
      omega
    rw [if_neg hne, if_pos hdig]

theorem canonicalFeeDelta_idem (n : Int) :
    canonicalFeeDelta ("-" ++ toString (n.natAbs : Int)) = "-" ++ toString (n.natAbs : Int) := by
  by_cases hzero : n.natAbs = 0
  · rw [hzero]
    decide
  · have hpos : 0 < (n.natAbs : Int) := by omega
    have habs : (-(n.natAbs : Int)).natAbs = n.natAbs := by omega
    rw [← toString_neg_of_pos hpos, canonicalFeeDelta_toString, habs, toString_neg_of_pos hpos]

theorem deltaValue_canonicalFeeDelta (n : Int) :
    deltaValue (canonicalFeeDelta (toString n)) = -(n.natAbs : Int) := by
  rw [canonicalFeeDelta_toString]
  by_cases hzero : n.natAbs = 0
  · rw [hzero]
    decide
  · exact deltaValue_minus (by omega)

def isFeeEligibleStatus (txStatus : String) : Bool :=
  equalFold (trimSpace txStatus) "SUCCESS" || equalFold (trimSpace txStatus) "FAILED"

def shouldEmitSolanaFeeEvent (txStatus feePayer feeAmount : String) : Bool :=
  isFeeEligibleStatus txStatus && trimSpace feePayer ≠ "" &&
    match parseBigInt feeAmount with
    | none => false
    | some fee => fee ≠ 0

/-- `hasSolanaFeeEvent` and `hasBTCFeeEvent`. -/
def hasFeeEvent (events : List NormalizedBalanceEvent) (feePayer : String) : Bool :=
  trimSpace feePayer ≠ "" &&
    events.any fun be => be.activityType = .fee && trimSpace be.address = trimSpace feePayer

def mapTokenTypeToAssetType : TokenType → String
  | .native => "native"
  | .nft => "nft"
  | .fungible => "fungible_token"
  | .other _ => "unknown"

/-- Two's complement wrap-around of a conversion to `int32`. -/
def toInt32 (x : Int) : Int := (x + 2 ^ 31) % 2 ^ 32 - 2 ^ 31

def balanceEventPath (outerInstructionIndex innerInstructionIndex : Int) : String :=
  "outer:" ++ toString outerInstructionIndex ++ "|inner:" ++ toString innerInstructionIndex

def canonicalTxHash (chain : Chain) (txHash : String) : String :=
  identityOr chain txHash (trimSpace txHash)

/-- The text whose hash is the id of an event. -/
def canonicalEventText (chain : Chain) (network : Network) (txHash eventPath actorAddress
    assetID : String) (activityType : ActivityType) : String :=
  "chain=" ++ chain.text ++ "|network=" ++ network.text ++ "|tx=" ++
    canonicalTxHash chain txHash ++ "|path=" ++ eventPath ++ "|actor=" ++
    actorAddress ++ "|asset=" ++ assetID ++ "|activity=" ++ activityType.text

def buildCanonicalEventID (hash : String → String) (chain : Chain) (network : Network)
    (txHash eventPath actorAddress assetID : String) (activityType : ActivityType) : String :=
  hash (canonicalEventText chain network txHash eventPath actorAddress assetID activityType)

def compareCanonicalDeltas (left right : String) : Ordering :=
  match parseInt (trimSpace left), parseInt (trimSpace right) with
  | some l, some r => compare l r
  | _, _ => compare (trimSpace left) (trimSpace right)

def canonicalizeFinalityState (state : String) : String :=
  match toLower (trimSpace state) with
  | "processed" | "pending" | "latest" | "unsafe" => "processed"
  | "confirmed" | "accepted" => "confirmed"
  | "safe" => "safe"
  | "finalized" | "finalised" => "finalized"
  | _ => ""

def finalityStateRank (state : String) : Nat :=
  match canonicalizeFinalityState state with
  | "processed" => 1
  | "confirmed" => 2
  | "safe" => 3
  | "finalized" => 4
  | _ => 0

def compareFinalityStateStrength (left right : String) : Ordering :=
  (compare (finalityStateRank left) (finalityStateRank right)).then
    (compare (canonicalizeFinalityState left) (canonicalizeFinalityState right))

def defaultFinalityState (chainID : Chain) : String :=
  if chainID = .solana then "finalized" else "confirmed"

def normalizeFinalityStateOrDefault (chainID : Chain) (state : String) : String :=
  let normalized := canonicalizeFinalityState state
  if normalized ≠ "" then normalized else defaultFinalityState chainID

def finalityMetadataKeys (chainID : Chain) : List String :=
  if chainID = .solana then ["commitment", "confirmation_status", "finality_state", "finality"]
  else ["finality_state", "finality", "confirmation_status", "commitment"]

def metaGet (m : Metadata) (key : String) : String := (m.lookup key).getD ""

/-- The strongest finality that an event reports. A state of the highest rank ends the search. -/
def resolveResultFinalityState (chainID : Chain) (result : TransactionResult) : String :=
  let candidates := result.balanceEvents.flatMap fun be =>
    (finalityMetadataKeys chainID).map fun key => canonicalizeFinalityState (metaGet be.metadata key)
  let best := candidates.foldl (fun best candidate =>
    if finalityStateRank best < finalityStateRank candidate then candidate else best) ""
  if best ≠ "" then best else defaultFinalityState chainID

/-- `shouldReplaceCanonicalBaseEvent` and `shouldReplaceCanonicalBTCEvent`. -/
def shouldReplaceCanonicalEvent (existing incoming : NormalizedBalanceEvent) : Bool :=
  match compareFinalityStateStrength existing.finalityState incoming.finalityState with
  | .lt => true
  | .gt => false
  | .eq =>
    if existing.eventAction ≠ incoming.eventAction then incoming.eventAction < existing.eventAction
    else if existing.contractAddress ≠ incoming.contractAddress then
      incoming.contractAddress < existing.contractAddress
    else if existing.counterpartyAddress ≠ incoming.counterpartyAddress then
      incoming.counterpartyAddress < existing.counterpartyAddress
    else compareCanonicalDeltas existing.delta incoming.delta = .gt

def sortByEventID (events : List NormalizedBalanceEvent) : List NormalizedBalanceEvent :=
  events.insertionSort fun a b => a.eventID ≤ b.eventID

end Normalizer

end MultichainIndexer
