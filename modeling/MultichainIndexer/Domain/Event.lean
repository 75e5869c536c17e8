import MultichainIndexer.Domain.Model

/-!
# Messages between the pipeline stages

A fetch job becomes raw batches, a raw batch becomes a normalized batch, and
the ingester takes normalized batches, reorg events and finality promotions.
Creation times, which only feed metrics, are left out.
-/

namespace MultichainIndexer

structure FetchJob where
  chain : Chain
  network : Network
  address : String := ""
  cursorValue : Option String := none
  cursorSequence : Int := 0
  fetchCutoffSeq : Int := 0
  batchSize : Int := 0
  walletID : Option String := none
  orgID : Option String := none
  blockScanMode : Bool := false
  startBlock : Int := 0
  endBlock : Int := 0
  watchedAddresses : List String := []
  deriving DecidableEq

structure SignatureInfo where
  hash : String
  sequence : Int
  time : Option Int := none
  deriving DecidableEq

/-- Raw transactions are the JSON texts that the node returned. -/
structure RawBatch where
  chain : Chain
  network : Network
  address : String := ""
  walletID : Option String := none
  orgID : Option String := none
  previousCursorValue : Option String := none
  previousCursorSequence : Int := 0
  rawTransactions : List String := []
  signatures : List SignatureInfo := []
  newCursorValue : Option String := none
  newCursorSequence : Int := 0
  blockScanMode : Bool := false
  watchedAddresses : List String := []

structure NormalizedBalanceEvent where
  outerInstructionIndex : Int := 0
  innerInstructionIndex : Int := 0
  activityType : ActivityType
  eventAction : String := ""
  programID : String := ""
  contractAddress : String
  address : String
  counterpartyAddress : String := ""
  delta : String
  chainData : Option Metadata := none
  tokenSymbol : String := ""
  tokenName : String := ""
  tokenDecimals : Int := 0
  tokenType : TokenType
  eventID : String
  blockHash : String := ""
  txIndex : Int := 0
  eventPath : String := ""
  eventPathType : String := ""
  actorAddress : String := ""
  assetType : String := ""
  assetID : String := ""
  finalityState : String
  decoderVersion : String := ""
  schemaVersion : String := ""

structure NormalizedTransaction where
  txHash : String
  blockCursor : Int
  blockTime : Option Int := none
  feeAmount : String := ""
  feePayer : String := ""
  status : TxStatus := .success
  err : Option String := none
  chainData : Option Metadata := none
  blockHash : String := ""
  parentHash : String := ""
  balanceEvents : List NormalizedBalanceEvent := []

structure NormalizedBatch where
  chain : Chain
  network : Network
  address : String := ""
  walletID : Option String := none
  orgID : Option String := none
  previousCursorValue : Option String := none
  previousCursorSequence : Int := 0
  transactions : List NormalizedTransaction := []
  newCursorValue : Option String := none
  newCursorSequence : Int := 0
  blockScanMode : Bool := false
  watchedAddresses : List String := []

structure ReorgEvent where
  chain : Chain
  network : Network
  forkBlockNumber : Int
  expectedHash : String := ""
  actualHash : String := ""

structure FinalityPromotion where
  chain : Chain
  network : Network
  newFinalizedBlock : Int

end MultichainIndexer
