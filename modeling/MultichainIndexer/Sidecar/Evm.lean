import MultichainIndexer.Sidecar.Btc

/-!
# The decoder of EVM transactions

A value transfer and each Transfer log is a balance event for every watched side
of it; with the zero address on one side a log is a mint or a burn and counts for
the other side alone. A reverted transaction has no events. Every event carries
the metadata of the fee beside its own path.
-/

namespace MultichainIndexer

open Text

namespace Sidecar

def transferTopic : String := "0xddf252ad1be2c89b69c2b068fc378daa952ba7f163c4a11628f55aebf9f4f7b8"

def zeroProgramId : String := "0x0000000000000000000000000000000000000000000000000000000000000000"

def zeroAddress : String := "0x0000000000000000000000000000000000000000"

structure EvmTransaction where
  hash : Option String := none
  blockNumber : Js.Scalar := .absent
  transactionIndex : Js.Scalar := .absent
  sender : Option String := none
  recipient : Option String := none
  value : Js.Scalar := .absent
  gasPrice : Js.Scalar := .absent
  deriving DecidableEq

structure EvmLog where
  address : Option String := none
  topics : List String := []
  data : Js.Scalar := .absent
  logIndex : Js.Scalar := .absent
  removed : Bool := false
  deriving DecidableEq

structure EvmReceipt where
  transactionHash : Option String := none
  blockNumber : Js.Scalar := .absent
  transactionIndex : Js.Scalar := .absent
  status : Js.Scalar := .absent
  sender : Option String := none
  recipient : Option String := none
  gasUsed : Js.Scalar := .absent
  effectiveGasPrice : Js.Scalar := .absent
  l1Fee : Js.Scalar := .absent
  logs : List EvmLog := []
  deriving DecidableEq

structure BaseEnvelope where
  evmLayer : Option String := none
  tx : Option EvmTransaction := none
  receipt : Option EvmReceipt := none
  blockTimestamp : Js.Scalar := .absent
  deriving DecidableEq

/-- An object as it is received: an envelope, with the properties of its own that it has if it is
the transaction or the receipt itself. -/
structure BasePayload extends BaseEnvelope where
  ownTx : EvmTransaction := {}
  ownReceipt : EvmReceipt := {}
  deriving DecidableEq

def normalizeEnvelope (payload : BasePayload) : BaseEnvelope :=
  if payload.tx.isSome || payload.receipt.isSome then payload.toBaseEnvelope
  else { tx := some payload.ownTx, receipt := some payload.ownReceipt }

def normalizeAddress (address : Option String) : String := toLower (address.getD "")

def normalizeTopic (topic : Option String) : String := toLower (topic.getD "")

/-- The last twenty bytes of a topic. -/
def topicToAddress (topic : Option String) : String :=
  let value := (trimPrefix (normalizeTopic topic) "0x").toList
  if value.length < 40 then "" else "0x" ++ String.ofList (value.drop (value.length - 40))

def hexToNumber (value : Js.Scalar) (fallback : Int := 0) : Int :=
  if value.truthy then (Js.number (toBigInt value)).getD fallback else fallback

def parseTimestamp : Js.Scalar → Int
  | .number n => n
  | raw => hexToNumber raw

/-- `{ ...metadata, ...entries }` -/
def spread (metadata entries : Metadata) : Metadata :=
  entries ++ metadata.filter fun entry => entry.1 ∉ entries.map Prod.fst

def buildFeeMetadata (executionFee dataFee gasUsed effectiveGasPrice : Int) (receipt : EvmReceipt)
    (evmLayer : String) : Metadata :=
  let isL1 := evmLayer = "l1"
  (if isL1 then
    [("gas_used", toString gasUsed), ("effective_gas_price", toString effectiveGasPrice)]
  else
    [("fee_execution_l2", toString executionFee), ("base_gas_used", toString gasUsed),
      ("base_effective_gas_price", toString effectiveGasPrice)]) ++
  (if ¬ isL1 ∧ 0 < dataFee then [("fee_data_l1", toString dataFee)] else []) ++
  if receipt.transactionIndex.truthy then
    [("event_path", "tx:" ++ Js.numberText (hexToNumber receipt.transactionIndex 0))]
  else []

def signedAmount (amount : Int) (isDebit : Bool) : String :=
  if isDebit then "-" ++ toString amount else toString amount

def buildNativeTransferEvent (watchedAddress counterparty : String) (amount txIndex : Int)
    (eventPath : String) (metadata : Metadata) (isDebit : Bool) : BalanceEventInfo where
  outerInstructionIndex := txIndex
  innerInstructionIndex := -1
  eventCategory := "TRANSFER"
  eventAction := "native_transfer"
  programId := zeroProgramId
  address := watchedAddress
  contractAddress := "ETH"
  delta := signedAmount amount isDebit
  counterpartyAddress := counterparty
  tokenSymbol := "ETH"
  tokenName := "Ether"
  tokenDecimals := 18
  tokenType := "NATIVE"
  metadata := spread metadata [("event_path", eventPath)]

def tokenEvent (eventCategory eventAction programId contractAddress watchedAddress counterparty
    delta : String) (txIndex : Int) (metadata : Metadata) : BalanceEventInfo where
  outerInstructionIndex := txIndex
  innerInstructionIndex := -1
  eventCategory := eventCategory
  eventAction := eventAction
  programId := programId
  address := watchedAddress
  contractAddress := contractAddress
  delta := delta
  counterpartyAddress := counterparty
  tokenSymbol := ""
  tokenName := ""
  tokenDecimals := 18
  tokenType := "FUNGIBLE"
  metadata := metadata

/-- `contractAddress || fallback` -/
def contractOr (contractAddress fallback : String) : String :=
  if contractAddress ≠ "" then contractAddress else fallback

/-- Without an address of its own the log counts for the native coin. -/
def buildERC20TransferEvent (watchedAddress counterparty contractAddress : String)
    (amount txIndex : Int) (metadata : Metadata) (isDebit : Bool) : BalanceEventInfo :=
  tokenEvent "TRANSFER" "erc20_transfer" (contractOr contractAddress zeroProgramId)
    (contractOr contractAddress "ETH") watchedAddress counterparty (signedAmount amount isDebit)
    txIndex metadata

def buildERC20MintEvent (watchedAddress counterparty contractAddress : String)
    (amount txIndex : Int) (metadata : Metadata) : BalanceEventInfo :=
  tokenEvent "MINT" "erc20_mint" (contractOr (toLower contractAddress) zeroProgramId)
    (contractOr (toLower contractAddress) zeroProgramId) watchedAddress counterparty
    (signedAmount amount false) txIndex metadata

def buildERC20BurnEvent (watchedAddress counterparty contractAddress : String)
    (amount txIndex : Int) (metadata : Metadata) : BalanceEventInfo :=
  tokenEvent "BURN" "erc20_burn" (contractOr (toLower contractAddress) zeroProgramId)
    (contractOr (toLower contractAddress) zeroProgramId) watchedAddress counterparty
    (signedAmount amount true) txIndex metadata

namespace EvmLog
variable (log : EvmLog)

def eventFrom : String := topicToAddress log.topics[1]?

def eventTo : String := topicToAddress log.topics[2]?

def amount : Int := toBigInt log.data

def index : Int := hexToNumber log.logIndex 0

def eventPath : String := "log:" ++ Js.numberText log.index

def isTransfer : Bool :=
  !log.removed && decide (3 ≤ log.topics.length) &&
    decide (normalizeTopic log.topics[0]? = transferTopic) && decide (0 < log.amount)

def eventMetadata (feeMetadata : Metadata) : Metadata :=
  spread feeMetadata [("event_path", log.eventPath), ("log_index", Js.numberText log.index),
    ("base_log_index", Js.numberText log.index), ("base_event_path", log.eventPath)]

def events (txIndex : Int) (feeMetadata : Metadata) (isWatched : String → Bool) :
    List BalanceEventInfo :=
  let contractAddress := normalizeAddress log.address
  let metadata := log.eventMetadata feeMetadata
  if !log.isTransfer then []
  else if log.eventFrom = zeroAddress then
    if log.eventTo ≠ "" && isWatched log.eventTo then
      [buildERC20MintEvent log.eventTo log.eventFrom contractAddress log.amount txIndex metadata]
    else []
  else if log.eventTo = zeroAddress then
    if log.eventFrom ≠ "" && isWatched log.eventFrom then
      [buildERC20BurnEvent log.eventFrom log.eventTo contractAddress log.amount txIndex metadata]
    else []
  else
    (if log.eventFrom ≠ "" && isWatched log.eventFrom then
      [buildERC20TransferEvent log.eventFrom log.eventTo contractAddress log.amount txIndex metadata
        true]
    else []) ++
    if log.eventTo ≠ "" && isWatched log.eventTo then
      [buildERC20TransferEvent log.eventTo log.eventFrom contractAddress log.amount txIndex metadata
        false]
    else []

end EvmLog

namespace BaseEnvelope
variable (envelope : BaseEnvelope)

def txPart : EvmTransaction := envelope.tx.getD {}

def receiptPart : EvmReceipt := envelope.receipt.getD {}

def txIndex : Int :=
  hexToNumber (envelope.receiptPart.transactionIndex.or envelope.txPart.transactionIndex) (-1)

def sender : String := normalizeAddress (Js.orText envelope.txPart.sender envelope.receiptPart.sender)

def recipient : String :=
  normalizeAddress (Js.orText envelope.txPart.recipient envelope.receiptPart.recipient)

def transferValue : Int := toBigInt envelope.txPart.value

def reverted : Bool := toBigInt envelope.receiptPart.status = 0

def gasUsed : Int := toBigInt envelope.receiptPart.gasUsed

def effectiveGasPrice : Int :=
  toBigInt (envelope.receiptPart.effectiveGasPrice.or envelope.txPart.gasPrice)

def executionFee : Int := envelope.gasUsed * envelope.effectiveGasPrice

def dataFee : Int := toBigInt envelope.receiptPart.l1Fee

def totalFee : Int := envelope.executionFee + envelope.dataFee

def feeMetadata : Metadata :=
  buildFeeMetadata envelope.executionFee envelope.dataFee envelope.gasUsed
    envelope.effectiveGasPrice envelope.receiptPart (envelope.evmLayer.getD "")

def transferPath : String :=
  if 0 ≤ envelope.txIndex then "tx:" ++ Js.numberText envelope.txIndex else "tx:0"

def nativeEvents (isWatched : String → Bool) : List BalanceEventInfo :=
  let sender := envelope.sender
  let recipient := envelope.recipient
  if 0 < envelope.transferValue then
    (if sender ≠ "" && isWatched sender then
      [buildNativeTransferEvent sender recipient envelope.transferValue envelope.txIndex
        envelope.transferPath envelope.feeMetadata true]
    else []) ++
    if recipient ≠ "" && isWatched recipient then
      [buildNativeTransferEvent recipient sender envelope.transferValue envelope.txIndex
        envelope.transferPath envelope.feeMetadata false]
    else []
  else []

def balanceEvents (isWatched : String → Bool) : List BalanceEventInfo :=
  envelope.nativeEvents isWatched ++ envelope.receiptPart.logs.flatMap fun log =>
    log.events envelope.txIndex envelope.feeMetadata isWatched

end BaseEnvelope

/-- Watched addresses are compared in lower case, blanks and a missing prefix stay. -/
def normalizedWatched (watchedAddresses : List String) : List String := watchedAddresses.map toLower

def decodeBaseTransaction (rawPayload : BasePayload) (signature : String)
    (watchedAddresses : List String) : TransactionResult :=
  let envelope := normalizeEnvelope rawPayload
  let tx := envelope.txPart
  let receipt := envelope.receiptPart
  { txHash := (Js.orText (Js.orText tx.hash receipt.transactionHash) (some signature)).getD ""
    blockCursor := hexToNumber (receipt.blockNumber.or tx.blockNumber)
    blockTime := parseTimestamp envelope.blockTimestamp
    feeAmount := toString envelope.totalFee
    feePayer := envelope.sender
    status := if envelope.reverted then "FAILED" else "SUCCESS"
    error := if envelope.reverted then some "execution reverted" else none
    balanceEvents :=
      -- only the fee of a reverted transaction is consumed
      if envelope.reverted then []
      else envelope.balanceEvents fun a => a ∈ normalizedWatched watchedAddresses }

end Sidecar

end MultichainIndexer
