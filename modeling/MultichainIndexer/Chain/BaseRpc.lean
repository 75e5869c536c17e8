import MultichainIndexer.Domain.Model
import MultichainIndexer.Lib.Js

/-!
# The RPC answers of an EVM node

The data that the adapter reads from a node, the node's answers as a function of
the request, and what it means that the answers tell the truth about a chain: an
error or a null says nothing, every other answer agrees with the blocks.
-/

namespace MultichainIndexer

open Text

namespace Base

structure Transaction where
  hash : String
  transactionIndex : String
  fromAddress : String
  toAddress : String
  deriving DecidableEq

structure Block where
  timestamp : String
  transactions : List (Option Transaction)

structure Log where
  address : String
  topics : List String
  data : String
  blockNumber : String
  transactionHash : String
  transactionIndex : String
  logIndex : String
  removed : Bool
  deriving DecidableEq

structure TransactionReceipt where
  transactionHash : String
  blockNumber : String
  transactionIndex : String
  logs : List (Option Log)

inductive CallFrame
  | mk (fromAddress toAddress value : String) (calls : List (Option CallFrame))

structure BlockTrace where
  txHash : String
  result : CallFrame

inductive Topic
  | null
  | one (topic : String)
  | anyOf (topics : List String)

structure Client where
  getBlockByNumber : Int → Except String (Option Block)
  getBlocksByNumber : List Int → Except String (List (Option Block))
  getTransactionReceipt : String → Except String (Option TransactionReceipt)
  getTransactionReceiptsByHash : List String → Except String (List (Option TransactionReceipt))
  getLogs : Int → Int → List Topic → Except String (List Log)
  traceBlockByNumber : Int → Except String (List (Option BlockTrace))

def parseHexInt64 (value : String) : Option Int :=
  let raw := trimSpace value
  if raw = "" then none
  else
    let raw := trimPrefix (toLower raw) "0x"
    if raw = "" then some 0
    else (Js.parseRadix 16 raw.toList).bind fun n => if n < 2 ^ 64 then some (wrap64 n) else none

def sameTopic (got expected : String) : Bool := equalFold (trimSpace got) (trimSpace expected)

def Topic.accepts : Topic → Option String → Bool
  | .null, _ => true
  | .one expected, some got => sameTopic got expected
  | .anyOf expected, some got => expected.any (sameTopic got)
  | _, none => false

def positionsAccept (accepts : Topic → Option String → Bool) (topics : List Topic) (log : Log) :
    Bool :=
  topics.zipIdx.all fun position => accepts position.1 log.topics[position.2]?

def matchesFilter (topics : List Topic) (log : Log) : Bool :=
  positionsAccept Topic.accepts topics log

/-- The log of a receipt with the fields that the receipt gives for all of its logs. -/
def fillLog (receipt : TransactionReceipt) (entry : Log) : Log :=
  { entry with
    transactionHash :=
      if trimSpace entry.transactionHash = "" then receipt.transactionHash
      else entry.transactionHash
    blockNumber :=
      if trimSpace entry.blockNumber = "" then receipt.blockNumber else entry.blockNumber
    transactionIndex :=
      if trimSpace entry.transactionIndex = "" then receipt.transactionIndex
      else entry.transactionIndex }

def filledLogs (receipt : TransactionReceipt) : List Log :=
  (receipt.logs.filterMap id).map (fillLog receipt)

structure Mined where
  tx : Transaction
  logs : List Log

/-- The blocks of a chain. Hashes name transactions, and a log carries its place. -/
structure Ledger where
  mined : Int → List Mined
  hash_ne_blank : ∀ {b m}, m ∈ mined b → trimSpace m.tx.hash ≠ ""
  hash_inj : ∀ {b b' m m'}, m ∈ mined b → m' ∈ mined b' → m.tx.hash = m'.tx.hash → b = b' ∧ m = m'
  log_hash : ∀ {b m l}, m ∈ mined b → l ∈ m.logs → l.transactionHash = m.tx.hash
  log_block : ∀ {b m l}, m ∈ mined b → l ∈ m.logs → parseHexInt64 l.blockNumber = some b

variable (ledger : Ledger)

def LogInRange (lo hi : Int) (l : Log) : Prop :=
  ∃ b m, lo ≤ b ∧ b ≤ hi ∧ m ∈ ledger.mined b ∧ l ∈ m.logs

def ExactLogs (lo hi : Int) (topics : List Topic) (logs : List Log) : Prop :=
  ∀ l, l ∈ logs ↔ LogInRange ledger lo hi l ∧ matchesFilter topics l = true

def BlockTells (b : Int) (block : Block) : Prop :=
  block.transactions.filterMap id = (ledger.mined b).map Mined.tx

def ReceiptTells (hash : String) (receipt : TransactionReceipt) : Prop :=
  ∀ b m, m ∈ ledger.mined b → m.tx.hash = hash → filledLogs receipt = m.logs

/-- An answer that is neither an error nor null agrees with the chain. -/
structure Client.Truthful (client : Client) : Prop where
  block : ∀ {b block}, client.getBlockByNumber b = .ok (some block) → BlockTells ledger b block
  blocks : ∀ {bs blocks}, client.getBlocksByNumber bs = .ok blocks → blocks.length ≤ bs.length ∧
    ∀ (i : Nat) b block, bs[i]? = some b → blocks[i]? = some (some block) → BlockTells ledger b block
  receipt : ∀ {hash receipt}, client.getTransactionReceipt hash = .ok (some receipt) →
    ReceiptTells ledger hash receipt
  receipts : ∀ {hashes receipts}, client.getTransactionReceiptsByHash hashes = .ok receipts →
    receipts.length ≤ hashes.length ∧ ∀ (i : Nat) hash receipt, hashes[i]? = some hash →
      receipts[i]? = some (some receipt) → ReceiptTells ledger hash receipt
  logs : ∀ {lo hi topics logs}, client.getLogs lo hi topics = .ok logs →
    ExactLogs ledger lo hi topics logs

variable {ledger}

theorem Ledger.log_home {b b' : Int} {m m' : Mined} {l : Log} (hm : m ∈ ledger.mined b)
    (hm' : m' ∈ ledger.mined b') (hl : l ∈ m.logs) (hl' : l ∈ m'.logs) : b = b' ∧ m = m' := by
  apply ledger.hash_inj hm hm'
  rw [← ledger.log_hash hm hl, ledger.log_hash hm' hl']

theorem mem_filledLogs {receipt : TransactionReceipt} {l : Log} :
    l ∈ filledLogs receipt ↔ ∃ entry, some entry ∈ receipt.logs ∧ fillLog receipt entry = l := by
  simp [filledLogs]

end Base
end MultichainIndexer
