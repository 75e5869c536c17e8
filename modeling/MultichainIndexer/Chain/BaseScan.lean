import MultichainIndexer.Chain.ExactLogs
import MultichainIndexer.Domain.Event
import MultichainIndexer.Lib.Accumulate
import MultichainIndexer.Lib.Gains
import MultichainIndexer.Lib.IntRange
import Mathlib.Data.List.Sort

/-!
# The block scan of the EVM adapter

`scanBlocks` looks for the transactions of a range that touch a watched address:
by sender and recipient in the blocks, fetched fifty at a time, by the topics of
the logs, and where tracing is on by the internal calls. The node is asked in
stages; its answers may differ from one stage to the next.
-/

namespace MultichainIndexer

open Text IntRange

namespace Base

inductive Stage
  | blocks
  | logs (position : Nat)
  | traces

structure Candidate where
  blockNum : Int
  txIndex : Int
  blockTime : Option Int
  deriving DecidableEq

structure ScanState where
  candidates : List (String × Candidate) := []
  blockTimeByNum : List (Int × Option Int) := []

def compareTxIndex (a b : Int) : Int :=
  if a = b then 0
  else if a < 0 ∧ b < 0 then 0
  else if a < 0 then 1
  else if b < 0 then -1
  else if a < b then -1
  else 1

def Candidate.earlier (existing new : Candidate) : Candidate :=
  let moved := if existing.blockNum > new.blockNum ∨ existing.blockNum = new.blockNum ∧
      compareTxIndex existing.txIndex new.txIndex > 0
    then { existing with blockNum := new.blockNum, txIndex := new.txIndex } else existing
  { moved with blockTime := moved.blockTime.or new.blockTime }

def ScanState.upsertCandidate (s : ScanState) (hash : String) (new : Candidate) : ScanState :=
  if trimSpace hash = "" then s
  else { s with candidates := Accumulate.bump hash new (·.earlier new) s.candidates }

def ScanState.timeOf (s : ScanState) (blockNum : Int) : Option Int :=
  (s.blockTimeByNum.find? fun entry => entry.1 = blockNum).bind (·.2)

def addrSet (watchedAddresses : List String) : List String :=
  watchedAddresses.map fun addr => toLower (trimSpace addr)

def watchedParty (addrs : List String) (party : String) : Bool :=
  addrs.contains (toLower (trimSpace party))

def scanTransaction (addrs : List String) (blockNum : Int) (blockTime : Option Int) (s : ScanState) :
    Option Transaction → ScanState
  | none => s
  | some tx =>
    if trimSpace tx.hash = "" then s
    else if !watchedParty addrs tx.fromAddress && !watchedParty addrs tx.toAddress then s
    else s.upsertCandidate tx.hash
      { blockNum := blockNum, txIndex := (parseHexInt64 tx.transactionIndex).getD (-1),
        blockTime := blockTime }

def blockTimeOf (block : Block) : Option Int :=
  (parseHexInt64 block.timestamp).filter (0 < ·)

def scanBlock (addrs : List String) (s : ScanState) : Int × Option Block → ScanState
  | (_, none) => s
  | (blockNum, some block) =>
    block.transactions.foldl (scanTransaction addrs blockNum (blockTimeOf block))
      { s with blockTimeByNum := (blockNum, blockTimeOf block) :: s.blockTimeByNum }

def blockFetchBatchSize : Int := 50

def batchEnd (batchStart endBlock : Int) : Int :=
  if batchStart + blockFetchBatchSize - 1 > endBlock then endBlock
  else batchStart + blockFetchBatchSize - 1

def scanBatch (client : Client) (addrs : List String) (fromBlock toBlock : Int) (s : ScanState) :
    Except String ScanState :=
  match client.getBlocksByNumber (between fromBlock toBlock) with
  | .error err => .error ("batch scan blocks " ++ toString fromBlock ++ "-" ++ toString toBlock ++
      ": " ++ err)
  | .ok blocks => .ok (((between fromBlock toBlock).zip blocks).foldl (scanBlock addrs) s)

def scanBatches (client : Client) (addrs : List String) (batchStart endBlock : Int)
    (s : ScanState) : Except String ScanState :=
  if batchStart ≤ endBlock then do
    let s ← scanBatch client addrs batchStart (batchEnd batchStart endBlock) s
    scanBatches client addrs (batchStart + blockFetchBatchSize) endBlock s
  else .ok s
  termination_by (endBlock - batchStart + 1).toNat
  decreasing_by
    unfold blockFetchBatchSize
    omega

def addressTopicFromNormalized (addr : String) : String :=
  if (trimPrefix addr "0x").utf8ByteSize ≠ 40 then ""
  else "0x000000000000000000000000" ++ trimPrefix addr "0x"

/-- The topics of the watched addresses. The source ranges over a set; the order is not fixed. -/
def addrTopics (addrs : List String) : List String :=
  (addrs.dedup.map addressTopicFromNormalized).filter (· ≠ "")

def topicFilter (topics : List String) (position : Nat) : List Topic :=
  List.replicate (position + 1) .null ++ [.anyOf topics]

def scanLog (s : ScanState) (entry : Log) : ScanState :=
  if trimSpace entry.transactionHash = "" then s
  else
    match parseHexInt64 entry.blockNumber with
    | none => s
    | some blockNum => s.upsertCandidate entry.transactionHash
      { blockNum := blockNum, txIndex := (parseHexInt64 entry.transactionIndex).getD (-1),
        blockTime := s.timeOf blockNum }

def scanLogs (client : Client) (startBlock endBlock : Int) (topics : List Topic) (s : ScanState) :
    Except String ScanState :=
  match fetchLogsWithFallback client startBlock endBlock topics with
  | .error err => .error ("scan logs: " ++ err)
  | .ok logs => .ok (logs.foldl scanLog s)

def scanTopics (client : Stage → Client) (startBlock endBlock : Int) (topics : List String)
    (s : ScanState) : Except String ScanState :=
  if topics = [] then .ok s
  else [0, 1, 2].foldlM (fun s position =>
    scanLogs (client (.logs position)) startBlock endBlock (topicFilter topics position) s) s

mutual

def hasInternalTransferToWatched (addrs : List String) : CallFrame → Bool
  | .mk fromAddress toAddress value calls =>
    (value ≠ "" && value ≠ "0x0" && value ≠ "0x" && value ≠ "0" &&
      (watchedParty addrs fromAddress || watchedParty addrs toAddress)) ||
    anyInternalTransfer addrs calls

def anyInternalTransfer (addrs : List String) : List (Option CallFrame) → Bool
  | [] => false
  | none :: calls => anyInternalTransfer addrs calls
  | some child :: calls => hasInternalTransferToWatched addrs child || anyInternalTransfer addrs calls

end

def traceBlock (client : Client) (addrs : List String) (blockNum : Int) :
    Except String (List (String × Int)) :=
  match client.traceBlockByNumber blockNum with
  | .error err => .error ("trace block " ++ toString blockNum ++ ": " ++ err)
  | .ok traces => .ok (((traces.filterMap id).filter fun trace =>
      hasInternalTransferToWatched addrs trace.result).map fun trace => (trace.txHash, blockNum))

def scanInternalTransfers (client : Client) (startBlock endBlock : Int) (addrs : List String) :
    Except String (List (String × Int)) :=
  (between startBlock endBlock).foldlM (fun candidates blockNum =>
    (traceBlock client addrs blockNum).map fun found => candidates ++ found) []

def upsertTrace (s : ScanState) (entry : String × Int) : ScanState :=
  s.upsertCandidate entry.1
    { blockNum := entry.2, txIndex := -1, blockTime := s.timeOf entry.2 }

def scanTraces (traceEnabled : Bool) (client : Client) (startBlock endBlock : Int)
    (addrs : List String) (s : ScanState) : ScanState :=
  if traceEnabled = true then
    match scanInternalTransfers client startBlock endBlock addrs with
    | .error _ => s
    | .ok found => found.foldl upsertTrace s
  else s

/-- Oldest first: by block, index in the block, and hash. -/
def candidateBefore (a b : String × Candidate) : Prop :=
  a.2.blockNum < b.2.blockNum ∨ a.2.blockNum = b.2.blockNum ∧
    (compareTxIndex a.2.txIndex b.2.txIndex < 0 ∨
      compareTxIndex a.2.txIndex b.2.txIndex = 0 ∧ a.1 ≤ b.1)

instance : DecidableRel candidateBefore := fun a b => inferInstanceAs (Decidable
  (a.2.blockNum < b.2.blockNum ∨ a.2.blockNum = b.2.blockNum ∧
    (compareTxIndex a.2.txIndex b.2.txIndex < 0 ∨
      compareTxIndex a.2.txIndex b.2.txIndex = 0 ∧ a.1 ≤ b.1)))

def ScanState.signatures (s : ScanState) : List SignatureInfo :=
  (s.candidates.insertionSort candidateBefore).map fun entry =>
    { hash := entry.1, sequence := entry.2.blockNum, time := entry.2.blockTime }

def scanBlocks (traceEnabled : Bool) (client : Stage → Client) (startBlock endBlock : Int)
    (watchedAddresses : List String) : Except String (List SignatureInfo) :=
  if startBlock > endBlock ∨ watchedAddresses = [] then .ok []
  else do
    let s ← scanBatches (client .blocks) (addrSet watchedAddresses) startBlock endBlock {}
    let s ← scanTopics client startBlock endBlock (addrTopics (addrSet watchedAddresses)) s
    return (scanTraces traceEnabled (client .traces) startBlock endBlock
      (addrSet watchedAddresses) s).signatures

end Base
end MultichainIndexer
