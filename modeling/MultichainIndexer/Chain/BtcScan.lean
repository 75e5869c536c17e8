import MultichainIndexer.Domain.Event
import MultichainIndexer.Lib.Gains
import MultichainIndexer.Lib.IntRange
import MultichainIndexer.Lib.Text
import Mathlib.Data.List.Sort

/-!
# The block scan of the Bitcoin adapter

`scanBlocks` fetches the blocks of a range one by one and keeps each transaction
with an output of a watched address, created or spent. The output that an input
spends comes with the block where the node supports it, and else from a query for
the previous transaction; what was found out stays in a cache for the scan.
-/

namespace MultichainIndexer

open Text IntRange

namespace Btc

structure ScriptPubKey where
  address : String
  addresses : List String
  deriving DecidableEq

structure Vin where
  txid : String
  vout : Int
  coinbase : String
  prevout : Option ScriptPubKey
  deriving DecidableEq

structure Vout where
  n : Int
  scriptPubKey : ScriptPubKey
  deriving DecidableEq

structure Transaction where
  txid : String
  blocktime : Int
  time : Int
  vin : List (Option Vin)
  vout : List (Option Vout)

structure Block where
  height : Int
  time : Int
  tx : List (Option Transaction)

/-- The node's answers. A previous transaction is asked for once for each of its outputs, and may
be answered differently each time; a null hash is read as an empty one. -/
structure Client where
  getBlockHashes : List Int → Except String (List String)
  getBlock : String → Nat → Except String (Option Block)
  getRawTransactionVerbose : String → Int → Except String (Option Transaction)

def blockVerbosityTxObjects : Nat := 2

def blockVerbosityPrevout : Nat := 3

/-- What the adapter knows of the node: `verbosity3Supported`. -/
inductive Verbosity3
  | unknown
  | supported
  | unsupported
  deriving DecidableEq

def getBlockWithVerbosity (client : Client) (known : Verbosity3) (blockHash : String) :
    Except String (Option Block) × Verbosity3 :=
  if known = .unsupported then (client.getBlock blockHash blockVerbosityTxObjects, known)
  else
    match client.getBlock blockHash blockVerbosityPrevout with
    | .ok block => (.ok block, .supported)
    | .error err =>
      if known = .supported then (.error err, known)
      else (client.getBlock blockHash blockVerbosityTxObjects, .unsupported)

def canonicalTxID (hash : String) : String :=
  toLower (trimPrefix (trimPrefix (trimSpace hash) "0x") "0X")

def normalizeAddressIdentity (address : String) : String := trimSpace address

def allOutputAddresses (script : ScriptPubKey) : List String :=
  (script.address :: script.addresses).foldl (fun addresses raw =>
    let candidate := normalizeAddressIdentity raw
    if candidate = "" ∨ candidate ∈ addresses then addresses else addresses ++ [candidate]) []

def firstOutputAddress (script : ScriptPubKey) : String := (allOutputAddresses script).headD ""

/-- The address of a resolved output under the key of its transaction and index. -/
abbrev PrevoutCache := List (String × Option String)

def cacheKey (vin : Vin) : String := canonicalTxID vin.txid ++ ":" ++ toString vin.vout

def fetchPrevout (client : Client) (vin : Vin) : Except String (Option String) :=
  match vin.prevout with
  | some script => .ok (some (firstOutputAddress script))
  | none =>
    match client.getRawTransactionVerbose (canonicalTxID vin.txid) vin.vout with
    | .error err => .error err
    | .ok none => .ok none
    | .ok (some prevTx) => .ok (((prevTx.vout.filterMap id).find? fun prevVout =>
        prevVout.n = vin.vout).map fun prevVout => firstOutputAddress prevVout.scriptPubKey)

def resolveInputPrevout (client : Client) (vin : Vin) (cache : PrevoutCache) :
    Except String (Option String × PrevoutCache) :=
  if canonicalTxID vin.txid = "" ∨ vin.vout < 0 then .ok (none, cache)
  else
    match cache.lookup (cacheKey vin) with
    | some cached => .ok (cached, cache)
    | none => (fetchPrevout client vin).map fun resolved =>
        (resolved, (cacheKey vin, resolved) :: cache)

def watches (addrs : List String) (address : String) : Bool :=
  addrs.contains (normalizeAddressIdentity address)

def touchesOutputs (addrs : List String) (vouts : List Vout) : Bool :=
  vouts.any fun vout => (allOutputAddresses vout.scriptPubKey).any (watches addrs)

def touchesInputs (client : Client) (addrs : List String) :
    List Vin → PrevoutCache → Except String (Bool × PrevoutCache)
  | [], cache => .ok (false, cache)
  | vin :: vins, cache =>
    if trimSpace vin.coinbase ≠ "" then touchesInputs client addrs vins cache
    else do
      let (prevout, cache) ← resolveInputPrevout client vin cache
      if prevout.any (watches addrs) = true then return (true, cache)
      else touchesInputs client addrs vins cache

structure Candidate where
  hash : String
  blockNum : Int
  txIndex : Nat
  blockTime : Option Int

structure ScanState where
  known : Verbosity3
  prevoutCache : PrevoutCache := []
  candidates : List Candidate := []

def unixTime (ts : Int) : Option Int := if ts ≤ 0 then none else some ts

def txTime (tx : Transaction) (blockTime : Option Int) : Option Int :=
  if 0 < tx.blocktime then some tx.blocktime
  else if 0 < tx.time then some tx.time
  else blockTime

def touches (client : Client) (addrs : List String) (tx : Transaction) (cache : PrevoutCache) :
    Except String (Bool × PrevoutCache) :=
  if touchesOutputs addrs (tx.vout.filterMap id) = true then .ok (true, cache)
  else
    (touchesInputs client addrs (tx.vin.filterMap id) cache).mapError fun err =>
      "scan resolve prevout tx=" ++ canonicalTxID tx.txid ++ ": " ++ err

/-- The first sight of a transaction counts. -/
def ScanState.addCandidate (s : ScanState) (new : Candidate) : ScanState :=
  if (s.candidates.any fun existing => existing.hash = new.hash) = true then s
  else { s with candidates := s.candidates ++ [new] }

def scanTransaction (client : Client) (addrs : List String) (height : Int) (blockTime : Option Int)
    (s : ScanState) (entry : Option Transaction × Nat) : Except String ScanState :=
  match entry.1 with
  | none => .ok s
  | some tx =>
    if canonicalTxID tx.txid = "" then .ok s
    else
      (touches client addrs tx s.prevoutCache).map fun touched =>
        let s := { s with prevoutCache := touched.2 }
        if touched.1 = true then
          s.addCandidate { hash := canonicalTxID tx.txid, blockNum := height, txIndex := entry.2,
                           blockTime := txTime tx blockTime }
        else s

def scanTransactions (client : Client) (addrs : List String) (blockNum : Int) (block : Block)
    (s : ScanState) : Except String ScanState :=
  let height := if 0 < block.height ∨ blockNum = 0 then block.height else blockNum
  block.tx.zipIdx.foldlM (scanTransaction client addrs height (unixTime block.time)) s

def scanBlock (client : Client) (addrs : List String) (s : ScanState) (entry : Int × String) :
    Except String ScanState :=
  match getBlockWithVerbosity client s.known entry.2 with
  | (.error err, _) => .error ("scan get block " ++ toString entry.1 ++ ": " ++ err)
  | (.ok none, known) => .ok { s with known := known }
  | (.ok (some block), known) =>
    scanTransactions client addrs entry.1 block { s with known := known }

def candidateBefore (a b : Candidate) : Prop :=
  a.blockNum < b.blockNum ∨ a.blockNum = b.blockNum ∧
    (a.txIndex < b.txIndex ∨ a.txIndex = b.txIndex ∧ a.hash ≤ b.hash)

instance : DecidableRel candidateBefore := fun a b => inferInstanceAs (Decidable
  (a.blockNum < b.blockNum ∨ a.blockNum = b.blockNum ∧
    (a.txIndex < b.txIndex ∨ a.txIndex = b.txIndex ∧ a.hash ≤ b.hash)))

def ScanState.signatures (s : ScanState) : List SignatureInfo :=
  (s.candidates.insertionSort candidateBefore).map fun candidate =>
    { hash := candidate.hash, sequence := candidate.blockNum, time := candidate.blockTime }

def addrSet (watchedAddresses : List String) : List String :=
  (watchedAddresses.map normalizeAddressIdentity).filter (· ≠ "")

def scanBlocks (client : Client) (known : Verbosity3) (startBlock endBlock : Int)
    (watchedAddresses : List String) : Except String (List SignatureInfo) :=
  if startBlock > endBlock ∨ watchedAddresses = [] then .ok []
  else
    match client.getBlockHashes (between startBlock endBlock) with
    | .error err => .error ("scan batch get block hashes " ++ toString startBlock ++ "-" ++
        toString endBlock ++ ": " ++ err)
    | .ok blockHashes =>
      (((between startBlock endBlock).zip blockHashes).foldlM
        (scanBlock client (addrSet watchedAddresses)) { known := known }).map ScanState.signatures

end Btc
end MultichainIndexer
