import MultichainIndexer.Chain.BtcScan

/-!
# The transactions of the Bitcoin adapter

`fetchTransactions` turns each transaction into an envelope for the decoder. The
output that an input spends is looked up in a cache, taken from the input where
the node sent it along, or asked for; before that one call fetches the
transactions of all inputs without it, and every output of theirs goes into the
cache. An amount that cannot be read counts as zero in an input and is an error in
an output. The cache of the scan has no amounts; the types here have them.
-/

namespace MultichainIndexer

open Text

namespace BtcFetch

open Btc (ScriptPubKey canonicalTxID firstOutputAddress normalizeAddressIdentity)

structure Prevout where
  value : String
  scriptPubKey : ScriptPubKey
  deriving DecidableEq

structure Vin where
  txid : String
  vout : Int
  coinbase : String := ""
  prevout : Option Prevout := none
  deriving DecidableEq

structure Vout where
  value : String
  n : Int
  scriptPubKey : ScriptPubKey
  deriving DecidableEq

structure Transaction where
  txid : String
  blockhash : String := ""
  blocktime : Int := 0
  time : Int := 0
  confirmations : Int := 0
  vin : List (Option Vin)
  vout : List (Option Vout)

/-! ## Amounts -/

def exponentOf : List Char → Option Int
  | [] => some 0
  | 'e' :: l | 'E' :: l => parseInt (String.ofList l)
  | _ => none

/-- The digits before and after the point, and what comes after them. -/
def pointed (l : List Char) : List Char × List Char × List Char :=
  match l.dropWhile Char.isDigit with
  | '.' :: rest => (l.takeWhile Char.isDigit, rest.takeWhile Char.isDigit,
      rest.dropWhile Char.isDigit)
  | rest => (l.takeWhile Char.isDigit, [], rest)

/-- The mantissa and the exponent of a JSON number, as `big.Rat` reads it: without exponents of
more than a million. -/
def ratLiteral (raw : String) : Option (Int × Int) :=
  let negative := raw.toList.head? = some '-'
  let (whole, fraction, rest) := pointed (if negative then raw.toList.tail else raw.toList)
  match parseDigits (whole ++ fraction), exponentOf rest with
  | some mantissa, some exponent =>
    let exponent := exponent - fraction.length
    if mantissa ≠ 0 ∧ (10 ^ 6 < exponent ∨ exponent < -10 ^ 6) then none
    else some (if negative then -(mantissa : Int) else mantissa, exponent)
  | _, _ => none

def parseBTCValueToSatoshi (value : String) : Except String Int :=
  let raw := trimSpace value
  if raw = "" then .ok 0
  else
    match ratLiteral raw with
    | none => .error ("invalid btc amount \"" ++ raw ++ "\"")
    | some (mantissa, exponent) =>
      if exponent + 8 < 0 ∧ mantissa % 10 ^ (-(exponent + 8)).toNat ≠ 0 then
        .error ("btc amount \"" ++ raw ++ "\" is not satoshi-aligned")
      else
        let sats := if exponent + 8 < 0 then mantissa / 10 ^ (-(exponent + 8)).toNat
          else mantissa * 10 ^ (exponent + 8).toNat
        if IsInt64 sats then .ok sats
        else .error ("btc amount \"" ++ raw ++ "\" out of range")

example : (parseBTCValueToSatoshi "0.5").toOption = some 50000000 ∧
    (parseBTCValueToSatoshi "1e-8").toOption = some 1 ∧
    (parseBTCValueToSatoshi "0.000000001").toOption = none := by decide +kernel

/-! ## Previous outputs -/

/-- The answers of the node in one call of `fetchTransactions`: the transactions, the previous
transactions of the prefetch, a previous transaction for one of its outputs, and the heights of
blocks, all at once and for one transaction. -/
structure Client where
  getRawTransactionsVerbose : List String → Except String (List (Option Transaction))
  getPreviousTransactions : List String → Except String (List (Option Transaction))
  getRawTransactionVerbose : String → Int → Except String (Option Transaction)
  getBlocks : List String → Except String (List (Option Int))
  getBlock : Nat → String → Except String (Option Int)

structure Resolved where
  address : String
  valueSat : Int
  deriving DecidableEq

/-- What was resolved, by transaction and index; `none` for an output that was not found. -/
abbrev PrevoutCache := List (String × Option Resolved)

def outpoint (txid : String) (n : Int) : String := txid ++ ":" ++ toString n

def satOrZero (value : String) : Int := (parseBTCValueToSatoshi value).toOption.getD 0

def resolvedPrevout (value : String) (script : ScriptPubKey) : Resolved :=
  ⟨firstOutputAddress script, satOrZero value⟩

def outputAt (vouts : List Vout) (n : Int) : Option Resolved :=
  (vouts.find? fun vout => vout.n = n).map fun vout =>
    resolvedPrevout vout.value vout.scriptPubKey

def fetchPrevout (client : Client) (vin : Vin) : Except String (Option Resolved) :=
  match vin.prevout with
  | some prevout => .ok (some (resolvedPrevout prevout.value prevout.scriptPubKey))
  | none =>
    match client.getRawTransactionVerbose (canonicalTxID vin.txid) vin.vout with
    | .error err => .error err
    | .ok none => .ok none
    | .ok (some prevTx) => .ok (outputAt (prevTx.vout.filterMap id) vin.vout)

def resolveInputPrevout (client : Client) (vin : Vin) (cache : PrevoutCache) :
    Except String (Option Resolved × PrevoutCache) :=
  if canonicalTxID vin.txid = "" ∨ vin.vout < 0 then .ok (none, cache)
  else
    match cache.lookup (outpoint (canonicalTxID vin.txid) vin.vout) with
    | some cached => .ok (cached, cache)
    | none => (fetchPrevout client vin).map fun resolved =>
        (resolved, (outpoint (canonicalTxID vin.txid) vin.vout, resolved) :: cache)

def firstSight (l : List String) : List String :=
  l.foldl (fun seen s => if s ∈ seen then seen else seen ++ [s]) []

/-- The transactions whose outputs are spent and are not there yet. The cache is empty when the
adapter asks for them. -/
def missingTxIDs (txs : List (Option Transaction)) (cache : PrevoutCache) : List String :=
  let vins := (txs.filterMap id).flatMap fun tx => tx.vin.filterMap id
  firstSight ((vins.filter fun vin => vin.prevout.isNone && trimSpace vin.coinbase = "" &&
    canonicalTxID vin.txid ≠ "" &&
    (cache.lookup (outpoint (canonicalTxID vin.txid) vin.vout)).isNone).map
      fun vin => canonicalTxID vin.txid)

def cacheOutputs (cache : PrevoutCache) (entry : String × Option Transaction) : PrevoutCache :=
  match entry.2 with
  | none => cache
  | some prevTx => (prevTx.vout.filterMap id).foldl (fun cache vout =>
      (outpoint (canonicalTxID entry.1) vout.n,
        some (resolvedPrevout vout.value vout.scriptPubKey)) :: cache) cache

/-- The cache is left as it is when the call fails; there is an answer for each transaction. -/
def prefetchPrevouts (client : Client) (txs : List (Option Transaction)) (cache : PrevoutCache) :
    PrevoutCache :=
  if missingTxIDs txs cache = [] then cache
  else
    match client.getPreviousTransactions (missingTxIDs txs cache) with
    | .error _ => cache
    | .ok prevTxs => ((missingTxIDs txs cache).zip prevTxs).foldl cacheOutputs cache

/-! ## Blocks -/

abbrev BlockCache := List (String × Int)

def prefetchBlocks (client : Client) (txs : List (Option Transaction)) : BlockCache :=
  let hashes := firstSight (((txs.filterMap id).map fun tx => canonicalTxID tx.blockhash).filter
    (· ≠ ""))
  if hashes = [] then []
  else
    match client.getBlocks hashes with
    | .error _ => []
    | .ok blocks => (hashes.zip blocks).filterMap fun entry => entry.2.map fun height =>
        (entry.1, height)

def blockHeight (client : Client) (index : Nat) (txid blockHash : String) (blocks : BlockCache) :
    Except String (Int × BlockCache) :=
  if blockHash = "" then .ok (0, blocks)
  else
    match blocks.lookup blockHash with
    | some height => .ok (height, blocks)
    | none =>
      match client.getBlock index blockHash with
      | .error err => .error ("fetch block " ++ blockHash ++ " for tx " ++ txid ++ ": " ++ err)
      | .ok none => .ok (0, blocks)
      | .ok (some height) => .ok (height, (blockHash, height) :: blocks)

/-! ## Envelopes -/

structure EnvelopeIn where
  index : Nat
  txid : String
  vout : Int
  address : String := ""
  valueSat : String := ""
  coinbase : Bool := false
  deriving DecidableEq

structure EnvelopeOut where
  index : Int
  address : String
  valueSat : String
  deriving DecidableEq

structure Envelope where
  txid : String
  blockHeight : Int
  blockHash : String
  blockTime : Int
  confirmations : Int
  vin : List EnvelopeIn
  vout : List EnvelopeOut
  feeSat : String
  feePayer : String
  deriving DecidableEq

/-- An input after its output was resolved, with the output of an input that is not a coinbase. -/
structure Input where
  index : Nat
  txid : String
  vout : Int
  coinbase : Bool
  prevout : Option Resolved

def resolveInput (client : Client) (txid : String) (vin : Vin) (index : Nat)
    (cache : PrevoutCache) : Except String (Input × PrevoutCache) :=
  if trimSpace vin.coinbase ≠ "" then
    .ok (⟨index, canonicalTxID vin.txid, vin.vout, true, none⟩, cache)
  else
    match resolveInputPrevout client vin cache with
    | .error err => .error ("resolve input prevout tx=" ++ txid ++ " vin=" ++ toString index ++
        ": " ++ err)
    | .ok (prevout, cache) =>
      .ok (⟨index, canonicalTxID vin.txid, vin.vout, false, prevout⟩, cache)

def resolveInputs (client : Client) (txid : String) :
    List (Option Vin × Nat) → PrevoutCache → Except String (List Input × PrevoutCache)
  | [], cache => .ok ([], cache)
  | (none, _) :: rest, cache => resolveInputs client txid rest cache
  | (some vin, index) :: rest, cache => do
    let (input, cache) ← resolveInput client txid vin index cache
    let (inputs, cache) ← resolveInputs client txid rest cache
    return (input :: inputs, cache)

def Input.envelopeIn (input : Input) : EnvelopeIn :=
  { index := input.index, txid := input.txid, vout := input.vout, coinbase := input.coinbase
    address := (input.prevout.map fun prevout => normalizeAddressIdentity prevout.address).getD ""
    valueSat := (input.prevout.map fun prevout => toString prevout.valueSat).getD "" }

/-- A sum in 64 bits. -/
def total (values : List Int) : Int := values.foldl (fun sum value => wrap64 (sum + value)) 0

def inputValues (inputs : List Input) : List Int :=
  inputs.filterMap fun input => input.prevout.map Resolved.valueSat

def inputAddresses (inputs : List Input) : List String :=
  (inputs.filterMap fun input => input.prevout.map fun prevout =>
    normalizeAddressIdentity prevout.address).filter (· ≠ "")

def deterministicAddress (values : List String) : String :=
  (((values.map normalizeAddressIdentity).filter (· ≠ "")).insertionSort (· ≤ ·)).headD ""

def outputValue (txid : String) (vout : Vout) : Except String Int :=
  (parseBTCValueToSatoshi vout.value).mapError fun err =>
    "parse tx=" ++ txid ++ " vout=" ++ toString vout.n ++ " value: " ++ err

def EnvelopeOut.before (a b : EnvelopeOut) : Prop :=
  a.index < b.index ∨ a.index = b.index ∧ a.address ≤ b.address

instance : DecidableRel EnvelopeOut.before := fun a b =>
  inferInstanceAs (Decidable (a.index < b.index ∨ a.index = b.index ∧ a.address ≤ b.address))

def envelopeOuts (vouts : List Vout) (values : List Int) : List EnvelopeOut :=
  ((vouts.zip values).map fun entry =>
    ({ index := entry.1.n, address := firstOutputAddress entry.1.scriptPubKey,
       valueSat := toString entry.2 } : EnvelopeOut)).insertionSort EnvelopeOut.before

def feeSat (totalIn totalOut : Int) : Int :=
  if 0 < totalIn ∧ totalOut ≤ totalIn then wrap64 (totalIn - totalOut) else 0

def pickBlockTime (tx : Transaction) : Int :=
  if 0 < tx.blocktime then tx.blocktime else if 0 < tx.time then tx.time else 0

def envelope (txid : String) (tx : Transaction) (height : Int) (inputs : List Input) :
    Except String Envelope :=
  ((tx.vout.filterMap id).mapM (outputValue txid)).map fun values =>
    { txid := if canonicalTxID tx.txid = "" then txid else canonicalTxID tx.txid
      blockHeight := height
      blockHash := canonicalTxID tx.blockhash
      blockTime := pickBlockTime tx
      confirmations := tx.confirmations
      vin := inputs.map Input.envelopeIn
      vout := envelopeOuts (tx.vout.filterMap id) values
      feeSat := toString (feeSat (total (inputValues inputs)) (total values))
      feePayer := deterministicAddress (inputAddresses inputs) }

structure Entry where
  index : Nat
  txid : String
  tx : Option Transaction

def fetchEntries (client : Client) :
    List Entry → PrevoutCache → BlockCache → Except String (List Envelope)
  | [], _, _ => .ok []
  | entry :: rest, prevouts, blocks =>
    match entry.tx with
    | none => .error ("transaction " ++ entry.txid ++ " not found")
    | some tx => do
      let (height, blocks) ← blockHeight client entry.index entry.txid (canonicalTxID tx.blockhash)
        blocks
      let (inputs, prevouts) ← resolveInputs client entry.txid tx.vin.zipIdx prevouts
      let env ← envelope entry.txid tx height inputs
      let envs ← fetchEntries client rest prevouts blocks
      return env :: envs

def entries (txids : List String) (txs : List (Option Transaction)) : List Entry :=
  (txids.zip txs).zipIdx.map fun entry => ⟨entry.2, entry.1.1, entry.1.2⟩

def fetchTransactions (client : Client) (signatures : List String) :
    Except String (List Envelope) :=
  if signatures = [] then .ok []
  else
    match (signatures.map canonicalTxID).findIdx? (· = "") with
    | some i => .error ("empty tx id in signatures[" ++ toString i ++ "]")
    | none =>
      match client.getRawTransactionsVerbose (signatures.map canonicalTxID) with
      | .error err => .error ("batch fetch transactions: " ++ err)
      | .ok txs => fetchEntries client (entries (signatures.map canonicalTxID) txs)
          (prefetchPrevouts client txs []) (prefetchBlocks client txs)

end BtcFetch

end MultichainIndexer
