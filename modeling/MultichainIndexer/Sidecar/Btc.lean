import MultichainIndexer.Lib.Js
import MultichainIndexer.Normalizer.Response

/-!
# The decoder of Bitcoin transactions

Each input that spends from a watched address and each output that pays one is a
balance event under the path of the input or output. The fee is the one of the
envelope, or else what the inputs leave over; its payer is named by the envelope,
or else the least address among the inputs.
-/

namespace MultichainIndexer

namespace Sidecar

def normalizeString (value : Option String) : String := Js.trim (value.getD "")

def toBigInt : Js.Scalar → Int
  | .absent => 0
  | .number n => n
  | .text s => (Js.bigInt (Js.trim s)).getD 0

/-- On texts of integers; `Number` also reads fractions and exponents. -/
def toInt : Js.Scalar → Int
  | .absent => 0
  | .number n => n
  | .text s => (Js.bigInt (Js.trim s)).getD 0

structure BTCVin where
  index : Option Int := none
  txid : Option String := none
  vout : Option Int := none
  address : Option String := none
  valueSat : Js.Scalar := .absent
  coinbase : Bool := false
  deriving DecidableEq

structure BTCVout where
  index : Option Int := none
  address : Option String := none
  valueSat : Js.Scalar := .absent
  deriving DecidableEq

structure BTCEnvelope where
  txid : Option String := none
  blockHeight : Js.Scalar := .absent
  blockTime : Js.Scalar := .absent
  confirmations : Js.Scalar := .absent
  feeSat : Js.Scalar := .absent
  feePayer : Option String := none
  vin : List BTCVin := []
  vout : List BTCVout := []

/-- The number in a path, zero for an index that is missing or negative. -/
def pathIndex (index : Option Int) : Int := if 0 ≤ index.getD (-1) then index.getD (-1) else 0

def utxoPath (kind : String) (index : Option Int) : String :=
  kind ++ ":" ++ toString (pathIndex index)

def utxoEvent (index : Option Int) (eventAction address delta : String) (metadata : Metadata) :
    BalanceEventInfo where
  outerInstructionIndex := index.getD (-1)
  innerInstructionIndex := -1
  eventCategory := "TRANSFER"
  eventAction := eventAction
  programId := "btc"
  address := address
  contractAddress := "BTC"
  delta := delta
  counterpartyAddress := ""
  tokenSymbol := "BTC"
  tokenName := "Bitcoin"
  tokenDecimals := 8
  tokenType := "NATIVE"
  metadata := metadata

def vinEvent (finalityState : String) (vin : BTCVin) : BalanceEventInfo :=
  utxoEvent vin.index "vin_spend" (normalizeString vin.address)
    ("-" ++ toString (toBigInt vin.valueSat))
    [("event_path", utxoPath "vin" vin.index), ("utxo_path_type", "vin"),
      ("input_txid", normalizeString vin.txid), ("input_vout", (vin.vout.map toString).getD ""),
      ("finality_state", finalityState)]

def voutEvent (finalityState : String) (vout : BTCVout) : BalanceEventInfo :=
  utxoEvent vout.index "vout_receive" (normalizeString vout.address)
    (toString (toBigInt vout.valueSat))
    [("event_path", utxoPath "vout" vout.index), ("utxo_path_type", "vout"),
      ("finality_state", finalityState)]

def deterministicAddress (values : List String) : String :=
  ((values.filter (· ≠ "")).insertionSort (· ≤ ·)).headD ""

namespace BTCEnvelope
variable (payload : BTCEnvelope)

def spends : List BTCVin := payload.vin.filter fun vin => !vin.coinbase

def fee : Int :=
  let feeSat := toBigInt payload.feeSat
  let totalInputSat := (payload.spends.map fun vin => toBigInt vin.valueSat).sum
  let totalOutputSat := (payload.vout.map fun vout => toBigInt vout.valueSat).sum
  if feeSat ≤ 0 ∧ 0 < totalInputSat ∧ totalOutputSat ≤ totalInputSat then
    totalInputSat - totalOutputSat
  else feeSat

def payer : String :=
  let named := normalizeString payload.feePayer
  if named ≠ "" then named
  else deterministicAddress (payload.spends.map fun vin => normalizeString vin.address)

end BTCEnvelope

def decodeBTCTransaction (payload : BTCEnvelope) (signature : String)
    (watchedAddresses : List String) : TransactionResult :=
  let txid := normalizeString payload.txid
  let finalityState := if 0 < toInt payload.confirmations then "confirmed" else "processed"
  let watched := (watchedAddresses.map Js.trim).filter (· ≠ "")
  { txHash := if txid ≠ "" then txid else Js.trim signature
    blockCursor := toInt payload.blockHeight
    blockTime := toInt payload.blockTime
    feeAmount := toString payload.fee
    feePayer := payload.payer
    status := "SUCCESS"
    balanceEvents :=
      ((payload.spends.filter fun vin =>
        normalizeString vin.address ∈ watched && 0 < toBigInt vin.valueSat).map
          (vinEvent finalityState)) ++
      ((payload.vout.filter fun vout =>
        normalizeString vout.address ∈ watched && 0 < toBigInt vout.valueSat).map
          (voutEvent finalityState)) }

end Sidecar

end MultichainIndexer
