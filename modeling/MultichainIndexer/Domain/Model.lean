import Mathlib.Algebra.Group.Int.Defs
import Mathlib.Algebra.Group.Nat.Defs

/-!
# Domain model

The values that the pipeline stages and the store exchange. Block numbers,
slots and cursors are `Int`; where the code adds or subtracts one, `wrap64`
keeps the result in the range of `int64`. A time is a Unix time stamp. JSON
chain data is always an object of strings, so it is its list of members.
-/

namespace MultichainIndexer

inductive Chain where
  | solana | ethereum | base | btc | polygon | arbitrum | bsc
  deriving DecidableEq

inductive Network where
  | mainnet | devnet | testnet | sepolia | amoy
  deriving DecidableEq

def Chain.text : Chain → String
  | .solana => "solana"
  | .ethereum => "ethereum"
  | .base => "base"
  | .btc => "btc"
  | .polygon => "polygon"
  | .arbitrum => "arbitrum"
  | .bsc => "bsc"

def Network.text : Network → String
  | .mainnet => "mainnet"
  | .devnet => "devnet"
  | .testnet => "testnet"
  | .sepolia => "sepolia"
  | .amoy => "amoy"

theorem Chain.text_inj {chain chain' : Chain} (h : chain.text = chain'.text) : chain = chain' := by
  revert h
  cases chain <;> cases chain' <;> decide

theorem Network.text_inj {network network' : Network} (h : network.text = network'.text) :
    network = network' := by
  revert h
  cases network <;> cases network' <;> decide

/-- The status is whatever the decoder reported; only `FAILED` is told apart. -/
inductive TxStatus where
  | success | failed | other (text : String)
  deriving DecidableEq

inductive TokenType where
  | native | fungible | nft | other (text : String)
  deriving DecidableEq

inductive ActivityType where
  | deposit | withdrawal | stake | unstake | claimReward | fee | feeExecutionL2 | feeDataL1
  | swap | mint | burn | other | selfTransfer
  deriving DecidableEq

abbrev UUID := Nat

abbrev Metadata := List (String × String)

def IsInt64 (x : Int) : Prop := -2 ^ 63 ≤ x ∧ x < 2 ^ 63

instance (x : Int) : Decidable (IsInt64 x) := inferInstanceAs (Decidable (_ ∧ _))

/-- Two's complement wrap-around of `int64` arithmetic. -/
def wrap64 (x : Int) : Int := (x + 2 ^ 63) % 2 ^ 64 - 2 ^ 63

theorem wrap64_of_isInt64 {x : Int} (h : IsInt64 x) : wrap64 x = x := by
  obtain ⟨hlo, hhi⟩ := h
  unfold wrap64
  omega

theorem wrap64_le {x : Int} (h : -2 ^ 63 ≤ x) : wrap64 x ≤ x := by
  unfold wrap64
  omega

structure WatchedAddress where
  address : String
  walletID : Option String := none
  organizationID : Option String := none
  backfillFromBlock : Option Int := none

structure Transaction where
  id : UUID := 0
  chain : Chain
  network : Network
  txHash : String
  blockCursor : Int
  blockTime : Option Int := none
  feeAmount : String := ""
  feePayer : String := ""
  status : TxStatus := .success
  err : Option String := none
  chainData : Option Metadata := none
  blockHash : String := ""
  parentHash : String := ""

structure Token where
  id : UUID := 0
  chain : Chain
  network : Network
  contractAddress : String
  symbol : String := ""
  name : String := ""
  decimals : Int := 0
  tokenType : TokenType := .fungible
  isDenied : Bool := false
  deniedReason : String := ""
  scamScore : Int := 0
  scamSignals : List String := []
  deniedSource : String := ""
  chainData : Option Metadata := none

structure IndexedBlock where
  chain : Chain
  network : Network
  blockNumber : Int
  blockHash : String
  parentHash : String := ""
  finalityState : String := "pending"
  blockTime : Option Int := none

/-- The balance event as the ingester builds it. The delta is the decimal text of the batch; the
balances before and after it are computed, so they are the integers that their texts denote. -/
structure BalanceEvent where
  chain : Chain
  network : Network
  transactionID : UUID := 0
  txHash : String
  outerInstructionIndex : Int := 0
  innerInstructionIndex : Int := 0
  tokenID : UUID
  activityType : ActivityType
  eventAction : String := ""
  programID : String := ""
  address : String
  counterpartyAddress : String := ""
  delta : String
  balanceBefore : Option Int := none
  balanceAfter : Option Int := none
  watchedAddress : Option String := none
  walletID : Option String := none
  organizationID : Option String := none
  blockCursor : Int
  blockTime : Option Int := none
  chainData : Option Metadata := none
  balanceApplied : Bool
  eventID : String
  blockHash : String := ""
  txIndex : Int := 0
  eventPath : String := ""
  eventPathType : String := ""
  actorAddress : String := ""
  assetType : String := ""
  assetID : String := ""
  finalityState : String
  decoderVersion : String := ""
  schemaVersion : String := ""

end MultichainIndexer
