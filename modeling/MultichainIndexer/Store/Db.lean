import MultichainIndexer.Lib.MergeFrom
import MultichainIndexer.Lib.Upsert
import MultichainIndexer.Lib.Js
import MultichainIndexer.Domain.Model

/-!
# The database

The tables that the pipeline reads and writes, with the unique constraints of
the migrations. A statement either has a result or fails; a failed statement
fails its transaction, which leaves the tables as they were.

Row times and the generated ids of `balances` and `pipeline_watermarks` are
left out, as is the audit log of denied tokens, which no modelled statement reads.
So are the reasons for a failure that the modelled values do not show: lengths of
text columns, foreign keys, widths of integer columns, and the limit on the number
of parameters of a statement.
-/

namespace MultichainIndexer

open Relational

inductive SqlError where
  | uniqueViolation
  | affectsRowTwice
  | numericOutOfRange
  | invalidNumber (text : String)
  deriving DecidableEq

def SqlError.text : SqlError → String
  | .uniqueViolation => "duplicate key value violates unique constraint"
  | .affectsRowTwice => "ON CONFLICT DO UPDATE command cannot affect row a second time"
  | .numericOutOfRange => "numeric field overflow"
  | .invalidNumber s => "invalid input for type numeric: " ++ s

/-- The error of a statement under the context that the repository adds. -/
def wrapSql {α : Type} (context : String) (x : Except SqlError α) : Except String α :=
  x.mapError fun e => context ++ ": " ++ e.text

/-- A value of a `NUMERIC(78,0)` column. -/
def FitsNumeric (x : Int) : Prop := -10 ^ 78 < x ∧ x < 10 ^ 78

instance (x : Int) : Decidable (FitsNumeric x) := inferInstanceAs (Decidable (_ ∧ _))

/-- The integer next to `n * 10 ^ e`, the larger one where there are two. -/
def rounded (n : Nat) (e : Int) : Nat :=
  if 0 ≤ e then n * 10 ^ e.toNat else (2 * n + 10 ^ (-e).toNat) / (2 * 10 ^ (-e).toNat)

/-- Digits with a point among them and an exponent behind them. -/
def readDecimal (l : List Char) : Option Nat :=
  let point := (l.dropWhile Char.isDigit).head? = some '.'
  let whole := l.takeWhile Char.isDigit
  let behind := if point then (l.dropWhile Char.isDigit).drop 1 else []
  let fraction := behind.takeWhile Char.isDigit
  let exponent := match l.drop (whole.length + fraction.length + if point then 1 else 0) with
    | [] => some 0
    | 'e' :: digits | 'E' :: digits => Text.parseInt (String.ofList digits)
    | _ => none
  if whole ++ fraction = [] then none
  else exponent.map fun e => rounded (Nat.ofDigitChars 10 (whole ++ fraction) 0) (e - fraction.length)

def readBased : List Char → Option Nat
  | '0' :: base :: digits => do
    let radix ← [('x', 16), ('o', 8), ('b', 2)].lookup base.toLower
    (Js.parseRadix radix digits).map Int.toNat
  | _ => none

/-- A text that a `NUMERIC(78,0)` column takes: a decimal, rounded, an integer in another base, or
`NaN`. Underscores between digits are left out. -/
def numericIn (s : String) : Except SqlError (Option Int) :=
  let l := (Text.trimBy Text.isAsciiSpace s).toList
  let unsigned := match l with
    | '-' :: rest | '+' :: rest => rest
    | _ => l
  if Text.toLower (String.ofList l) = "nan" then .ok none
  else
    match (readDecimal unsigned).or (readBased unsigned) with
    | none => .error (.invalidNumber s)
    | some n =>
      if n < 10 ^ 78 then .ok (some (if l.head? = some '-' then -n else n))
      else .error .numericOutOfRange

/-- The text of a delta sent to its column. Deltas are integers: a fraction is not a number here. -/
def numericText (s : String) : Except SqlError Int :=
  match Text.parseInt (Text.trimBy Text.isAsciiSpace s) with
  | none => .error (.invalidNumber s)
  | some x => if FitsNumeric x then .ok x else .error .numericOutOfRange

/-- `finality_rank` of migration 020. -/
def finalityRank (state : String) : Nat :=
  match Text.toLower (Text.trimBy (fun c => c = ' ') state) with
  | "finalized" => 4
  | "safe" => 3
  | "confirmed" => 2
  | "pending" => 1
  | _ => 0

structure BalanceKey where
  chain : Chain
  network : Network
  address : String
  tokenID : UUID
  balanceType : String
  deriving DecidableEq

structure BalanceRow where
  key : BalanceKey
  walletID : Option String := none
  organizationID : Option String := none
  amount : Int
  lastUpdatedCursor : Int := 0
  lastUpdatedTxHash : String := ""

structure BalanceEventRow where
  id : UUID
  id_pos : 0 < id := by decide
  chain : Chain
  network : Network
  transactionID : UUID := 0
  txHash : String := ""
  outerInstructionIndex : Int := 0
  innerInstructionIndex : Int := -1
  tokenID : UUID
  activityType : ActivityType
  eventAction : String := ""
  programID : String := ""
  address : String
  counterpartyAddress : String := ""
  delta : Int
  balanceBefore : Option Int := none
  balanceAfter : Option Int := none
  watchedAddress : Option String := none
  walletID : Option String := none
  organizationID : Option String := none
  blockCursor : Int
  blockTime : Int := 0
  chainData : Metadata := []
  balanceApplied : Bool
  eventID : String
  blockHash : String := ""
  txIndex : Int := 0
  eventPath : String := ""
  eventPathType : String := ""
  actorAddress : String := ""
  assetType : String := ""
  assetID : String := ""
  finalityState : String
  decoderVersion : String := ""
  schemaVersion : String := ""

/-- The partial unique index on nonempty event ids. -/
def BalanceEventRow.eventKey (r : BalanceEventRow) : Option String :=
  if r.eventID = "" then none else some r.eventID

theorem BalanceEventRow.eventKey_eq_some {r : BalanceEventRow} {k : String} :
    r.eventKey = some k ↔ r.eventID ≠ "" ∧ r.eventID = k := by
  unfold BalanceEventRow.eventKey
  split
  · rename_i h
    simp [h]
  · rename_i h
    simp [h]

def Transaction.hashKey (t : Transaction) : Option (Chain × Network × String) :=
  some (t.chain, t.network, t.txHash)

def Token.contractKey (t : Token) : Option (Chain × Network × String) :=
  some (t.chain, t.network, t.contractAddress)

def IndexedBlock.numberKey (b : IndexedBlock) : Chain × Network × Int :=
  (b.chain, b.network, b.blockNumber)

abbrev Balances := KeyedTable BalanceRow.key
abbrev BalanceEvents := IndexedTable BalanceEventRow.id BalanceEventRow.eventKey
abbrev Transactions := IndexedTable Transaction.id Transaction.hashKey
abbrev Tokens := IndexedTable Token.id Token.contractKey
abbrev IndexedBlocks :=
  IndexedTable IndexedBlock.numberKey fun b => some (IndexedBlock.numberKey b)

structure Db where
  transactions : Transactions := Table.empty
  tokens : Tokens := Table.empty
  balanceEvents : BalanceEvents := Table.empty
  balances : Balances := Table.empty
  indexedBlocks : IndexedBlocks := Table.empty
  /-- `ingested_sequence` of the one row that a chain and network may have. -/
  watermarks : Chain → Network → Option Int := fun _ _ => none

/-- The id that `gen_random_uuid` gives a new row: one that no stored row has. -/
def freshID {α : Type} (ident : α → UUID) (rows : List α) : UUID :=
  rows.foldr (fun r n => max (ident r + 1) n) 1

theorem ident_lt_freshID {α : Type} {ident : α → UUID} {rows : List α} {r : α} (h : r ∈ rows) :
    ident r < freshID ident rows := by
  induction rows with
  | nil => cases h
  | cons a l ih =>
    simp only [freshID, List.foldr_cons] at ih ⊢
    rcases List.mem_cons.mp h with rfl | h
    · exact Nat.le_max_left _ _
    · exact Nat.lt_of_lt_of_le (ih h) (Nat.le_max_right _ _)

theorem freshID_pos {α : Type} (ident : α → UUID) (rows : List α) : 0 < freshID ident rows := by
  induction rows with
  | nil => exact Nat.one_pos
  | cons a l ih => exact Nat.lt_of_lt_of_le ih (Nat.le_max_right _ _)

end MultichainIndexer
