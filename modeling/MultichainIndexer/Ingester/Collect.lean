import MultichainIndexer.Domain.Event
import MultichainIndexer.Identity
import MultichainIndexer.Store.Db

/-!
# Events of a batch

The decisions that the ingester takes event by event (whether an event counts,
whether it looks like a scam, what the balance is after it), and the first
phase of a batch: the transactions and tokens to upsert, each once, and the
events in order. A failed transaction without events gets a synthetic fee event.
-/

namespace MultichainIndexer

open Text

def finalityStateRank (state : String) : Nat :=
  match toLower (trimSpace state) with
  | "" => 4
  | "processed" => 1
  | "pending" => 1
  | "latest" => 1
  | "unsafe" => 1
  | "confirmed" => 2
  | "accepted" => 2
  | "safe" => 3
  | "finalized" => 4
  | _ => 0

/-- Whether an event is final enough, and not dust, for its delta to be applied. -/
def meetsBalanceThreshold (chain : Chain) (finality : String) (tokenType : TokenType)
    (amount : String) : Bool :=
  (chain = .solana || 2 ≤ finalityStateRank finality) &&
    (tokenType = .native ||
      match parseInt (trimSpace amount) with
      | none => false
      | some v => v ≠ 0)

def detectScamSignal (chain : Chain) (be : NormalizedBalanceEvent) (balanceExists : Bool) :
    String :=
  if be.tokenType = .native then ""
  else if chain = .btc then ""
  else
    let signal := ((be.chainData.getD []).lookup "scam_signal").getD ""
    if signal ≠ "" then signal
    else
      match (trimSpace be.delta).toList with
      | '-' :: c :: rest =>
        if c :: rest ≠ ['0'] && !balanceExists then "zero_balance_withdrawal" else ""
      | _ => ""

/-- The balance after a delta. Its text may have 78 digits at most. -/
def addDecimalStrings (a : Int) (b : String) : Except String Int :=
  match parseInt (trimSpace b) with
  | none => .error ("invalid decimal value: " ++ b)
  | some d =>
    if FitsNumeric (a + d) then .ok (a + d)
    else .error ("balance overflow: result has " ++ toString (toString (a + d).natAbs).length ++
      " digits (max 78)")

def nativeTokenContract : Chain → String
  | .solana => "So11111111111111111111111111111111111111112"
  | .btc => "btc_native"
  | _ => "0x0000000000000000000000000000000000000000"

def nativeTokenSymbol : Chain → String
  | .solana => "SOL"
  | .ethereum | .base | .arbitrum => "ETH"
  | .polygon => "MATIC"
  | .bsc => "BNB"
  | .btc => "BTC"

def nativeTokenName : Chain → String
  | .solana => "Solana"
  | .ethereum | .base | .arbitrum => "Ether"
  | .polygon => "MATIC"
  | .bsc => "BNB"
  | .btc => "Bitcoin"

def nativeTokenDecimals : Chain → Int
  | .solana => 9
  | .btc => 8
  | _ => 18

def defaultTokenSymbol (be : NormalizedBalanceEvent) : String :=
  if be.tokenSymbol ≠ "" then be.tokenSymbol
  else if be.tokenType = .native then "SOL" else "UNKNOWN"

def defaultTokenName (be : NormalizedBalanceEvent) : String :=
  if be.tokenName ≠ "" then be.tokenName
  else if be.tokenType = .native then "Solana" else "Unknown Token"

def buildFeeOnlyEvent (ntx : NormalizedTransaction) (chain : Chain) : NormalizedBalanceEvent where
  outerInstructionIndex := 0
  innerInstructionIndex := 0
  activityType := .fee
  eventAction := "fee_only_failed_tx"
  programID := ""
  contractAddress := nativeTokenContract chain
  address := ntx.feePayer
  counterpartyAddress := ""
  delta := if hasPrefix ntx.feeAmount "-" then ntx.feeAmount else "-" ++ ntx.feeAmount
  chainData := some []
  tokenSymbol := nativeTokenSymbol chain
  tokenName := nativeTokenName chain
  tokenDecimals := nativeTokenDecimals chain
  tokenType := .native
  eventID := "fee:" ++ chain.text ++ ":" ++ ntx.txHash
  blockHash := ntx.blockHash
  txIndex := 0
  eventPath := "fee_only"
  eventPathType := "synthetic"
  finalityState := ""

/-- A failed transaction without events whose fee is a valid amount. -/
def isFeeOnly (ntx : NormalizedTransaction) : Bool :=
  ntx.status = .failed && ntx.balanceEvents.isEmpty && ntx.feeAmount ≠ "" &&
    ntx.feeAmount ≠ "0" && ntx.feePayer ≠ "" &&
    match parseInt (trimSpace ntx.feeAmount) with
    | none => false
    | some fee => 0 ≤ fee

def eventsOf (chain : Chain) (ntx : NormalizedTransaction) : List NormalizedBalanceEvent :=
  ntx.balanceEvents ++ if isFeeOnly ntx then [buildFeeOnlyEvent ntx chain] else []

structure EventContext where
  ntx : NormalizedTransaction
  be : NormalizedBalanceEvent
  canonicalTxHash : String

/-- What the first phase collects. The contracts to check are those of the tokens. -/
structure Collected where
  txModels : List Transaction := []
  tokenModels : List Token := []
  allEvents : List EventContext := []

def canonicalTxHash (chain : Chain) (hash : String) : String := identityOr chain hash hash

def Collected.addTx (s : Collected) (tx : Transaction) : Collected :=
  if s.txModels.any fun t => t.txHash = tx.txHash then s
  else { s with txModels := s.txModels ++ [tx] }

def Collected.addToken (s : Collected) (tok : Token) : Collected :=
  if s.tokenModels.any fun t => t.contractAddress = tok.contractAddress then s
  else { s with tokenModels := s.tokenModels ++ [tok] }

def Collected.addEvent (s : Collected) (ec : EventContext) : Collected :=
  { s with allEvents := s.allEvents ++ [ec] }

def txModel (batch : NormalizedBatch) (ntx : NormalizedTransaction) : Transaction where
  chain := batch.chain
  network := batch.network
  txHash := canonicalTxHash batch.chain ntx.txHash
  blockCursor := ntx.blockCursor
  blockTime := ntx.blockTime
  feeAmount := ntx.feeAmount
  feePayer := ntx.feePayer
  status := ntx.status
  err := ntx.err
  chainData := some (ntx.chainData.getD [])
  blockHash := ntx.blockHash
  parentHash := ntx.parentHash

def tokenModel (batch : NormalizedBatch) (be : NormalizedBalanceEvent) : Token where
  chain := batch.chain
  network := batch.network
  contractAddress := be.contractAddress
  symbol := defaultTokenSymbol be
  name := defaultTokenName be
  decimals := be.tokenDecimals
  tokenType := be.tokenType
  chainData := some []

/-- The token of a synthetic fee event is the native one under its own names. -/
def collectTx (batch : NormalizedBatch) (s : Collected) (ntx : NormalizedTransaction) : Collected :=
  let hash := canonicalTxHash batch.chain ntx.txHash
  (eventsOf batch.chain ntx).foldl
    (fun s be => (s.addToken (tokenModel batch be)).addEvent ⟨ntx, be, hash⟩)
    (s.addTx (txModel batch ntx))

def collectEvents (batch : NormalizedBatch) : Collected :=
  batch.transactions.foldl (collectTx batch) {}

def batchEvents (batch : NormalizedBatch) : List EventContext :=
  batch.transactions.flatMap fun ntx =>
    (eventsOf batch.chain ntx).map fun be => ⟨ntx, be, canonicalTxHash batch.chain ntx.txHash⟩

section Facts
variable {batch : NormalizedBatch}

@[simp] theorem addTx_allEvents (s : Collected) (tx : Transaction) :
    (s.addTx tx).allEvents = s.allEvents := by
  unfold Collected.addTx
  split
  · rfl
  · rfl

@[simp] theorem addToken_allEvents (s : Collected) (tok : Token) :
    (s.addToken tok).allEvents = s.allEvents := by
  unfold Collected.addToken
  split
  · rfl
  · rfl

@[simp] theorem addTx_tokenModels (s : Collected) (tx : Transaction) :
    (s.addTx tx).tokenModels = s.tokenModels := by
  unfold Collected.addTx
  split
  · rfl
  · rfl

theorem collectTx_allEvents (s : Collected) (ntx : NormalizedTransaction) :
    (collectTx batch s ntx).allEvents = s.allEvents ++ (eventsOf batch.chain ntx).map
      fun be => ⟨ntx, be, canonicalTxHash batch.chain ntx.txHash⟩ := by
  have hall : ∀ (l : List NormalizedBalanceEvent) (u : Collected),
      (l.foldl (fun s be => (s.addToken (tokenModel batch be)).addEvent
        ⟨ntx, be, canonicalTxHash batch.chain ntx.txHash⟩) u).allEvents =
        u.allEvents ++ l.map fun be => ⟨ntx, be, canonicalTxHash batch.chain ntx.txHash⟩ := by
    intro l
    induction l with
    | nil => simp
    | cons be l ih =>
      intro u
      rw [List.foldl_cons, ih]
      simp [Collected.addEvent]
  unfold collectTx
  rw [hall, addTx_allEvents]

theorem collectEvents_allEvents : (collectEvents batch).allEvents = batchEvents batch := by
  rw [batchEvents, List.flatMap_def, ← List.nil_append (List.flatten _),
    ← List.foldl_append_eq_append]
  exact (List.foldl_hom Collected.allEvents fun s ntx => (collectTx_allEvents s ntx).symm).symm

theorem mem_batchEvents {ec : EventContext} (h : ec ∈ batchEvents batch) :
    ec.ntx ∈ batch.transactions ∧ ec.be ∈ eventsOf batch.chain ec.ntx := by
  obtain ⟨ntx, hntx, hmap⟩ := List.mem_flatMap.mp h
  obtain ⟨be, hbe, rfl⟩ := List.mem_map.mp hmap
  exact ⟨hntx, hbe⟩

theorem forall_batchEvents {P : NormalizedBalanceEvent → Prop} :
    (∀ ec ∈ batchEvents batch, P ec.be) ↔
      ∀ ntx ∈ batch.transactions, ∀ be ∈ eventsOf batch.chain ntx, P be := by
  constructor
  · intro h ntx hntx be hbe
    exact h ⟨ntx, be, _⟩ (List.mem_flatMap.mpr ⟨ntx, hntx, List.mem_map.mpr ⟨be, hbe, rfl⟩⟩)
  · intro h ec hec
    obtain ⟨hntx, hbe⟩ := mem_batchEvents hec
    exact h ec.ntx hntx ec.be hbe

end Facts

end MultichainIndexer
