import MultichainIndexer.Lib.Accumulate
import MultichainIndexer.Ingester.Collect
import MultichainIndexer.Store.BalanceRepo
import MultichainIndexer.Store.TokenRepo

/-!
# Event models and aggregated deltas

The second and third phase of a batch. The prefetch upserts transactions and
tokens and reads which contracts are denied. The build walks over the events:
a denied one is skipped, a scam denies its token from there on, and every other
one becomes an event model. The delta of an applied event is added up by
address, token and owner, with the inverse on the staked balance for staking.

Of the ingester's surroundings a batch sees `IngestEnv`: what the caches, the
address index and the watched addresses answer, the clock, and the choice that
the database makes in the balance update.
-/

namespace MultichainIndexer

open Relational Text SumWhere

structure IngestEnv where
  blockRepo : Bool := true
  addressIndex : Option (Chain → Network → String → Option WatchedAddress) := none
  watchedAddrRepo : Option (Except String (List WatchedAddress)) := none
  deniedCache : String → Option Bool := fun _ => none
  now : Int := 0
  choice : RowChoice BulkAdjustItem := RowChoice.first

structure Prefetched where
  txIDMap : String → Option UUID
  tokenIDMap : String → Option UUID
  cachedDenied : String → Bool

def deniedKey (batch : NormalizedBatch) (contract : String) : String :=
  batch.chain.text ++ ":" ++ batch.network.text ++ ":" ++ contract

def prefetchBulkData (env : IngestEnv) (batch : NormalizedBatch) (s : Collected) (db : Db) :
    Except String (Prefetched × Db) := do
  let (transactions, txIDMap) ← (bulkUpsertTransactionsTx s.txModels db.transactions).mapError
    ("bulk upsert transactions: " ++ ·)
  let (tokens, tokenIDMap) ← (bulkUpsertTokensTx s.tokenModels db.tokens).mapError
    ("bulk upsert tokens: " ++ ·)
  -- the cache answers first; only the contracts of the batch are asked for
  let cachedDenied := fun contract =>
    if s.tokenModels.any fun t => t.contractAddress = contract then
      match env.deniedCache (deniedKey batch contract) with
      | some denied => denied
      | none => isDeniedTx batch.chain batch.network contract tokens
    else false
  return (⟨txIDMap, tokenIDMap, cachedDenied⟩,
    { db with transactions := transactions, tokens := tokens })

/-- The owner of an event: the watched address it is filed under, its wallet and organization. -/
structure Owner where
  watchedAddress : Option String
  walletID : Option String
  orgID : Option String

def lookupAddress (env : IngestEnv) (addrMap : Option (List WatchedAddress))
    (batch : NormalizedBatch) (candidate : String) : Option WatchedAddress :=
  if candidate = "" then none
  else
    match env.addressIndex with
    | some index => index batch.chain batch.network candidate
    | none =>
      -- a later address of one canonical form overwrites an earlier one
      (addrMap.getD []).reverse.find? fun wa =>
        canonicalAddressIdentity batch.chain wa.address = candidate

def resolveOwner (env : IngestEnv) (addrMap : Option (List WatchedAddress))
    (batch : NormalizedBatch) (be : NormalizedBalanceEvent) : Owner :=
  if batch.blockScanMode then
    match lookupAddress env addrMap batch be.address with
    | some wa => ⟨some be.address, wa.walletID, wa.organizationID⟩
    | none =>
      match lookupAddress env addrMap batch be.counterpartyAddress with
      | some wa => ⟨some be.counterpartyAddress, wa.walletID, wa.organizationID⟩
      | none => ⟨some be.address, batch.walletID, batch.orgID⟩
  else ⟨some batch.address, batch.walletID, batch.orgID⟩

structure AdjustmentKey where
  address : String
  tokenID : UUID
  balanceType : String
  walletID : String
  orgID : String
  deriving DecidableEq

structure AdjustmentAccum where
  delta : Int
  cursor : Int
  txHash : String

structure BalanceAccum where
  amount : Int
  present : Bool

structure BuildState where
  tokens : Tokens
  inMemoryBalances : String × UUID → BalanceAccum
  cachedDenied : String → Bool
  eventModels : List BalanceEvent := []
  aggregatedDeltas : List (AdjustmentKey × AdjustmentAccum) := []

def derefStr (p : Option String) : String := p.getD ""

def strPtrOrNil (s : String) : Option String := if s = "" then none else some s

def prefetchedBalance (batch : NormalizedBatch) (t : Balances) (k : String × UUID) : BalanceAccum :=
  match KeyedTable.find? t ⟨batch.chain, batch.network, k.1, k.2, ""⟩ with
  | some r => ⟨r.amount, true⟩
  | none => ⟨0, false⟩

def eventModel (batch : NormalizedBatch) (ec : EventContext) (owner : Owner) (txID tokenID : UUID)
    (before after : Int) : BalanceEvent :=
  let applied := meetsBalanceThreshold batch.chain ec.be.finalityState ec.be.tokenType ec.be.delta
  { chain := batch.chain
    network := batch.network
    transactionID := txID
    txHash := ec.canonicalTxHash
    outerInstructionIndex := ec.be.outerInstructionIndex
    innerInstructionIndex := ec.be.innerInstructionIndex
    tokenID := tokenID
    activityType := ec.be.activityType
    eventAction := ec.be.eventAction
    programID := ec.be.programID
    address := ec.be.address
    counterpartyAddress := ec.be.counterpartyAddress
    delta := ec.be.delta
    balanceBefore := if applied then some before else none
    balanceAfter := if applied then some after else none
    watchedAddress := owner.watchedAddress
    walletID := owner.walletID
    organizationID := owner.orgID
    blockCursor := ec.ntx.blockCursor
    blockTime := ec.ntx.blockTime
    chainData := some (ec.be.chainData.getD [])
    balanceApplied := applied
    eventID := ec.be.eventID
    blockHash := ec.be.blockHash
    txIndex := ec.be.txIndex
    eventPath := ec.be.eventPath
    eventPathType := ec.be.eventPathType
    actorAddress := ec.be.actorAddress
    assetType := ec.be.assetType
    assetID := ec.be.assetID
    finalityState := ec.be.finalityState
    decoderVersion := ec.be.decoderVersion
    schemaVersion := ec.be.schemaVersion }

/-- Adds a delta to the adjustment of a key; the newest block gives the cursor and the hash. -/
def addDelta (ak : AdjustmentKey) (delta cursor : Int) (txHash : String) :
    List (AdjustmentKey × AdjustmentAccum) → List (AdjustmentKey × AdjustmentAccum) :=
  Accumulate.bump ak ⟨delta, cursor, txHash⟩ fun acc =>
    if acc.cursor < cursor then ⟨acc.delta + delta, cursor, txHash⟩
    else { acc with delta := acc.delta + delta }

def adjustmentKey (m : BalanceEvent) (balanceType : String) : AdjustmentKey :=
  ⟨m.address, m.tokenID, balanceType, derefStr m.walletID, derefStr m.organizationID⟩

def aggregate (m : BalanceEvent) (agg : List (AdjustmentKey × AdjustmentAccum)) :
    Except String (List (AdjustmentKey × AdjustmentAccum)) :=
  match parseInt (trimSpace m.delta) with
  | none => .error ("invalid delta value \"" ++ m.delta ++ "\" for event " ++ m.eventID)
  | some delta =>
    let agg := addDelta (adjustmentKey m "") delta m.blockCursor m.txHash agg
    if isStakingActivity m.activityType then
      match negateDecimalString m.delta with
      | .error e => .error ("negate staking delta: " ++ e)
      | .ok inverted =>
        match parseInt (trimSpace inverted) with
        | none =>
          .error ("invalid staking delta value \"" ++ inverted ++ "\" for event " ++ m.eventID)
        | some stakeDelta =>
          .ok (addDelta (adjustmentKey m "staked") stakeDelta m.blockCursor m.txHash agg)
    else .ok agg

def buildEvent (env : IngestEnv) (addrMap : Option (List WatchedAddress)) (batch : NormalizedBatch)
    (pre : Prefetched) (st : BuildState) (ec : EventContext) : Except String BuildState :=
  match pre.tokenIDMap ec.be.contractAddress, pre.txIDMap ec.canonicalTxHash with
  | some tokenID, some txID =>
    if st.cachedDenied ec.be.contractAddress then .ok st
    else
      let accum := st.inMemoryBalances (ec.be.address, tokenID)
      let signal := detectScamSignal batch.chain ec.be accum.present
      if signal ≠ "" then
        .ok { st with
          tokens := denyTokenTx batch.chain batch.network ec.be.contractAddress
            ("auto-detected: " ++ signal) "ingester_auto" 100 [signal] st.tokens
          cachedDenied := fun c => if c = ec.be.contractAddress then true else st.cachedDenied c }
      else
        match addDecimalStrings accum.amount ec.be.delta with
        | .error e => .error ("apply delta " ++ ec.be.delta ++ " to balance " ++
            toString accum.amount ++ ": " ++ e)
        | .ok after =>
          let m := eventModel batch ec (resolveOwner env addrMap batch ec.be) txID tokenID
            accum.amount after
          if m.balanceApplied then
            match aggregate m st.aggregatedDeltas with
            | .error e => .error e
            | .ok agg =>
              .ok { st with
                inMemoryBalances := fun k =>
                  if k = (ec.be.address, tokenID) then ⟨after, true⟩ else st.inMemoryBalances k
                eventModels := st.eventModels ++ [m]
                aggregatedDeltas := agg }
          else .ok { st with eventModels := st.eventModels ++ [m] }
  | _, _ => .ok st

/-- The build from a prefetched balance map; a key that is not in it counts as zero. -/
def buildEventModelsFrom (env : IngestEnv) (addrMap : Option (List WatchedAddress))
    (batch : NormalizedBatch) (pre : Prefetched) (balanceMap : String × UUID → Option BalanceAccum)
    (allEvents : List EventContext) (tokens : Tokens) : Except String BuildState :=
  allEvents.foldlM (buildEvent env addrMap batch pre)
    { tokens := tokens
      inMemoryBalances := fun k => (balanceMap k).getD ⟨0, false⟩
      cachedDenied := pre.cachedDenied }

def buildEventModels (env : IngestEnv) (addrMap : Option (List WatchedAddress))
    (batch : NormalizedBatch) (pre : Prefetched) (allEvents : List EventContext) (db : Db) :
    Except String BuildState :=
  buildEventModelsFrom env addrMap batch pre
    (fun k => some (prefetchedBalance batch db.balances k)) allEvents db.tokens

/-- Where the build of a batch starts. -/
def BuildState.start (batch : NormalizedBatch) (pre : Prefetched) (db : Db) : BuildState where
  tokens := db.tokens
  inMemoryBalances := prefetchedBalance batch db.balances
  cachedDenied := pre.cachedDenied

theorem buildEventModels_eq (env : IngestEnv) (addrMap : Option (List WatchedAddress))
    (batch : NormalizedBatch) (pre : Prefetched) (allEvents : List EventContext) (db : Db) :
    buildEventModels env addrMap batch pre allEvents db =
      allEvents.foldlM (buildEvent env addrMap batch pre) (.start batch pre db) := rfl

/-- The bulk items of the aggregated deltas. The source ranges over a map: their order is open. -/
def adjustItems (agg : List (AdjustmentKey × AdjustmentAccum)) : List BulkAdjustItem :=
  agg.map fun (ak, acc) =>
    { address := ak.address
      tokenID := ak.tokenID
      walletID := strPtrOrNil ak.walletID
      orgID := strPtrOrNil ak.orgID
      delta := acc.delta
      cursor := acc.cursor
      txHash := acc.txHash
      balanceType := ak.balanceType }

end MultichainIndexer
