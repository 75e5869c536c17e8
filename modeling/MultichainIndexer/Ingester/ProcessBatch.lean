import MultichainIndexer.Ingester.Build
import MultichainIndexer.Replay.Service
import MultichainIndexer.Store.EventRepo

/-!
# Processing a batch

`processBatch` takes one normalized batch into the database in one transaction.
A batch whose cursor went backwards first rolls back what was indexed from the
fork on; a Bitcoin batch then goes on with its own transactions. Every other
batch is collected, prefetched, built and written, and moves the watermark up.
A failed commit, the commit interleaver and retries are left out: a failed
attempt leaves the database as it was.
-/

namespace MultichainIndexer

open Relational Text

/-- The identity of a cursor value, or the trimmed value where it has none. -/
def cursorIdentity (chain : Chain) (value : String) : String :=
  identityOr chain value (trimSpace value)

def isCanonicalityDrift (batch : NormalizedBatch) : Bool :=
  match batch.previousCursorValue, batch.newCursorValue with
  | some previous, some new =>
    if batch.previousCursorSequence = 0 then false
    else if batch.newCursorSequence < batch.previousCursorSequence then true
    else batch.newCursorSequence = batch.previousCursorSequence &&
      cursorIdentity batch.chain previous ≠ cursorIdentity batch.chain new &&
      batch.transactions.isEmpty
  | _, _ => false

def isBTCRestartAnchorReplay (batch : NormalizedBatch) : Bool :=
  match batch.previousCursorValue, batch.newCursorValue with
  | some previous, some new =>
    let previousCursor := cursorIdentity batch.chain previous
    let newCursor := cursorIdentity batch.chain new
    batch.chain = .btc && batch.previousCursorSequence = batch.newCursorSequence &&
      0 < batch.newCursorSequence && batch.transactions.isEmpty &&
      previousCursor ≠ "" && newCursor ≠ "" && previousCursor ≠ newCursor
  | _, _ => false

/-- The lowest positive block of a Bitcoin batch, if it is below the new cursor. -/
def rollbackBTCEarliestCompetingSequence (batch : NormalizedBatch) : Option Int :=
  if batch.chain ≠ .btc || batch.transactions.isEmpty then none
  else
    let earliest := batch.transactions.foldl (fun earliest tx =>
      if tx.blockCursor ≤ 0 then earliest
      else if earliest = 0 || tx.blockCursor < earliest then tx.blockCursor else earliest) 0
    if earliest = 0 || batch.newCursorSequence ≤ earliest then none else some earliest

def rollbackForkCursorSequence (batch : NormalizedBatch) : Int :=
  if batch.newCursorSequence < batch.previousCursorSequence then
    match rollbackBTCEarliestCompetingSequence batch with
    | some floor => floor
    | none => batch.newCursorSequence
  else batch.previousCursorSequence

def withRollbackForkCursor (batch : NormalizedBatch) : NormalizedBatch :=
  { batch with previousCursorSequence := rollbackForkCursorSequence batch }

def shouldContinueCompetingBranchReplay (batch : NormalizedBatch) : Bool :=
  batch.chain = .btc && !batch.transactions.isEmpty

/-- The reversing items of applied events, liquid and staked in one list. -/
def buildReversalAdjustItems (events : List BalanceEventRow) : List BulkAdjustItem :=
  events.flatMap fun be =>
    if be.balanceApplied then
      revertLiquidItem be ::
        if isStakingActivity be.activityType then [revertStakedItem be] else []
    else []

/-- The rows of a drift rollback: chain-wide in block-scan mode, else of the batch's address. -/
def BalanceEventRow.isDrifted (batch : NormalizedBatch) (forkCursor : Int) (r : BalanceEventRow) :
    Bool :=
  r.isFrom batch.chain batch.network forkCursor &&
    (batch.blockScanMode || r.watchedAddress = some batch.address)

def rollbackCanonicalityDrift (env : IngestEnv) (batch : NormalizedBatch) (db : Db) :
    Except String Db := do
  let forkCursor := rollbackForkCursorSequence batch
  let rollbackEvents := db.balanceEvents.rows.filter (BalanceEventRow.isDrifted batch forkCursor)
  let balances ← (bulkAdjustBalanceTx batch.chain batch.network env.choice
    (buildReversalAdjustItems rollbackEvents) db.balances).mapError ("revert balances: " ++ ·)
  return rewindWatermarkTx batch.chain batch.network (rollbackWatermark forkCursor)
    { db with
      balances := balances
      balanceEvents := db.balanceEvents.deleteWhere (BalanceEventRow.isDrifted batch forkCursor) }

/-- The blocks that a batch indexes: the first hashed transaction of a block describes it. -/
def blocksOf (batch : NormalizedBatch) : List IndexedBlock :=
  batch.transactions.foldl (fun blocks ntx =>
    if ntx.blockHash = "" || blocks.any fun b => b.blockNumber = ntx.blockCursor then blocks
    else blocks ++ [{
      chain := batch.chain
      network := batch.network
      blockNumber := ntx.blockCursor
      blockHash := ntx.blockHash
      parentHash := ntx.parentHash
      finalityState :=
        match ntx.balanceEvents.head? with
        | some be => if be.finalityState ≠ "" then be.finalityState else "pending"
        | none => "pending"
      blockTime := ntx.blockTime }]) []

def writeBulkAndCommit (env : IngestEnv) (batch : NormalizedBatch) (st : BuildState) (db : Db) :
    Except String Db := do
  let (balanceEvents, _) ← (bulkUpsertEventsTx env.now st.eventModels db.balanceEvents).mapError
    ("bulk upsert balance events: " ++ ·)
  let balances ← (bulkAdjustBalanceTx batch.chain batch.network env.choice
    (adjustItems st.aggregatedDeltas) db.balances).mapError ("bulk adjust balances: " ++ ·)
  let db := { db with tokens := st.tokens, balanceEvents := balanceEvents, balances := balances }
  let db ← if env.blockRepo then
      (bulkUpsertBlocksTx (blocksOf batch) db).mapError ("bulk upsert indexed blocks: " ++ ·)
    else .ok db
  return updateWatermarkTx batch.chain batch.network batch.newCursorSequence db

/-- The watched addresses of a block-scan batch, read where no address index is configured. -/
def blockScanAddresses (env : IngestEnv) (batch : NormalizedBatch) :
    Except String (Option (List WatchedAddress)) :=
  if batch.blockScanMode && env.addressIndex.isNone then
    match env.watchedAddrRepo with
    | none => .ok none
    | some active => (active.map some).mapError ("fetch watched addresses for block-scan: " ++ ·)
  else .ok none

/-- The path of a batch that is taken in. -/
def ingestBatch (env : IngestEnv) (batch : NormalizedBatch) (db : Db) : Except String Db := do
  let addrMap ← blockScanAddresses env batch
  let s := collectEvents batch
  let (pre, db) ← prefetchBulkData env batch s db
  let st ← buildEventModels env addrMap batch pre s.allEvents db
  writeBulkAndCommit env batch st db

def canonicalizeCursors (batch : NormalizedBatch) : NormalizedBatch :=
  { batch with
    previousCursorValue := canonicalizeCursorValue batch.chain batch.previousCursorValue
    newCursorValue := canonicalizeCursorValue batch.chain batch.newCursorValue }

def rollsBack (batch : NormalizedBatch) : Bool :=
  isCanonicalityDrift batch && !isBTCRestartAnchorReplay batch

def processBatch (env : IngestEnv) (batch : NormalizedBatch) (db : Db) : Except String Db :=
  let batch := canonicalizeCursors batch
  if rollsBack batch then
    match rollbackCanonicalityDrift env (withRollbackForkCursor batch) db with
    | .error e => .error ("handle reorg path: " ++ e)
    | .ok db =>
      if shouldContinueCompetingBranchReplay batch then ingestBatch env batch db else .ok db
  else ingestBatch env batch db

end MultichainIndexer
