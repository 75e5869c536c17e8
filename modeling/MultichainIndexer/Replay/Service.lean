import MultichainIndexer.Lib.Page
import MultichainIndexer.Accounting
import MultichainIndexer.Store.Rollback

/-!
# The replay service

`purgeFromBlock` deletes what a chain and network has stored from a block on
and takes the applied deltas back from the balances. The events are read in
pages and reverted by two bulk statements, one item for each event. The block
repository may be missing; times and metrics are left out.
-/

namespace MultichainIndexer

open Relational

structure PurgeRequest where
  chain : Chain
  network : Network
  fromBlock : Int
  dryRun : Bool := false
  force : Bool := false
  reason : String := ""
  blockScanMode : Bool := false

structure PurgeResult where
  purgedEvents : Nat := 0
  purgedTransactions : Nat := 0
  purgedBlocks : Nat := 0
  reversedBalances : Nat := 0
  newWatermark : Int := 0
  cursorsRewound : Nat := 0
  dryRun : Bool := false

def errFinalizedBlock : String := "target block is finalized; set force=true to override"

def rollbackBatchSize : Nat := 1000

section Purge
variable (blockRepo : Bool) (c : RowChoice BulkAdjustItem)

/-- The events from a block on, of which the service reads the columns it reverts by. -/
def eventsFrom (chain : Chain) (network : Network) (fromBlock : Int) (db : Db) :
    List BalanceEventRow :=
  db.balanceEvents.rows.filter (BalanceEventRow.isFrom chain network fromBlock)

def fetchRollbackEvents (chain : Chain) (network : Network) (fromBlock : Int) (db : Db) :
    List BalanceEventRow :=
  let rows := eventsFrom chain network fromBlock db
  Page.fetchPages BalanceEventRow.id rows rollbackBatchSize (rows.length + 1) 0

/-- `fetchRollbackEvents` on the rows of a table; `none` is a loop that has not ended after `fuel`
pages. -/
def fetchRollbackLoop (rows : List BalanceEventRow) (chain : Chain) (network : Network)
    (fromBlock : Int) (fuel : Nat) : Option (List BalanceEventRow) :=
  Page.readPages BalanceEventRow.id (rows.filter (BalanceEventRow.isFrom chain network fromBlock))
    rollbackBatchSize fuel 0

def revertLiquidItem (be : BalanceEventRow) : BulkAdjustItem where
  address := be.address
  tokenID := be.tokenID
  walletID := be.walletID
  orgID := be.organizationID
  delta := -be.delta
  cursor := be.blockCursor
  txHash := be.txHash
  balanceType := ""

def revertStakedItem (be : BalanceEventRow) : BulkAdjustItem where
  address := be.address
  tokenID := be.tokenID
  walletID := be.walletID
  orgID := be.organizationID
  delta := be.delta
  cursor := be.blockCursor
  txHash := be.txHash
  balanceType := "staked"

def liquidItems (rollbackEvents : List BalanceEventRow) : List BulkAdjustItem :=
  (rollbackEvents.filter fun be => be.balanceApplied).map revertLiquidItem

def stakedItems (rollbackEvents : List BalanceEventRow) : List BulkAdjustItem :=
  (rollbackEvents.filter fun be =>
    be.balanceApplied && isStakingActivity be.activityType).map revertStakedItem

def countWhere {α : Type} (p : α → Bool) (l : List α) : Nat := (l.filter p).length

def dryRun (req : PurgeRequest) (db : Db) : PurgeResult :=
  let events := (eventsFrom req.chain req.network req.fromBlock db).length
  { purgedEvents := events
    purgedTransactions := countWhere
      (Transaction.isFrom req.chain req.network req.fromBlock) db.transactions.rows
    purgedBlocks := countWhere
      (IndexedBlock.isFrom req.chain req.network req.fromBlock) db.indexedBlocks.rows
    reversedBalances := events
    newWatermark := rollbackWatermark req.fromBlock
    dryRun := true }

def executePurge (req : PurgeRequest) (db : Db) : Except String (PurgeResult × Db) := do
  let rollbackEvents := fetchRollbackEvents req.chain req.network req.fromBlock db
  let liquid := liquidItems rollbackEvents
  let staked := stakedItems rollbackEvents
  let balances ← (bulkAdjustBalanceTx req.chain req.network c liquid db.balances).mapError
    ("revert balances: " ++ ·)
  let balances ← (bulkAdjustBalanceTx req.chain req.network c staked balances).mapError
    ("revert staked balances: " ++ ·)
  let db' := deleteAndRewind req.chain req.network req.fromBlock blockRepo
    { db with balances := balances }
  return ({ purgedEvents := (eventsFrom req.chain req.network req.fromBlock db).length
            purgedTransactions := countWhere
              (Transaction.isFrom req.chain req.network req.fromBlock) db.transactions.rows
            purgedBlocks := if blockRepo then countWhere
              (IndexedBlock.isFrom req.chain req.network req.fromBlock) db.indexedBlocks.rows else 0
            reversedBalances := liquid.length
            newWatermark := rollbackWatermark req.fromBlock }, db')

def purgeFromBlock (req : PurgeRequest) (db : Db) : Except String (PurgeResult × Db) :=
  if !req.force && blockRepo && (getByBlockNumber req.chain req.network req.fromBlock db).any
      fun b => b.finalityState = "finalized" then .error errFinalizedBlock
  else if req.dryRun then .ok (dryRun req db, db)
  else executePurge blockRepo c req db

end Purge

section Facts
variable {chain : Chain} {network : Network} {fromBlock : Int} {db : Db}

theorem mem_eventsFrom {r : BalanceEventRow} :
    r ∈ eventsFrom chain network fromBlock db ↔ r ∈ db.balanceEvents.rows ∧
      r.chain = chain ∧ r.network = network ∧ fromBlock ≤ r.blockCursor := by
  simp [eventsFrom, BalanceEventRow.isFrom]

theorem fetchPages_rows {rows : List BalanceEventRow} (hd : rows.Pairwise fun a b => a.id ≠ b.id)
    {fuel : Nat} (hfuel : rows.length < fuel) :
    Page.readPages BalanceEventRow.id rows rollbackBatchSize fuel 0 =
        some (Page.fetchPages BalanceEventRow.id rows rollbackBatchSize fuel 0) ∧
      (Page.fetchPages BalanceEventRow.id rows rollbackBatchSize fuel 0).Perm rows := by
  have hpos : (rows.filter fun r => decide (0 < r.id)) = rows :=
    List.filter_eq_self.mpr fun r _ => decide_eq_true r.id_pos
  have hlimit : 0 < rollbackBatchSize := by decide
  have hperm := Page.fetchPages_perm hd hlimit fuel 0 (by rw [hpos]; exact hfuel)
  rw [hpos] at hperm
  exact ⟨Page.readPages_eq hlimit fuel 0 (by rw [hpos]; exact hfuel), hperm⟩

theorem distinct_eventsFrom :
    (eventsFrom chain network fromBlock db).Pairwise fun a b => a.id ≠ b.id :=
  (db.balanceEvents.unique.filter _).imp fun h he => h (.inl he)

theorem fetchRollbackEvents_perm :
    (fetchRollbackEvents chain network fromBlock db).Perm
      (eventsFrom chain network fromBlock db) :=
  (fetchPages_rows distinct_eventsFrom (Nat.lt_succ_self _)).2

theorem fetchRollbackLoop_db : fetchRollbackLoop db.balanceEvents.rows chain network fromBlock
      ((eventsFrom chain network fromBlock db).length + 1) =
    some (fetchRollbackEvents chain network fromBlock db) :=
  (fetchPages_rows distinct_eventsFrom (Nat.lt_succ_self _)).1

/-- The reader ends after as many pages as there are rows at most, and reads every row of the chain
and network from the block on once. -/
theorem fetchRollbackLoop_exhaustive (rows : List BalanceEventRow)
    (hd : rows.Pairwise fun a b => a.id ≠ b.id) (chain : Chain) (network : Network)
    (fromBlock : Int) (fuel : Nat) (hfuel : rows.length < fuel) :
    ∃ all, fetchRollbackLoop rows chain network fromBlock fuel = some all ∧
      (∀ r, r ∈ all ↔ r ∈ rows ∧ r.chain = chain ∧ r.network = network ∧
        fromBlock ≤ r.blockCursor) ∧
      all.Pairwise fun a b => a.id ≠ b.id := by
  have hlen : (rows.filter (BalanceEventRow.isFrom chain network fromBlock)).length < fuel :=
    Nat.lt_of_le_of_lt (List.length_filter_le _ _) hfuel
  obtain ⟨hread, hperm⟩ := fetchPages_rows (hd.filter _) hlen
  refine ⟨_, hread, ?_, ?_⟩
  · intro r
    rw [hperm.mem_iff, List.mem_filter]
    simp [BalanceEventRow.isFrom]
  · exact (hd.filter _).perm hperm.symm fun h => h.symm

def depositRow (id : UUID) (hid : 0 < id) (eventID : String) (delta blockCursor : Int) :
    BalanceEventRow where
  id := id
  id_pos := hid
  chain := .ethereum
  network := .mainnet
  tokenID := 1
  activityType := .deposit
  address := "0xa"
  delta := delta
  blockCursor := blockCursor
  balanceApplied := true
  eventID := eventID
  finalityState := "finalized"

/-- A row below the block and one at it. -/
theorem fetchRollbackLoop_exhaustive_two : ∃ all,
    fetchRollbackLoop [depositRow 1 (by decide) "e1" 5 9, depositRow 2 (by decide) "e2" 7 10]
      .ethereum .mainnet 10 3 = some all ∧ depositRow 2 (by decide) "e2" 7 10 ∈ all ∧
    depositRow 1 (by decide) "e1" 5 9 ∉ all := by
  obtain ⟨all, hread, hmem, _⟩ := fetchRollbackLoop_exhaustive
    [depositRow 1 (by decide) "e1" 5 9, depositRow 2 (by decide) "e2" 7 10] (by decide) .ethereum
    .mainnet 10 3 (by decide)
  refine ⟨all, hread, ?_, ?_⟩
  · exact (hmem _).mpr ⟨List.mem_cons_of_mem _ List.mem_cons_self, rfl, rfl, Int.le_refl _⟩
  · intro hlow
    exact absurd ((hmem _).mp hlow).2.2.2 (by decide)

theorem liquidItems_eq (l : List BalanceEventRow) :
    liquidItems l = (l.filter BalanceKind.liquid.book.applied).map
      (BalanceEventRow.item .liquid (-1)) := by
  have hfil : (fun be : BalanceEventRow => be.balanceApplied) =
      BalanceKind.liquid.book.applied := by
    funext be
    simp [BalanceKind.book, BalanceKind.counts]
  unfold liquidItems
  rw [hfil]
  refine List.map_congr_left fun r _ => ?_
  simp [revertLiquidItem, BalanceEventRow.item, BalanceKind.signed, BalanceKind.balanceType]

theorem stakedItems_eq (l : List BalanceEventRow) :
    stakedItems l = (l.filter BalanceKind.staked.book.applied).map
      (BalanceEventRow.item .staked (-1)) := by
  refine List.map_congr_left fun r _ => ?_
  simp [revertStakedItem, BalanceEventRow.item, BalanceKind.signed, BalanceKind.balanceType]

def revertItems : BalanceKind → List BalanceEventRow → List BulkAdjustItem
  | .liquid => liquidItems
  | .staked => stakedItems

theorem revertItems_eq (b : BalanceKind) (l : List BalanceEventRow) :
    revertItems b l = (l.filter b.book.applied).map (BalanceEventRow.item b (-1)) := by
  cases b with
  | liquid => exact liquidItems_eq l
  | staked => exact stakedItems_eq l

theorem fetchRollbackEvents_chain : ∀ r ∈ fetchRollbackEvents chain network fromBlock db,
    r.chain = chain ∧ r.network = network := by
  intro r hr
  obtain ⟨_, hc, hn, _⟩ := mem_eventsFrom.mp (fetchRollbackEvents_perm.mem_iff.mp hr)
  exact ⟨hc, hn⟩

theorem listedFor_revertItems (b : BalanceKind) (a : Account) :
    (listedFor chain network (revertItems b (fetchRollbackEvents chain network fromBlock db))
      (a.key b)).Perm ((b.book.entries b.book.applied (eventsFrom chain network fromBlock db) a).map
        (BalanceEventRow.item b (-1))) := by
  rw [revertItems_eq, listedFor_items fetchRollbackEvents_chain, if_pos rfl]
  exact (fetchRollbackEvents_perm.filter _).map _

theorem listedFor_revertItems_other {b b' : BalanceKind} (hb : b ≠ b') (a : Account) :
    listedFor chain network (revertItems b (fetchRollbackEvents chain network fromBlock db))
      (a.key b') = [] := by
  rw [revertItems_eq, listedFor_items fetchRollbackEvents_chain, if_neg hb]

end Facts

end MultichainIndexer
