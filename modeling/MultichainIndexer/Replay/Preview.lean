import Mathlib.Data.List.Basic
import MultichainIndexer.Replay.Purge

/-!
# A dry run and the purge after it

A dry run reports the rows that the purge then deletes and the watermark that it
sets. The balances it reports are all events, of which the purge reverts those
that were applied. A purge made again finds nothing and leaves the database.
-/

namespace MultichainIndexer

open Relational

section Rows
variable {α : Type} {clash : α → α → Prop} (t : Table clash) (p : α → Bool)

theorem length_deleteWhere : (t.deleteWhere p).rows.length + countWhere p t.rows = t.rows.length := by
  rw [t.rows.length_eq_length_filter_add p, Nat.add_comm]
  rfl

theorem deleteWhere_twice : (t.deleteWhere p).deleteWhere p = t.deleteWhere p := by
  apply Table.ext_rows
  simp [List.filter_filter]

theorem filter_eq_nil_of_not {l : List α} {p : α → Bool} (h : (l.filter fun a => !p a) = l) :
    l.filter p = [] := by
  rw [← h, List.filter_filter]
  simp

end Rows

section Again
variable {blockRepo : Bool} {c : RowChoice BulkAdjustItem} {req : PurgeRequest} {db : Db}

theorem setWatermark_twice (chain : Chain) (network : Network) (v : Int) (db : Db) :
    setWatermark chain network v (setWatermark chain network v db) =
      setWatermark chain network v db := by
  unfold setWatermark
  congr 1
  funext c n
  split
  · rfl
  · rename_i hother
    exact if_neg hother

theorem deleteAndRewind_twice (chain : Chain) (network : Network) (fromBlock : Int)
    (blockRepo : Bool) (db : Db) : deleteAndRewind chain network fromBlock blockRepo
        (deleteAndRewind chain network fromBlock blockRepo db) =
      deleteAndRewind chain network fromBlock blockRepo db := by
  refine Eq.trans ?_ (setWatermark_twice ..)
  cases blockRepo
  · simp [deleteAndRewind, deleteEventsFrom, deleteTransactionsFrom, rewindWatermarkTx,
      setWatermark, deleteWhere_twice]
  · simp [deleteAndRewind, deleteEventsFrom, deleteTransactionsFrom, deleteFromBlockTx,
      rewindWatermarkTx, setWatermark, deleteWhere_twice]

theorem getByBlockNumber_eq_none {chain : Chain} {network : Network} {fromBlock : Int}
    (h : db.indexedBlocks.rows.filter (IndexedBlock.isFrom chain network fromBlock) = []) :
    getByBlockNumber chain network fromBlock db = none := by
  refine List.find?_eq_none.mpr fun b hb hkey => ?_
  apply List.filter_eq_nil_iff.mp h b hb
  simp only [IndexedBlock.numberKey, decide_eq_true_eq, Option.some.injEq, Prod.mk.injEq] at hkey
  simp [IndexedBlock.isFrom, hkey]

theorem purge_of_purged (hdry : req.dryRun = false)
    (h : deleteAndRewind req.chain req.network req.fromBlock blockRepo db = db) :
    purgeFromBlock blockRepo c req db =
      .ok ({ newWatermark := rollbackWatermark req.fromBlock }, db) := by
  have hevents : eventsFrom req.chain req.network req.fromBlock db = [] :=
    filter_eq_nil_of_not ((deleteAndRewind_balanceEvents ..).symm.trans
      (congrArg (·.balanceEvents.rows) h))
  have htxs : db.transactions.rows.filter (Transaction.isFrom req.chain req.network
      req.fromBlock) = [] :=
    filter_eq_nil_of_not ((deleteAndRewind_transactions ..).symm.trans
      (congrArg (·.transactions.rows) h))
  have hfetched := List.perm_nil.mp (hevents ▸ fetchRollbackEvents_perm)
  have hblocks : blockRepo = true → db.indexedBlocks.rows.filter (IndexedBlock.isFrom req.chain
      req.network req.fromBlock) = [] := by
    intro hrepo
    have hrows := congrArg (·.indexedBlocks.rows) h
    simp only [deleteAndRewind_indexedBlocks, if_pos hrepo] at hrows
    exact filter_eq_nil_of_not hrows
  have hguard : (blockRepo && (getByBlockNumber req.chain req.network req.fromBlock db).any
      fun b => b.finalityState = "finalized") = false := by
    cases blockRepo with
    | false => rfl
    | true =>
      rw [getByBlockNumber_eq_none (hblocks rfl)]
      rfl
  unfold purgeFromBlock
  rw [Bool.and_assoc, hguard, Bool.and_false, if_neg Bool.false_ne_true, hdry,
    if_neg Bool.false_ne_true]
  simp only [executePurge, hevents, hfetched, countWhere, htxs]
  have hnone : (if blockRepo = true then (db.indexedBlocks.rows.filter (IndexedBlock.isFrom
      req.chain req.network req.fromBlock)).length else 0) = 0 := by
    split
    · rename_i hrepo
      rw [hblocks hrepo]
      rfl
    · rfl
  rw [hnone]
  exact congrArg (fun db' => Except.ok (_, db')) h

end Again

/-- A purge that commits has done what a dry run in front of it reports, and made again it does
nothing more. -/
theorem purge_as_previewed (blockRepo : Bool) (c : RowChoice BulkAdjustItem) (req : PurgeRequest)
    (db db' : Db) (res : PurgeResult) (hdry : req.dryRun = false)
    (h : purgeFromBlock blockRepo c req db = .ok (res, db')) :
    ∃ pre, purgeFromBlock blockRepo c { req with dryRun := true } db = .ok (pre, db) ∧
      db'.balanceEvents.rows.length + pre.purgedEvents = db.balanceEvents.rows.length ∧
      db'.transactions.rows.length + pre.purgedTransactions = db.transactions.rows.length ∧
      (blockRepo = true →
        db'.indexedBlocks.rows.length + pre.purgedBlocks = db.indexedBlocks.rows.length) ∧
      db'.watermarks req.chain req.network = some pre.newWatermark ∧
      res.reversedBalances ≤ pre.reversedBalances ∧
      res = { pre with
        purgedBlocks := if blockRepo then pre.purgedBlocks else 0
        reversedBalances := res.reversedBalances
        dryRun := false } ∧
      purgeFromBlock blockRepo c req db' = .ok ({ newWatermark := pre.newWatermark }, db') := by
  unfold purgeFromBlock at h
  obtain ⟨hguard, h⟩ := Result.guard_ok h
  rw [hdry, if_neg Bool.false_ne_true] at h
  unfold executePurge at h
  obtain ⟨_, _, h⟩ := Result.bind_ok h
  obtain ⟨_, _, h⟩ := Result.bind_ok h
  cases h
  refine ⟨dryRun req db, ?_, ?_, ?_, ?_, ?_, ?_, rfl, ?_⟩
  · unfold purgeFromBlock
    rw [if_neg hguard]
    rfl
  · rw [deleteAndRewind_balanceEvents]
    exact length_deleteWhere db.balanceEvents _
  · rw [deleteAndRewind_transactions]
    exact length_deleteWhere db.transactions _
  · intro hrepo
    rw [deleteAndRewind_indexedBlocks, if_pos hrepo]
    exact length_deleteWhere db.indexedBlocks _
  · rw [deleteAndRewind_watermarks]
    exact if_pos ⟨rfl, rfl⟩
  · have hall : (fetchRollbackEvents req.chain req.network req.fromBlock db).length = _ :=
      fetchRollbackEvents_perm.length_eq
    exact (List.length_map _).trans_le ((List.length_filter_le _ _).trans_eq hall)
  · exact purge_of_purged hdry (deleteAndRewind_twice ..)

/-- A deposit at block 10 is reported by the dry run and then deleted. -/
theorem purge_as_previewed_deposit :
    ∃ res db' pre, purgeFromBlock true RowChoice.first
        ⟨.ethereum, .mainnet, 10, false, false, "", false⟩ oneDeposit = .ok (res, db') ∧
      purgeFromBlock true RowChoice.first ⟨.ethereum, .mainnet, 10, true, false, "", false⟩
        oneDeposit = .ok (pre, oneDeposit) ∧
      db'.balanceEvents.rows.length + pre.purgedEvents = 1 := by
  obtain ⟨⟨res, db'⟩, h, _⟩ : ∃ p, purgeFromBlock true RowChoice.first
      ⟨.ethereum, .mainnet, 10, false, false, "", false⟩ oneDeposit = .ok p ∧ True := by decide
  obtain ⟨pre, hpre, hevents, _⟩ := purge_as_previewed _ _ _ _ _ _ rfl h
  exact ⟨res, db', pre, h, hpre, hevents⟩

end MultichainIndexer
