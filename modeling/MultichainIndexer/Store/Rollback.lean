import MultichainIndexer.Lib.Ordered
import MultichainIndexer.Lib.Result
import MultichainIndexer.Store.Db

/-!
# Blocks and watermarks

The statements of the block, watermark and rollback paths: reading, upserting
and finalizing indexed blocks, moving the watermark, and deleting what a chain
and network has stored from a block on.
-/

namespace MultichainIndexer

open Relational

section Watermark
variable (chain : Chain) (network : Network)

def getWatermark (db : Db) : Option Int := db.watermarks chain network

def setWatermark (v : Int) (db : Db) : Db :=
  { db with watermarks := fun c n => if c = chain ∧ n = network then some v else db.watermarks c n }

/-- `UpdateWatermarkTx`: the watermark never moves back. -/
def updateWatermarkTx (ingestedSequence : Int) (db : Db) : Db :=
  setWatermark chain network
    (match db.watermarks chain network with
      | none => ingestedSequence
      | some w => max w ingestedSequence) db

/-- `RewindWatermarkTx`: the watermark is set, whatever it was. -/
def rewindWatermarkTx (ingestedSequence : Int) (db : Db) : Db :=
  setWatermark chain network ingestedSequence db

@[simp] theorem setWatermark_self (v : Int) (db : Db) :
    (setWatermark chain network v db).watermarks chain network = some v := by
  simp [setWatermark]

theorem setWatermark_other {c : Chain} {n : Network} (h : ¬ (c = chain ∧ n = network)) (v : Int)
    (db : Db) : (setWatermark chain network v db).watermarks c n = db.watermarks c n := by
  simp [setWatermark, h]

end Watermark

section Blocks
variable (chain : Chain) (network : Network)

def IndexedBlock.upsert :
    Upsert IndexedBlock.numberKey (fun b => some (IndexedBlock.numberKey b)) IndexedBlock where
  itemKey b := some b.numberKey
  fresh _ b := b
  apply r b :=
    { r with
      blockHash := b.blockHash
      parentHash := b.parentHash
      finalityState := b.finalityState
      blockTime := b.blockTime }
  admits _ _ := true
  key_fresh _ _ := rfl
  key_apply _ _ := rfl
  ident_apply _ _ := rfl

def bulkUpsertBlocksTx (blocks : List IndexedBlock) (db : Db) : Except String Db :=
  if blocks.isEmpty then .ok db
  else wrapSql "bulk upsert indexed blocks" <|
    match IndexedBlock.upsert.run db.indexedBlocks blocks with
    | some (t, _) => .ok { db with indexedBlocks := t }
    | none => .error .affectsRowTwice

theorem bulkUpsertBlocksTx_ok {blocks : List IndexedBlock} {db db' : Db}
    (h : bulkUpsertBlocksTx blocks db = .ok db') :
    IndexedBlock.upsert.WroteAll db.indexedBlocks blocks db'.indexedBlocks ∧
      db' = { db with indexedBlocks := db'.indexedBlocks } := by
  unfold bulkUpsertBlocksTx at h
  split at h
  · rename_i he
    cases h
    rw [List.isEmpty_iff.mp he]
    exact ⟨rfl, rfl⟩
  · have h := Result.mapError_ok h
    split at h
    · rename_i t _ hrun
      cases h
      exact ⟨Upsert.run_wroteAll hrun, rfl⟩
    · cases h

def getByBlockNumber (blockNumber : Int) (db : Db) : Option IndexedBlock :=
  db.indexedBlocks.findKey (chain, network, blockNumber)

/-- `GetUnfinalized`: the newest thousand blocks that are not final, in ascending order. -/
def getUnfinalized (db : Db) : List IndexedBlock :=
  Ordered.ascending IndexedBlock.blockNumber ((Ordered.descending IndexedBlock.blockNumber
    (db.indexedBlocks.rows.filter fun b =>
      b.chain = chain && b.network = network && b.finalityState ≠ "finalized")).take 1000)

/-- `PurgeFinalizedBefore`. -/
def purgeFinalizedBefore (beforeBlock : Int) (db : Db) : Db :=
  { db with indexedBlocks := db.indexedBlocks.deleteWhere fun b =>
      b.chain = chain && b.network = network && b.finalityState = "finalized" &&
        b.blockNumber < beforeBlock }

theorem getUnfinalized_pairwise (db : Db) :
    (getUnfinalized chain network db).Pairwise fun a b => a.blockNumber < b.blockNumber := by
  refine Ordered.ascending_pairwise (List.Pairwise.sublist (List.take_sublist _ _) ?_)
  refine Ordered.distinct_perm Ordered.descending_perm ?_
  refine List.Pairwise.imp_of_mem ?_ (db.indexedBlocks.unique.filter _)
  intro a b ha hb hclash heq
  have hown : ∀ c : IndexedBlock, c ∈ db.indexedBlocks.rows.filter (fun b =>
      b.chain = chain && b.network = network && b.finalityState ≠ "finalized") →
      c.chain = chain ∧ c.network = network := by
    intro c hc
    have hp := (List.mem_filter.mp hc).2
    simp only [Bool.and_eq_true, decide_eq_true_eq] at hp
    exact hp.1
  obtain ⟨hac, han⟩ := hown a ha
  obtain ⟨hbc, hbn⟩ := hown b hb
  refine hclash (.inl ?_)
  unfold IndexedBlock.numberKey
  rw [hac, han, hbc, hbn, heq]

/-- `UpdateFinalityTx`: blocks up to `upToBlock` take the new state. -/
def updateFinalityTx (upToBlock : Int) (newState : String) (db : Db) : Db :=
  { db with
    indexedBlocks := db.indexedBlocks.update
      (fun b => if b.chain = chain ∧ b.network = network ∧ b.blockNumber ≤ upToBlock ∧
          b.finalityState ≠ newState
        then { b with finalityState := newState } else b)
      (by
        have hkey : ∀ b : IndexedBlock, (if b.chain = chain ∧ b.network = network ∧
            b.blockNumber ≤ upToBlock ∧ b.finalityState ≠ newState
            then { b with finalityState := newState } else b).numberKey = b.numberKey := by
          intro b
          split
          · rfl
          · rfl
        intro a b h
        simpa only [clashOn, hkey] using h) }

variable {chain network} in
theorem updateFinalityTx_again {upToBlock upToBlock' : Int} {newState : String}
    (hle : upToBlock' ≤ upToBlock) (db : Db) :
    updateFinalityTx chain network upToBlock' newState
        (updateFinalityTx chain network upToBlock newState db) =
      updateFinalityTx chain network upToBlock newState db := by
  have hsame : ∀ b ∈ (updateFinalityTx chain network upToBlock newState db).indexedBlocks.rows,
      (if b.chain = chain ∧ b.network = network ∧ b.blockNumber ≤ upToBlock' ∧
          b.finalityState ≠ newState
        then { b with finalityState := newState } else b) = b := by
    intro b hb
    obtain ⟨s, _, rfl⟩ := List.mem_map.mp hb
    refine if_neg ?_
    rintro ⟨hc, hn, hb, hf⟩
    split at hf
    · exact hf rfl
    · rename_i hcond
      rw [if_neg hcond] at hc hn hb
      exact hcond ⟨hc, hn, by omega, hf⟩
  unfold updateFinalityTx
  simp only [Db.mk.injEq, true_and, and_true]
  exact Table.update_eq_self hsame

end Blocks

section Delete
variable (chain : Chain) (network : Network) (fromBlock : Int)

def BalanceEventRow.isFrom (r : BalanceEventRow) : Bool :=
  decide (r.chain = chain ∧ r.network = network ∧ fromBlock ≤ r.blockCursor)

def Transaction.isFrom (t : Transaction) : Bool :=
  decide (t.chain = chain ∧ t.network = network ∧ fromBlock ≤ t.blockCursor)

def IndexedBlock.isFrom (b : IndexedBlock) : Bool :=
  decide (b.chain = chain ∧ b.network = network ∧ fromBlock ≤ b.blockNumber)

def deleteEventsFrom (db : Db) : Db :=
  { db with balanceEvents :=
      db.balanceEvents.deleteWhere (BalanceEventRow.isFrom chain network fromBlock) }

def deleteTransactionsFrom (db : Db) : Db :=
  { db with transactions :=
      db.transactions.deleteWhere (Transaction.isFrom chain network fromBlock) }

def deleteFromBlockTx (db : Db) : Db :=
  { db with indexedBlocks :=
      db.indexedBlocks.deleteWhere (IndexedBlock.isFrom chain network fromBlock) }

/-- The watermark of a rollback: the block before, but not below zero. -/
def rollbackWatermark : Int :=
  let newWatermark := wrap64 (fromBlock - 1)
  if newWatermark < 0 then 0 else newWatermark

/-- What a rollback deletes and rewinds once the balances are reverted. -/
def deleteAndRewind (blockRepo : Bool) (db : Db) : Db :=
  let db := deleteTransactionsFrom chain network fromBlock
    (deleteEventsFrom chain network fromBlock db)
  let db := if blockRepo then deleteFromBlockTx chain network fromBlock db else db
  rewindWatermarkTx chain network (rollbackWatermark fromBlock) db

theorem rollbackWatermark_eq_iff (h : IsInt64 fromBlock) :
    rollbackWatermark fromBlock = max (fromBlock - 1) 0 ↔ fromBlock ≠ -2 ^ 63 := by
  obtain ⟨hlo, hhi⟩ := h
  constructor
  · intro heq hmin
    subst hmin
    revert heq
    decide
  · intro hne
    have hw : wrap64 (fromBlock - 1) = fromBlock - 1 := wrap64_of_isInt64 ⟨by omega, by omega⟩
    simp only [rollbackWatermark, hw]
    split
    · omega
    · omega

end Delete

end MultichainIndexer
