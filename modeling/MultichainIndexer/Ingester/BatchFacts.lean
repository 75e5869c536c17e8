import MultichainIndexer.Lib.FirstOf
import MultichainIndexer.Ingester.BuildFacts
import MultichainIndexer.Ingester.ProcessBatch

/-!
# What a processed batch does to the database

One lemma for each phase and path of `processBatch`: the statements it ran and
the tables it wrote. Later arguments about batches start from `IngestedBy` and
`DriftedBy` and do not open the phases again.
-/

namespace MultichainIndexer

open Relational

/-- A batch taken in, with what its phases computed on the way. -/
structure IngestedBy (env : IngestEnv) (batch : NormalizedBatch) (db db' : Db)
    (addrMap : Option (List WatchedAddress)) (pre : Prefetched) (prefetched : Tokens)
    (st : BuildState) : Prop where
  addresses : blockScanAddresses env batch = .ok addrMap
  prefetch : prefetchBulkData env batch (collectEvents batch) db =
    .ok (pre, { db with transactions := db'.transactions, tokens := prefetched })
  transactions : bulkUpsertTransactionsTx (collectEvents batch).txModels db.transactions =
    .ok (db'.transactions, pre.txIDMap)
  tokens : bulkUpsertTokensTx (collectEvents batch).tokenModels db.tokens =
    .ok (prefetched, pre.tokenIDMap)
  build : buildEventModels env addrMap batch pre (batchEvents batch)
    { db with transactions := db'.transactions, tokens := prefetched } = .ok st
  balanceEvents : ∃ res, bulkUpsertEventsTx env.now st.eventModels db.balanceEvents =
    .ok (db'.balanceEvents, res)
  balances : bulkAdjustBalanceTx batch.chain batch.network env.choice
    (adjustItems st.aggregatedDeltas) db.balances = .ok db'.balances
  indexedBlocks : if env.blockRepo then
      IndexedBlock.upsert.WroteAll db.indexedBlocks (blocksOf batch) db'.indexedBlocks
    else db'.indexedBlocks = db.indexedBlocks
  watermarks : db'.watermarks =
    (updateWatermarkTx batch.chain batch.network batch.newCursorSequence db).watermarks

/-- The finality state that a transaction gives its block: that of its first event. -/
def NormalizedTransaction.blockState (ntx : NormalizedTransaction) : String :=
  match ntx.balanceEvents.head? with
  | some be => if be.finalityState ≠ "" then be.finalityState else "pending"
  | none => "pending"

section Blocks
variable {batch : NormalizedBatch}

def blockRow (batch : NormalizedBatch) (ntx : NormalizedTransaction) : IndexedBlock where
  chain := batch.chain
  network := batch.network
  blockNumber := ntx.blockCursor
  blockHash := ntx.blockHash
  parentHash := ntx.parentHash
  finalityState := ntx.blockState
  blockTime := ntx.blockTime

theorem blocksOf_eq :
    blocksOf batch = FirstOf.firstOf IndexedBlock.blockNumber
      ((batch.transactions.filter fun ntx => ntx.blockHash ≠ "").map (blockRow batch)) := by
  unfold blocksOf FirstOf.firstOf
  rw [List.foldl_map, List.foldl_filter]
  congr 1
  funext blocks ntx
  by_cases hhash : ntx.blockHash = ""
  · simp [hhash]
  · simp only [hhash, decide_false, Bool.false_or, ne_eq, not_false_eq_true, decide_true, if_true]
    rfl

theorem blocksOf_distinct : (blocksOf batch).Pairwise IndexedBlock.upsert.Apart := by
  have hnodup : ((blocksOf batch).map IndexedBlock.blockNumber).Nodup := by
    rw [blocksOf_eq]
    exact FirstOf.nodup_firstOf _
  refine (List.pairwise_map.mp hnodup).imp ?_
  intro b b' hne k hk hk'
  have hkey : b.numberKey = b'.numberKey := Option.some.inj (hk.trans hk'.symm)
  exact hne (congrArg (fun key => key.2.2) hkey)

end Blocks

section Phases
variable {env : IngestEnv} {batch : NormalizedBatch} {db db' : Db}

theorem prefetchBulkData_ok {s : Collected} {pre : Prefetched}
    (h : prefetchBulkData env batch s db = .ok (pre, db')) :
    bulkUpsertTransactionsTx s.txModels db.transactions = .ok (db'.transactions, pre.txIDMap) ∧
      bulkUpsertTokensTx s.tokenModels db.tokens = .ok (db'.tokens, pre.tokenIDMap) ∧
      db' = { db with transactions := db'.transactions, tokens := db'.tokens } := by
  unfold prefetchBulkData at h
  obtain ⟨⟨transactions, txIDMap⟩, htx, h⟩ := Result.bind_ok h
  obtain ⟨⟨tokens, tokenIDMap⟩, htok, h⟩ := Result.bind_ok h
  cases h
  exact ⟨Result.mapError_ok htx, Result.mapError_ok htok, rfl⟩

theorem writeBulkAndCommit_ok {st : BuildState} (h : writeBulkAndCommit env batch st db = .ok db') :
    (∃ res, bulkUpsertEventsTx env.now st.eventModels db.balanceEvents =
      .ok (db'.balanceEvents, res)) ∧
    bulkAdjustBalanceTx batch.chain batch.network env.choice (adjustItems st.aggregatedDeltas)
      db.balances = .ok db'.balances ∧
    (if env.blockRepo then
        IndexedBlock.upsert.WroteAll db.indexedBlocks (blocksOf batch) db'.indexedBlocks
      else db'.indexedBlocks = db.indexedBlocks) ∧
    db'.watermarks =
      (updateWatermarkTx batch.chain batch.network batch.newCursorSequence db).watermarks ∧
    db'.transactions = db.transactions := by
  unfold writeBulkAndCommit at h
  obtain ⟨⟨balanceEvents, res⟩, hev, h⟩ := Result.bind_ok h
  obtain ⟨balances, hbal, h⟩ := Result.bind_ok h
  simp only at h
  split at h
  · rename_i hrepo
    obtain ⟨u, hu, h⟩ := Result.bind_ok h
    cases h
    obtain ⟨hblo, hframe⟩ := bulkUpsertBlocksTx_ok (Result.mapError_ok hu)
    rw [hframe, if_pos hrepo]
    exact ⟨⟨res, Result.mapError_ok hev⟩, Result.mapError_ok hbal, hblo, rfl, rfl⟩
  · rename_i hrepo
    obtain ⟨u, hu, h⟩ := Result.bind_ok h
    cases hu
    cases h
    rw [if_neg hrepo]
    exact ⟨⟨res, Result.mapError_ok hev⟩, Result.mapError_ok hbal, rfl, rfl, rfl⟩

theorem writeBulkAndCommit_isOk {st : BuildState}
    (heve : ∃ res, bulkUpsertEventsTx env.now st.eventModels db.balanceEvents = .ok res)
    (hbala : ∃ t, bulkAdjustBalanceTx batch.chain batch.network env.choice
      (adjustItems st.aggregatedDeltas) db.balances = .ok t) :
    ∃ db', writeBulkAndCommit env batch st db = .ok db' := by
  obtain ⟨⟨balanceEvents, res⟩, hev⟩ := heve
  obtain ⟨balances, hbal⟩ := hbala
  have hblo : ∀ db : Db, ∃ db', bulkUpsertBlocksTx (blocksOf batch) db = .ok db' := by
    intro db
    obtain ⟨⟨t, ret⟩, hrun⟩ : ∃ res,
        IndexedBlock.upsert.run db.indexedBlocks (blocksOf batch) = some res :=
      Upsert.run_isSome
        (fun rows b hfree r hr heq => hfree b.numberKey rfl r hr (congrArg some heq))
        blocksOf_distinct
    unfold bulkUpsertBlocksTx
    rw [hrun]
    split
    · exact ⟨_, rfl⟩
    · exact ⟨_, rfl⟩
  unfold writeBulkAndCommit
  rw [hev, hbal]
  simp only [Except.mapError, bind, Except.bind]
  split
  · obtain ⟨u, hu⟩ := hblo { db with
      tokens := st.tokens, balanceEvents := balanceEvents, balances := balances }
    rw [hu]
    exact ⟨_, rfl⟩
  · exact ⟨_, rfl⟩

theorem ingestBatch_ok (h : ingestBatch env batch db = .ok db') :
    ∃ addrMap pre tokens st, IngestedBy env batch db db' addrMap pre tokens st := by
  unfold ingestBatch at h
  obtain ⟨addrMap, haddr, h⟩ := Result.bind_ok h
  obtain ⟨⟨pre, u⟩, hpre, h⟩ := Result.bind_ok h
  obtain ⟨st, hst, h⟩ := Result.bind_ok h
  obtain ⟨htx, htok, hu⟩ := prefetchBulkData_ok hpre
  obtain ⟨hev, hbal, hblo, hwm, htxs⟩ := writeBulkAndCommit_ok h
  refine ⟨addrMap, pre, u.tokens, st, ?_⟩
  rw [hu] at hev hbal hblo hwm hst hpre
  rw [collectEvents_allEvents] at hst
  rw [← htxs] at htx hst hpre
  exact ⟨haddr, hpre, htx, htok, hst, hev, hbal, hblo, hwm⟩

/-- A drift rollback: the reverted balances, the deleted events and the rewound watermark. -/
structure DriftedBy (env : IngestEnv) (batch : NormalizedBatch) (db db' : Db) : Prop where
  balances : bulkAdjustBalanceTx batch.chain batch.network env.choice
    (buildReversalAdjustItems (db.balanceEvents.rows.filter
      (BalanceEventRow.isDrifted batch (rollbackForkCursorSequence batch)))) db.balances =
    .ok db'.balances
  balanceEvents : db'.balanceEvents = db.balanceEvents.deleteWhere
    (BalanceEventRow.isDrifted batch (rollbackForkCursorSequence batch))
  watermarks : db'.watermarks = (rewindWatermarkTx batch.chain batch.network
    (rollbackWatermark (rollbackForkCursorSequence batch)) db).watermarks
  transactions : db'.transactions = db.transactions
  tokens : db'.tokens = db.tokens
  indexedBlocks : db'.indexedBlocks = db.indexedBlocks

theorem rollbackCanonicalityDrift_ok (h : rollbackCanonicalityDrift env batch db = .ok db') :
    DriftedBy env batch db db' := by
  unfold rollbackCanonicalityDrift at h
  obtain ⟨balances, hbal, h⟩ := Result.bind_ok h
  cases h
  exact ⟨Result.mapError_ok hbal, rfl, rfl, rfl, rfl, rfl⟩

/-- The three paths of a batch: taken in, rolled back, or rolled back and then taken in. -/
theorem processBatch_cases (h : processBatch env batch db = .ok db') :
    (rollsBack (canonicalizeCursors batch) = false ∧
      ingestBatch env (canonicalizeCursors batch) db = .ok db') ∨
    ∃ u, rollsBack (canonicalizeCursors batch) = true ∧
      DriftedBy env (withRollbackForkCursor (canonicalizeCursors batch)) db u ∧
      (shouldContinueCompetingBranchReplay (canonicalizeCursors batch) = true ∧
          ingestBatch env (canonicalizeCursors batch) u = .ok db' ∨
        shouldContinueCompetingBranchReplay (canonicalizeCursors batch) = false ∧ db' = u) := by
  unfold processBatch at h
  simp only at h
  split at h
  · rename_i hback
    split at h
    · cases h
    · rename_i u hu
      refine .inr ⟨u, hback, rollbackCanonicalityDrift_ok hu, ?_⟩
      split at h
      · rename_i hcont
        exact .inl ⟨hcont, h⟩
      · rename_i hcont
        cases h
        exact .inr ⟨by simpa using hcont, rfl⟩
  · rename_i hback
    exact .inl ⟨by simpa using hback, h⟩

theorem rollsBack_of_none {batch : NormalizedBatch} (h : batch.previousCursorValue = none) :
    rollsBack (canonicalizeCursors batch) = false := by
  have hnone : (canonicalizeCursors batch).previousCursorValue = none := by
    show canonicalizeCursorValue batch.chain batch.previousCursorValue = none
    rw [h]
    rfl
  simp only [rollsBack, isCanonicalityDrift, hnone, Bool.false_and]

theorem processBatch_of_no_previous (env : IngestEnv) (db : Db)
    (hprev : batch.previousCursorValue = none) :
    processBatch env batch db = ingestBatch env (canonicalizeCursors batch) db := by
  unfold processBatch
  simp only [rollsBack_of_none hprev, Bool.false_eq_true, if_false]

theorem batchEvents_canonicalizeCursors (batch : NormalizedBatch) :
    batchEvents (canonicalizeCursors batch) = batchEvents batch := rfl

end Phases

end MultichainIndexer
