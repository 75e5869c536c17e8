import MultichainIndexer.Pipeline.Watermark

/-!
# The blocks that the reorg detector sees

The ingester indexes a block from the hash that a transaction of it carries. The
sidecar's answer has no such field and the normalizer sets none, so that no batch
it makes adds a row to `indexed_blocks`: a block is there after the batch exactly
if it was there before, and the table stays as it is over any number of batches.
-/

namespace MultichainIndexer

/-- The table has a row for the block, and it carries the given hash, which is not empty. -/
def BlockIndexed (db : Db) (chain : Chain) (network : Network) (number : Int) (hash : String) :
    Prop :=
  hash ≠ "" ∧ ∃ r ∈ db.indexedBlocks.rows, r.chain = chain ∧ r.network = network ∧
    r.blockNumber = number ∧ r.blockHash = hash

theorem blocksOf_eq_nil {batch : NormalizedBatch}
    (h : ∀ ntx ∈ batch.transactions, ntx.blockHash = "") : blocksOf batch = [] := by
  refine List.foldlRecOn batch.transactions _ (motive := fun blocks => blocks = []) rfl ?_
  intro blocks hblo ntx hntx
  rw [if_pos (by simp [h ntx hntx])]
  exact hblo

section Commits
variable {db db' : Db}

theorem ingestBatch_indexedBlocks {env : IngestEnv} {batch : NormalizedBatch}
    (h : ∀ ntx ∈ batch.transactions, ntx.blockHash = "")
    (hin : ingestBatch env batch db = .ok db') :
    db'.indexedBlocks.rows = db.indexedBlocks.rows := by
  obtain ⟨_, _, _, _, hby⟩ := ingestBatch_ok hin
  have hblo := hby.indexedBlocks
  rw [blocksOf_eq_nil h] at hblo
  split at hblo
  · exact hblo
  · rw [hblo]

theorem commit_indexedBlocks {c : Commit} (h : Commit.Step db c db') :
    db'.indexedBlocks.rows = db.indexedBlocks.rows := by
  obtain ⟨nb, hnorm, hproc⟩ := h
  have hnb := Normalizer.processBatch_blockHash hnorm
  have hhash : ∀ ntx ∈ (canonicalizeCursors nb).transactions, ntx.blockHash = "" := hnb
  rcases processBatch_cases hproc with ⟨_, hin⟩ | ⟨u, _, hdrift, hrest⟩
  · exact ingestBatch_indexedBlocks hhash hin
  · have hu : u.indexedBlocks.rows = db.indexedBlocks.rows := by
      rw [hdrift.indexedBlocks]
    rcases hrest with ⟨_, hin⟩ | ⟨_, rfl⟩
    · rw [ingestBatch_indexedBlocks hhash hin, hu]
    · exact hu

end Commits

/-- The blocks of a batch are indexed after it, under whatever hashes they were read from, exactly
if they were indexed before. -/
theorem commit_blocks_indexed_iff (nenv : NormalizerEnv) (ienv : IngestEnv) (batch : RawBatch)
    (nb : NormalizedBatch) (db db' : Db) (sourceHash : NormalizedTransaction → String)
    (hnorm : Normalizer.processBatch nenv batch = .ok nb)
    (hproc : processBatch ienv nb db = .ok db') :
    (∀ ntx ∈ nb.transactions,
      BlockIndexed db' batch.chain batch.network ntx.blockCursor (sourceHash ntx)) ↔
    ∀ ntx ∈ nb.transactions,
      BlockIndexed db batch.chain batch.network ntx.blockCursor (sourceHash ntx) := by
  have hstep : Commit.Step db ⟨nenv, ienv, batch⟩ db' := ⟨nb, hnorm, hproc⟩
  unfold BlockIndexed
  rw [commit_indexedBlocks hstep]

def blockTen : IndexedBlock where
  chain := .ethereum
  network := .mainnet
  blockNumber := 10
  blockHash := "0xb10c"

/-- A block that is indexed already stays so. -/
theorem commit_blocks_indexed_before :
    ∃ db nb db', bulkUpsertBlocksTx [blockTen] {} = .ok db ∧
      Normalizer.processBatch echoSidecar (firstCommit 10).batch = .ok nb ∧
      processBatch { blockRepo := true } nb db = .ok db' ∧ nb.transactions ≠ [] ∧
      ∀ ntx ∈ nb.transactions, BlockIndexed db' .ethereum .mainnet ntx.blockCursor "0xb10c" := by
  obtain ⟨db, hblo, nb, hnorm, db', hproc, hsome, hrow⟩ :
      ∃ db, bulkUpsertBlocksTx [blockTen] {} = .ok db ∧
      ∃ nb, Normalizer.processBatch echoSidecar (firstCommit 10).batch = .ok nb ∧
      ∃ db', processBatch { blockRepo := true } nb db = .ok db' ∧ nb.transactions.isEmpty = false ∧
        ∀ ntx ∈ nb.transactions, ∃ r ∈ db.indexedBlocks.rows, r.chain = .ethereum ∧
          r.network = .mainnet ∧ r.blockNumber = ntx.blockCursor ∧ r.blockHash = "0xb10c" := by
    decide
  refine ⟨db, nb, db', hblo, hnorm, hproc, List.isEmpty_eq_false_iff.mp hsome, ?_⟩
  exact (commit_blocks_indexed_iff echoSidecar { blockRepo := true } (firstCommit 10).batch nb db
    db' (fun _ => "0xb10c") hnorm hproc).mpr fun ntx hntx => ⟨by decide, hrow ntx hntx⟩

/-- A first batch with a transaction of block 10, ingested with a block repository, leaves the
table without a row for the block. -/
theorem commit_block_unseen :
    ∃ nb db', Normalizer.processBatch echoSidecar (firstCommit 10).batch = .ok nb ∧
      processBatch { blockRepo := true } nb {} = .ok db' ∧
      ∃ ntx ∈ nb.transactions, ∀ hash,
        ¬ BlockIndexed db' .ethereum .mainnet ntx.blockCursor hash := by
  obtain ⟨nb, hnorm, db', hproc, ⟨ntx, hntx, _⟩, hempty⟩ :
      ∃ nb, Normalizer.processBatch echoSidecar (firstCommit 10).batch = .ok nb ∧
      ∃ db', processBatch { blockRepo := true } nb {} = .ok db' ∧
        (∃ ntx ∈ nb.transactions, True) ∧ db'.indexedBlocks.rows.isEmpty = true := by decide
  refine ⟨nb, db', hnorm, hproc, ntx, hntx, fun hash hind => ?_⟩
  obtain ⟨_, r, hr, _⟩ := hind
  rw [List.isEmpty_iff.mp hempty] at hr
  cases hr

end MultichainIndexer
