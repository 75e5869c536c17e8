import MultichainIndexer.Lib.Chunk
import MultichainIndexer.Signatures

/-!
# Block-scan jobs

The fetcher scans the range of a job for signatures, brings them into canonical
form and sends them on in sub-batches, each as soon as its transactions are
fetched. Only the last sub-batch carries the newest cursor; the others carry the
block before the job. What the adapter answers is what it answers after the
retries. A job without signatures sends one empty batch for its last block.
-/

namespace MultichainIndexer

structure FetcherEnv where
  scanBlocks : Option (Int → Int → List String → Except String (List SignatureInfo))
  fetchTransactions : List String → Except String (List String)
  blockScanMaxBatchTxs : Int := 0

def effectiveBlockScanMaxBatchTxs (env : FetcherEnv) : Nat :=
  if env.blockScanMaxBatchTxs ≤ 0 then 500 else env.blockScanMaxBatchTxs.toNat

def emptyBatch (job : FetchJob) : RawBatch where
  chain := job.chain
  network := job.network
  previousCursorSequence := job.startBlock
  newCursorSequence := job.endBlock
  blockScanMode := true
  watchedAddresses := job.watchedAddresses

def subBatch (job : FetchJob) (newest : SignatureInfo) (isLastChunk : Bool)
    (chunkSigInfos : List SignatureInfo) (chunkRawTxs : List String) : RawBatch where
  chain := job.chain
  network := job.network
  rawTransactions := chunkRawTxs
  signatures := chunkSigInfos
  newCursorValue := if isLastChunk then some newest.hash else none
  newCursorSequence := if isLastChunk then newest.sequence else wrap64 (job.startBlock - 1)
  blockScanMode := true
  watchedAddresses := job.watchedAddresses

section Stream
variable (env : FetcherEnv) (job : FetchJob) (newest : SignatureInfo) (chunkCount : Nat)

/-- The sub-batches that are sent, and the error that ends the stream. -/
def streamChunks : Nat → List (List SignatureInfo) → List RawBatch × Option String
  | _, [] => ([], none)
  | chunkIdx, chunk :: rest =>
    match env.fetchTransactions (chunk.map SignatureInfo.hash) with
    | .error e => ([], some ("block-scan FetchTransactions chunk " ++ toString (chunkIdx + 1) ++
        "/" ++ toString chunkCount ++ ": " ++ e))
    | .ok chunkRawTxs =>
      let sent := streamChunks (chunkIdx + 1) rest
      (subBatch job newest rest.isEmpty chunk chunkRawTxs :: sent.1, sent.2)

end Stream

def processBlockScanJob (env : FetcherEnv) (job : FetchJob) : List RawBatch × Option String :=
  match env.scanBlocks with
  | none => ([], some ("adapter does not implement BlockScanAdapter for chain " ++ job.chain.text))
  | some scanBlocks =>
    match scanBlocks job.startBlock job.endBlock job.watchedAddresses with
    | .error e => ([], some ("block-scan ScanBlocks: " ++ e))
    | .ok sigs =>
      let sigs := canonicalizeSignatures job.chain sigs
      match sigs.getLast? with
      | none => ([emptyBatch job], none)
      | some newest =>
        let chunks := Chunk.chunks (effectiveBlockScanMaxBatchTxs env) sigs
        streamChunks env job newest chunks.length 0 chunks

theorem effectiveBlockScanMaxBatchTxs_pos (env : FetcherEnv) :
    0 < effectiveBlockScanMaxBatchTxs env := by
  unfold effectiveBlockScanMaxBatchTxs
  split
  · decide
  · omega

/-- The sub-batches that are sent are those of the first chunks, each with its signatures; only
the last chunk carries the newest cursor. -/
theorem streamChunks_sent (env : FetcherEnv) (job : FetchJob) (newest : SignatureInfo)
    (chunkCount chunkIdx : Nat) (chunks : List (List SignatureInfo)) (k : Nat) (b : RawBatch)
    (h : (streamChunks env job newest chunkCount chunkIdx chunks).1[k]? = some b) :
    ∃ chunk raw, chunks[k]? = some chunk ∧
      b = subBatch job newest (k + 1 = chunks.length) chunk raw := by
  induction chunks generalizing chunkIdx k with
  | nil => simp [streamChunks] at h
  | cons chunk rest ih =>
    unfold streamChunks at h
    split at h
    · simp at h
    · rename_i raw _
      cases k with
      | zero =>
        rw [List.getElem?_cons_zero, Option.some.injEq] at h
        refine ⟨chunk, raw, rfl, ?_⟩
        rw [← h]
        congr 1
        cases rest with
        | nil => rfl
        | cons c rest => simp
      | succ k =>
        rw [List.getElem?_cons_succ] at h
        obtain ⟨chunk', raw', hchunk, rfl⟩ := ih _ _ h
        refine ⟨chunk', raw', by rw [List.getElem?_cons_succ]; exact hchunk, ?_⟩
        congr 1
        simp

theorem processBlockScanJob_mem {fenv : FetcherEnv} {job : FetchJob} {b : RawBatch}
    (h : b ∈ (processBlockScanJob fenv job).1) :
    b.blockScanMode = true ∧ b.address = "" ∧ b.previousCursorValue = none := by
  unfold processBlockScanJob at h
  split at h
  · cases h
  · split at h
    · cases h
    · simp only at h
      split at h
      · obtain rfl := List.mem_singleton.mp h
        exact ⟨rfl, rfl, rfl⟩
      · obtain ⟨k, hk⟩ := List.mem_iff_getElem?.mp h
        obtain ⟨_, _, _, rfl⟩ := streamChunks_sent _ _ _ _ _ _ _ _ hk
        exact ⟨rfl, rfl, rfl⟩

end MultichainIndexer
