import MultichainIndexer.Fetcher.BlockScan
import MultichainIndexer.Normalizer.Cursor
import MultichainIndexer.Ingester.Reconcile

/-!
# What the watermark covers

The sub-batches of a block-scan job are normalized and ingested one after
another, and the process may stop after any of them. The fetcher pins the cursor
of all but the last to the block before the job, but the normalizer moves it up
again to the signatures of the sub-batch, and the ingester takes the greater. So
after a stop the watermark is the block of the last signature committed, and it
covers signatures that were not exactly when the stop splits a block.
-/

namespace MultichainIndexer

/-- A raw batch on its way into the store, with what the stages find when they take it. -/
structure Commit where
  normalizer : NormalizerEnv
  ingester : IngestEnv
  batch : RawBatch

def Commit.Step (db : Db) (c : Commit) (db' : Db) : Prop :=
  ∃ nb, Normalizer.processBatch c.normalizer c.batch = .ok nb ∧
    processBatch c.ingester nb db = .ok db'

section Commits
variable {chain : Chain} {network : Network} {c : Commit} {db db' : Db}

theorem commit_watermark (h : Commit.Step db c db') (hprev : c.batch.previousCursorValue = none)
    (hchain : c.batch.chain = chain) (hnet : c.batch.network = network) {w : Int}
    (hw : getWatermark chain network db = some w) :
    ∃ nb, Normalizer.processBatch c.normalizer c.batch = .ok nb ∧
      getWatermark chain network db' = some (max w nb.newCursorSequence) := by
  obtain ⟨nb, hnorm, hproc⟩ := h
  obtain ⟨hc, hn, hnb⟩ := Normalizer.processBatch_frame hnorm
  refine ⟨nb, hnorm, ?_⟩
  have hnone : nb.previousCursorValue = none := by
    rw [hnb, hprev]
    rfl
  rcases processBatch_cases hproc with ⟨_, hin⟩ | ⟨_, hback, _⟩
  · obtain ⟨_, _, _, _, hby⟩ := ingestBatch_ok hin
    have hrow : (canonicalizeCursors nb).chain = chain ∧ (canonicalizeCursors nb).network = network :=
      ⟨hc.trans hchain, hn.trans hnet⟩
    unfold getWatermark at hw ⊢
    rw [hby.watermarks, hrow.1, hrow.2]
    unfold updateWatermarkTx
    rw [setWatermark_self, hw]
    rfl
  · rw [rollsBack_of_none hnone] at hback
    cases hback

/-- After a run of commits the watermark is where it was, or at a cursor or a signature that was
committed; and it is at or above every signature committed whose hash is stable. -/
theorem commits_watermark {w : Int} {acts : List Commit}
    (hrun : Runs.Run Commit.Step (fun _ c => Normalizer.AnswersAll c.normalizer c.batch) db acts db')
    (hbatch : ∀ c ∈ acts, c.batch.chain = chain ∧ c.batch.network = network ∧
      c.batch.previousCursorValue = none)
    (hw : getWatermark chain network db = some w) :
    ∃ v, getWatermark chain network db' = some v ∧ w ≤ v ∧
      (v = w ∨ ∃ c ∈ acts, v = c.batch.newCursorSequence ∨
        ∃ sig ∈ c.batch.signatures, v = sig.sequence) ∧
      ∀ c ∈ acts, (∀ sig ∈ c.batch.signatures, Normalizer.StableHash c.batch.chain sig) →
        ∀ sig ∈ c.batch.signatures, sig.sequence ≤ v := by
  induction hrun with
  | start => exact ⟨w, hw, Int.le_refl _, .inl rfl, fun c hc => absurd hc List.not_mem_nil⟩
  | next hprefix hans hstep ih =>
    rename_i acts t t' c
    obtain ⟨v, hv, hle, hfrom, habove⟩ :=
      ih fun c hc => hbatch c (List.mem_append_left _ hc)
    obtain ⟨hchain, hnet, hprev⟩ :=
      hbatch c List.mem_append_cons_self
    obtain ⟨nb, hnorm, hmax⟩ := commit_watermark hstep hprev hchain hnet hv
    refine ⟨_, hmax, Int.le_trans hle (Int.le_max_left _ _), ?_, ?_⟩
    · rcases Int.le_total v nb.newCursorSequence with hgt | hgt
      · rw [Int.max_eq_right hgt]
        exact .inr ⟨c, List.mem_append_cons_self,
          Normalizer.processBatch_cursor_mem hnorm hprev⟩
      · rw [Int.max_eq_left hgt]
        refine hfrom.imp_right ?_
        rintro ⟨c', hc', hseq⟩
        exact ⟨c', List.mem_append_left _ hc', hseq⟩
    · intro c' hc' hsta sig hsig
      rcases List.mem_append.mp hc' with hold | hnew
      · exact Int.le_trans (habove c' hold hsta sig hsig) (Int.le_max_left _ _)
      · obtain rfl := List.mem_singleton.mp hnew
        exact Int.le_trans (Normalizer.processBatch_cursor_ge hnorm hans hsta sig hsig)
          (Int.le_max_right _ _)

end Commits

/-- Every signature found up to the watermark is in a batch that was committed. -/
def CoversOnly (found : List SignatureInfo) (acts : List Commit) (v : Int) : Prop :=
  ∀ sig ∈ found, sig.sequence ≤ v → ∃ c ∈ acts, sig ∈ c.batch.signatures

/-- What is left after the first signatures is of the job's blocks, and shares no block with
them. -/
structure UnsplitAt (startBlock : Int) (found : List SignatureInfo) (cut : Nat) : Prop where
  started : ∀ b ∈ found.drop cut, startBlock ≤ b.sequence
  unsplit : ∀ a ∈ found.take cut, ∀ b ∈ found.drop cut, a.sequence ≠ b.sequence

section Job
variable {fenv : FetcherEnv} {job : FetchJob} {newest : SignatureInfo} {count : Nat}
variable {chunks : List (List SignatureInfo)} {acts : List Commit}

theorem committed_subBatch
    (h : acts.map Commit.batch <+: (streamChunks fenv job newest count 0 chunks).1) {k : Nat}
    {c : Commit} (hc : acts[k]? = some c) :
    ∃ chunk raw, chunks[k]? = some chunk ∧
      c.batch = subBatch job newest (k + 1 = chunks.length) chunk raw := by
  obtain ⟨rest, hrest⟩ := h
  refine streamChunks_sent fenv job newest count 0 chunks k c.batch ?_
  rw [← hrest, List.getElem?_append_left]
  · rw [List.getElem?_map, hc]
    rfl
  · rw [List.length_map]
    exact (List.getElem?_eq_some_iff.mp hc).1

theorem committed_frame
    (h : acts.map Commit.batch <+: (streamChunks fenv job newest count 0 chunks).1) :
    ∀ c ∈ acts, c.batch.chain = job.chain ∧ c.batch.network = job.network ∧
      c.batch.previousCursorValue = none := by
  intro c hc
  obtain ⟨k, hk⟩ := List.mem_iff_getElem?.mp hc
  obtain ⟨_, _, _, hb⟩ := committed_subBatch h hk
  rw [hb]
  exact ⟨rfl, rfl, rfl⟩

theorem committed_signatures
    (h : acts.map Commit.batch <+: (streamChunks fenv job newest count 0 chunks).1) :
    (acts.map fun c => c.batch.signatures) = chunks.take acts.length := by
  refine List.ext_getElem? fun k => ?_
  rw [List.getElem?_map, List.getElem?_take]
  cases hc : acts[k]? with
  | none =>
    rw [if_neg (Nat.not_lt.mpr (List.getElem?_eq_none_iff.mp hc))]
    rfl
  | some c =>
    obtain ⟨chunk, raw, hchunk, hbatch⟩ := committed_subBatch h hc
    rw [if_pos (List.getElem?_eq_some_iff.mp hc).1, hchunk, Option.map_some, hbatch]
    rfl

theorem mem_committed {n : Nat} {found : List SignatureInfo} (hn : 0 < n)
    (hchu : chunks = Chunk.chunks n found)
    (h : acts.map Commit.batch <+: (streamChunks fenv job newest count 0 chunks).1)
    {sig : SignatureInfo} :
    (∃ c ∈ acts, sig ∈ c.batch.signatures) ↔ sig ∈ found.take (acts.length * n) := by
  rw [← Chunk.chunks_take hn, ← hchu, ← committed_signatures h, List.mem_flatten]
  constructor
  · rintro ⟨c, hc, hsig⟩
    exact ⟨_, List.mem_map.mpr ⟨c, hc, rfl⟩, hsig⟩
  · rintro ⟨_, hl, hsig⟩
    obtain ⟨c, hc, rfl⟩ := List.mem_map.mp hl
    exact ⟨c, hc, hsig⟩

section Stop
variable {n : Nat} {found : List SignatureInfo} {w v : Int} {db db' : Db}
variable (hn : 0 < n)
variable (hw : getWatermark job.chain job.network db = some w)
variable (hsent : acts.map Commit.batch <+:
  (streamChunks fenv job newest count 0 (Chunk.chunks n found)).1)
variable (hrun : Runs.Run Commit.Step
  (fun _ c => Normalizer.AnswersAll c.normalizer c.batch) db acts db')
variable (hv : getWatermark job.chain job.network db' = some v)
include hn hw hsent hrun hv

/-- Where the watermark is after a stop: at the block before the job, at the end of it with nothing
left, or at a signature that was committed. -/
theorem watermark_after_stop (hint : IsInt64 w) (hstart : job.startBlock = w + 1) :
    v = w ∨ found.drop (acts.length * n) = [] ∨
      ∃ sig ∈ found.take (acts.length * n), v = sig.sequence := by
  have hbatch := committed_frame hsent
  obtain ⟨v', hv', _, hfrom, _⟩ := commits_watermark hrun hbatch hw
  obtain rfl : v = v' := Option.some.inj (hv.symm.trans hv')
  rcases hfrom with heq | ⟨c, hc, hcur | ⟨sig, hsig, hseq⟩⟩
  · exact .inl heq
  · obtain ⟨k, hk⟩ := List.mem_iff_getElem?.mp hc
    obtain ⟨chunk, raw, _, hb⟩ := committed_subBatch hsent hk
    by_cases hlast : k + 1 = (Chunk.chunks n found).length
    · -- the last chunk is committed, and nothing is left
      refine .inr (.inl ?_)
      have hlen : (Chunk.chunks n found).length ≤ acts.length := by
        have := (List.getElem?_eq_some_iff.mp hk).1
        omega
      rw [← Chunk.chunks_drop hn, List.drop_eq_nil_of_le hlen]
      rfl
    · refine .inl ?_
      rw [hcur, hb]
      show (if decide (k + 1 = (Chunk.chunks n found).length) = true then newest.sequence
        else wrap64 (job.startBlock - 1)) = w
      rw [if_neg (by simpa using hlast), hstart, Int.add_sub_cancel]
      exact wrap64_of_isInt64 hint
  · exact .inr (.inr ⟨sig, (mem_committed hn rfl hsent).mp ⟨c, hc, hsig⟩, hseq⟩)

theorem coversOnly_of_unsplit (hint : IsInt64 w) (hstart : job.startBlock = w + 1)
    (hsor : found.Pairwise fun a b => a.sequence ≤ b.sequence)
    (h : UnsplitAt job.startBlock found (acts.length * n)) : CoversOnly found acts v := by
  intro sig hsig hle
  rw [mem_committed hn rfl hsent]
  rw [← List.take_append_drop (acts.length * n) found] at hsig hsor
  rcases List.mem_append.mp hsig with htake | hdrop
  · exact htake
  · rcases watermark_after_stop hn hw hsent hrun hv hint hstart with rfl | hnil | ⟨a, ha, rfl⟩
    · have := h.started sig hdrop
      omega
    · rw [hnil] at hdrop
      cases hdrop
    · have hbef := (List.pairwise_append.mp hsor).2.2 a ha sig hdrop
      exact absurd (Int.le_antisymm hbef hle) (h.unsplit a ha sig hdrop)

theorem unsplit_of_coversOnly (hstart : job.startBlock = w + 1) (hnodup : found.Nodup)
    (hsta : ∀ sig ∈ found, Normalizer.StableHash job.chain sig)
    (h : CoversOnly found acts v) : UnsplitAt job.startBlock found (acts.length * n) := by
  have hbatch := committed_frame hsent
  obtain ⟨v', hv', hle, _, habove⟩ := commits_watermark hrun hbatch hw
  obtain rfl : v = v' := Option.some.inj (hv.symm.trans hv')
  -- what is left is not committed, so it is above the watermark
  have hleft : ∀ b ∈ found.drop (acts.length * n), v < b.sequence := by
    intro b hb
    by_contra hcov
    have hcom := (mem_committed hn rfl hsent).mp
      (h b (List.mem_of_mem_drop hb) (Int.not_lt.mp hcov))
    exact List.disjoint_take_drop hnodup (Nat.le_refl _) hcom hb
  refine ⟨fun b hb => ?_, fun a ha b hb => ?_⟩
  · have := hleft b hb
    omega
  · obtain ⟨c, hc, hsig⟩ := (mem_committed hn rfl hsent).mpr ha
    have hsta' : ∀ sig ∈ c.batch.signatures, Normalizer.StableHash c.batch.chain sig := by
      intro sig hsig
      rw [(hbatch c hc).1]
      exact hsta sig (List.mem_of_mem_take ((mem_committed hn rfl hsent).mp ⟨c, hc, hsig⟩))
    have hbelow := habove c hc hsta' a hsig
    have := hleft b hb
    omega

end Stop

end Job

/-- After a stop the watermark covers only what was committed where the stop splits no block; and
only there, as long as the hashes are stable. -/
theorem blockScan_coversOnly (fenv : FetcherEnv) (job : FetchJob)
    (scan : Int → Int → List String → Except String (List SignatureInfo))
    (sigs : List SignatureInfo) (w v : Int) (db db' : Db) (acts : List Commit)
    (hscan : fenv.scanBlocks = some scan)
    (hsigs : scan job.startBlock job.endBlock job.watchedAddresses = .ok sigs)
    (hint : IsInt64 w) (hstart : job.startBlock = w + 1)
    (hw : getWatermark job.chain job.network db = some w)
    (hsent : acts.map Commit.batch <+: (processBlockScanJob fenv job).1)
    (hrun : Runs.Run Commit.Step (fun _ c => Normalizer.AnswersAll c.normalizer c.batch) db acts db')
    (hv : getWatermark job.chain job.network db' = some v) :
    (UnsplitAt job.startBlock (canonicalizeSignatures job.chain sigs)
        (acts.length * effectiveBlockScanMaxBatchTxs fenv) →
      CoversOnly (canonicalizeSignatures job.chain sigs) acts v) ∧
    ((∀ sig ∈ canonicalizeSignatures job.chain sigs,
        canonicalSignatureIdentity job.chain sig.hash = sig.hash) →
      CoversOnly (canonicalizeSignatures job.chain sigs) acts v →
      UnsplitAt job.startBlock (canonicalizeSignatures job.chain sigs)
        (acts.length * effectiveBlockScanMaxBatchTxs fenv)) := by
  have hsor : (canonicalizeSignatures job.chain sigs).Pairwise fun a b =>
    a.sequence ≤ b.sequence := sorted_canonicalSignatures
  have hnodup : (canonicalizeSignatures job.chain sigs).Nodup :=
    List.Nodup.of_map _ nodup_canonicalSignatures
  have hnon : ∀ sig ∈ canonicalizeSignatures job.chain sigs, sig.hash ≠ "" := by
    intro sig hsig
    obtain ⟨_, _, hne, rfl⟩ := mem_canonicalSignatures hsig
    exact hne
  simp only [processBlockScanJob, hscan, hsigs] at hsent
  generalize canonicalizeSignatures job.chain sigs = found at *
  have hn := effectiveBlockScanMaxBatchTxs_pos fenv
  cases hlast : found.getLast? with
  | none =>
    -- nothing was found, and there is nothing to cover
    obtain rfl := List.getLast?_eq_none_iff.mp hlast
    refine ⟨fun _ sig hsig => absurd hsig List.not_mem_nil, fun _ _ => ⟨?_, ?_⟩⟩
    · intro b hb
      rw [List.drop_nil] at hb
      cases hb
    · intro a ha b hb
      rw [List.drop_nil] at hb
      cases hb
  | some newest =>
    rw [hlast] at hsent
    refine ⟨coversOnly_of_unsplit hn hw hsent hrun hv hint hstart hsor, fun hsta => ?_⟩
    exact unsplit_of_coversOnly hn hw hsent hrun hv hstart hnodup fun sig hsig =>
      ⟨hnon sig hsig, hsta sig hsig⟩

def echoSidecar : NormalizerEnv where
  decode := fun txs _ => .ok { results := txs.map fun tx =>
    { txHash := tx.1, blockCursor := 10, feeAmount := "0" } }
  isTransient := fun _ => false
  buildCanonicalBalanceEvents := fun _ _ _ _ => []

def findsTwo (second : Int) : FetcherEnv where
  scanBlocks := some fun _ _ _ =>
    .ok [{ hash := "0xaa", sequence := 10 }, { hash := "0xbb", sequence := second }]
  fetchTransactions := fun hashes => .ok hashes
  blockScanMaxBatchTxs := 1

def jobFromTen : FetchJob where
  chain := .ethereum
  network := .mainnet
  blockScanMode := true
  startBlock := 10
  endBlock := 12

def firstCommit (second : Int) : Commit where
  normalizer := echoSidecar
  ingester := {}
  batch := subBatch jobFromTen { hash := "0xbb", sequence := second } false
    [{ hash := "0xaa", sequence := 10 }] ["0xaa"]

def watermarkNine : Db := rewindWatermarkTx .ethereum .mainnet 9 {}

theorem firstCommit_answers (second : Int) :
    Normalizer.AnswersAll (firstCommit second).normalizer (firstCommit second).batch := by
  refine ⟨_, rfl, rfl, fun sig hsig => ?_⟩
  obtain rfl := List.mem_singleton.mp hsig
  exact ⟨_, List.mem_singleton.mpr rfl, rfl⟩

theorem firstCommit_step (second : Int) :
    ∃ db', Commit.Step watermarkNine (firstCommit second) db' ∧
      getWatermark .ethereum .mainnet db' = some 10 := by
  obtain ⟨nb, hnorm, db', hproc, hw⟩ :
      ∃ nb, Normalizer.processBatch echoSidecar (firstCommit 10).batch = .ok nb ∧
      ∃ db', processBatch {} nb watermarkNine = .ok db' ∧
        getWatermark .ethereum .mainnet db' = some 10 := by decide
  exact ⟨db', ⟨nb, hnorm, hproc⟩, hw⟩

/-- Two transactions of the blocks 10 and 11: after the first the watermark covers only it. -/
theorem blockScan_coversOnly_two :
    ∃ db', Runs.Run Commit.Step (fun _ c => Normalizer.AnswersAll c.normalizer c.batch)
        watermarkNine [firstCommit 11] db' ∧
      CoversOnly (canonicalizeSignatures .ethereum
        [{ hash := "0xaa", sequence := 10 }, { hash := "0xbb", sequence := 11 }])
        [firstCommit 11] 10 := by
  obtain ⟨db', hstep, hv⟩ := firstCommit_step 11
  have hrun : Runs.Run Commit.Step (fun _ c => Normalizer.AnswersAll c.normalizer c.batch)
      watermarkNine [firstCommit 11] db' := .next .start (firstCommit_answers 11) hstep
  refine ⟨db', hrun, ?_⟩
  exact (blockScan_coversOnly (findsTwo 11) jobFromTen _ _ 9 10 watermarkNine db' [firstCommit 11]
    rfl rfl (by decide) rfl rfl ⟨_, rfl⟩ hrun hv).1 ⟨by decide, by decide⟩

/-- Two transactions of block 10: after the first the watermark is 10 and covers the second, which
is not committed. -/
theorem blockScan_covers_uncommitted :
    ∃ db', [firstCommit 10].map Commit.batch <+: (processBlockScanJob (findsTwo 10) jobFromTen).1 ∧
      getWatermark .ethereum .mainnet watermarkNine = some 9 ∧
      Normalizer.AnswersAll (firstCommit 10).normalizer (firstCommit 10).batch ∧
      Commit.Step watermarkNine (firstCommit 10) db' ∧
      getWatermark .ethereum .mainnet db' = some 10 ∧
      ¬ CoversOnly (canonicalizeSignatures .ethereum
        [{ hash := "0xaa", sequence := 10 }, { hash := "0xbb", sequence := 10 }])
        [firstCommit 10] 10 := by
  obtain ⟨db', hstep, hv⟩ := firstCommit_step 10
  refine ⟨db', ⟨_, rfl⟩, rfl, firstCommit_answers 10, hstep, hv, fun h => ?_⟩
  obtain ⟨c, hc, hsig⟩ := h { hash := "0xbb", sequence := 10 } (by decide) (Int.le_refl _)
  obtain rfl := List.mem_singleton.mp hc
  revert hsig
  decide

end MultichainIndexer
