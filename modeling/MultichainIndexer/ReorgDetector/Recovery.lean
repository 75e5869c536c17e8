import MultichainIndexer.Ingester.Loop
import MultichainIndexer.ReorgDetector.Detection

/-!
# Recovery from a reorg

The ingester rolls back for the event of a check, and the next check asks again.
A rollback deletes the block that its event names, so the rounds end. An event
clears what was verified, so the check after a round asks for every block.
-/

namespace MultichainIndexer

structure Recovery where
  detector : Detector
  db : Db

/-- A check emits an event and the rollback for it commits. -/
def Recovery.Round (env : IngestEnv) (replayService : Option Bool) (s : Recovery)
    (reads : CheckReads) (s' : Recovery) : Prop :=
  ∃ e, (s.detector.check reads s.db).event = some e ∧
    handleReorg env replayService e s.db = .ok s'.db ∧
    s'.detector = (s.detector.check reads s.db).detector

def Detector.watches (d : Detector) (b : IndexedBlock) : Bool :=
  b.chain = d.chain && b.network = d.network && b.finalityState ≠ "finalized"

/-- The number of blocks that checks may still ask for. -/
def Recovery.unfinalized (s : Recovery) : Nat := s.db.indexedBlocks.rows.countP s.detector.watches

section Emits
variable {d : Detector} {reads : CheckReads} {db db' : Db}

theorem scanRest_emits {verified : Int → Option String} {rest : List IndexedBlock}
    (h : (scanRest d reads verified rest).event.isSome = true) :
    ∃ b hash, scanRest d reads verified rest = emitReorg d reads b hash := by
  induction rest generalizing verified with
  | nil => cases h
  | cons block rest ih =>
    unfold scanRest at h ⊢
    split at h
    · rename_i hskip
      rw [if_pos hskip]
      exact ih h
    · rename_i hskip
      rw [if_neg hskip]
      split at h
      · exact ih h
      · exact ⟨_, _, rfl⟩
      · exact ih h

theorem check_emits {e : ReorgEvent} (h : (d.check reads db).event = some e) :
    e.chain = d.chain ∧ e.network = d.network ∧ (d.check reads db).detector = d.unverified := by
  suffices hemits : ∃ b hash, d.check reads db = emitReorg d reads b hash by
    obtain ⟨b, hash, heq⟩ := hemits
    rw [heq] at h ⊢
    unfold emitReorg at h
    split at h
    · cases h
      exact ⟨rfl, rfl, rfl⟩
    · cases h
  have hsome := Option.isSome_iff_exists.mpr ⟨e, h⟩
  unfold Detector.check checkBlocks at hsome ⊢
  split at hsome
  · cases hsome
  · split at hsome
    · cases hsome
    · split at hsome
      · exact ⟨_, _, rfl⟩
      · split at hsome
        · exact scanRest_emits hsome
        · exact ⟨_, _, rfl⟩
        · exact scanRest_emits hsome

theorem mem_checkedBlocks {b : IndexedBlock} (h : b ∈ d.checkedBlocks db) :
    b ∈ db.indexedBlocks.rows ∧ d.watches b = true := by
  have hmem : b ∈ getUnfinalized d.chain d.network db := by
    simp only [Detector.checkedBlocks] at h
    split at h
    · exact Ordered.descending_perm.mem_iff.mp (List.mem_of_mem_take h)
    · exact h
  have hrows := List.mem_of_mem_take (Ordered.ascending_perm.mem_iff.mp hmem)
  exact List.mem_filter.mp (Ordered.descending_perm.mem_iff.mp hrows)

theorem handleReorg_indexedBlocks {env : IngestEnv} {replayService : Option Bool}
    {reorg : ReorgEvent} (hrepo : replayService.getD env.blockRepo = true)
    (h : handleReorg env replayService reorg db = .ok db') :
    db'.indexedBlocks.rows = db.indexedBlocks.rows.filter fun b =>
      !b.isFrom reorg.chain reorg.network reorg.forkBlockNumber := by
  unfold handleReorg at h
  cases replayService with
  | some blockRepo =>
    obtain rfl : blockRepo = true := hrepo
    simp only at h
    split at h
    · cases h
    · rename_i hpurge
      cases h
      obtain ⟨_, _, _, _, rfl⟩ := purge_ok rfl hpurge
      rfl
  | none =>
    have henv : env.blockRepo = true := hrepo
    simp only [henv] at h
    split at h
    · cases h
      rfl
    · split at h
      · cases h
      · cases h
        rfl

end Emits

variable {env : IngestEnv} {replayService : Option Bool} {s s' : Recovery}

theorem Recovery.round_unfinalized (hrepo : replayService.getD env.blockRepo = true)
    {reads : CheckReads} (h : Round env replayService s reads s') :
    s'.unfinalized < s.unfinalized ∧ s'.detector = s.detector.unverified := by
  obtain ⟨e, hevent, hback, hdet⟩ := h
  obtain ⟨hchain, hnetwork, hun⟩ := check_emits hevent
  have hfork : (s.detector.check reads s.db).fork = some e.forkBlockNumber := by
    rw [CheckResult.fork, hevent]
    rfl
  obtain ⟨_, _, b, hfind, hnum⟩ := check_fork_eq_some.mp hfork
  obtain ⟨hrow, hwatch⟩ := mem_checkedBlocks (List.mem_of_find?_eq_some hfind)
  have hfrom : b.isFrom e.chain e.network e.forkBlockNumber = true := by
    simp only [Detector.watches, Bool.and_eq_true, decide_eq_true_eq] at hwatch
    simp [IndexedBlock.isFrom, hchain, hnetwork, hwatch.1.1, hwatch.1.2, hnum]
  rw [hdet, hun]
  refine ⟨?_, rfl⟩
  have hsame : s.detector.unverified.watches = s.detector.watches := rfl
  rw [unfinalized, unfinalized, hdet, hun, hsame, handleReorg_indexedBlocks hrepo hback,
    List.countP_eq_length_filter, List.countP_eq_length_filter, List.filter_comm]
  exact List.length_filter_lt_length_iff_exists.mpr
    ⟨b, List.mem_filter.mpr ⟨hrow, hwatch⟩, by simp [hfrom]⟩

/-- Where a rollback deletes indexed blocks, checks and rollbacks that follow one another end after
at most as many rounds as there are unfinalized blocks; and a check after a round that emits
nothing has no orphaned block. -/
theorem recovery_ends (env : IngestEnv) (replayService : Option Bool) (s s' : Recovery)
    (rounds : List CheckReads) (hrepo : replayService.getD env.blockRepo = true)
    (hrun : Runs.Run (Recovery.Round env replayService) (fun _ _ => True) s rounds s') :
    rounds.length + s'.unfinalized ≤ s.unfinalized ∧
    (rounds ≠ [] → ∀ reads, reads.Answered → (s'.detector.check reads s'.db).event = none →
      ∀ b ∈ s'.detector.checkedBlocks s'.db, ¬ Orphaned reads b) := by
  induction hrun with
  | start => exact ⟨by simp, fun hne => absurd rfl hne⟩
  | @next rounds t t' reads _ _ hround ih =>
    obtain ⟨hless, hun⟩ := Recovery.round_unfinalized hrepo hround
    refine ⟨?_, fun _ reads' hans hnone b hb horp => ?_⟩
    · rw [List.length_append, List.length_singleton]
      have := ih.1
      omega
    · have hre : t'.detector.Rechecks (reads', t'.db) := by
        intro b _ hskip
        rw [hun] at hskip
        rw [unverified_skips] at hskip
        cases hskip
      have hsome := ((detects_iff_rechecks hans).mpr hre).1 ⟨b, hb, horp⟩
      rw [hnone] at hsome
      cases hsome

/-- Block 11 leaves the chain: one round deletes it, and the next check finds block 10 as it is. -/
theorem recovery_ends_eleven :
    ∃ s', Runs.Run (Recovery.Round {} (some true)) (fun _ _ => True)
        ⟨ethereumDetector, twoBlocks⟩ [nodeWith "a10" "b11"] s' ∧
      ∀ b ∈ s'.detector.checkedBlocks s'.db, ¬ Orphaned (nodeWith "a10" "b11") b := by
  have hrun : Runs.Run (Recovery.Round {} (some true)) (fun _ _ => True)
      ⟨ethereumDetector, twoBlocks⟩ ([] ++ [nodeWith "a10" "b11"]) ⟨_, _⟩ :=
    .next .start trivial ⟨_, rfl, rfl, rfl⟩
  exact ⟨_, hrun, (recovery_ends _ _ _ _ _ rfl hrun).2 (by simp) _ ⟨rfl, rfl⟩ rfl⟩

end MultichainIndexer
