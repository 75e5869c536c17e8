import MultichainIndexer.Coordinator.Schedule

/-!
# Catching up with the head

A tick and what becomes of its job make a round. The job commits a cursor, which
is its last block if nothing is found there and the block of the newest signature
otherwise, or it is lost and the pipeline starts again. Between rounds that scan
there may be any others, with reads that fail, nothing to do or a lost job. The
watermark does not fall, and each round that scans moves it, until it is at the
head.
-/

namespace MultichainIndexer

namespace Schedule

/-- A tick, and how many blocks after the first its job commits if it is not lost. -/
def round (s : Schedule) (reads : TickReads) (past : Option Nat) : Schedule :=
  match tickBlockScan s.coordinator reads s.watermark with
  | .error _ => s.restarted
  | .ok res =>
    match res.job, past with
    | none, _ => s.ticked res
    | some _, none => (s.ticked res).restarted
    | some job, some past => (s.ticked res).completed job (job.startBlock + past)

/-- The tick has an address to scan for, reads the watermark and sees the head at `head` or above. -/
structure Scans (head : Int) (reads : TickReads) : Prop where
  active : ∃ addresses, reads.active = .ok addresses ∧ addresses ≠ []
  watermark : reads.watermarkError = none
  sent : reads.sent = true
  int64 : IsInt64 reads.head
  head : head ≤ reads.head

/-- Rounds one after another, `n` of which scan and commit. -/
inductive Rounds (head : Int) (s : Schedule) : Nat → Schedule → Prop
  | start : Rounds head s 0 s
  | other {n : Nat} {t : Schedule} (reads : TickReads) (past : Option Nat) :
      Rounds head s n t → Rounds head s n (t.round reads past)
  | scan {n : Nat} {t : Schedule} {reads : TickReads} (past : Nat) : Rounds head s n t →
      Scans head reads → Rounds head s (n + 1) (t.round reads past)

/-- Between rounds: the watermark is positive, and no range that starts above it is remembered. -/
structure Settled (s : Schedule) (w : Int) : Prop where
  wmRepo : s.coordinator.wmRepo = true
  stored : s.watermark = some w
  pos : 0 < w
  remembered : s.coordinator.hasEnqueued = true → s.coordinator.lastEnqueuedStart ≤ w

variable {s : Schedule} {w : Int}

theorem completed_stored (h : s.watermark = some w) (job : FetchJob) (cursor : Int) :
    (s.completed job cursor).watermark = some (max w cursor) := by
  rw [completed_watermark, h]

theorem Settled.restarted (h : s.Settled w) : s.restarted.Settled w :=
  ⟨h.wmRepo, h.stored, h.pos, fun hno => Bool.noConfusion hno⟩

theorem Settled.round (h : s.Settled w) (reads : TickReads) (past : Option Nat) :
    ∃ w', (s.round reads past).Settled w' ∧ w ≤ w' := by
  unfold Schedule.round
  split
  · exact ⟨w, h.restarted, Int.le_refl w⟩
  · rename_i res hres
    rcases tickBlockScan_ok hres with ⟨hnone, hc⟩ | ⟨_, _, _, _, _, _, _, hsome, hc⟩
    · have hsame : s.ticked res = s := by
        rw [ticked, hnone, hc, Option.toList_none, List.append_nil]
      rw [hnone, hsame]
      exact ⟨w, h, Int.le_refl w⟩
    · have hrepo : (s.ticked res).coordinator.wmRepo = true := by
        rw [ticked, hc]
        exact h.wmRepo
      have hstored : (s.ticked res).watermark = some w := by
        rw [watermark, ticked, hc]
        exact h.stored
      have hpos := h.pos
      rw [hsome]
      cases past with
      | none => exact ⟨w, ⟨hrepo, hstored, hpos, fun hno => Bool.noConfusion hno⟩, Int.le_refl w⟩
      | some past =>
        refine ⟨_, ⟨hrepo, completed_stored hstored _ _, by omega, fun _ => ?_⟩, by omega⟩
        show res.coordinator.lastEnqueuedStart ≤ _
        rw [hc]
        simp only [scanJob]
        omega

theorem Settled.scan {head : Int} {reads : TickReads} (h : s.Settled w) (hscan : Scans head reads)
    (past : Nat) :
    ∃ w', (s.round reads past).Settled w' ∧ w ≤ w' ∧ min head (w + 1) ≤ w' := by
  obtain ⟨w', hset, hle⟩ := h.round reads past
  refine ⟨w', hset, hle, ?_⟩
  have hhead := hscan.head
  by_cases hnext : w + 1 ≤ reads.head
  · have hpos := h.pos
    have hint := hscan.int64
    have hstart : reads.startBlock s.coordinator s.watermark = w + 1 := by
      rw [startBlock_of_watermark
        (watermark_eq_some.mpr ⟨h.wmRepo, hscan.watermark, h.stored, h.pos⟩)]
      exact wrap64_of_isInt64 ⟨by omega, hnext.trans_lt hint.2⟩
    obtain ⟨addresses, hact, hne⟩ := hscan.active
    have henq := tickBlockScan_enqueues hact hne (headSequence_of_pos (by omega)) hscan.sent
      (hstart.trans_le hnext) fun hdup => by
        have := h.remembered hdup.1
        omega
    have hmoved : (s.round reads past).watermark = some (max w (w + 1 + past)) := by
      rw [hstart] at henq
      simp only [Schedule.round, henq, enqueueScan]
      apply completed_stored
      exact h.stored
    have := Option.some.inj (hset.stored.symm.trans hmoved)
    omega
  · omega

end Schedule

/-- However the rounds in between end, after `n` rounds that scan and commit the watermark is `n`
blocks further at least, or at the head that all of them saw. -/
theorem rounds_catch_up (s s' : Schedule) (head w : Int) (n : Nat) (hsettled : s.Settled w)
    (hrounds : Schedule.Rounds head s n s') :
    ∃ w', s'.watermark = some w' ∧ w ≤ w' ∧ min head (w + n) ≤ w' := by
  suffices h : ∃ w', s'.Settled w' ∧ w ≤ w' ∧ min head (w + n) ≤ w' by
    obtain ⟨w', hset, hle⟩ := h
    exact ⟨w', hset.stored, hle⟩
  induction hrounds with
  | start => exact ⟨w, hsettled, Int.le_refl w, by simp⟩
  | other reads past _ ih =>
    obtain ⟨w₁, hset, hle, hmin⟩ := ih
    obtain ⟨w₂, hset₂, hle₂⟩ := hset.round reads past
    exact ⟨w₂, hset₂, hle.trans hle₂, hmin.trans hle₂⟩
  | scan past _ hscan ih =>
    obtain ⟨w₁, hset, hle, hmin⟩ := ih
    obtain ⟨w₂, hset₂, hle₂, hmin₂⟩ := hset.scan hscan past
    refine ⟨w₂, hset₂, hle.trans hle₂, ?_⟩
    omega

/-- From block 5, a lost job and one that commits its first block come to block 6 at least. -/
theorem rounds_catch_up_six :
    ∃ s' w', Schedule.Rounds 100 (Schedule.nearHead 5) 1 s' ∧ s'.watermark = some w' ∧ 6 ≤ w' := by
  have hsettled : (Schedule.nearHead 5).Settled 5 :=
    ⟨rfl, rfl, by decide, fun hno => Bool.noConfusion hno⟩
  have hscan : Schedule.Scans 100 (Schedule.hundredBlocks none) :=
    ⟨⟨_, rfl, List.cons_ne_nil _ _⟩, rfl, rfl, ⟨by decide, by decide⟩, by decide⟩
  have hrounds : Schedule.Rounds 100 (Schedule.nearHead 5) 1 _ :=
    .scan 0 (.other (Schedule.hundredBlocks none) none .start) hscan
  obtain ⟨w', hw', _, hle⟩ := rounds_catch_up _ _ _ 5 1 hsettled hrounds
  exact ⟨_, w', hrounds, hw', hle⟩

end MultichainIndexer
