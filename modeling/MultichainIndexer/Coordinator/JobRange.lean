import MultichainIndexer.Coordinator.BlockScan

/-!
# The ranges of enqueued jobs

A run of ticks, each with what it reads, and the jobs that it enqueues. A job is
well formed if its range is a range of blocks up to the head that the batch size
covers. A tick with a stored watermark and a head of zero passes the check against
the head, and its job ends before it starts.
-/

namespace MultichainIndexer

/-- What a tick reads, as machine integers, with a positive batch size. -/
structure Tick where
  reads : TickReads
  stored : Option Int
  batchSize_pos : 0 < reads.batchSize
  head_int64 : IsInt64 reads.head
  stored_int64 : ∀ {w}, stored = some w → IsInt64 w
  batch_int64 : IsInt64 reads.resolvedBatch

/-- The jobs of a run, each with the tick that enqueued it. A tick that fails changes nothing. -/
def Coordinator.enqueued (c : Coordinator) : List Tick → List (Tick × FetchJob)
  | [] => []
  | t :: ticks =>
    match tickBlockScan c t.reads t.stored with
    | .error _ => c.enqueued ticks
    | .ok res => (res.job.toList.map fun job => (t, job)) ++ res.coordinator.enqueued ticks

structure Tick.WellFormed (t : Tick) (job : FetchJob) : Prop where
  start_nonneg : 0 ≤ job.startBlock
  start_le_end : job.startBlock ≤ job.endBlock
  end_le_head : job.endBlock ≤ max t.reads.head 0
  cutoff : job.fetchCutoffSeq = job.endBlock
  length_le : job.endBlock - job.startBlock + 1 ≤ t.reads.resolvedBatch

/-- With a watermark the head is positive and the watermark has a successor; without one the
number of blocks up to the head is a machine integer, or the lookback cuts it. -/
def Tick.InRange (t : Tick) (c : Coordinator) : Prop :=
  match t.reads.watermark c t.stored with
  | some w => 0 < t.reads.head ∧ w + 1 < 2 ^ 63
  | none => t.reads.head + 1 < 2 ^ 63 ∨ 0 < c.maxInitialLookbackBlocks

section Job
variable {c : Coordinator} {t : Tick} {res : TickResult} {job : FetchJob}

theorem Tick.resolvedBatch_pos (t : Tick) : 0 < t.reads.resolvedBatch := by
  unfold TickReads.resolvedBatch
  simp only
  split
  · exact t.batchSize_pos
  · omega

theorem job_range (h : tickBlockScan c t.reads t.stored = .ok res) (hjob : res.job = some job) :
    job.startBlock = t.reads.startBlock c t.stored ∧
      job.endBlock = cappedEnd t.reads.head (t.reads.startBlock c t.stored) t.reads.resolvedBatch ∧
      job.fetchCutoffSeq = job.endBlock ∧
      ¬ (0 < t.reads.head ∧ t.reads.head < t.reads.startBlock c t.stored) := by
  rcases tickBlockScan_ok h with ⟨hnone, _⟩ | ⟨addresses, endBlock, _, _, hahead, hend, _, hsome, _⟩
  · rw [hnone] at hjob
    cases hjob
  · rw [hsome] at hjob
    cases hjob
    exact ⟨rfl, hend, rfl, hahead⟩

theorem wellFormed_of_range (hstart : 0 ≤ job.startBlock) (hle : job.startBlock ≤ t.reads.head)
    (hcount : t.reads.head - job.startBlock + 1 < 2 ^ 63)
    (hend : job.endBlock = cappedEnd t.reads.head job.startBlock t.reads.resolvedBatch)
    (hcuto : job.fetchCutoffSeq = job.endBlock) : t.WellFormed job := by
  have hpos := t.resolvedBatch_pos
  have hhead := t.head_int64
  unfold IsInt64 at hhead
  rw [cappedEnd_eq hstart (by omega) (by omega) hhead.2 hcount (by omega)] at hend
  have hcut : job.startBlock ≤ lastBlock job.startBlock t.reads.head t.reads.resolvedBatch ∧
      lastBlock job.startBlock t.reads.head t.reads.resolvedBatch ≤ t.reads.head ∧
      lastBlock job.startBlock t.reads.head t.reads.resolvedBatch - job.startBlock + 1 ≤
        t.reads.resolvedBatch := by
    unfold lastBlock
    split
    · omega
    · rename_i hshort
      -- a head of zero is the one block zero
      by_cases hzero : 0 < t.reads.head
      · omega
      · omega
  rw [← hend] at hcut
  exact ⟨hstart, hcut.1, by omega, hcuto, hcut.2.2⟩

theorem job_wellFormed_iff (hlook : IsInt64 c.maxInitialLookbackBlocks)
    (h : tickBlockScan c t.reads t.stored = .ok res) (hjob : res.job = some job) :
    t.WellFormed job ↔ t.InRange c := by
  obtain ⟨hstart, hend, hcut, hahead⟩ := job_range h hjob
  rw [← hstart] at hend hahead
  have hhead0 := head_nonneg t.reads
  have hhead := t.head_int64
  have hpos := t.resolvedBatch_pos
  have hbatch := t.batch_int64
  unfold IsInt64 at hhead hbatch
  unfold Tick.InRange
  cases hw : t.reads.watermark c t.stored with
  | some w =>
    obtain ⟨_, _, hsto, hwpos⟩ := watermark_eq_some.mp hw
    have hw64 := t.stored_int64 hsto
    unfold IsInt64 at hw64
    rw [startBlock_of_watermark hw] at hstart
    constructor
    · intro hwell
      have hnext : w + 1 < 2 ^ 63 := by
        by_contra hover
        have hwrap : job.startBlock < 0 := by
          rw [hstart]
          unfold wrap64
          omega
        exact absurd hwell.start_nonneg (by omega)
      refine ⟨?_, hnext⟩
      rw [wrap64_of_isInt64 ⟨by omega, hnext⟩] at hstart
      have hle := hwell.start_le_end
      have hend' := hwell.end_le_head
      omega
    · rintro ⟨hheadpos, hnext⟩
      rw [wrap64_of_isInt64 ⟨by omega, hnext⟩] at hstart
      exact wellFormed_of_range (by omega) (by omega) (by omega) hend hcut
  | none =>
    rw [startBlock_of_none hlook t.head_int64 hw] at hstart
    simp only [firstBlock] at hstart
    constructor
    · intro hwell
      by_contra hout
      have hfirst : job.startBlock = 0 := by
        rw [hstart, if_neg]
        omega
      have hlong : wrap64 (t.reads.head - job.startBlock + 1) = -2 ^ 63 := by
        rw [hfirst]
        unfold wrap64
        omega
      have huncut : job.endBlock = t.reads.head := by
        rw [hend, cappedEnd, hlong, if_neg]
        simp only [Bool.and_eq_true, decide_eq_true_eq]
        omega
      have hlen := hwell.length_le
      omega
    · intro hin
      have hback := hlook.2
      have hcount : 0 ≤ job.startBlock ∧ job.startBlock ≤ t.reads.head ∧
          t.reads.head - job.startBlock + 1 < 2 ^ 63 := by
        rw [hstart]
        split
        · omega
        · omega
      exact wellFormed_of_range hcount.1 hcount.2.1 hcount.2.2 hend hcut

end Job

section Run
variable {c : Coordinator}

theorem tickBlockScan_settings {t : Tick} {res : TickResult}
    (h : tickBlockScan c t.reads t.stored = .ok res) :
    res.coordinator.wmRepo = c.wmRepo ∧
      res.coordinator.maxInitialLookbackBlocks = c.maxInitialLookbackBlocks := by
  rcases tickBlockScan_ok h with ⟨_, hc⟩ | ⟨_, _, _, _, _, _, _, _, hc⟩
  · rw [hc]
    exact ⟨rfl, rfl⟩
  · rw [hc]
    exact ⟨rfl, rfl⟩

theorem Tick.inRange_settings {c' : Coordinator} (hrepo : c'.wmRepo = c.wmRepo)
    (hlook : c'.maxInitialLookbackBlocks = c.maxInitialLookbackBlocks) (t : Tick) :
    t.InRange c' ↔ t.InRange c := by
  unfold Tick.InRange TickReads.watermark
  rw [hrepo, hlook]

theorem enqueued_wellFormed {ticks : List Tick} (hlook : IsInt64 c.maxInitialLookbackBlocks) :
    ∀ entry ∈ c.enqueued ticks, entry.1.WellFormed entry.2 ↔ entry.1.InRange c := by
  induction ticks generalizing c with
  | nil =>
    intro entry hentry
    cases hentry
  | cons t ticks ih =>
    intro entry hentry
    rw [Coordinator.enqueued] at hentry
    split at hentry
    · exact ih hlook entry hentry
    · rename_i res hres
      obtain ⟨hrepo, hback⟩ := tickBlockScan_settings hres
      rcases List.mem_append.mp hentry with hnow | hlater
      · obtain ⟨job, hjob, rfl⟩ := List.mem_map.mp hnow
        exact job_wellFormed_iff hlook hres (Option.mem_toList.mp hjob)
      · rw [ih (by rw [hback]; exact hlook) entry hlater]
        exact Tick.inRange_settings hrepo hback entry.1

/-- The jobs of a run are all well formed if and only if every tick that enqueued one is in range:
with a counted watermark its head is positive and the watermark can be followed, without one the
count of blocks up to the head does not overflow. -/
theorem enqueued_wellFormed_iff (ticks : List Tick) (hlook : IsInt64 c.maxInitialLookbackBlocks) :
    (∀ entry ∈ c.enqueued ticks, entry.1.WellFormed entry.2) ↔
      ∀ entry ∈ c.enqueued ticks, entry.1.InRange c :=
  forall₂_congr (enqueued_wellFormed hlook)

end Run

section Sample

def tickReadsAt (head : Int) : TickReads where
  active := .ok [{ address := "a" }]
  headProvider := some (.ok head)
  batchSize := 10

def tickAt (head : Int) (hhead : IsInt64 (max 0 head)) : Tick where
  reads := tickReadsAt head
  stored := some 100
  batchSize_pos := by
    change (0 : Int) < 10
    omega
  head_int64 := hhead
  stored_int64 := by
    rintro w ⟨⟩
    decide
  batch_int64 := by
    change IsInt64 10
    decide

def tickCoordinator : Coordinator := { chain := .ethereum, network := .mainnet }

/-- A node that reports the head 0 while the watermark is 100: the job goes from 101 to 0. -/
theorem enqueued_head_zero :
    (tickCoordinator.enqueued [tickAt 0 (by decide)]).map (fun entry =>
        (entry.2.startBlock, entry.2.endBlock)) = [(101, 0)] ∧
      ¬ ∀ entry ∈ tickCoordinator.enqueued [tickAt 0 (by decide)], entry.1.WellFormed entry.2 := by
  have hrange : (tickCoordinator.enqueued [tickAt 0 (by decide)]).map (fun entry =>
      (entry.2.startBlock, entry.2.endBlock)) = [(101, 0)] := rfl
  refine ⟨hrange, fun hall => ?_⟩
  obtain ⟨entry, hentry, heq⟩ := List.mem_map.mp (hrange ▸ List.mem_singleton_self _)
  have hle := (hall entry hentry).start_le_end
  obtain ⟨hstart, hend⟩ := Prod.mk.inj heq
  omega

/-- At the head 120 the job of the same tick is well formed. -/
theorem enqueued_head_above :
    (tickCoordinator.enqueued [tickAt 120 (by decide)]).map (fun entry =>
        (entry.2.startBlock, entry.2.endBlock)) = [(101, 110)] ∧
      ∀ entry ∈ tickCoordinator.enqueued [tickAt 120 (by decide)], entry.1.WellFormed entry.2 := by
  refine ⟨rfl, (enqueued_wellFormed_iff _ (by decide)).mpr ?_⟩
  intro entry hentry
  obtain rfl := List.mem_singleton.mp hentry
  exact ⟨by decide, by decide⟩

end Sample

end MultichainIndexer
