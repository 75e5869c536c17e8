import MultichainIndexer.Lib.Run
import MultichainIndexer.Coordinator.BlockScan
import MultichainIndexer.Store.Rollback

/-!
# Jobs in flight

The coordinator, the stored watermark and the jobs that are enqueued and not yet
committed. A tick may enqueue a job, a job that completes moves the watermark
up, and a reorg rollback rewinds it. A stage that fails ends all of them: the
pipeline starts again with a coordinator that remembers nothing.
-/

namespace MultichainIndexer

structure Schedule where
  coordinator : Coordinator
  db : Db
  inFlight : List FetchJob := []

inductive ScheduleAction where
  | tick (reads : TickReads)
  | complete (job : FetchJob) (cursor : Int)
  | restart
  | rewind (fork : Int)

namespace Schedule

def watermark (s : Schedule) : Option Int :=
  getWatermark s.coordinator.chain s.coordinator.network s.db

/-- The pipeline built anew: nothing is in flight and nothing remembered. -/
def restarted (s : Schedule) : Schedule :=
  { s with coordinator := s.coordinator.restarted, inFlight := [] }

def completed (s : Schedule) (job : FetchJob) (cursor : Int) : Schedule :=
  { s with
    db := updateWatermarkTx s.coordinator.chain s.coordinator.network cursor s.db
    inFlight := s.inFlight.erase job }

def rewound (s : Schedule) (fork : Int) : Schedule :=
  { s with
    db := rewindWatermarkTx s.coordinator.chain s.coordinator.network (rollbackWatermark fork) s.db }

def ticked (s : Schedule) (res : TickResult) : Schedule :=
  { s with coordinator := res.coordinator, inFlight := s.inFlight ++ res.job.toList }

def step (s : Schedule) : ScheduleAction → Option Schedule
  | .tick reads =>
    match tickBlockScan s.coordinator reads s.watermark with
    | .error _ => some s.restarted
    | .ok res => some (s.ticked res)
  | .complete job cursor => if job ∈ s.inFlight then some (s.completed job cursor) else none
  | .restart => some s.restarted
  | .rewind fork => some (s.rewound fork)

theorem step_cases {s s' : Schedule} {act : ScheduleAction} (h : s.step act = some s') :
    s' = s.restarted ∨
    (∃ reads res, act = .tick reads ∧
      tickBlockScan s.coordinator reads s.watermark = .ok res ∧ s' = s.ticked res) ∨
    (∃ job cursor, act = .complete job cursor ∧ job ∈ s.inFlight ∧ s' = s.completed job cursor) ∨
    ∃ fork, act = .rewind fork ∧ s' = s.rewound fork := by
  cases act with
  | tick reads =>
    simp only [step] at h
    split at h
    · cases h
      exact .inl rfl
    · rename_i res hres
      cases h
      exact .inr (.inl ⟨reads, res, rfl, hres, rfl⟩)
  | complete job cursor =>
    simp only [step] at h
    split at h
    · rename_i hmem
      cases h
      exact .inr (.inr (.inl ⟨job, cursor, rfl, hmem, rfl⟩))
    · cases h
  | restart =>
    cases h
    exact .inl rfl
  | rewind fork =>
    cases h
    exact .inr (.inr (.inr ⟨fork, rfl, rfl⟩))

theorem step_wmRepo {s s' : Schedule} {act : ScheduleAction} (h : s.step act = some s') :
    s'.coordinator.wmRepo = s.coordinator.wmRepo := by
  rcases step_cases h with rfl | ⟨reads, res, _, hres, rfl⟩ | ⟨job, cursor, _, _, rfl⟩ |
    ⟨fork, _, rfl⟩
  · rfl
  · rcases tickBlockScan_ok hres with ⟨_, hc⟩ | ⟨_, _, _, _, _, _, _, _, hc⟩
    · show res.coordinator.wmRepo = _
      rw [hc]
    · show res.coordinator.wmRepo = _
      rw [hc]
  · rfl
  · rfl

theorem completed_watermark (s : Schedule) (job : FetchJob) (cursor : Int) :
    (s.completed job cursor).watermark = some (match s.watermark with
      | none => cursor
      | some w => max w cursor) :=
  setWatermark_self _ _ _ _

theorem rewound_watermark (s : Schedule) (fork : Int) :
    (s.rewound fork).watermark = some (rollbackWatermark fork) :=
  setWatermark_self _ _ _ _

end Schedule

def FetchJob.Covers (job : FetchJob) (b : Int) : Prop := job.startBlock ≤ b ∧ b ≤ job.endBlock

def FetchJob.Disjoint (job job' : FetchJob) : Prop := ∀ b, ¬ (job.Covers b ∧ job'.Covers b)

namespace Schedule

def Remembers (s : Schedule) (job : FetchJob) : Prop :=
  s.coordinator.hasEnqueued = true ∧ job.startBlock = s.coordinator.lastEnqueuedStart ∧
    job.endBlock = s.coordinator.lastEnqueuedEnd

variable {s s' : Schedule} {act : ScheduleAction}

theorem ticked_cases {reads : TickReads} {res : TickResult}
    (h : tickBlockScan s.coordinator reads s.watermark = .ok res) :
    s.ticked res = s ∨ ∃ job, res.job = some job ∧ (s.ticked res).inFlight = s.inFlight ++ [job] ∧
      (s.ticked res).Remembers job := by
  rcases tickBlockScan_ok h with ⟨hnone, hc⟩ | ⟨_, _, _, _, _, _, _, hsome, hc⟩
  · refine .inl ?_
    rw [ticked, hnone, hc, Option.toList_none, List.append_nil]
  · refine .inr ⟨_, hsome, ?_, ?_⟩
    · rw [ticked, hsome]
      rfl
    · unfold Remembers ticked
      rw [hc]
      exact ⟨rfl, rfl, rfl⟩

section Gap

/-- The head of a tick and the lookback are `int64` numbers. -/
def Int64Reads (s : Schedule) : ScheduleAction → Prop
  | .tick reads => IsInt64 s.coordinator.maxInitialLookbackBlocks ∧ IsInt64 reads.head
  | _ => True

/-- The step is a tick that enqueues the job while the watermark `w` is stored. -/
def EnqueuesAt (s : Schedule) (act : ScheduleAction) (w : Int) (job : FetchJob) : Prop :=
  s.watermark = some w ∧ ∃ reads res, act = .tick reads ∧
    tickBlockScan s.coordinator reads s.watermark = .ok res ∧ res.job = some job

/-- The tick reads a positive watermark, or its lookback before the head reaches back to it. -/
def ReadsBack (s : Schedule) (w : Int) : ScheduleAction → Prop
  | .tick reads =>
    s.coordinator.wmRepo = true ∧ reads.watermarkError = none ∧ 0 < w ∨
    -1 ≤ w ∧ (0 < reads.head → 0 < s.coordinator.maxInitialLookbackBlocks →
      reads.head - s.coordinator.maxInitialLookbackBlocks ≤ w)
  | _ => True

theorem enqueuesAt_iff {w : Int} {job : FetchJob} (hint : s.Int64Reads act)
    (h : s.EnqueuesAt act w job) : job.startBlock ≤ w + 1 ↔ s.ReadsBack w act := by
  obtain ⟨hw, reads, res, rfl, hres, hjob⟩ := h
  rw [hw] at hres
  exact tickBlockScan_startBlock_le_iff s.coordinator reads w res job hint.1 hint.2 hres hjob

/-- The runs in which every job starts at or before the block after the watermark of its tick are
those in which every such tick reads a positive watermark or reaches back to it. -/
theorem run_leavesNoGap_iff (s s' : Schedule) (acts : List ScheduleAction) :
    Runs.Run (fun t act t' => t.step act = some t')
        (fun t act => t.Int64Reads act ∧
          ∀ w job, t.EnqueuesAt act w job → job.startBlock ≤ w + 1) s acts s' ↔
      Runs.Run (fun t act t' => t.step act = some t')
        (fun t act => t.Int64Reads act ∧
          ∀ w job, t.EnqueuesAt act w job → t.ReadsBack w act) s acts s' := by
  constructor
  · intro hrun
    refine hrun.imp ?_
    rintro t act ⟨hint, hle⟩
    exact ⟨hint, fun w job hjob => (enqueuesAt_iff hint hjob).mp (hle w job hjob)⟩
  · intro hrun
    refine hrun.imp ?_
    rintro t act ⟨hint, hback⟩
    exact ⟨hint, fun w job hjob => (enqueuesAt_iff hint hjob).mpr (hback w job hjob)⟩

def nearHead (w : Int) : Schedule where
  coordinator := { chain := .ethereum, network := .mainnet, maxInitialLookbackBlocks := 10 }
  db := rewindWatermarkTx .ethereum .mainnet w {}

def hundredBlocks (watermarkError : Option String) : TickReads where
  active := .ok [{ address := "0xa" }]
  headProvider := some (.ok 100)
  watermarkError := watermarkError
  batchSize := 10

/-- With the watermark 5 stored and read, a tick starts at block 6, and again after a restart. -/
theorem run_leavesNoGap_read :
    ∃ s', Runs.Run (fun t act t' => t.step act = some t')
      (fun t act => t.Int64Reads act ∧ ∀ w job, t.EnqueuesAt act w job → job.startBlock ≤ w + 1)
      (nearHead 5) [.tick (hundredBlocks none), .restart, .tick (hundredBlocks none)] s' := by
  refine ⟨_, (run_leavesNoGap_iff _ _ _).mpr (.next (.next (.next .start
    ⟨⟨by decide, by decide⟩, ?_⟩ rfl) ⟨trivial, ?_⟩ rfl) ⟨⟨by decide, by decide⟩, ?_⟩ rfl)⟩
  · rintro w job ⟨hw, _⟩
    cases hw
    exact .inl ⟨rfl, rfl, by decide⟩
  · rintro w job ⟨hw, _⟩
    cases hw
    exact .inl ⟨rfl, rfl, by decide⟩
  · exact fun _ _ _ => trivial

/-- With the watermark 5 stored, a read that fails starts at block 91; so does a read that succeeds
once a reorg at block 1 has rewound the watermark to 0. -/
theorem run_leaves_gap :
    (∃ s' job, (nearHead 5).watermark = some 5 ∧
      (nearHead 5).step (.tick (hundredBlocks (some "timeout"))) = some s' ∧
      s'.inFlight = [job] ∧ job.startBlock = 91 ∧ ¬ job.startBlock ≤ 5 + 1) ∧
    ∃ s₁ s₂ job, (nearHead 5).step (.rewind 1) = some s₁ ∧ s₁.watermark = some 0 ∧
      s₁.step (.tick (hundredBlocks none)) = some s₂ ∧
      s₂.inFlight = [job] ∧ job.startBlock = 91 ∧ ¬ job.startBlock ≤ 0 + 1 :=
  ⟨⟨_, _, rfl, rfl, rfl, rfl, by decide⟩, _, _, _, rfl, rfl, rfl, rfl, rfl, by decide⟩

end Gap

end Schedule

end MultichainIndexer
