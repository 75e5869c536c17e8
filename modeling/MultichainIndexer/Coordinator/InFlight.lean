import MultichainIndexer.Coordinator.Schedule

/-!
# Jobs that overlap and jobs that are hidden

The coordinator compares a range with the last one it enqueued and nothing
else. So two jobs in flight can have a block in common once the head or the
batch size moves, and after a rewind the remembered range can be one that
nobody scans any more.
-/

namespace MultichainIndexer

namespace Schedule

variable {s s' : Schedule} {act : ScheduleAction}

section Overlap

/-- The numbers that a tick works with, and those that follow them, are in the range of `int64`. -/
structure InRange (s : Schedule) (reads : TickReads) : Prop where
  lookback : IsInt64 s.coordinator.maxInitialLookbackBlocks
  head : reads.head + 1 < 2 ^ 63
  watermark : ∀ w, s.watermark = some w → w + 1 < 2 ^ 63
  batch : -2 ^ 63 < reads.resolvedBatch

/-- The tick has nothing to scan, its range is the one enqueued last, or the first block, after the
watermark or at the lookback before the head, passes every job in flight. -/
def GivesApart (s : Schedule) (reads : TickReads) : Prop :=
  let first := firstBlock (reads.watermark s.coordinator s.watermark)
    s.coordinator.maxInitialLookbackBlocks reads.head
  let last := lastBlock first reads.head reads.resolvedBatch
  0 < reads.head ∧ reads.head < first ∨
    s.coordinator.hasEnqueued = true ∧ first = s.coordinator.lastEnqueuedStart ∧
      last = s.coordinator.lastEnqueuedEnd ∨
    ∀ job ∈ s.inFlight, job.endBlock < first

/-- What keeps the jobs apart: each tick that finds a job in flight, and an address to scan for. -/
def KeepsRange (s : Schedule) : ScheduleAction → Prop
  | .tick reads => ∀ addresses, reads.active = .ok addresses → addresses ≠ [] → s.inFlight ≠ [] →
      s.InRange reads ∧ s.GivesApart reads
  | _ => True

theorem InRange.window {reads : TickReads} (h : s.InRange reads) :
    reads.startBlock s.coordinator s.watermark = firstBlock (reads.watermark s.coordinator
        s.watermark) s.coordinator.maxInitialLookbackBlocks reads.head ∧
      cappedEnd reads.head (reads.startBlock s.coordinator s.watermark) reads.resolvedBatch =
        lastBlock (reads.startBlock s.coordinator s.watermark) reads.head reads.resolvedBatch := by
  have hnon := head_nonneg reads
  have hhead := h.head
  have hint : IsInt64 reads.head := ⟨by omega, by omega⟩
  have hstart := startBlock_eq h.lookback hint h.watermark
  refine ⟨hstart, ?_⟩
  have hbou : 0 ≤ reads.startBlock s.coordinator s.watermark ∧
      reads.startBlock s.coordinator s.watermark < 2 ^ 63 := by
    rw [hstart]
    cases hw : reads.watermark s.coordinator s.watermark with
    | none =>
      simp only [firstBlock]
      split
      · omega
      · omega
    | some w =>
      obtain ⟨_, _, hsto, hpos⟩ := watermark_eq_some.mp hw
      have := h.watermark w hsto
      simp only [firstBlock]
      omega
  exact cappedEnd_eq hbou.1 hbou.2 hnon (by omega) (by omega) h.batch

theorem tick_apart {reads : TickReads} {job old : FetchJob} {res : TickResult}
    (hrepo : s.coordinator.wmRepo = true) (hok : s.KeepsRange (.tick reads))
    (hres : tickBlockScan s.coordinator reads s.watermark = .ok res) (hjob : res.job = some job)
    (hold : old ∈ s.inFlight) : old.Disjoint job := by
  rcases tickBlockScan_ok hres with ⟨hnone, _⟩ |
    ⟨addresses, endBlock, hact, hne, hahead, hend, hnew, hsome, _⟩
  · rw [hnone] at hjob
    cases hjob
  · obtain ⟨hrange, hapart⟩ := hok addresses hact hne (List.ne_nil_of_mem hold)
    obtain ⟨hstart, hcap⟩ := hrange.window
    unfold GivesApart at hapart
    simp only [← hstart, ← hcap, ← hend] at hapart
    rcases hapart with hnot | ⟨hhas, hfirst, hlast⟩ | hapart
    · exact absurd hnot hahead
    · exact absurd ⟨hrepo, hhas, hfirst, hlast⟩ hnew
    · rw [hsome] at hjob
      cases hjob
      rintro b ⟨⟨hlo, hhi⟩, hlo', hhi'⟩
      simp only [scanJob] at hlo' hhi'
      have := hapart old hold
      omega

theorem step_disjoint (hrepo : s.coordinator.wmRepo = true)
    (h : s.inFlight.Pairwise FetchJob.Disjoint) (hok : s.KeepsRange act)
    (hstep : s.step act = some s') : s'.inFlight.Pairwise FetchJob.Disjoint := by
  rcases step_cases hstep with rfl | ⟨reads, res, rfl, hres, rfl⟩ | ⟨job, cursor, rfl, _, rfl⟩ |
    ⟨fork, rfl, rfl⟩
  · exact .nil
  · rcases ticked_cases hres with hsame | ⟨job, hsome, hfli, _⟩
    · rw [hsame]
      exact h
    · rw [hfli]
      refine List.pairwise_append.mpr ⟨h, List.pairwise_singleton _ _, fun old hold new hnew => ?_⟩
      obtain rfl := List.mem_singleton.mp hnew
      exact tick_apart hrepo hok hres hsome hold
  · exact h.sublist List.erase_sublist
  · exact h

/-- In every run whose ticks keep apart from the jobs in flight, the jobs in flight have no block in
common. -/
theorem run_disjoint (s s' : Schedule) (acts : List ScheduleAction)
    (hrepo : s.coordinator.wmRepo = true) (hnone : s.inFlight = [])
    (hrun : Runs.Run (fun t act t' => t.step act = some t') KeepsRange s acts s') :
    s'.inFlight.Pairwise FetchJob.Disjoint := by
  have hinv : s'.coordinator.wmRepo = true ∧ s'.inFlight.Pairwise FetchJob.Disjoint := by
    refine hrun.invariant
      (P := fun t => t.coordinator.wmRepo = true ∧ t.inFlight.Pairwise FetchJob.Disjoint)
      ⟨hrepo, hnone ▸ .nil⟩ ?_
    rintro t act t' ⟨htrepo, hdis⟩ hok hstep
    exact ⟨(step_wmRepo hstep).trans htrepo, step_disjoint htrepo hdis hok hstep⟩
  exact hinv.2

def scheduleAt (w : Int) : Schedule where
  coordinator := { chain := .ethereum, network := .mainnet }
  db := rewindWatermarkTx .ethereum .mainnet w {}

def readsAt (head : Int) : TickReads where
  active := .ok [{ address := "0xa" }]
  headProvider := some (.ok head)
  batchSize := 3

theorem run_keepsRange {s₁ s₂ : Schedule} (reads reads' : TickReads)
    (hnone : s.inFlight = []) (h₁ : s.step (.tick reads) = some s₁)
    (h₂ : s₁.step (.tick reads') = some s₂) (hrange : s₁.InRange reads') (hapart : s₁.GivesApart reads') :
    Runs.Run (fun t act t' => t.step act = some t') KeepsRange s [.tick reads, .tick reads'] s₂ :=
  .next (.next .start (fun _ _ _ hne => absurd hnone hne) h₁) (fun _ _ _ _ => ⟨hrange, hapart⟩) h₂

/-- The batch size keeps the end of the range where it was when the head moves on; and without a
watermark that counts, the lookback before the head passes the job of the first tick. -/
theorem run_disjoint_capped :
    (∃ s', Runs.Run (fun t act t' => t.step act = some t') KeepsRange (scheduleAt 9)
        [.tick (readsAt 12), .tick (readsAt 20)] s' ∧
      s'.inFlight.Pairwise FetchJob.Disjoint) ∧
    ∃ s', Runs.Run (fun t act t' => t.step act = some t') KeepsRange (nearHead 0)
        [.tick (hundredBlocks none),
          .tick { hundredBlocks none with headProvider := some (.ok 110) }] s' ∧
      s'.inFlight.map (fun job => (job.startBlock, job.endBlock)) = [(91, 100), (101, 110)] ∧
      s'.inFlight.Pairwise FetchJob.Disjoint := by
  constructor
  · have hrun := run_keepsRange (s := scheduleAt 9) (readsAt 12) (readsAt 20) rfl rfl
      rfl ⟨by decide, by decide, by rintro w ⟨⟩; decide, by decide⟩ (.inr (.inl ⟨rfl, rfl, rfl⟩))
    exact ⟨_, hrun, run_disjoint (scheduleAt 9) _ _ rfl rfl hrun⟩
  · have hrun := run_keepsRange (s := nearHead 0) (hundredBlocks none)
      { hundredBlocks none with headProvider := some (.ok 110) } rfl rfl rfl
      ⟨by decide, by decide, by rintro w ⟨⟩; decide, by decide⟩ (.inr (.inr ?_))
    · exact ⟨_, hrun, rfl, run_disjoint (nearHead 0) _ _ rfl rfl hrun⟩
    · intro job hjob
      obtain rfl := List.mem_singleton.mp hjob
      decide

/-- With the watermark at 9 and the head at 10 and then 11, block 10 is in two jobs in flight. -/
theorem tick_overlaps :
    ∃ s₁ s₂ job₁ job₂, (scheduleAt 9).step (.tick (readsAt 10)) = some s₁ ∧
      s₁.step (.tick (readsAt 11)) = some s₂ ∧ s₂.inFlight = [job₁, job₂] ∧
      job₁.Covers 10 ∧ job₂.Covers 10 ∧ ¬ s₂.inFlight.Pairwise FetchJob.Disjoint := by
  refine ⟨_, _, _, _, rfl, rfl, rfl, ⟨by decide, by decide⟩, ⟨by decide, by decide⟩, ?_⟩
  intro hdisj
  have hboth := (List.pairwise_cons.mp hdisj).1 _ List.mem_cons_self
  exact hboth 10 ⟨⟨by decide, by decide⟩, by decide, by decide⟩

end Overlap

section Hidden

/-- What the remembered range may be: a job in flight, blocks that the watermark has reached, or
blocks that neither the watermark nor a job in flight comes up to. -/
def Accounted (s : Schedule) (stored : Option Int) : Prop :=
  s.coordinator.hasEnqueued = true →
    (∃ job ∈ s.inFlight, s.Remembers job) ∨
    (∃ w, stored = some w ∧ s.coordinator.lastEnqueuedStart ≤ w) ∨
    (∀ w, stored = some w → w + 1 < s.coordinator.lastEnqueuedStart) ∧
      ∀ job ∈ s.inFlight, job.endBlock + 1 < s.coordinator.lastEnqueuedStart

/-- A job ends on a cursor of its range, and a rewind accounts for the remembered range. -/
def KeepsMemory (s : Schedule) : ScheduleAction → Prop
  | .complete job cursor => job.startBlock ≤ cursor ∧ cursor ≤ job.endBlock
  | .rewind fork => s.Accounted (some (rollbackWatermark fork))
  | _ => True

theorem Accounted.complete {cursor : Int} {job : FetchJob} (h : s.Accounted s.watermark)
    (hmem : job ∈ s.inFlight) (hle : job.startBlock ≤ cursor) (hge : cursor ≤ job.endBlock) :
    (s.completed job cursor).Accounted (s.completed job cursor).watermark := by
  obtain ⟨w', hw', hcur, hold⟩ : ∃ w', (s.completed job cursor).watermark = some w' ∧
      cursor ≤ w' ∧ (w' = cursor ∨ s.watermark = some w') ∧ ∀ w, s.watermark = some w → w ≤ w' := by
    refine ⟨_, completed_watermark s job cursor, ?_⟩
    cases s.watermark with
    | none => exact ⟨Int.le_refl _, .inl rfl, nofun⟩
    | some w =>
      refine ⟨Int.le_max_right _ _, ?_, ?_⟩
      · rcases Int.le_total w cursor with hlt | hlt
        · exact .inl (Int.max_eq_right hlt)
        · exact .inr (congrArg some (Int.max_eq_left hlt).symm)
      · rintro v ⟨⟩
        exact Int.le_max_left _ _
  intro hhas
  rw [hw']
  rcases h hhas with ⟨old, hmem', hrem⟩ | ⟨w, hw, hrea⟩ | ⟨hbelow, hends⟩
  · by_cases heq : old = job
    · subst heq
      have hstart : s.coordinator.lastEnqueuedStart ≤ cursor := hrem.2.1 ▸ hle
      exact .inr (.inl ⟨w', rfl, Int.le_trans hstart hcur⟩)
    · exact .inl ⟨old, (List.mem_erase_of_ne heq).mpr hmem', hrem⟩
  · exact .inr (.inl ⟨w', rfl, Int.le_trans hrea (hold.2 w hw)⟩)
  · have hend := hends job hmem
    refine .inr (.inr ⟨?_, fun other hother => hends other (List.mem_of_mem_erase hother)⟩)
    rintro v ⟨⟩
    rcases hold.1 with rfl | hsame
    · exact Int.lt_of_le_of_lt (Int.add_le_add_right hge 1) hend
    · exact hbelow w' hsame

theorem step_accounted (h : s.Accounted s.watermark) (hok : s.KeepsMemory act)
    (hstep : s.step act = some s') : s'.Accounted s'.watermark := by
  rcases step_cases hstep with rfl | ⟨reads, res, rfl, hres, rfl⟩ | ⟨job, cursor, rfl, hmem, rfl⟩ |
    ⟨fork, rfl, rfl⟩
  · exact nofun
  · rcases ticked_cases hres with hsame | ⟨job, _, hfli, hjob⟩
    · rw [hsame]
      exact h
    · refine fun _ => .inl ⟨job, ?_, hjob⟩
      rw [hfli]
      exact List.mem_append_cons_self
  · exact h.complete hmem hok.1 hok.2
  · rw [rewound_watermark]
    exact hok

/-- In every run whose steps keep the memory, a tick enqueues a job with the next block where no
job in flight has it: a positive watermark is stored and read, the head is past it, an address is
watched, the batch holds a block and the job is sent. -/
theorem run_enqueues (s s' : Schedule) (acts : List ScheduleAction) (reads : TickReads) (w : Int)
    (addresses : List WatchedAddress) (hrepo : s.coordinator.wmRepo = true)
    (hfresh : s.coordinator.hasEnqueued = false)
    (hrun : Runs.Run (fun t act t' => t.step act = some t') KeepsMemory s acts s')
    (hw : s'.watermark = some w) (hpos : 0 < w) (hnone : ∀ job ∈ s'.inFlight, ¬ job.Covers (w + 1))
    (hint : IsInt64 reads.head) (hhead : w + 1 ≤ reads.head)
    (hactive : reads.active = .ok addresses) (hne : addresses ≠ [])
    (hread : reads.watermarkError = none) (hbatch : 1 ≤ reads.resolvedBatch)
    (hsent : reads.sent = true) :
    ∃ res job, tickBlockScan s'.coordinator reads s'.watermark = .ok res ∧ res.job = some job ∧
      job.Covers (w + 1) := by
  obtain ⟨hrepo', hacc⟩ : s'.coordinator.wmRepo = true ∧ s'.Accounted s'.watermark := by
    refine hrun.invariant (P := fun t => t.coordinator.wmRepo = true ∧ t.Accounted t.watermark)
      ⟨hrepo, fun h => by rw [hfresh] at h; cases h⟩ ?_
    rintro t act t' ⟨htrepo, ht⟩ hok hstep
    exact ⟨(step_wmRepo hstep).trans htrepo, step_accounted ht hok hstep⟩
  obtain ⟨_, hhi⟩ := hint
  have hstart : reads.startBlock s'.coordinator s'.watermark = w + 1 := by
    rw [startBlock_of_watermark (watermark_eq_some.mpr ⟨hrepo', hread, hw, hpos⟩)]
    exact wrap64_of_isInt64 ⟨by omega, by omega⟩
  have hend : w + 1 ≤ cappedEnd reads.head (w + 1) reads.resolvedBatch := by
    rw [cappedEnd_eq (by omega) (by omega) (by omega) hhi (by omega) (by omega)]
    exact le_lastBlock hhead hbatch
  refine ⟨_, _, tickBlockScan_enqueues hactive hne (headSequence_of_pos (by omega)) hsent ?_ ?_,
    rfl, ?_⟩
  · rw [hstart]
    exact hhead
  · -- the remembered range would be that of a job in flight which has the block
    rintro ⟨hhas, hlast, hlasE⟩
    rw [hstart] at hlast hlasE
    rcases hacc hhas with ⟨job, hjob, hrem⟩ | ⟨v, hv, hreached⟩ | ⟨hbelow, _⟩
    · refine hnone job hjob ⟨?_, ?_⟩
      · rw [hrem.2.1, hlast]
      · rw [hrem.2.2, ← hlasE]
        exact hend
    · rw [hw] at hv
      cases hv
      omega
    · have := hbelow w hw
      omega
  · show reads.startBlock s'.coordinator s'.watermark ≤ w + 1 ∧
      w + 1 ≤ cappedEnd reads.head (reads.startBlock s'.coordinator s'.watermark) reads.resolvedBatch
    rw [hstart]
    exact ⟨Int.le_refl _, hend⟩

def jobTenToTwelve : FetchJob :=
  scanJob (scheduleAt 9).coordinator (readsAt 12) [{ address := "0xa" }] 10 12

/-- After the job of the blocks 10 to 12 the next tick enqueues block 13. -/
theorem run_enqueues_next :
    ∃ s' res job, Runs.Run (fun t act t' => t.step act = some t') KeepsMemory (scheduleAt 9)
        [.tick (readsAt 12), .complete jobTenToTwelve 12] s' ∧
      tickBlockScan s'.coordinator (readsAt 20) s'.watermark = .ok res ∧ res.job = some job ∧
      job.Covers 13 := by
  obtain ⟨s', hrun, hw, hnone⟩ : ∃ s', Runs.Run (fun t act t' => t.step act = some t') KeepsMemory
      (scheduleAt 9) [.tick (readsAt 12), .complete jobTenToTwelve 12] s' ∧
      s'.watermark = some 12 ∧ s'.inFlight = [] := by
    refine ⟨_, .next (.next .start trivial rfl) ⟨by decide, by decide⟩ rfl, ?_, ?_⟩
    · rfl
    · rfl
  obtain ⟨res, job, htick, hjob, hcov⟩ := run_enqueues (scheduleAt 9) s' _ (readsAt 20) 12
    [{ address := "0xa" }] rfl rfl hrun hw (by decide)
    (fun job hjob => by rw [hnone] at hjob; cases hjob) (by decide) (by decide) rfl (by simp) rfl
    (by decide) rfl
  exact ⟨s', res, job, hrun, htick, hjob, hcov⟩

/-- The job of the blocks 10 to 12 completes and a reorg rewinds to block 9: the next tick finds
nothing in flight and block 10 to scan, and enqueues nothing. -/
theorem tick_hidden :
    ∃ s₁ s₂ s₃ res, (scheduleAt 9).step (.tick (readsAt 12)) = some s₁ ∧
      s₁.step (.complete jobTenToTwelve 12) = some s₂ ∧ s₂.step (.rewind 10) = some s₃ ∧
      s₃.watermark = some 9 ∧ s₃.inFlight = [] ∧ (readsAt 20).head = 20 ∧
      tickBlockScan s₃.coordinator (readsAt 20) s₃.watermark = .ok res ∧ res.job = none :=
  ⟨_, _, _, _, rfl, rfl, rfl, rfl, rfl, rfl, rfl, rfl⟩

end Hidden

end Schedule

end MultichainIndexer
