import Mathlib.Tactic.Linarith
import MultichainIndexer.Lib.Result
import MultichainIndexer.Domain.Event

/-!
# The coordinator's tick

A tick reads the watched addresses, the head and the watermark, and turns them
into one fetch job for the blocks from the watermark to the head, cut to the
batch size. The coordinator remembers only the last range it enqueued and skips
a tick that gives the same range again. What the autotuner resolves and whether
the job channel takes the job are inputs of the tick.

The range is described once more by itself: `firstBlock` is the block after a
positive watermark, or else the lookback before the head, and `lastBlock` is the
head cut to the batch size.
-/

namespace MultichainIndexer

structure Coordinator where
  chain : Chain
  network : Network
  wmRepo : Bool := true
  maxInitialLookbackBlocks : Int := 0
  backfillCh : Bool := false
  hasEnqueued : Bool := false
  lastEnqueuedStart : Int := 0
  lastEnqueuedEnd : Int := 0

def Coordinator.restarted (c : Coordinator) : Coordinator :=
  { c with hasEnqueued := false, lastEnqueuedStart := 0, lastEnqueuedEnd := 0 }

structure BackfillRequest where
  chain : Chain
  network : Network
  fromBlock : Int

/-- What a tick gets from outside. `autoTune` is what the controller resolves, where there is one;
`sent` is false where the context ends before the job channel has room. -/
structure TickReads where
  active : Except String (List WatchedAddress)
  headProvider : Option (Except String Int) := none
  watermarkError : Option String := none
  batchSize : Int
  autoTune : Option Int := none
  sent : Bool := true
  pendingBackfill : Except String (List WatchedAddress) := .ok []
  backfillFull : Bool := false

structure TickResult where
  coordinator : Coordinator
  job : Option FetchJob := none
  backfill : Option BackfillRequest := none

section Tick
variable (c : Coordinator) (reads : TickReads)

def TickReads.headSequence : Except String Int :=
  match reads.headProvider with
  | none => .ok 0
  | some (.error e) => .error ("resolve tick cutoff head: " ++ e)
  | some (.ok head) => .ok (if head < 0 then 0 else head)

/-- The start block that the watermark gives, and whether it gave one. -/
def watermarkStart (stored : Option Int) : Int × Bool :=
  if c.wmRepo then
    match reads.watermarkError, stored with
    | none, some w => if 0 < w then (wrap64 (w + 1), true) else (0, false)
    | _, _ => (0, false)
  else (0, false)

def nearHeadStart (head startBlock : Int) (hasWatermark : Bool) : Int :=
  if !hasWatermark && 0 < head && 0 < c.maxInitialLookbackBlocks then
    let tipStart := wrap64 (head - c.maxInitialLookbackBlocks + 1)
    let tipStart := if tipStart < 0 then 0 else tipStart
    if startBlock < tipStart then tipStart else startBlock
  else startBlock

def TickReads.resolvedBatch : Int :=
  let batchSize := reads.autoTune.getD reads.batchSize
  if batchSize ≤ 0 then reads.batchSize else batchSize

def cappedEnd (head startBlock batchSize : Int) : Int :=
  if 0 < head && batchSize < wrap64 (head - startBlock + 1) then wrap64 (startBlock + batchSize - 1)
  else head

def checkBackfill (startBlock : Int) (hasWatermark : Bool) : Option BackfillRequest :=
  if c.backfillCh && c.wmRepo && hasWatermark then
    match reads.pendingBackfill with
    | .ok (addr :: _) =>
      match addr.backfillFromBlock with
      | some minBackfillBlock =>
        if minBackfillBlock < startBlock && !reads.backfillFull then
          some { chain := c.chain, network := c.network, fromBlock := minBackfillBlock }
        else none
      | none => none
    | _ => none
  else none

def scanJob (addresses : List WatchedAddress) (startBlock endBlock : Int) : FetchJob where
  chain := c.chain
  network := c.network
  fetchCutoffSeq := endBlock
  batchSize := reads.resolvedBatch
  blockScanMode := true
  startBlock := startBlock
  endBlock := endBlock
  watchedAddresses := addresses.map WatchedAddress.address

def enqueueScan (addresses : List WatchedAddress) (startBlock endBlock : Int)
    (hasWatermark : Bool) : TickResult where
  coordinator := { c with
    hasEnqueued := true
    lastEnqueuedStart := startBlock
    lastEnqueuedEnd := endBlock }
  job := some (scanJob c reads addresses startBlock endBlock)
  backfill := checkBackfill c reads startBlock hasWatermark

/-- `tickBlockScan`, with the watermark row that is stored. -/
def tickBlockScan (stored : Option Int) : Except String TickResult := do
  let addresses ← reads.active
  if addresses.isEmpty then return { coordinator := c }
  let head ← reads.headSequence
  let start := watermarkStart c reads stored
  let startBlock := nearHeadStart c head start.1 start.2
  if 0 < head && head < startBlock then return { coordinator := c }
  let endBlock := cappedEnd head startBlock reads.resolvedBatch
  if c.wmRepo && c.hasEnqueued && startBlock = c.lastEnqueuedStart &&
      endBlock = c.lastEnqueuedEnd then
    return { coordinator := c }
  if reads.sent then return enqueueScan c reads addresses startBlock endBlock start.2
  throw "context canceled"

end Tick

section Window

/-- The head that a tick works with: 0 where there is no provider or it is negative. -/
def TickReads.head (reads : TickReads) : Int :=
  match reads.headProvider with
  | some (.ok head) => max 0 head
  | _ => 0

/-- The watermark that a tick counts: one that is stored, read and positive. -/
def TickReads.watermark (reads : TickReads) (c : Coordinator) (stored : Option Int) : Option Int :=
  if c.wmRepo ∧ reads.watermarkError = none then stored.filter (0 < ·) else none

/-- Where a scan starts: after the watermark, or without one at the lookback before the head. -/
def firstBlock (watermark : Option Int) (lookback head : Int) : Int :=
  match watermark with
  | some w => w + 1
  | none => if 0 < head ∧ 0 < lookback then max 0 (head - lookback + 1) else 0

/-- Where a scan ends: at the head, or after as many blocks as the batch holds. -/
def lastBlock (first head batch : Int) : Int :=
  if 0 < head ∧ batch < head - first + 1 then first + batch - 1 else head

end Window

section Facts
variable {c : Coordinator} {reads : TickReads} {stored : Option Int} {res : TickResult}

theorem headSequence_ok {head : Int} (h : reads.headSequence = .ok head) : head = reads.head := by
  unfold TickReads.headSequence at h
  split at h
  · rename_i hnone
    cases h
    simp only [TickReads.head, hnone]
  · cases h
  · rename_i head' hsome
    cases h
    simp only [TickReads.head, hsome]
    split
    · omega
    · omega

def TickReads.startBlock (reads : TickReads) (c : Coordinator) (stored : Option Int) : Int :=
  nearHeadStart c reads.head (watermarkStart c reads stored).1 (watermarkStart c reads stored).2

theorem tickBlockScan_ok (h : tickBlockScan c reads stored = .ok res) :
    res.job = none ∧ res.coordinator = c ∨
    ∃ addresses endBlock, reads.active = .ok addresses ∧ addresses ≠ [] ∧
      ¬ (0 < reads.head ∧ reads.head < reads.startBlock c stored) ∧
      endBlock = cappedEnd reads.head (reads.startBlock c stored) reads.resolvedBatch ∧
      ¬ (c.wmRepo = true ∧ c.hasEnqueued = true ∧
        reads.startBlock c stored = c.lastEnqueuedStart ∧ endBlock = c.lastEnqueuedEnd) ∧
      res.job = some (scanJob c reads addresses (reads.startBlock c stored) endBlock) ∧
      res.coordinator = { c with
        hasEnqueued := true
        lastEnqueuedStart := reads.startBlock c stored
        lastEnqueuedEnd := endBlock } := by
  obtain ⟨addresses, hact, h⟩ := Result.bind_ok h
  split at h
  · cases h
    exact .inl ⟨rfl, rfl⟩
  · rename_i hne
    obtain ⟨head, hhead, h⟩ := Result.bind_ok h
    obtain rfl := headSequence_ok hhead
    simp only at h
    split at h
    · cases h
      exact .inl ⟨rfl, rfl⟩
    · rename_i hahead
      split at h
      · cases h
        exact .inl ⟨rfl, rfl⟩
      · rename_i hnew
        split at h
        · cases h
          refine .inr ⟨addresses, _, hact, by simpa using hne, ?_, rfl, ?_, rfl, rfl⟩
          · simpa [TickReads.startBlock] using hahead
          · simpa [TickReads.startBlock, and_assoc] using hnew
        · cases h

theorem tickBlockScan_enqueues {addresses : List WatchedAddress}
    (hact : reads.active = .ok addresses) (hne : addresses ≠ [])
    (hhead : reads.headSequence = .ok reads.head) (hsent : reads.sent = true)
    (hle : reads.startBlock c stored ≤ reads.head)
    (hnew : ¬ (c.hasEnqueued = true ∧ reads.startBlock c stored = c.lastEnqueuedStart ∧
      cappedEnd reads.head (reads.startBlock c stored) reads.resolvedBatch = c.lastEnqueuedEnd)) :
    tickBlockScan c reads stored = .ok (enqueueScan c reads addresses (reads.startBlock c stored)
      (cappedEnd reads.head (reads.startBlock c stored) reads.resolvedBatch)
      (watermarkStart c reads stored).2) := by
  have hempty : ¬ addresses.isEmpty = true := by simpa using hne
  have hahead : ¬ (decide (0 < reads.head) && decide (reads.head < reads.startBlock c stored)) =
      true := by
    simp only [Bool.and_eq_true, decide_eq_true_eq]
    omega
  have hdup : ¬ (c.wmRepo && c.hasEnqueued &&
      decide (reads.startBlock c stored = c.lastEnqueuedStart) &&
      decide (cappedEnd reads.head (reads.startBlock c stored) reads.resolvedBatch =
        c.lastEnqueuedEnd)) = true := by
    simp only [Bool.and_eq_true, decide_eq_true_eq]
    exact fun h => hnew ⟨h.1.1.2, h.1.2, h.2⟩
  unfold TickReads.startBlock at hahead hdup ⊢
  unfold tickBlockScan
  simp only [hact, hhead, bind, Except.bind, if_neg hempty, if_neg hahead, if_neg hdup,
    if_pos hsent]
  rfl

theorem headSequence_of_pos (h : 0 < reads.head) : reads.headSequence = .ok reads.head := by
  unfold TickReads.head at h
  split at h
  · rename_i head hsome
    simp only [TickReads.headSequence, TickReads.head, hsome]
    split
    · omega
    · rw [Int.max_eq_right (by omega)]
  · omega

theorem head_nonneg (reads : TickReads) : 0 ≤ reads.head := by
  unfold TickReads.head
  split
  · exact Int.le_max_left _ _
  · exact Int.le_refl 0

theorem watermark_eq_some {w : Int} :
    reads.watermark c stored = some w ↔
      c.wmRepo = true ∧ reads.watermarkError = none ∧ stored = some w ∧ 0 < w := by
  unfold TickReads.watermark
  split
  · rename_i h
    rw [Option.filter_eq_some_iff, decide_eq_true_eq]
    exact ⟨fun hw => ⟨h.1, h.2, hw⟩, fun hw => hw.2.2⟩
  · rename_i h
    exact iff_of_false nofun fun hw => h ⟨hw.1, hw.2.1⟩

theorem watermarkStart_eq :
    watermarkStart c reads stored = match reads.watermark c stored with
      | some w => (wrap64 (w + 1), true)
      | none => (0, false) := by
  unfold watermarkStart TickReads.watermark
  cases c.wmRepo with
  | false => rfl
  | true =>
    cases reads.watermarkError with
    | some e => simp
    | none =>
      cases stored with
      | none => rfl
      | some w =>
        simp only [Option.filter_some, decide_eq_true_eq, and_self, if_true]
        by_cases hw : 0 < w
        · rw [if_pos hw, if_pos hw]
        · rw [if_neg hw, if_neg hw]

theorem startBlock_of_watermark {w : Int} (h : reads.watermark c stored = some w) :
    reads.startBlock c stored = wrap64 (w + 1) := by
  unfold TickReads.startBlock
  rw [watermarkStart_eq, h]
  rfl

theorem startBlock_of_none (hlook : IsInt64 c.maxInitialLookbackBlocks) (hhead : IsInt64 reads.head)
    (h : reads.watermark c stored = none) :
    reads.startBlock c stored = firstBlock none c.maxInitialLookbackBlocks reads.head := by
  unfold TickReads.startBlock
  rw [watermarkStart_eq, h]
  simp only [nearHeadStart, firstBlock, Bool.not_false, Bool.true_and, Bool.and_eq_true,
    decide_eq_true_eq]
  by_cases hback : 0 < reads.head ∧ 0 < c.maxInitialLookbackBlocks
  · obtain ⟨_, hhi⟩ := hhead
    obtain ⟨_, hlhi⟩ := hlook
    have htip : wrap64 (reads.head - c.maxInitialLookbackBlocks + 1) =
        reads.head - c.maxInitialLookbackBlocks + 1 := wrap64_of_isInt64 ⟨by omega, by omega⟩
    rw [if_pos hback, if_pos hback, htip]
    split
    · omega
    · split
      · omega
      · omega
  · rw [if_neg hback, if_neg hback]

theorem startBlock_eq (hlook : IsInt64 c.maxInitialLookbackBlocks) (hhead : IsInt64 reads.head)
    (hnext : ∀ w, stored = some w → w + 1 < 2 ^ 63) :
    reads.startBlock c stored =
      firstBlock (reads.watermark c stored) c.maxInitialLookbackBlocks reads.head := by
  cases h : reads.watermark c stored with
  | none => exact startBlock_of_none hlook hhead h
  | some w =>
    rw [startBlock_of_watermark h]
    obtain ⟨_, _, hsto, hpos⟩ := watermark_eq_some.mp h
    have := hnext w hsto
    exact wrap64_of_isInt64 ⟨by omega, by omega⟩

theorem cappedEnd_eq {first head batch : Int} (hfirst : 0 ≤ first) (hlt : first < 2 ^ 63)
    (hhead : 0 ≤ head) (hhi : head < 2 ^ 63) (hcount : head - first + 1 < 2 ^ 63)
    (hbatch : -2 ^ 63 < batch) : cappedEnd head first batch = lastBlock first head batch := by
  have hlen : wrap64 (head - first + 1) = head - first + 1 :=
    wrap64_of_isInt64 ⟨by omega, hcount⟩
  simp only [cappedEnd, lastBlock, hlen, Bool.and_eq_true, decide_eq_true_eq]
  split
  · exact wrap64_of_isInt64 ⟨by omega, by omega⟩
  · rfl

theorem le_lastBlock {first head batch : Int} (hle : first ≤ head) (hbatch : 1 ≤ batch) :
    first ≤ lastBlock first head batch := by
  unfold lastBlock
  split
  · omega
  · exact hle

end Facts

/-- A job starts at or before the block after the stored watermark exactly where the tick reads a
positive watermark, or where the lookback before the head reaches back to it. -/
theorem tickBlockScan_startBlock_le_iff (c : Coordinator) (reads : TickReads) (w : Int)
    (res : TickResult) (job : FetchJob) (hlook : IsInt64 c.maxInitialLookbackBlocks)
    (hhead : IsInt64 reads.head) (htick : tickBlockScan c reads (some w) = .ok res)
    (hjob : res.job = some job) :
    job.startBlock ≤ w + 1 ↔
      c.wmRepo = true ∧ reads.watermarkError = none ∧ 0 < w ∨
      -1 ≤ w ∧ (0 < reads.head → 0 < c.maxInitialLookbackBlocks →
        reads.head - c.maxInitialLookbackBlocks ≤ w) := by
  have hstart : job.startBlock = reads.startBlock c (some w) := by
    rcases tickBlockScan_ok htick with ⟨hnone, _⟩ | ⟨_, _, _, _, _, _, _, hsome, _⟩
    · rw [hnone] at hjob
      cases hjob
    · rw [hsome] at hjob
      cases hjob
      rfl
  rw [hstart]
  by_cases hread : c.wmRepo = true ∧ reads.watermarkError = none ∧ 0 < w
  · obtain ⟨hrepo, herr, hpos⟩ := hread
    rw [startBlock_of_watermark (watermark_eq_some.mpr ⟨hrepo, herr, rfl, hpos⟩)]
    exact iff_of_true (wrap64_le (by omega)) (.inl ⟨hrepo, herr, hpos⟩)
  · have hwm : reads.watermark c (some w) = none := by
      rw [Option.eq_none_iff_forall_ne_some]
      intro v hv
      obtain ⟨hrepo, herr, hsto, hpos⟩ := watermark_eq_some.mp hv
      cases hsto
      exact hread ⟨hrepo, herr, hpos⟩
    rw [startBlock_of_none hlook hhead hwm, or_iff_right hread]
    simp only [firstBlock]
    by_cases hback : 0 < reads.head ∧ 0 < c.maxInitialLookbackBlocks
    · rw [if_pos hback]
      constructor
      · exact fun hle => ⟨by omega, fun _ _ => by omega⟩
      · rintro ⟨hlow, htip⟩
        have := htip hback.1 hback.2
        omega
    · rw [if_neg hback]
      constructor
      · exact fun hle => ⟨by omega, fun hh hl => absurd ⟨hh, hl⟩ hback⟩
      · rintro ⟨hlow, _⟩
        omega

end MultichainIndexer
