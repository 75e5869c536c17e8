import MultichainIndexer.ReorgDetector.Check

/-!
# What a check detects

A check emits an event for the first block that alarms. So it misses a reorg
where all blocks that are off the chain are skipped, and the fork block of its
event is the lowest alarm in an ascending list but the highest in a descending
one.
-/

namespace MultichainIndexer

section Order
variable {d : Detector} {reads : CheckReads} {db : Db}

theorem checkedBlocks_ascending
    (h : (getUnfinalized d.chain d.network db).length ≤ d.maxCheckDepth) :
    (d.checkedBlocks db).Pairwise fun a b => a.blockNumber < b.blockNumber := by
  unfold Detector.checkedBlocks
  rw [if_neg (Nat.not_lt.mpr h)]
  exact getUnfinalized_pairwise _ _ _

theorem checkedBlocks_descending
    (h : d.maxCheckDepth < (getUnfinalized d.chain d.network db).length) :
    (d.checkedBlocks db).Pairwise fun a b => b.blockNumber < a.blockNumber := by
  unfold Detector.checkedBlocks
  rw [if_pos h]
  apply List.Pairwise.sublist (List.take_sublist _ _)
  apply Ordered.descending_pairwise
  refine (getUnfinalized_pairwise _ _ _).imp ?_
  intro a b hlt
  omega

theorem checkedBlocks_distinct :
    (d.checkedBlocks db).Pairwise fun a b => a.blockNumber ≠ b.blockNumber := by
  by_cases h : (getUnfinalized d.chain d.network db).length ≤ d.maxCheckDepth
  · refine (checkedBlocks_ascending h).imp ?_
    intro a b hlt
    omega
  · refine (checkedBlocks_descending (Nat.not_le.mp h)).imp ?_
    intro a b hlt
    omega

theorem check_fork_eq_some {n : Int} :
    (d.check reads db).fork = some n ↔ reads.queryError = none ∧ reads.sent = true ∧
      ∃ a, (d.checkedBlocks db).find? (d.alarms reads (d.checkedBlocks db)) = some a ∧
        a.blockNumber = n := by
  unfold Detector.check
  cases reads.queryError with
  | some e => simp [CheckResult.fork]
  | none =>
    simp only
    rw [checkBlocks_fork checkedBlocks_distinct]
    cases reads.sent with
    | false => simp
    | true => simp

end Order

section Samples

def storedBlock (n : Int) (hash parent : String) : IndexedBlock where
  chain := .ethereum
  network := .mainnet
  blockNumber := n
  blockHash := hash
  parentHash := parent

def ethereumDetector : Detector where
  chain := .ethereum
  network := .mainnet

def twoBlocks : Db where
  indexedBlocks := ⟨[storedBlock 10 "a10" "", storedBlock 11 "a11" "a10"], by decide⟩

def nodeWith (ten other : String) : CheckReads where
  getBlockHash n := .ok (if n = 10 then ten else other, "")

end Samples

section Fork

/-- Up to the check depth a block that alarms is at or below every orphaned block; beyond it every
block that alarms is. -/
def ForkLowEnough (d : Detector) (reads : CheckReads) (db : Db) : Prop :=
  let blocks := d.checkedBlocks db
  if (getUnfinalized d.chain d.network db).length ≤ d.maxCheckDepth then
    ∀ b ∈ blocks, Orphaned reads b →
      ∃ a ∈ blocks, d.alarms reads blocks a = true ∧ a.blockNumber ≤ b.blockNumber
  else
    ∀ b ∈ blocks, Orphaned reads b →
      ∀ a ∈ blocks, d.alarms reads blocks a = true → a.blockNumber ≤ b.blockNumber

/-- The fork block of an event is at or below every orphaned block of the check exactly where the
alarms are low enough for the order of the blocks. -/
theorem check_fork_le_iff (d : Detector) (reads : CheckReads) (db : Db) (e : ReorgEvent)
    (hevent : (d.check reads db).event = some e) :
    (∀ b ∈ d.checkedBlocks db, Orphaned reads b → e.forkBlockNumber ≤ b.blockNumber) ↔
      ForkLowEnough d reads db := by
  have hfork : (d.check reads db).fork = some e.forkBlockNumber := by
    unfold CheckResult.fork
    rw [hevent]
    rfl
  obtain ⟨_, _, first, hfind, hnum⟩ := check_fork_eq_some.mp hfork
  rw [← hnum]
  have hfirst := List.mem_of_find?_eq_some hfind
  have halarm := List.find?_some hfind
  unfold ForkLowEnough
  simp only
  split
  · rename_i hlen
    constructor
    · intro hle b hb horp
      exact ⟨first, hfirst, halarm, hle b hb horp⟩
    · intro hlow b hb horp
      obtain ⟨a, ha, hal, hab⟩ := hlow b hb horp
      rcases Ordered.find?_first (checkedBlocks_ascending hlen) hfind ha hal with rfl | hlt
      · exact hab
      · omega
  · rename_i hlen
    constructor
    · intro hle b hb horp a ha hal
      have hfb := hle b hb horp
      rcases Ordered.find?_first (checkedBlocks_descending (Nat.not_le.mp hlen)) hfind ha hal
        with rfl | hlt
      · exact hfb
      · omega
    · intro hlow b hb horp
      exact hlow b hb horp first hfirst halarm

/-- With block 11 off the chain the event forks at block 11. -/
theorem check_fork_le_eleven :
    ∃ e, (ethereumDetector.check (nodeWith "a10" "b11") twoBlocks).event = some e ∧
      ∀ b ∈ ethereumDetector.checkedBlocks twoBlocks, Orphaned (nodeWith "a10" "b11") b →
        e.forkBlockNumber ≤ b.blockNumber := by
  refine ⟨_, rfl, (check_fork_le_iff _ _ _ _ rfl).mpr ?_⟩
  intro b hb horp
  have hblo : ethereumDetector.checkedBlocks twoBlocks =
      [storedBlock 10 "a10" "", storedBlock 11 "a11" "a10"] := rfl
  rw [hblo] at hb ⊢
  rcases List.mem_pair.mp hb with rfl | rfl
  · obtain ⟨hash, parent, hget, hne⟩ := horp
    cases hget
    exact absurd rfl hne
  · exact ⟨_, List.mem_cons_of_mem _ List.mem_cons_self, rfl, Int.le_refl _⟩

def shallowDetector : Detector where
  chain := .ethereum
  network := .mainnet
  maxCheckDepth := 2

def brokenChain : Db where
  indexedBlocks := ⟨[storedBlock 10 "a10" "", storedBlock 11 "b11" "b10"], by decide⟩

def oldBranch : Db where
  indexedBlocks := ⟨[storedBlock 10 "a10" "", storedBlock 11 "a11" "", storedBlock 12 "a12" ""],
    by decide⟩

/-- A break between blocks 10 and 11 forks at 11 though 10 is off the chain; and beyond the check
depth the event forks at the newest block though the one below is off the chain too. -/
theorem check_forks_too_high :
    (∃ e, (ethereumDetector.check (nodeWith "b10" "b11") brokenChain).event = some e ∧
      e.forkBlockNumber = 11 ∧ ∃ b ∈ ethereumDetector.checkedBlocks brokenChain,
        Orphaned (nodeWith "b10" "b11") b ∧ b.blockNumber = 10) ∧
    ∃ e, (shallowDetector.check (nodeWith "b10" "b11") oldBranch).event = some e ∧
      e.forkBlockNumber = 12 ∧ ∃ b ∈ shallowDetector.checkedBlocks oldBranch,
        Orphaned (nodeWith "b10" "b11") b ∧ b.blockNumber = 11 := by
  refine ⟨⟨_, rfl, rfl, _, List.mem_cons_self, ⟨_, _, rfl, ?_⟩, rfl⟩, _, rfl, rfl, _,
    List.mem_cons_of_mem _ List.mem_cons_self, ⟨_, _, rfl, ?_⟩, rfl⟩
  · decide
  · decide

end Fork

section Complete
variable {d : Detector} {reads : CheckReads} {db : Db}

/-- The query succeeds and the reorg channel takes the event. -/
def CheckReads.Answered (reads : CheckReads) : Prop :=
  reads.queryError = none ∧ reads.sent = true

/-- The detector that has verified nothing, and so asks for every block. -/
def Detector.unverified (d : Detector) : Detector := { d with lastVerified := fun _ => none }

/-- A check with an orphaned block emits an event, and so does one where a check of all blocks
would. -/
def Detector.Detects (d : Detector) (i : CheckReads × Db) : Prop :=
  ((∃ b ∈ d.checkedBlocks i.2, Orphaned i.1 b) → (d.check i.1 i.2).event.isSome = true) ∧
    ((d.unverified.check i.1 i.2).event.isSome = true → (d.check i.1 i.2).event.isSome = true)

/-- A block that is skipped still has its hash and parent hash on the chain, unless another one
alarms. -/
def Detector.Rechecks (d : Detector) (i : CheckReads × Db) : Prop :=
  ∀ b ∈ d.checkedBlocks i.2, d.skips (d.checkedBlocks i.2) b = true → verifyFails i.1 b = true →
    ∃ a ∈ d.checkedBlocks i.2, d.alarms i.1 (d.checkedBlocks i.2) a = true

theorem check_event_isSome (h : reads.Answered) : (d.check reads db).event.isSome = true ↔
    ∃ a ∈ d.checkedBlocks db, d.alarms reads (d.checkedBlocks db) a = true := by
  have hsome : (d.check reads db).event.isSome = true ↔ ∃ n, (d.check reads db).fork = some n := by
    unfold CheckResult.fork
    rw [Option.isSome_iff_exists]
    simp
  rw [hsome]
  constructor
  · rintro ⟨n, hn⟩
    obtain ⟨_, _, a, hfind, _⟩ := check_fork_eq_some.mp hn
    exact ⟨a, List.mem_of_find?_eq_some hfind, List.find?_some hfind⟩
  · rintro ⟨a, ha, hal⟩
    cases hfind : (d.checkedBlocks db).find? (d.alarms reads (d.checkedBlocks db)) with
    | none => exact absurd hal (List.find?_eq_none.mp hfind a ha)
    | some b => exact ⟨b.blockNumber, check_fork_eq_some.mpr ⟨h.1, h.2, b, hfind, rfl⟩⟩

theorem verifyFails_of_orphaned {b : IndexedBlock} (h : Orphaned reads b) :
    verifyFails reads b = true := by
  obtain ⟨hash, parent, hget, hne⟩ := h
  simp [verifyFails, verifyBlock, hget, hne]

theorem exists_alarm_iff {blocks : List IndexedBlock} :
    (∃ a ∈ blocks, d.alarms reads blocks a = true) ↔
      blocks.any (breaksParentHash blocks) = true ∨
        ∃ a ∈ blocks, verifyFails reads a = true ∧ d.skips blocks a = false := by
  unfold Detector.alarms
  by_cases hbreak : blocks.any (breaksParentHash blocks) = true
  · simp only [if_pos hbreak]
    exact iff_of_true (List.any_eq_true.mp hbreak) (.inl hbreak)
  · simp only [if_neg hbreak, Bool.and_eq_true, Bool.not_eq_true']
    constructor
    · exact .inr
    · intro h
      exact h.resolve_left hbreak

theorem unverified_skips (blocks : List IndexedBlock) (b : IndexedBlock) :
    d.unverified.skips blocks b = false := by
  simp [Detector.skips, Detector.unverified]

theorem detects_iff_rechecks (h : reads.Answered) :
    d.Detects (reads, db) ↔ d.Rechecks (reads, db) := by
  have hsame : d.unverified.checkedBlocks db = d.checkedBlocks db := rfl
  unfold Detector.Detects
  simp only
  rw [check_event_isSome h, check_event_isSome h, hsame]
  constructor
  · rintro ⟨_, hall⟩ b hb _ hfails
    apply hall
    exact exists_alarm_iff.mpr (.inr ⟨b, hb, hfails, unverified_skips _ _⟩)
  · intro hre
    -- a block that fails alarms itself, or it is skipped and the condition gives another one
    have halarm : ∀ b ∈ d.checkedBlocks db, verifyFails reads b = true →
        ∃ a ∈ d.checkedBlocks db, d.alarms reads (d.checkedBlocks db) a = true := by
      intro b hb hfails
      cases hskip : d.skips (d.checkedBlocks db) b with
      | true => exact hre b hb hskip hfails
      | false => exact exists_alarm_iff.mpr (.inr ⟨b, hb, hfails, hskip⟩)
    refine ⟨?_, ?_⟩
    · rintro ⟨b, hb, horp⟩
      exact halarm b hb (verifyFails_of_orphaned horp)
    · intro hall
      rcases exists_alarm_iff.mp hall with hbreak | ⟨b, hb, hfails, _⟩
      · exact exists_alarm_iff.mpr (.inl hbreak)
      · exact halarm b hb hfails

/-- The runs in which every check detects what is off the chain are those in which no check skips
all of it. -/
theorem run_detects_iff (d d' : Detector) (acts : List (CheckReads × Db)) :
    Runs.Run (fun t i t' => (t.check i.1 i.2).detector = t')
        (fun t i => i.1.Answered ∧ t.Detects i) d acts d' ↔
      Runs.Run (fun t i t' => (t.check i.1 i.2).detector = t')
        (fun t i => i.1.Answered ∧ t.Rechecks i) d acts d' := by
  constructor
  · intro hrun
    apply hrun.imp
    rintro t i ⟨hans, hdet⟩
    exact ⟨hans, (detects_iff_rechecks hans).mp hdet⟩
  · intro hrun
    apply hrun.imp
    rintro t i ⟨hans, hre⟩
    exact ⟨hans, (detects_iff_rechecks hans).mpr hre⟩

/-- The first check of the two blocks asks for both of them, and the next one for the one that was
not found on the chain. -/
theorem run_detects_first :
    ∃ d', Runs.Run (fun t i t' => (Detector.check t i.1 i.2).detector = t')
      (fun t i => i.1.Answered ∧ Detector.Detects t i) ethereumDetector
      [(nodeWith "a10" "b11", twoBlocks), (nodeWith "a10" "b11", twoBlocks)] d' := by
  refine ⟨_, (run_detects_iff _ _ _).mpr
    (.next (.next .start ⟨⟨rfl, rfl⟩, ?_⟩ rfl) ⟨⟨rfl, rfl⟩, ?_⟩ rfl)⟩
  · unfold Detector.Rechecks
    decide
  · intro b _ hskip _
    simp [Detector.skips, ethereumDetector] at hskip

/-- Both blocks are verified once; then block 11 leaves the chain, and the next check skips it. A
check that asks for every block emits an event. -/
theorem check_misses_reorg :
    ∃ d', (ethereumDetector.check (nodeWith "a10" "a11") twoBlocks).detector = d' ∧
      (∃ b ∈ d'.checkedBlocks twoBlocks, Orphaned (nodeWith "a10" "b11") b) ∧
      (d'.check (nodeWith "a10" "b11") twoBlocks).event.isSome = false ∧
      (d'.unverified.check (nodeWith "a10" "b11") twoBlocks).event.isSome = true := by
  refine ⟨_, rfl, ⟨_, List.mem_cons_of_mem _ List.mem_cons_self, _, _, rfl, ?_⟩, rfl, rfl⟩
  decide

end Complete

end MultichainIndexer
