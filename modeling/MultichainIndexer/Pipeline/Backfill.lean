import MultichainIndexer.Lib.Run
import MultichainIndexer.Coordinator.BlockScan
import MultichainIndexer.Replay.Service
import MultichainIndexer.Store.WatchedAddressRepo

/-!
# Backfills

An admin request flags addresses with a block, a tick of the coordinator sends
the lowest flag to the pipeline, and the pipeline stops its workers, purges from
that block, clears the flags and starts again. A purge that fails is logged and
the flags are cleared all the same; a request may arrive at any moment, also
between the purge and the clearing, and overwrites the flag it finds. The
history records, for the proofs only, what was requested and what was purged.
-/

namespace MultichainIndexer

open Relational

inductive BackfillEvent where
  | requested (keys : List (Chain × Network × String)) (fromBlock : Int)
  | purged (chain : Chain) (network : Network) (fromBlock : Int)

/-- Where the pipeline's loop is: its workers run, or they are stopped for a request that is not
yet purged, or purged (or not, where the purge failed) with the flags still to be cleared. -/
inductive BackfillPhase where
  | running
  | stopped (req : BackfillRequest)
  | purged (req : BackfillRequest) (committed : Bool)

structure BackfillSystem where
  coordinator : Coordinator
  replayService : Option Bool := some true
  db : Db := {}
  watched : WatchedAddresses
  backfillCh : Option BackfillRequest := none
  phase : BackfillPhase := .running
  history : List BackfillEvent := []

/-- What may happen next. `work` stands for whatever the workers do to the database. -/
inductive BackfillAction where
  | request (chain : Chain) (network : Network) (addresses : List String) (fromBlock : Int)
  | tick (reads : TickReads)
  | work (db : Db)
  | take
  | purge (choice : RowChoice BulkAdjustItem) (failure : Option String)
  | clear (failure : Option String)

namespace BackfillSystem

/-- The checks of `handleBackfill`. -/
def acceptsRequest (addresses : List String) (fromBlock : Int) : Bool :=
  !addresses.isEmpty && 0 ≤ fromBlock && addresses.length ≤ 1000

def requested (s : BackfillSystem) (chain : Chain) (network : Network) (addresses : List String)
    (fromBlock : Int) : BackfillSystem :=
  { s with
    watched := setBackfillFromBlock chain network addresses fromBlock s.watched
    history := s.history ++ [.requested (flaggedBy chain network addresses s.watched) fromBlock] }

/-- The reads of a tick that come from the table and the channel. -/
def tickReads (s : BackfillSystem) (reads : TickReads) : TickReads :=
  { reads with
    active := reads.active.map fun _ => getActive s.coordinator.chain s.coordinator.network s.watched
    pendingBackfill := reads.pendingBackfill.map fun _ =>
      getPendingBackfill s.coordinator.chain s.coordinator.network s.watched
    backfillFull := s.backfillCh.isSome }

def ticked (s : BackfillSystem) (reads : TickReads) : BackfillSystem :=
  match tickBlockScan s.coordinator (s.tickReads reads)
      (getWatermark s.coordinator.chain s.coordinator.network s.db) with
  | .error _ => { s with coordinator := s.coordinator.restarted }
  | .ok res => { s with coordinator := res.coordinator, backfillCh := s.backfillCh.or res.backfill }

def purgeRequest (req : BackfillRequest) : PurgeRequest where
  chain := req.chain
  network := req.network
  fromBlock := req.fromBlock
  force := true
  reason := "address backfill"

def purged (s : BackfillSystem) (req : BackfillRequest) (choice : RowChoice BulkAdjustItem)
    (failure : Option String) : BackfillSystem :=
  match s.replayService, failure with
  | some blockRepo, none =>
    match purgeFromBlock blockRepo choice (purgeRequest req) s.db with
    | .error _ => { s with phase := .purged req false }
    | .ok (_, db) =>
      { s with
        db := db
        phase := .purged req true
        history := s.history ++ [.purged req.chain req.network req.fromBlock] }
  | _, _ => { s with phase := .purged req false }

def cleared (s : BackfillSystem) (req : BackfillRequest) (failure : Option String) :
    BackfillSystem :=
  { s with
    phase := .running
    watched := match failure with
      | some _ => s.watched
      | none => clearBackfill req.chain req.network s.watched }

def step (s : BackfillSystem) : BackfillAction → Option BackfillSystem
  | .request chain network addresses fromBlock =>
    if acceptsRequest addresses fromBlock then
      some (s.requested chain network addresses fromBlock)
    else some s
  | .tick reads =>
    match s.phase with
    | .running => some (s.ticked reads)
    | _ => none
  | .work db =>
    match s.phase with
    | .running => some { s with db := db }
    | _ => none
  | .take =>
    match s.phase, s.backfillCh with
    | .running, some req =>
      some { s with
        coordinator := s.coordinator.restarted
        backfillCh := none
        phase := .stopped req }
    | _, _ => none
  | .purge choice failure =>
    match s.phase with
    | .stopped req => some (s.purged req choice failure)
    | _ => none
  | .clear failure =>
    match s.phase with
    | .purged req _ => some (s.cleared req failure)
    | _ => none

end BackfillSystem

/-- A request for an address after which no purge from its block or below was committed. -/
def Unserved (history : List BackfillEvent) (k : Chain × Network × String) (f : Int) : Prop :=
  ∃ pre keys post, history = pre ++ .requested keys f :: post ∧ k ∈ keys ∧
    ∀ g, .purged k.1 k.2.1 g ∈ post → f < g

/-- Whoever asked for a backfill has it, or still has a flag at its block or below. -/
def BackfillSystem.DropsNone (s : BackfillSystem) : Prop :=
  ∀ k f, Unserved s.history k f → ∃ g, backfillFlag s.watched k = some g ∧ g ≤ f

/-- What a step must respect: a request raises no flag and does not arrive between a purge and the
clearing after it; the flags are cleared after a purge that was committed, and none of them is
below its block. -/
def BackfillSystem.Respects (s : BackfillSystem) : BackfillAction → Prop
  | .request chain network addresses fromBlock =>
    (∀ k ∈ flaggedBy chain network addresses s.watched, ∀ g,
      backfillFlag s.watched k = some g → fromBlock ≤ g) ∧
    ∀ req committed, s.phase = .purged req committed → ¬ (chain = req.chain ∧ network = req.network)
  | .clear none => ∀ req committed, s.phase = .purged req committed →
      committed = true ∧ ∀ k g, k.1 = req.chain → k.2.1 = req.network →
        backfillFlag s.watched k = some g → req.fromBlock ≤ g
  | _ => True

section History
variable {history : List BackfillEvent} {k : Chain × Network × String} {f : Int}

theorem unserved_concat {e : BackfillEvent} :
    Unserved (history ++ [e]) k f ↔
      (Unserved history k f ∧ ∀ g, e = .purged k.1 k.2.1 g → f < g) ∨
        ∃ keys, e = .requested keys f ∧ k ∈ keys := by
  constructor
  · rintro ⟨pre, keys, post, heq, hk, hnone⟩
    rcases List.eq_nil_or_concat' post with rfl | ⟨post, e', rfl⟩
    · obtain ⟨_, hlast⟩ := List.append_inj' heq rfl
      exact .inr ⟨keys, List.singleton_inj.mp hlast, hk⟩
    · rw [← List.cons_append, ← List.append_assoc] at heq
      obtain ⟨hfront, hlast⟩ := List.append_inj' heq rfl
      cases hlast
      refine .inl ⟨⟨pre, keys, post, hfront, hk, fun g hg => hnone g (List.mem_append_left _ hg)⟩, ?_⟩
      rintro g rfl
      exact hnone g List.mem_append_cons_self
  · rintro (⟨⟨pre, keys, post, rfl, hk, hnone⟩, hlast⟩ | ⟨keys, rfl, hk⟩)
    · refine ⟨pre, keys, post ++ [e], by simp, hk, fun g hg => ?_⟩
      rcases List.mem_append.mp hg with hg | hg
      · exact hnone g hg
      · exact hlast g (List.mem_singleton.mp hg).symm
    · exact ⟨history, keys, [], rfl, hk, fun g hg => absurd hg List.not_mem_nil⟩

theorem unserved_requested {keys : List (Chain × Network × String)} {f₀ : Int} :
    Unserved (history ++ [.requested keys f₀]) k f ↔ Unserved history k f ∨ k ∈ keys ∧ f = f₀ := by
  simp [unserved_concat, and_comm, eq_comm]

theorem unserved_purged {chain : Chain} {network : Network} {b : Int} :
    Unserved (history ++ [.purged chain network b]) k f ↔
      Unserved history k f ∧ (k.1 = chain → k.2.1 = network → f < b) := by
  simp [unserved_concat, eq_comm]

end History

namespace BackfillSystem
variable {s s' : BackfillSystem} {act : BackfillAction}

/-- The requests that a purge left open are below its block, until the flags are cleared. -/
structure Kept (s : BackfillSystem) : Prop where
  flags : s.DropsNone
  below : ∀ req, s.phase = .purged req true → ∀ k f, Unserved s.history k f →
    k.1 = req.chain → k.2.1 = req.network → f < req.fromBlock

/-- What a step may change of the flags, the phase and the history. -/
theorem step_cases (h : s.step act = some s') :
    (∃ chain network addresses fromBlock, act = .request chain network addresses fromBlock ∧
      s' = s.requested chain network addresses fromBlock) ∨
    (∃ req choice, act = .purge choice none ∧ s.phase = .stopped req ∧
      s'.watched = s.watched ∧ s'.phase = .purged req true ∧
      s'.history = s.history ++ [.purged req.chain req.network req.fromBlock]) ∨
    (∃ req committed, act = .clear none ∧ s.phase = .purged req committed ∧
      s' = s.cleared req none) ∨
    (s'.watched = s.watched ∧ s'.history = s.history ∧
      ∀ req, s'.phase = .purged req true → s.phase = .purged req true) := by
  cases act with
  | request chain network addresses fromBlock =>
    simp only [step] at h
    split at h
    · cases h
      exact .inl ⟨chain, network, addresses, fromBlock, rfl, rfl⟩
    · cases h
      exact .inr (.inr (.inr ⟨rfl, rfl, fun _ hp => hp⟩))
  | tick reads =>
    simp only [step] at h
    split at h
    · rename_i hphase
      cases h
      refine .inr (.inr (.inr ?_))
      unfold ticked
      split
      · exact ⟨rfl, rfl, fun _ hp => hp⟩
      · exact ⟨rfl, rfl, fun _ hp => hp⟩
    · cases h
  | work db =>
    simp only [step] at h
    split at h
    · cases h
      exact .inr (.inr (.inr ⟨rfl, rfl, fun _ hp => hp⟩))
    · cases h
  | take =>
    simp only [step] at h
    split at h
    · cases h
      exact .inr (.inr (.inr ⟨rfl, rfl, fun _ hp => by cases hp⟩))
    · cases h
  | purge choice failure =>
    simp only [step] at h
    split at h
    · rename_i req hphase
      cases h
      unfold purged
      split
      · split
        · exact .inr (.inr (.inr ⟨rfl, rfl, fun _ hp => by cases hp⟩))
        · exact .inr (.inl ⟨req, choice, rfl, hphase, rfl, rfl, rfl⟩)
      · exact .inr (.inr (.inr ⟨rfl, rfl, fun _ hp => by cases hp⟩))
    · cases h
  | clear failure =>
    simp only [step] at h
    split at h
    · rename_i req committed hphase
      cases h
      cases failure with
      | some e => exact .inr (.inr (.inr ⟨rfl, rfl, fun _ hp => by cases hp⟩))
      | none => exact .inr (.inr (.inl ⟨req, committed, rfl, hphase, rfl⟩))
    · cases h

theorem step_kept (h : s.Kept) (hok : s.Respects act) (hstep : s.step act = some s') : s'.Kept := by
  rcases step_cases hstep with ⟨chain, network, addresses, fromBlock, rfl, rfl⟩ |
    ⟨req, choice, rfl, hphase, hwat, hphase', hhis⟩ |
    ⟨req, committed, rfl, hphase, rfl⟩ | ⟨hwat, hhis, hphase⟩
  · obtain ⟨hlower, hbet⟩ := hok
    constructor
    · intro k f hk
      have hflag : backfillFlag (s.requested chain network addresses fromBlock).watched k =
          if k ∈ flaggedBy chain network addresses s.watched then some fromBlock
          else backfillFlag s.watched k := backfillFlag_set addresses fromBlock
      rw [hflag]
      rcases unserved_requested.mp hk with hold | ⟨hmem, rfl⟩
      · obtain ⟨g, hg, hle⟩ := h.flags k f hold
        by_cases hmem : k ∈ flaggedBy chain network addresses s.watched
        · rw [if_pos hmem]
          have := hlower k hmem g hg
          exact ⟨fromBlock, rfl, by omega⟩
        · rw [if_neg hmem]
          exact ⟨g, hg, hle⟩
      · rw [if_pos hmem]
        exact ⟨f, rfl, Int.le_refl f⟩
    · intro req hreq k f hk hc hn
      rcases unserved_requested.mp hk with hold | ⟨hmem, _⟩
      · exact h.below req hreq k f hold hc hn
      · -- the request is for the chain and network that are being purged
        obtain ⟨r, hr, hkey⟩ := List.mem_map.mp hmem
        have hown := (List.mem_filter.mp hr).2
        simp only [WatchedAddressRow.isActiveOf, Bool.and_eq_true, decide_eq_true_eq] at hown
        have hc' : r.chain = k.1 := congrArg Prod.fst hkey
        have hn' : r.network = k.2.1 := congrArg (fun key => key.2.1) hkey
        exact absurd ⟨hown.1.1.1.symm.trans (hc'.trans hc), hown.1.1.2.symm.trans (hn'.trans hn)⟩
          (hbet req true hreq)
  · constructor
    · intro k f hk
      rw [hwat]
      rw [hhis] at hk
      exact h.flags k f (unserved_purged.mp hk).1
    · intro req' hreq' k f hk hc hn
      rw [hphase'] at hreq'
      cases hreq'
      rw [hhis] at hk
      exact (unserved_purged.mp hk).2 hc hn
  · obtain ⟨rfl, habove⟩ := hok req committed hphase
    constructor
    · intro k f hk
      have hk : Unserved s.history k f := hk
      obtain ⟨g, hg, hle⟩ := h.flags k f hk
      have hflag : backfillFlag (s.cleared req none).watched k =
          if k.1 = req.chain ∧ k.2.1 = req.network then none else backfillFlag s.watched k :=
        backfillFlag_clear
      rw [hflag]
      by_cases hown : k.1 = req.chain ∧ k.2.1 = req.network
      · have hbelow := h.below req hphase k f hk hown.1 hown.2
        have := habove k g hown.1 hown.2 hg
        omega
      · rw [if_neg hown]
        exact ⟨g, hg, hle⟩
    · intro req' hreq'
      cases hreq'
  · constructor
    · intro k f hk
      rw [hwat]
      rw [hhis] at hk
      exact h.flags k f hk
    · intro req hreq k f hk
      rw [hhis] at hk
      exact h.below req (hphase req hreq) k f hk

/-- In every state of a run whose steps all respect the flags, no request is dropped. -/
theorem run_dropsNone (s s' : BackfillSystem) (acts : List BackfillAction)
    (hstart : s.history = [])
    (hrun : Runs.Run (fun t act t' => t.step act = some t') Respects s acts s') : s'.DropsNone := by
  have hnone : ∀ k f, ¬ Unserved s.history k f := by
    rintro k f ⟨pre, keys, post, heq, _⟩
    rw [hstart] at heq
    exact List.append_ne_nil_of_right_ne_nil pre (List.cons_ne_nil _ _) heq.symm
  have hkept : s.Kept :=
    ⟨fun k f hk => absurd hk (hnone k f), fun _ _ k f hk => absurd hk (hnone k f)⟩
  exact (hrun.invariant hkept fun _ _ _ ht hok hstep => step_kept ht hok hstep).flags

def atTwenty : BackfillSystem where
  coordinator := { chain := .ethereum, network := .mainnet, backfillCh := true }
  db := rewindWatermarkTx .ethereum .mainnet 20 {}
  watched := ⟨[{ chain := .ethereum, network := .mainnet, address := "0xa" }], by decide⟩

def headAtForty : TickReads where
  active := .ok []
  headProvider := some (.ok 40)
  batchSize := 10

def backfillFrom (fromBlock : Int) : BackfillAction :=
  .request .ethereum .mainnet ["0xa"] fromBlock

def watchedKey : Chain × Network × String := (.ethereum, .mainnet, "0xa")

/-- A backfill from block 5 whose purge commits. -/
theorem run_dropsNone_served :
    ∃ s', Runs.Run (fun t act t' => t.step act = some t') Respects atTwenty
      [backfillFrom 5, .tick headAtForty, .take, .purge RowChoice.first none, .clear none] s' ∧
      s'.DropsNone := by
  have hrun : Runs.Run (fun t act t' => t.step act = some t') Respects atTwenty
      [backfillFrom 5, .tick headAtForty, .take, .purge RowChoice.first none, .clear none]
      { coordinator := atTwenty.coordinator
        db := deleteAndRewind .ethereum .mainnet 5 true atTwenty.db
        watched := clearBackfill .ethereum .mainnet
          (setBackfillFromBlock .ethereum .mainnet ["0xa"] 5 atTwenty.watched)
        history := [.requested [watchedKey] 5, .purged .ethereum .mainnet 5] } := by
    refine .next (.next (.next (.next (.next .start ⟨?_, ?_⟩ rfl) trivial rfl) trivial rfl)
      trivial rfl) ?_ rfl
    · intro req committed hphase
      cases hphase
      refine ⟨rfl, fun k g _ _ hg => ?_⟩
      obtain ⟨r, hr, hflag⟩ := Option.bind_eq_some_iff.mp hg
      obtain ⟨hmem, _⟩ := KeyedTable.find?_eq_some_iff.mp hr
      cases List.mem_singleton.mp hmem
      cases hflag
      exact Int.le_refl 5
    · intro k hk g hg
      cases List.mem_singleton.mp (show k ∈ [watchedKey] from hk)
      cases hg
    · intro req committed hphase
      cases hphase
  exact ⟨_, hrun, run_dropsNone atTwenty _ _ rfl hrun⟩

theorem not_dropsNone {k : Chain × Network × String} {f : Int} (hk : Unserved s.history k f)
    (hflag : ∀ g, backfillFlag s.watched k = some g → f < g) : ¬ s.DropsNone := by
  intro h
  obtain ⟨g, hg, hle⟩ := h k f hk
  have := hflag g hg
  omega

/-- Three runs that lose a request: the purge fails and the flags are cleared; a request for an
earlier block arrives between the purge and the clearing; a request for a later block overwrites
the flag. -/
theorem run_drops_request :
    (∃ s', [backfillFrom 5, .tick headAtForty, .take, .purge RowChoice.first (some "timeout"),
        .clear none].foldlM step atTwenty = some s' ∧
      backfillFlag s'.watched watchedKey = none ∧ ¬ s'.DropsNone) ∧
    (∃ s', [backfillFrom 5, .tick headAtForty, .take, .purge RowChoice.first none, backfillFrom 3,
        .clear none].foldlM step atTwenty = some s' ∧
      backfillFlag s'.watched watchedKey = none ∧ ¬ s'.DropsNone) ∧
    ∃ s', [backfillFrom 5, backfillFrom 9].foldlM step atTwenty = some s' ∧
      backfillFlag s'.watched watchedKey = some 9 ∧ ¬ s'.DropsNone := by
  refine ⟨⟨_, rfl, rfl, ?_⟩, ⟨_, rfl, rfl, ?_⟩, _, rfl, rfl, ?_⟩
  · refine not_dropsNone (k := watchedKey) (f := 5) ⟨[], [watchedKey], [], rfl, ?_, ?_⟩ ?_
    · exact List.mem_cons_self
    · intro g hg
      cases hg
    · intro g hg
      cases hg
  · refine not_dropsNone (k := watchedKey) (f := 3)
      ⟨[.requested [watchedKey] 5, .purged .ethereum .mainnet 5], [watchedKey], [], rfl, ?_, ?_⟩ ?_
    · exact List.mem_cons_self
    · intro g hg
      cases hg
    · intro g hg
      cases hg
  · refine not_dropsNone (k := watchedKey) (f := 5)
      ⟨[], [watchedKey], [.requested [watchedKey] 9], rfl, ?_, ?_⟩ ?_
    · exact List.mem_cons_self
    · intro g hg
      cases List.mem_singleton.mp hg
    · intro g hg
      cases hg
      decide

end BackfillSystem

end MultichainIndexer
