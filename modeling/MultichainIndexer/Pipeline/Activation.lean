import MultichainIndexer.Pipeline.RunLoop

/-!
# Deactivation and reactivation of a pipeline

The watcher that deactivates a pipeline is cancelled with the other workers, and
the loop then waits for an activation that only a watcher brings.
-/

namespace MultichainIndexer

open Runs

namespace RunLoop

variable {s s' : State} {a : Action}


/-- An inactive pipeline whose `Run` has not returned has a watcher that can see it activated. -/
def Watched (s : State) : Prop :=
  s.active = false → s.phase ≠ .returned → s.workers.watching = true

def Deactivates (s : State) (a : Action) : Prop :=
  a = .poll ∧ s.active = true ∧ ∃ watcher cancelled err value,
    s.workers = .up (some watcher) cancelled err ∧ s.row = some value ∧
      watcher.lastSeen.getD "" ≠ value ∧ wantsActive value = some false

/-- The steps by which a deactivation is carried out: the loop cancels its workers, and the
watcher ends. -/
def Unwinds (a : Action) : Prop := a = .takeDeactivation ∨ a = .watcherExits

theorem active_of_step (hstep : Step s a s') (hkeeps : ¬Deactivates s a) (hact : s.active = true) :
    s'.active = true := by
  cases step_moves hstep with
  | @poll watcher cancelled err hw =>
    show (s.polled watcher).active = true
    unfold State.polled
    split
    · exact hact
    · rename_i value hrow
      split_ifs with hseen
      · exact hact
      · split
        · rename_i hwants
          exact absurd ⟨rfl, hact, watcher, cancelled, err, value, hw, hrow, hseen, hwants⟩
            hkeeps
        · rfl
        · exact hact
  | @stopped reason =>
    cases reason with
    | replay op => exact hact
    | backfill => exact hact
    | deactivated => exact hact
    | contextDone => exact hact
  | _ => exact hact

theorem unwatched_of_ending (hact : s.active = false)
    (hphase : s.phase ≠ .returned) (hend : s.workers.Ending) :
    ∃ acts s', Run Step (fun _ a => Unwinds a) s acts s' ∧ ¬Watched s' := by
  by_cases hwat : s.workers.watching = true
  · cases hw : s.workers with
    | up watcher cancelled err =>
      rw [hw] at hend hwat
      cases watcher with
      | none => cases hwat
      | some watcher =>
        have hexit : Step s .watcherExits
            { s with workers := .up none true (err.or (some false)) } := by
          simp [Step, step, hw, show cancelled = true from hend]
        refine ⟨_, _, .next .start (.inr rfl) hexit, fun hwatc => ?_⟩
        cases hwatc hact hphase
    | none => rw [hw] at hwat; cases hwat
    | starting cancelled => rw [hw] at hwat; cases hwat
    | done failed => rw [hw] at hwat; cases hwat
  · exact ⟨[], s, .start, fun hwatc => hwat (hwatc hact hphase)⟩

/-- From wherever the pipeline is inactive, the loop and its workers get by themselves to where
no watcher is left. -/
theorem unwatched_of_inactive (h : Nested s) (hact : s.active = false)
    (hphase : s.phase ≠ .returned) :
    ∃ acts s', Run Step (fun _ a => Unwinds a) s acts s' ∧ ¬Watched s' := by
  cases hp : s.phase with
  | select =>
    have hch := h.signalled hp hact
    have hstop : Step s .takeDeactivation ({ s with deactiveCh := false }.stop .deactivated) := by
      simp [Step, step, hp, hch]
    have h' := h.step hstop
    have hsto : Phase.stopping .deactivated ≠ .returned := Phase.noConfusion
    obtain ⟨acts, t, hrun, ht⟩ := unwatched_of_ending
      (s := { s with deactiveCh := false }.stop .deactivated) hact hsto (h'.ending _ rfl)
    exact ⟨_, t, (Run.next .start (.inl rfl) hstop).append hrun, ht⟩
  | stopping reason => exact unwatched_of_ending hact hphase (h.ending reason hp)
  | returned => exact absurd hp hphase
  | _ =>
    -- the workers, and the watcher with them, have ended
    have hnone := h.idle (by rw [hp]; rfl)
    refine ⟨[], s, .start, fun hwatc => ?_⟩
    have hwat := hwatc hact hphase
    rw [hnone] at hwat
    cases hwat

/-- The loop waits for an activation, or has returned. -/
def Halted (s : State) : Prop :=
  (s.phase = .inactive ∨ s.phase = .returned) ∧ s.active = false

theorem Halted.step (h : Nested s) (hs : Halted s) (hstep : Step s a s') : Halted s' := by
  obtain ⟨hphase, hact⟩ := hs
  have hnone : s.workers = .none := by
    apply h.idle
    rcases hphase with hphase | hphase <;> rw [hphase] <;> rfl
  cases step_moves hstep with
  | leave => exact ⟨.inr rfl, hact⟩
  | quit => exact ⟨.inr rfl, hact⟩
  | wait => exact ⟨.inl rfl, hact⟩
  | spawn _ _ hyes => exact absurd (hact.symm.trans hyes) nofun
  | wake _ _ hyes => exact absurd (hact.symm.trans hyes) nofun
  | workersEnded _ hw => exact absurd (hnone.symm.trans hw) nofun
  | stopped _ hw => exact absurd (hnone.symm.trans hw) nofun
  | startGroup hw => exact absurd (hnone.symm.trans hw) nofun
  | startPanics hw => exact absurd (hnone.symm.trans hw) nofun
  | poll hw => exact absurd (hnone.symm.trans hw) nofun
  | stageReturns hw => exact absurd (hnone.symm.trans hw) nofun
  | watcherExits hw => exact absurd (hnone.symm.trans hw) nofun
  | groupDone hw => exact absurd (hnone.symm.trans hw) nofun
  | takeReplay hp => simp [hp] at hphase
  | takeBackfill hp => simp [hp] at hphase
  | takeDeactivation hp => simp [hp] at hphase
  | takeContextDone hp => simp [hp] at hphase
  | purged hp => simp [hp] at hphase
  | backfilled hp => simp [hp] at hphase
  | backoffOver hp => simp [hp] at hphase
  | _ => exact ⟨hphase, hact⟩

/-- Without a deactivation an inactive pipeline has its watcher, having never become inactive.
Every deactivation can end the watcher while `Run` goes on, and once `Run` waits for the
activation nothing activates the pipeline again. -/
theorem watched_unless_deactivated (acts : List Action) (s : State) :
    (Run Step (fun s a => ¬Deactivates s a) {} acts s → Watched s) ∧
    (∀ s', Run Step anyStep {} acts s → Step s .poll s' → Deactivates s .poll →
      ∃ more t, Run Step (fun _ a => Unwinds a) s' more t ∧ ¬Watched t) ∧
    (∀ more t, Run Step anyStep {} acts s → s.phase = .inactive →
      Run Step anyStep s more t → t.active = false) := by
  refine ⟨?_, ?_, ?_⟩
  · intro hrun hina
    have hact : s.active = true :=
      hrun.invariant (P := fun s => s.active = true) rfl
        fun _ _ _ hact hkeeps hstep => active_of_step hstep hkeeps hact
    exact absurd (hina.symm.trans hact) Bool.false_ne_true
  · intro s' hrun hstep hdeact
    have h := Nested.init.run hrun
    have h' := h.step hstep
    obtain ⟨-, hact, watcher, cancelled, err, value, hw, hrow, hseen, hwants⟩ := hdeact
    have hs' : s' = { s with
        active := false, deactiveCh := true, workers := .up (some ⟨s.row⟩) cancelled err } := by
      simp only [Step, step, hw, State.polled, hrow, hseen, if_false, hwants, State.deactivate,
        hact, if_true, Option.some.injEq] at hstep
      rw [← hstep, hrow]
    have hphase : s.phase ≠ .returned := by
      intro hret
      have hnone := h.idle (by rw [hret]; rfl)
      cases hnone.symm.trans hw
    exact unwatched_of_inactive h' (by rw [hs']) (by rw [hs']; exact hphase)
  · intro more t hrun hphase hmore
    have h := Nested.init.run hrun
    have hend : Nested t ∧ Halted t :=
      hmore.invariant (P := fun s => Nested s ∧ Halted s) ⟨h, .inl hphase, h.waiting hphase⟩
        fun _ _ _ ht _ hstep => ⟨ht.1.step hstep, ht.2.step ht.1 hstep⟩
    exact hend.2.2

theorem wantsActive_false : wantsActive "false" = some false := by
  decide +kernel

/-- The row turns to `false` and later back to `true`: `Run` waits, and no watcher is left. -/
theorem deactivation_ends_watcher :
    ∃ s, Run Step anyStep {} [.enterLoop, .startGroup, .setRow (some "false"), .poll,
        .takeDeactivation, .watcherExits, .groupDone, .stopped, .enterLoop,
        .setRow (some "true")] s ∧
      ¬Watched s ∧ s.phase = .inactive ∧ s.row = some "true" := by
  refine ⟨{ phase := .inactive, row := some "true", active := false },
    Run.of_foldlM (fun _ _ => trivial) ?_, ?_, rfl, rfl⟩
  · simp [step, State.polled, wantsActive_false, State.deactivate, State.stop, Workers.cancel,
      State.afterStop]
  · intro hwat
    cases hwat rfl Phase.noConfusion

end RunLoop

end MultichainIndexer
