import MultichainIndexer.Pipeline.RunLoop

/-!
# Replay requests whose caller has gone

A request that its caller has sent stays in the channel when the caller's context
ends. The loop takes it from there the next time that it selects, stops its
workers and purges.
-/

namespace MultichainIndexer

open Runs

namespace RunLoop

variable {s s' : State} {a : Action} {op : Nat}

def Phase.comesBack : Phase → Bool
  | .inactive => false
  | .stopping .contextDone => false
  | .returned => false
  | _ => true

/-- The loop selects, or gets to do so unless its context ends or it is deactivated first. -/
def State.CanSelect (s : State) : Prop :=
  s.phase = .select ∨ s.phase.comesBack = true ∧ s.ctxDone = false ∧
    (s.active = true ∨ s.workers.watching = true)

/-- The loop is about to purge for the request, or finds it in the channel when it selects. -/
def State.WillServe (s : State) (op : Nat) : Prop :=
  s.phase = .stopping (.replay op) ∨ s.replayCh = some op ∧ s.CanSelect

section Unserved

theorem purges_step (hstep : Step s a s') :
    s'.purges = s.purges ∨ ∃ op, s.phase = .stopping (.replay op) ∧ s'.purges = s.purges ++ [op] := by
  cases step_moves hstep with
  | @stopped reason failed hphase =>
    cases reason with
    | replay op => exact .inr ⟨op, hphase, rfl⟩
    | backfill => exact .inl rfl
    | deactivated => exact .inl rfl
    | contextDone => exact .inl rfl
  | @poll watcher =>
    rcases polled_cases s watcher with heq | ⟨heq, -⟩ | heq <;> exact .inl (by rw [heq])
  | _ => exact .inl rfl

theorem count_purges_step (hstep : Step s a s') (hphase : s.phase ≠ .stopping (.replay op)) :
    s'.purges.count op = s.purges.count op := by
  rcases purges_step hstep with heq | ⟨op', hop, heq⟩
  · rw [heq]
  · have hne : op' ≠ op := fun heq => hphase (heq ▸ hop)
    rw [heq, List.count_append, List.count_singleton]
    simp [hne]

theorem getElem?_answer {calls : List Call} {op' : Nat} (h : calls[op]? = some .contextError) :
    (answer calls op')[op]? = some .contextError := by
  rw [answer, List.getElem?_modify, h]
  by_cases hop : op' = op
  · simp [hop]
  · simp [hop]

theorem contextError_step (hstep : Step s a s') (hcall : s.calls[op]? = some .contextError) :
    s'.calls[op]? = some .contextError := by
  have hlt := (List.getElem?_eq_some_iff.mp hcall).1
  have hother : ∀ {op' : Nat} {call call' : Call}, s.calls[op']? = some call →
      call ≠ .contextError → (s.setCall op' call').calls[op]? = some .contextError := by
    intro op' call call' hget hne
    have hop : op' ≠ op := by
      rintro rfl
      exact hne (Option.some.inj (hget.symm.trans hcall))
    exact (List.getElem?_set_ne hop).trans hcall
  cases step_moves hstep with
  | @stopped reason => cases reason <;> exact hcall
  | purged => exact getElem?_answer hcall
  | @poll watcher =>
    rcases polled_cases s watcher with heq | ⟨heq, -⟩ | heq <;> simp only [heq] <;> exact hcall
  | call => exact (List.getElem?_append_left hlt).trans hcall
  | send hent => exact hother hent nofun
  | callContextDone hget hne => exact hother hget hne
  | receive hsent => exact hother hsent nofun
  | _ => exact hcall

theorem replayCh_of_step (hstep : Step s a s') (hch : s'.replayCh = some op) :
    s.replayCh = some op ∨ s.calls[op]? = some .entered := by
  cases step_moves hstep with
  | takeReplay => cases hch
  | @stopped reason => cases reason <;> exact .inl hch
  | @poll watcher =>
    refine .inl ?_
    rcases polled_cases s watcher with heq | ⟨heq, -⟩ | heq <;> simp only [heq] at hch <;> exact hch
  | send hent =>
    cases hch
    exact .inr hent
  | _ => exact .inl hch

theorem stopping_of_step (hstep : Step s a s') (hphase : s'.phase = .stopping (.replay op)) :
    s.phase = .stopping (.replay op) ∨ s.phase = .select ∧ s.replayCh = some op := by
  cases step_moves hstep with
  | @workersEnded failed => cases failed <;> cases hphase
  | takeReplay hsel hch =>
    cases hphase
    exact .inr ⟨hsel, hch⟩
  | @stopped reason => cases reason <;> cases hphase
  | backoffOver =>
    simp only at hphase
    split_ifs at hphase
  | @poll watcher =>
    refine .inl ?_
    rcases polled_cases s watcher with heq | ⟨heq, -⟩ | heq <;> simp only [heq] at hphase <;>
      exact hphase
  | leave => cases hphase
  | spawn => cases hphase
  | wait => cases hphase
  | quit => cases hphase
  | wake => cases hphase
  | takeBackfill => cases hphase
  | takeDeactivation => cases hphase
  | takeContextDone => cases hphase
  | purged => cases hphase
  | backfilled => cases hphase
  | _ => exact .inl hphase

/-- The caller has gone, and its request is nowhere. -/
def Withdrawn (op : Nat) (s : State) : Prop :=
  s.calls[op]? = some .contextError ∧ s.replayCh ≠ some op ∧ s.phase ≠ .stopping (.replay op)

theorem Withdrawn.step (h : Withdrawn op s) (hstep : Step s a s') : Withdrawn op s' := by
  obtain ⟨hcall, hch, hphase⟩ := h
  refine ⟨contextError_step hstep hcall, fun hch' => ?_, fun hphase' => ?_⟩
  · rcases replayCh_of_step hstep hch' with hin | hent
    · exact hch hin
    · exact absurd (hcall.symm.trans hent) nofun
  · rcases stopping_of_step hstep hphase' with hsto | ⟨-, hin⟩
    · exact hphase hsto
    · exact hch hin

theorem State.CanSelect.comesBack (h : s.CanSelect) : s.phase.comesBack = true := by
  rcases h with hphase | ⟨hback, -⟩
  · rw [hphase]
    rfl
  · exact hback

theorem State.CanSelect.alive (h : s.CanSelect) (hphase : s.phase ≠ .select)
    (hwor : s.workers = .none) : s.ctxDone = false ∧ s.active = true := by
  rcases h with hsel | ⟨-, hctx, hact | hwat⟩
  · exact absurd hsel hphase
  · exact ⟨hctx, hact⟩
  · rw [hwor] at hwat
    cases hwat

theorem State.CanSelect.mono {t : State} (h : t.CanSelect) (hphase : t.phase = s.phase)
    (hctx : t.ctxDone = false → s.ctxDone = false)
    (halive : t.active = true ∨ t.workers.watching = true →
      s.active = true ∨ s.workers.watching = true) : s.CanSelect := by
  rcases h with hsel | ⟨hback, hnot, hal⟩
  · exact .inl (hphase ▸ hsel)
  · exact .inr ⟨hphase ▸ hback, hctx hnot, halive hal⟩

theorem afterStop_idle (s : State) (reason : Reason) :
    (s.afterStop reason).phase.holdsWorkers = false ∧ (s.afterStop reason).workers = .none ∧
      (s.afterStop reason).ctxDone = s.ctxDone ∧ (s.afterStop reason).active = s.active ∧
      ((s.afterStop reason).phase.comesBack = true →
        (Phase.stopping reason).comesBack = true) := by
  cases reason <;> exact ⟨rfl, rfl, rfl, rfl, id⟩

theorem ne_select_of_idle (h : s.phase.holdsWorkers = false) : s.phase ≠ .select := by
  intro hphase
  rw [hphase] at h
  cases h

theorem canSelect_of_step (h : Nested s) (hstep : Step s a s') (hsel : s'.CanSelect) :
    s.CanSelect := by
  cases step_moves hstep with
  | leave => cases hsel.comesBack
  | wait => cases hsel.comesBack
  | quit => cases hsel.comesBack
  | spawn hphase hctx hact => exact .inr ⟨by rw [hphase]; rfl, hctx, .inl hact⟩
  | wake hphase _ hact => exact absurd ((h.waiting hphase).symm.trans hact) nofun
  | workersEnded hphase => exact .inl hphase
  | takeReplay hphase => exact .inl hphase
  | takeBackfill hphase => exact .inl hphase
  | takeDeactivation hphase => exact .inl hphase
  | takeContextDone hphase => exact .inl hphase
  | @stopped reason failed hphase =>
    obtain ⟨hidle, hnone, hctx, hact, hback⟩ := afterStop_idle s reason
    have halive := hsel.alive (ne_select_of_idle hidle) hnone
    rw [hctx, hact] at halive
    exact .inr ⟨hphase ▸ hback hsel.comesBack, halive.1, .inl halive.2⟩
  | purged hphase =>
    have halive := hsel.alive nofun (h.idle (by rw [hphase]; rfl))
    exact .inr ⟨by rw [hphase]; rfl, halive.1, .inl halive.2⟩
  | backfilled hphase =>
    have halive := hsel.alive nofun (h.idle (by rw [hphase]; rfl))
    exact .inr ⟨by rw [hphase]; rfl, halive.1, .inl halive.2⟩
  | backoffOver hphase =>
    have hne : (if s.ctxDone then Phase.returned else .top) ≠ .select := by
      split_ifs <;> nofun
    have halive := hsel.alive hne (h.idle (by rw [hphase]; rfl))
    exact .inr ⟨by rw [hphase]; rfl, halive.1, .inl halive.2⟩
  | startGroup hw => exact hsel.mono rfl id fun _ => .inl (h.starting _ hw)
  | startPanics hw => exact hsel.mono rfl id fun _ => .inl (h.starting _ hw)
  | @poll watcher _ _ hw =>
    have hwat : s.workers.watching = true := by rw [hw]; rfl
    refine hsel.mono ?_ ?_ fun _ => .inr hwat
    all_goals rcases polled_cases s watcher with heq | ⟨heq, -⟩ | heq <;> simp only [heq]
    all_goals exact id
  | @stageReturns watcher _ _ _ hw =>
    refine hsel.mono rfl id fun hal => ?_
    rw [hw]
    cases watcher <;> exact hal
  | watcherExits hw => exact hsel.mono rfl id fun hal => hal.imp id nofun
  | groupDone hw => exact hsel.mono rfl id fun hal => hal.imp id nofun
  | cancelContext => exact hsel.mono rfl nofun id
  | pollFails => exact hsel
  | requestBackfill => exact hsel
  | call => exact hsel
  | send => exact hsel
  | callContextDone => exact hsel
  | receive => exact hsel
  | setRow => exact hsel

/-- The loop cannot select any more, and it is not stopping its workers for the request. -/
def Closed (op : Nat) (s : State) : Prop :=
  ¬s.CanSelect ∧ s.phase ≠ .stopping (.replay op)

theorem Closed.step (h : Nested s) (hclo : Closed op s) (hstep : Step s a s') :
    Closed op s' := by
  refine ⟨fun hsel => hclo.1 (canSelect_of_step h hstep hsel), fun hphase => ?_⟩
  rcases stopping_of_step hstep hphase with hsto | ⟨hsel, -⟩
  · exact hclo.2 hsto
  · exact hclo.1 (.inl hsel)

theorem count_purges_run {more : List Action} (h : Nested s)
    (hover : Withdrawn op s ∨ Closed op s) (hrun : Run Step anyStep s more s') :
    s'.purges.count op = s.purges.count op := by
  have hend := hrun.invariant
    (P := fun t => Nested t ∧ (Withdrawn op t ∨ Closed op t) ∧
      t.purges.count op = s.purges.count op)
    ⟨h, hover, rfl⟩ ?_
  · exact hend.2.2
  · rintro t a t' ⟨hnest, hover, hcount⟩ - hstep
    refine ⟨hnest.step hstep, hover.imp (·.step hstep) (·.step hnest hstep), ?_⟩
    have hphase : t.phase ≠ .stopping (.replay op) := hover.elim (·.2.2) (·.2)
    exact (count_purges_step hstep hphase).trans hcount

end Unserved

section Served

/-- Some run purges for the request. -/
def Purges (op : Nat) (s : State) : Prop :=
  ∃ more t, Run Step anyStep s more t ∧ s.purges.count op < t.purges.count op

theorem Purges.of_step (hstep : Step s a s') (h : Purges op s') : Purges op s := by
  obtain ⟨more, t, hrun, hlt⟩ := h
  refine ⟨_, t, .cons trivial hstep hrun, lt_of_le_of_lt ?_ hlt⟩
  rcases purges_step hstep with heq | ⟨op', -, heq⟩
  · rw [heq]
  · rw [heq, List.count_append]
    exact Nat.le_add_right _ _

theorem Purges.of_ending (hend : s.workers.Ending)
    (h : ∀ failed, Purges op { s with workers := .done failed }) : Purges op s := by
  have hgroup : ∀ {t : State} {err : Option Bool}, t.workers = .up none true err →
      Step t .groupDone { t with workers := .done (err.getD false) } := by
    intro t err hw
    simp [Step, step, hw]
  have hexit : ∀ {t : State} {watcher : Watcher} {err : Option Bool},
      t.workers = .up (some watcher) true err →
      Step t .watcherExits { t with workers := .up none true (err.or (some false)) } := by
    intro t watcher err hw
    simp [Step, step, hw]
  cases hw : s.workers with
  | none =>
    rw [hw] at hend
    exact hend.elim
  | starting cancelled =>
    rw [hw] at hend
    have hstart : Step s .startGroup { s with workers := .up (some {}) true none } := by
      simp [Step, step, hw, show cancelled = true from hend]
    exact .of_step hstart (.of_step (hexit rfl) (.of_step (hgroup rfl) (h _)))
  | up watcher cancelled err =>
    rw [hw] at hend
    obtain rfl : cancelled = true := hend
    cases watcher with
    | none => exact .of_step (hgroup hw) (h _)
    | some watcher => exact .of_step (hexit hw) (.of_step (hgroup rfl) (h _))
  | done failed =>
    have heq : s = { s with workers := .done failed } := by rw [← hw]
    rw [heq]
    exact h failed

theorem purges_of_stopping (h : Nested s) (hphase : s.phase = .stopping (.replay op)) :
    Purges op s := by
  refine .of_ending (h.ending _ hphase) fun failed => ?_
  have hstop : Step { s with workers := .done failed } .stopped
      ({ s with workers := .done failed }.afterStop (.replay op)) := by
    simp [Step, step, hphase]
  refine ⟨_, _, .next .start trivial hstop, ?_⟩
  show s.purges.count op < (s.purges ++ [op]).count op
  rw [List.count_append, List.count_singleton_self]
  exact Nat.lt_succ_self _

theorem purges_of_select (h : Nested s) (hphase : s.phase = .select)
    (hch : s.replayCh = some op) : Purges op s := by
  have hstop : Step s .takeReplay ({ s with replayCh := none }.stop (.replay op)) := by
    simp [Step, step, hphase, hch]
  exact .of_step hstop (purges_of_stopping (h.step hstop) rfl)

theorem purges_of_top (h : Nested s) (hphase : s.phase = .top) (hctx : s.ctxDone = false)
    (hact : s.active = true) (hch : s.replayCh = some op) : Purges op s := by
  have hspawn : Step s .enterLoop { s with phase := .select, workers := .starting false } := by
    simp [Step, step, hphase, hctx, hact]
  exact .of_step hspawn (purges_of_select (h.step hspawn) rfl hch)

theorem purges_of_idle (h : Nested s) (hidle : s.phase.holdsWorkers = false)
    (hback : s.phase.comesBack = true) (hctx : s.ctxDone = false) (hact : s.active = true)
    (hch : s.replayCh = some op) : Purges op s := by
  cases hphase : s.phase with
  | top => exact purges_of_top h hphase hctx hact hch
  | purging op' =>
    have hstep : Step s .purged { s with phase := .top, calls := answer s.calls op' } := by
      simp [Step, step, hphase]
    exact .of_step hstep (purges_of_top (h.step hstep) rfl hctx hact hch)
  | backfilling =>
    have hstep : Step s .backfilled { s with phase := .top } := by simp [Step, step, hphase]
    exact .of_step hstep (purges_of_top (h.step hstep) rfl hctx hact hch)
  | backoff =>
    have hstep : Step s .backoffOver { s with phase := .top } := by
      simp [Step, step, hphase, hctx]
    exact .of_step hstep (purges_of_top (h.step hstep) rfl hctx hact hch)
  | inactive => rw [hphase] at hback; cases hback
  | returned => rw [hphase] at hback; cases hback
  | select => rw [hphase] at hidle; cases hidle
  | stopping reason => rw [hphase] at hidle; cases hidle

theorem purges_of_stopping_other (h : Nested s) {reason : Reason}
    (hphase : s.phase = .stopping reason) (hback : s.phase.comesBack = true)
    (hctx : s.ctxDone = false) (hact : s.active = true) (hch : s.replayCh = some op) :
    Purges op s := by
  have hend := h.ending reason hphase
  have hne : s.workers ≠ .none := by
    intro hnone
    rw [hnone] at hend
    exact hend
  refine .of_ending hend fun failed => ?_
  have hdone : Nested { s with workers := .done failed } :=
    h.setWorkers hne nofun (fun _ => trivial) nofun
  have hstop : Step { s with workers := .done failed } .stopped
      ({ s with workers := .done failed }.afterStop reason) := by
    simp [Step, step, hphase]
  rw [hphase] at hback
  refine .of_step hstop ?_
  cases reason with
  | replay op' => exact purges_of_idle (hdone.step hstop) rfl rfl hctx hact hch
  | backfill => exact purges_of_idle (hdone.step hstop) rfl rfl hctx hact hch
  | deactivated => exact purges_of_idle (hdone.step hstop) rfl rfl hctx hact hch
  | contextDone => cases hback

theorem wantsActive_true : wantsActive "true" = some true ∧ wantsActive "1" = some true := by
  decide +kernel

theorem exists_reactivated (hwat : s.workers.watching = true) :
    ∃ value workers t, Step s (.setRow (some value)) t ∧
      Step t .poll { s with row := some value, active := true, workers := workers } := by
  cases hw : s.workers with
  | up watcher cancelled err =>
    cases watcher with
    | none => rw [hw] at hwat; cases hwat
    | some watcher =>
      -- of two texts for an active pipeline, one is not the text that the watcher read last
      obtain ⟨value, hseen, hwants⟩ :
          ∃ value, watcher.lastSeen.getD "" ≠ value ∧ wantsActive value = some true := by
        by_cases hlast : watcher.lastSeen.getD "" = "true"
        · exact ⟨"1", by rw [hlast]; decide, wantsActive_true.2⟩
        · exact ⟨"true", hlast, wantsActive_true.1⟩
      refine ⟨value, .up (some ⟨some value⟩) cancelled err, { s with row := some value }, rfl, ?_⟩
      simp [Step, step, hw, State.polled, hseen, hwants, State.activate]
  | none => rw [hw] at hwat; cases hwat
  | starting cancelled => rw [hw] at hwat; cases hwat
  | done failed => rw [hw] at hwat; cases hwat

theorem purges_of_willServe (h : Nested s) (hserve : s.WillServe op) : Purges op s := by
  rcases hserve with hsto | ⟨hch, hsel | ⟨hback, hctx, halive⟩⟩
  · exact purges_of_stopping h hsto
  · exact purges_of_select h hsel hch
  · by_cases hidle : s.phase.holdsWorkers = false
    · have hnone := h.idle hidle
      have hact : s.active = true := by
        rcases halive with hact | hwat
        · exact hact
        · rw [hnone] at hwat
          cases hwat
      exact purges_of_idle h hidle hback hctx hact hch
    · cases hphase : s.phase with
      | select => exact purges_of_select h hphase hch
      | stopping reason =>
        rcases halive with hact | hwat
        · exact purges_of_stopping_other h hphase hback hctx hact hch
        · obtain ⟨value, workers, t, hrow, hpoll⟩ := exists_reactivated hwat
          have h' := (h.step hrow).step hpoll
          exact .of_step hrow (.of_step hpoll
            (purges_of_stopping_other h' hphase hback hctx rfl hch))
      | _ => rw [hphase] at hidle; exact absurd rfl hidle

end Served

/-- A request whose caller got the error of its context is purged for no more, unless the loop is
stopping its workers for it or finds it in the channel when it selects next. -/
theorem context_error_purges_iff {acts : List Action} (hrun : Run Step anyStep {} acts s)
    (hreturn : Step s (.callContextDone op) s') :
    (∀ more t, Run Step anyStep s' more t → t.purges.count op = s'.purges.count op) ↔
      ¬s.WillServe op := by
  have h := Nested.init.run hrun
  have h' := h.step hreturn
  cases step_moves hreturn with
  | callContextDone hget =>
    constructor
    · intro hnone hserve
      obtain ⟨more, t, hmore, hlt⟩ := purges_of_willServe h' hserve
      exact absurd (hnone more t hmore) (Nat.ne_of_gt hlt)
    · intro hserve more t hmore
      refine count_purges_run h' ?_ hmore
      have hphase : s.phase ≠ .stopping (.replay op) := fun hsto => hserve (.inl hsto)
      by_cases hch : s.replayCh = some op
      · exact .inr ⟨fun hsel => hserve (.inr ⟨hch, hsel⟩), hphase⟩
      · have hlt := (List.getElem?_eq_some_iff.mp hget).1
        exact .inl ⟨List.getElem?_set_self hlt, hch, hphase⟩

/-- A call whose context ends before it has sent its request. -/
theorem context_error_purges_unsent :
    ∃ s, Run Step anyStep {} [.call] s ∧ ∀ more t,
      Run Step anyStep { calls := [.contextError] } more t → t.purges.count 0 = 0 := by
  have hrun : Run Step anyStep {} [.call] { calls := [.entered] } :=
    Run.of_foldlM (fun _ _ => trivial) rfl
  have hret : Step { calls := [.entered] } (.callContextDone 0) { calls := [.contextError] } :=
    rfl
  refine ⟨_, hrun, (context_error_purges_iff hrun hret).mpr ?_⟩
  rintro (hsto | ⟨hch, -⟩)
  · cases hsto
  · cases hch

/-- The context of a call ends when its request is in the channel, and the loop takes it there. -/
theorem context_error_then_purge :
    ∃ s t, Run Step anyStep {} [.enterLoop, .startGroup, .call, .send 0] s ∧
      Run Step anyStep s [.callContextDone 0, .takeReplay, .watcherExits, .groupDone, .stopped] t ∧
      s.purges = [] ∧ t.calls = [.contextError] ∧ t.purges = [0] := by
  have hsent : Run Step anyStep {} [.enterLoop, .startGroup, .call, .send 0]
      { phase := .select
        workers := .up (some {}) false none
        calls := [.sent false]
        replayCh := some 0 } := by
    apply Run.of_foldlM fun _ _ => trivial
    simp [step, State.setCall]
  refine ⟨_, { phase := .purging 0, calls := [.contextError], purges := [0] }, hsent,
    Run.of_foldlM (fun _ _ => trivial) ?_, rfl, rfl, rfl⟩
  simp [step, State.setCall, State.stop, Workers.cancel, State.afterStop]

end RunLoop

end MultichainIndexer
