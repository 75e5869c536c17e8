import MultichainIndexer.Alert.Alerter
import MultichainIndexer.Domain.Model
import MultichainIndexer.Pipeline.RunLoop

/-!
# Restarts: failures, backoff and health

What the loop of `Run` counts and reports on its way. A failure of the workers
raises two counters, the one of the pipeline, which gives the delay before the
restart, and the one of its health, which decides about the alert. Each iteration
begins with the status healthy while both counters stay, so each failure from the
threshold on finds a pipeline that is not unhealthy, and a success never finds an
unhealthy one. Nothing records latencies, so a success makes the status healthy.

A call of `Run` ends with a success of the workers. The list of the ends of the
workers is kept for the statements only.
-/

namespace MultichainIndexer

open Runs Alerts

namespace Restart

inductive HealthStatus
  | unknown | healthy | degraded | unhealthy | inactive
  deriving DecidableEq

structure PipelineHealth where
  status : HealthStatus := .unknown
  consecutiveFailures : Nat := 0

def PipelineHealth.setStatus (h : PipelineHealth) (status : HealthStatus) : PipelineHealth :=
  { h with status := status }

/-- Whether the pipeline became unhealthy, and its health after a failure. -/
def PipelineHealth.recordFailure (unhealthyThreshold : Nat) (h : PipelineHealth) :
    Bool × PipelineHealth :=
  let failures := h.consecutiveFailures + 1
  if unhealthyThreshold ≤ failures ∧ h.status ≠ .unhealthy then (true, ⟨.unhealthy, failures⟩)
  else (false, ⟨h.status, failures⟩)

/-- Whether the pipeline recovered, and its health after a success. -/
def PipelineHealth.recordSuccessWithRecovery (h : PipelineHealth) : Bool × PipelineHealth :=
  (h.status = .unhealthy, ⟨.healthy, 0⟩)

@[simp] theorem recordFailure_failures (unhealthyThreshold : Nat) (h : PipelineHealth) :
    (h.recordFailure unhealthyThreshold).2.consecutiveFailures = h.consecutiveFailures + 1 := by
  unfold PipelineHealth.recordFailure
  extract_lets failures
  split
  · rfl
  · rfl

theorem recordFailure_became {h : PipelineHealth} (hsta : h.status ≠ .unhealthy)
    (unhealthyThreshold : Nat) :
    (h.recordFailure unhealthyThreshold).1 = true ↔
      unhealthyThreshold ≤ h.consecutiveFailures + 1 := by
  unfold PipelineHealth.recordFailure
  extract_lets failures
  split
  · rename_i hlate
    exact iff_of_true rfl hlate.1
  · rename_i hearly
    exact iff_of_false nofun fun hlate => hearly ⟨hlate, hsta⟩

def defaultUnhealthyThreshold : Nat := 5

structure Config where
  chain : Chain
  network : Network
  /-- Whether there is an alerter. -/
  alerter : Bool
  unhealthyThreshold : Int := 0

def Config.threshold (cfg : Config) : Nat :=
  if 0 < cfg.unhealthyThreshold then cfg.unhealthyThreshold.toNat else defaultUnhealthyThreshold

def second : Int := 10 ^ 9

def maxRestartBackoff : Int := 5 * 60 * second

/-- A shift by 64 or more gives zero, as the wrap-around does. -/
def calcRestartBackoff (consecutiveFailures : Nat) : Int :=
  let d := wrap64 (second * 2 ^ consecutiveFailures)
  if maxRestartBackoff < d then maxRestartBackoff else d

def Config.unhealthyAlert (cfg : Config) (failures : Nat) : Alert where
  type := alertTypeUnhealthy
  chain := cfg.chain.text
  network := cfg.network.text
  title := "Pipeline became unhealthy"
  message := "Pipeline " ++ cfg.chain.text ++ "/" ++ cfg.network.text ++
    " has become unhealthy after " ++ toString failures ++ " consecutive failures"

def Config.recoveryAlert (cfg : Config) : Alert where
  type := alertTypeRecovery
  chain := cfg.chain.text
  network := cfg.network.text
  title := "Pipeline recovered"
  message := "Pipeline " ++ cfg.chain.text ++ "/" ++ cfg.network.text ++
    " recovered from unhealthy state"

structure State where
  loop : RunLoop.State := {}
  consecutiveFailures : Nat := 0
  health : PipelineHealth := {}
  alerts : List Alert := []
  delays : List Int := []
  ends : List Bool := []

def State.failed (cfg : Config) (s : State) : State :=
  let outcome := s.health.recordFailure cfg.threshold
  { s with
    consecutiveFailures := s.consecutiveFailures + 1
    health := outcome.2
    alerts := if outcome.1 && cfg.alerter then
        s.alerts ++ [cfg.unhealthyAlert outcome.2.consecutiveFailures]
      else s.alerts
    delays := s.delays ++ [calcRestartBackoff (s.consecutiveFailures + 1)]
    ends := s.ends ++ [true] }

def State.succeeded (cfg : Config) (s : State) : State :=
  let outcome := s.health.recordSuccessWithRecovery
  { s with
    consecutiveFailures := 0
    health := outcome.2
    alerts := if outcome.1 && cfg.alerter then s.alerts ++ [cfg.recoveryAlert] else s.alerts
    ends := s.ends ++ [false] }

def State.setStatus (s : State) (status : HealthStatus) : State :=
  { s with health := s.health.setStatus status }

/-- What a step of the loop to `loop` counts and reports. -/
def State.noted (cfg : Config) (s : State) (loop : RunLoop.State) : RunLoop.Action → State
  | .enterLoop =>
    match loop.phase with
    | .select => s.setStatus .healthy
    | _ => s
  | .wake =>
    match loop.phase with
    | .top => s.setStatus .healthy
    | _ => s
  | .poll => if s.loop.active && !loop.active then s.setStatus .inactive else s
  | .workersEnded =>
    match s.loop.workers with
    | .done true => s.failed cfg
    | _ => s.succeeded cfg
  | _ => s

inductive Action
  | loop (a : RunLoop.Action)
  /-- `Run` is called again, with another context. -/
  | runAgain

def step (cfg : Config) (s : State) : Action → Option State
  | .loop a => (RunLoop.step s.loop a).map fun loop => { s.noted cfg loop a with loop := loop }
  | .runAgain =>
    match s.loop.phase with
    | .returned => some { s with loop := { s.loop with phase := .top, ctxDone := false } }
    | _ => none

def Step (cfg : Config) (s : State) (a : Action) (s' : State) : Prop := step cfg s a = some s'

def anyStep (_ : State) (_ : Action) : Prop := True

def oneCall (_ : State) (a : Action) : Prop := a ≠ .runAgain

section Loop
variable {s s' : RunLoop.State} {a : RunLoop.Action}

theorem polled_phase (s : RunLoop.State) (watcher : RunLoop.Watcher) :
    (s.polled watcher).phase = s.phase := by
  rcases RunLoop.polled_cases s watcher with h | ⟨h, -⟩ | h
  all_goals rw [h]

theorem returned_of_moves (h : RunLoop.Moves s a s') (hret : s.phase = .returned) :
    s'.phase = .returned := by
  cases h with
  | leave | quit => rfl
  | poll => exact (polled_phase s _).trans hret
  | spawn hphase | wait hphase | wake hphase | workersEnded hphase | takeReplay hphase
  | takeBackfill hphase | takeDeactivation hphase | takeContextDone hphase | stopped hphase
  | purged hphase | backfilled hphase | backoffOver hphase =>
    rw [hphase] at hret
    cases hret
  | startGroup | startPanics | pollFails | stageReturns | watcherExits | groupDone
  | requestBackfill | call | send | callContextDone | receive | cancelContext | setRow =>
    exact hret

end Loop

section Inversion
variable {cfg : Config} {s s' : State} {a : Action}

/-- A step between the ends of the workers moves the loop and may set the status; it never sets it
to unhealthy. -/
structure Quiet (s s' : State) : Prop where
  consecutiveFailures : s'.consecutiveFailures = s.consecutiveFailures
  failures : s'.health.consecutiveFailures = s.health.consecutiveFailures
  alerts : s'.alerts = s.alerts
  delays : s'.delays = s.delays
  ends : s'.ends = s.ends
  selecting : s'.loop.phase = .select →
    s'.health.status ≠ .unhealthy ∨ s.loop.phase = .select ∧ s'.health.status = s.health.status

theorem quiet_setStatus (status : HealthStatus) (hsta : status ≠ .unhealthy)
    (loop : RunLoop.State) : Quiet s { s.setStatus status with loop := loop } where
  consecutiveFailures := rfl
  failures := rfl
  alerts := rfl
  delays := rfl
  ends := rfl
  selecting := fun _ => .inl hsta

theorem quiet_loop {loop : RunLoop.State}
    (hsel : loop.phase = .select → s.loop.phase = .select) :
    Quiet s { s with loop := loop } where
  consecutiveFailures := rfl
  failures := rfl
  alerts := rfl
  delays := rfl
  ends := rfl
  selecting := fun h => .inr ⟨hsel h, rfl⟩

inductive Moves (cfg : Config) (s : State) : Action → State → Prop
  | failed {loop : RunLoop.State} : s.loop.phase = .select → loop.phase = .backoff →
      Moves cfg s (.loop .workersEnded) { s.failed cfg with loop := loop }
  | succeeded {loop : RunLoop.State} : s.loop.phase = .select → loop.phase = .returned →
      Moves cfg s (.loop .workersEnded) { s.succeeded cfg with loop := loop }
  | quiet {a : Action} {s' : State} : Quiet s s' →
      (s.loop.phase = .returned → a ≠ .runAgain → s'.loop.phase = .returned) → Moves cfg s a s'

theorem noted_cases {loop : RunLoop.State} {a : RunLoop.Action} (h : RunLoop.Moves s.loop a loop) :
    (∃ failed, a = .workersEnded ∧ s.loop.phase = .select ∧ s.loop.workers = .done failed ∧
      loop.phase = if failed then .backoff else .returned) ∨
    Quiet s { s.noted cfg loop a with loop := loop } := by
  cases h with
  | @workersEnded failed hphase hwor => exact .inl ⟨failed, rfl, hphase, hwor, rfl⟩
  | spawn => exact .inr (quiet_setStatus .healthy nofun _)
  | leave | wait => exact .inr (quiet_loop nofun)
  | wake => exact .inr (quiet_setStatus .healthy nofun _)
  | quit => exact .inr (quiet_loop nofun)
  | @poll watcher cancelled err =>
    refine .inr ?_
    unfold State.noted
    dsimp only
    split
    · exact quiet_setStatus .inactive nofun _
    · apply quiet_loop
      intro hsel
      rw [← polled_phase]
      exact hsel
  | @stopped reason =>
    refine .inr (quiet_loop ?_)
    cases reason
    all_goals exact nofun
  | backoffOver =>
    refine .inr (quiet_loop ?_)
    dsimp only
    split
    all_goals exact nofun
  | takeReplay | takeBackfill | takeDeactivation | takeContextDone | purged | backfilled =>
    exact .inr (quiet_loop nofun)
  | startGroup | startPanics | pollFails | stageReturns | watcherExits | groupDone
  | requestBackfill | call | send | callContextDone | receive | cancelContext | setRow =>
    exact .inr (quiet_loop id)

theorem step_moves (h : Step cfg s a s') : Moves cfg s a s' := by
  cases a with
  | runAgain =>
    simp only [Step, step] at h
    split at h
    · cases h
      exact .quiet (quiet_loop nofun) fun _ hagain => absurd rfl hagain
    · cases h
  | loop a =>
    obtain ⟨loop, hloop, rfl⟩ := Option.map_eq_some_iff.mp h
    have hmoves := RunLoop.step_moves hloop
    have hcases : _ ∨ Quiet s { s.noted cfg loop a with loop := loop } := noted_cases hmoves
    rcases hcases with ⟨failed, rfl, hphase, hwor, hnext⟩ | hquiet
    · cases failed with
      | false =>
        have hnoted : s.noted cfg loop .workersEnded = s.succeeded cfg := by
          simp only [State.noted, hwor]
        rw [hnoted]
        exact .succeeded hphase hnext
      | true =>
        have hnoted : s.noted cfg loop .workersEnded = s.failed cfg := by
          simp only [State.noted, hwor]
        rw [hnoted]
        exact .failed hphase hnext
    · exact .quiet hquiet fun hret _ => returned_of_moves hmoves hret

end Inversion

section Backoff
variable {cfg : Config} {s s' : State} {a : Action}

/-- The delays of one call of `Run` are those of the first failures, in order. -/
structure Delayed (s : State) : Prop where
  delays : s.delays = (List.range s.delays.length).map fun i => calcRestartBackoff (i + 1)
  count : s.ends.count true = s.delays.length
  counter : s.loop.phase = .returned ∨ s.consecutiveFailures = s.delays.length

theorem Delayed.step (h : Delayed s) (hok : oneCall s a) (hstep : Step cfg s a s') :
    Delayed s' := by
  cases step_moves hstep with
  | failed hphase hnext =>
    have hcou : s.consecutiveFailures = s.delays.length := by
      rcases h.counter with hret | hcou
      · rw [hphase] at hret
        cases hret
      · exact hcou
    refine ⟨?_, ?_, .inr ?_⟩
    · show s.delays ++ [_] = _
      rw [hcou, State.failed, List.length_append, List.length_singleton, List.range_succ,
        List.map_append, ← h.delays]
      rfl
    · show (s.ends ++ [true]).count true = (s.delays ++ [_]).length
      rw [List.count_append, h.count, List.length_append]
      rfl
    · show s.consecutiveFailures + 1 = (s.delays ++ [_]).length
      rw [hcou, List.length_append]
      rfl
  | succeeded _ hnext =>
    refine ⟨h.delays, ?_, .inl hnext⟩
    show (s.ends ++ [false]).count true = s.delays.length
    rw [List.count_append, h.count]
    rfl
  | quiet hquiet hret =>
    refine ⟨?_, ?_, ?_⟩
    · rw [hquiet.delays]
      exact h.delays
    · rw [hquiet.ends, hquiet.delays]
      exact h.count
    · rw [hquiet.consecutiveFailures, hquiet.delays]
      exact h.counter.imp_left fun hphase => hret hphase hok

theorem Delayed.run {acts : List Action} (h : Run (Step cfg) oneCall {} acts s) : Delayed s :=
  h.invariant ⟨rfl, rfl, .inr rfl⟩ fun _ _ _ ht hok hstep => ht.step hok hstep

/-- Between one second and five minutes. -/
def InBounds (delay : Int) : Prop := second ≤ delay ∧ delay ≤ maxRestartBackoff

instance (delay : Int) : Decidable (InBounds delay) := inferInstanceAs (Decidable (_ ∧ _))

theorem calcRestartBackoff_overflow : ¬ InBounds (calcRestartBackoff 34) := by
  decide +kernel

theorem delays_upTo {n : Nat} (hn : n ≤ 33) :
    (∀ d ∈ (List.range n).map fun i => calcRestartBackoff (i + 1), InBounds d) ∧
      ((List.range n).map fun i => calcRestartBackoff (i + 1)).Pairwise (· ≤ ·) := by
  have hsub := (List.range_sublist.mpr hn).map fun i => calcRestartBackoff (i + 1)
  have hbou : ∀ d ∈ (List.range 33).map fun i => calcRestartBackoff (i + 1), InBounds d := by
    decide +kernel
  have hgrow : ((List.range 33).map fun i => calcRestartBackoff (i + 1)).Pairwise (· ≤ ·) := by
    decide +kernel
  exact ⟨fun d hd => hbou d (hsub.subset hd), hgrow.sublist hsub⟩

/-- The delays of a call of `Run` lie in their bounds and never decrease exactly as long as the
workers have failed at most 33 times. -/
theorem restart_delays_iff {acts : List Action} (h : Run (Step cfg) oneCall {} acts s) :
    ((∀ d ∈ s.delays, InBounds d) ∧ s.delays.Pairwise (· ≤ ·)) ↔ s.ends.count true ≤ 33 := by
  have hdel := Delayed.run h
  rw [hdel.count]
  constructor
  · rintro ⟨hbou, _⟩
    by_contra hmany
    apply calcRestartBackoff_overflow
    apply hbou
    rw [hdel.delays]
    exact List.mem_map.mpr ⟨33, List.mem_range.mpr (by omega), rfl⟩
  · intro hfew
    rw [hdel.delays]
    exact delays_upTo hfew

end Backoff

section Failing
variable {cfg : Config}

def failing (n : Nat) : List Action :=
  (List.replicate n [Action.loop .enterLoop, .loop .startPanics, .loop .workersEnded,
    .loop .backoffOver]).flatten

theorem failing_succ (n : Nat) : failing (n + 1) = failing n ++
    [.loop .enterLoop, .loop .startPanics, .loop .workersEnded, .loop .backoffOver] := by
  rw [failing, List.replicate_succ', List.flatten_concat]
  rfl

def State.failures (cfg : Config) : Nat → State
  | 0 => {}
  | n + 1 => ((State.failures cfg n).setStatus .healthy).failed cfg

theorem failures_loop (cfg : Config) (n : Nat) : (State.failures cfg n).loop = {} := by
  induction n with
  | zero => rfl
  | succ n ih => exact ih

theorem run_failing (cfg : Config) (n : Nat) :
    Run (Step cfg) oneCall {} (failing n) (State.failures cfg n) := by
  induction n with
  | zero => exact .start
  | succ n ih =>
    rw [failing_succ, State.failures]
    have hloop := failures_loop cfg n
    generalize State.failures cfg n = s at ih hloop ⊢
    cases s
    cases hloop
    exact ih.append (.cons nofun rfl (.cons nofun rfl (.cons nofun rfl (.cons nofun rfl .start))))

theorem failures_ends (cfg : Config) (n : Nat) :
    (State.failures cfg n).ends = List.replicate n true := by
  induction n with
  | zero => rfl
  | succ n ih =>
    show (State.failures cfg n).ends ++ [true] = _
    rw [ih, List.replicate_succ']

/-- A run with few failures. -/
theorem restart_delays_few :
    ((∀ d ∈ (State.failures ⟨.base, .mainnet, true, 0⟩ 2).delays, InBounds d) ∧
      (State.failures ⟨.base, .mainnet, true, 0⟩ 2).delays.Pairwise (· ≤ ·)) :=
  (restart_delays_iff (run_failing ⟨.base, .mainnet, true, 0⟩ 2)).mpr (by
    rw [failures_ends]
    decide)

/-- The delay after the 34th failure is negative. -/
theorem restart_delays_overflow : ∃ acts s,
    Run (Step ⟨.base, .mainnet, true, 0⟩) oneCall {} acts s ∧ -1266874889709551616 ∈ s.delays :=
  ⟨failing 34, _, run_failing _ 34, by decide +kernel⟩

end Failing

section Alternation
variable {cfg : Config} {s s' : State} {a : Action}

/-- The failures in a row so far, and how many came when the threshold was reached. -/
def tally (threshold : Nat) (ends : List Bool) : Nat × Nat :=
  ends.foldl (fun count failed =>
    if failed then (count.1 + 1, if threshold ≤ count.1 + 1 then count.2 + 1 else count.2)
    else (0, count.2)) (0, 0)

/-- The failures with as many before them, and no success between, as the threshold asks for. -/
def lateFailures (threshold : Nat) (ends : List Bool) : Nat := (tally threshold ends).2

theorem tally_failed (threshold : Nat) (ends : List Bool) :
    tally threshold (ends ++ [true]) = ((tally threshold ends).1 + 1,
      if threshold ≤ (tally threshold ends).1 + 1 then (tally threshold ends).2 + 1
      else (tally threshold ends).2) := by
  rw [tally, List.foldl_append]
  rfl

theorem tally_succeeded (threshold : Nat) (ends : List Bool) :
    tally threshold (ends ++ [false]) = (0, (tally threshold ends).2) := by
  rw [tally, List.foldl_append]
  rfl

/-- Unhealthy and recovery in turn, unhealthy first. -/
def Alternating (types : List String) : Prop :=
  ∀ i type, types[i]? = some type →
    type = if i % 2 = 0 then alertTypeUnhealthy else alertTypeRecovery

/-- Each late failure gives an alert and nothing else does: a success finds the status that its
iteration began with. -/
structure Reported (cfg : Config) (s : State) : Prop where
  failures : s.health.consecutiveFailures = (tally cfg.threshold s.ends).1
  selecting : s.loop.phase = .select → s.health.status ≠ .unhealthy
  alerts : s.alerts.map Alert.type =
    List.replicate (if cfg.alerter then lateFailures cfg.threshold s.ends else 0) alertTypeUnhealthy

theorem failed_types (hsta : s.health.status ≠ .unhealthy) :
    (s.failed cfg).alerts.map Alert.type =
      if cfg.alerter = true ∧ cfg.threshold ≤ s.health.consecutiveFailures + 1 then
        s.alerts.map Alert.type ++ [alertTypeUnhealthy]
      else s.alerts.map Alert.type := by
  have hiff := recordFailure_became hsta cfg.threshold
  unfold State.failed
  by_cases hlate : cfg.threshold ≤ s.health.consecutiveFailures + 1
  · cases halerter : cfg.alerter with
    | false => simp
    | true => simp [hiff.mpr hlate, hlate, Config.unhealthyAlert]
  · have hearly : (s.health.recordFailure cfg.threshold).1 = false := by
      rw [← Bool.not_eq_true, hiff]
      exact hlate
    simp [hearly, hlate]

theorem Reported.failed (h : Reported cfg s) (hphase : s.loop.phase = .select)
    {loop : RunLoop.State} (hnext : loop.phase = .backoff) :
    Reported cfg { s.failed cfg with loop := loop } := by
  refine ⟨?_, ?_, ?_⟩
  · show (s.health.recordFailure cfg.threshold).2.consecutiveFailures =
      (tally cfg.threshold (s.ends ++ [true])).1
    rw [tally_failed, ← h.failures, recordFailure_failures]
  · intro hsel
    rw [hnext] at hsel
    cases hsel
  · show (s.failed cfg).alerts.map Alert.type = List.replicate
      (if cfg.alerter then lateFailures cfg.threshold (s.ends ++ [true]) else 0) _
    rw [failed_types (h.selecting hphase), h.alerts, lateFailures, lateFailures, tally_failed,
      ← h.failures]
    cases cfg.alerter with
    | false => simp
    | true =>
      by_cases hlate : cfg.threshold ≤ s.health.consecutiveFailures + 1
      · simp [hlate, List.replicate_succ']
      · simp [hlate]

theorem Reported.succeeded (h : Reported cfg s) (hphase : s.loop.phase = .select)
    {loop : RunLoop.State} (hnext : loop.phase = .returned) :
    Reported cfg { s.succeeded cfg with loop := loop } := by
  have hsta := h.selecting hphase
  refine ⟨?_, ?_, ?_⟩
  · show 0 = (tally cfg.threshold (s.ends ++ [false])).1
    rw [tally_succeeded]
  · intro hsel
    rw [hnext] at hsel
    cases hsel
  · show (s.succeeded cfg).alerts.map Alert.type =
      List.replicate (if cfg.alerter then lateFailures cfg.threshold (s.ends ++ [false]) else 0) _
    rw [lateFailures, tally_succeeded]
    have hsame : (s.succeeded cfg).alerts = s.alerts := by
      simp [State.succeeded, PipelineHealth.recordSuccessWithRecovery, hsta]
    rw [hsame]
    exact h.alerts

theorem Reported.step (h : Reported cfg s) (hstep : Step cfg s a s') : Reported cfg s' := by
  cases step_moves hstep with
  | failed hphase hnext => exact h.failed hphase hnext
  | succeeded hphase hnext => exact h.succeeded hphase hnext
  | quiet hquiet _ =>
    refine ⟨?_, ?_, ?_⟩
    · rw [hquiet.failures, hquiet.ends]
      exact h.failures
    · intro hsel
      rcases hquiet.selecting hsel with hsta | ⟨hphase, hsame⟩
      · exact hsta
      · rw [hsame]
        exact h.selecting hphase
    · rw [hquiet.alerts, hquiet.ends]
      exact h.alerts

theorem Reported.run {ok : State → Action → Prop} {acts : List Action}
    (h : Run (Step cfg) ok {} acts s) : Reported cfg s := by
  refine h.invariant ⟨rfl, nofun, ?_⟩ fun _ _ _ ht _ hstep => ht.step hstep
  show [] = List.replicate (if cfg.alerter then 0 else 0) _
  rw [ite_self]
  rfl

theorem alternating_replicate {n : Nat} :
    Alternating (List.replicate n alertTypeUnhealthy) ↔ n ≤ 1 := by
  constructor
  · intro h
    by_contra hmany
    have hsec := h 1 alertTypeUnhealthy (by
      rw [List.getElem?_replicate, if_pos (by omega)])
    exact absurd hsec (by decide)
  · intro hone i type htype
    rw [List.getElem?_replicate] at htype
    split at htype
    · cases htype
      rw [if_pos (by omega)]
    · cases htype

/-- The alerts of a pipeline alternate exactly as long as at most one failure came with the
threshold reached. -/
theorem alerts_alternate_iff {acts : List Action} (h : Run (Step cfg) anyStep {} acts s) :
    Alternating (s.alerts.map Alert.type) ↔
      (cfg.alerter = true → lateFailures cfg.threshold s.ends ≤ 1) := by
  rw [(Reported.run h).alerts, alternating_replicate]
  cases cfg.alerter with
  | false => simp
  | true => simp

theorem alerts_alternate_once :
    Alternating ((State.failures ⟨.base, .mainnet, true, 0⟩ 5).alerts.map Alert.type) :=
  (alerts_alternate_iff ((run_failing ⟨.base, .mainnet, true, 0⟩ 5).imp
    fun _ _ _ => trivial)).mpr fun _ => by
      rw [failures_ends]
      decide

/-- A sixth failure in a row reports the unhealthy pipeline once more. -/
theorem alerts_repeat : ∃ acts s, Run (Step ⟨.base, .mainnet, true, 0⟩) anyStep {} acts s ∧
    s.alerts.map Alert.type = [alertTypeUnhealthy, alertTypeUnhealthy] :=
  ⟨failing 6, _, (run_failing _ 6).imp fun _ _ _ => trivial, by decide +kernel⟩

end Alternation

end Restart

end MultichainIndexer
