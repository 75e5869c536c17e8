import MultichainIndexer.Lib.Run
import MultichainIndexer.Lib.Text

/-!
# The restart loop of a pipeline

`Run` starts the workers in a goroutine of their own and waits for the first of
their end, a replay request, a backfill request, a deactivation and the end of
its context. The config watcher is one of the workers: it reads the `is_active`
row and activates or deactivates the pipeline that it is part of. A replay
request is put into a channel of one place, where its caller waits for the
answer until its own context ends.

A step is what one goroutine does between two points where another may go on.
The list of purges is kept for the proofs only.
-/

namespace MultichainIndexer

open Runs Text

namespace RunLoop

/-- The watcher remembers the value of the `is_active` row that it read last. -/
structure Watcher where
  lastSeen : Option String := none

/-- The goroutine that runs the workers of one iteration. -/
inductive Workers
  | none
  | starting (cancelled : Bool)
  /-- The errgroup is up. `err` is its first error, and whether that is a failure and not the end
  of a context. -/
  | up (watcher : Option Watcher) (cancelled : Bool) (err : Option Bool)
  | done (failed : Bool)

inductive Reason
  | replay (op : Nat)
  | backfill
  | deactivated
  | contextDone

/-- Where the loop of `Run` is. -/
inductive Phase
  | top
  /-- It waits for its activation. -/
  | inactive
  | select
  /-- It has cancelled the workers and waits for their end. -/
  | stopping (reason : Reason)
  | purging (op : Nat)
  | backfilling
  | backoff
  | returned

/-- A call of `RequestReplay`: it has not sent its request, it waits for the answer, or it has
returned with the answer or with the error of its context. -/
inductive Call
  | entered
  | sent (answer : Bool)
  | answered
  | contextError
  deriving DecidableEq

structure State where
  ctxDone : Bool := false
  active : Bool := true
  deactiveCh : Bool := false
  replayCh : Option Nat := none
  backfillCh : Bool := false
  row : Option String := none
  phase : Phase := .top
  workers : Workers := .none
  calls : List Call := []
  purges : List Nat := []

inductive Action
  -- the loop of `Run`
  | enterLoop
  | wake
  | workersEnded
  | takeReplay
  | takeBackfill
  | takeDeactivation
  | takeContextDone
  | stopped
  | purged
  | backfilled
  | backoffOver
  -- the workers
  | startGroup
  | startPanics
  | poll
  | pollFails
  | stageReturns (failed : Bool)
  | watcherExits
  | groupDone
  | requestBackfill
  -- the callers of `RequestReplay`
  | call
  | send (op : Nat)
  | callContextDone (op : Nat)
  | receive (op : Nat)
  -- the outside
  | cancelContext
  | setRow (value : Option String)

/-- How `applyConfig` reads the `is_active` value. -/
def wantsActive (value : String) : Option Bool :=
  let trimmed := toLower (trimSpace value)
  if trimmed ∈ ["false", "0", "no", "off"] then some false
  else if trimmed ∈ ["true", "1", "yes", "on"] then some true
  else none

def Workers.cancel : Workers → Workers
  | .starting _ => .starting true
  | .up watcher _ err => .up watcher true err
  | workers => workers

def State.deactivate (s : State) : State :=
  if s.active then { s with active := false, deactiveCh := true } else s

def State.activate (s : State) : State := { s with active := true }

/-- A poll that reads the row: a value that it has not applied yet is applied. -/
def State.polled (s : State) (watcher : Watcher) : State :=
  match s.row with
  | none => s
  | some value =>
    if watcher.lastSeen.getD "" = value then s
    else
      match wantsActive value with
      | some false => s.deactivate
      | some true => s.activate
      | none => s

def State.stop (s : State) (reason : Reason) : State :=
  { s with phase := .stopping reason, workers := s.workers.cancel }

/-- The workers have ended after their cancellation. -/
def State.afterStop (s : State) : Reason → State
  | .replay op => { s with phase := .purging op, workers := .none, purges := s.purges ++ [op] }
  | .backfill => { s with phase := .backfilling, workers := .none }
  | .deactivated => { s with phase := .top, workers := .none }
  | .contextDone => { s with phase := .returned, workers := .none }

def State.setCall (s : State) (op : Nat) (call : Call) : State :=
  { s with calls := s.calls.set op call }

/-- The answer to a request waits in its buffered channel, also where the caller has gone. -/
def answer (calls : List Call) (op : Nat) : List Call :=
  calls.modify op fun call => if call = .sent false then .sent true else call

def step (s : State) : Action → Option State
  | .enterLoop =>
    match s.phase with
    | .top =>
      if s.ctxDone then some { s with phase := .returned }
      else if s.active then some { s with phase := .select, workers := .starting false }
      else some { s with phase := .inactive }
    | _ => none
  | .wake =>
    match s.phase with
    | .inactive =>
      if s.ctxDone then some { s with phase := .returned }
      else if s.active then some { s with phase := .top }
      else none
    | _ => none
  | .workersEnded =>
    match s.phase, s.workers with
    | .select, .done failed =>
      some { s with phase := if failed then .backoff else .returned, workers := .none }
    | _, _ => none
  | .takeReplay =>
    match s.phase, s.replayCh with
    | .select, some op => some ({ s with replayCh := none }.stop (.replay op))
    | _, _ => none
  | .takeBackfill =>
    match s.phase with
    | .select => if s.backfillCh then some ({ s with backfillCh := false }.stop .backfill) else none
    | _ => none
  | .takeDeactivation =>
    match s.phase with
    | .select =>
      if s.deactiveCh then some ({ s with deactiveCh := false }.stop .deactivated) else none
    | _ => none
  | .takeContextDone =>
    match s.phase with
    | .select => if s.ctxDone then some (s.stop .contextDone) else none
    | _ => none
  | .stopped =>
    match s.phase, s.workers with
    | .stopping reason, .done _ => some (s.afterStop reason)
    | _, _ => none
  | .purged =>
    match s.phase with
    | .purging op => some { s with phase := .top, calls := answer s.calls op }
    | _ => none
  | .backfilled =>
    match s.phase with
    | .backfilling => some { s with phase := .top }
    | _ => none
  | .backoffOver =>
    match s.phase with
    | .backoff => some { s with phase := if s.ctxDone then .returned else .top }
    | _ => none
  | .startGroup =>
    match s.workers with
    | .starting cancelled => some { s with workers := .up (some {}) cancelled none }
    | _ => none
  | .startPanics =>
    match s.workers with
    | .starting _ => some { s with workers := .done true }
    | _ => none
  | .poll =>
    match s.workers with
    | .up (some watcher) cancelled err =>
      some { s.polled watcher with workers := .up (some ⟨s.row⟩) cancelled err }
    | _ => none
  | .pollFails =>
    match s.workers with
    | .up (some _) _ _ => some s
    | _ => none
  | .stageReturns failed =>
    match s.workers with
    | .up watcher _ err => some { s with workers := .up watcher true (err.or (some failed)) }
    | _ => none
  | .watcherExits =>
    match s.workers with
    | .up (some _) cancelled err =>
      if cancelled || s.ctxDone then some { s with workers := .up none true (err.or (some false)) }
      else none
    | _ => none
  | .groupDone =>
    match s.workers with
    | .up none true err => some { s with workers := .done (err.getD false) }
    | _ => none
  | .requestBackfill =>
    match s.workers with
    | .up _ _ _ => some { s with backfillCh := true }
    | _ => none
  | .call => some { s with calls := s.calls ++ [.entered] }
  | .send op =>
    if s.calls[op]? = some .entered ∧ s.replayCh = none then
      some { s.setCall op (.sent false) with replayCh := some op }
    else none
  | .callContextDone op =>
    match s.calls[op]? with
    | some .entered | some (.sent _) => some (s.setCall op .contextError)
    | _ => none
  | .receive op =>
    if s.calls[op]? = some (.sent true) then some (s.setCall op .answered) else none
  | .cancelContext => some { s with ctxDone := true }
  | .setRow value => some { s with row := value }

/-- What a step does, with the conditions under which it can be taken. -/
inductive Moves (s : State) : Action → State → Prop
  | leave : s.phase = .top → s.ctxDone = true → Moves s .enterLoop { s with phase := .returned }
  | spawn : s.phase = .top → s.ctxDone = false → s.active = true →
      Moves s .enterLoop { s with phase := .select, workers := .starting false }
  | wait : s.phase = .top → s.ctxDone = false → s.active = false →
      Moves s .enterLoop { s with phase := .inactive }
  | quit : s.phase = .inactive → s.ctxDone = true → Moves s .wake { s with phase := .returned }
  | wake : s.phase = .inactive → s.ctxDone = false → s.active = true →
      Moves s .wake { s with phase := .top }
  | workersEnded {failed : Bool} : s.phase = .select → s.workers = .done failed →
      Moves s .workersEnded
        { s with phase := if failed then .backoff else .returned, workers := .none }
  | takeReplay {op : Nat} : s.phase = .select → s.replayCh = some op →
      Moves s .takeReplay ({ s with replayCh := none }.stop (.replay op))
  | takeBackfill : s.phase = .select → s.backfillCh = true →
      Moves s .takeBackfill ({ s with backfillCh := false }.stop .backfill)
  | takeDeactivation : s.phase = .select → s.deactiveCh = true →
      Moves s .takeDeactivation ({ s with deactiveCh := false }.stop .deactivated)
  | takeContextDone : s.phase = .select → s.ctxDone = true →
      Moves s .takeContextDone (s.stop .contextDone)
  | stopped {reason : Reason} {failed : Bool} : s.phase = .stopping reason →
      s.workers = .done failed → Moves s .stopped (s.afterStop reason)
  | purged {op : Nat} : s.phase = .purging op →
      Moves s .purged { s with phase := .top, calls := answer s.calls op }
  | backfilled : s.phase = .backfilling → Moves s .backfilled { s with phase := .top }
  | backoffOver : s.phase = .backoff →
      Moves s .backoffOver { s with phase := if s.ctxDone then .returned else .top }
  | startGroup {cancelled : Bool} : s.workers = .starting cancelled →
      Moves s .startGroup { s with workers := .up (some {}) cancelled none }
  | startPanics {cancelled : Bool} : s.workers = .starting cancelled →
      Moves s .startPanics { s with workers := .done true }
  | poll {watcher : Watcher} {cancelled : Bool} {err : Option Bool} :
      s.workers = .up (some watcher) cancelled err →
      Moves s .poll { s.polled watcher with workers := .up (some ⟨s.row⟩) cancelled err }
  | pollFails : Moves s .pollFails s
  | stageReturns {watcher : Option Watcher} {cancelled failed : Bool} {err : Option Bool} :
      s.workers = .up watcher cancelled err →
      Moves s (.stageReturns failed) { s with workers := .up watcher true (err.or (some failed)) }
  | watcherExits {watcher : Watcher} {cancelled : Bool} {err : Option Bool} :
      s.workers = .up (some watcher) cancelled err → cancelled = true ∨ s.ctxDone = true →
      Moves s .watcherExits { s with workers := .up none true (err.or (some false)) }
  | groupDone {err : Option Bool} : s.workers = .up none true err →
      Moves s .groupDone { s with workers := .done (err.getD false) }
  | requestBackfill : Moves s .requestBackfill { s with backfillCh := true }
  | call : Moves s .call { s with calls := s.calls ++ [.entered] }
  | send {op : Nat} : s.calls[op]? = some .entered → s.replayCh = none →
      Moves s (.send op) { s.setCall op (.sent false) with replayCh := some op }
  | callContextDone {op : Nat} {call : Call} : s.calls[op]? = some call → call ≠ .contextError →
      Moves s (.callContextDone op) (s.setCall op .contextError)
  | receive {op : Nat} : s.calls[op]? = some (.sent true) →
      Moves s (.receive op) (s.setCall op .answered)
  | cancelContext : Moves s .cancelContext { s with ctxDone := true }
  | setRow {value : Option String} : Moves s (.setRow value) { s with row := value }

variable {s s' : State} {a : Action}

theorem step_moves (h : step s a = some s') : Moves s a s' := by
  cases a with simp only [step] at h
  | enterLoop =>
    split at h
    · rename_i hphase
      split_ifs at h with hctx hact <;> cases h
      · exact .leave hphase hctx
      · exact .spawn hphase (Bool.not_eq_true _ ▸ hctx) hact
      · exact .wait hphase (Bool.not_eq_true _ ▸ hctx) (Bool.not_eq_true _ ▸ hact)
    · cases h
  | wake =>
    split at h
    · rename_i hphase
      split_ifs at h with hctx hact <;> cases h
      · exact .quit hphase hctx
      · exact .wake hphase (Bool.not_eq_true _ ▸ hctx) hact
    · cases h
  | workersEnded =>
    split at h <;> cases h
    exact .workersEnded ‹_› ‹_›
  | takeReplay =>
    split at h <;> cases h
    exact .takeReplay ‹_› ‹_›
  | takeBackfill =>
    split at h
    · split_ifs at h with hch
      cases h
      exact .takeBackfill ‹_› hch
    · cases h
  | takeDeactivation =>
    split at h
    · split_ifs at h with hch
      cases h
      exact .takeDeactivation ‹_› hch
    · cases h
  | takeContextDone =>
    split at h
    · split_ifs at h with hctx
      cases h
      exact .takeContextDone ‹_› hctx
    · cases h
  | stopped =>
    split at h <;> cases h
    exact .stopped ‹_› ‹_›
  | purged =>
    split at h <;> cases h
    exact .purged ‹_›
  | backfilled =>
    split at h <;> cases h
    exact .backfilled ‹_›
  | backoffOver =>
    split at h <;> cases h
    exact .backoffOver ‹_›
  | startGroup =>
    split at h <;> cases h
    exact .startGroup ‹_›
  | startPanics =>
    split at h <;> cases h
    exact .startPanics ‹_›
  | poll =>
    split at h <;> cases h
    exact .poll ‹_›
  | pollFails =>
    split at h <;> cases h
    exact .pollFails
  | stageReturns failed =>
    split at h <;> cases h
    exact .stageReturns ‹_›
  | watcherExits =>
    split at h
    · split_ifs at h with hdone
      cases h
      exact .watcherExits ‹_› (Bool.or_eq_true_iff.mp hdone)
    · cases h
  | groupDone =>
    split at h <;> cases h
    exact .groupDone ‹_›
  | requestBackfill =>
    split at h <;> cases h
    exact .requestBackfill
  | call =>
    cases h
    exact .call
  | send op =>
    split_ifs at h with hsend
    cases h
    exact .send hsend.1 hsend.2
  | callContextDone op =>
    split at h <;> cases h
    · rename_i hcall
      exact .callContextDone hcall nofun
    · rename_i hcall
      exact .callContextDone hcall nofun
  | receive op =>
    split_ifs at h with hsent
    cases h
    exact .receive hsent
  | cancelContext =>
    cases h
    exact .cancelContext
  | setRow value =>
    cases h
    exact .setRow

def Step (s : State) (a : Action) (s' : State) : Prop := step s a = some s'

section Nesting

def Workers.watching : Workers → Bool
  | .up (some _) _ _ => true
  | _ => false

def Workers.Ending : Workers → Prop
  | .none => False
  | .starting cancelled => cancelled = true
  | .up _ cancelled _ => cancelled = true
  | .done _ => True

def Phase.holdsWorkers : Phase → Bool
  | .select => true
  | .stopping _ => true
  | _ => false

/-- How the loop, its workers and the watcher among them nest. -/
structure Nested (s : State) : Prop where
  idle : s.phase.holdsWorkers = false → s.workers = .none
  ending : ∀ reason, s.phase = .stopping reason → s.workers.Ending
  selecting : s.phase = .select → s.workers ≠ .none
  /-- While the loop selects, a deactivation waits for it in the channel. -/
  signalled : s.phase = .select → s.active = false → s.deactiveCh = true
  /-- Only a watcher deactivates, and no watcher is up yet. -/
  starting : ∀ cancelled, s.workers = .starting cancelled → s.active = true
  waiting : s.phase = .inactive → s.active = false

theorem Nested.init : Nested {} := by
  constructor <;> intros <;> first | rfl | contradiction

theorem Workers.cancel_ending {w : Workers} (h : w ≠ .none) : w.cancel.Ending := by
  cases w with
  | none => exact absurd rfl h
  | starting cancelled => rfl
  | up watcher cancelled err => rfl
  | done failed => trivial

theorem Nested.stop (h : Nested s) (hphase : s.phase = .select) {t : State} {reason : Reason}
    (hwor : t.workers = s.workers) (hact : t.active = s.active) :
    Nested (t.stop reason) where
  idle := nofun
  ending := fun _ _ => by
    show t.workers.cancel.Ending
    rw [hwor]
    exact Workers.cancel_ending (h.selecting hphase)
  selecting := nofun
  signalled := nofun
  starting := by
    intro cancelled hsta
    show t.active = true
    rw [hact]
    have hs : s.workers.cancel = .starting cancelled := hwor ▸ hsta
    cases hw : s.workers with
    | starting c => exact h.starting c hw
    | none => rw [hw] at hs; cases hs
    | up w c e => rw [hw] at hs; cases hs
    | done f => rw [hw] at hs; cases hs
  waiting := nofun

theorem Nested.of_idle (hidle : s.phase.holdsWorkers = false) (hwor : s.workers = .none)
    (hwai : s.phase = .inactive → s.active = false) : Nested s where
  idle := fun _ => hwor
  ending := fun reason hphase => by rw [hphase] at hidle; cases hidle
  selecting := fun hphase => by rw [hphase] at hidle; cases hidle
  signalled := fun hphase => by rw [hphase] at hidle; cases hidle
  starting := fun cancelled hsta => by rw [hwor] at hsta; cases hsta
  waiting := hwai

theorem Nested.setWorkers (h : Nested s) {workers : Workers} (hne : s.workers ≠ .none)
    (hne' : workers ≠ .none) (hend : s.workers.Ending → workers.Ending)
    (hsta : ∀ cancelled, workers ≠ .starting cancelled) :
    Nested { s with workers := workers } where
  idle := fun hidle => absurd (h.idle hidle) hne
  ending := fun reason hphase => hend (h.ending reason hphase)
  selecting := fun _ => hne'
  signalled := h.signalled
  starting := fun cancelled heq => absurd heq (hsta cancelled)
  waiting := h.waiting

theorem Nested.of_same (h : Nested s) {t : State} (hphase : t.phase = s.phase)
    (hwor : t.workers = s.workers) (hact : t.active = s.active)
    (hch : t.deactiveCh = s.deactiveCh) : Nested t := by
  obtain ⟨h1, h2, h3, h4, h5, h6⟩ := h
  constructor <;> simp only [hphase, hwor, hact, hch] <;> assumption

theorem polled_cases (s : State) (watcher : Watcher) :
    s.polled watcher = s ∨
      (s.polled watcher = { s with active := false, deactiveCh := true } ∧ s.active = true) ∨
      s.polled watcher = { s with active := true } := by
  unfold State.polled
  split
  · exact .inl rfl
  · split_ifs with hseen
    · exact .inl rfl
    · split
      · unfold State.deactivate
        split_ifs with hact
        · exact .inr (.inl ⟨rfl, hact⟩)
        · exact .inl rfl
      · exact .inr (.inr rfl)
      · exact .inl rfl

theorem polled_workers (s : State) (watcher : Watcher) :
    (s.polled watcher).workers = s.workers := by
  rcases polled_cases s watcher with heq | ⟨heq, -⟩ | heq <;> rw [heq]

theorem Nested.polled (h : Nested s) {watcher : Watcher} {cancelled : Bool} {err : Option Bool}
    (hup : s.workers = .up (some watcher) cancelled err) : Nested (s.polled watcher) := by
  have hholds : s.phase.holdsWorkers = true := by
    cases hs : s.phase.holdsWorkers with
    | true => rfl
    | false => rw [h.idle hs] at hup; cases hup
  rcases polled_cases s watcher with heq | ⟨heq, -⟩ | heq <;> rw [heq]
  · exact h
  · refine ⟨h.idle, h.ending, h.selecting, fun _ _ => rfl, ?_, fun _ => rfl⟩
    intro cancelled hsta
    rw [show s.workers = _ from hsta] at hup
    cases hup
  · refine ⟨h.idle, h.ending, h.selecting, nofun, fun _ _ => rfl, ?_⟩
    intro hina
    rw [show s.phase = _ from hina] at hholds
    cases hholds

theorem Nested.step (h : Nested s) (hstep : Step s a s') : Nested s' := by
  cases step_moves hstep with
  | leave hphase =>
    exact .of_idle rfl (h.idle (by rw [hphase]; rfl)) nofun
  | spawn hphase hctx hact =>
    exact ⟨nofun, nofun, nofun, fun _ hno => absurd (hact.symm.trans hno) nofun,
      fun _ _ => hact, nofun⟩
  | wait hphase hctx hact =>
    exact .of_idle rfl (h.idle (by rw [hphase]; rfl)) fun _ => hact
  | quit hphase => exact .of_idle rfl (h.idle (by rw [hphase]; rfl)) nofun
  | wake hphase => exact .of_idle rfl (h.idle (by rw [hphase]; rfl)) nofun
  | @workersEnded failed =>
    cases failed with
    | true => exact .of_idle rfl rfl nofun
    | false => exact .of_idle rfl rfl nofun
  | takeReplay hphase => exact h.stop hphase rfl rfl
  | takeBackfill hphase => exact h.stop hphase rfl rfl
  | takeDeactivation hphase => exact h.stop hphase rfl rfl
  | takeContextDone hphase => exact h.stop hphase rfl rfl
  | @stopped reason =>
    cases reason with
    | replay op => exact .of_idle rfl rfl nofun
    | backfill => exact .of_idle rfl rfl nofun
    | deactivated => exact .of_idle rfl rfl nofun
    | contextDone => exact .of_idle rfl rfl nofun
  | purged hphase => exact .of_idle rfl (h.idle (by rw [hphase]; rfl)) nofun
  | backfilled hphase => exact .of_idle rfl (h.idle (by rw [hphase]; rfl)) nofun
  | backoffOver hphase =>
    have hnone := h.idle (by rw [hphase]; rfl)
    cases s.ctxDone with
    | true => exact .of_idle rfl hnone nofun
    | false => exact .of_idle rfl hnone nofun
  | startGroup hw =>
    exact h.setWorkers (by rw [hw]; nofun) nofun (by rw [hw]; exact id) nofun
  | startPanics hw => exact h.setWorkers (by rw [hw]; nofun) nofun (fun _ => trivial) nofun
  | @poll watcher cancelled err hw =>
    have hwor := (polled_workers s watcher).trans hw
    exact (h.polled hw).setWorkers (by rw [hwor]; nofun) nofun (by rw [hwor]; exact id)
      nofun
  | pollFails => exact h
  | stageReturns hw => exact h.setWorkers (by rw [hw]; nofun) nofun (fun _ => rfl) nofun
  | watcherExits hw => exact h.setWorkers (by rw [hw]; nofun) nofun (fun _ => rfl) nofun
  | groupDone hw => exact h.setWorkers (by rw [hw]; nofun) nofun (fun _ => trivial) nofun
  | requestBackfill => exact h.of_same rfl rfl rfl rfl
  | call => exact h.of_same rfl rfl rfl rfl
  | send => exact h.of_same rfl rfl rfl rfl
  | callContextDone => exact h.of_same rfl rfl rfl rfl
  | receive => exact h.of_same rfl rfl rfl rfl
  | cancelContext => exact h.of_same rfl rfl rfl rfl
  | setRow => exact h.of_same rfl rfl rfl rfl

theorem Nested.run {ok : State → Action → Prop} {acts : List Action} (h : Nested s)
    (hrun : Run Step ok s acts s') : Nested s' :=
  hrun.invariant h fun _ _ _ ht _ hstep => ht.step hstep

end Nesting

def anyStep (_ : State) (_ : Action) : Prop := True

end RunLoop

end MultichainIndexer
