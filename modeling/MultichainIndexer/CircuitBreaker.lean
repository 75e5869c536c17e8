import Mathlib.Data.List.DropRight
import Mathlib.Data.List.Induction

/-!
# The circuit breaker

The breaker counts failures while it is closed, rejects calls while it is open,
and tries the service again when it is half-open. Each of its four calls holds the
lock from its start to its end, so any interleaving is a list of calls with the
times at which they ran. Its counters and its time of the last failure are what
that list says.
-/

namespace MultichainIndexer

namespace CircuitBreaker

def errCircuitOpen : String := "circuit breaker is open"

inductive State
  | closed
  | opened
  | halfOpen
  deriving DecidableEq

structure Config where
  failureThreshold : Int := 0
  successThreshold : Int := 0
  openTimeout : Int := 0

/-- Durations are in nanoseconds. Before the first failure its time is Go's zero time. -/
structure Breaker where
  state : State := .closed
  failureCount : Int := 0
  successCount : Int := 0
  failureThreshold : Int
  successThreshold : Int
  openTimeout : Int
  lastFailureAt : Option Int := none

def new (cfg : Config) : Breaker where
  failureThreshold := if cfg.failureThreshold ≤ 0 then 5 else cfg.failureThreshold
  successThreshold := if cfg.successThreshold ≤ 0 then 2 else cfg.successThreshold
  openTimeout := if cfg.openTimeout ≤ 0 then 30000000000 else cfg.openTimeout

namespace Breaker

def setState (b : Breaker) (next : State) : Breaker :=
  if b.state = next then b
  else
    { b with
      state := next
      successCount := 0
      failureCount := if next = .closed then 0 else b.failureCount }

/-- `time.Since(b.lastFailureAt) > b.openTimeout`. -/
def timedOut (b : Breaker) (now : Int) : Bool :=
  match b.lastFailureAt with
  | none => true
  | some failedAt => b.openTimeout < now - failedAt

def allow (b : Breaker) (now : Int) : Breaker × Option String :=
  match b.state with
  | .closed => (b, none)
  | .opened => if b.timedOut now then (b.setState .halfOpen, none) else (b, some errCircuitOpen)
  | .halfOpen => (b, none)

def recordSuccess (b : Breaker) : Breaker :=
  if b.state = .halfOpen then
    let b := { b with failureCount := 0, successCount := b.successCount + 1 }
    if b.successCount ≥ b.successThreshold then b.setState .closed else b
  else { b with failureCount := 0 }

def recordFailure (b : Breaker) (now : Int) : Breaker :=
  let b := { b with failureCount := b.failureCount + 1, successCount := 0, lastFailureAt := some now }
  if b.state = .halfOpen then b.setState .opened
  else if b.state = .closed ∧ b.failureCount ≥ b.failureThreshold then b.setState .opened
  else b

def getState (b : Breaker) (now : Int) : Breaker × State :=
  let b := if b.state = .opened ∧ b.timedOut now then b.setState .halfOpen else b
  (b, b.state)

end Breaker

inductive Call
  | allow
  | recordSuccess
  | recordFailure
  | getState
  deriving DecidableEq

def Breaker.step (b : Breaker) (entry : Int × Call) : Breaker :=
  match entry.2 with
  | .allow => (b.allow entry.1).1
  | .recordSuccess => b.recordSuccess
  | .recordFailure => b.recordFailure entry.1
  | .getState => (b.getState entry.1).1

def run (cfg : Config) (calls : List (Int × Call)) : Breaker := calls.foldl Breaker.step (new cfg)

theorem run_concat (cfg : Config) (calls : List (Int × Call)) (entry : Int × Call) :
    run cfg (calls ++ [entry]) = (run cfg calls).step entry := List.foldl_append

section History
variable (calls : List (Int × Call))

def failures : Nat := calls.countP (·.2 = .recordFailure)

def successes : Nat := calls.countP (·.2 = .recordSuccess)

/-- The calls after the last success. What closes the breaker is a success too. -/
def sinceSuccess : List (Int × Call) := calls.rtakeWhile (·.2 ≠ .recordSuccess)

def lastFailure : Option Int := ((calls.filter (·.2 = .recordFailure)).getLast?).map Prod.fst

/-- The breaker has been half-open since a call took it there from open; then came `n` successes
and no failure. -/
def Probing (cfg : Config) (n : Int) : Prop :=
  ∃ pre entry post, calls = pre ++ entry :: post ∧ (run cfg pre).state = .opened ∧
    (∀ p, p <+: post → (run cfg (pre ++ entry :: p)).state = .halfOpen) ∧
    (successes post : Int) = n ∧ failures post = 0

end History

section Steps

/-- All that a call can do to the breaker. -/
inductive Effect (b : Breaker) : Int × Call → Breaker → Prop
  | reads {now : Int} {call : Call} (hread : call = .allow ∨ call = .getState) :
      Effect b (now, call) b
  | probes {now : Int} {call : Call} (hread : call = .allow ∨ call = .getState)
      (hopen : b.state = .opened) :
      Effect b (now, call) { b with state := .halfOpen, successCount := 0 }
  | clears {now : Int} (hstate : b.state ≠ .halfOpen) :
      Effect b (now, .recordSuccess) { b with failureCount := 0 }
  | counts {now : Int} (hstate : b.state = .halfOpen)
      (hfew : b.successCount + 1 < b.successThreshold) :
      Effect b (now, .recordSuccess)
        { b with failureCount := 0, successCount := b.successCount + 1 }
  | closes {now : Int} (hstate : b.state = .halfOpen)
      (henough : b.successThreshold ≤ b.successCount + 1) :
      Effect b (now, .recordSuccess)
        { b with state := .closed, failureCount := 0, successCount := 0 }
  | fails {now : Int} (hstate : b.state ≠ .halfOpen)
      (hfew : b.state = .closed → b.failureCount + 1 < b.failureThreshold) :
      Effect b (now, .recordFailure)
        { b with failureCount := b.failureCount + 1, successCount := 0, lastFailureAt := some now }
  | opens {now : Int} (hstate : b.state ≠ .opened) :
      Effect b (now, .recordFailure)
        { b with state := .opened, failureCount := b.failureCount + 1, successCount := 0
                 lastFailureAt := some now }

theorem effect_allow (b : Breaker) (now : Int) : Effect b (now, .allow) (b.allow now).1 := by
  unfold Breaker.allow
  split
  · exact .reads (.inl rfl)
  · rename_i hopen
    split
    · rw [Breaker.setState, if_neg (by simp [hopen])]
      exact .probes (.inl rfl) hopen
    · exact .reads (.inl rfl)
  · exact .reads (.inl rfl)

theorem effect_recordSuccess (b : Breaker) (now : Int) :
    Effect b (now, .recordSuccess) b.recordSuccess := by
  unfold Breaker.recordSuccess
  split
  · rename_i hstate
    dsimp only
    split
    · rename_i heno
      rw [Breaker.setState, if_neg (by simp [hstate])]
      exact .closes hstate heno
    · rename_i hfew
      exact .counts hstate (Int.not_le.mp hfew)
  · rename_i hstate
    exact .clears hstate

theorem effect_recordFailure (b : Breaker) (now : Int) :
    Effect b (now, .recordFailure) (b.recordFailure now) := by
  unfold Breaker.recordFailure
  dsimp only
  split
  · rename_i hstate
    rw [Breaker.setState, if_neg (by simp [hstate])]
    exact .opens (by simp [hstate])
  · rename_i hhalf
    split
    · rename_i hclo
      rw [Breaker.setState, if_neg (by simp [hclo.1])]
      exact .opens (by simp [hclo.1])
    · rename_i hfew
      exact .fails hhalf fun hclo => Int.not_le.mp fun hmany => hfew ⟨hclo, hmany⟩

theorem effect_getState (b : Breaker) (now : Int) :
    Effect b (now, .getState) (b.getState now).1 := by
  unfold Breaker.getState
  split
  · rename_i hopen
    rw [Breaker.setState, if_neg (by simp [hopen.1])]
    exact .probes (.inr rfl) hopen.1
  · exact .reads (.inr rfl)

theorem step_effect (b : Breaker) (entry : Int × Call) : Effect b entry (b.step entry) := by
  obtain ⟨now, call⟩ := entry
  cases call with
  | allow => exact effect_allow b now
  | recordSuccess => exact effect_recordSuccess b now
  | recordFailure => exact effect_recordFailure b now
  | getState => exact effect_getState b now

end Steps

section Invariant
variable {cfg : Config} {calls : List (Int × Call)} {entry : Int × Call}

theorem failures_concat (calls : List (Int × Call)) (entry : Int × Call) :
    failures (calls ++ [entry]) = failures calls + if entry.2 = .recordFailure then 1 else 0 := by
  simp [failures, List.countP_append, List.countP_cons]

theorem failures_sinceSuccess_concat (calls : List (Int × Call)) (entry : Int × Call) :
    failures (sinceSuccess (calls ++ [entry])) =
      if entry.2 = .recordSuccess then 0
      else failures (sinceSuccess calls) + if entry.2 = .recordFailure then 1 else 0 := by
  unfold sinceSuccess
  rw [List.rtakeWhile_concat]
  by_cases h : entry.2 = .recordSuccess
  · simp [h, failures]
  · simp [h, failures_concat]

theorem successes_concat (calls : List (Int × Call)) (entry : Int × Call) :
    successes (calls ++ [entry]) = successes calls + if entry.2 = .recordSuccess then 1 else 0 := by
  simp [successes, List.countP_append, List.countP_cons]

theorem lastFailure_concat (calls : List (Int × Call)) (entry : Int × Call) :
    lastFailure (calls ++ [entry]) =
      if entry.2 = .recordFailure then some entry.1 else lastFailure calls := by
  unfold lastFailure
  by_cases h : entry.2 = .recordFailure
  · simp [h]
  · simp [h]

/-- The breaker as the calls have made it. -/
structure Accounts (cfg : Config) (calls : List (Int × Call)) (b : Breaker) : Prop where
  failureThreshold : b.failureThreshold = (new cfg).failureThreshold
  successThreshold : b.successThreshold = (new cfg).successThreshold
  openTimeout : b.openTimeout = (new cfg).openTimeout
  counted : (failures (sinceSuccess calls) : Int) ≤ b.failureCount
  low : b.state = .closed → b.failureCount < b.failureThreshold
  last : b.lastFailureAt = lastFailure calls
  failed : b.state = .opened → (lastFailure calls).isSome
  probing : b.state = .halfOpen →
    Probing calls cfg b.successCount ∧ b.successCount < b.successThreshold

theorem failureThreshold_pos (cfg : Config) : 0 < (new cfg).failureThreshold := by
  unfold new
  dsimp only
  split <;> omega

theorem successThreshold_pos (cfg : Config) : 0 < (new cfg).successThreshold := by
  unfold new
  dsimp only
  split <;> omega

theorem accounts_new (cfg : Config) : Accounts cfg [] (new cfg) where
  failureThreshold := rfl
  successThreshold := rfl
  openTimeout := rfl
  counted := Int.le_refl 0
  low _ := failureThreshold_pos cfg
  last := rfl
  failed h := by cases h
  probing h := by cases h

/-- A call that finds and leaves the breaker half-open goes on with the probe. -/
theorem Probing.next {n : Int} (h : Probing calls cfg n)
    (hstate : (run cfg (calls ++ [entry])).state = .halfOpen)
    (hcall : entry.2 ≠ .recordFailure) :
    Probing (calls ++ [entry]) cfg (n + if entry.2 = .recordSuccess then 1 else 0) := by
  obtain ⟨pre, first, post, rfl, hopen, hhalf, rfl, hfail⟩ := h
  refine ⟨pre, first, post ++ [entry], by simp, hopen, ?_, ?_, ?_⟩
  · intro p hp
    rcases List.prefix_concat_iff.mp hp with rfl | hp
    · simpa using hstate
    · exact hhalf p hp
  · rw [successes_concat]
    split <;> rfl
  · rw [failures_concat, hfail, if_neg hcall]

theorem Accounts.step (h : Accounts cfg calls (run cfg calls)) (entry : Int × Call) :
    Accounts cfg (calls ++ [entry]) (run cfg (calls ++ [entry])) := by
  have heff := step_effect (run cfg calls) entry
  rw [← run_concat] at heff
  generalize hb : run cfg calls = b at h heff
  generalize hb' : run cfg (calls ++ [entry]) = b' at heff ⊢
  obtain ⟨hfai, hsuc, htim, hcou, hlow, hlast, hfail, hpro⟩ := h
  have hcount := failures_sinceSuccess_concat calls entry
  have hlast' := lastFailure_concat calls entry
  have hnext : ∀ n, Probing calls cfg n → b'.state = .halfOpen → entry.2 ≠ .recordFailure →
      Probing (calls ++ [entry]) cfg (n + if entry.2 = .recordSuccess then 1 else 0) :=
    fun n hn hstate hcall => hn.next (hb' ▸ hstate) hcall
  have hreads : ∀ call, call = Call.allow ∨ call = Call.getState →
      call ≠ .recordSuccess ∧ call ≠ .recordFailure := by
    intro call hcall
    rcases hcall with rfl | rfl
    · exact ⟨nofun, nofun⟩
    · exact ⟨nofun, nofun⟩
  cases heff with
  | reads hread =>
    obtain ⟨hs, hf⟩ := hreads _ hread
    rw [if_neg hs, if_neg hf, Nat.add_zero] at hcount
    rw [if_neg hf] at hlast'
    refine ⟨hfai, hsuc, htim, hcount ▸ hcou, hlow, hlast.trans hlast'.symm,
      hlast' ▸ hfail, ?_⟩
    intro hstate
    have hprobe := hnext _ (hpro hstate).1 hstate hf
    rw [if_neg hs, Int.add_zero] at hprobe
    exact ⟨hprobe, (hpro hstate).2⟩
  | probes hread hopen =>
    obtain ⟨hs, hf⟩ := hreads _ hread
    rw [if_neg hs, if_neg hf, Nat.add_zero] at hcount
    rw [if_neg hf] at hlast'
    refine ⟨hfai, hsuc, htim, hcount ▸ hcou, nofun, hlast.trans hlast'.symm,
      nofun, fun _ => ⟨?_, hsuc ▸ successThreshold_pos cfg⟩⟩
    refine ⟨calls, _, [], rfl, hb ▸ hopen, ?_, rfl, rfl⟩
    intro p hp
    rw [List.prefix_nil.mp hp, hb']
  | clears hstate =>
    rw [if_pos rfl] at hcount
    rw [if_neg nofun] at hlast'
    exact ⟨hfai, hsuc, htim, Int.ofNat_le.mpr hcount.le,
      fun _ => hfai ▸ failureThreshold_pos cfg, hlast.trans hlast'.symm, hlast' ▸ hfail,
      fun h => absurd h hstate⟩
  | counts hstate hfew =>
    rw [if_pos rfl] at hcount
    rw [if_neg nofun] at hlast'
    refine ⟨hfai, hsuc, htim, Int.ofNat_le.mpr hcount.le, ?_,
      hlast.trans hlast'.symm, hlast' ▸ hfail,
      fun _ => ⟨hnext _ (hpro hstate).1 hstate nofun, hfew⟩⟩
    intro hclo
    cases hstate.symm.trans hclo
  | closes hstate henough =>
    rw [if_pos rfl] at hcount
    rw [if_neg nofun] at hlast'
    exact ⟨hfai, hsuc, htim, Int.ofNat_le.mpr hcount.le,
      fun _ => hfai ▸ failureThreshold_pos cfg, hlast.trans hlast'.symm, nofun, nofun⟩
  | fails hstate hfew =>
    rw [if_neg nofun, if_pos rfl] at hcount
    rw [if_pos rfl] at hlast'
    refine ⟨hfai, hsuc, htim, ?_, hfew, hlast'.symm, fun _ => hlast' ▸ rfl,
      fun h => absurd h hstate⟩
    rw [hcount]
    push_cast
    omega
  | opens hstate =>
    rw [if_neg nofun, if_pos rfl] at hcount
    rw [if_pos rfl] at hlast'
    refine ⟨hfai, hsuc, htim, ?_, nofun, hlast'.symm, fun _ => hlast' ▸ rfl, nofun⟩
    rw [hcount]
    push_cast
    omega

theorem accounts_run (cfg : Config) (calls : List (Int × Call)) :
    Accounts cfg calls (run cfg calls) := by
  induction calls using List.reverseRecOn with
  | nil => exact accounts_new cfg
  | append_singleton calls entry ih => exact ih.step entry

/-- A rejection leaves the breaker as it is; it happens while the last failure is recent. -/
theorem allow_rejects_iff (h : Accounts cfg calls (run cfg calls)) (now : Int) :
    ((run cfg calls).allow now).2 = some errCircuitOpen ↔ (run cfg calls).state = .opened ∧
      ∃ failedAt, lastFailure calls = some failedAt ∧
        now - failedAt ≤ (new cfg).openTimeout := by
  unfold Breaker.allow Breaker.timedOut
  rw [h.last, h.openTimeout]
  cases hstate : (run cfg calls).state with
  | closed => simp
  | halfOpen => simp
  | opened =>
    obtain ⟨failedAt, hlast⟩ := Option.isSome_iff_exists.mp (h.failed hstate)
    simp only [hlast, decide_eq_true_eq, true_and, Option.some.injEq, exists_eq_left']
    split
    · rename_i hlate
      exact iff_of_false nofun (Int.not_le.mpr hlate)
    · rename_i hrec
      exact iff_of_true rfl (Int.not_lt.mp hrec)

end Invariant

/-- The breaker over every interleaving of its calls: closed with fewer failures than the threshold
since the last success, from half-open to closed by enough successes in a row, never straight from
open to closed, and rejecting while it is open and the last failure is recent. -/
theorem breaker_as_specified (cfg : Config) (calls : List (Int × Call)) :
    ((run cfg calls).state = .closed →
      (failures (sinceSuccess calls) : Int) < (new cfg).failureThreshold) ∧
    (∀ entry, (run cfg calls).state = .halfOpen →
      (run cfg (calls ++ [entry])).state = .closed → entry.2 = .recordSuccess ∧
        ∃ pre first post, calls = pre ++ first :: post ∧ (run cfg pre).state = .opened ∧
          (∀ p, p <+: post → (run cfg (pre ++ first :: p)).state = .halfOpen) ∧
          (successes (post ++ [entry]) : Int) = (new cfg).successThreshold ∧
          failures (post ++ [entry]) = 0) ∧
    (∀ entry, (run cfg calls).state = .opened →
      (run cfg (calls ++ [entry])).state ≠ .closed) ∧
    ∀ now, ((run cfg calls).allow now).2 = some errCircuitOpen ↔
      (run cfg calls).state = .opened ∧ ∃ failedAt, lastFailure calls = some failedAt ∧
        now - failedAt ≤ (new cfg).openTimeout := by
  have h := accounts_run cfg calls
  refine ⟨?_, ?_, ?_, allow_rejects_iff h⟩
  · intro hclo
    have hlow := h.low hclo
    rw [h.failureThreshold] at hlow
    exact Int.lt_of_le_of_lt h.counted hlow
  · intro entry hhalf hclo
    have heff := step_effect (run cfg calls) entry
    rw [run_concat] at hclo
    generalize (run cfg calls).step entry = b' at hclo heff
    cases heff with
    | closes hstate heno =>
      obtain ⟨⟨pre, first, post, hcalls, hopen, hall, hn, hfail⟩, hfew⟩ := h.probing hhalf
      refine ⟨rfl, pre, first, post, hcalls, hopen, hall, ?_, ?_⟩
      · rw [successes_concat, if_pos rfl, ← h.successThreshold]
        push_cast
        omega
      · rw [failures_concat, hfail, if_neg nofun]
    | reads hread => cases hhalf.symm.trans hclo
    | probes hread hopen => cases hclo
    | clears hstate => exact absurd hhalf hstate
    | counts hstate hfew => cases hstate.symm.trans hclo
    | fails hstate hfew => exact absurd hhalf hstate
    | opens hstate => cases hclo
  · intro entry hopen hclo
    have heff := step_effect (run cfg calls) entry
    rw [run_concat] at hclo
    generalize (run cfg calls).step entry = b' at hclo heff
    cases heff with
    | reads hread => cases hopen.symm.trans hclo
    | probes hread hopen => cases hclo
    | clears hstate => cases hopen.symm.trans hclo
    | counts hstate hfew => cases hopen.symm.trans hstate
    | closes hstate heno => cases hopen.symm.trans hstate
    | fails hstate hfew => cases hopen.symm.trans hclo
    | opens hstate => cases hclo

end CircuitBreaker

end MultichainIndexer
