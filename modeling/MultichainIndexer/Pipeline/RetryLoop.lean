import MultichainIndexer.Pipeline.CommitOutcome
import MultichainIndexer.Pipeline.Retry

/-!
# Attempts at a batch

`processBatchWithRetry` attempts a batch again while its error is transient. A
call of an attempt may fail before the commit, and the commit may fail whether or
not the database has applied the transaction. The commit of a batch that does not
roll back leaves no transient error: an ambiguous one is settled by the watermark
or becomes terminal, and the text that is put in front of the others does not make
them transient. So an attempt that has come to its commit is the last one.
-/

namespace MultichainIndexer

open Text Retry

namespace RetryLoop

/-- What an attempt meets: the failure of a call before the commit, the commit, the watermark read
after an ambiguous one, the end of the context, and that of the sleep before the next attempt. -/
structure AttemptEnv where
  env : IngestEnv := {}
  callErr : Option Err := none
  commit : CommitOutcome Err := .acked
  watermark : Except Err (Option Int) := .ok none
  ctxErr : Option Err := none
  sleepErr : Option Err := none

/-- Errors that can be classified. -/
def errOps : ErrorOps Err where
  text := Err.text
  wrap := Err.wrap
  terminal := terminal

def isAmbiguous (commitErr : Err) : Bool :=
  isAmbiguousCommitAckError (fun _ => (classify commitErr).isTransient) commitErr.text

/-- An attempt: what it returned, its commit if it has come to it, and what is stored then. -/
structure Attempted where
  result : Except Err Unit
  commit : Option (CommitOutcome Err)
  stored : Db

def attempt (a : AttemptEnv) (batch : NormalizedBatch) (db : Db) : Attempted :=
  match a.callErr with
  | some e => ⟨.error e, none, db⟩
  | none =>
    match processBatch a.env batch db with
    | .error text => ⟨.error ⟨text, [{}]⟩, none, db⟩
    | .ok written =>
      let settled := settleCommit errOps isAmbiguous (fun _ => a.watermark) a.commit
        (canonicalizeCursors batch) written db
      ⟨settled.1, some a.commit, settled.2⟩

/-- A run of the loop: what it returned, the commits of its attempts in order, and the database. -/
structure Outcome where
  result : Except Err Unit
  commits : List (Option (CommitOutcome Err))
  stored : Db

def stage : String := "ingester.process_batch"

def effectiveRetryMaxAttempts (retryMaxAttempts : Int) : Nat :=
  if retryMaxAttempts ≤ 0 then 1 else retryMaxAttempts.toNat

/-- The loop with a number of attempts left; they are numbered from 1. -/
def retryFrom (maxAttempts : Nat) (attempts : Nat → AttemptEnv) (batch : NormalizedBatch) :
    Nat → Db → Outcome
  | 0, db => ⟨.error ⟨"transient_recovery_exhausted stage=" ++ stage ++ " attempts=" ++
      toString maxAttempts ++ " reason=unset: %!w(<nil>)", [{}]⟩, [], db⟩
  | left + 1, db =>
    let number := maxAttempts - left
    let tried := attempt (attempts number) batch db
    match tried.result with
    | .ok () => ⟨.ok (), [tried.commit], tried.stored⟩
    | .error err =>
      match (attempts number).ctxErr with
      | some e => ⟨.error e, [tried.commit], tried.stored⟩
      | none =>
        let decision := classify err
        if !decision.isTransient then
          ⟨.error (err.wrap ("terminal_failure stage=" ++ stage ++ " attempt=" ++ toString number ++
            " reason=" ++ decision.reason ++ ": ")), [tried.commit], tried.stored⟩
        else if left = 0 then
          ⟨.error (err.wrap ("transient_recovery_exhausted stage=" ++ stage ++ " attempts=" ++
            toString maxAttempts ++ " reason=" ++ decision.reason ++ ": ")),
            [tried.commit], tried.stored⟩
        else
          match (attempts number).sleepErr with
          | some e => ⟨.error e, [tried.commit], tried.stored⟩
          | none =>
            let rest := retryFrom maxAttempts attempts batch left tried.stored
            { rest with commits := tried.commit :: rest.commits }

def processBatchWithRetry (retryMaxAttempts : Int) (attempts : Nat → AttemptEnv)
    (batch : NormalizedBatch) (db : Db) : Outcome :=
  let maxAttempts := effectiveRetryMaxAttempts retryMaxAttempts
  retryFrom maxAttempts attempts batch maxAttempts db

section Attempt
variable {a : AttemptEnv} {batch : NormalizedBatch} {db : Db} {watermark : Except Err (Option Int)}

theorem reconcile_terminal {commitErr e : Err}
    (h : reconcileBlockScanCommit errOps watermark batch commitErr = .error e) :
    (classify e).isTransient = false := by
  unfold reconcileBlockScanCommit at h
  split at h
  · cases h
    exact classify_terminal _
  · split_ifs at h
    cases h
    exact classify_terminal _

theorem reconcile_ne_false {commitErr : Err} :
    reconcileBlockScanCommit errOps watermark batch commitErr ≠ .ok false := by
  unfold reconcileBlockScanCommit
  split
  · nofun
  · split_ifs
    · nofun
    · nofun

theorem finishCommit_terminal {err e : Err}
    (h : finishCommit errOps (isAmbiguous err) watermark batch err = .error e) :
    (classify e).isTransient = false := by
  unfold finishCommit reconcileAmbiguousCommitOutcome at h
  cases hamb : isAmbiguous err with
  | true =>
    rw [hamb, if_pos rfl] at h
    split at h
    · rename_i hrec
      cases h
      exact reconcile_terminal hrec
    · cases h
    · rename_i hrec
      exact absurd hrec reconcile_ne_false
  | false =>
    rw [hamb, if_neg Bool.false_ne_true] at h
    cases h
    exact classify_wrap_commit (Bool.or_eq_false_iff.mp hamb).1

theorem attempt_commit (hback : rollsBack (canonicalizeCursors batch) = false)
    {c : CommitOutcome Err} (hcom : (attempt a batch db).commit = some c) {e : Err}
    (hres : (attempt a batch db).result = .error e) : (classify e).isTransient = false := by
  unfold attempt at hcom hres
  split at hcom
  · cases hcom
  · rename_i hcall
    simp only [hcall] at hres
    split at hcom
    · cases hcom
    · rename_i written hproc
      simp only [hproc, settleCommit, hback, Bool.false_and] at hres
      split at hres
      · cases hres
      · exact finishCommit_terminal hres

theorem attempt_stored (a : AttemptEnv) (batch : NormalizedBatch) (db : Db) :
    (attempt a batch db).stored = db ∨
      ∃ written, processBatch a.env batch db = .ok written ∧ (attempt a batch db).stored = written ∧
        ∃ c, (attempt a batch db).commit = some c := by
  unfold attempt
  split
  · exact .inl rfl
  · split
    · exact .inl rfl
    · rename_i written hproc
      dsimp only
      rw [settleCommit_stored]
      cases a.commit.applied with
      | false => exact .inl rfl
      | true => exact .inr ⟨written, hproc, rfl, _, rfl⟩

end Attempt

section Loop
variable (maxAttempts : Nat) (attempts : Nat → AttemptEnv) {batch : NormalizedBatch}

/-- One turn of the loop ends it, or is followed by the rest after a transient error. -/
theorem retryFrom_succ (batch : NormalizedBatch) (left : Nat) (db : Db) :
    let tried := attempt (attempts (maxAttempts - left)) batch db
    let run := retryFrom maxAttempts attempts batch (left + 1) db
    (run.commits = [tried.commit] ∧ run.stored = tried.stored) ∨
      ∃ e, tried.result = .error e ∧ (classify e).isTransient = true ∧
        run.commits = tried.commit ::
          (retryFrom maxAttempts attempts batch left tried.stored).commits ∧
        run.stored = (retryFrom maxAttempts attempts batch left tried.stored).stored := by
  intro tried run
  simp only [run, retryFrom]
  split
  · exact .inl ⟨rfl, rfl⟩
  · rename_i e hres
    split
    · exact .inl ⟨rfl, rfl⟩
    · split_ifs with hter hlast
      · exact .inl ⟨rfl, rfl⟩
      · exact .inl ⟨rfl, rfl⟩
      · split
        · exact .inl ⟨rfl, rfl⟩
        · refine .inr ⟨e, hres, ?_, rfl, rfl⟩
          simpa using hter

/-- In a run the commit is called in the last attempt only, and what is stored is the database as
it was or the batch written to it. -/
structure CommitsLast (attempts : Nat → AttemptEnv) (batch : NormalizedBatch) (db : Db)
    (run : Outcome) : Prop where
  last : ∀ (i : Nat) c, run.commits[i]? = some (some c) → i + 1 = run.commits.length
  stored : run.stored = db ∨ ∃ n written,
    processBatch (attempts n).env batch db = .ok written ∧ run.stored = written

theorem retryFrom_commitsLast (hback : rollsBack (canonicalizeCursors batch) = false) (left : Nat)
    (db : Db) :
    CommitsLast attempts batch db (retryFrom maxAttempts attempts batch left db) := by
  induction left generalizing db with
  | zero =>
    refine ⟨?_, .inl rfl⟩
    intro i c hi
    cases hi
  | succ left ih =>
    have hsto := attempt_stored (attempts (maxAttempts - left)) batch db
    rcases retryFrom_succ maxAttempts attempts batch left db with
      ⟨hcom, hend⟩ | ⟨e, hres, htra, hcom, hend⟩
    · refine ⟨?_, ?_⟩
      · intro i c hi
        rw [hcom] at hi ⊢
        obtain ⟨hlt, -⟩ := List.getElem?_eq_some_iff.mp hi
        rw [List.length_singleton] at hlt ⊢
        omega
      · rw [hend]
        rcases hsto with hsame | ⟨written, hproc, hwri, -⟩
        · exact .inl hsame
        · exact .inr ⟨_, written, hproc, hwri⟩
    · -- the error is transient, so this attempt has not come to its commit
      have hnone : (attempt (attempts (maxAttempts - left)) batch db).commit = none := by
        cases hcomm : (attempt (attempts (maxAttempts - left)) batch db).commit with
        | none => rfl
        | some c =>
          have hter := attempt_commit hback hcomm hres
          exact absurd (htra.symm.trans hter) nofun
      have hsame : (attempt (attempts (maxAttempts - left)) batch db).stored = db := by
        rcases hsto with hsame | ⟨-, -, -, c, hsome⟩
        · exact hsame
        · exact absurd (hnone.symm.trans hsome) nofun
      rw [hsame] at hcom hend
      obtain ⟨hlast, hafter⟩ := ih db
      refine ⟨?_, ?_⟩
      · intro i c hi
        rw [hcom] at hi ⊢
        cases i with
        | zero => exact absurd ((Option.some.inj hi).symm.trans hnone) nofun
        | succ i =>
          rw [List.length_cons, hlast i c hi]
      · rw [hend]
        exact hafter

end Loop

theorem countP_le_one_of_last {α : Type} {p : α → Bool} {l : List α}
    (h : ∀ (i : Nat) x, l[i]? = some x → p x = true → i + 1 = l.length) : l.countP p ≤ 1 := by
  induction l with
  | nil => exact Nat.zero_le 1
  | cons x l ih =>
    cases l with
    | nil => exact List.countP_le_length
    | cons y l =>
      have hx : p x = false := by
        by_contra hyes
        have hlen := h 0 x rfl (Bool.not_eq_false _ ▸ hyes)
        simp at hlen
      rw [List.countP_cons_of_neg (by simp [hx])]
      apply ih
      intro i z hi hz
      have hlen := h (i + 1) z hi hz
      rw [List.length_cons] at hlen
      omega

/-- The transaction of a batch without drift is applied at most once, and no attempt follows one
whose commit has failed. -/
theorem processBatchWithRetry_applies_once {batch : NormalizedBatch}
    (hdrift : isCanonicalityDrift (canonicalizeCursors batch) = false) (retryMaxAttempts : Int)
    (attempts : Nat → AttemptEnv) (db : Db) :
    let run := processBatchWithRetry retryMaxAttempts attempts batch db
    run.commits.countP (fun c => c.any CommitOutcome.applied) ≤ 1 ∧
      (∀ (i : Nat) err applied, run.commits[i]? = some (some (.failed err applied)) →
        i + 1 = run.commits.length) ∧
      (run.stored = db ∨ ∃ n written, processBatch (attempts n).env batch db = .ok written ∧
        run.stored = written) := by
  intro run
  have hback : rollsBack (canonicalizeCursors batch) = false := by
    rw [rollsBack, hdrift, Bool.false_and]
  obtain ⟨hlast, hsto⟩ := retryFrom_commitsLast (effectiveRetryMaxAttempts retryMaxAttempts)
    attempts hback (effectiveRetryMaxAttempts retryMaxAttempts) db
  refine ⟨?_, fun i err applied hi => hlast i _ hi, hsto⟩
  exact countP_le_one_of_last fun i c hi hc => by
    cases c with
    | none => cases hc
    | some c => exact hlast i c hi

def brokenPipe (number : Nat) : AttemptEnv :=
  if number = 1 then { callErr := some ⟨"begin tx: connection refused", [{}]⟩ }
  else { commit := .failed ⟨"write: broken pipe", [{}]⟩ true, watermark := .ok (some 10) }

def emptyBatch : NormalizedBatch where
  chain := .ethereum
  network := .mainnet
  newCursorSequence := 10

theorem processBatchWithRetry_applies_once_brokenPipe :
    (processBatchWithRetry 3 brokenPipe emptyBatch {}).commits.map Option.isSome = [false, true] ∧
      (processBatchWithRetry 3 brokenPipe emptyBatch {}).commits.countP
        (fun c => c.any CommitOutcome.applied) ≤ 1 :=
  ⟨by decide +kernel, (processBatchWithRetry_applies_once (by decide +kernel) 3 brokenPipe {}).1⟩

end RetryLoop

end MultichainIndexer
