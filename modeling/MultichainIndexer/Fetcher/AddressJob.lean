import MultichainIndexer.Signatures
import MultichainIndexer.Pipeline.Retry

/-!
# Per-address jobs

A job of one address asks the adapter for the signatures after the cursor, brings
them into canonical form, leaves out what the cursor has seen and fetches the
transactions of what is left. Both calls are repeated after a transient error with
half of the size. The size to begin with is stored for each address between the
jobs. Sizes are taken without overflow; `stored` is what the cache has for the
address, and a job whose entry has expired begins with none.
-/

namespace MultichainIndexer

open Retry Text

abbrev FetchJob.canonicalCursor (job : FetchJob) : Option String :=
  canonicalizeCursorValue job.chain job.cursorValue

namespace AddressJob

structure Settings where
  retryMaxAttempts : Int := 0
  adaptiveMinBatch : Int := 0
  boundaryOverlapLookahead : Int := 0

def effectiveRetryMaxAttempts (settings : Settings) : Nat :=
  if settings.retryMaxAttempts ≤ 0 then 4 else settings.retryMaxAttempts.toNat

def effectiveAdaptiveMinBatch (settings : Settings) : Int :=
  if settings.adaptiveMinBatch ≤ 0 then 1 else settings.adaptiveMinBatch

def effectiveBoundaryOverlapLookahead (settings : Settings) : Int :=
  if settings.boundaryOverlapLookahead ≤ 0 then 1 else settings.boundaryOverlapLookahead

def canonicalizeWatchedAddressIdentity (chainID : Chain) (address : String) : String :=
  let trimmed := trimSpace address
  if trimmed = "" then ""
  else if isEVMChain chainID then
    let withoutPrefix := withoutHexPrefix trimmed
    if withoutPrefix = "" then "" else canonicalHex trimmed withoutPrefix
  else trimmed

/-! ## The stored size -/

/-- The size that a job begins with. Every branch leaves it stored. -/
def resolveBatchSize (settings : Settings) (stored : Option Int) (hardCap : Int) : Int :=
  let hardCap := if hardCap ≤ 0 then 1 else hardCap
  match stored with
  | none => hardCap
  | some size =>
    if size ≤ 0 then hardCap
    else
      let size := if hardCap < size then hardCap else size
      if size < effectiveAdaptiveMinBatch settings then effectiveAdaptiveMinBatch settings else size

def setAdaptiveBatchSize (settings : Settings) (stored size : Int) : Int :=
  if size ≤ 0 then stored
  else if size < effectiveAdaptiveMinBatch settings then effectiveAdaptiveMinBatch settings
  else size

def updateAdaptiveBatchSize (settings : Settings) (stored hardCap requested usedSigBatch usedTxBatch :
    Int) (selectedCount : Nat) : Int :=
  let usedBatch := if usedTxBatch < usedSigBatch then usedTxBatch else usedSigBatch
  if usedBatch ≤ 0 then stored
  else if usedBatch < requested then setAdaptiveBatchSize settings stored usedBatch
  else
    let hardCap := if hardCap ≤ 0 then requested else hardCap
    let hardCap := if hardCap ≤ 0 then 1 else hardCap
    if selectedCount = requested ∧ requested < hardCap then
      let next := requested * 2
      setAdaptiveBatchSize settings stored (if hardCap < next then hardCap else next)
    else stored

def reduceBatchSize (settings : Settings) (current : Int) : Int :=
  let minBatch := effectiveAdaptiveMinBatch settings
  if current ≤ minBatch then current
  else
    let next := current / 2
    if next < minBatch then minBatch else next

/-! ## Attempts -/

/-- What the attempts meet, by their number: the answer to a call of a size, the end of the context
after it, and that of the sleep before the next one. -/
structure Calls (α : Type) where
  call : Nat → Int → Except Err α
  ctxErr : Nat → Option Err := fun _ => none
  sleepErr : Nat → Option Err := fun _ => none

/-- What the attempts came to, the size at the end, and what was recorded of each call: whether it
was an error. -/
structure Tried (α : Type) where
  result : Except Err α
  size : Int
  recorded : List Bool

/-- The loop of `fetchSignaturesWithRetry` and `fetchTransactionsWithRetry`, with a number of
attempts left; they are numbered from 1. -/
def retryFrom {α : Type} (settings : Settings) (stage : String) (calls : Calls α) :
    Nat → Int → Tried α
  | 0, currentBatch => ⟨.error ⟨"transient_recovery_exhausted stage=" ++ stage ++ " attempts=" ++
      toString (effectiveRetryMaxAttempts settings) ++ " reason=unset: %!w(<nil>)", [{}]⟩,
      currentBatch, []⟩
  | left + 1, currentBatch =>
    let attempts := effectiveRetryMaxAttempts settings
    let attempt := attempts - left
    match calls.call attempt currentBatch with
    | .ok answer => ⟨.ok answer, currentBatch, [false]⟩
    | .error err =>
      match calls.ctxErr attempt with
      | some e => ⟨.error e, currentBatch, [true]⟩
      | none =>
        let decision := classify err
        if !decision.isTransient then
          ⟨.error (err.wrap ("terminal_failure stage=" ++ stage ++ " attempt=" ++ toString attempt ++
            " reason=" ++ decision.reason ++ ": ")), currentBatch, [true]⟩
        else if left = 0 then
          ⟨.error (err.wrap ("transient_recovery_exhausted stage=" ++ stage ++ " attempts=" ++
            toString attempts ++ " reason=" ++ decision.reason ++ ": ")), currentBatch, [true]⟩
        else
          let nextBatch := reduceBatchSize settings currentBatch
          match calls.sleepErr attempt with
          | some e => ⟨.error e, nextBatch, [true]⟩
          | none =>
            let rest := retryFrom settings stage calls left nextBatch
            { rest with recorded := true :: rest.recorded }

def withRetry {α : Type} (settings : Settings) (stage : String) (calls : Calls α)
    (batchSize : Int) : Tried α :=
  retryFrom settings stage calls (effectiveRetryMaxAttempts settings) batchSize

/-! ## A job -/

/-- What a job meets: the circuit breaker, the adapter, by the number of the attempt, the context
and the channel of the batches. -/
structure Env where
  breakerErr : Option Err := none
  fetchNewSignatures : Nat → String → Option String → Int → Except Err (List SignatureInfo)
  fetchNewSignaturesWithCutoff :
    Option (Nat → String → Option String → Int → Int → Except Err (List SignatureInfo)) := none
  fetchTransactions : Nat → List String → Except Err (List String)
  signatureCtxErr : Nat → Option Err := fun _ => none
  signatureSleepErr : Nat → Option Err := fun _ => none
  transactionCtxErr : Nat → Option Err := fun _ => none
  transactionSleepErr : Nat → Option Err := fun _ => none
  sendErr : Option Err := none

def fetchNewSignatures (env : Env) (attempt : Nat) (address : String) (cursor : Option String)
    (batchSize cutoffSeq : Int) : Except Err (List SignatureInfo) :=
  if 0 < cutoffSeq then
    match env.fetchNewSignaturesWithCutoff with
    | some fetch => fetch attempt address cursor batchSize cutoffSeq
    | none => env.fetchNewSignatures attempt address cursor batchSize
  else env.fetchNewSignatures attempt address cursor batchSize

/-- The cutoff and the boundary cursor. -/
def passes (chainID : Chain) (cutoffSeq : Int) (cursor : Option String) (sig : SignatureInfo) :
    Bool :=
  let cursorIdentity := (cursor.map (canonicalSignatureIdentity chainID)).getD ""
  !(0 < cutoffSeq && cutoffSeq < sig.sequence) &&
    !(cursorIdentity != "" && canonicalSignatureIdentity chainID sig.hash == cursorIdentity)

def filterAndCanonicalizeSignatures (chainID : Chain) (sigs : List SignatureInfo) (cutoffSeq : Int)
    (cursor : Option String) : List SignatureInfo :=
  canonicalSignatures fetcherReplaces chainID (sigs.filter (passes chainID cutoffSeq cursor))

/-- What is taken of the signatures at the cursor's sequence, the hits, and of those above it, the
misses. `none` is the panic of `sigs[missStart:]`, whose `missStart` is -1 without misses. -/
def carryover (hits misses : List SignatureInfo) (requestedBatch : Int) :
    Option (List SignatureInfo) :=
  if requestedBatch ≤ misses.length then some (misses.take requestedBatch.toNat)
  else if misses.length + hits.length ≤ requestedBatch then some (hits ++ misses)
  else if misses = [] then none
  else
    -- the hits with the greatest hashes
    let cursorSlice := (hits.insertionSort fun a b => b.hash ≤ a.hash).take
      (requestedBatch - misses.length).toNat
    some ((cursorSlice ++ misses).insertionSort SignatureInfo.before)

/-- The signatures below the cursor's sequence are left out, unless there are no others. In the
sorted slice the hits and the misses are two segments. -/
def suppressPreCursorSequenceCarryover (sigs : List SignatureInfo) (previousCursorSequence
    requestedBatch : Int) : Option (List SignatureInfo) :=
  if sigs = [] ∨ previousCursorSequence ≤ 0 then some sigs
  else
    let sigs := sigs.insertionSort SignatureInfo.before
    let hits := sigs.filter fun sig => sig.sequence = previousCursorSequence
    let misses := sigs.filter fun sig => previousCursorSequence < sig.sequence
    if hits = [] ∧ misses = [] then some sigs
    else carryover hits misses (if requestedBatch ≤ 0 then 1 else requestedBatch)

def selectSignatures (job : FetchJob) (requestedBatch : Int) (sigs : List SignatureInfo) :
    Option (List SignatureInfo) :=
  (suppressPreCursorSequenceCarryover
    (filterAndCanonicalizeSignatures job.chain sigs job.fetchCutoffSeq
      job.canonicalCursor) job.cursorSequence requestedBatch).map
    (List.take requestedBatch.toNat)

def fetchAddress (job : FetchJob) : String :=
  let canonical := canonicalizeWatchedAddressIdentity job.chain job.address
  if canonical = "" then job.address else canonical

def signatureBatch (settings : Settings) (job : FetchJob) (requestedBatch : Int) : Int :=
  if job.canonicalCursor.isSome then
    requestedBatch + effectiveBoundaryOverlapLookahead settings
  else requestedBatch

def signatureCalls (env : Env) (job : FetchJob) : Calls (List SignatureInfo) where
  call attempt size := fetchNewSignatures env attempt (fetchAddress job)
    job.canonicalCursor size job.fetchCutoffSeq
  ctxErr := env.signatureCtxErr
  sleepErr := env.signatureSleepErr

def transactionCalls (env : Env) (sigs : List SignatureInfo) :
    Calls (List SignatureInfo × List String) where
  call attempt size :=
    (env.fetchTransactions attempt ((sigs.take size.toNat).map SignatureInfo.hash)).map
      fun rawTxs => (sigs.take size.toNat, rawTxs)
  ctxErr := env.transactionCtxErr
  sleepErr := env.transactionSleepErr

def fetchSignaturesWithRetry (settings : Settings) (env : Env) (job : FetchJob) (batchSize : Int) :
    Tried (List SignatureInfo) :=
  withRetry settings "fetcher.fetch_signatures" (signatureCalls env job) batchSize

def fetchTransactionsWithRetry (settings : Settings) (env : Env) (sigs : List SignatureInfo) :
    Tried (List SignatureInfo × List String) :=
  withRetry settings "fetcher.fetch_transactions" (transactionCalls env sigs) sigs.length

def rawBatch (job : FetchJob) (selectedSigs : List SignatureInfo) (rawTxs : List String)
    (newest : SignatureInfo) : RawBatch where
  chain := job.chain
  network := job.network
  address := job.address
  walletID := job.walletID
  orgID := job.orgID
  previousCursorValue := job.canonicalCursor
  previousCursorSequence := job.cursorSequence
  rawTransactions := rawTxs
  signatures := selectedSigs
  newCursorValue := some newest.hash
  newCursorSequence := newest.sequence

inductive Ended where
  | done
  | failed (err : Err)
  | panicked

/-- How a job ended, the batch that it sent, the size that it requested, the size that is stored
after it, and what was recorded of its calls. -/
structure Outcome where
  ended : Ended
  sent : Option RawBatch := none
  requested : Option Int
  stored : Option Int
  recorded : List Bool := []

def afterTransactions (settings : Settings) (env : Env) (job : FetchJob)
    (requestedBatch sigBatchSize : Int) (recorded : List Bool)
    (tried : Tried (List SignatureInfo × List String)) : Outcome :=
  match tried.result with
  | .error e =>
    { ended := .failed e, requested := some requestedBatch,
      stored := some (setAdaptiveBatchSize settings requestedBatch tried.size),
      recorded := recorded ++ tried.recorded }
  | .ok (selectedSigs, rawTxs) =>
    match selectedSigs.getLast? with
    | none =>
      { ended := .panicked, requested := some requestedBatch, stored := some requestedBatch,
        recorded := recorded ++ tried.recorded }
    | some newest =>
      match env.sendErr with
      | some e =>
        { ended := .failed e, requested := some requestedBatch, stored := some requestedBatch,
          recorded := recorded ++ tried.recorded }
      | none =>
        { ended := .done, sent := some (rawBatch job selectedSigs rawTxs newest),
          requested := some requestedBatch,
          stored := some (updateAdaptiveBatchSize settings requestedBatch job.batchSize
            requestedBatch sigBatchSize tried.size selectedSigs.length),
          recorded := recorded ++ tried.recorded }

def emitBatch (settings : Settings) (env : Env) (job : FetchJob) (requestedBatch sigBatchSize : Int)
    (recorded : List Bool) (sigs : List SignatureInfo) : Outcome :=
  afterTransactions settings env job requestedBatch sigBatchSize recorded
    (fetchTransactionsWithRetry settings env sigs)

def afterSignatures (settings : Settings) (env : Env) (job : FetchJob) (requestedBatch : Int)
    (tried : Tried (List SignatureInfo)) : Outcome :=
  match tried.result with
  | .error e =>
    { ended := .failed e, requested := some requestedBatch,
      stored := some (setAdaptiveBatchSize settings requestedBatch tried.size),
      recorded := tried.recorded }
  | .ok [] =>
    { ended := .done, requested := some requestedBatch, stored := some requestedBatch,
      recorded := tried.recorded }
  | .ok (sig :: sigs) =>
    match selectSignatures job requestedBatch (sig :: sigs) with
    | none =>
      { ended := .panicked, requested := some requestedBatch, stored := some requestedBatch,
        recorded := tried.recorded }
    | some [] =>
      { ended := .done, requested := some requestedBatch, stored := some requestedBatch,
        recorded := tried.recorded }
    | some (first :: rest) =>
      emitBatch settings env job requestedBatch tried.size tried.recorded (first :: rest)

def processJob (settings : Settings) (env : Env) (job : FetchJob) (stored : Option Int) : Outcome :=
  match env.breakerErr with
  | some e =>
    { ended := .failed (transient (e.wrap "rpc circuit breaker open: ")), requested := none, stored }
  | none =>
    let requestedBatch := resolveBatchSize settings stored job.batchSize
    afterSignatures settings env job requestedBatch
      (fetchSignaturesWithRetry settings env job (signatureBatch settings job requestedBatch))

section Sizes
variable (settings : Settings)

theorem effectiveRetryMaxAttempts_pos : 0 < effectiveRetryMaxAttempts settings := by
  unfold effectiveRetryMaxAttempts
  split
  · decide
  · omega

theorem effectiveAdaptiveMinBatch_pos : 0 < effectiveAdaptiveMinBatch settings := by
  unfold effectiveAdaptiveMinBatch
  split
  · decide
  · omega

theorem reduceBatchSize_le (current : Int) : reduceBatchSize settings current ≤ current := by
  have hmin := effectiveAdaptiveMinBatch_pos settings
  unfold reduceBatchSize
  simp only
  split
  · exact Int.le_refl current
  · split
    · omega
    · omega

theorem resolveBatchSize_pos (stored : Option Int) (hardC : Int) :
    0 < resolveBatchSize settings stored hardC := by
  have hmin := effectiveAdaptiveMinBatch_pos settings
  have hcap : 0 < if hardC ≤ 0 then 1 else hardC := by
    split
    · decide
    · omega
  unfold resolveBatchSize
  cases stored with
  | none => exact hcap
  | some size =>
    simp only
    split_ifs <;> omega

theorem resolveBatchSize_min (stored : Option Int) {hardC : Int}
    (h : effectiveAdaptiveMinBatch settings ≤ hardC) :
    effectiveAdaptiveMinBatch settings ≤ resolveBatchSize settings stored hardC := by
  have hmin := effectiveAdaptiveMinBatch_pos settings
  unfold resolveBatchSize
  cases stored with
  | none =>
    simp only
    split_ifs <;> omega
  | some size =>
    simp only
    split_ifs <;> omega

theorem le_signatureBatch (job : FetchJob) (requestedBatch : Int) :
    requestedBatch ≤ signatureBatch settings job requestedBatch := by
  unfold signatureBatch effectiveBoundaryOverlapLookahead
  split_ifs <;> omega

end Sizes

section Loop
variable {α : Type} {settings : Settings} {stage : String} {calls calls' : Calls α}

/-- After an attempt comes another one: its error is transient, the context goes on and attempts
are left. -/
def Retried (settings : Settings) (calls : Calls α) (attempt : Nat) (size : Int) : Prop :=
  ∃ err, calls.call attempt size = .error err ∧ calls.ctxErr attempt = none ∧
    (classify err).isTransient = true ∧ attempt ≠ effectiveRetryMaxAttempts settings

theorem Retried.not_ok {attempt : Nat} {size : Int} (h : Retried settings calls attempt size)
    (answer : α) : calls.call attempt size ≠ .ok answer := by
  obtain ⟨err, hcall, _⟩ := h
  rw [hcall]
  nofun

theorem retryFrom_succ (stage : String) (calls : Calls α) {left attempt : Nat} (size : Int)
    (hnumber : attempt + left = effectiveRetryMaxAttempts settings) :
    (∃ answer, calls.call attempt size = .ok answer ∧
      retryFrom settings stage calls (left + 1) size = ⟨.ok answer, size, [false]⟩) ∨
    (∃ err e, calls.call attempt size = .error err ∧ ¬ Retried settings calls attempt size ∧
      retryFrom settings stage calls (left + 1) size = ⟨.error e, size, [true]⟩) ∨
    (∃ e, Retried settings calls attempt size ∧ calls.sleepErr attempt = some e ∧
      retryFrom settings stage calls (left + 1) size =
        ⟨.error e, reduceBatchSize settings size, [true]⟩) ∨
    (Retried settings calls attempt size ∧ calls.sleepErr attempt = none ∧
      retryFrom settings stage calls (left + 1) size =
        { retryFrom settings stage calls left (reduceBatchSize settings size) with
          recorded := true ::
            (retryFrom settings stage calls left (reduceBatchSize settings size)).recorded }) := by
  have hatt : effectiveRetryMaxAttempts settings - left = attempt := by omega
  rw [retryFrom]
  simp only [hatt]
  cases hcall : calls.call attempt size with
  | ok answer => exact .inl ⟨answer, rfl, rfl⟩
  | error err =>
    right
    cases hctx : calls.ctxErr attempt with
    | some e =>
      refine .inl ⟨err, e, rfl, ?_, rfl⟩
      rintro ⟨err', -, hnone, -⟩
      rw [hctx] at hnone
      cases hnone
    | none =>
      by_cases htra : (classify err).isTransient = true
      · simp only [htra, Bool.not_true, Bool.false_eq_true, if_false]
        by_cases hleft : left = 0
        · rw [if_pos hleft]
          refine .inl ⟨err, _, rfl, ?_, rfl⟩
          rintro ⟨err', -, -, -, hmore⟩
          omega
        · rw [if_neg hleft]
          have hret : Retried settings calls attempt size :=
            ⟨err, hcall, hctx, htra, by omega⟩
          cases hsleep : calls.sleepErr attempt with
          | some e => exact .inr (.inl ⟨e, hret, rfl, rfl⟩)
          | none => exact .inr (.inr ⟨hret, rfl, rfl⟩)
      · rw [Bool.not_eq_true] at htra
        simp only [htra, Bool.not_false, if_true]
        refine .inl ⟨err, _, rfl, ?_, rfl⟩
        rintro ⟨err', hcall', -, htrue, -⟩
        rw [hcall] at hcall'
        cases hcall'
        rw [htra] at htrue
        cases htrue

/-- The attempts from one of a number and a size end in an answer, with a last size. -/
inductive Succeeds (settings : Settings) (calls : Calls α) (answer : α) : Nat → Int → Int → Prop where
  | here {attempt : Nat} {size : Int} : calls.call attempt size = .ok answer →
      Succeeds settings calls answer attempt size size
  | again {attempt : Nat} {size last : Int} : Retried settings calls attempt size →
      calls.sleepErr attempt = none →
      Succeeds settings calls answer (attempt + 1) (reduceBatchSize settings size) last →
      Succeeds settings calls answer attempt size last

section Succeeds
variable {answer : α} {attempt : Nat} {size last : Int}

theorem Succeeds.call (h : Succeeds settings calls answer attempt size last) :
    ∃ attempt', calls.call attempt' last = .ok answer := by
  induction h with
  | here hcall => exact ⟨_, hcall⟩
  | again _ _ _ ih => exact ih

theorem Succeeds.of_call {answer' : α} (h : Succeeds settings calls answer attempt size last)
    (hcall : calls.call attempt size = .ok answer') : last = size := by
  cases h with
  | here => rfl
  | again hret => exact absurd hcall (hret.not_ok answer')

theorem succeeds_of_ok {left : Nat} (hnum : attempt + left = effectiveRetryMaxAttempts settings + 1)
    (h : (retryFrom settings stage calls left size).result = .ok answer) :
    Succeeds settings calls answer attempt size (retryFrom settings stage calls left size).size := by
  induction left generalizing attempt size with
  | zero => cases h
  | succ left ih =>
    obtain ⟨answer', hcall, heq⟩ | ⟨err, e, _, _, heq⟩ | ⟨e, _, _, heq⟩ | ⟨hret, hsleep, heq⟩ :=
      retryFrom_succ stage calls size
        (Nat.succ.inj hnum : attempt + left = effectiveRetryMaxAttempts settings)
    · rw [heq] at h ⊢
      cases h
      exact .here hcall
    · rw [heq] at h
      cases h
    · rw [heq] at h
      cases h
    · rw [heq] at h ⊢
      exact .again hret hsleep (ih (by omega) h)

theorem withRetry_ok (h : (withRetry settings stage calls size).result = .ok answer) :
    Succeeds settings calls answer 1 size (withRetry settings stage calls size).size :=
  succeeds_of_ok (Nat.add_comm 1 _) h

end Succeeds

/-- Two answers are the same error, or both come with related results. -/
inductive Alike (R : α → α → Prop) : Except Err α → Except Err α → Prop where
  | error (e : Err) : Alike R (.error e) (.error e)
  | ok {a b : α} (h : R a b) : Alike R (.ok a) (.ok b)

/-- Loops whose calls answer alike come to results that are alike. -/
theorem retryFrom_alike {R : α → α → Prop}
    (hcall : ∀ attempt size, Alike R (calls.call attempt size) (calls'.call attempt size))
    (hctx : calls'.ctxErr = calls.ctxErr) (hsleep : calls'.sleepErr = calls.sleepErr)
    (stage : String) (left : Nat) (size : Int) :
    Alike R (retryFrom settings stage calls left size).result
        (retryFrom settings stage calls' left size).result ∧
      (retryFrom settings stage calls' left size).size =
        (retryFrom settings stage calls left size).size ∧
      (retryFrom settings stage calls' left size).recorded =
        (retryFrom settings stage calls left size).recorded := by
  induction left generalizing size with
  | zero => exact ⟨.error _, rfl, rfl⟩
  | succ left ih =>
    have hcall := hcall (effectiveRetryMaxAttempts settings - left) size
    rw [retryFrom, retryFrom, hctx, hsleep]
    simp only
    revert hcall
    generalize calls.call (effectiveRetryMaxAttempts settings - left) size = answer
    generalize calls'.call (effectiveRetryMaxAttempts settings - left) size = answer'
    intro hcall
    cases hcall with
    | ok h => exact ⟨.ok h, rfl, rfl⟩
    | error err =>
      simp only
      split
      · exact ⟨.error _, rfl, rfl⟩
      · split_ifs
        · exact ⟨.error _, rfl, rfl⟩
        · exact ⟨.error _, rfl, rfl⟩
        · split
          · exact ⟨.error _, rfl, rfl⟩
          · obtain ⟨hres, hsize, hrec⟩ := ih (reduceBatchSize settings size)
            exact ⟨hres, hsize, congrArg (true :: ·) hrec⟩

end Loop

end AddressJob

end MultichainIndexer
