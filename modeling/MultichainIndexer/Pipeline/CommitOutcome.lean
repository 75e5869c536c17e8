import MultichainIndexer.Pipeline.Watermark

/-!
# Commits without an acknowledgement

A commit can fail after the database has applied it. Where the error leaves that
open, the ingester reads the watermark and takes the batch for committed if the
watermark has reached its cursor. The batch itself is not looked for: a
watermark that was there before the commit answers for a batch that is lost.
-/

namespace MultichainIndexer

open Text

/-- What a commit returns, and whether the database applied it all the same. -/
inductive CommitOutcome (ε : Type) where
  | acked
  | failed (err : ε) (applied : Bool)

def CommitOutcome.applied {ε : Type} : CommitOutcome ε → Bool
  | .acked => true
  | .failed _ applied => applied

/-- What is done with errors: a text is put in front of one, and one is made terminal. -/
structure ErrorOps (ε : Type) where
  text : ε → String
  wrap : String → ε → ε
  terminal : ε → ε

/-- A commit, the classification of its error as transient, and the failure of the watermark read
that follows an ambiguous one. -/
structure CommitEnv where
  outcome : CommitOutcome String
  isTransient : String → Bool := fun _ => false
  probeError : Option String := none

def ambiguousCommitTokens : List String :=
  ["driver: bad connection", "connection reset", "broken pipe", "unexpected eof", "eof",
    "i/o timeout", "timed out", "timeout", "network is unreachable", "connection aborted",
    "connection closed", "transport is closing"]

def isAmbiguousCommitAckError (isTransient : String → Bool) (err : String) : Bool :=
  isTransient err || ambiguousCommitTokens.any (containsText (toLower err))

def ambiguityUnresolved (batch : NormalizedBatch) (reason detail : String) : String :=
  "commit_ambiguity_unresolved chain=" ++ batch.chain.text ++ " network=" ++ batch.network.text ++
    " reason=" ++ reason ++ " expected_seq=" ++ toString batch.newCursorSequence ++ detail

section Settle
variable {ε : Type} (ops : ErrorOps ε)

def reconcileBlockScanCommit (watermark : Except ε (Option Int)) (batch : NormalizedBatch)
    (commitErr : ε) : Except ε Bool :=
  match watermark with
  | .error e => .error (ops.terminal (ops.wrap (ambiguityUnresolved batch "watermark_probe_failed"
      (" commit_err=" ++ ops.text commitErr ++ ": ")) e))
  | .ok watermark =>
    if watermark.any fun w => batch.newCursorSequence ≤ w then .ok true
    else .error (ops.terminal (ops.wrap (ambiguityUnresolved batch "watermark_mismatch"
      (" observed_watermark=" ++ toString (watermark.getD (-1)) ++ " commit_err=")) commitErr))

def reconcileAmbiguousCommitOutcome (ambiguous : Bool) (watermark : Except ε (Option Int))
    (batch : NormalizedBatch) (commitErr : ε) : Except ε Bool :=
  if ambiguous then reconcileBlockScanCommit ops watermark batch commitErr else .ok false

/-- The end of `writeBulkAndCommit`, once the database has applied the transaction or not. -/
def finishCommit (ambiguous : Bool) (watermark : Except ε (Option Int)) (batch : NormalizedBatch)
    (err : ε) : Except ε Unit :=
  match reconcileAmbiguousCommitOutcome ops ambiguous watermark batch err with
  | .error e => .error e
  | .ok true => .ok ()
  | .ok false => .error (ops.wrap "commit: " err)

/-- What `processBatch` returns after its commit, and what is stored then. -/
def settleCommit (ambiguous : ε → Bool) (watermark : Db → Except ε (Option Int))
    (outcome : CommitOutcome ε) (batch : NormalizedBatch) (written db : Db) : Except ε Unit × Db :=
  match outcome with
  | .acked => (.ok (), written)
  | .failed err applied =>
    let stored := if applied then written else db
    if rollsBack batch && !shouldContinueCompetingBranchReplay batch then
      (.error (ops.wrap "commit rollback path: " err), stored)
    else (finishCommit ops (ambiguous err) (watermark stored) batch err, stored)

theorem settleCommit_stored (ambiguous : ε → Bool) (watermark : Db → Except ε (Option Int))
    (outcome : CommitOutcome ε) (batch : NormalizedBatch) (written db : Db) :
    (settleCommit ops ambiguous watermark outcome batch written db).2 =
      if outcome.applied then written else db := by
  cases outcome with
  | acked => rfl
  | failed err applied =>
    unfold settleCommit
    cases rollsBack batch && !shouldContinueCompetingBranchReplay batch
    all_goals rfl

end Settle

def textOps : ErrorOps String where
  text err := err
  wrap pre err := pre ++ err
  terminal err := err

def CommitEnv.watermark (c : CommitEnv) (batch : NormalizedBatch) (db : Db) :
    Except String (Option Int) :=
  match c.probeError with
  | some e => .error e
  | none => .ok (getWatermark batch.chain batch.network db)

/-- `processBatch` with its commit: what it returns and what is stored afterwards. -/
def attemptBatch (env : IngestEnv) (c : CommitEnv) (batch : NormalizedBatch) (db : Db) :
    Except String Unit × Db :=
  match processBatch env batch db with
  | .error e => (.error e, db)
  | .ok written => settleCommit textOps (isAmbiguousCommitAckError c.isTransient)
      (c.watermark batch) c.outcome (canonicalizeCursors batch) written db

section Outcome
variable {env : IngestEnv} {c : CommitEnv} {batch : NormalizedBatch} {db written : Db}
variable {err : String} {applied : Bool}

theorem finishCommit_ok {stored : Db} :
    finishCommit textOps true (c.watermark batch stored) (canonicalizeCursors batch) err = .ok () ↔
      c.probeError = none ∧ ∃ w, getWatermark batch.chain batch.network stored = some w ∧
        batch.newCursorSequence ≤ w := by
  unfold finishCommit reconcileAmbiguousCommitOutcome reconcileBlockScanCommit CommitEnv.watermark
  rw [if_pos rfl]
  cases c.probeError with
  | some e => simp
  | none =>
    cases getWatermark batch.chain batch.network stored with
    | none => simp
    | some w =>
      by_cases hle : batch.newCursorSequence ≤ w
      · simp [hle, canonicalizeCursors]
      · simp [hle, canonicalizeCursors]

theorem attemptBatch_failed (hback : rollsBack (canonicalizeCursors batch) = false)
    (hproc : processBatch env batch db = .ok written) (hout : c.outcome = .failed err applied)
    (hamb : isAmbiguousCommitAckError c.isTransient err = true) :
    attemptBatch env c batch db =
      (finishCommit textOps true (c.watermark batch (if applied then written else db))
        (canonicalizeCursors batch) err, if applied then written else db) := by
  simp [attemptBatch, settleCommit, hproc, hout, hback, hamb]

end Outcome

/-- A raw batch on its way into the store, with the commit that it meets. -/
structure Attempt where
  commit : Commit
  env : CommitEnv

namespace Attempt
variable (db : Db) (a : Attempt)

/-- The batch is a sub-batch of a block-scan job. -/
def FromJob : Prop := ∃ fenv job, a.commit.batch ∈ (processBlockScanJob fenv job).1

/-- The batch is normalized, and the attempt leaves the database as it does. -/
def Step (db' : Db) : Prop :=
  ∃ nb, Normalizer.processBatch a.commit.normalizer a.commit.batch = .ok nb ∧
    (attemptBatch a.commit.ingester a.env nb db).2 = db'

/-- An ambiguous commit that is reported as a success was applied: the batch is taken in. -/
def ReportsTruly : Prop :=
  ∀ nb err applied, Normalizer.processBatch a.commit.normalizer a.commit.batch = .ok nb →
    a.env.outcome = .failed err applied →
    isAmbiguousCommitAckError a.env.isTransient err = true →
    (attemptBatch a.commit.ingester a.env nb db).1 = .ok () →
    applied = true ∧ ∃ addrMap pre tokens st, IngestedBy a.commit.ingester (canonicalizeCursors nb)
      db (attemptBatch a.commit.ingester a.env nb db).2 addrMap pre tokens st

/-- An ambiguous commit that was not applied finds the watermark below the cursor of its batch, or
fails to read it. -/
def WatermarkBehind : Prop :=
  ∀ nb err, Normalizer.processBatch a.commit.normalizer a.commit.batch = .ok nb →
    a.env.outcome = .failed err false → isAmbiguousCommitAckError a.env.isTransient err = true →
    (∃ written, processBatch a.commit.ingester nb db = .ok written) → a.env.probeError = none →
    ∀ w, getWatermark nb.chain nb.network db = some w → w < nb.newCursorSequence

end Attempt

section Runs
variable {db : Db} {a : Attempt}

theorem reportsTruly_iff (hjob : a.FromJob) : a.ReportsTruly db ↔ a.WatermarkBehind db := by
  obtain ⟨fenv, job, hmem⟩ := hjob
  have hback : ∀ nb, Normalizer.processBatch a.commit.normalizer a.commit.batch = .ok nb →
      rollsBack (canonicalizeCursors nb) = false := by
    intro nb hnorm
    apply rollsBack_of_none
    rw [(Normalizer.processBatch_frame hnorm).2.2, (processBlockScanJob_mem hmem).2.2]
    rfl
  constructor
  · intro htruly nb err hnorm hout hamb hwri hprobe w hw
    obtain ⟨written, hproc⟩ := hwri
    by_contra hrea
    have hatt := attemptBatch_failed (hback nb hnorm) hproc hout hamb
    have hok : (attemptBatch a.commit.ingester a.env nb db).1 = .ok () := by
      rw [hatt]
      exact finishCommit_ok.mpr ⟨hprobe, w, hw, Int.not_lt.mp hrea⟩
    have happ := (htruly nb err false hnorm hout hamb hok).1
    cases happ
  · intro hbeh nb err applied hnorm hout hamb hok
    cases hproc : processBatch a.commit.ingester nb db with
    | error e =>
      rw [attemptBatch, hproc] at hok
      cases hok
    | ok written =>
      have hatt := attemptBatch_failed (hback nb hnorm) hproc hout hamb
      rw [hatt] at hok ⊢
      cases applied with
      | false =>
        obtain ⟨hprobe, w, hw, hle⟩ := finishCommit_ok.mp hok
        have := hbeh nb err hnorm hout hamb ⟨written, hproc⟩ hprobe w hw
        exact absurd hle (Int.not_le.mpr this)
      | true =>
        refine ⟨rfl, ?_⟩
        rcases processBatch_cases hproc with ⟨_, hin⟩ | ⟨_, hdrift, _⟩
        · exact ingestBatch_ok hin
        · rw [hback nb hnorm] at hdrift
          cases hdrift

/-- The runs in which every ambiguous commit that is reported as a success was applied are those in
which the watermark is below the cursor of every batch whose commit is lost. -/
theorem run_reportsTruly_iff (db db' : Db) (acts : List Attempt) :
    Runs.Run (fun t a t' => a.Step t t') (fun t a => a.FromJob ∧ a.ReportsTruly t) db acts db' ↔
      Runs.Run (fun t a t' => a.Step t t') (fun t a => a.FromJob ∧ a.WatermarkBehind t)
        db acts db' := by
  constructor
  · intro hrun
    apply hrun.imp
    rintro t a ⟨hjob, htruly⟩
    exact ⟨hjob, (reportsTruly_iff hjob).mp htruly⟩
  · intro hrun
    apply hrun.imp
    rintro t a ⟨hjob, hbeh⟩
    exact ⟨hjob, (reportsTruly_iff hjob).mpr hbeh⟩

end Runs

/-- A sidecar as before, and an event builder with a deposit for every transaction. -/
def depositSidecar : NormalizerEnv where
  decode := echoSidecar.decode
  isTransient := fun _ => false
  buildCanonicalBalanceEvents := fun _ txHash _ _ =>
    [{ depositEvent "finalized" with eventID := txHash }]

def lostCommit : CommitEnv where
  outcome := .failed "broken pipe" false

def firstDeposit (env : CommitEnv) : Attempt where
  commit := { firstCommit 10 with normalizer := depositSidecar }
  env := env

def secondDeposit (env : CommitEnv) : Attempt where
  commit :=
    { normalizer := depositSidecar
      ingester := {}
      batch := subBatch jobFromTen { hash := "0xbb", sequence := 10 } true
        [{ hash := "0xbb", sequence := 10 }] ["0xbb"] }
  env := env

/-- With the watermark still at 9, a lost commit of the first sub-batch is not taken for one. -/
theorem run_reportsTruly_first :
    ∃ db', Runs.Run (fun t a t' => Attempt.Step t a t')
      (fun t a => Attempt.FromJob a ∧ Attempt.ReportsTruly t a) watermarkNine
      [firstDeposit lostCommit] db' := by
  obtain ⟨nb, hnorm, hchain, hnet, hcur⟩ :
      ∃ nb, Normalizer.processBatch depositSidecar (firstCommit 10).batch = .ok nb ∧
        nb.chain = .ethereum ∧ nb.network = .mainnet ∧ nb.newCursorSequence = 10 := by decide
  refine ⟨_, (run_reportsTruly_iff _ _ _).mpr (.next .start ⟨?_, ?_⟩ ⟨nb, hnorm, rfl⟩)⟩
  · exact ⟨findsTwo 10, jobFromTen, List.mem_cons_self⟩
  · intro nb' err hnorm' _ _ _ _ w hw
    obtain rfl : nb = nb' := Except.ok.inj (hnorm.symm.trans hnorm')
    rw [hchain, hnet] at hw
    cases hw
    rw [hcur]
    decide

/-- The first sub-batch moves the watermark to 10; the commit of the second one is lost and taken
for a success, and its deposit is not stored. -/
theorem attempt_reports_lost :
    (firstDeposit { outcome := .acked }).FromJob ∧ (secondDeposit lostCommit).FromJob ∧
      ∃ db₁ nb, (firstDeposit { outcome := .acked }).Step watermarkNine db₁ ∧
        Normalizer.processBatch depositSidecar (secondDeposit lostCommit).commit.batch = .ok nb ∧
        attemptBatch {} lostCommit nb db₁ = (.ok (), db₁) ∧
        (∃ ec ∈ batchEvents nb, ec.be.eventID = "0xbb") ∧
        ∀ r ∈ db₁.balanceEvents.rows, r.eventID ≠ "0xbb" := by
  refine ⟨⟨findsTwo 10, jobFromTen, List.mem_cons_self⟩,
    ⟨findsTwo 10, jobFromTen, List.mem_cons_of_mem _ List.mem_cons_self⟩, ?_⟩
  obtain ⟨nb₁, hnorm₁, nb, hnorm, db₁, hproc₁, written, hproc, hw, hcur, hback, heve⟩ :
      ∃ nb₁, Normalizer.processBatch depositSidecar (firstCommit 10).batch = .ok nb₁ ∧
      ∃ nb, Normalizer.processBatch depositSidecar (secondDeposit lostCommit).commit.batch = .ok nb ∧
      ∃ db₁, processBatch {} nb₁ watermarkNine = .ok db₁ ∧
      ∃ written, processBatch {} nb db₁ = .ok written ∧
        getWatermark nb.chain nb.network db₁ = some 10 ∧ nb.newCursorSequence = 10 ∧
        rollsBack (canonicalizeCursors nb) = false ∧
        (∃ ec ∈ batchEvents nb, ec.be.eventID = "0xbb") ∧
        ∀ r ∈ db₁.balanceEvents.rows, r.eventID ≠ "0xbb" := by decide +kernel
  refine ⟨db₁, nb, ⟨nb₁, hnorm₁, ?_⟩, hnorm, ?_, heve⟩
  · show (attemptBatch {} { outcome := .acked } nb₁ watermarkNine).2 = db₁
    rw [attemptBatch, hproc₁]
    rfl
  · rw [attemptBatch_failed hback hproc rfl (by decide +kernel), if_neg Bool.false_ne_true,
      finishCommit_ok.mpr ⟨rfl, 10, hw, Int.le_of_eq hcur⟩]

end MultichainIndexer
