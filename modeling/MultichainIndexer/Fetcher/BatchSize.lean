import MultichainIndexer.Fetcher.AddressBatch

/-!
# The stored batch size of an address

The size that a job stores comes from three places: the number of signatures that
its batch holds, the size of the last call for signatures, which begins above the
requested size when there is a cursor, and the size of the last call for
transactions. A short page is taken for a reduced one, and a call for signatures
that gives up at once stores more than was requested.
-/

namespace MultichainIndexer

open Retry

namespace AddressJob

section Loop
variable {α : Type} {settings : Settings} {calls : Calls α}

/-- The attempts from one of a number and a size end in an error, with a last size. -/
inductive GivesUp (settings : Settings) (calls : Calls α) : Nat → Int → Int → Prop where
  | here {attempt : Nat} {size : Int} {err : Err} : calls.call attempt size = .error err →
      ¬ Retried settings calls attempt size → GivesUp settings calls attempt size size
  | asleep {attempt : Nat} {size : Int} {err : Err} : Retried settings calls attempt size →
      calls.sleepErr attempt = some err →
      GivesUp settings calls attempt size (reduceBatchSize settings size)
  | again {attempt : Nat} {size last : Int} : Retried settings calls attempt size →
      calls.sleepErr attempt = none →
      GivesUp settings calls (attempt + 1) (reduceBatchSize settings size) last →
      GivesUp settings calls attempt size last

variable {attempt left : Nat} {size : Int}

theorem GivesUp.result {last : Int} (h : GivesUp settings calls attempt size last) (stage : String)
    (hnum : attempt + left = effectiveRetryMaxAttempts settings) :
    (∃ e, (retryFrom settings stage calls (left + 1) size).result = .error e) ∧
      (retryFrom settings stage calls (left + 1) size).size = last := by
  induction h generalizing left with
  | @here attempt size err hcall hnot =>
    obtain ⟨answer, hok, _⟩ | ⟨_, e, _, _, heq⟩ | ⟨_, hret, _⟩ | ⟨hret, _⟩ :=
      retryFrom_succ stage calls size hnum
    · rw [hcall] at hok
      cases hok
    · rw [heq]
      exact ⟨⟨e, rfl⟩, rfl⟩
    · exact absurd hret hnot
    · exact absurd hret hnot
  | @asleep attempt size err hret hsleep =>
    obtain ⟨answer, hok, _⟩ | ⟨_, _, _, hnot, _⟩ | ⟨e, _, _, heq⟩ | ⟨_, hawake, _⟩ :=
      retryFrom_succ stage calls size hnum
    · exact absurd hok (hret.not_ok answer)
    · exact absurd hret hnot
    · rw [heq]
      exact ⟨⟨e, rfl⟩, rfl⟩
    · rw [hsleep] at hawake
      cases hawake
  | @again attempt size last hret hsleep _ ih =>
    obtain ⟨answer, hok, _⟩ | ⟨_, _, _, hnot, _⟩ | ⟨e, _, hasl, _⟩ | ⟨_, _, heq⟩ :=
      retryFrom_succ stage calls size hnum
    · exact absurd hok (hret.not_ok answer)
    · exact absurd hret hnot
    · rw [hsleep] at hasl
      cases hasl
    · -- another attempt needs one that is left
      cases left with
      | zero =>
        obtain ⟨_, _, _, _, hmore⟩ := hret
        exact absurd hnum hmore
      | succ left =>
        rw [heq]
        exact ih (by omega)

theorem givesUp_of_error {stage : String} {e : Err}
    (hnum : attempt + left = effectiveRetryMaxAttempts settings)
    (h : (retryFrom settings stage calls (left + 1) size).result = .error e) :
    GivesUp settings calls attempt size (retryFrom settings stage calls (left + 1) size).size ∧
      true ∈ (retryFrom settings stage calls (left + 1) size).recorded := by
  induction left generalizing attempt size with
  | zero =>
    obtain ⟨_, _, heq⟩ | ⟨_, _, hcall, hnot, heq⟩ | ⟨_, hret, _⟩ | ⟨hret, _⟩ :=
      retryFrom_succ stage calls size hnum
    · rw [heq] at h
      cases h
    · rw [heq]
      exact ⟨.here hcall hnot, List.mem_singleton.mpr rfl⟩
    · obtain ⟨_, _, _, _, hmore⟩ := hret
      exact absurd hnum hmore
    · obtain ⟨_, _, _, _, hmore⟩ := hret
      exact absurd hnum hmore
  | succ left ih =>
    obtain ⟨_, _, heq⟩ | ⟨_, _, hcall, hnot, heq⟩ | ⟨_, hret, hsleep, heq⟩ |
      ⟨hret, hsleep, heq⟩ := retryFrom_succ stage calls size hnum
    · rw [heq] at h
      cases h
    · rw [heq]
      exact ⟨.here hcall hnot, List.mem_singleton.mpr rfl⟩
    · rw [heq]
      exact ⟨.asleep hret hsleep, List.mem_singleton.mpr rfl⟩
    · rw [heq] at h ⊢
      have hnext : attempt + 1 + left = effectiveRetryMaxAttempts settings := by omega
      exact ⟨.again hret hsleep (ih hnext h).1, List.mem_cons_self⟩

theorem call_of_recorded {stage : String}
    (hnum : attempt + left = effectiveRetryMaxAttempts settings)
    (h : true ∉ (retryFrom settings stage calls (left + 1) size).recorded) :
    ∃ answer, calls.call attempt size = .ok answer ∧
      retryFrom settings stage calls (left + 1) size = ⟨.ok answer, size, [false]⟩ := by
  obtain hok | ⟨_, _, _, _, heq⟩ | ⟨_, _, _, heq⟩ | ⟨_, _, heq⟩ :=
    retryFrom_succ stage calls size hnum
  · exact hok
  · rw [heq] at h
    exact absurd List.mem_cons_self h
  · rw [heq] at h
    exact absurd List.mem_cons_self h
  · rw [heq] at h
    exact absurd List.mem_cons_self h

theorem GivesUp.le {last : Int} (h : GivesUp settings calls attempt size last) : last ≤ size := by
  induction h with
  | here => exact Int.le_refl _
  | asleep => exact reduceBatchSize_le settings _
  | again _ _ _ ih => exact Int.le_trans ih (reduceBatchSize_le settings _)

theorem withRetry_eq (stage : String) (calls : Calls α) (size : Int) :
    withRetry settings stage calls size =
      retryFrom settings stage calls (effectiveRetryMaxAttempts settings - 1 + 1) size := by
  rw [withRetry, Nat.sub_add_cancel (effectiveRetryMaxAttempts_pos settings)]

theorem first_attempt (settings : Settings) :
    1 + (effectiveRetryMaxAttempts settings - 1) = effectiveRetryMaxAttempts settings := by
  have := effectiveRetryMaxAttempts_pos settings
  omega

theorem withRetry_of_call (stage : String) {answer : α} (h : calls.call 1 size = .ok answer) :
    withRetry settings stage calls size = ⟨.ok answer, size, [false]⟩ := by
  rw [withRetry_eq]
  obtain ⟨answer', hok, heq⟩ | ⟨_, _, hcall, _⟩ | ⟨_, hret, _⟩ | ⟨hret, _⟩ :=
    retryFrom_succ stage calls size (first_attempt settings)
  · rw [h] at hok
    cases hok
    exact heq
  · rw [h] at hcall
    cases hcall
  · exact absurd h (hret.not_ok answer)
  · exact absurd h (hret.not_ok answer)

end Loop

/-- No call failed: the stored size is not below the requested one. An error: it is not above. -/
structure Adapts (o : Outcome) : Prop where
  grows : ∀ requested, o.requested = some requested → true ∉ o.recorded →
    ∃ size, o.stored = some size ∧ requested ≤ size
  shrinks : ∀ requested, o.requested = some requested → o.ended ≠ .done →
    ∃ size, o.stored = some size ∧ size ≤ requested

/-- The page that the first calls return is full, or the size cannot be reduced; and signature
calls that give up have come down to the requested size. -/
structure Steady (settings : Settings) (env : Env) (job : FetchJob) (requested : Int) : Prop where
  full : ∀ response selected rawTxs,
    (signatureCalls env job).call 1 (signatureBatch settings job requested) = .ok response →
    selectSignatures job requested response = some selected → selected ≠ [] →
    env.fetchTransactions 1 (selected.map SignatureInfo.hash) = .ok rawTxs → env.sendErr = none →
    selected.length = requested ∨ requested = effectiveAdaptiveMinBatch settings
  down : ∀ last, GivesUp settings (signatureCalls env job) 1
    (signatureBatch settings job requested) last → last ≤ requested

section Size
variable {settings : Settings} {stored hardCap requested : Int}

theorem setAdaptiveBatchSize_le {size : Int} (hmin : effectiveAdaptiveMinBatch settings ≤ requested)
    (h : size ≤ requested) : setAdaptiveBatchSize settings requested size ≤ requested := by
  unfold setAdaptiveBatchSize
  split_ifs <;> omega

theorem updateAdaptiveBatchSize_short {sigBatchSize : Int} {count : Nat} (hcount : 0 < count)
    (hsig : requested ≤ sigBatchSize) (h : count < requested) :
    updateAdaptiveBatchSize settings requested hardCap requested sigBatchSize count count =
      max (count : Int) (effectiveAdaptiveMinBatch settings) := by
  unfold updateAdaptiveBatchSize setAdaptiveBatchSize
  simp only
  split_ifs <;> omega

theorem le_updateAdaptiveBatchSize_full {sigBatchSize : Int} {count : Nat}
    (hsig : requested ≤ sigBatchSize) (h : (count : Int) = requested) :
    requested ≤
      updateAdaptiveBatchSize settings requested hardCap requested sigBatchSize count count := by
  unfold updateAdaptiveBatchSize setAdaptiveBatchSize
  simp only
  split_ifs <;> omega

end Size

section Job
variable {settings : Settings} {env : Env} {job : FetchJob} {stored : Option Int}
variable {requested sigBatchSize : Int} {recorded : List Bool} {sigs : List SignatureInfo}

theorem transactionCalls_first (env : Env) (sigs : List SignatureInfo) :
    (transactionCalls env sigs).call 1 sigs.length =
      (env.fetchTransactions 1 (sigs.map SignatureInfo.hash)).map fun rawTxs => (sigs, rawTxs) := by
  simp only [transactionCalls, Int.toNat_natCast, List.take_length]

theorem emitBatch_first {rawTxs : List String} (hne : sigs ≠ [])
    (htx : env.fetchTransactions 1 (sigs.map SignatureInfo.hash) = .ok rawTxs)
    (hsend : env.sendErr = none) (settings : Settings) (job : FetchJob)
    (requested sigBatchSize : Int) (recorded : List Bool) :
    (emitBatch settings env job requested sigBatchSize recorded sigs).requested = some requested ∧
    (emitBatch settings env job requested sigBatchSize recorded sigs).stored =
      some (updateAdaptiveBatchSize settings requested job.batchSize requested sigBatchSize
        sigs.length sigs.length) ∧
    (emitBatch settings env job requested sigBatchSize recorded sigs).recorded =
      recorded ++ [false] := by
  have hcall : (transactionCalls env sigs).call 1 sigs.length = .ok (sigs, rawTxs) := by
    rw [transactionCalls_first, htx]
    rfl
  unfold emitBatch fetchTransactionsWithRetry
  rw [withRetry_of_call _ hcall]
  simp only [afterTransactions, List.getLast?_eq_some_getLast hne, hsend, and_self]

theorem fetchTransactionsWithRetry_first
    (h : true ∉ (fetchTransactionsWithRetry settings env sigs).recorded) :
    ∃ rawTxs, env.fetchTransactions 1 (sigs.map SignatureInfo.hash) = .ok rawTxs ∧
      fetchTransactionsWithRetry settings env sigs = ⟨.ok (sigs, rawTxs), sigs.length, [false]⟩ := by
  rw [fetchTransactionsWithRetry, withRetry_eq] at h
  obtain ⟨answer, hcall, heq⟩ := call_of_recorded (first_attempt settings) h
  rw [transactionCalls_first] at hcall
  obtain ⟨rawTxs, htx, rfl⟩ := Result.map_ok hcall
  refine ⟨rawTxs, htx, ?_⟩
  rw [fetchTransactionsWithRetry, withRetry_eq]
  exact heq

theorem Adapts.unchanged {o : Outcome} (hreq : o.requested = some requested)
    (hsto : o.stored = some requested) : Adapts o := by
  refine ⟨fun requested' hreq' _ => ?_, fun requested' hreq' _ => ?_⟩
  · rw [hreq] at hreq'
    cases hreq'
    exact ⟨requested, hsto, Int.le_refl _⟩
  · rw [hreq] at hreq'
    cases hreq'
    exact ⟨requested, hsto, Int.le_refl _⟩

theorem emitBatch_adapts (hmin : effectiveAdaptiveMinBatch settings ≤ requested) (hne : sigs ≠ [])
    (hlen : sigs.length ≤ requested) (hsig : true ∉ recorded → requested ≤ sigBatchSize)
    (hfull : true ∉ recorded → ∀ rawTxs,
      env.fetchTransactions 1 (sigs.map SignatureInfo.hash) = .ok rawTxs → env.sendErr = none →
      sigs.length = requested ∨ requested = effectiveAdaptiveMinBatch settings) :
    Adapts (emitBatch settings env job requested sigBatchSize recorded sigs) := by
  unfold emitBatch afterTransactions
  split
  · rename_i e hres
    rw [fetchTransactionsWithRetry, withRetry_eq] at hres ⊢
    obtain ⟨hgives, htrue⟩ := givesUp_of_error (first_attempt settings) hres
    refine ⟨fun _ _ hnone => absurd (List.mem_append_right recorded htrue) hnone, ?_⟩
    intro requested' hreq _
    cases hreq
    exact ⟨_, rfl, setAdaptiveBatchSize_le hmin (Int.le_trans hgives.le hlen)⟩
  · rename_i selectedSigs rawTxs hres
    split
    · exact .unchanged rfl rfl
    · split
      · exact .unchanged rfl rfl
      · rename_i hsend
        refine ⟨fun _ hreq hnone => ?_, fun _ _ hended => absurd rfl hended⟩
        cases hreq
        refine ⟨_, rfl, ?_⟩
        rw [List.mem_append, not_or] at hnone
        obtain ⟨rawTxs', htx, htried⟩ := fetchTransactionsWithRetry_first hnone.2
        rw [htried] at hres ⊢
        cases hres
        have hsig := hsig hnone.1
        rcases hfull hnone.1 _ htx hsend with heq | heq
        · exact le_updateAdaptiveBatchSize_full hsig heq
        · by_cases hfull : (sigs.length : Int) = requested
          · exact le_updateAdaptiveBatchSize_full hsig hfull
          · have hpos := List.length_pos_iff.mpr hne
            rw [updateAdaptiveBatchSize_short hpos hsig (by omega)]
            omega

theorem selectSignatures_length {response selected : List SignatureInfo} (hpos : 0 < requested)
    (h : selectSignatures job requested response = some selected) :
    (selected.length : Int) ≤ requested := by
  obtain ⟨kept, _, rfl⟩ := Option.map_eq_some_iff.mp h
  have hle := List.length_take_le requested.toNat kept
  omega

theorem selectSignatures_nil : selectSignatures job requested [] = some [] := by
  simp [selectSignatures, filterAndCanonicalizeSignatures, canonicalSignatures, BestOf.keep,
    suppressPreCursorSequenceCarryover]

theorem afterSignatures_adapts (hmin : effectiveAdaptiveMinBatch settings ≤ requested)
    (h : Steady settings env job requested) :
    Adapts (afterSignatures settings env job requested
      (fetchSignaturesWithRetry settings env job (signatureBatch settings job requested))) := by
  have hpos := Int.lt_of_lt_of_le (effectiveAdaptiveMinBatch_pos settings) hmin
  unfold afterSignatures
  split
  · rename_i e hres
    rw [fetchSignaturesWithRetry, withRetry_eq] at hres ⊢
    obtain ⟨hgives, htrue⟩ := givesUp_of_error (first_attempt settings) hres
    refine ⟨fun _ _ hnone => absurd htrue hnone, fun _ hreq _ => ?_⟩
    cases hreq
    exact ⟨_, rfl, setAdaptiveBatchSize_le hmin (h.down _ hgives)⟩
  · exact .unchanged rfl rfl
  · rename_i sig sigs hres
    split
    · exact .unchanged rfl rfl
    · exact .unchanged rfl rfl
    · rename_i first rest hsel
      have hfirst : true ∉ (fetchSignaturesWithRetry settings env job
          (signatureBatch settings job requested)).recorded →
          (signatureCalls env job).call 1 (signatureBatch settings job requested) =
            .ok (sig :: sigs) ∧ (fetchSignaturesWithRetry settings env job
              (signatureBatch settings job requested)).size =
                signatureBatch settings job requested := by
        intro hnone
        rw [fetchSignaturesWithRetry, withRetry_eq] at hnone hres ⊢
        obtain ⟨answer, hcall, heq⟩ := call_of_recorded (first_attempt settings) hnone
        rw [heq] at hres ⊢
        cases hres
        exact ⟨hcall, rfl⟩
      refine emitBatch_adapts hmin (List.cons_ne_nil _ _) (selectSignatures_length hpos hsel) ?_ ?_
      · intro hnone
        rw [(hfirst hnone).2]
        exact le_signatureBatch settings job requested
      · intro hnone rawTxs htx hsend
        exact h.full _ _ _ (hfirst hnone).1 hsel (List.cons_ne_nil _ _) htx hsend

theorem steady_of_adapts (hmin : effectiveAdaptiveMinBatch settings ≤ requested)
    (h : Adapts (afterSignatures settings env job requested
      (fetchSignaturesWithRetry settings env job (signatureBatch settings job requested)))) :
    Steady settings env job requested := by
  have hpos := Int.lt_of_lt_of_le (effectiveAdaptiveMinBatch_pos settings) hmin
  refine ⟨?_, ?_⟩
  · intro response selected rawTxs hcall hsel hne htx hsend
    have hemit : afterSignatures settings env job requested
        (fetchSignaturesWithRetry settings env job (signatureBatch settings job requested)) =
        emitBatch settings env job requested (signatureBatch settings job requested) [false]
          selected := by
      cases response with
      | nil =>
        rw [selectSignatures_nil] at hsel
        cases hsel
        exact absurd rfl hne
      | cons sig sigs =>
        rw [fetchSignaturesWithRetry, withRetry_of_call _ hcall]
        cases selected with
        | nil => exact absurd rfl hne
        | cons first rest => simp only [afterSignatures, hsel]
    rw [hemit] at h
    obtain ⟨hreq, hsto, hrec⟩ := emitBatch_first hne htx hsend settings job requested
      (signatureBatch settings job requested) [false]
    obtain ⟨size, hsize, hle⟩ := h.grows requested hreq (by rw [hrec]; decide)
    rw [hsto] at hsize
    cases hsize
    have hlen := selectSignatures_length hpos hsel
    by_cases hfull : (selected.length : Int) = requested
    · exact .inl hfull
    · have hcount := List.length_pos_iff.mpr hne
      rw [updateAdaptiveBatchSize_short hcount (le_signatureBatch settings job requested)
        (by omega)] at hle
      right
      omega
  · intro last hgives
    obtain ⟨⟨e, hres⟩, hsize⟩ := hgives.result "fetcher.fetch_signatures" (first_attempt settings)
    rw [← withRetry_eq, ← fetchSignaturesWithRetry] at hres hsize
    unfold afterSignatures at h
    rw [hres, hsize] at h
    obtain ⟨size, hsto, hle⟩ := h.shrinks requested rfl Ended.noConfusion
    cases hsto
    unfold setAdaptiveBatchSize at hle
    split_ifs at hle
    · omega
    · omega
    · exact hle

theorem processJob_adapts_iff (hmin : effectiveAdaptiveMinBatch settings ≤ job.batchSize) :
    Adapts (processJob settings env job stored) ↔ (env.breakerErr = none →
      Steady settings env job (resolveBatchSize settings stored job.batchSize)) := by
  have hmin := resolveBatchSize_min settings stored hmin
  unfold processJob
  cases hbreaker : env.breakerErr with
  | some e =>
    refine iff_of_true ⟨?_, ?_⟩ nofun
    · intro requested hreq
      cases hreq
    · intro requested hreq
      cases hreq
  | none => exact ⟨fun h _ => steady_of_adapts hmin h, fun h => afterSignatures_adapts hmin (h rfl)⟩

end Job

/-- A job of a run, what it meets, and whether the stored size has expired before it. -/
structure Turn where
  env : Env
  job : FetchJob
  expired : Bool := false

def Turn.before (turn : Turn) (stored : Option Int) : Option Int :=
  if turn.expired then none else stored

def Turn.outcome (settings : Settings) (turn : Turn) (stored : Option Int) : Outcome :=
  processJob settings turn.env turn.job (turn.before stored)

def outcomes (settings : Settings) : Option Int → List Turn → List Outcome
  | _, [] => []
  | stored, turn :: turns =>
    turn.outcome settings stored :: outcomes settings (turn.outcome settings stored).stored turns

/-- Each job that the circuit breaker lets through is steady at the size that it requests. -/
def AllSteady (settings : Settings) : Option Int → List Turn → Prop
  | _, [] => True
  | stored, turn :: turns =>
    (turn.env.breakerErr = none → Steady settings turn.env turn.job
      (resolveBatchSize settings (turn.before stored) turn.job.batchSize)) ∧
    AllSteady settings (turn.outcome settings stored).stored turns

/-- Over a run of jobs of one batch size, the stored size shrinks only on failure and grows only on
success exactly if each of the jobs is steady. -/
theorem outcomes_adapt_iff (settings : Settings) (batchSize : Int)
    (hmin : effectiveAdaptiveMinBatch settings ≤ batchSize) (stored : Option Int)
    (turns : List Turn) (hsize : ∀ turn ∈ turns, turn.job.batchSize = batchSize) :
    (∀ o ∈ outcomes settings stored turns, Adapts o) ↔ AllSteady settings stored turns := by
  induction turns generalizing stored with
  | nil =>
    refine iff_of_true (fun o ho => ?_) trivial
    cases ho
  | cons turn turns ih =>
    have hjob : effectiveAdaptiveMinBatch settings ≤ turn.job.batchSize := by
      rw [hsize turn List.mem_cons_self]
      exact hmin
    rw [outcomes, AllSteady, List.forall_mem_cons,
      ih _ (List.forall_mem_cons.mp hsize).2, Turn.outcome,
      processJob_adapts_iff hjob]

def shortPage : Turn where
  env := {
    fetchNewSignatures := fun _ _ _ _ => .ok [{ hash := "s1", sequence := 1 }]
    fetchTransactions := fun _ hashes => .ok hashes }
  job := { chain := .solana, network := .mainnet, address := "a", batchSize := 10 }

def terminalError : Turn where
  env := {
    fetchNewSignatures := fun _ _ _ _ => .error ⟨"method not found", [{}]⟩
    fetchTransactions := fun _ hashes => .ok hashes }
  job := { chain := .solana, network := .mainnet, address := "a", batchSize := 10,
           cursorValue := some "s0" }

def fullPage : Turn where
  env := { shortPage.env with
    fetchNewSignatures := fun _ _ _ _ =>
      .ok [{ hash := "s1", sequence := 1 }, { hash := "s2", sequence := 2 }] }
  job := { shortPage.job with batchSize := 2 }

def emptyPage : Turn :=
  { fullPage with env := { fullPage.env with fetchNewSignatures := fun _ _ _ _ => .ok [] } }

/-- A full page brings the size from 1 to 2, and a job that finds nothing leaves it there. -/
theorem outcomes_adapt_full : effectiveAdaptiveMinBatch {} ≤ 2 ∧
    (outcomes {} (some 1) [fullPage, emptyPage]).map Outcome.stored = [some 2, some 2] ∧
    ∀ o ∈ outcomes {} (some 1) [fullPage, emptyPage], Adapts o := by
  refine ⟨by decide, by decide +kernel, (outcomes_adapt_iff {} 2 (by decide) (some 1) _ ?_).mpr
    ⟨fun _ => ⟨?_, fun _ hgives => hgives.le⟩, fun _ => ⟨?_, fun _ hgives => hgives.le⟩, trivial⟩⟩
  · simp [fullPage, emptyPage]
  · intro response selected rawTxs hcall hsel
    cases hcall
    have hlen : (selectSignatures fullPage.job 1 [{ hash := "s1", sequence := 1 },
        { hash := "s2", sequence := 2 }]).map List.length = some 1 := by decide +kernel
    have hreq : resolveBatchSize {} (fullPage.before (some 1)) fullPage.job.batchSize = 1 := by
      decide +kernel
    rw [hreq] at hsel ⊢
    rw [hsel, Option.map_some, Option.some.injEq] at hlen
    exact fun _ _ _ => .inl (congrArg Int.ofNat hlen)
  · intro response selected rawTxs hcall hsel hne
    cases hcall
    rw [selectSignatures_nil] at hsel
    cases hsel
    exact absurd rfl hne

def Ended.isDone : Ended → Bool
  | .done => true
  | _ => false

def Outcome.sizes (o : Outcome) : Option Int × Option Int × List Bool × Bool :=
  (o.requested, o.stored, o.recorded, o.ended.isDone)

/-- A short page without an error brings the size from 10 to 1, and a call that fails at once
brings it from 10 to 11. -/
theorem outcomes_short_page_shrinks :
    (outcomes {} none [shortPage]).map Outcome.sizes = [(some 10, some 1, [false, false], true)] ∧
    (outcomes {} none [terminalError]).map Outcome.sizes = [(some 10, some 11, [true], false)] ∧
    ¬ (∀ o ∈ outcomes {} none [shortPage], Adapts o) ∧
    ¬ (∀ o ∈ outcomes {} none [terminalError], Adapts o) := by
  have hshort : (shortPage.outcome {} none).sizes = (some 10, some 1, [false, false], true) := by
    decide +kernel
  have hter : (terminalError.outcome {} none).sizes = (some 10, some 11, [true], false) := by
    decide +kernel
  refine ⟨congrArg (fun sizes => [sizes]) hshort, congrArg (fun sizes => [sizes]) hter,
    fun h => ?_, fun h => ?_⟩
  · obtain ⟨hreq, hsto, hrec, _⟩ : _ ∧ _ ∧ _ ∧ _ := by
      simpa only [Outcome.sizes, Prod.mk.injEq] using hshort
    have hada := h (shortPage.outcome {} none) List.mem_cons_self
    obtain ⟨size, hsize, hle⟩ := hada.grows 10 hreq (by rw [hrec]; decide)
    rw [hsto] at hsize
    cases hsize
    omega
  · obtain ⟨hreq, hsto, _, hended⟩ : _ ∧ _ ∧ _ ∧ _ := by
      simpa only [Outcome.sizes, Prod.mk.injEq] using hter
    have hada := h (terminalError.outcome {} none) List.mem_cons_self
    obtain ⟨size, hsize, hle⟩ := hada.shrinks 10 hreq
      (fun hdone => by rw [hdone] at hended; cases hended)
    rw [hsto] at hsize
    cases hsize
    omega

end AddressJob

end MultichainIndexer
