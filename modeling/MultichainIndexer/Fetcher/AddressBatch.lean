import MultichainIndexer.Fetcher.AddressJob
import MultichainIndexer.Lib.Result
import Mathlib.Data.List.Forall2

/-!
# The batch of a per-address job

A batch is a prefix of what is selected from one answer of the adapter, each
signature with its transaction, and its cursor is its last signature. It does not
depend on the order in which the adapter lists the signatures. The cursor's own
signature is left out by comparing it with the identity of the cursor, but the job
has replaced the cursor by its identity before: a cursor whose identity has another
identity lets its own signature through.
-/

namespace MultichainIndexer

open Retry

namespace AddressJob

section Selected

/-- Sorted, with one signature for each hash. -/
structure InOrder (sigs : List SignatureInfo) : Prop where
  sorted : sigs.Pairwise SignatureInfo.before
  distinct : (sigs.map SignatureInfo.hash).Nodup

variable {sigs out : List SignatureInfo}

theorem InOrder.sublist (h : InOrder sigs) (hsub : out.Sublist sigs) : InOrder out :=
  ⟨h.sorted.sublist hsub, h.distinct.sublist (hsub.map _)⟩

theorem inOrder_canonicalSignatures (replaces : SignatureInfo → SignatureInfo → Bool)
    (chainID : Chain) (sigs : List SignatureInfo) :
    InOrder (canonicalSignatures replaces chainID sigs) :=
  ⟨pairwise_before_canonicalSignatures, nodup_canonicalSignatures⟩

theorem InOrder.insertionSort_append (h : InOrder sigs) {hits misses : List SignatureInfo}
    (hhits : ∀ sig ∈ hits, sig ∈ sigs) (hmis : ∀ sig ∈ misses, sig ∈ sigs)
    (hnodup : hits.Nodup) (hnodup' : misses.Nodup) (hapart : ∀ sig ∈ hits, sig ∉ misses) :
    InOrder ((hits ++ misses).insertionSort SignatureInfo.before) := by
  refine ⟨List.pairwise_insertionSort _ _, ?_⟩
  have hperm := (List.perm_insertionSort SignatureInfo.before (hits ++ misses)).map
    SignatureInfo.hash
  refine hperm.nodup_iff.mpr (List.Nodup.map_on ?_ ?_)
  · have hmem : ∀ sig ∈ hits ++ misses, sig ∈ sigs := by
      intro sig hsig
      exact (List.mem_append.mp hsig).elim (hhits sig) (hmis sig)
    intro a ha b hb hab
    exact List.inj_on_of_nodup_map h.distinct (hmem a ha) (hmem b hb) hab
  · exact List.nodup_append'.mpr ⟨hnodup, hnodup', fun sig hsig hin => hapart sig hsig hin⟩

theorem carryover_inOrder (h : InOrder sigs) {previousCursorSequence requestedBatch : Int}
    (hout : carryover (sigs.filter fun sig => sig.sequence = previousCursorSequence)
      (sigs.filter fun sig => previousCursorSequence < sig.sequence) requestedBatch = some out) :
    InOrder out ∧ ∀ sig ∈ out, sig ∈ sigs := by
  unfold carryover at hout
  split_ifs at hout
  · cases hout
    have hsub := (List.take_sublist requestedBatch.toNat
      (sigs.filter fun sig => previousCursorSequence < sig.sequence)).trans List.filter_sublist
    exact ⟨h.sublist hsub, fun sig hsig => hsub.subset hsig⟩
  · cases hout
    refine ⟨⟨List.pairwise_append.mpr ⟨h.sorted.filter _, h.sorted.filter _, ?_⟩, ?_⟩, ?_⟩
    · intro a ha b hb
      have ha := of_decide_eq_true (List.mem_filter.mp ha).2
      have hb := of_decide_eq_true (List.mem_filter.mp hb).2
      exact .inl (by omega)
    · have hnodup : ∀ p : SignatureInfo → Bool, ((sigs.filter p).map SignatureInfo.hash).Nodup :=
        fun p => h.distinct.sublist (List.filter_sublist.map _)
      rw [List.map_append]
      refine List.nodup_append'.mpr ⟨hnodup _, hnodup _, ?_⟩
      intro hash hhit hmiss
      obtain ⟨a, ha, rfl⟩ := List.mem_map.mp hhit
      obtain ⟨b, hb, hab⟩ := List.mem_map.mp hmiss
      obtain ⟨ha, hseq⟩ := List.mem_filter.mp ha
      obtain ⟨hb, hseq'⟩ := List.mem_filter.mp hb
      obtain rfl := List.inj_on_of_nodup_map h.distinct hb ha hab
      have hseq := of_decide_eq_true hseq
      have hseq' := of_decide_eq_true hseq'
      omega
    · intro sig hsig
      exact (List.mem_append.mp hsig).elim List.mem_of_mem_filter List.mem_of_mem_filter
  · cases hout
    have hnodup := List.Nodup.of_map _ h.distinct
    have hslice : ∀ {n : Nat} {sig : SignatureInfo},
        sig ∈ ((sigs.filter fun sig => sig.sequence = previousCursorSequence).insertionSort
          fun a b => b.hash ≤ a.hash).take n →
        sig ∈ sigs.filter fun sig => sig.sequence = previousCursorSequence := by
      intro n sig hsig
      exact (List.perm_insertionSort _ _).mem_iff.mp (List.mem_of_mem_take hsig)
    refine ⟨h.insertionSort_append ?_ ?_ ?_ ?_ ?_, ?_⟩
    · exact fun sig hsig => List.mem_of_mem_filter (hslice hsig)
    · exact fun sig hsig => List.mem_of_mem_filter hsig
    · refine List.Nodup.sublist (List.take_sublist _ _) ?_
      exact (List.perm_insertionSort _ _).nodup_iff.mpr (hnodup.filter _)
    · exact hnodup.filter _
    · intro sig hsig hmiss
      have hhit := of_decide_eq_true (List.mem_filter.mp (hslice hsig)).2
      have hmiss := of_decide_eq_true (List.mem_filter.mp hmiss).2
      omega
    · intro sig hsig
      have hsig := (List.perm_insertionSort _ _).mem_iff.mp hsig
      rcases List.mem_append.mp hsig with hsig | hsig
      · exact List.mem_of_mem_filter (hslice hsig)
      · exact List.mem_of_mem_filter hsig

theorem suppressPreCursorSequenceCarryover_inOrder (h : InOrder sigs)
    {previousCursorSequence requestedBatch : Int}
    (hout : suppressPreCursorSequenceCarryover sigs previousCursorSequence requestedBatch =
      some out) :
    InOrder out ∧ ∀ sig ∈ out, sig ∈ sigs := by
  unfold suppressPreCursorSequenceCarryover at hout
  simp only [h.sorted.insertionSort_eq] at hout
  split_ifs at hout
  · cases hout
    exact ⟨h, fun _ hsig => hsig⟩
  · cases hout
    exact ⟨h, fun _ hsig => hsig⟩
  · exact carryover_inOrder h hout
  · exact carryover_inOrder h hout

end Selected

section Job
variable {job : FetchJob} {requestedBatch : Int} {sigs out : List SignatureInfo}

theorem selectSignatures_inOrder (h : selectSignatures job requestedBatch sigs = some out) :
    InOrder out ∧ ∀ sig ∈ out, ∃ raw ∈ sigs, canonicalSignatureIdentity job.chain raw.hash ≠ "" ∧
      passes job.chain job.fetchCutoffSeq job.canonicalCursor raw =
        true ∧ sig = { raw with hash := canonicalSignatureIdentity job.chain raw.hash } := by
  obtain ⟨kept, hkept, rfl⟩ := Option.map_eq_some_iff.mp h
  obtain ⟨horder, hmem⟩ := suppressPreCursorSequenceCarryover_inOrder
    (inOrder_canonicalSignatures _ _ _) hkept
  refine ⟨horder.sublist (List.take_sublist _ _), ?_⟩
  intro sig hsig
  obtain ⟨raw, hraw, hid, rfl⟩ := mem_canonicalSignatures (hmem sig (List.mem_of_mem_take hsig))
  obtain ⟨hraw, hpass⟩ := List.mem_filter.mp hraw
  exact ⟨raw, hraw, hid, hpass, rfl⟩

theorem selectSignatures_perm {sigs' : List SignatureInfo} (hperm : sigs.Perm sigs') :
    selectSignatures job requestedBatch sigs = selectSignatures job requestedBatch sigs' := by
  unfold selectSignatures filterAndCanonicalizeSignatures
  rw [canonicalSignatures_perm (hperm.filter _)]

end Job

section Sent
variable {settings : Settings} {env : Env} {job : FetchJob} {stored : Option Int} {b : RawBatch}

theorem emitBatch_sent {requestedBatch sigBatchSize : Int} {recorded : List Bool}
    {sigs : List SignatureInfo}
    (h : (emitBatch settings env job requestedBatch sigBatchSize recorded sigs).sent = some b) :
    ∃ (count : Int) (rawTxs : List String) (newest : SignatureInfo),
      Succeeds settings (transactionCalls env sigs) (sigs.take count.toNat, rawTxs) 1 sigs.length
        count ∧
      (sigs.take count.toNat).getLast? = some newest ∧
      b = rawBatch job (sigs.take count.toNat) rawTxs newest := by
  unfold emitBatch afterTransactions at h
  split at h
  · cases h
  · rename_i selectedSigs rawTxs hres
    split at h
    · cases h
    · rename_i newest hlast
      split at h
      · cases h
      · cases h
        have hsuc := withRetry_ok hres
        obtain ⟨attempt, hcall⟩ := hsuc.call
        obtain ⟨raw, _, heq⟩ := Result.map_ok hcall
        cases heq
        exact ⟨_, rawTxs, newest, hsuc, hlast, rfl⟩

theorem processJob_sent (h : (processJob settings env job stored).sent = some b) :
    ∃ (size : Int) (response selected : List SignatureInfo) (recorded : List Bool),
      Succeeds settings (signatureCalls env job) response 1
        (signatureBatch settings job (resolveBatchSize settings stored job.batchSize)) size ∧
      selectSignatures job (resolveBatchSize settings stored job.batchSize) response =
        some selected ∧
      (emitBatch settings env job (resolveBatchSize settings stored job.batchSize) size recorded
        selected).sent = some b := by
  unfold processJob at h
  split at h
  · cases h
  · simp only [afterSignatures] at h
    split at h
    · cases h
    · cases h
    · rename_i sig sigs hres
      split at h
      · cases h
      · cases h
      · rename_i first rest hsel
        exact ⟨_, _, _, _, withRetry_ok hres, hsel, h⟩

end Sent

/-- The adapter returns one raw transaction for each hash, in their order. -/
def OneForEach (env : Env) (belongs : String → String → Prop) : Prop :=
  ∀ attempt hashes rawTxs, env.fetchTransactions attempt hashes = .ok rawTxs →
    List.Forall₂ belongs rawTxs hashes

def Env.listing (env : Env)
    (fetch : Nat → String → Option String → Int → Except Err (List SignatureInfo))
    (fetchWithCutoff :
      Option (Nat → String → Option String → Int → Int → Except Err (List SignatureInfo))) : Env :=
  { env with fetchNewSignatures := fetch, fetchNewSignaturesWithCutoff := fetchWithCutoff }

/-- The same signatures are listed, in any order, and the same calls fail. -/
def Reorders (env env' : Env) : Prop :=
  ∀ attempt address cursor size cutoffSeq,
    Alike List.Perm (fetchNewSignatures env attempt address cursor size cutoffSeq)
      (fetchNewSignatures env' attempt address cursor size cutoffSeq)

/-- A batch that is an aligned prefix of what was selected from an answer of the adapter. -/
structure Aligned (settings : Settings) (env : Env) (job : FetchJob) (stored : Option Int)
    (belongs : String → String → Prop) (b : RawBatch) : Prop where
  nonempty : b.signatures ≠ []
  selected : ∃ attempt size response selected,
    (signatureCalls env job).call attempt size = .ok response ∧
    selectSignatures job (resolveBatchSize settings stored job.batchSize) response =
      some selected ∧ b.signatures <+: selected ∧
    ∀ sig ∈ b.signatures, ∃ raw ∈ response,
      sig.hash = canonicalSignatureIdentity job.chain raw.hash
  inOrder : InOrder b.signatures
  not_cursor : ∀ sig ∈ b.signatures, ∀ cursor, job.cursorValue = some cursor →
    sig.hash ≠ canonicalSignatureIdentity job.chain cursor
  below_cutoff : 0 < job.fetchCutoffSeq → ∀ sig ∈ b.signatures, sig.sequence ≤ job.fetchCutoffSeq
  transactions : List.Forall₂ (fun raw sig => belongs raw sig.hash) b.rawTransactions b.signatures
  cursor : ∃ newest, b.signatures.getLast? = some newest ∧ b.newCursorValue = some newest.hash ∧
    b.newCursorSequence = newest.sequence
  reordered : ∀ fetch fetchWithCutoff, Reorders env (env.listing fetch fetchWithCutoff) →
    (processJob settings (env.listing fetch fetchWithCutoff) job stored).sent = some b

/-- No signature that the adapter lists is the cursor's. -/
def CursorUnlisted (env : Env) (job : FetchJob) : Prop :=
  ∀ attempt size response, (signatureCalls env job).call attempt size = .ok response →
    ∀ raw ∈ response, ∀ cursor, job.cursorValue = some cursor →
      canonicalSignatureIdentity job.chain raw.hash ≠ canonicalSignatureIdentity job.chain cursor

def Settled (chainID : Chain) (cursorValue : Option String) : Prop :=
  ∀ cursor, cursorValue = some cursor →
    canonicalSignatureIdentity chainID (canonicalSignatureIdentity chainID cursor) =
      canonicalSignatureIdentity chainID cursor

section Aligned
variable {settings : Settings} {env : Env} {job : FetchJob} {stored : Option Int} {b : RawBatch}
variable {belongs : String → String → Prop}

section Reordered
variable {fetch : Nat → String → Option String → Int → Except Err (List SignatureInfo)}
variable {fetchWithCutoff :
  Option (Nat → String → Option String → Int → Int → Except Err (List SignatureInfo))}

theorem fetchSignaturesWithRetry_alike (h : Reorders env (env.listing fetch fetchWithCutoff))
    (settings : Settings) (job : FetchJob) (size : Int) :
    Alike List.Perm (fetchSignaturesWithRetry settings env job size).result
        (fetchSignaturesWithRetry settings (env.listing fetch fetchWithCutoff) job size).result ∧
      (fetchSignaturesWithRetry settings (env.listing fetch fetchWithCutoff) job size).size =
        (fetchSignaturesWithRetry settings env job size).size ∧
      (fetchSignaturesWithRetry settings (env.listing fetch fetchWithCutoff) job size).recorded =
        (fetchSignaturesWithRetry settings env job size).recorded := by
  have hcall : ∀ attempt size, Alike List.Perm ((signatureCalls env job).call attempt size)
      ((signatureCalls (env.listing fetch fetchWithCutoff) job).call attempt size) :=
    fun attempt size => h attempt _ _ size _
  exact retryFrom_alike hcall rfl rfl _ _ size

/-- A job does not see in which order the signatures are listed. -/
theorem processJob_reordered (h : Reorders env (env.listing fetch fetchWithCutoff)) :
    processJob settings (env.listing fetch fetchWithCutoff) job stored =
      processJob settings env job stored := by
  unfold processJob
  cases hbre : env.breakerErr with
  | some e =>
    have hbre' : (env.listing fetch fetchWithCutoff).breakerErr = some e := hbre
    rw [hbre']
  | none =>
    have hbre' : (env.listing fetch fetchWithCutoff).breakerErr = none := hbre
    rw [hbre']
    obtain ⟨hres, hsize, hrec⟩ := fetchSignaturesWithRetry_alike h settings job
      (signatureBatch settings job (resolveBatchSize settings stored job.batchSize))
    simp only [afterSignatures, hsize, hrec]
    revert hres
    generalize (fetchSignaturesWithRetry settings env job _).result = result
    generalize (fetchSignaturesWithRetry settings (env.listing fetch fetchWithCutoff) job _).result =
      result'
    intro hres
    cases hres with
    | error e => rfl
    | @ok sigs sigs' hperm =>
      cases sigs with
      | nil =>
        obtain rfl := hperm.nil_eq
        rfl
      | cons sig sigs =>
        cases sigs' with
        | nil => cases hperm.eq_nil
        | cons sig' sigs' =>
          simp only [selectSignatures_perm hperm]
          rfl

end Reordered

theorem passes_ne_cursor (hset : Settled job.chain job.cursorValue) {raw : SignatureInfo}
    (hne : canonicalSignatureIdentity job.chain raw.hash ≠ "")
    (hpass : passes job.chain job.fetchCutoffSeq
      job.canonicalCursor raw = true) {cursor : String}
    (hcur : job.cursorValue = some cursor) :
    canonicalSignatureIdentity job.chain raw.hash ≠
      canonicalSignatureIdentity job.chain cursor := by
  intro heq
  have hid := hset cursor hcur
  rw [heq] at hne
  have hcan : job.canonicalCursor = some (canonicalSignatureIdentity job.chain cursor) := by
    rw [FetchJob.canonicalCursor, hcur]
    exact if_neg hne
  rw [hcan] at hpass
  simp [passes, hid, hne, heq] at hpass

theorem passes_below_cutoff {chainID : Chain} {cutoffSeq : Int} {cursor : Option String}
    {raw : SignatureInfo} (hpass : passes chainID cutoffSeq cursor raw = true)
    (hcut : 0 < cutoffSeq) : raw.sequence ≤ cutoffSeq := by
  have hcuto := (Bool.and_eq_true_iff.mp hpass).1
  simp only [hcut, decide_true, Bool.true_and, Bool.not_eq_true', decide_eq_false_iff_not] at hcuto
  omega

theorem processJob_aligned (hcursor : ∀ attempt size response,
      (signatureCalls env job).call attempt size = .ok response → ∀ raw ∈ response,
      canonicalSignatureIdentity job.chain raw.hash ≠ "" →
      passes job.chain job.fetchCutoffSeq job.canonicalCursor raw =
        true → ∀ cursor, job.cursorValue = some cursor →
      canonicalSignatureIdentity job.chain raw.hash ≠ canonicalSignatureIdentity job.chain cursor)
    (heach : OneForEach env belongs) (h : (processJob settings env job stored).sent = some b) :
    Aligned settings env job stored belongs b := by
  obtain ⟨size, response, selected, recorded, hsign, hsel, hemit⟩ := processJob_sent h
  obtain ⟨attempt, hcall⟩ := hsign.call
  obtain ⟨count, rawTxs, newest, htra, hlast, rfl⟩ := emitBatch_sent hemit
  obtain ⟨attempt', htx⟩ := htra.call
  obtain ⟨raw, htx, heq⟩ := Result.map_ok htx
  cases heq
  obtain ⟨horder, hmem⟩ := selectSignatures_inOrder hsel
  have hpre : selected.take count.toNat <+: selected := List.take_prefix _ _
  refine ⟨?_, ⟨attempt, size, response, selected, hcall, hsel, hpre, ?_⟩, ?_, ?_, ?_, ?_, ?_,
    ?_⟩
  · intro hnil
    have hnone : (selected.take count.toNat).getLast? = none := by
      rw [show selected.take count.toNat = [] from hnil]
      rfl
    rw [hlast] at hnone
    cases hnone
  · intro sig hsig
    obtain ⟨raw, hraw, _, _, rfl⟩ := hmem sig (hpre.subset hsig)
    exact ⟨raw, hraw, rfl⟩
  · exact horder.sublist hpre.sublist
  · intro sig hsig cursor hcur
    obtain ⟨raw, hraw, hid, hpass, rfl⟩ := hmem sig (hpre.subset hsig)
    exact hcursor attempt size response hcall raw hraw hid hpass cursor hcur
  · intro hcut sig hsig
    obtain ⟨raw, _, _, hpass, rfl⟩ := hmem sig (hpre.subset hsig)
    have hle := passes_below_cutoff hpass hcut
    exact hle
  · exact List.forall₂_map_right_iff.mp (heach _ _ _ htx)
  · exact ⟨newest, hlast, rfl, rfl⟩
  · intro fetch fetchWithCutoff hreo
    rw [processJob_reordered hreo]
    exact h

def listingCursor (cursor : String) : Env where
  fetchNewSignatures _ _ _ _ := .ok [{ hash := cursor, sequence := 1 }]
  fetchTransactions _ hashes := .ok hashes

def jobFrom (chainID : Chain) (cursor : String) : FetchJob :=
  { chain := chainID, network := .mainnet, cursorValue := some cursor, batchSize := 1 }

theorem listingCursor_oneForEach (cursor : String) : OneForEach (listingCursor cursor) Eq := by
  intro attempt hashes rawTxs h
  cases h
  exact List.forall₂_refl _

theorem processJob_cursor_again {chainID : Chain} {cursor : String}
    (h : canonicalSignatureIdentity chainID (canonicalSignatureIdentity chainID cursor) ≠
      canonicalSignatureIdentity chainID cursor) :
    ∃ b, (processJob {} (listingCursor cursor) (jobFrom chainID cursor) none).sent = some b ∧
      b.signatures = [{ hash := canonicalSignatureIdentity chainID cursor, sequence := 1 }] := by
  have hempty : canonicalSignatureIdentity chainID cursor ≠ "" := by
    intro hnil
    rw [hnil] at h
    exact h rfl
  have hcur : canonicalizeCursorValue chainID (some cursor) =
      some (canonicalSignatureIdentity chainID cursor) := if_neg hempty
  have hsel : selectSignatures (jobFrom chainID cursor) 1 [{ hash := cursor, sequence := 1 }] =
      some [{ hash := canonicalSignatureIdentity chainID cursor, sequence := 1 }] := by
    have hpass : passes chainID 0 (some (canonicalSignatureIdentity chainID cursor))
        { hash := cursor, sequence := 1 } = true := by
      simp [passes, h.symm]
    have hcan : SignatureInfo.candidate chainID { hash := cursor, sequence := 1 } =
        some { hash := canonicalSignatureIdentity chainID cursor, sequence := 1 } :=
      candidate_eq_some.mpr ⟨hempty, rfl⟩
    simp [selectSignatures, jobFrom, hcur, filterAndCanonicalizeSignatures, hpass,
      canonicalSignatures, hcan, BestOf.keep, BestOf.put, suppressPreCursorSequenceCarryover]
  have hsigs : ∀ size, fetchSignaturesWithRetry {} (listingCursor cursor) (jobFrom chainID cursor)
      size = ⟨.ok [{ hash := cursor, sequence := 1 }], size, [false]⟩ := fun _ => rfl
  have hreq : resolveBatchSize {} none (jobFrom chainID cursor).batchSize = 1 := rfl
  unfold processJob
  simp only [afterSignatures, hsigs, hreq, hsel]
  exact ⟨_, rfl, rfl⟩

/-- Every batch of every job from a cursor is an aligned prefix of what was selected, whatever the
adapter answers, exactly if the identity of the cursor is its own identity. The batch of one job
is if the adapter does not list the cursor. -/
theorem processJob_aligned_iff (chainID : Chain) (cursorValue : Option String) :
    ((∀ (settings : Settings) (env : Env) (job : FetchJob) (stored : Option Int)
      (belongs : String → String → Prop) (b : RawBatch), job.chain = chainID →
      job.cursorValue = cursorValue → OneForEach env belongs →
      (processJob settings env job stored).sent = some b →
      Aligned settings env job stored belongs b) ↔ Settled chainID cursorValue) ∧
    ∀ (settings : Settings) (env : Env) (job : FetchJob) (stored : Option Int)
      (belongs : String → String → Prop) (b : RawBatch), CursorUnlisted env job →
      OneForEach env belongs → (processJob settings env job stored).sent = some b →
      Aligned settings env job stored belongs b := by
  refine ⟨⟨?_, ?_⟩, fun settings env job stored belongs b hlist heach hsent => ?_⟩
  · intro h cursor hcur
    by_contra hne
    obtain ⟨b, hsent, hsigs⟩ := processJob_cursor_again hne
    have hali := h {} (listingCursor cursor) (jobFrom chainID cursor) none Eq b rfl hcur.symm
      (listingCursor_oneForEach cursor) hsent
    refine hali.not_cursor { hash := canonicalSignatureIdentity chainID cursor, sequence := 1 } ?_
      cursor rfl rfl
    rw [hsigs]
    exact List.mem_cons_self
  · intro hset settings env job stored belongs b hchain hcur heach hsent
    refine processJob_aligned (fun _ _ _ _ raw _ hid hpass cursor hcursor => ?_) heach hsent
    refine passes_ne_cursor ?_ hid hpass hcursor
    rw [hchain, hcur]
    exact hset
  · refine processJob_aligned ?_ heach hsent
    exact fun attempt size response hcall raw hraw _ _ => hlist attempt size response hcall raw hraw

/-- The cursor `0x0xab` stands for `0xab`, which stands for `ab`. -/
theorem processJob_sends_cursor :
    ∃ b, (processJob {} (listingCursor "0x0xab") (jobFrom .btc "0x0xab") none).sent = some b ∧
      OneForEach (listingCursor "0x0xab") Eq ∧
      b.signatures = [{ hash := canonicalSignatureIdentity .btc "0x0xab", sequence := 1 }] ∧
      ¬ Aligned {} (listingCursor "0x0xab") (jobFrom .btc "0x0xab") none Eq b := by
  obtain ⟨b, hsent, hsigs⟩ : ∃ b, (processJob {} (listingCursor "0x0xab") (jobFrom .btc "0x0xab")
      none).sent = some b ∧
      b.signatures = [{ hash := canonicalSignatureIdentity .btc "0x0xab", sequence := 1 }] :=
    processJob_cursor_again (by decide +kernel)
  refine ⟨b, hsent, listingCursor_oneForEach _, hsigs, fun hali => ?_⟩
  refine hali.not_cursor { hash := canonicalSignatureIdentity .btc "0x0xab", sequence := 1 } ?_
    "0x0xab" rfl rfl
  rw [hsigs]
  exact List.mem_cons_self

end Aligned

end AddressJob

end MultichainIndexer
