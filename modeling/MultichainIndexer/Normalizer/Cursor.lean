import MultichainIndexer.Lib.Result
import MultichainIndexer.Normalizer.ProcessBatch

/-!
# The cursor of a normalized batch

A signature that is decoded adds a transaction and moves the cursor up to its
sequence; one that is not leaves both as they are. So the cursor of a batch is
its own or the sequence of one of its signatures, and where every signature is
answered it is at or above them all.
-/

namespace MultichainIndexer

open Text Accumulate

namespace Normalizer

variable {env : NormalizerEnv} {batch : RawBatch} {nb : NormalizedBatch}

theorem processBatch_ok (h : processBatch env batch = .ok nb) :
    batch.signatures = [] ∧ nb = normalizedBatch batch
      (canonicalizeCursorValue batch.chain batch.newCursorValue) batch.newCursorSequence [] ∨
    ∃ resp st, env.decode ((batch.signatures.map SignatureInfo.hash).zip batch.rawTransactions)
        (requestedAddresses batch) = .ok resp ∧
      st = decodeSignatures env batch (classifyDecodeErrors env batch.chain resp.errors).1
        resp.results (canonicalizeBatchSignatures batch.chain batch.signatures) ∧
      nb = normalizedBatch batch st.newCursorValue st.newCursorSequence st.transactions := by
  unfold processBatch at h
  split at h
  · rename_i hempty
    rw [Bool.and_eq_true, List.isEmpty_iff, List.isEmpty_iff] at hempty
    cases h
    exact .inl ⟨hempty.2, rfl⟩
  · obtain ⟨_, h⟩ := Result.guard_ok h
    obtain ⟨_, h⟩ := Result.guard_ok h
    split at h
    · cases h
    · split at h
      · cases h
      · rename_i resp hresp
        obtain ⟨_, h⟩ := Result.guard_ok h
        obtain ⟨_, h⟩ := Result.guard_ok h
        cases h
        exact .inr ⟨resp, _, hresp, rfl, rfl⟩

theorem processBatch_frame (h : processBatch env batch = .ok nb) :
    nb.chain = batch.chain ∧ nb.network = batch.network ∧
      nb.previousCursorValue = canonicalizeCursorValue batch.chain batch.previousCursorValue := by
  rcases processBatch_ok h with ⟨_, rfl⟩ | ⟨_, _, _, _, rfl⟩
  · exact ⟨rfl, rfl, rfl⟩
  · exact ⟨rfl, rfl, rfl⟩

section Step
variable {terminal : List (String × String)} {ans : Answers} {single : Bool}
variable {st : Decoded} {sig : SignatureInfo}

theorem advanced_sequence (current : Int) (value : Option String) (sequence : Int) (key : String) :
    (if shouldAdvanceCanonicalCursor current value sequence key then sequence else current) =
      max current sequence := by
  by_cases hlt : current < sequence
  · rw [shouldAdvanceCanonicalCursor, if_pos hlt, if_pos rfl]
    omega
  · by_cases hgt : sequence < current
    · rw [shouldAdvanceCanonicalCursor, if_neg hlt, if_pos hgt, if_neg nofun]
      omega
    · split
      · omega
      · omega

theorem decodeSignature_cases :
    (∃ result, (decodeSignature env batch terminal ans single st sig).transactions =
        st.transactions ++
          [normalizedTxFromResult env batch result sig.time (resolveWatchedAddressSet batch)] ∧
      (decodeSignature env batch terminal ans single st sig).newCursorSequence =
        max st.newCursorSequence sig.sequence) ∨
    (decodeSignature env batch terminal ans single st sig).transactions = st.transactions ∧
      (decodeSignature env batch terminal ans single st sig).newCursorSequence =
        st.newCursorSequence := by
  unfold decodeSignature
  simp only
  split
  · exact .inr ⟨rfl, rfl⟩
  · split
    · exact .inr ⟨rfl, rfl⟩
    · split
      · exact .inr ⟨rfl, rfl⟩
      · exact .inl ⟨_, rfl, advanced_sequence _ _ _ _⟩

theorem decodeSignature_answered (env : NormalizerEnv) (ans : Answers) (single : Bool)
    (hkey : canonicalSignatureIdentity batch.chain sig.hash ≠ "")
    (hans : st.resultBySignature.lookup (canonicalSignatureIdentity batch.chain sig.hash) ≠ none) :
    (decodeSignature env batch [] ans single st sig).newCursorSequence =
        max st.newCursorSequence sig.sequence ∧
      (decodeSignature env batch [] ans single st sig).resultBySignature =
        st.resultBySignature.filter (·.1 ≠ canonicalSignatureIdentity batch.chain sig.hash) := by
  obtain ⟨result, hres⟩ := Option.ne_none_iff_exists'.mp hans
  unfold decodeSignature
  simp only [canonicalSignatureIdentity_trimSpace, if_neg hkey, List.lookup_nil, resultFor, hres]
  exact ⟨advanced_sequence _ _ _ _, trivial⟩

end Step

theorem startDecoded_sequence (hprev : batch.previousCursorValue = none) (ans : Answers) :
    (startDecoded batch ans).newCursorSequence = batch.newCursorSequence := by
  unfold startDecoded
  rw [hprev]
  rfl

theorem startDecoded_transactions (ans : Answers) :
    (startDecoded batch ans).transactions = [] := by
  unfold startDecoded
  split
  · rfl
  · rfl

theorem startDecoded_results (ans : Answers) :
    (startDecoded batch ans).resultBySignature = ans.expected := by
  unfold startDecoded
  split
  · rfl
  · rfl

theorem processBatch_blockHash (h : processBatch env batch = .ok nb) :
    ∀ ntx ∈ nb.transactions, ntx.blockHash = "" := by
  rcases processBatch_ok h with ⟨_, rfl⟩ | ⟨resp, st, _, rfl, rfl⟩
  · exact nofun
  · refine List.foldlRecOn _ _ (motive := fun (st : Decoded) =>
      ∀ ntx ∈ st.transactions, ntx.blockHash = "") ?_ ?_
    · rw [startDecoded_transactions]
      exact nofun
    · intro st hst sig _ ntx hntx
      rcases decodeSignature_cases with ⟨result, htx, _⟩ | ⟨htx, _⟩
      · rw [htx] at hntx
        rcases List.mem_append.mp hntx with hold | hnew
        · exact hst ntx hold
        · rw [List.mem_singleton.mp hnew]
          rfl
      · rw [htx] at hntx
        exact hst ntx hntx

theorem processBatch_cursor_mem (h : processBatch env batch = .ok nb)
    (hprev : batch.previousCursorValue = none) :
    nb.newCursorSequence = batch.newCursorSequence ∨
      ∃ sig ∈ batch.signatures, nb.newCursorSequence = sig.sequence := by
  rcases processBatch_ok h with ⟨_, rfl⟩ | ⟨resp, st, _, rfl, rfl⟩
  · exact .inl rfl
  · refine List.foldlRecOn _ _ (motive := fun (st : Decoded) =>
      st.newCursorSequence = batch.newCursorSequence ∨
        ∃ sig ∈ batch.signatures, st.newCursorSequence = sig.sequence) ?_ ?_
    · exact .inl (startDecoded_sequence hprev _)
    · intro st hst sig hsig
      rcases decodeSignature_cases with ⟨_, _, hseq⟩ | ⟨_, hseq⟩
      · rw [hseq]
        rcases Int.le_total st.newCursorSequence sig.sequence with hle | hle
        · rw [Int.max_eq_right hle]
          obtain ⟨orig, horig, _, rfl⟩ := mem_canonicalSignatures hsig
          exact .inr ⟨orig, horig, rfl⟩
        · rw [Int.max_eq_left hle]
          exact hst
      · rw [hseq]
        exact hst

section Answered

/-- The sidecar answers for every signature of the batch and reports no error. -/
def AnswersAll (env : NormalizerEnv) (batch : RawBatch) : Prop :=
  ∃ resp, env.decode ((batch.signatures.map SignatureInfo.hash).zip batch.rawTransactions)
      (requestedAddresses batch) = .ok resp ∧ resp.errors = [] ∧
    ∀ sig ∈ batch.signatures, ∃ result ∈ resp.results,
      canonicalSignatureIdentity batch.chain result.txHash =
        canonicalSignatureIdentity batch.chain sig.hash

section Collect
variable {chainID : Chain} {expected : List String} {key : String}

theorem lookup_add {ans : Answers} {result : TransactionResult} (hne : key ≠ "")
    (hmem : key ∈ expected) :
    (Answers.add chainID expected ans result).expected.lookup key =
      if canonicalSignatureIdentity chainID result.txHash = key then
        gather (reconcileDecodedResultCoverage chainID ∘ some) (ans.expected.lookup key) result
      else ans.expected.lookup key := by
  unfold Answers.add
  simp only
  by_cases hkey : canonicalSignatureIdentity chainID result.txHash = key
  · rw [hkey, if_neg hne, if_neg (not_not.mpr hmem), if_pos rfl, lookup_bump, if_pos rfl]
    rfl
  · rw [if_neg hkey]
    split
    · rfl
    · split
      · rfl
      · rw [lookup_bump, if_neg (Ne.symm hkey)]

theorem lookup_collectAnswers (hne : key ≠ "") (hmem : key ∈ expected)
    (results : List TransactionResult) :
    (collectAnswers chainID expected results).expected.lookup key =
      (results.filter (canonicalSignatureIdentity chainID ·.txHash = key)).foldl
        (gather (reconcileDecodedResultCoverage chainID ∘ some)) none := by
  induction results using List.reverseRecOn with
  | nil => rfl
  | append_singleton results result ih =>
    rw [collectAnswers, List.foldl_concat, ← collectAnswers, lookup_add hne hmem, ih,
      List.filter_append, List.foldl_append]
    by_cases hkey : canonicalSignatureIdentity chainID result.txHash = key
    · simp [hkey]
    · simp [hkey]

end Collect

/-- What a signature is decoded with has the events of all its answers, and of what the floor
remembers for it. -/
theorem answer_mergedFrom {expected : List String} {key : String} {result : TransactionResult}
    {results : List TransactionResult} (hne : key ≠ "") (hmem : key ∈ expected)
    (h : (collectAnswers batch.chain expected results).expected.lookup key = some result) :
    MergedFrom batch.chain
      ((env.coverageFloor (coverageFloorKey batch.chain batch.network batch.address key)).toList ++
        results.filter (canonicalSignatureIdentity batch.chain ·.txHash = key))
      (reconcileCoverageRegressionFlap env.coverageFloor batch key result) := by
  rw [lookup_collectAnswers hne hmem] at h
  unfold reconcileCoverageRegressionFlap
  rw [if_neg hne]
  cases env.coverageFloor (coverageFloorKey batch.chain batch.network batch.address key) with
  | none => exact mergedFrom_gather h
  | some existing => exact mergedFrom_self.reconcile (mergedFrom_gather h)

theorem foldl_answered {ans : Answers} {single : Bool} (sigs : List SignatureInfo) (st : Decoded)
    (hne : ∀ sig ∈ sigs, canonicalSignatureIdentity batch.chain sig.hash ≠ "")
    (hnodup : (sigs.map fun sig => canonicalSignatureIdentity batch.chain sig.hash).Nodup)
    (hans : ∀ sig ∈ sigs,
      st.resultBySignature.lookup (canonicalSignatureIdentity batch.chain sig.hash) ≠ none) :
    st.newCursorSequence ≤
        (sigs.foldl (decodeSignature env batch [] ans single) st).newCursorSequence ∧
      ∀ sig ∈ sigs, sig.sequence ≤
        (sigs.foldl (decodeSignature env batch [] ans single) st).newCursorSequence := by
  induction sigs generalizing st with
  | nil => exact ⟨Int.le_refl _, nofun⟩
  | cons sig rest ih =>
    obtain ⟨hfresh, hnodup⟩ := List.nodup_cons.mp hnodup
    obtain ⟨hseq, hres⟩ := decodeSignature_answered env ans single
      (hne sig List.mem_cons_self) (hans sig List.mem_cons_self)
    have hrest : ∀ other ∈ rest,
        (decodeSignature env batch [] ans single st sig).resultBySignature.lookup
          (canonicalSignatureIdentity batch.chain other.hash) ≠ none := by
      intro other hother
      rw [hres, lookup_filter_ne, if_neg]
      · exact hans other (List.mem_cons_of_mem sig hother)
      · exact fun heq => hfresh (List.mem_map.mpr ⟨other, hother, heq⟩)
    obtain ⟨hge, hall⟩ := ih _ (List.forall_mem_cons.mp hne).2
      hnodup hrest
    rw [hseq] at hge
    rw [List.foldl_cons]
    refine ⟨Int.le_trans (Int.le_max_left _ _) hge, fun other hother => ?_⟩
    rcases List.mem_cons.mp hother with rfl | hin
    · exact Int.le_trans (Int.le_max_right _ _) hge
    · exact hall other hin

def StableHash (chainID : Chain) (sig : SignatureInfo) : Prop :=
  sig.hash ≠ "" ∧ canonicalSignatureIdentity chainID sig.hash = sig.hash

/-- The cursor of a batch that is answered in full is at or above its signatures. -/
theorem processBatch_cursor_ge (h : processBatch env batch = .ok nb) (hall : AnswersAll env batch)
    (hsta : ∀ sig ∈ batch.signatures, StableHash batch.chain sig) :
    ∀ sig ∈ batch.signatures, sig.sequence ≤ nb.newCursorSequence := by
  rcases processBatch_ok h with ⟨hnil, rfl⟩ | ⟨resp, st, hresp, rfl, rfl⟩
  · rw [hnil]
    exact nofun
  · obtain ⟨resp', hresp', herr, hans⟩ := hall
    obtain rfl : resp = resp' := Except.ok.inj (hresp.symm.trans hresp')
    rw [herr]
    set sigs := canonicalizeBatchSignatures batch.chain batch.signatures with hsigs
    -- a canonical signature is a signature of the batch
    have hmem : ∀ c ∈ sigs, c ∈ batch.signatures := by
      intro c hc
      obtain ⟨sig, hsig, _, rfl⟩ := mem_canonicalSignatures hc
      rw [(hsta sig hsig).2]
      exact hsig
    have hkeys : (sigs.map fun sig => canonicalSignatureIdentity batch.chain sig.hash) =
        sigs.map SignatureInfo.hash :=
      List.map_congr_left fun c hc => (hsta c (hmem c hc)).2
    have hne : ∀ c ∈ sigs, canonicalSignatureIdentity batch.chain c.hash ≠ "" := by
      intro c hc
      rw [(hsta c (hmem c hc)).2]
      exact (hsta c (hmem c hc)).1
    intro sig hsig
    obtain ⟨c, hc, _, hle⟩ := exists_canonicalSignatures normalizerReplaces_keeps hsig
      (by rw [(hsta sig hsig).2]; exact (hsta sig hsig).1)
    refine Int.le_trans hle ((foldl_answered sigs _ hne ?_ fun c hc => ?_).2 c hc)
    · rw [hkeys]
      exact nodup_canonicalSignatures
    · rw [startDecoded_results]
      obtain ⟨result, hres, hkey⟩ := hans c (hmem c hc)
      rw [lookup_collectAnswers (hne c hc), Ne, gather_eq_none]
      · exact List.ne_nil_of_mem (List.mem_filter.mpr ⟨hres, decide_eq_true hkey⟩)
      · exact List.mem_filter.mpr ⟨List.mem_map.mpr ⟨c, hc, rfl⟩, by simpa using hne c hc⟩

end Answered

end Normalizer

end MultichainIndexer
