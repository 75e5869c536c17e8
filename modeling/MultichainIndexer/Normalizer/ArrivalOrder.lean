import MultichainIndexer.Normalizer.ProcessBatch
import MultichainIndexer.Pipeline.Retry
import Mathlib.Data.List.MinMax
import Mathlib.Data.String.Basic

/-!
# The order in which errors and events arrive

The errors of a decode are sorted out by signature, one after the other: a
transient error takes its signature out of the terminal map and keeps later
terminal errors out. Both maps are what the errors of each signature say together,
in whatever order they come.

The finality of a transaction is looked for in its events, key by key, with two
ways out of the loops. It is the strongest state that any event reports.
-/

namespace MultichainIndexer

open Text Accumulate

namespace Normalizer

section DecodeErrors

/-- `retry.Classify` of an error that wraps nothing. -/
def decodeTransient (text : String) : Bool := (Retry.classify ⟨text, [{}]⟩).isTransient

def reasonOf (decErr : DecodeError) : String :=
  let trimmed := trimSpace decErr.error
  if trimmed = "" then "decode failed" else trimmed

def lesserReason (existing reason : String) : String :=
  if reason < existing then reason else existing

theorem lesserReason_eq (existing reason : String) :
    lesserReason existing reason = min existing reason := by
  unfold lesserReason
  split
  · rename_i h
    exact (min_eq_right h.le).symm
  · rename_i h
    exact (min_eq_left (not_lt.mp h)).symm

variable (env : NormalizerEnv) (chainID : Chain)

def transientError (decErr : DecodeError) : Bool :=
  env.isTransient ("sidecar decode error: " ++ reasonOf decErr)

def classifyError (maps : List (String × String) × List (String × String)) (decErr : DecodeError) :
    List (String × String) × List (String × String) :=
  let signatureKey := canonicalSignatureIdentity chainID decErr.signature
  let reason := reasonOf decErr
  if transientError env decErr then
    (maps.1.filter (·.1 ≠ signatureKey), bump signatureKey reason (lesserReason · reason) maps.2)
  else if maps.2.any (·.1 = signatureKey) then maps
  else (bump signatureKey reason (lesserReason · reason) maps.1, maps.2)

def reasonsOf (decErrors : List DecodeError) (key : String) (transient : Bool) : List String :=
  (decErrors.filter fun e => canonicalSignatureIdentity chainID e.signature = key ∧
    transientError env e = transient).map reasonOf

def leastReason (decErrors : List DecodeError) (key : String) (transient : Bool) : Option String :=
  (reasonsOf env chainID decErrors key transient).foldl (gather lesserReason) none

variable {env chainID} {decErrors : List DecodeError}

variable {key : String} {transient : Bool}

theorem mem_reasonsOf {reason : String} :
    reason ∈ reasonsOf env chainID decErrors key transient ↔ ∃ e ∈ decErrors,
      canonicalSignatureIdentity chainID e.signature = key ∧ transientError env e = transient ∧
        reasonOf e = reason := by
  simp [reasonsOf, and_assoc]

theorem reasonsOf_concat (e : DecodeError) (key : String) (transient : Bool) :
    reasonsOf env chainID (decErrors ++ [e]) key transient =
      reasonsOf env chainID decErrors key transient ++
        if canonicalSignatureIdentity chainID e.signature = key ∧ transientError env e = transient
        then [reasonOf e] else [] := by
  unfold reasonsOf
  rw [List.filter_append, List.map_append]
  split
  · rename_i h
    simp [h]
  · rename_i h
    simp [h]

theorem classifyDecodeErrors_eq
    (hsig : ∀ e ∈ decErrors, canonicalSignatureIdentity chainID e.signature ≠ "") :
    classifyDecodeErrors env chainID decErrors =
      decErrors.foldl (classifyError env chainID) ([], []) := by
  induction decErrors using List.reverseRecOn with
  | nil => rfl
  | append_singleton decErrors e ih =>
    have hprev := ih fun e he => hsig e (List.mem_append_left _ he)
    have hkey := hsig e (List.mem_append_right _ (List.mem_singleton_self e))
    unfold classifyDecodeErrors at hprev ⊢
    rw [List.zipIdx_append, List.foldl_append, hprev, List.foldl_append]
    simp only [List.zipIdx_cons, List.zipIdx_nil, List.foldl_cons, List.foldl_nil, if_neg hkey]
    rfl

theorem any_key_iff {maps : List (String × String)} :
    maps.any (·.1 = key) = true ↔ (maps.lookup key).isSome = true := by
  induction maps with
  | nil => simp
  | cons e maps ih =>
    rw [List.any_cons, lookup_cons_eq]
    by_cases h : e.1 = key
    · simp [h]
    · simp [h, Ne.symm h, ih]

/-- The invariant of the loop: a signature's terminal reasons count as long as it has no transient
one. -/
theorem lookup_classify (key : String) :
    (decErrors.foldl (classifyError env chainID) ([], [])).2.lookup key =
        leastReason env chainID decErrors key true ∧
      (decErrors.foldl (classifyError env chainID) ([], [])).1.lookup key =
        if reasonsOf env chainID decErrors key true = [] then
          leastReason env chainID decErrors key false
        else none := by
  unfold leastReason
  induction decErrors using List.reverseRecOn with
  | nil => exact ⟨rfl, rfl⟩
  | append_singleton decErrors e ih =>
    obtain ⟨htra, hter⟩ := ih
    rw [List.foldl_concat, reasonsOf_concat, reasonsOf_concat]
    generalize decErrors.foldl (classifyError env chainID) ([], []) = maps at htra hter
    unfold classifyError
    dsimp only
    by_cases hkey : canonicalSignatureIdentity chainID e.signature = key
    · rw [hkey]
      by_cases hclass : transientError env e = true
      · simp only [hclass, if_true, lookup_bump, lookup_filter_ne, true_and, Bool.true_eq_false,
          if_false, List.append_nil, List.foldl_concat, gather]
        rw [htra]
        exact ⟨rfl, (if_neg (by simp)).symm⟩
      · rw [Bool.not_eq_true] at hclass
        simp only [hclass, true_and, Bool.false_eq_true, if_false, List.append_nil, if_true,
          List.foldl_concat]
        split
        · rename_i hany
          rw [any_key_iff, htra] at hany
          have hne : reasonsOf env chainID decErrors key true ≠ [] := by
            intro hnil
            rw [hnil] at hany
            cases hany
          rw [if_neg hne] at hter ⊢
          exact ⟨htra, hter⟩
        · rename_i hany
          have hnil : reasonsOf env chainID decErrors key true = [] := by
            rw [any_key_iff, htra, Bool.not_eq_true, Option.isSome_eq_false_iff,
              Option.isNone_iff_eq_none] at hany
            exact gather_eq_none.mp hany
          rw [if_pos hnil] at hter ⊢
          rw [lookup_bump, if_pos rfl, hter]
          exact ⟨htra, rfl⟩
    · have hkey' : ¬ key = canonicalSignatureIdentity chainID e.signature := Ne.symm hkey
      simp only [hkey, false_and, if_false, List.append_nil]
      split
      · simp only [lookup_bump, lookup_filter_ne, if_neg hkey']
        exact ⟨htra, hter⟩
      · split
        · exact ⟨htra, hter⟩
        · simp only [lookup_bump, if_neg hkey']
          exact ⟨htra, hter⟩

theorem isLeast_reasons {reason : String}
    (h : leastReason env chainID decErrors key transient = some reason) :
    IsLeast {r | ∃ e ∈ decErrors, canonicalSignatureIdentity chainID e.signature = key ∧
      transientError env e = transient ∧ reasonOf e = r} reason := by
  have hleast := isLeast_gather (m := id) lesserReason_eq h
  simpa only [id, exists_eq_right, mem_reasonsOf] using hleast

theorem reasonsOf_perm {decErrors' : List DecodeError} (h : decErrors.Perm decErrors')
    (key : String) (transient : Bool) :
    (reasonsOf env chainID decErrors key transient).Perm
      (reasonsOf env chainID decErrors' key transient) :=
  (h.filter _).map _

theorem isSome_reasons :
    (leastReason env chainID decErrors key transient).isSome ↔
      ∃ e ∈ decErrors, canonicalSignatureIdentity chainID e.signature = key ∧
        transientError env e = transient := by
  rw [leastReason, Option.isSome_iff_ne_none, Ne, gather_eq_none, List.eq_nil_iff_forall_not_mem]
  simp [mem_reasonsOf]

theorem reasonsOf_eq_nil :
    reasonsOf env chainID decErrors key transient = [] ↔ ∀ e ∈ decErrors,
      canonicalSignatureIdentity chainID e.signature = key → transientError env e ≠ transient := by
  simp [reasonsOf]

theorem lookup_classify_perm {decErrors' : List DecodeError} (h : decErrors.Perm decErrors')
    (key : String) :
    (decErrors'.foldl (classifyError env chainID) ([], [])).1.lookup key =
        (decErrors.foldl (classifyError env chainID) ([], [])).1.lookup key ∧
      (decErrors'.foldl (classifyError env chainID) ([], [])).2.lookup key =
        (decErrors.foldl (classifyError env chainID) ([], [])).2.lookup key := by
  have hsame : ∀ transient, leastReason env chainID decErrors' key transient =
      leastReason env chainID decErrors key transient := by
    intro transient
    have hmap : (leastReason env chainID decErrors' key transient).map id =
        (leastReason env chainID decErrors key transient).map id :=
      map_gather_perm lesserReason_eq (reasonsOf_perm h.symm key transient)
    rw [Option.map_id, id, id] at hmap
    exact hmap
  have hnil : reasonsOf env chainID decErrors' key true = [] ↔
      reasonsOf env chainID decErrors key true = [] := by
    rw [← gather_eq_none, ← leastReason, hsame, leastReason, gather_eq_none]
  rw [(lookup_classify key).1, (lookup_classify key).1, (lookup_classify key).2,
    (lookup_classify key).2, hsame, hsame, if_congr hnil rfl rfl]
  exact ⟨rfl, rfl⟩

/-- In whatever order the errors arrive, the maps are the same: a signature with a transient error
is in the transient map, one with terminal errors only in the terminal map, each with the least
reason of the class that decides. -/
theorem classifyDecodeErrors_arrival (env : NormalizerEnv) (chainID : Chain)
    (decErrors : List DecodeError)
    (hsig : ∀ e ∈ decErrors, canonicalSignatureIdentity chainID e.signature ≠ "") :
    let env := { env with isTransient := decodeTransient }
    let classified := classifyDecodeErrors env chainID
    (∀ decErrors', decErrors.Perm decErrors' → ∀ key,
      (classified decErrors').1.lookup key = (classified decErrors).1.lookup key ∧
        (classified decErrors').2.lookup key = (classified decErrors).2.lookup key) ∧
    ∀ key,
      (((classified decErrors).2.lookup key).isSome ↔ ∃ e ∈ decErrors,
        canonicalSignatureIdentity chainID e.signature = key ∧ transientError env e = true) ∧
      (((classified decErrors).1.lookup key).isSome ↔
        (∃ e ∈ decErrors, canonicalSignatureIdentity chainID e.signature = key) ∧
          ∀ e ∈ decErrors, canonicalSignatureIdentity chainID e.signature = key →
            transientError env e = false) ∧
      (∀ reason, (classified decErrors).2.lookup key = some reason → IsLeast {r | ∃ e ∈ decErrors,
        canonicalSignatureIdentity chainID e.signature = key ∧ transientError env e = true ∧
          reasonOf e = r} reason) ∧
      ∀ reason, (classified decErrors).1.lookup key = some reason → IsLeast {r | ∃ e ∈ decErrors,
        canonicalSignatureIdentity chainID e.signature = key ∧ transientError env e = false ∧
          reasonOf e = r} reason := by
  intro env classified
  have hsig' : ∀ decErrors', decErrors.Perm decErrors' →
      ∀ e ∈ decErrors', canonicalSignatureIdentity chainID e.signature ≠ "" :=
    fun _ hperm e he => hsig e (hperm.mem_iff.mpr he)
  refine ⟨?_, ?_⟩
  · intro decErrors' hperm key
    dsimp only [classified]
    rw [classifyDecodeErrors_eq hsig, classifyDecodeErrors_eq (hsig' _ hperm)]
    exact lookup_classify_perm hperm key
  · intro key
    dsimp only [classified]
    rw [classifyDecodeErrors_eq hsig, (lookup_classify key).1, (lookup_classify key).2]
    refine ⟨isSome_reasons, ?_, fun reason => isLeast_reasons, ?_⟩
    · split
      · rename_i hnil
        rw [reasonsOf_eq_nil] at hnil
        rw [isSome_reasons]
        constructor
        · rintro ⟨e, he, hkey, -⟩
          exact ⟨⟨e, he, hkey⟩, fun e he hkey => Bool.not_eq_true _ ▸ hnil e he hkey⟩
        · rintro ⟨⟨e, he, hkey⟩, hall⟩
          exact ⟨e, he, hkey, hall e he hkey⟩
      · rename_i hne
        rw [reasonsOf_eq_nil] at hne
        constructor
        · intro h
          cases h
        · intro h
          apply absurd _ hne
          intro e he hkey
          rw [h.2 e he hkey]
          exact Bool.false_ne_true
    · intro reason h
      split at h
      · exact isLeast_reasons h
      · cases h

/-- A parse error that is final and a timeout that is not, for one signature. -/
def mixedErrors : List DecodeError := [⟨"sig", "parse error"⟩, ⟨"sig", "timeout"⟩]

theorem classifyDecodeErrors_arrival_mixed :
    (∀ e ∈ mixedErrors, canonicalSignatureIdentity .solana e.signature ≠ "") ∧
      ∀ env : NormalizerEnv,
        (classifyDecodeErrors { env with isTransient := decodeTransient } .solana
            mixedErrors.reverse).2.lookup "sig" =
          (classifyDecodeErrors { env with isTransient := decodeTransient } .solana
            mixedErrors).2.lookup "sig" := by
  have hsig : ∀ e ∈ mixedErrors, canonicalSignatureIdentity .solana e.signature ≠ "" := by
    decide +kernel
  refine ⟨hsig, fun env => ?_⟩
  exact ((classifyDecodeErrors_arrival env .solana mixedErrors hsig).1 _
    mixedErrors.reverse_perm.symm "sig").2

end DecodeErrors

section Finality

structure FinalitySearch where
  best : String := ""
  bestRank : Nat := 0
  bestKeyOrder : Nat

def FinalitySearch.consider (st : FinalitySearch) (candidate : String) (keyOrder : Nat) :
    FinalitySearch :=
  let candidateRank := finalityStateRank candidate
  if candidateRank > st.bestRank ∨ candidateRank = st.bestRank ∧ keyOrder < st.bestKeyOrder then
    ⟨candidate, candidateRank, keyOrder⟩
  else st

/-- The loop over the keys; it ends at the highest rank. -/
def searchKeys (metadata : Metadata) (st : FinalitySearch) : List (String × Nat) → FinalitySearch
  | [] => st
  | (key, keyOrder) :: keys =>
    let candidate := canonicalizeFinalityState (metaGet metadata key)
    if candidate = "" then searchKeys metadata st keys
    else
      let st := st.consider candidate keyOrder
      if st.bestRank ≥ 4 then st else searchKeys metadata st keys

/-- The loop over the events; it ends at the highest rank. -/
def searchEvents (keys : List String) (st : FinalitySearch) :
    List BalanceEventInfo → FinalitySearch
  | [] => st
  | be :: events =>
    let st := searchKeys be.metadata st keys.zipIdx
    if st.bestRank ≥ 4 then st else searchEvents keys st events

/-- `resolveResultFinalityState` as its loops run. -/
def resolveResultFinalityStateLoop (chainID : Chain) (result : TransactionResult) : String :=
  let metadataKeys := finalityMetadataKeys chainID
  let st := searchEvents metadataKeys ⟨"", 0, metadataKeys.length⟩ result.balanceEvents
  if st.best ≠ "" then st.best else defaultFinalityState chainID

def finalityStates : List String := ["", "processed", "confirmed", "safe", "finalized"]

theorem canonicalizeFinalityState_mem (state : String) :
    canonicalizeFinalityState state ∈ finalityStates := by
  unfold canonicalizeFinalityState
  split <;> simp [finalityStates]

theorem finalityStateRank_le (state : String) : finalityStateRank state ≤ 4 := by
  unfold finalityStateRank
  split <;> decide

theorem finalityStateRank_injective :
    ∀ a ∈ finalityStates, ∀ b ∈ finalityStates, finalityStateRank a = finalityStateRank b →
      a = b := by
  decide +kernel

theorem finalityStateRank_empty : finalityStateRank "" = 0 := by decide +kernel

variable {state : String} {chainID : Chain} {result : TransactionResult}

theorem finalityStateRank_pos (hmem : state ∈ finalityStates) (hne : state ≠ "") :
    finalityStateRank "" < finalityStateRank state := by
  rw [finalityStateRank_empty]
  apply Nat.pos_of_ne_zero
  intro hzero
  rw [← finalityStateRank_empty] at hzero
  exact hne (finalityStateRank_injective _ hmem _ List.mem_cons_self hzero)

def stronger (best candidate : String) : String :=
  if finalityStateRank best < finalityStateRank candidate then candidate else best

theorem stronger_of_le {best candidate : String}
    (h : finalityStateRank candidate ≤ finalityStateRank best) : stronger best candidate = best :=
  if_neg (not_lt.mpr h)

theorem foldl_stronger_top {best : String} (h : finalityStateRank best ≥ 4)
    (candidates : List String) : candidates.foldl stronger best = best := by
  induction candidates with
  | nil => rfl
  | cons candidate candidates ih =>
    rw [List.foldl_cons, stronger_of_le ((finalityStateRank_le candidate).trans h), ih]

theorem argmax_stronger (candidates : List String) (best : String) :
    (best :: candidates).argmax finalityStateRank = some (candidates.foldl stronger best) := by
  unfold List.argmax
  rw [List.foldl_cons]
  induction candidates generalizing best with
  | nil => rfl
  | cons candidate candidates ih =>
    rw [List.foldl_cons, List.foldl_cons, ← ih, stronger]
    simp only [List.argAux, apply_ite some]

theorem foldl_stronger_spec (candidates : List String) :
    candidates.foldl stronger "" ∈ "" :: candidates ∧ ∀ c ∈ candidates,
      finalityStateRank c ≤ finalityStateRank (candidates.foldl stronger "") :=
  ⟨List.argmax_mem (argmax_stronger candidates ""),
    fun _ hc => List.le_of_mem_argmax (List.mem_cons_of_mem _ hc) (argmax_stronger candidates "")⟩

/-- The search holds a state that the chain knows, with its rank. -/
def FinalitySearch.Ranked (st : FinalitySearch) : Prop :=
  st.best ∈ finalityStates ∧ st.bestRank = finalityStateRank st.best

variable {st : FinalitySearch}

/-- At the same rank the state is the same, so the place of the key changes nothing. -/
theorem consider_best (h : st.Ranked) {candidate : String} (hc : candidate ∈ finalityStates)
    (keyOrder : Nat) : (st.consider candidate keyOrder).Ranked ∧
      (st.consider candidate keyOrder).best = stronger st.best candidate := by
  obtain ⟨hmem, hrank⟩ := h
  unfold FinalitySearch.consider
  dsimp only
  split
  · rename_i htake
    refine ⟨⟨hc, by dsimp only⟩, ?_⟩
    rw [hrank] at htake
    rcases htake with hlt | ⟨heq, -⟩
    · exact (if_pos hlt).symm
    · rw [finalityStateRank_injective candidate hc st.best hmem heq, stronger_of_le le_rfl]
  · rename_i hkeep
    refine ⟨⟨hmem, hrank⟩, (stronger_of_le ?_).symm⟩
    rw [hrank] at hkeep
    omega

theorem searchKeys_best (metadata : Metadata) (keys : List (String × Nat)) (h : st.Ranked) :
    (searchKeys metadata st keys).Ranked ∧ (searchKeys metadata st keys).best =
      (keys.map fun k => canonicalizeFinalityState (metaGet metadata k.1)).foldl stronger
        st.best := by
  induction keys generalizing st with
  | nil => exact ⟨h, rfl⟩
  | cons k keys ih =>
    obtain ⟨key, keyOrder⟩ := k
    unfold searchKeys
    dsimp only
    rw [List.map_cons, List.foldl_cons]
    split
    · rename_i hempty
      have hlow : finalityStateRank "" ≤ finalityStateRank st.best := by
        rw [finalityStateRank_empty]
        exact Nat.zero_le _
      rw [hempty, stronger_of_le hlow]
      exact ih h
    · obtain ⟨hran, hbest⟩ := consider_best h
        (canonicalizeFinalityState_mem (metaGet metadata key)) keyOrder
      split
      · rename_i htop
        rw [hran.2] at htop
        rw [← hbest, foldl_stronger_top htop]
        exact ⟨hran, rfl⟩
      · rw [← hbest]
        exact ih hran

def finalityCandidates (chainID : Chain) (events : List BalanceEventInfo) : List String :=
  events.flatMap fun be =>
    (finalityMetadataKeys chainID).map fun key => canonicalizeFinalityState (metaGet be.metadata key)

theorem searchEvents_best (chainID : Chain) (events : List BalanceEventInfo) (h : st.Ranked) :
    (searchEvents (finalityMetadataKeys chainID) st events).best =
      (finalityCandidates chainID events).foldl stronger st.best := by
  induction events generalizing st with
  | nil => rfl
  | cons be events ih =>
    have hkeys := searchKeys_best be.metadata (finalityMetadataKeys chainID).zipIdx h
    rw [← Function.comp_def (fun key => canonicalizeFinalityState (metaGet be.metadata key)) Prod.fst,
      ← List.map_map, List.zipIdx_map_fst] at hkeys
    obtain ⟨hran, hbest⟩ := hkeys
    unfold searchEvents
    dsimp only
    rw [finalityCandidates, List.flatMap_cons, List.foldl_append, ← hbest]
    split
    · rename_i htop
      rw [hran.2] at htop
      exact (foldl_stronger_top htop _).symm
    · exact ih hran

theorem resolveResultFinalityStateLoop_best (chainID : Chain) (result : TransactionResult) :
    resolveResultFinalityStateLoop chainID result =
      if (finalityCandidates chainID result.balanceEvents).foldl stronger "" ≠ "" then
        (finalityCandidates chainID result.balanceEvents).foldl stronger ""
      else defaultFinalityState chainID := by
  have hstart : FinalitySearch.Ranked ⟨"", 0, (finalityMetadataKeys chainID).length⟩ :=
    ⟨List.mem_cons_self, finalityStateRank_empty.symm⟩
  unfold resolveResultFinalityStateLoop
  dsimp only
  rw [searchEvents_best chainID result.balanceEvents hstart]

theorem resolveResultFinalityStateLoop_eq (chainID : Chain) (result : TransactionResult) :
    resolveResultFinalityStateLoop chainID result = resolveResultFinalityState chainID result :=
  resolveResultFinalityStateLoop_best chainID result

def reportedFinality (chainID : Chain) (result : TransactionResult) : Set String :=
  {state | state ≠ "" ∧ ∃ be ∈ result.balanceEvents, ∃ key ∈ finalityMetadataKeys chainID,
    canonicalizeFinalityState (metaGet be.metadata key) = state}

theorem mem_reportedFinality :
    state ∈ reportedFinality chainID result ↔
      state ≠ "" ∧ state ∈ finalityCandidates chainID result.balanceEvents := by
  simp [reportedFinality, finalityCandidates]

theorem reportedFinality_known (h : state ∈ reportedFinality chainID result) :
    state ∈ finalityStates := by
  obtain ⟨-, be, -, key, -, rfl⟩ := h
  exact canonicalizeFinalityState_mem _

theorem resolveLoop_of_none (h : reportedFinality chainID result = ∅) :
    resolveResultFinalityStateLoop chainID result = defaultFinalityState chainID := by
  rw [resolveResultFinalityStateLoop_best]
  apply if_neg
  intro hne
  have hb := (foldl_stronger_spec (finalityCandidates chainID result.balanceEvents)).1
  exact Set.notMem_empty _ (h ▸ mem_reportedFinality.mpr ⟨hne, List.mem_of_ne_of_mem hne hb⟩)

theorem resolveLoop_of_some (h : (reportedFinality chainID result).Nonempty) :
    resolveResultFinalityStateLoop chainID result ∈ reportedFinality chainID result ∧
      ∀ state ∈ reportedFinality chainID result, finalityStateRank state ≤
        finalityStateRank (resolveResultFinalityStateLoop chainID result) := by
  rw [resolveResultFinalityStateLoop_best]
  obtain ⟨hmem, hall⟩ := foldl_stronger_spec (finalityCandidates chainID result.balanceEvents)
  generalize (finalityCandidates chainID result.balanceEvents).foldl stronger "" = best at hmem hall
  have hne : best ≠ "" := by
    rintro rfl
    obtain ⟨state, hstate⟩ := h
    have hpos := finalityStateRank_pos (reportedFinality_known hstate) hstate.1
    exact absurd hpos (not_lt.mpr (hall state (mem_reportedFinality.mp hstate).2))
  rw [if_pos hne]
  refine ⟨mem_reportedFinality.mpr ⟨hne, List.mem_of_ne_of_mem hne hmem⟩, ?_⟩
  intro state hstate
  exact hall state (mem_reportedFinality.mp hstate).2

/-- The finality of a result is the strongest state that its events report under any of the keys,
or the chain's default; the order of the events is nothing to it. -/
theorem resolveResultFinalityState_strongest (chainID : Chain) (result : TransactionResult) :
    (reportedFinality chainID result = ∅ →
      resolveResultFinalityStateLoop chainID result = defaultFinalityState chainID) ∧
    ((reportedFinality chainID result).Nonempty →
      resolveResultFinalityStateLoop chainID result ∈ reportedFinality chainID result ∧
        ∀ state ∈ reportedFinality chainID result, finalityStateRank state ≤
          finalityStateRank (resolveResultFinalityStateLoop chainID result)) ∧
    ∀ events, result.balanceEvents.Perm events →
      resolveResultFinalityStateLoop chainID { result with balanceEvents := events } =
        resolveResultFinalityStateLoop chainID result := by
  refine ⟨resolveLoop_of_none, resolveLoop_of_some, ?_⟩
  intro events hperm
  have hsame : reportedFinality chainID { result with balanceEvents := events } =
      reportedFinality chainID result := by
    simp only [reportedFinality, hperm.mem_iff]
  rcases Set.eq_empty_or_nonempty (reportedFinality chainID result) with hnone | hsome
  · rw [resolveLoop_of_none hnone, resolveLoop_of_none (hsame.trans hnone)]
  · obtain ⟨hmem, hmax⟩ := resolveLoop_of_some hsome
    obtain ⟨hmem', hmax'⟩ := resolveLoop_of_some (hsame.symm ▸ hsome)
    rw [hsame] at hmem' hmax'
    exact finalityStateRank_injective _ (reportedFinality_known hmem') _
      (reportedFinality_known hmem) (le_antisymm (hmax _ hmem') (hmax' _ hmem))

end Finality

end Normalizer

end MultichainIndexer
