import MultichainIndexer.Normalizer.Evm

/-!
# The fee components that the metadata of the events gives

The metadata of all events is put together, the first value of a key before the
others, and the components of the fee are then set to those of one event: of one
that has both, else of one that has the execution fee and of one that has the
data fee. Without an event that has the execution fee, a gas amount and a gas
price of different events can still meet.
-/

namespace MultichainIndexer

open Text BestOf

namespace Normalizer

section Lookup
variable {m : Metadata} {k k' v : String}

theorem lookup_filter_key (p : String → Bool) (m : Metadata) (k : String) :
    (m.filter fun e => p e.1).lookup k = if p k then m.lookup k else none := by
  induction m with
  | nil => simp
  | cons e m ih =>
    obtain ⟨key, value⟩ := e
    by_cases hk : k = key
    · subst hk
      by_cases hp : p k = true
      · simp [hp]
      · simp only [List.filter_cons, hp, Bool.false_eq_true, if_false] at ih ⊢
        exact ih
    · have hne : (k == key) = false := beq_false_of_ne hk
      by_cases hp : p key = true
      · simp only [List.filter_cons, hp, if_true, List.lookup_cons, hne, ih]
      · simp only [List.filter_cons, hp, Bool.false_eq_true, if_false, List.lookup_cons, hne, ih]

@[simp] theorem metaGet_metaSet_self : metaGet (metaSet m k v) k = v := by
  simp [metaGet, metaSet]

theorem metaGet_metaSet_of_ne (h : k' ≠ k) : metaGet (metaSet m k v) k' = metaGet m k' := by
  have hkeep := lookup_filter_key (fun key => decide (key ≠ k)) m k'
  have hne : (k' == k) = false := beq_false_of_ne h
  rw [decide_eq_true h, if_pos rfl] at hkeep
  rw [metaGet, metaSet, List.lookup_cons, hne, hkeep, metaGet]

theorem metaGet_metaDeleteAll_of_mem {keys : List String} (h : k ∈ keys) :
    metaGet (metaDeleteAll m keys) k = "" := by
  have hdrop := lookup_filter_key (fun key => decide (key ∉ keys)) m k
  rw [decide_eq_false (not_not.mpr h), if_neg nofun] at hdrop
  rw [metaGet, metaDeleteAll, hdrop]
  rfl

theorem metaGet_metaDeleteAll_of_not_mem {keys : List String} (h : k ∉ keys) :
    metaGet (metaDeleteAll m keys) k = metaGet m k := by
  have hkeep := lookup_filter_key (fun key => decide (key ∉ keys)) m k
  rw [decide_eq_true h, if_pos rfl] at hkeep
  rw [metaGet, metaDeleteAll, hkeep, metaGet]

theorem metaGet_setComponent_of_ne (fee : Option Int) (h : k' ≠ k) :
    metaGet (setComponent m k fee) k' = metaGet m k' := by
  cases fee with
  | none => rfl
  | some fee => exact metaGet_metaSet_of_ne h

variable {metadata : Metadata}

theorem metaGet_copy_of_not_mem (keys : List String) (out : Metadata) (h : k ∉ keys) :
    metaGet (copyTrimmed keys metadata out) k = metaGet out k := by
  unfold copyTrimmed
  induction keys generalizing out with
  | nil => rfl
  | cons key keys ih =>
    rw [List.mem_cons, not_or] at h
    rw [List.foldl_cons, ih _ h.2]
    simp only
    split
    · rfl
    · exact metaGet_metaSet_of_ne h.1

theorem metaGet_copy_of_mem (keys : List String) (out : Metadata) (hnodup : keys.Nodup)
    (hempty : ∀ key ∈ keys, metaGet out key = "") (h : k ∈ keys) :
    metaGet (copyTrimmed keys metadata out) k = trimSpace (metaGet metadata k) := by
  induction keys generalizing out with
  | nil => cases h
  | cons key keys ih =>
    obtain ⟨hkey, hkeys⟩ := List.nodup_cons.mp hnodup
    rw [copyTrimmed, List.foldl_cons, ← copyTrimmed]
    rcases List.mem_cons.mp h with rfl | hk
    · rw [metaGet_copy_of_not_mem keys _ hkey]
      simp only
      split
      · rename_i hvalue
        rw [hvalue]
        exact hempty _ List.mem_cons_self
      · exact metaGet_metaSet_self
    · apply ih _ hkeys _ hk
      intro other hother
      simp only
      split
      · exact hempty _ (List.mem_cons_of_mem key hother)
      · have hne : other ≠ key := fun heq => hkey (heq ▸ hother)
        rw [metaGet_metaSet_of_ne hne]
        exact hempty _ (List.mem_cons_of_mem key hother)

theorem metaGet_applyBasePathMetadata {out : Metadata} (h : k ∉ baseFeePathMetadataKeys) :
    metaGet (applyBasePathMetadata out metadata) k = metaGet out k := by
  unfold applyBasePathMetadata
  rw [metaGet_copy_of_not_mem _ _ h, metaGet_metaDeleteAll_of_not_mem h]

theorem metaGet_applyBasePathMetadata_path {out : Metadata} (h : k ∈ baseFeePathMetadataKeys) :
    metaGet (applyBasePathMetadata out metadata) k = trimSpace (metaGet metadata k) :=
  metaGet_copy_of_mem _ _ (by decide) (fun _ hkey => metaGet_metaDeleteAll_of_mem hkey) h

end Lookup

section Collect
variable (rawEvents : List BalanceEventInfo)

def gasExecutionFee (metadata : Metadata) : Option Int :=
  match parseBigInt (metaGet metadata "gas_used"),
      parseBigInt (metaGet metadata "effective_gas_price") with
  | some gasUsed, some gasPrice => some (gasUsed * gasPrice)
  | _, _ =>
    match parseBigInt (metaGet metadata "base_gas_used"),
        parseBigInt (metaGet metadata "base_effective_gas_price") with
    | some gasUsed, some gasPrice => some (gasUsed * gasPrice)
    | _, _ => none

theorem deriveExecution_eq (metadata : Metadata) :
    deriveBaseExecutionFeeFromMetadata metadata =
      (parseBigInt (metaGet metadata "fee_execution_l2")).or (gasExecutionFee metadata) := by
  unfold deriveBaseExecutionFeeFromMetadata gasExecutionFee
  generalize parseBigInt (metaGet metadata "fee_execution_l2") = explicit
  generalize parseBigInt (metaGet metadata "gas_used") = gasUsed
  generalize parseBigInt (metaGet metadata "effective_gas_price") = gasPrice
  generalize parseBigInt (metaGet metadata "base_gas_used") = baseGasUsed
  generalize parseBigInt (metaGet metadata "base_effective_gas_price") = baseGasPrice
  cases explicit with
  | some fee => rfl
  | none =>
    cases gasUsed
    all_goals
      cases gasPrice
      all_goals
        cases baseGasUsed
        all_goals
          cases baseGasPrice
          all_goals rfl

variable {m : Metadata}

def gasKeys : List String :=
  ["gas_used", "effective_gas_price", "base_gas_used", "base_effective_gas_price"]

theorem gasExecutionFee_congr {m' : Metadata} (h : ∀ k ∈ gasKeys, metaGet m k = metaGet m' k) :
    gasExecutionFee m = gasExecutionFee m' := by
  unfold gasExecutionFee
  rw [h "gas_used" (by decide), h "effective_gas_price" (by decide), h "base_gas_used" (by decide),
    h "base_effective_gas_price" (by decide)]

/-- The first value of every key. -/
def firstMetadata : Metadata :=
  rawEvents.foldl (fun out be => withMissing out be.metadata) []

theorem collectBaseMetadata_eq :
    collectBaseMetadata rawEvents =
      reconcileBaseFeeComponentMetadata (firstMetadata rawEvents) rawEvents := rfl

variable {rawEvents}

theorem lookup_firstMetadata (k : String) :
    (firstMetadata rawEvents).lookup k = rawEvents.findSome? fun be => be.metadata.lookup k := by
  have hfold : ∀ (l : List BalanceEventInfo) (out : Metadata),
      (l.foldl (fun out be => withMissing out be.metadata) out).lookup k =
      (out.lookup k).or (l.findSome? fun be => be.metadata.lookup k) := by
    intro l
    induction l with
    | nil => exact fun out => (Option.or_none).symm
    | cons be l ih =>
      intro out
      rw [List.foldl_cons, ih, withMissing, List.lookup_append,
        lookup_filter_key (fun key => (out.lookup key).isNone) be.metadata k, List.findSome?_cons]
      cases out.lookup k with
      | some w => rfl
      | none => cases be.metadata.lookup k <;> rfl
  exact hfold rawEvents []

def feeCandidates (rawEvents : List BalanceEventInfo) : List BalanceEventInfo :=
  rawEvents.filter fun be => !be.metadata.isEmpty

def givesExecution (be : BalanceEventInfo) : Bool :=
  (deriveBaseExecutionFeeFromMetadata be.metadata).isSome

def givesData (be : BalanceEventInfo) : Bool := (deriveBaseDataFee be.metadata).isSome

def givesBoth (be : BalanceEventInfo) : Bool := givesExecution be && givesData be

abbrev bestCandidate (rawEvents : List BalanceEventInfo) (test : BalanceEventInfo → Bool) :
    Option BalanceEventInfo :=
  pickBestBaseFeeMetadataCandidate (feeCandidates rawEvents) test

section Pick
variable {test : BalanceEventInfo → Bool}

theorem pickBest_eq_best : bestCandidate rawEvents test =
    best shouldPreferBaseFeeMetadataCandidate ((feeCandidates rawEvents).filter test) := by
  unfold bestCandidate pickBestBaseFeeMetadataCandidate best
  refine congrArg (fun step => List.foldl step none ((feeCandidates rawEvents).filter test)) ?_
  funext kept candidate
  cases kept with
  | none => rfl
  | some be => rfl

theorem pickBest_eq_none : bestCandidate rawEvents test = none ↔
    ∀ be ∈ feeCandidates rawEvents, test be = false := by
  rw [pickBest_eq_best, best_eq_none, List.filter_eq_nil_iff]
  simp

theorem pickBest_mem {be : BalanceEventInfo} (h : bestCandidate rawEvents test = some be) :
    be ∈ feeCandidates rawEvents ∧ test be = true := by
  rw [pickBest_eq_best] at h
  exact List.mem_filter.mp (best_mem h)

end Pick

/-- The event that is taken for the first of the tests that an event passes. -/
def source (tests : List (BalanceEventInfo → Bool)) (rawEvents : List BalanceEventInfo) :
    Option BalanceEventInfo :=
  tests.findSome? (bestCandidate rawEvents)

abbrev executionSource (rawEvents : List BalanceEventInfo) : Option BalanceEventInfo :=
  source [givesBoth, givesExecution] rawEvents

abbrev dataSource (rawEvents : List BalanceEventInfo) : Option BalanceEventInfo :=
  source [givesBoth, givesData] rawEvents

/-- The tests by which the event is selected that gives the path. -/
def selectionTests : List (BalanceEventInfo → Bool) := [givesBoth, givesExecution, givesData]

section Source
variable {test : BalanceEventInfo → Bool} {tests : List (BalanceEventInfo → Bool)}
  {be : BalanceEventInfo}

theorem source_cons : source (test :: tests) rawEvents =
    (bestCandidate rawEvents test).or (source tests rawEvents) := by
  unfold source
  rw [List.findSome?_cons]
  cases bestCandidate rawEvents test with
  | none => rfl
  | some be => rfl

theorem source_nil : source [] rawEvents = none := rfl

theorem source_eq_none : source tests rawEvents = none ↔
    ∀ test ∈ tests, ∀ be ∈ feeCandidates rawEvents, test be = false := by
  unfold source
  rw [List.findSome?_eq_none_iff]
  exact forall_congr' fun test => forall_congr' fun _ => pickBest_eq_none

variable (htest : ∀ be, givesBoth be = true → test be = true)
include htest

theorem source_both_eq_none : source [givesBoth, test] rawEvents = none ↔
    ∀ be ∈ feeCandidates rawEvents, test be = false := by
  rw [source_eq_none, List.forall_mem_cons, List.forall_mem_singleton, and_iff_right_iff_imp]
  intro h be hbe
  apply Bool.eq_false_iff.mpr
  intro hboth
  exact Bool.false_ne_true ((h be hbe).symm.trans (htest be hboth))

theorem source_both_passes (h : source [givesBoth, test] rawEvents = some be) : test be = true := by
  obtain ⟨test', hmem, hpick⟩ := List.exists_of_findSome?_eq_some h
  have hpass := (pickBest_mem hpick).2
  rcases List.mem_cons.mp hmem with rfl | hmem
  · exact htest be hpass
  · rw [← List.mem_singleton.mp hmem]
    exact hpass

end Source

theorem givesExecution_of_both (be : BalanceEventInfo) (h : givesBoth be = true) :
    givesExecution be = true := (Bool.and_eq_true_iff.mp h).1

theorem givesData_of_both (be : BalanceEventInfo) (h : givesBoth be = true) :
    givesData be = true := (Bool.and_eq_true_iff.mp h).2

theorem parseBigInt_empty : parseBigInt "" = none := by decide

theorem firstMetadata_parse {k : String} {n : Int}
    (h : parseBigInt (metaGet (firstMetadata rawEvents) k) = some n) :
    ∃ be ∈ feeCandidates rawEvents, parseBigInt (metaGet be.metadata k) = some n := by
  cases hlook : (firstMetadata rawEvents).lookup k with
  | none =>
    rw [metaGet, hlook, Option.getD_none, parseBigInt_empty] at h
    cases h
  | some v =>
    obtain ⟨be, hbe, hv⟩ :=
      List.exists_of_findSome?_eq_some ((lookup_firstMetadata k).symm.trans hlook)
    refine ⟨be, List.mem_filter.mpr ⟨hbe, ?_⟩, ?_⟩
    · cases hm : be.metadata with
      | nil => rw [hm] at hv; cases hv
      | cons e m => rfl
    · rw [metaGet, hlook, Option.getD_some] at h
      rw [metaGet, hv, Option.getD_some]
      exact h

theorem reconcile_eq (out : Metadata) :
    reconcileBaseFeeComponentMetadata out rawEvents =
      match source selectionTests rawEvents with
      | none => out
      | some selected => applyBasePathMetadata (setComponent (setComponent
          (metaDeleteAll out baseFeeComponentMetadataKeys) "fee_execution_l2"
          ((executionSource rawEvents).bind fun be =>
            deriveBaseExecutionFeeFromMetadata be.metadata))
          "fee_data_l1" ((dataSource rawEvents).bind fun be => deriveBaseDataFee be.metadata))
          (if resolveBaseMetadataEventPath selected.metadata = "" then
            (bestCandidate rawEvents fun be =>
              resolveBaseMetadataEventPath be.metadata ≠ "").getD selected
          else selected).metadata := by
  unfold executionSource dataSource selectionTests
  simp only [source_cons, source_nil, Option.or_none, ← Option.or_assoc]
  rfl

theorem selected_eq_none : source selectionTests rawEvents = none ↔
    ∀ be ∈ feeCandidates rawEvents, givesExecution be = false ∧ givesData be = false := by
  rw [source_eq_none]
  constructor
  · intro h be hbe
    exact ⟨h givesExecution (by simp [selectionTests]) be hbe,
      h givesData (by simp [selectionTests]) be hbe⟩
  · intro h test htest be hbe
    obtain ⟨hexe, hdata⟩ := h be hbe
    simp only [selectionTests, List.mem_cons, List.not_mem_nil, or_false] at htest
    rcases htest with rfl | rfl | rfl
    · rw [givesBoth, hexe, Bool.false_and]
    · exact hexe
    · exact hdata

theorem executionSource_eq_none : executionSource rawEvents = none ↔
    ∀ be ∈ feeCandidates rawEvents, givesExecution be = false :=
  source_both_eq_none givesExecution_of_both

theorem dataSource_eq_none : dataSource rawEvents = none ↔
    ∀ be ∈ feeCandidates rawEvents, givesData be = false :=
  source_both_eq_none givesData_of_both

theorem executionSource_gives {be : BalanceEventInfo} (h : executionSource rawEvents = some be) :
    ∃ fee, deriveBaseExecutionFeeFromMetadata be.metadata = some fee := by
  have hgives := source_both_passes givesExecution_of_both h
  exact Option.isSome_iff_exists.mp hgives

theorem dataSource_gives {be : BalanceEventInfo} (h : dataSource rawEvents = some be) :
    ∃ fee, deriveBaseDataFee be.metadata = some fee := by
  have hgives := source_both_passes givesData_of_both h
  exact Option.isSome_iff_exists.mp hgives

def dataFeeKeys : List String := ["fee_data_l1", "data_fee_l1", "l1_data_fee", "l1_fee"]

theorem deriveBaseDataFee_isSome :
    (deriveBaseDataFee m).isSome = true ↔
      ∃ k ∈ dataFeeKeys, (parseBigInt (metaGet m k)).isSome = true :=
  List.findSome?_isSome_iff

theorem deriveBaseDataFee_of_first {d : Int} (h : parseBigInt (metaGet m "fee_data_l1") = some d) :
    deriveBaseDataFee m = some d := by
  unfold deriveBaseDataFee
  rw [List.findSome?_cons, h]

theorem deriveBaseDataFee_collect :
    deriveBaseDataFee (collectBaseMetadata rawEvents) =
      ((dataSource rawEvents).bind fun be => deriveBaseDataFee be.metadata).map fun d =>
        (d.natAbs : Int) := by
  have habs : ∀ m : Metadata, (∀ k ∈ dataFeeKeys, ∀ d, parseBigInt (metaGet m k) ≠ some d) →
      deriveBaseDataFee m = none := by
    intro m hm
    apply Option.not_isSome_iff_eq_none.mp
    intro h
    obtain ⟨k, hk, hparse⟩ := deriveBaseDataFee_isSome.mp h
    obtain ⟨d, hd⟩ := Option.isSome_iff_exists.mp hparse
    exact hm k hk d hd
  rw [collectBaseMetadata_eq, reconcile_eq]
  cases hs : source selectionTests rawEvents with
  | none =>
    have hnone := selected_eq_none.mp hs
    rw [dataSource_eq_none.mpr fun be hbe => (hnone be hbe).2]
    apply habs
    intro k hk d hd
    obtain ⟨be, hbe, hparse⟩ := firstMetadata_parse hd
    have hgives : givesData be = true :=
      deriveBaseDataFee_isSome.mpr ⟨k, hk, by rw [hparse]; rfl⟩
    rw [(hnone be hbe).2] at hgives
    cases hgives
  | some selected =>
    cases hdata : dataSource rawEvents with
    | some be =>
      obtain ⟨d, hd⟩ := dataSource_gives hdata
      rw [Option.bind_some, hd]
      apply deriveBaseDataFee_of_first
      rw [metaGet_applyBasePathMetadata (by decide), setComponent, metaGet_metaSet_self,
        parseBigInt_toString]
    | none =>
      apply habs
      intro k hk d hd
      have hcom : k ∈ baseFeeComponentMetadataKeys := List.mem_cons_of_mem _ hk
      have hkeys : ∀ k ∈ dataFeeKeys, k ≠ "fee_execution_l2" ∧ k ∉ baseFeePathMetadataKeys := by
        decide
      obtain ⟨hexec, hpatK⟩ := hkeys k hk
      rw [metaGet_applyBasePathMetadata hpatK, Option.bind_none, setComponent,
        metaGet_setComponent_of_ne _ hexec, metaGet_metaDeleteAll_of_mem hcom,
        parseBigInt_empty] at hd
      cases hd

/-- So is the execution fee; without a source, gas and price of different events may give one. -/
theorem deriveExecution_collect :
    deriveBaseExecutionFeeFromMetadata (collectBaseMetadata rawEvents) =
      (((executionSource rawEvents).bind fun be =>
        deriveBaseExecutionFeeFromMetadata be.metadata).map fun e => (e.natAbs : Int)).or
        (gasExecutionFee (firstMetadata rawEvents)) := by
  rw [collectBaseMetadata_eq, deriveExecution_eq]
  cases hs : source selectionTests rawEvents with
  | none =>
    have hnone := selected_eq_none.mp hs
    rw [reconcile_eq, hs, executionSource_eq_none.mpr fun be hbe => (hnone be hbe).1]
    have hexp : parseBigInt (metaGet (firstMetadata rawEvents) "fee_execution_l2") = none := by
      apply Option.not_isSome_iff_eq_none.mp
      intro h
      obtain ⟨e, he⟩ := Option.isSome_iff_exists.mp h
      obtain ⟨be, hbe, hparse⟩ := firstMetadata_parse he
      have hgives : givesExecution be = true := by
        rw [givesExecution, deriveExecution_eq, hparse]
        rfl
      rw [(hnone be hbe).1] at hgives
      cases hgives
    rw [hexp]
    rfl
  | some selected =>
    have hgas : gasExecutionFee (reconcileBaseFeeComponentMetadata (firstMetadata rawEvents)
        rawEvents) = gasExecutionFee (firstMetadata rawEvents) := by
      apply gasExecutionFee_congr
      rw [reconcile_eq, hs]
      intro k hk
      have hkeys : k ∉ baseFeePathMetadataKeys ∧ k ∉ baseFeeComponentMetadataKeys ∧
          k ≠ "fee_execution_l2" ∧ k ≠ "fee_data_l1" := by
        revert k
        decide
      obtain ⟨hpatK, hcom, hexec, hdata⟩ := hkeys
      rw [metaGet_applyBasePathMetadata hpatK, metaGet_setComponent_of_ne _ hdata,
        metaGet_setComponent_of_ne _ hexec, metaGet_metaDeleteAll_of_not_mem hcom]
    have hexp : parseBigInt (metaGet (reconcileBaseFeeComponentMetadata
        (firstMetadata rawEvents) rawEvents) "fee_execution_l2") =
          ((executionSource rawEvents).bind fun be =>
            deriveBaseExecutionFeeFromMetadata be.metadata).map fun e => (e.natAbs : Int) := by
      rw [reconcile_eq, hs, metaGet_applyBasePathMetadata (by decide),
        metaGet_setComponent_of_ne _ (by decide)]
      cases hexec : executionSource rawEvents with
      | some be =>
        obtain ⟨e, he⟩ := executionSource_gives hexec
        rw [Option.bind_some, he, setComponent, metaGet_metaSet_self, parseBigInt_toString]
        rfl
      | none =>
        rw [Option.bind_none, setComponent, metaGet_metaDeleteAll_of_mem (by decide),
          parseBigInt_empty]
        rfl
    rw [hexp, hgas]

end Collect

end Normalizer

end MultichainIndexer
