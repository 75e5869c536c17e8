import MultichainIndexer.Lib.LexChoice
import MultichainIndexer.Normalizer.FeeMetadata

/-!
# The events that give a fee its path and its components

Of the events that pass a test the best-ranked one is taken: one with a path before
one without, then the one with more entries, then the one with the lower
fingerprint. Several events can share the best rank. Then the first of them is
taken, so each of them is, in some order of the events. What a fee takes from its
sources is the same in every order exactly if the events of the best rank agree on
it; what it takes from the first value of a key, if it does not matter which event
comes first.
-/

namespace MultichainIndexer

open Text BestOf

namespace Normalizer

def hasPath (be : BalanceEventInfo) : Bool := resolveBaseMetadataEventPath be.metadata ≠ ""

section Rank
variable {a b : BalanceEventInfo} {P : BalanceEventInfo → Prop}

def candidateRule : BalanceEventInfo → BalanceEventInfo → Bool :=
  lexReplaces hasPath (fun x _ => x) <|
  lexReplaces (fun be => metaCount be.metadata) (fun x y => y < x) <|
  lexReplaces (decodedEventFingerprint .base) (fun x y => x < y) neverReplaces

theorem shouldPrefer_eq (a b : BalanceEventInfo) :
    shouldPreferBaseFeeMetadataCandidate a b = candidateRule a b := by
  have hlast : decide (decodedEventFingerprint .base b < decodedEventFingerprint .base a) =
      lexReplaces (decodedEventFingerprint .base) (fun x y => x < y) neverReplaces a b := by
    by_cases heq : decodedEventFingerprint .base a = decodedEventFingerprint .base b
    · rw [lexReplaces_of_eq heq, heq]
      exact decide_eq_false (String.lt_irrefl _)
    · rw [lexReplaces_of_ne heq]
  unfold shouldPreferBaseFeeMetadataCandidate
  rw [hlast]
  rfl

theorem shouldPrefer_consistent : Consistent shouldPreferBaseFeeMetadataCandidate P := by
  have hrule : Consistent candidateRule P :=
    Consistent.lex strictTotal_set fun _ => Consistent.lex strictTotal_lt.flip fun _ =>
      Consistent.lex strictTotal_lt fun _ => consistent_never
  exact hrule.congr fun a b _ _ => shouldPrefer_eq a b

theorem hasPath_of_tie (hab : shouldPreferBaseFeeMetadataCandidate a b = false)
    (hba : shouldPreferBaseFeeMetadataCandidate b a = false) : hasPath a = hasPath b := by
  rw [shouldPrefer_eq] at hab hba
  exact (lexReplaces_tie strictTotal_set hab hba).1

end Rank

/-- One of the best-ranked events that pass a test. -/
structure Top (rawEvents : List BalanceEventInfo) (test : BalanceEventInfo → Bool)
    (be : BalanceEventInfo) : Prop where
  mem : be ∈ feeCandidates rawEvents
  passes : test be = true
  best : ∀ other ∈ feeCandidates rawEvents, test other = true →
    shouldPreferBaseFeeMetadataCandidate be other = false

/-- One of the best-ranked events for the first of the tests that an event passes. -/
def Leads : List (BalanceEventInfo → Bool) → List BalanceEventInfo → BalanceEventInfo → Prop
  | [], _, _ => False
  | test :: tests, rawEvents, be => Top rawEvents test be ∨
      (∀ other ∈ feeCandidates rawEvents, test other = false) ∧ Leads tests rawEvents be

section Source
variable {rawEvents rawEvents' rest : List BalanceEventInfo} {test : BalanceEventInfo → Bool}
variable {tests : List (BalanceEventInfo → Bool)} {a b be : BalanceEventInfo}

theorem feeCandidates_perm (h : rawEvents.Perm rawEvents') :
    (feeCandidates rawEvents).Perm (feeCandidates rawEvents') := h.filter _

theorem top_of_pickBest
    (h : bestCandidate rawEvents test = some be) :
    Top rawEvents test be := by
  obtain ⟨hmem, hpass⟩ := pickBest_mem h
  refine ⟨hmem, hpass, fun other hother hpass' => ?_⟩
  rw [pickBest_eq_best] at h
  exact best_max (P := fun _ => True) shouldPrefer_consistent (fun _ _ => trivial) h other
    (List.mem_filter.mpr ⟨hother, hpass'⟩)

theorem pickBest_of_top (h : Top (be :: rest) test be) :
    bestCandidate (be :: rest) test = some be := by
  have hmeta : (!be.metadata.isEmpty) = true := (List.mem_filter.mp h.mem).2
  have hcan : feeCandidates (be :: rest) = be :: feeCandidates rest :=
    List.filter_cons_of_pos hmeta
  rw [pickBest_eq_best, hcan, List.filter_cons_of_pos h.passes]
  apply best_head
  intro other hother
  obtain ⟨hmem, hpass⟩ := List.mem_filter.mp hother
  apply h.best other _ hpass
  rw [hcan]
  exact List.mem_cons_of_mem be hmem

theorem Top.perm (h : Top rawEvents test be) (hperm : rawEvents.Perm rawEvents') :
    Top rawEvents' test be := by
  have hmem := fun {be} => (feeCandidates_perm hperm).mem_iff (a := be)
  exact ⟨hmem.mp h.mem, h.passes, fun other hother => h.best other (hmem.mpr hother)⟩

theorem Top.hasPath_eq (ha : Top rawEvents test a) (hb : Top rawEvents test b) :
    hasPath a = hasPath b :=
  hasPath_of_tie (ha.best b hb.mem hb.passes) (hb.best a ha.mem ha.passes)

theorem Leads.perm (h : Leads tests rawEvents be) (hperm : rawEvents.Perm rawEvents') :
    Leads tests rawEvents' be := by
  induction tests with
  | nil => exact h
  | cons test tests ih =>
    rcases h with htop | ⟨hnone, hrest⟩
    · exact .inl (htop.perm hperm)
    · refine .inr ⟨fun other hother => hnone other ?_, ih hrest⟩
      exact (feeCandidates_perm hperm).mem_iff.mpr hother

theorem Leads.mem (h : Leads tests rawEvents be) : be ∈ rawEvents := by
  induction tests with
  | nil => cases h
  | cons test tests ih =>
    rcases h with htop | ⟨_, hrest⟩
    · exact List.mem_of_mem_filter htop.mem
    · exact ih hrest

theorem Leads.hasPath_eq (ha : Leads tests rawEvents a) (hb : Leads tests rawEvents b) :
    hasPath a = hasPath b := by
  induction tests with
  | nil => cases ha
  | cons test tests ih =>
    have hnot : ∀ {c}, Top rawEvents test c →
        (∀ other ∈ feeCandidates rawEvents, test other = false) → False := by
      intro c hc hnone
      have := hnone c hc.mem
      rw [hc.passes] at this
      cases this
    rcases ha with ha | ⟨hnone, ha⟩
    · rcases hb with hb | ⟨hnone, _⟩
      · exact ha.hasPath_eq hb
      · exact (hnot ha hnone).elim
    · rcases hb with hb | ⟨_, hb⟩
      · exact (hnot hb hnone).elim
      · exact ih ha hb

theorem leads_of_source (h : source tests rawEvents = some be) : Leads tests rawEvents be := by
  induction tests with
  | nil => cases h
  | cons test tests ih =>
    rw [source_cons] at h
    rcases Option.or_eq_some_iff.mp h with hpick | ⟨hnone, hrest⟩
    · exact .inl (top_of_pickBest hpick)
    · exact .inr ⟨pickBest_eq_none.mp hnone, ih hrest⟩

theorem source_of_leads (h : Leads tests (be :: rest) be) : source tests (be :: rest) = some be := by
  induction tests with
  | nil => cases h
  | cons test tests ih =>
    rw [source_cons]
    rcases h with htop | ⟨hnone, hrest⟩
    · rw [pickBest_of_top htop]
      rfl
    · rw [pickBest_eq_none.mpr hnone, ih hrest]
      rfl

theorem exists_front (h : be ∈ rawEvents) : ∃ rest, rawEvents.Perm (be :: rest) := by
  obtain ⟨before, after, rfl⟩ := List.append_of_mem h
  exact ⟨before ++ after, List.perm_middle⟩

theorem none_or_some {α : Type} {x y : Option α} (h : x.isSome = y.isSome) :
    x = none ∧ y = none ∨ ∃ a b, x = some a ∧ y = some b := by
  cases x <;> cases y <;> simp_all

/-- What is read from an event that is taken is the same in every order exactly if it is the same
for the events that are taken in some order. -/
theorem steady_iff {β : Type} {taken : List BalanceEventInfo → Option BalanceEventInfo}
    {R : BalanceEventInfo → Prop}
    (hsound : ∀ events, rawEvents.Perm events → ∀ be, taken events = some be → R be)
    (hreach : ∀ be, R be → ∃ events, rawEvents.Perm events ∧ taken events = some be)
    (hsome : ∀ events, rawEvents.Perm events → (taken events).isSome = (taken rawEvents).isSome)
    (f : BalanceEventInfo → β) :
    (∀ events, rawEvents.Perm events → (taken events).map f = (taken rawEvents).map f) ↔
      ∀ a b, R a → R b → f a = f b := by
  constructor
  · intro h a b ha hb
    have hread : ∀ c, R c → some (f c) = (taken rawEvents).map f := by
      intro c hc
      obtain ⟨events, hperm, htaken⟩ := hreach c hc
      rw [← h events hperm, htaken]
      rfl
    exact Option.some.inj ((hread a ha).trans (hread b hb).symm)
  · intro h events hperm
    rcases none_or_some (hsome events hperm) with ⟨ha, hb⟩ | ⟨a, b, ha, hb⟩
    · rw [ha, hb]
    · rw [ha, hb]
      exact congrArg some (h a b (hsound events hperm a ha) (hsound rawEvents (.refl _) b hb))

theorem steady_getD_iff {β : Type} {taken : List BalanceEventInfo → Option BalanceEventInfo}
    {R : BalanceEventInfo → Prop}
    (hste : ∀ f : BalanceEventInfo → β,
      (∀ events, rawEvents.Perm events → (taken events).map f = (taken rawEvents).map f) ↔
        ∀ a b, R a → R b → f a = f b)
    (hsome : ∀ events, rawEvents.Perm events → (taken events).isSome = (taken rawEvents).isSome)
    (f : BalanceEventInfo → β) (other : List BalanceEventInfo → β) :
    (∀ events, rawEvents.Perm events →
      ((taken events).map f).getD (other events) = ((taken rawEvents).map f).getD (other rawEvents)) ↔
    (∀ a b, R a → R b → f a = f b) ∧
      (taken rawEvents = none → ∀ events, rawEvents.Perm events → other events = other rawEvents) := by
  rw [← hste f]
  constructor
  · intro h
    refine ⟨fun events hperm => ?_, fun hnone events hperm => ?_⟩
    · have hread := h events hperm
      rcases none_or_some (hsome events hperm) with ⟨ha, hb⟩ | ⟨a, b, ha, hb⟩
      · rw [ha, hb]
      · rw [ha, hb] at hread ⊢
        exact congrArg some hread
    · have hread := h events hperm
      have hnone' : taken events = none := by simpa [hnone] using hsome events hperm
      rw [hnone, hnone'] at hread
      exact hread
  · intro h events hperm
    rw [h.1 events hperm]
    cases hb : taken rawEvents with
    | none => exact h.2 hb events hperm
    | some b => rfl

theorem source_isSome (h : rawEvents.Perm rawEvents') :
    (source tests rawEvents').isSome = (source tests rawEvents).isSome := by
  have hnone : source tests rawEvents' = none ↔ source tests rawEvents = none := by
    rw [source_eq_none, source_eq_none]
    exact forall_congr' fun test => forall_congr' fun _ => forall_congr' fun be => by
      rw [(feeCandidates_perm h).mem_iff]
  rw [Bool.eq_iff_iff, ← not_iff_not, Option.not_isSome_iff_eq_none, Option.not_isSome_iff_eq_none]
  exact hnone

theorem source_steady {β : Type} (f : BalanceEventInfo → β) :
    (∀ events, rawEvents.Perm events →
      (source tests events).map f = (source tests rawEvents).map f) ↔
    ∀ a b, Leads tests rawEvents a → Leads tests rawEvents b → f a = f b := by
  refine steady_iff ?_ ?_ (fun events hperm => source_isSome hperm) f
  · exact fun events hperm be hbe => (leads_of_source hbe).perm hperm.symm
  · intro be hbe
    obtain ⟨rest, hperm⟩ := exists_front hbe.mem
    exact ⟨be :: rest, hperm, source_of_leads (hbe.perm hperm)⟩

end Source

section Path
variable {rawEvents rawEvents' : List BalanceEventInfo} {a b be : BalanceEventInfo}

def pathSource (rawEvents : List BalanceEventInfo) : Option BalanceEventInfo :=
  (source selectionTests rawEvents).map fun selected =>
    if resolveBaseMetadataEventPath selected.metadata = "" then
      (bestCandidate rawEvents hasPath).getD selected
    else selected

/-- One of the events that give the path in some order. -/
def PathLeads (rawEvents : List BalanceEventInfo) (be : BalanceEventInfo) : Prop :=
  ∃ selected, Leads selectionTests rawEvents selected ∧
    ((hasPath selected = true ∨ ∀ other ∈ feeCandidates rawEvents, hasPath other = false) ∧
        be = selected ∨
      hasPath selected = false ∧ Top rawEvents hasPath be)

theorem hasPath_eq_false : hasPath be = false ↔ resolveBaseMetadataEventPath be.metadata = "" := by
  unfold hasPath
  rw [decide_eq_false_iff_not, not_not]

theorem pathLeads_of_pathSource (h : pathSource rawEvents = some be) : PathLeads rawEvents be := by
  obtain ⟨selected, hsel, hbe⟩ := Option.map_eq_some_iff.mp h
  refine ⟨selected, leads_of_source hsel, ?_⟩
  split at hbe
  · rename_i hpath
    cases hpick : bestCandidate rawEvents hasPath with
    | none =>
      rw [hpick] at hbe
      exact .inl ⟨.inr (pickBest_eq_none.mp hpick), hbe.symm⟩
    | some other =>
      rw [hpick] at hbe
      exact .inr ⟨hasPath_eq_false.mpr hpath, hbe ▸ top_of_pickBest hpick⟩
  · rename_i hpath
    refine .inl ⟨.inl ?_, hbe.symm⟩
    rw [← Bool.not_eq_false, hasPath_eq_false]
    exact hpath

theorem PathLeads.mem (h : PathLeads rawEvents be) : be ∈ rawEvents := by
  obtain ⟨selected, hsel, ⟨-, rfl⟩ | ⟨-, htop⟩⟩ := h
  · exact hsel.mem
  · exact List.mem_of_mem_filter htop.mem

theorem PathLeads.perm (h : PathLeads rawEvents be) (hperm : rawEvents.Perm rawEvents') :
    PathLeads rawEvents' be := by
  obtain ⟨selected, hsel, hcase⟩ := h
  refine ⟨selected, hsel.perm hperm, ?_⟩
  rcases hcase with ⟨hpath | hnone, heq⟩ | ⟨hpath, htop⟩
  · exact .inl ⟨.inl hpath, heq⟩
  · refine .inl ⟨.inr fun other hother => hnone other ?_, heq⟩
    exact (feeCandidates_perm hperm).mem_iff.mpr hother
  · exact .inr ⟨hpath, htop.perm hperm⟩

theorem pathSource_of_pathLeads {rest : List BalanceEventInfo} (h : PathLeads (be :: rest) be) :
    pathSource (be :: rest) = some be := by
  obtain ⟨selected, hsel, hcase⟩ := h
  unfold pathSource
  rcases hcase with ⟨hpath, rfl⟩ | ⟨hpath, htop⟩
  · rw [source_of_leads hsel, Option.map_some]
    split
    · rename_i hempty
      rcases hpath with hpath | hnone
      · rw [hasPath_eq_false.mpr hempty] at hpath
        cases hpath
      · rw [pickBest_eq_none.mpr hnone]
        rfl
    · rfl
  · -- another event may be selected, but none of its rank has a path
    obtain ⟨selected', hsel'⟩ : ∃ s, source selectionTests (be :: rest) = some s := by
      obtain ⟨rest', hfront⟩ := exists_front hsel.mem
      have hsome : (source selectionTests (selected :: rest')).isSome =
          (source selectionTests (be :: rest)).isSome := source_isSome hfront
      rw [source_of_leads (hsel.perm hfront)] at hsome
      exact Option.isSome_iff_exists.mp hsome.symm
    have hpath' := (leads_of_source hsel').hasPath_eq hsel
    rw [hsel', Option.map_some, if_pos (hasPath_eq_false.mp (hpath'.trans hpath)),
      pickBest_of_top htop]
    rfl

theorem pathSource_isSome (h : rawEvents.Perm rawEvents') :
    (pathSource rawEvents').isSome = (pathSource rawEvents).isSome := by
  unfold pathSource
  rw [Option.isSome_map, Option.isSome_map]
  exact source_isSome h

theorem pathSource_steady {β : Type} (f : BalanceEventInfo → β) :
    (∀ events, rawEvents.Perm events → (pathSource events).map f = (pathSource rawEvents).map f) ↔
      ∀ a b, PathLeads rawEvents a → PathLeads rawEvents b → f a = f b := by
  refine steady_iff ?_ ?_ ?_ f
  · exact fun events hperm be hbe => (pathLeads_of_pathSource hbe).perm hperm.symm
  · intro be hbe
    obtain ⟨rest, hperm⟩ := exists_front hbe.mem
    exact ⟨be :: rest, hperm, pathSource_of_pathLeads (hbe.perm hperm)⟩
  · exact fun events hperm => pathSource_isSome hperm

end Path

section Facts

def trimmedPathMetadata (metadata : Metadata) : Metadata :=
  baseFeePathMetadataKeys.map fun key => (key, trimSpace (metaGet metadata key))

/-- The path under which a fee is filed. -/
def feePathText (metadata : Metadata) : String :=
  if trimSpace (resolveBaseFeeEventPath metadata) = "" then
    balanceEventPath (toInt32 (-1)) (toInt32 (-1))
  else trimSpace (resolveBaseFeeEventPath metadata)

theorem resolveBaseMetadataEventPath_congr {m m' : Metadata}
    (h : ∀ key ∈ baseFeePathMetadataKeys, metaGet m key = metaGet m' key) :
    resolveBaseMetadataEventPath m = resolveBaseMetadataEventPath m' := by
  unfold resolveBaseMetadataEventPath
  rw [h "event_path" (by decide), h "log_path" (by decide), h "log_index" (by decide),
    h "base_log_index" (by decide), h "base_event_path" (by decide)]

theorem lookup_graph (f : String → String) {keys : List String} {key : String} (h : key ∈ keys) :
    (keys.map fun key => (key, f key)).lookup key = some (f key) := by
  induction keys with
  | nil => cases h
  | cons head keys ih =>
    rw [List.map_cons, List.lookup_cons]
    by_cases hkey : key = head
    · subst hkey
      simp
    · have hne : (key == head) = false := beq_false_of_ne hkey
      rw [hne]
      exact ih ((List.mem_cons.mp h).resolve_left hkey)

theorem feePathText_applyBasePathMetadata (out metadata : Metadata) :
    feePathText (applyBasePathMetadata out metadata) = feePathText (trimmedPathMetadata metadata) := by
  have hpath : resolveBaseMetadataEventPath (applyBasePathMetadata out metadata) =
      resolveBaseMetadataEventPath (trimmedPathMetadata metadata) := by
    apply resolveBaseMetadataEventPath_congr
    intro key hkey
    have hgraph : metaGet (trimmedPathMetadata metadata) key = trimSpace (metaGet metadata key) := by
      rw [trimmedPathMetadata, metaGet, lookup_graph (fun key => trimSpace (metaGet metadata key)) hkey,
        Option.getD_some]
    rw [metaGet_applyBasePathMetadata_path hkey, hgraph]
  unfold feePathText resolveBaseFeeEventPath
  rw [hpath]

def givenPath (be : BalanceEventInfo) : String := feePathText (trimmedPathMetadata be.metadata)

def executionOf (be : BalanceEventInfo) : Nat :=
  ((deriveBaseExecutionFeeFromMetadata be.metadata).getD 0).natAbs

def dataOf (be : BalanceEventInfo) : Nat := ((deriveBaseDataFee be.metadata).getD 0).natAbs

/-- The execution fee where no event gives one: gas and price as they come first, else the total. -/
def gasFee (feeAmount : String) (rawEvents : List BalanceEventInfo) : Nat :=
  ((gasExecutionFee (firstMetadata rawEvents)).getD ((parseBigInt feeAmount).getD 0)).natAbs

variable (rawEvents : List BalanceEventInfo)

theorem feePathText_collect : feePathText (collectBaseMetadata rawEvents) =
    ((pathSource rawEvents).map givenPath).getD (feePathText (firstMetadata rawEvents)) := by
  rw [collectBaseMetadata_eq, reconcile_eq]
  unfold pathSource
  cases source selectionTests rawEvents with
  | none => simp only [Option.map_none, Option.getD_none]
  | some selected =>
    simp only [Option.map_some, Option.getD_some, givenPath]
    rw [feePathText_applyBasePathMetadata]
    rfl

theorem executionFee_collect (feeAmount : String) :
    (deriveBaseExecutionFee feeAmount (collectBaseMetadata rawEvents)).natAbs =
      ((executionSource rawEvents).map executionOf).getD (gasFee feeAmount rawEvents) := by
  unfold deriveBaseExecutionFee
  rw [deriveExecution_collect]
  cases hsou : executionSource rawEvents with
  | none =>
    unfold gasFee
    cases gasExecutionFee (firstMetadata rawEvents) with
    | none => simp only [Option.bind_none, Option.map_none, Option.none_or, Option.getD_none]
    | some fee =>
      simp only [Option.bind_none, Option.map_none, Option.none_or, Option.getD_none,
        Option.getD_some]
  | some be =>
    obtain ⟨fee, hfee⟩ := executionSource_gives hsou
    simp only [Option.bind_some, hfee, Option.map_some, Option.some_or, Option.getD_some,
      executionOf, Int.natAbs_natCast]

theorem dataFee_collect :
    (deriveBaseDataFee (collectBaseMetadata rawEvents)).map Int.natAbs =
      (dataSource rawEvents).map dataOf := by
  rw [deriveBaseDataFee_collect]
  cases hsou : dataSource rawEvents with
  | none => simp only [Option.bind_none, Option.map_none]
  | some be =>
    obtain ⟨fee, hfee⟩ := dataSource_gives hsou
    simp only [Option.bind_some, hfee, Option.map_some, Option.getD_some, dataOf,
      Int.natAbs_natCast]

def feeFacts (chain : Chain) (feeAmount : String) (metadata : Metadata) :
    String × Option (Nat × Option Nat) :=
  (feePathText metadata,
    if isEVML1Chain chain then none
    else some ((deriveBaseExecutionFee feeAmount metadata).natAbs,
      (deriveBaseDataFee metadata).map Int.natAbs))

theorem feeFacts_eq_iff {chain : Chain} {feeAmount : String} {m m' : Metadata} :
    feeFacts chain feeAmount m = feeFacts chain feeAmount m' ↔
      feePathText m = feePathText m' ∧ (isEVML1Chain chain = false →
        (deriveBaseExecutionFee feeAmount m).natAbs = (deriveBaseExecutionFee feeAmount m').natAbs ∧
          (deriveBaseDataFee m).map Int.natAbs = (deriveBaseDataFee m').map Int.natAbs) := by
  unfold feeFacts
  rw [Prod.mk.injEq]
  cases isEVML1Chain chain with
  | true => simp only [if_true, Bool.true_eq_false, false_implies]
  | false => simp only [Bool.false_eq_true, if_false, Option.some.injEq, Prod.mk.injEq, true_implies]

/-- The events of the best rank agree on what the fee takes from them. -/
structure LeadersAgree (chain : Chain) : Prop where
  path : ∀ a b, PathLeads rawEvents a → PathLeads rawEvents b → givenPath a = givenPath b
  execution : isEVML1Chain chain = false → ∀ a b, Leads [givesBoth, givesExecution] rawEvents a →
    Leads [givesBoth, givesExecution] rawEvents b → executionOf a = executionOf b
  data : isEVML1Chain chain = false → ∀ a b, Leads [givesBoth, givesData] rawEvents a →
    Leads [givesBoth, givesData] rawEvents b → dataOf a = dataOf b

/-- And where the fee takes a value from no event of a rank, it does not matter which event comes
first. -/
structure FeeSteady (chain : Chain) (feeAmount : String) : Prop extends
    LeadersAgree rawEvents chain where
  firstPath : (∀ be ∈ feeCandidates rawEvents, givesExecution be = false ∧ givesData be = false) →
    ∀ events, rawEvents.Perm events →
      feePathText (firstMetadata events) = feePathText (firstMetadata rawEvents)
  gas : isEVML1Chain chain = false → (∀ be ∈ feeCandidates rawEvents, givesExecution be = false) →
    ∀ events, rawEvents.Perm events → gasFee feeAmount events = gasFee feeAmount rawEvents

/-- The events with the key have one value for it. -/
def KeyAgrees (key : String) : Prop :=
  ∀ a ∈ rawEvents, ∀ b ∈ rawEvents, ∀ v ∈ a.metadata.lookup key, ∀ w ∈ b.metadata.lookup key, v = w

instance (key : String) : Decidable (KeyAgrees rawEvents key) := by
  unfold KeyAgrees
  infer_instance

/-- Of the keys in turn, the events agree on the first that one of them gives. -/
def FirstAgrees : List String → Prop
  | [] => True
  | key :: keys => KeyAgrees rawEvents key ∧
      ((∀ be ∈ rawEvents, metaGet be.metadata key = "") → FirstAgrees keys)

/-- And where the fee takes a value from no event of a rank, the events agree on the path key that
is read, and on gas and price. -/
structure FeeAgrees (chain : Chain) : Prop extends LeadersAgree rawEvents chain where
  firstPath : (∀ be ∈ feeCandidates rawEvents, givesExecution be = false ∧ givesData be = false) →
    FirstAgrees rawEvents baseFeePathMetadataKeys
  gas : isEVML1Chain chain = false → (∀ be ∈ feeCandidates rawEvents, givesExecution be = false) →
    ∀ key ∈ gasKeys, KeyAgrees rawEvents key

variable {rawEvents}

theorem pathSource_eq_none : pathSource rawEvents = none ↔
    ∀ be ∈ feeCandidates rawEvents, givesExecution be = false ∧ givesData be = false :=
  Option.map_eq_none_iff.trans selected_eq_none

theorem path_steady_iff :
    (∀ events, rawEvents.Perm events → feePathText (collectBaseMetadata events) =
      feePathText (collectBaseMetadata rawEvents)) ↔
    (∀ a b, PathLeads rawEvents a → PathLeads rawEvents b → givenPath a = givenPath b) ∧
      ((∀ be ∈ feeCandidates rawEvents, givesExecution be = false ∧ givesData be = false) →
        ∀ events, rawEvents.Perm events →
          feePathText (firstMetadata events) = feePathText (firstMetadata rawEvents)) := by
  simp only [feePathText_collect]
  rw [steady_getD_iff pathSource_steady (fun _ => pathSource_isSome) givenPath, pathSource_eq_none]

theorem execution_steady_iff (feeAmount : String) :
    (∀ events, rawEvents.Perm events →
      (deriveBaseExecutionFee feeAmount (collectBaseMetadata events)).natAbs =
        (deriveBaseExecutionFee feeAmount (collectBaseMetadata rawEvents)).natAbs) ↔
    (∀ a b, Leads [givesBoth, givesExecution] rawEvents a →
      Leads [givesBoth, givesExecution] rawEvents b → executionOf a = executionOf b) ∧
      ((∀ be ∈ feeCandidates rawEvents, givesExecution be = false) →
        ∀ events, rawEvents.Perm events → gasFee feeAmount events = gasFee feeAmount rawEvents) := by
  simp only [executionFee_collect]
  rw [steady_getD_iff source_steady (fun _ => source_isSome) executionOf, executionSource_eq_none]

theorem data_steady_iff :
    (∀ events, rawEvents.Perm events → (deriveBaseDataFee (collectBaseMetadata events)).map Int.natAbs =
      (deriveBaseDataFee (collectBaseMetadata rawEvents)).map Int.natAbs) ↔
    ∀ a b, Leads [givesBoth, givesData] rawEvents a → Leads [givesBoth, givesData] rawEvents b →
      dataOf a = dataOf b := by
  simp only [dataFee_collect]
  exact source_steady dataOf

/-- The fee says the same in every order of the events exactly if it is steady. -/
theorem feeFacts_steady_iff {chain : Chain} {feeAmount : String} :
    (∀ events, rawEvents.Perm events → feeFacts chain feeAmount (collectBaseMetadata events) =
      feeFacts chain feeAmount (collectBaseMetadata rawEvents)) ↔
    FeeSteady rawEvents chain feeAmount := by
  simp only [feeFacts_eq_iff]
  constructor
  · intro h
    have hpath := path_steady_iff.mp fun events hperm => (h events hperm).1
    refine ⟨⟨hpath.1, fun hl2 => ?_, fun hl2 => ?_⟩, hpath.2, fun hl2 => ?_⟩
    · exact ((execution_steady_iff feeAmount).mp fun events hperm => ((h events hperm).2 hl2).1).1
    · exact data_steady_iff.mp fun events hperm => ((h events hperm).2 hl2).2
    · exact ((execution_steady_iff feeAmount).mp fun events hperm => ((h events hperm).2 hl2).1).2
  · intro h events hperm
    refine ⟨path_steady_iff.mpr ⟨h.path, h.firstPath⟩ events hperm, fun hl2 => ⟨?_, ?_⟩⟩
    · exact (execution_steady_iff feeAmount).mpr ⟨h.execution hl2, h.gas hl2⟩ events hperm
    · exact data_steady_iff.mpr (h.data hl2) events hperm

theorem KeyAgrees.lookup {key v : String} {be : BalanceEventInfo} (h : KeyAgrees rawEvents key)
    (hbe : be ∈ rawEvents) (hv : be.metadata.lookup key = some v) :
    (firstMetadata rawEvents).lookup key = some v := by
  rw [lookup_firstMetadata]
  cases hfirst : rawEvents.findSome? fun be => be.metadata.lookup key with
  | none =>
    rw [List.findSome?_eq_none_iff.mp hfirst be hbe] at hv
    cases hv
  | some w =>
    obtain ⟨first, hmem, hw⟩ := List.exists_of_findSome?_eq_some hfirst
    rw [h first hmem be hbe w hw v hv]

theorem KeyAgrees.metaGet_perm {key : String} {events : List BalanceEventInfo}
    (h : KeyAgrees rawEvents key) (hperm : rawEvents.Perm events) :
    metaGet (firstMetadata events) key = metaGet (firstMetadata rawEvents) key := by
  unfold metaGet
  cases hlook : (firstMetadata events).lookup key with
  | some v =>
    obtain ⟨be, hbe, hv⟩ :=
      List.exists_of_findSome?_eq_some ((lookup_firstMetadata key).symm.trans hlook)
    rw [h.lookup (hperm.mem_iff.mpr hbe) hv]
  | none =>
    rw [lookup_firstMetadata, List.findSome?_eq_none_iff] at hlook
    rw [lookup_firstMetadata,
      List.findSome?_eq_none_iff.mpr fun be hbe => hlook be (hperm.mem_iff.mp hbe)]

theorem KeyAgrees.eq_empty {key : String} (h : KeyAgrees rawEvents key)
    (hempty : metaGet (firstMetadata rawEvents) key = "") :
    ∀ be ∈ rawEvents, metaGet be.metadata key = "" := by
  intro be hbe
  cases hv : be.metadata.lookup key with
  | none => rw [metaGet, hv, Option.getD_none]
  | some v => rw [← hempty, metaGet, metaGet, hv, h.lookup hbe hv]

/-- A chain of fallbacks reads the same in every order if the events agree on what it reads. -/
theorem FirstAgrees.cons {events : List BalanceEventInfo} {key : String} {keys : List String}
    {β : Type} {f : String → β} {next next' : β} (h : FirstAgrees rawEvents (key :: keys))
    (hperm : rawEvents.Perm events) (hnext : FirstAgrees rawEvents keys → next = next') :
    (if metaGet (firstMetadata events) key ≠ "" then f (metaGet (firstMetadata events) key)
      else next) =
    (if metaGet (firstMetadata rawEvents) key ≠ "" then
      f (metaGet (firstMetadata rawEvents) key) else next') := by
  rw [h.1.metaGet_perm hperm]
  split
  · rfl
  · rename_i hempty
    exact hnext (h.2 (h.1.eq_empty (not_not.mp hempty)))

theorem FirstAgrees.path {events : List BalanceEventInfo}
    (h : FirstAgrees rawEvents baseFeePathMetadataKeys) (hperm : rawEvents.Perm events) :
    feePathText (firstMetadata events) = feePathText (firstMetadata rawEvents) := by
  have hpath : resolveBaseMetadataEventPath (firstMetadata events) =
      resolveBaseMetadataEventPath (firstMetadata rawEvents) :=
    h.cons (f := id) hperm fun h => h.cons (f := id) hperm fun h =>
      h.cons (f := ("log:" ++ ·)) hperm fun h => h.cons (f := ("log:" ++ ·)) hperm fun h =>
        h.1.metaGet_perm hperm
  unfold feePathText resolveBaseFeeEventPath
  rw [hpath]

theorem FeeAgrees.steady {chain : Chain} (h : FeeAgrees rawEvents chain) (feeAmount : String) :
    FeeSteady rawEvents chain feeAmount where
  toLeadersAgree := h.toLeadersAgree
  firstPath hnone _ hperm := (h.firstPath hnone).path hperm
  gas hl2 hnone events hperm := by
    unfold gasFee
    rw [gasExecutionFee_congr fun key hkey => (h.gas hl2 hnone key hkey).metaGet_perm hperm]

end Facts

end Normalizer

end MultichainIndexer
