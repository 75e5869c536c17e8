import MultichainIndexer.Lib.Accumulate
import MultichainIndexer.Lib.BestOf
import MultichainIndexer.Normalizer.Evm
import Mathlib.Data.List.Dedup

/-!
# The coverage of repeated answers

An answer that comes again for a signature may have fewer events than the one
before. The two are merged: of the events of one key the better one stays, and
events without a path go into the only one of their lineage that has a path. No
change of a balance is lost by that and none is added.
-/

namespace MultichainIndexer

open Text BestOf Accumulate

namespace Normalizer

section Events
variable (chainID : Chain) (be : BalanceEventInfo)

def addressOr (value : String) : String :=
  let canonical := canonicalizeAddressIdentity chainID value
  if canonical = "" then trimSpace value else canonical

def categoryOrAction : String :=
  let category := toUpper (trimSpace be.eventCategory)
  if category = "" then toUpper (trimSpace be.eventAction) else category

/-- It has bars in it, so the fingerprint never has to take the place of an empty key. -/
def decodedCoverageEventKey : String :=
  decodedEventPath chainID be ++ "|" ++ addressOr chainID be.address ++ "|" ++
    addressOr chainID be.contractAddress ++ "|" ++ categoryOrAction be

def decodedCoverageEventLineageKey : String :=
  let category := categoryOrAction be
  let delta := trimSpace be.delta
  category ++ "|" ++ addressOr chainID be.address ++ "|" ++ addressOr chainID be.contractAddress ++
    "|" ++ addressOr chainID be.counterpartyAddress ++ "|" ++
    if isFeeCategory category then canonicalFeeDelta delta else delta

def decodedCoverageEventHasPathHint : Bool :=
  if isEVMChain chainID then resolveBaseMetadataEventPath be.metadata ≠ ""
  else if chainID = .solana then hasSolanaInstructionPathHint be.metadata
  else trimSpace (metaGet be.metadata "event_path") ≠ ""

def populatedFieldCount : Nat :=
  ([be.eventCategory, be.eventAction, be.programId, be.address, be.contractAddress,
    be.counterpartyAddress, be.tokenSymbol, be.tokenName, be.delta, be.tokenType].filter
      (trimSpace · ≠ "")).length + if be.tokenDecimals ≠ 0 then 1 else 0

def shouldReplaceDecodedCoverageEvent (existing incoming : BalanceEventInfo) : Bool :=
  let existingHint := decodedCoverageEventHasPathHint chainID existing
  let incomingHint := decodedCoverageEventHasPathHint chainID incoming
  if existingHint ≠ incomingHint then incomingHint
  else if metaCount existing.metadata ≠ metaCount incoming.metadata then
    metaCount existing.metadata < metaCount incoming.metadata
  else if populatedFieldCount existing ≠ populatedFieldCount incoming then
    populatedFieldCount existing < populatedFieldCount incoming
  else decodedEventFingerprint chainID incoming < decodedEventFingerprint chainID existing

def hasCompleteFeeSplit (metadata : Metadata) : Bool :=
  (deriveBaseExecutionFeeFromMetadata metadata).isSome && (deriveBaseDataFee metadata).isSome

def mergeDecodedCoverageEventMetadata (preferred additional : BalanceEventInfo) :
    BalanceEventInfo :=
  let merged := withMissing preferred.metadata additional.metadata
  { preferred with
    metadata :=
      if isEVMChain chainID && hasCompleteFeeSplit additional.metadata &&
          !hasCompleteFeeSplit preferred.metadata then
        copyTrimmed baseFeeComponentMetadataKeys additional.metadata merged
      else merged }

/-- The events of one lineage with their keys, in the order of the keys. -/
def collapseAliases (group : List (String × BalanceEventInfo)) : List (String × BalanceEventInfo) :=
  let hinted := fun e : String × BalanceEventInfo => decodedCoverageEventHasPathHint chainID e.2
  match group.filter hinted, group.filter fun e => !hinted e with
  | [first], pathless@(_ :: _) =>
    let keeper := group.foldl (fun keeper candidate =>
      if candidate.1 ≠ keeper.1 && shouldReplaceDecodedCoverageEvent chainID keeper.2 candidate.2 then
        candidate
      else keeper) first
    if !hinted keeper then group
    else
      let merged := (pathless.filter (·.1 ≠ keeper.1)).foldl (fun merged e =>
        mergeDecodedCoverageEventMetadata chainID merged e.2) keeper.2
      (group.filter fun e => hinted e || e.1 = keeper.1).map fun e =>
        if e.1 = keeper.1 then (e.1, merged) else e
  | _, _ => group

def lineageGroup (byKey : List (String × BalanceEventInfo)) (lineageKey : String) :
    List (String × BalanceEventInfo) :=
  (byKey.filter fun e => decodedCoverageEventLineageKey chainID e.2 = lineageKey).insertionSort
    (·.1 ≤ ·.1)

def reconcileDecodedCoverageLineageAliases (byKey : List (String × BalanceEventInfo)) :
    List (String × BalanceEventInfo) :=
  (byKey.map fun e => decodedCoverageEventLineageKey chainID e.2).dedup.flatMap fun lineageKey =>
    collapseAliases chainID (lineageGroup chainID byKey lineageKey)

def mergeDecodedBalanceEvents (primary secondary : List BalanceEventInfo) : List BalanceEventInfo :=
  let byKey := (keep (decodedCoverageEventKey chainID) (shouldReplaceDecodedCoverageEvent chainID)
    (primary ++ secondary)).map fun be => (decodedCoverageEventKey chainID be, be)
  ((reconcileDecodedCoverageLineageAliases chainID byKey).insertionSort (·.1 ≤ ·.1)).map Prod.snd

end Events

section Results
variable (chainID : Chain)

structure DecodedResultScore where
  eventCount : Nat
  metadataCount : Nat
  pathHintCount : Nat
  fingerprint : String

def decodedResultSelectionScore (result : TransactionResult) : DecodedResultScore where
  eventCount := result.balanceEvents.length
  metadataCount := (result.balanceEvents.map fun be => metaCount be.metadata).sum
  pathHintCount := (result.balanceEvents.filter fun be =>
    resolveBaseMetadataEventPath be.metadata ≠ "" || hasSolanaInstructionPathHint be.metadata).length
  fingerprint := String.intercalate ";"
    ((result.balanceEvents.map (decodedEventFingerprint chainID)).insertionSort (· ≤ ·))

def shouldReplaceDecodedResult (existing incoming : TransactionResult) : Bool :=
  let successful := fun r : TransactionResult => equalFold (trimSpace r.status) "SUCCESS"
  let payer := fun r : TransactionResult => canonicalSignatureIdentity chainID r.feePayer
  let hash := fun r : TransactionResult => canonicalSignatureIdentity chainID r.txHash
  let score := decodedResultSelectionScore chainID
  if existing.blockCursor ≠ incoming.blockCursor then existing.blockCursor < incoming.blockCursor
  else
    match compareFinalityStateStrength (resolveResultFinalityState chainID existing)
        (resolveResultFinalityState chainID incoming) with
    | .lt => true
    | .gt => false
    | .eq =>
      if successful existing ≠ successful incoming then successful incoming
      else if trimSpace existing.status ≠ trimSpace incoming.status then
        trimSpace incoming.status < trimSpace existing.status
      else if trimSpace existing.feeAmount ≠ trimSpace incoming.feeAmount then
        trimSpace incoming.feeAmount < trimSpace existing.feeAmount
      else if payer existing ≠ payer incoming then payer incoming < payer existing
      else if hash existing ≠ hash incoming then hash incoming < hash existing
      else if (score existing).eventCount ≠ (score incoming).eventCount then
        (score existing).eventCount < (score incoming).eventCount
      else if (score existing).pathHintCount ≠ (score incoming).pathHintCount then
        (score existing).pathHintCount < (score incoming).pathHintCount
      else if (score existing).metadataCount ≠ (score incoming).metadataCount then
        (score existing).metadataCount < (score incoming).metadataCount
      else (score incoming).fingerprint < (score existing).fingerprint

/-- Where nothing is there yet the answer is taken as it comes. -/
def reconcileDecodedResultCoverage :
    Option TransactionResult → TransactionResult → TransactionResult
  | none, incoming => incoming
  | some existing, incoming =>
    let (preferred, secondary) := if shouldReplaceDecodedResult chainID existing incoming then
      (incoming, existing) else (existing, incoming)
    { preferred with balanceEvents :=
        mergeDecodedBalanceEvents chainID preferred.balanceEvents secondary.balanceEvents }

def coverageFloorKey (network : Network) (address signature : String) : String :=
  chainID.text ++ "|" ++ network.text ++ "|" ++ addressOr chainID address ++ "|" ++ signature

/-- The answer with what the floor remembers for its signature. -/
def reconcileCoverageRegressionFlap (floor : String → Option TransactionResult) (batch : RawBatch)
    (signatureKey : String) (incoming : TransactionResult) : TransactionResult :=
  if signatureKey = "" then incoming
  else reconcileDecodedResultCoverage batch.chain
    (floor (coverageFloorKey batch.chain batch.network batch.address signatureKey)) incoming

end Results

section Coverage
variable (chainID : Chain)

/-- Merging takes events of one key or of one lineage for the same. -/
def Alias (a b : BalanceEventInfo) : Prop :=
  decodedCoverageEventKey chainID a = decodedCoverageEventKey chainID b ∨
    decodedCoverageEventLineageKey chainID a = decodedCoverageEventLineageKey chainID b

def SameChange (a b : BalanceEventInfo) : Prop := { a with metadata := b.metadata } = b

/-- Every event of the answers is in the result, if not itself then as an alias, and the events of
the result came with the answers, up to their metadata. -/
structure MergedFrom (answers : List TransactionResult) (result : TransactionResult) : Prop where
  kept : ∀ answer ∈ answers, ∀ be ∈ answer.balanceEvents,
    ∃ e ∈ result.balanceEvents, Relation.ReflTransGen (Alias chainID) be e
  came : ∀ e ∈ result.balanceEvents,
    ∃ answer ∈ answers, ∃ be ∈ answer.balanceEvents, SameChange e be

variable {chainID} {a b c : BalanceEventInfo}

theorem SameChange.trans (hab : SameChange a b) (hbc : SameChange b c) : SameChange a c := by
  unfold SameChange at *
  rw [← hbc, ← hab]

theorem SameChange.lineage (h : SameChange a b) :
    decodedCoverageEventLineageKey chainID a = decodedCoverageEventLineageKey chainID b := by
  rw [← h]
  rfl

theorem foldl_merge_sameChange (pathless : List (String × BalanceEventInfo)) :
    SameChange (pathless.foldl (fun merged e =>
      mergeDecodedCoverageEventMetadata chainID merged e.2) a) a :=
  List.foldlRecOn pathless _ (motive := (SameChange · a)) rfl fun _ h _ _ => h

variable {group : List (String × BalanceEventInfo)}

theorem collapseAliases_came {e : String × BalanceEventInfo}
    (he : e ∈ collapseAliases chainID group) : ∃ x ∈ group, SameChange e.2 x.2 := by
  unfold collapseAliases at he
  simp only at he
  split at he
  · rename_i first _ _ hfirst _
    split at he
    · exact ⟨e, he, rfl⟩
    · obtain ⟨x, hx, rfl⟩ := List.mem_map.mp he
      split
      · -- the keeper is the hinted event or another one of the group
        refine ⟨_, List.foldlRecOn group _ (motive := (· ∈ group)) ?_ ?_,
          foldl_merge_sameChange _⟩
        · exact (List.mem_filter.mp (hfirst ▸ List.mem_cons_self)).1
        · intro keeper hkeeper candidate hcandidate
          split
          · exact hcandidate
          · exact hkeeper
      · exact ⟨x, (List.mem_filter.mp hx).1, rfl⟩
  · exact ⟨e, he, rfl⟩

theorem collapseAliases_ne_nil (h : group ≠ []) : collapseAliases chainID group ≠ [] := by
  unfold collapseAliases
  simp only
  split
  · rename_i first _ _ hfirst _
    split
    · exact h
    · -- what has a path is not taken out
      obtain ⟨hmem, hhint⟩ := List.mem_filter.mp (hfirst ▸ List.mem_cons_self : first ∈ _)
      rw [Ne, List.map_eq_nil_iff]
      exact List.ne_nil_of_mem (List.mem_filter.mpr ⟨hmem, by rw [hhint, Bool.true_or]⟩)
  · exact h

variable {byKey : List (String × BalanceEventInfo)} {x : String × BalanceEventInfo}

theorem mem_lineageGroup {lineageKey : String} : x ∈ lineageGroup chainID byKey lineageKey ↔
    x ∈ byKey ∧ decodedCoverageEventLineageKey chainID x.2 = lineageKey := by
  simp [lineageGroup]

theorem aliases_came (hx : x ∈ reconcileDecodedCoverageLineageAliases chainID byKey) :
    ∃ y ∈ byKey, SameChange x.2 y.2 := by
  obtain ⟨lineageKey, -, hx⟩ := List.mem_flatMap.mp hx
  obtain ⟨y, hy, hsame⟩ := collapseAliases_came hx
  exact ⟨y, (mem_lineageGroup.mp hy).1, hsame⟩

theorem aliases_kept (hx : x ∈ byKey) :
    ∃ y ∈ reconcileDecodedCoverageLineageAliases chainID byKey,
      decodedCoverageEventLineageKey chainID x.2 = decodedCoverageEventLineageKey chainID y.2 := by
  have hgroup := (@mem_lineageGroup chainID _ _ _).mpr ⟨hx, rfl⟩
  obtain ⟨y, hy⟩ := List.exists_mem_of_ne_nil _
    (@collapseAliases_ne_nil chainID _ (List.ne_nil_of_mem hgroup))
  obtain ⟨z, hz, hsame⟩ := collapseAliases_came hy
  refine ⟨y, List.mem_flatMap.mpr ⟨_, List.mem_dedup.mpr (List.mem_map_of_mem hx), hy⟩, ?_⟩
  rw [hsame.lineage, (mem_lineageGroup.mp hz).2]

variable {primary secondary : List BalanceEventInfo}

theorem merge_came (h : a ∈ mergeDecodedBalanceEvents chainID primary secondary) :
    ∃ be ∈ primary ++ secondary, SameChange a be := by
  obtain ⟨x, hx, rfl⟩ := List.mem_map.mp h
  obtain ⟨y, hy, hsame⟩ := aliases_came ((List.mem_insertionSort _).mp hx)
  obtain ⟨be, hbe, rfl⟩ := List.mem_map.mp hy
  exact ⟨be, mem_of_mem_keep hbe, hsame⟩

theorem merge_kept (h : a ∈ primary ++ secondary) :
    ∃ e ∈ mergeDecodedBalanceEvents chainID primary secondary,
      Relation.ReflTransGen (Alias chainID) a e := by
  obtain ⟨b, hb, hkey⟩ := List.mem_map.mp ((key_mem_keep : decodedCoverageEventKey chainID a ∈ _ ↔ _).mpr
    (List.mem_map_of_mem h))
  obtain ⟨y, hy, hlineage⟩ := aliases_kept (List.mem_map_of_mem hb)
  refine ⟨y.2, List.mem_map_of_mem ((List.mem_insertionSort _).mpr hy), ?_⟩
  exact .tail (.single (.inl hkey.symm)) (.inr hlineage)

variable {answers answers' : List TransactionResult} {existing incoming result : TransactionResult}

theorem mergedFrom_self : MergedFrom chainID [result] result where
  kept _ ha be hbe := ⟨be, List.mem_singleton.mp ha ▸ hbe, .refl⟩
  came e he := ⟨result, List.mem_cons_self, e, he, rfl⟩

theorem MergedFrom.reconcile (hold : MergedFrom chainID answers existing)
    (hnew : MergedFrom chainID answers' incoming) :
    MergedFrom chainID (answers ++ answers')
      (reconcileDecodedResultCoverage chainID (some existing) incoming) := by
  obtain ⟨primary, secondary, hres, hmem⟩ : ∃ primary secondary,
      (reconcileDecodedResultCoverage chainID (some existing) incoming).balanceEvents =
        mergeDecodedBalanceEvents chainID primary secondary ∧
      ∀ be, be ∈ primary ++ secondary ↔
        be ∈ existing.balanceEvents ∨ be ∈ incoming.balanceEvents := by
    unfold reconcileDecodedResultCoverage
    simp only
    split
    · exact ⟨_, _, rfl, fun be => List.mem_append.trans or_comm⟩
    · exact ⟨_, _, rfl, fun be => List.mem_append⟩
  constructor
  · intro answer hanswer be hbe
    obtain ⟨via, hvia, halias⟩ : ∃ via ∈ primary ++ secondary,
        Relation.ReflTransGen (Alias chainID) be via := by
      rcases List.mem_append.mp hanswer with hanswer | hanswer
      · obtain ⟨via, hvia, halias⟩ := hold.kept answer hanswer be hbe
        exact ⟨via, (hmem via).mpr (.inl hvia), halias⟩
      · obtain ⟨via, hvia, halias⟩ := hnew.kept answer hanswer be hbe
        exact ⟨via, (hmem via).mpr (.inr hvia), halias⟩
    obtain ⟨e, he, hrest⟩ := merge_kept hvia
    exact ⟨e, hres ▸ he, halias.trans hrest⟩
  · intro e he
    obtain ⟨via, hvia, hsame⟩ := merge_came (hres ▸ he)
    rcases (hmem via).mp hvia with hvia | hvia
    · obtain ⟨answer, hanswer, be, hbe, hbe'⟩ := hold.came via hvia
      exact ⟨answer, List.mem_append_left _ hanswer, be, hbe, hsame.trans hbe'⟩
    · obtain ⟨answer, hanswer, be, hbe, hbe'⟩ := hnew.came via hvia
      exact ⟨answer, List.mem_append_right _ hanswer, be, hbe, hsame.trans hbe'⟩

theorem mergedFrom_gather
    (h : answers.foldl (gather (reconcileDecodedResultCoverage chainID ∘ some)) none = some result) :
    MergedFrom chainID answers result := by
  induction answers using List.reverseRecOn generalizing result with
  | nil => cases h
  | append_singleton answers answer ih =>
    rw [List.foldl_concat, gather] at h
    cases hacc : answers.foldl (gather (reconcileDecodedResultCoverage chainID ∘ some)) none with
    | none =>
      rw [hacc] at h
      cases h
      rw [gather_eq_none.mp hacc]
      exact mergedFrom_self
    | some existing =>
      rw [hacc] at h
      cases h
      exact (ih hacc).reconcile mergedFrom_self

end Coverage

end Normalizer

end MultichainIndexer
