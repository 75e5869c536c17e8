import MultichainIndexer.Normalizer.EventOrder
import MultichainIndexer.Normalizer.Solana

/-!
# Solana events do not depend on the order of the decoded ones

Which owners have an event at an outer instruction is the same in every order, so
every event gets the same place and the same id. Among events of one id the
choice compares field after field, so the order in which they come to it does not
matter either.
-/

namespace MultichainIndexer

open Text BestOf

namespace Normalizer

section Rule
variable {a b : NormalizedBalanceEvent × SolanaCanonicalSelection}

def solanaFeeRule : NormalizedBalanceEvent × SolanaCanonicalSelection →
    NormalizedBalanceEvent × SolanaCanonicalSelection → Bool :=
  lexReplaces (fun e => e.1.eventAction) (fun x y => x < y) (numberRule Prod.fst)

def solanaPlaceRule : NormalizedBalanceEvent × SolanaCanonicalSelection →
    NormalizedBalanceEvent × SolanaCanonicalSelection → Bool :=
  lexReplaces (fun e => e.2.fromOuterInstruction) (fun x _ => x) <|
  lexReplaces (fun e => e.2.originalInnerIndex) (fun x y => x < y) <|
  lexReplaces (fun e => e.1.eventAction) (fun x y => x < y) <|
  lexReplaces (fun e => e.1.contractAddress) (fun x y => x < y) (numberRule Prod.fst)

/-- Events of one finality and one activity whose deltas compare as numbers. -/
structure SolanaClass (P : NormalizedBalanceEvent × SolanaCanonicalSelection → Prop) : Prop where
  finality : ∀ a b, P a → P b → a.1.finalityState = b.1.finalityState
  activity : ∀ a b, P a → P b → a.1.activityType = b.1.activityType
  ranked : ∀ a b, P a → P b → Ranked a.1 b.1

variable {P : NormalizedBalanceEvent × SolanaCanonicalSelection → Prop} (h : SolanaClass P)
include h

theorem solanaReplaces_eq (ha : P a) (hb : P b) :
    shouldReplaceCanonicalSolanaEvent a b =
      if a.1.activityType = .fee then solanaFeeRule a b else solanaPlaceRule a b := by
  unfold shouldReplaceCanonicalSolanaEvent
  rw [h.finality a b ha hb, compareFinalityStateStrength_self,
    numberRule_eq (f := Prod.fst) (h.ranked a b ha hb), ← h.activity a b ha hb, Bool.or_self]
  by_cases hfee : a.1.activityType = .fee
  · simp only [hfee, decide_true, if_true]
    rfl
  · simp only [hfee, decide_false, Bool.false_eq_true, if_false]
    rfl

theorem solanaReplaces_consistent : Consistent shouldReplaceCanonicalSolanaEvent P := by
  have hfeeR : Consistent solanaFeeRule P :=
    Consistent.lex strictTotal_lt fun _ => numberRule_consistent
  have hplaR : Consistent solanaPlaceRule P :=
    Consistent.lex strictTotal_set fun _ => Consistent.lex strictTotal_lt fun _ =>
      Consistent.lex strictTotal_lt fun _ => Consistent.lex strictTotal_lt fun _ =>
        numberRule_consistent
  by_cases hfee : ∀ a, P a → a.1.activityType = .fee
  · exact hfeeR.congr fun a b ha hb => by rw [solanaReplaces_eq h ha hb, if_pos (hfee a ha)]
  · obtain ⟨c, hc, hother⟩ : ∃ c, P c ∧ c.1.activityType ≠ .fee := by
      simpa only [not_forall, exists_prop] using hfee
    refine hplaR.congr fun a b ha hb => ?_
    rw [solanaReplaces_eq h ha hb, if_neg]
    rw [h.activity a c ha hc]
    exact hother

theorem solanaReplaces_tie (ha : P a) (hb : P b)
    (hab : shouldReplaceCanonicalSolanaEvent a b = false)
    (hba : shouldReplaceCanonicalSolanaEvent b a = false) :
    numericDelta a.1 = numericDelta b.1 := by
  by_cases hfee : a.1.activityType = .fee
  · have hfee' : b.1.activityType = .fee := (h.activity b a hb ha).trans hfee
    rw [solanaReplaces_eq h ha hb, if_pos hfee] at hab
    rw [solanaReplaces_eq h hb ha, if_pos hfee'] at hba
    obtain ⟨-, hab, hba⟩ := lexReplaces_tie strictTotal_lt hab hba
    exact numberRule_tie hab hba
  · have hfee' : b.1.activityType ≠ .fee := fun hb' => hfee ((h.activity a b ha hb).trans hb')
    rw [solanaReplaces_eq h ha hb, if_neg hfee] at hab
    rw [solanaReplaces_eq h hb ha, if_neg hfee'] at hba
    obtain ⟨-, hab, hba⟩ := lexReplaces_tie strictTotal_set hab hba
    obtain ⟨-, hab, hba⟩ := lexReplaces_tie strictTotal_lt hab hba
    obtain ⟨-, hab, hba⟩ := lexReplaces_tie strictTotal_lt hab hba
    obtain ⟨-, hab, hba⟩ := lexReplaces_tie strictTotal_lt hab hba
    exact numberRule_tie hab hba

end Rule

section Place
variable (chain : Chain) (be : NormalizedBalanceEvent)

@[simp] theorem placeSolanaEvent_delta : (placeSolanaEvent chain be).delta = be.delta := by
  simp only [placeSolanaEvent]
  split
  · simp only
  · split
    · simp only
    · simp only

@[simp] theorem placeSolanaEvent_activityType :
    (placeSolanaEvent chain be).activityType = be.activityType := by
  simp only [placeSolanaEvent]
  split
  · simp only
  · split
    · simp only
    · simp only

end Place

section Candidate
variable (hash : String → String) (chain : Chain) (network : Network) (txHash finalityState : String)
variable (owners : List SolanaInstructionOwnerKey) (be : NormalizedBalanceEvent)

def solanaEventText : String := (canonicalSolanaEvent id chain network txHash "" owners be).1.eventID

theorem canonicalSolanaEvent_eventID :
    (canonicalSolanaEvent hash chain network txHash finalityState owners be).1.eventID =
      hash (solanaEventText chain network txHash owners be) := by
  simp only [solanaEventText, canonicalSolanaEvent, buildCanonicalEventID, id]

theorem canonicalSolanaEvent_activityType :
    (canonicalSolanaEvent hash chain network txHash finalityState owners be).1.activityType =
      be.activityType := by
  simp only [canonicalSolanaEvent]

theorem canonicalSolanaEvent_finalityState :
    (canonicalSolanaEvent hash chain network txHash finalityState owners be).1.finalityState =
      finalityState := by
  simp only [canonicalSolanaEvent]

theorem canonicalSolanaEvent_delta :
    (canonicalSolanaEvent hash chain network txHash finalityState owners be).1.delta =
      if be.activityType = .fee then canonicalFeeDelta be.delta else be.delta := by
  simp only [canonicalSolanaEvent, decide_eq_true_eq]

theorem canonicalSolanaEvent_owners {owners owners' : List SolanaInstructionOwnerKey}
    (h : ∀ key, key ∈ owners ↔ key ∈ owners') :
    canonicalSolanaEvent hash chain network txHash finalityState owners be =
      canonicalSolanaEvent hash chain network txHash finalityState owners' be := by
  have hkey : decide (solanaOwnerKey be ∈ owners) = decide (solanaOwnerKey be ∈ owners') :=
    decide_eq_decide.mpr (h _)
  simp only [canonicalSolanaEvent, hkey]

theorem solanaEventText_activity {be be' : NormalizedBalanceEvent}
    (h : solanaEventText chain network txHash owners be =
      solanaEventText chain network txHash owners be') : be.activityType = be'.activityType := by
  simp only [solanaEventText, canonicalSolanaEvent, buildCanonicalEventID, id] at h
  exact canonicalEventText_activity h

end Candidate

section Events
variable (hash : String → String) (chain : Chain) (network : Network) (txHash : String)

def solanaEventTexts (events : List NormalizedBalanceEvent) : List String :=
  let placed := events.map (placeSolanaEvent chain)
  placed.map (solanaEventText chain network txHash (outerOwners placed))

def solanaCandidates (finalityState : String) (events : List NormalizedBalanceEvent) :
    List (NormalizedBalanceEvent × SolanaCanonicalSelection) :=
  let placed := events.map (placeSolanaEvent chain)
  placed.map (canonicalSolanaEvent hash chain network txHash finalityState (outerOwners placed))

variable {events : List NormalizedBalanceEvent} {fee : NormalizedBalanceEvent}

theorem solanaCandidates_perm (finalityState : String) {events' : List NormalizedBalanceEvent}
    (h : events.Perm events') :
    (solanaCandidates hash chain network txHash finalityState events).Perm
      (solanaCandidates hash chain network txHash finalityState events') := by
  have hpla := h.map (placeSolanaEvent chain)
  have hown : ∀ key, key ∈ outerOwners (events.map (placeSolanaEvent chain)) ↔
      key ∈ outerOwners (events'.map (placeSolanaEvent chain)) :=
    fun key => ((hpla.filter _).map solanaOwnerKey).mem_iff
  have hsame := hpla.map (canonicalSolanaEvent hash chain network txHash finalityState
    (outerOwners (events.map (placeSolanaEvent chain))))
  refine hsame.trans (List.Perm.of_eq (List.map_congr_left fun be _ => ?_))
  exact canonicalSolanaEvent_owners hash chain network txHash finalityState be hown

theorem canonicalizeSolana_eq (finalityState : String) (events : List NormalizedBalanceEvent) :
    ∃ candidates, candidates.Perm (solanaCandidates hash chain network txHash
        (normalizeFinalityStateOrDefault chain finalityState) events) ∧
      canonicalizeSolanaBalanceEvents hash chain network txHash finalityState events =
        sortByEventID ((keep (fun e => e.1.eventID) shouldReplaceCanonicalSolanaEvent
          candidates).map Prod.fst) :=
  ⟨_, (List.perm_insertionSort _ _).map _, rfl⟩

variable {hash chain network txHash}

theorem solanaCandidates_ranked (hfee : fee.activityType = .fee) {finalityState : String}
    (heve : ∀ be ∈ events, NumberOrFee fee be)
    {a b : NormalizedBalanceEvent × SolanaCanonicalSelection}
    (ha : a ∈ solanaCandidates hash chain network txHash finalityState events)
    (hb : b ∈ solanaCandidates hash chain network txHash finalityState events)
    (hact : a.1.activityType = b.1.activityType) : Ranked a.1 b.1 := by
  obtain ⟨p, hp, rfl⟩ := List.mem_map.mp ha
  obtain ⟨q, hq, rfl⟩ := List.mem_map.mp hb
  obtain ⟨e, he, rfl⟩ := List.mem_map.mp hp
  obtain ⟨e', he', rfl⟩ := List.mem_map.mp hq
  rw [canonicalSolanaEvent_activityType, canonicalSolanaEvent_activityType,
    placeSolanaEvent_activityType, placeSolanaEvent_activityType] at hact
  have hdelta : ∀ be, (canonicalSolanaEvent hash chain network txHash finalityState
      (outerOwners (events.map (placeSolanaEvent chain))) (placeSolanaEvent chain be)).1.delta =
        if decide (be.activityType = .fee) = true then canonicalFeeDelta be.delta else be.delta := by
    intro be
    rw [canonicalSolanaEvent_delta, placeSolanaEvent_activityType, placeSolanaEvent_delta]
    simp only [decide_eq_true_eq]
  exact ranked_of_source (fun activity => decide (activity = .fee)) (decide_eq_true hfee)
    (heve e he) (heve e' he') hact (hdelta e) (hdelta e')

theorem solanaCandidates_class (hfee : fee.activityType = .fee) {finalityState : String}
    (heve : ∀ be ∈ events, NumberOrFee fee be)
    (hhash : CollisionFree hash (solanaEventTexts chain network txHash events)) (id : String) :
    SolanaClass fun a => a ∈ solanaCandidates hash chain network txHash finalityState events ∧
      a.1.eventID = id := by
  have hact : ∀ a b, a ∈ solanaCandidates hash chain network txHash finalityState events →
      b ∈ solanaCandidates hash chain network txHash finalityState events →
      a.1.eventID = b.1.eventID → a.1.activityType = b.1.activityType := by
    intro a b ha hb heq
    obtain ⟨p, hp, rfl⟩ := List.mem_map.mp ha
    obtain ⟨q, hq, rfl⟩ := List.mem_map.mp hb
    rw [canonicalSolanaEvent_eventID, canonicalSolanaEvent_eventID] at heq
    have htext := hhash _ (List.mem_map_of_mem hp) _ (List.mem_map_of_mem hq) heq
    rw [canonicalSolanaEvent_activityType, canonicalSolanaEvent_activityType]
    exact solanaEventText_activity chain network txHash _ htext
  refine ⟨fun a b ha hb => ?_, fun a b ha hb => ?_, fun a b ha hb => ?_⟩
  · obtain ⟨p, -, rfl⟩ := List.mem_map.mp ha.1
    obtain ⟨q, -, rfl⟩ := List.mem_map.mp hb.1
    rw [canonicalSolanaEvent_finalityState, canonicalSolanaEvent_finalityState]
  · exact hact a b ha.1 hb.1 (ha.2.trans hb.2.symm)
  · exact solanaCandidates_ranked hfee heve ha.1 hb.1
      (hact a b ha.1 hb.1 (ha.2.trans hb.2.symm))

theorem canonicalizeSolana_perm (hfee : fee.activityType = .fee) (finalityState : String)
    {events' : List NormalizedBalanceEvent} (heve : ∀ be ∈ events, NumberOrFee fee be)
    (hhash : CollisionFree hash (solanaEventTexts chain network txHash events))
    (hperm : events.Perm events') :
    (canonicalizeSolanaBalanceEvents hash chain network txHash finalityState events).map eventView =
      (canonicalizeSolanaBalanceEvents hash chain network txHash finalityState events').map
        eventView := by
  obtain ⟨candidates, hc, heq⟩ := canonicalizeSolana_eq hash chain network txHash finalityState events
  obtain ⟨candidates', hc', heq'⟩ :=
    canonicalizeSolana_eq hash chain network txHash finalityState events'
  have hclass : ∀ id, SolanaClass fun a => a ∈ solanaCandidates hash chain network txHash
      (normalizeFinalityStateOrDefault chain finalityState) events ∧ a.1.eventID = id :=
    solanaCandidates_class hfee heve hhash
  have hsame := (hc.trans (solanaCandidates_perm hash chain network txHash _ hperm)).trans hc'.symm
  have hkeep : ((keep (fun e => e.1.eventID) shouldReplaceCanonicalSolanaEvent candidates).map
      fun e => eventView e.1).Perm ((keep (fun e => e.1.eventID) shouldReplaceCanonicalSolanaEvent
        candidates').map fun e => eventView e.1) := by
    refine keep_perm (fun id => solanaReplaces_consistent (hclass id))
      (fun a ha => hc.mem_iff.mp ha) hsame (fun a b hview => congrArg Prod.fst hview) ?_
    intro a ha b hb hkey hab hba
    have hPa := (⟨hc.mem_iff.mp ha, hkey⟩ : _ ∧ a.1.eventID = b.1.eventID)
    have hPb := (⟨hc.mem_iff.mp hb, rfl⟩ : _ ∧ b.1.eventID = b.1.eventID)
    have hnum := solanaReplaces_tie (hclass b.1.eventID) hPa hPb hab hba
    have hact := (hclass b.1.eventID).activity a b hPa hPb
    exact eventView_eq_iff.mpr ⟨hkey, hnum, hact⟩
  rw [heq, heq']
  apply sortByEventID_view
  · rw [List.map_map, List.map_map]
    exact hkeep
  · rw [List.map_map]
    exact nodup_keep _

theorem canonicalizeSolana_ascending (finalityState : String)
    (events : List NormalizedBalanceEvent) :
    ((canonicalizeSolanaBalanceEvents hash chain network txHash finalityState events).map
      NormalizedBalanceEvent.eventID).Pairwise (· < ·) := by
  obtain ⟨candidates, -, heq⟩ := canonicalizeSolana_eq hash chain network txHash finalityState events
  rw [heq]
  apply ascending_sortByEventID
  rw [List.map_map]
  exact nodup_keep _

end Events

section Build
variable {rawEvents rawEvents' : List BalanceEventInfo}

theorem solanaBalanceEvents_perm (txStatus feePayer feeAmount : String)
    (watchedAddresses : List String) (h : rawEvents.Perm rawEvents') :
    (solanaBalanceEvents txStatus feePayer feeAmount rawEvents watchedAddresses).Perm
      (solanaBalanceEvents txStatus feePayer feeAmount rawEvents' watchedAddresses) := by
  have hraw := buildRawBalanceEventsMulti_perm h watchedAddresses true
  have hhas : hasFeeEvent (buildRawBalanceEventsMulti rawEvents watchedAddresses true) feePayer =
      hasFeeEvent (buildRawBalanceEventsMulti rawEvents' watchedAddresses true) feePayer := by
    unfold hasFeeEvent
    rw [hraw.any_eq]
  unfold solanaBalanceEvents
  simp only [hhas]
  split
  · exact hraw.append_right _
  · exact hraw

theorem solanaBalanceEvents_number (txStatus feePayer feeAmount : String)
    (watchedAddresses : List String) (h : ∀ be ∈ rawEvents, BalanceEventInfo.IsNumber be) :
    ∀ be ∈ solanaBalanceEvents txStatus feePayer feeAmount rawEvents watchedAddresses,
      NumberOrFee (buildSolanaFeeBalanceEvent feePayer feeAmount) be := by
  have hraw : ∀ be ∈ buildRawBalanceEventsMulti rawEvents watchedAddresses true,
      NumberOrFee (buildSolanaFeeBalanceEvent feePayer feeAmount) be := by
    intro be hbe
    obtain ⟨raw, hmem, rfl⟩ := List.mem_map.mp hbe
    exact .inl (numericDelta_normalizeRaw true (h raw (List.mem_filter.mp hmem).1))
  intro be hbe
  unfold solanaBalanceEvents at hbe
  simp only at hbe
  split at hbe
  · rcases List.mem_append.mp hbe with hbe | hbe
    · exact hraw be hbe
    · exact .inr (List.mem_singleton.mp hbe)
  · exact hraw be hbe

/-- Id, number and activity of the canonical events are the same for every order of the decoded
events, and the ids are distinct and ascend. -/
theorem buildCanonicalSolana_order_free (hash : String → String) (chain : Chain) (network : Network)
    (txHash txStatus feePayer feeAmount finalityState : String) (watchedAddresses : List String)
    (hnumber : ∀ be ∈ rawEvents, BalanceEventInfo.IsNumber be)
    (hhash : CollisionFree hash (solanaEventTexts chain network txHash
      (solanaBalanceEvents txStatus feePayer feeAmount rawEvents watchedAddresses)))
    (hperm : rawEvents.Perm rawEvents') :
    (buildCanonicalSolanaBalanceEventsMulti hash chain network txHash txStatus feePayer feeAmount
        finalityState rawEvents watchedAddresses).map eventView =
      (buildCanonicalSolanaBalanceEventsMulti hash chain network txHash txStatus feePayer feeAmount
        finalityState rawEvents' watchedAddresses).map eventView ∧
    ((buildCanonicalSolanaBalanceEventsMulti hash chain network txHash txStatus feePayer feeAmount
      finalityState rawEvents watchedAddresses).map NormalizedBalanceEvent.eventID).Pairwise
        (· < ·) := by
  refine ⟨?_, canonicalizeSolana_ascending _ _⟩
  have hfee : (buildSolanaFeeBalanceEvent feePayer feeAmount).activityType = .fee := rfl
  exact canonicalizeSolana_perm hfee _
    (solanaBalanceEvents_number txStatus feePayer feeAmount watchedAddresses hnumber) hhash
    (solanaBalanceEvents_perm txStatus feePayer feeAmount watchedAddresses hperm)

def outerAndInner : List BalanceEventInfo :=
  [{ outerInstructionIndex := 1, innerInstructionIndex := -1, eventCategory := "TRANSFER",
     eventAction := "system_transfer", address := "alice", contractAddress := "SOL",
     delta := "-7", counterpartyAddress := "bob" },
   { outerInstructionIndex := 1, innerInstructionIndex := 0, eventCategory := "TRANSFER",
     eventAction := "system_transfer", address := "alice", contractAddress := "SOL",
     delta := "-9", counterpartyAddress := "bob" }]

theorem buildCanonicalSolana_order_free_sample :
    (buildCanonicalSolanaBalanceEventsMulti id .solana .mainnet "sig" "SUCCESS" "alice" "5000" ""
        outerAndInner ["alice"]).map eventView =
      (buildCanonicalSolanaBalanceEventsMulti id .solana .mainnet "sig" "SUCCESS" "alice" "5000" ""
        outerAndInner.reverse ["alice"]).map eventView ∧
    ((buildCanonicalSolanaBalanceEventsMulti id .solana .mainnet "sig" "SUCCESS" "alice" "5000" ""
      outerAndInner ["alice"]).map NormalizedBalanceEvent.eventID).Pairwise (· < ·) :=
  buildCanonicalSolana_order_free id .solana .mainnet "sig" "SUCCESS" "alice" "5000" "" ["alice"]
    (by decide) (fun _ _ _ _ h => h) (List.reverse_perm outerAndInner).symm

end Build

end Normalizer

end MultichainIndexer
