import MultichainIndexer.Normalizer.Btc
import MultichainIndexer.Normalizer.EventText
import MultichainIndexer.Sidecar.Btc

/-!
# Bitcoin balances and the outputs that are spent and created

The canonical events of a transaction, from the decoder through the normalizer,
add up for each watched address to what its outputs receive less what its inputs
spend. The fee is already missing from the outputs; an event of its own takes it
from the fee payer once more, unless an output back to the payer has its amount.
-/

namespace MultichainIndexer

open Text SumWhere Normalizer Sidecar

namespace Sidecar

def BTCVin.owner (vin : BTCVin) : String := normalizeString vin.address

def BTCVin.amount (vin : BTCVin) : Int := toBigInt vin.valueSat

def BTCVout.owner (vout : BTCVout) : String := normalizeString vout.address

def BTCVout.amount (vout : BTCVout) : Int := toBigInt vout.valueSat

namespace BTCEnvelope
variable (payload : BTCEnvelope)

/-- Inputs and outputs have indices of their own and no negative amounts. -/
structure WellFormed : Prop where
  vin_index : (payload.spends.map fun vin => pathIndex vin.index).Nodup
  vout_index : (payload.vout.map fun vout => pathIndex vout.index).Nodup
  vin_amount : ∀ vin ∈ payload.spends, 0 ≤ vin.amount
  vout_amount : ∀ vout ∈ payload.vout, 0 ≤ vout.amount

def spentFrom (a : String) : Int :=
  sumWhere (fun vin => decide (vin.owner = a)) BTCVin.amount payload.spends

def paidTo (a : String) : Int :=
  sumWhere (fun vout => decide (vout.owner = a)) BTCVout.amount payload.vout

/-- A watched address spends, another than the payer receives, and the payer receives the very
amount of the fee. -/
def FeeInChange (watched : List String) : Prop :=
  (∃ vin ∈ payload.spends, vin.owner ∈ watched ∧ 0 < vin.amount) ∧
    (∃ vout ∈ payload.vout, vout.owner ∈ watched ∧ vout.owner ≠ payload.payer ∧ 0 < vout.amount) ∧
    ∃ vout ∈ payload.vout, vout.owner = payload.payer ∧ 0 < vout.amount ∧
      vout.amount = payload.fee.natAbs

instance (watched : List String) : Decidable (payload.FeeInChange watched) :=
  inferInstanceAs (Decidable (_ ∧ _ ∧ _))

def feeCharged (watched : List String) (a : String) : Int :=
  if a = payload.payer ∧ ¬ payload.FeeInChange watched then payload.fee.natAbs else 0

end BTCEnvelope

end Sidecar

/-- Addresses as they are watched: not empty and without blanks around them. -/
def Addresses (watched : List String) : Prop := ∀ a ∈ watched, a ≠ "" ∧ trimSpace a = a

namespace Normalizer

section Raw
variable {watched : List String} (finalityState : String)

def spendEvent (vin : BTCVin) : NormalizedBalanceEvent :=
  rawEvent (vinEvent finalityState vin) .withdrawal "vin_spend" ("-" ++ toString vin.amount)

def receiveEvent (vout : BTCVout) : NormalizedBalanceEvent :=
  rawEvent (voutEvent finalityState vout) .deposit "vout_receive" (toString vout.amount)

variable {finalityState}

section Fields
variable (vin : BTCVin) (vout : BTCVout)

@[simp] theorem spendEvent_address : (spendEvent finalityState vin).address = vin.owner := rfl

@[simp] theorem spendEvent_activity : (spendEvent finalityState vin).activityType = .withdrawal := rfl

@[simp] theorem spendEvent_action : (spendEvent finalityState vin).eventAction = "vin_spend" := rfl

@[simp] theorem receiveEvent_address : (receiveEvent finalityState vout).address = vout.owner := rfl

@[simp] theorem receiveEvent_activity : (receiveEvent finalityState vout).activityType = .deposit := rfl

@[simp] theorem receiveEvent_action :
    (receiveEvent finalityState vout).eventAction = "vout_receive" := rfl

@[simp] theorem receiveEvent_delta :
    (receiveEvent finalityState vout).delta = toString vout.amount := rfl

end Fields

theorem spendEvent_delta {vin : BTCVin} (h : 0 < vin.amount) :
    deltaValue (spendEvent finalityState vin).delta = -vin.amount :=
  deltaValue_minus h

theorem normalizeRaw_transfer (be : BalanceEventInfo) {activity : ActivityType}
    (h : classifyActivity be.eventCategory be.delta true = activity) :
    normalizeRaw false be = rawEvent be activity be.eventAction be.delta := by
  simp only [normalizeRaw, Bool.false_and, Bool.false_eq_true, if_false, h]

theorem normalizeRaw_vinEvent {vin : BTCVin} (h : 0 < vin.amount) :
    normalizeRaw false (vinEvent finalityState vin) = spendEvent finalityState vin :=
  normalizeRaw_transfer (vinEvent finalityState vin) (classifyActivity_debit h)

theorem normalizeRaw_voutEvent {vout : BTCVout} (h : 0 < vout.amount) :
    normalizeRaw false (voutEvent finalityState vout) = receiveEvent finalityState vout :=
  normalizeRaw_transfer (voutEvent finalityState vout) (classifyActivity_credit h)

theorem mem_trimmed (hW : Addresses watched) {value : Option String}
    (h : normalizeString value ∈ watched) :
    normalizeString value ∈ (watched.map Js.trim).filter (· ≠ "") := by
  refine List.mem_filter.mpr ⟨List.mem_map.mpr ⟨_, h, Js.trim_trim _⟩, ?_⟩
  exact decide_eq_true (hW _ h).1

theorem normalizeRaw_side {α : Type} (hW : Addresses watched) {l : List α} {address : α → Option String}
    {amount : α → Int} {ev : α → BalanceEventInfo} {raw : α → NormalizedBalanceEvent}
    (hadd : ∀ x, (ev x).address = normalizeString (address x))
    (hraw : ∀ x, 0 < amount x → normalizeRaw false (ev x) = raw x) :
    buildRawBalanceEventsMulti ((l.filter fun x =>
      normalizeString (address x) ∈ (watched.map Js.trim).filter (· ≠ "") && 0 < amount x).map ev)
      watched false =
      (l.filter fun x => normalizeString (address x) ∈ watched && 0 < amount x).map raw := by
  induction l with
  | nil => rfl
  | cons x l ih =>
    unfold buildRawBalanceEventsMulti at ih ⊢
    by_cases hpos : 0 < amount x
    · by_cases hmem : normalizeString (address x) ∈ watched
      · have hseen := mem_trimmed hW hmem
        have hkeep : (ev x).address ∈ watched := hadd x ▸ hmem
        simp only [List.filter_cons, hseen, hpos, hmem, decide_true, Bool.and_self, if_true,
          List.map_cons, hkeep, hraw x hpos, ih]
      · have hdrop : ¬ (ev x).address ∈ watched := hadd x ▸ hmem
        by_cases hseen : normalizeString (address x) ∈ (watched.map Js.trim).filter (· ≠ "")
        · simp only [List.filter_cons, hseen, hpos, hmem, decide_true, Bool.and_self, if_true,
            List.map_cons, hdrop, decide_false, Bool.false_and, Bool.false_eq_true, if_false, ih]
        · simp only [List.filter_cons, hseen, hmem, decide_false, Bool.false_and,
            Bool.false_eq_true, if_false, ih]
    · simp only [List.filter_cons, hpos, decide_false, Bool.and_false, Bool.false_eq_true,
        if_false, ih]

end Raw

variable {payload : BTCEnvelope} {watched : List String}

def btcFinality (payload : BTCEnvelope) : String :=
  if 0 < toInt payload.confirmations then "confirmed" else "processed"

def utxoEvents (payload : BTCEnvelope) (watched : List String) : List NormalizedBalanceEvent :=
  ((payload.spends.filter fun vin => vin.owner ∈ watched && 0 < vin.amount).map
    (spendEvent (btcFinality payload))) ++
  ((payload.vout.filter fun vout => vout.owner ∈ watched && 0 < vout.amount).map
    (receiveEvent (btcFinality payload)))

theorem buildRaw_decodeBTC (hW : Addresses watched) (signature : String) :
    buildRawBalanceEventsMulti (decodeBTCTransaction payload signature watched).balanceEvents
      watched false = utxoEvents payload watched := by
  have hspe : buildRawBalanceEventsMulti ((payload.spends.filter fun vin =>
      normalizeString vin.address ∈ (watched.map Js.trim).filter (· ≠ "") &&
        0 < toBigInt vin.valueSat).map (vinEvent (btcFinality payload))) watched false =
      (payload.spends.filter fun vin => vin.owner ∈ watched && 0 < vin.amount).map
        (spendEvent (btcFinality payload)) :=
    normalizeRaw_side hW (fun _ => rfl) fun vin h => normalizeRaw_vinEvent h
  have hrec : buildRawBalanceEventsMulti ((payload.vout.filter fun vout =>
      normalizeString vout.address ∈ (watched.map Js.trim).filter (· ≠ "") &&
        0 < toBigInt vout.valueSat).map (voutEvent (btcFinality payload))) watched false =
      (payload.vout.filter fun vout => vout.owner ∈ watched && 0 < vout.amount).map
        (receiveEvent (btcFinality payload)) :=
    normalizeRaw_side hW (fun _ => rfl) fun vout h => normalizeRaw_voutEvent h
  unfold utxoEvents
  rw [← hspe, ← hrec]
  unfold buildRawBalanceEventsMulti
  rw [← List.map_append, ← List.filter_append]
  rfl

theorem sumWhere_utxoEvents (hwf : payload.WellFormed) {a : String} (ha : a ∈ watched) :
    sumWhere (fun be => decide (be.address = a)) (fun be => deltaValue be.delta)
      (utxoEvents payload watched) = payload.paidTo a - payload.spentFrom a := by
  have hspent : sumWhere (fun be => decide (be.address = a)) (fun be => deltaValue be.delta)
      ((payload.spends.filter fun vin => vin.owner ∈ watched && 0 < vin.amount).map
        (spendEvent (btcFinality payload))) = -payload.spentFrom a := by
    rw [sumWhere_map, sumWhere_filter, BTCEnvelope.spentFrom, ← sumWhere_neg]
    refine sumWhere_congr_term fun vin hvin => ?_
    rw [spendEvent_address]
    by_cases hown : vin.owner = a
    · by_cases hpos : 0 < vin.amount
      · simp [hown, ha, hpos, spendEvent_delta hpos]
      · have hzero : vin.amount = 0 := by
          have := hwf.vin_amount vin hvin
          omega
        simp [hzero]
    · simp [hown]
  have hpaid : sumWhere (fun be => decide (be.address = a)) (fun be => deltaValue be.delta)
      ((payload.vout.filter fun vout => vout.owner ∈ watched && 0 < vout.amount).map
        (receiveEvent (btcFinality payload))) = payload.paidTo a := by
    rw [sumWhere_map, sumWhere_filter, BTCEnvelope.paidTo]
    refine sumWhere_congr_term fun vout hvout => ?_
    rw [receiveEvent_address, receiveEvent_delta, deltaValue_toString]
    by_cases hown : vout.owner = a
    · by_cases hpos : 0 < vout.amount
      · simp [hown, ha, hpos]
      · have hzero : vout.amount = 0 := by
          have := hwf.vout_amount vout hvout
          omega
        simp [hzero]
    · simp [hown]
  rw [utxoEvents, sumWhere_append, hspent, hpaid]
  omega

section Fee

@[simp] theorem decodeBTC_status (signature : String) :
    (decodeBTCTransaction payload signature watched).status = "SUCCESS" := rfl

@[simp] theorem decodeBTC_feePayer (signature : String) :
    (decodeBTCTransaction payload signature watched).feePayer = payload.payer := by
  simp only [decodeBTCTransaction]

@[simp] theorem decodeBTC_feeAmount (signature : String) :
    (decodeBTCTransaction payload signature watched).feeAmount = toString payload.fee := by
  simp only [decodeBTCTransaction]

theorem canonicalizeAddressIdentity_btc {a : String} (h : trimSpace a = a) :
    canonicalizeAddressIdentity .btc a = a := by
  unfold canonicalizeAddressIdentity
  simp only [h, isEVMChain, Bool.not_false, if_true]
  split
  · rename_i hempty
    exact hempty.symm
  · rfl

theorem mem_utxoEvents_activity {be : NormalizedBalanceEvent} (h : be ∈ utxoEvents payload watched) :
    be.activityType = .deposit ∨ be.activityType = .withdrawal := by
  rcases List.mem_append.mp h with h | h
  · obtain ⟨vin, _, rfl⟩ := List.mem_map.mp h
    exact .inr (spendEvent_activity vin)
  · obtain ⟨vout, _, rfl⟩ := List.mem_map.mp h
    exact .inl (receiveEvent_activity vout)

/-- An output as the search for the fee among the events sees it. -/
def receivedOutput (be : NormalizedBalanceEvent) : Option (String × Int) :=
  if trimSpace be.eventAction = "vout_receive" then
    (parseBigInt be.delta).bind fun v =>
      if v = 0 then none else some (canonicalizeAddressIdentity .btc be.address, v)
  else none

theorem receivedOutput_spend {finalityState : String} (vin : BTCVin) :
    receivedOutput (spendEvent finalityState vin) = none := by
  have hspend : trimSpace "vin_spend" ≠ "vout_receive" := by decide
  rw [receivedOutput, spendEvent_action, if_neg hspend]

theorem receivedOutput_receive {finalityState : String} {vout : BTCVout}
    (howner : trimSpace vout.owner = vout.owner) (hpos : 0 < vout.amount) :
    receivedOutput (receiveEvent finalityState vout) = some (vout.owner, vout.amount) := by
  have hrec : trimSpace "vout_receive" = "vout_receive" := by decide
  rw [receivedOutput, receiveEvent_action, receiveEvent_delta, receiveEvent_address,
    if_pos hrec, parseBigInt_toString, canonicalizeAddressIdentity_btc howner,
    Option.bind_some, if_neg (by omega), Int.natAbs_of_nonneg (by omega)]

theorem filterMap_receivedOutput (hW : Addresses watched) :
    (utxoEvents payload watched).filterMap receivedOutput =
      (payload.vout.filter fun vout => vout.owner ∈ watched && 0 < vout.amount).map fun vout =>
        (vout.owner, vout.amount) := by
  have hspe : (payload.spends.filter fun vin => vin.owner ∈ watched && 0 < vin.amount).filterMap
      (receivedOutput ∘ spendEvent (btcFinality payload)) = [] := by
    refine List.filterMap_eq_nil_iff.mpr fun vin _ => ?_
    rw [Function.comp_apply, receivedOutput_spend]
  rw [utxoEvents, List.filterMap_append, List.filterMap_map, List.filterMap_map, hspe,
    List.nil_append, ← List.filterMap_eq_map]
  refine List.filterMap_congr fun vout hvout => ?_
  simp only [List.mem_filter, Bool.and_eq_true, decide_eq_true_eq] at hvout
  rw [Function.comp_apply, receivedOutput_receive (hW _ hvout.2.1).2 hvout.2.2,
    Function.comp_apply]

theorem any_spend_iff : (utxoEvents payload watched).any (fun be =>
    trimSpace be.eventAction = "vin_spend") = true ↔
      ∃ vin ∈ payload.spends, vin.owner ∈ watched ∧ 0 < vin.amount := by
  have hspend : trimSpace "vin_spend" = "vin_spend" := by decide
  have hrec : trimSpace "vout_receive" ≠ "vin_spend" := by decide
  simp only [utxoEvents, List.any_append, List.any_map, Bool.or_eq_true, List.any_eq_true,
    Function.comp_def, spendEvent_action, receiveEvent_action, hspend, hrec, decide_true,
    decide_false, List.mem_filter, Bool.and_eq_true, decide_eq_true_eq, and_true,
    Bool.false_eq_true, and_false, exists_false, or_false]

theorem feeInChange_iff (hW : Addresses watched) (hpayer : payload.payer ∈ watched) :
    hasBTCFeeRepresentedAsChangeOutput (utxoEvents payload watched) payload.payer
      (toString payload.fee) = true ↔ payload.fee ≠ 0 ∧ payload.FeeInChange watched := by
  have hmoves : (utxoEvents payload watched).filter (fun be =>
      be.activityType = .deposit || be.activityType = .withdrawal) = utxoEvents payload watched := by
    refine List.filter_eq_self.mpr fun be hbe => ?_
    rcases mem_utxoEvents_activity hbe with h | h
    · simp [h]
    · simp [h]
  unfold hasBTCFeeRepresentedAsChangeOutput
  simp only [canonicalizeAddressIdentity_btc (hW _ hpayer).2, if_neg (hW _ hpayer).1,
    parseBigInt_toString]
  rw [hmoves]
  have hrec : (utxoEvents payload watched).filterMap receivedOutput = _ :=
    filterMap_receivedOutput hW
  unfold receivedOutput at hrec
  rw [hrec]
  simp only [Bool.and_eq_true, any_spend_iff]
  simp only [Bool.and_eq_true, List.any_map, List.any_eq_true, List.mem_filter,
    decide_eq_true_eq, Function.comp_def, and_assoc]
  rw [BTCEnvelope.FeeInChange]
  have hfee : ((payload.fee.natAbs : Int) ≠ 0) ↔ payload.fee ≠ 0 := by omega
  rw [hfee]
  constructor
  · rintro ⟨hne, hspend, ⟨vout, hvout, hmem, hpos, hother⟩, change, hcha, _, hcpos, hown, heq⟩
    exact ⟨hne, hspend, ⟨vout, hvout, hmem, hother, hpos⟩, change, hcha, hown, hcpos, heq⟩
  · rintro ⟨hne, hspend, ⟨vout, hvout, hmem, hother, hpos⟩, change, hcha, hown, hcpos, heq⟩
    exact ⟨hne, hspend, ⟨vout, hvout, hmem, hpos, hother⟩, change, hcha, hown ▸ hpayer, hcpos,
      hown, heq⟩

def feeEvents (payload : BTCEnvelope) (watched : List String) : List NormalizedBalanceEvent :=
  if payload.payer ∈ watched ∧ payload.fee ≠ 0 ∧ ¬ payload.FeeInChange watched then
    [buildBTCFeeBalanceEvent payload.payer (toString payload.fee)]
  else []

theorem btcBalanceEvents_decodeBTC (hW : Addresses watched) (signature : String) :
    btcBalanceEvents (decodeBTCTransaction payload signature watched).status
      (decodeBTCTransaction payload signature watched).feePayer
      (decodeBTCTransaction payload signature watched).feeAmount
      (decodeBTCTransaction payload signature watched).balanceEvents watched =
    utxoEvents payload watched ++ feeEvents payload watched := by
  have hnone : hasFeeEvent (utxoEvents payload watched) payload.payer = false := by
    rw [Bool.eq_false_iff]
    intro h
    simp only [hasFeeEvent, Bool.and_eq_true, List.any_eq_true, decide_eq_true_eq] at h
    obtain ⟨_, be, hbe, hfee, _⟩ := h
    rcases mem_utxoEvents_activity hbe with h | h
    · rw [h] at hfee
      cases hfee
    · rw [h] at hfee
      cases hfee
  have hsta : isFeeEligibleStatus "SUCCESS" = true := by decide
  have hdue : payload.payer ∈ watched → (shouldEmitBTCFeeEvent "SUCCESS" payload.payer
      (toString payload.fee) (utxoEvents payload watched) = true ↔
        payload.fee ≠ 0 ∧ ¬ payload.FeeInChange watched) := by
    intro hpayer
    have hblank : trimSpace payload.payer ≠ "" := by
      rw [(hW _ hpayer).2]
      exact (hW _ hpayer).1
    have hfee : (payload.fee.natAbs : Int) ≠ 0 ↔ payload.fee ≠ 0 := by omega
    have hcha := feeInChange_iff hW hpayer
    simp only [shouldEmitBTCFeeEvent, shouldEmitSolanaFeeEvent, hsta, Bool.true_and,
      parseBigInt_toString, Bool.and_eq_true, decide_eq_true_eq, Bool.not_eq_true', hblank, hfee,
      ne_eq, not_false_eq_true, true_and]
    rw [Bool.eq_false_iff, ne_eq, hcha]
    exact and_congr_right fun hne => not_congr (and_iff_right hne)
  unfold btcBalanceEvents feeEvents
  simp only [buildRaw_decodeBTC hW, decodeBTC_status, decodeBTC_feePayer, decodeBTC_feeAmount, hnone,
    Bool.not_false, Bool.and_true]
  by_cases hpayer : payload.payer ∈ watched
  · by_cases hemit : payload.fee ≠ 0 ∧ ¬ payload.FeeInChange watched
    · rw [(hdue hpayer).mpr hemit, decide_eq_true hpayer, Bool.and_self, if_pos rfl,
        if_pos ⟨hpayer, hemit⟩]
    · rw [Bool.eq_false_iff.mpr (mt (hdue hpayer).mp hemit), Bool.and_false, if_neg nofun,
        if_neg fun h => hemit h.2, List.append_nil]
  · rw [decide_eq_false hpayer, Bool.false_and, if_neg nofun, if_neg fun h => hpayer h.1,
      List.append_nil]

end Fee

section Path

def pathOf (be : NormalizedBalanceEvent) : String := metaGet (be.chainData.getD []) "event_path"

/-- An event whose path is plain has a text that starts with it. -/
theorem canonicalBTCEvent_eventID (hash : String → String) (chain : Chain) (network : Network)
    (txHash finalityState : String) {be : NormalizedBalanceEvent} (h : PlainPath (pathOf be)) :
    ∃ actor asset, (canonicalBTCEvent hash chain network txHash finalityState be).eventID =
      hash (canonicalEventText chain network txHash (pathOf be) actor asset be.activityType) := by
  have hpath : resolveBTCEventPathFromMetadata (be.chainData.getD [])
      (toInt32 be.outerInstructionIndex) = pathOf be := by
    unfold resolveBTCEventPathFromMetadata
    have htrim : trimSpace (metaGet (be.chainData.getD []) "event_path") = pathOf be := h.trimSpace
    simp only [htrim, if_pos h.1]
  simp only [canonicalBTCEvent, hpath, if_neg h.1, buildCanonicalEventID]
  exact ⟨_, _, rfl⟩

theorem plainPath_utxoPath {kind : String} (hne : kind ≠ "")
    (hkind : ∀ c ∈ kind.toList, isSpace c = false ∧ c ≠ '|') (index : Option Int) :
    PlainPath (utxoPath kind index) := by
  have hchars : (utxoPath kind index).toList =
      kind.toList ++ ':' :: (toString (pathIndex index)).toList := by
    rw [utxoPath, String.append_assoc, String.toList_append]
    exact congrArg _ (toList_sep ':' _)
  constructor
  · intro h
    rw [h] at hchars
    cases hk : kind.toList with
    | nil => exact hne (String.toList_injective hk)
    | cons c l => rw [hk] at hchars; cases hchars
  · intro c hc
    rw [hchars, List.mem_append, List.mem_cons] at hc
    rcases hc with hc | rfl | hc
    · exact hkind c hc
    · decide
    · exact toString_chars _ c hc

theorem utxoPath_injective {kind : String} {i j : Option Int} (h : utxoPath kind i = utxoPath kind j) :
    pathIndex i = pathIndex j := by
  unfold utxoPath at h
  exact toString_injective ((String.append_right_inj _).mp h)

theorem plainPath_vin (index : Option Int) : PlainPath (utxoPath "vin" index) :=
  plainPath_utxoPath (by decide) (forall_mem_of_all (by decide)) index

theorem plainPath_vout (index : Option Int) : PlainPath (utxoPath "vout" index) :=
  plainPath_utxoPath (by decide) (forall_mem_of_all (by decide)) index

theorem utxoPath_vin_ne_vout (i j : Option Int) : utxoPath "vin" i ≠ utxoPath "vout" j := by
  intro h
  have hlist := congrArg (fun s => s.toList.take 2) h
  simp only [utxoPath, String.append_assoc, String.toList_append] at hlist
  exact absurd hlist (by simp)

theorem pathOf_spendEvent (finalityState : String) (vin : BTCVin) :
    pathOf (spendEvent finalityState vin) = utxoPath "vin" vin.index := rfl

theorem pathOf_receiveEvent (finalityState : String) (vout : BTCVout) :
    pathOf (receiveEvent finalityState vout) = utxoPath "vout" vout.index := rfl

theorem plainPath_utxoEvents {be : NormalizedBalanceEvent} (h : be ∈ utxoEvents payload watched) :
    PlainPath (pathOf be) := by
  rcases List.mem_append.mp h with h | h
  · obtain ⟨vin, _, rfl⟩ := List.mem_map.mp h
    rw [pathOf_spendEvent]
    exact plainPath_vin _
  · obtain ⟨vout, _, rfl⟩ := List.mem_map.mp h
    rw [pathOf_receiveEvent]
    exact plainPath_vout _

theorem nodup_pathOf_utxoEvents (hwf : payload.WellFormed) :
    ((utxoEvents payload watched).map pathOf).Nodup := by
  have hside : ∀ {α : Type} (l : List α) (index : α → Option Int) (kind : String),
      (l.map fun x => pathIndex (index x)).Nodup → (l.map fun x => utxoPath kind (index x)).Nodup := by
    intro α l index kind h
    have hpair := List.pairwise_map.mp h
    exact List.pairwise_map.mpr (hpair.imp fun hne heq => hne (utxoPath_injective heq))
  have hspe := hside _ (fun vin : BTCVin => vin.index) "vin"
    ((List.filter_sublist (p := fun vin => vin.owner ∈ watched && 0 < vin.amount)).map _ |>.nodup
      hwf.vin_index)
  have hrec := hside _ (fun vout : BTCVout => vout.index) "vout"
    ((List.filter_sublist (p := fun vout => vout.owner ∈ watched && 0 < vout.amount)).map _ |>.nodup
      hwf.vout_index)
  rw [utxoEvents, List.map_append, List.map_map, List.map_map]
  refine List.nodup_append.mpr ⟨hspe, hrec, ?_⟩
  rintro p hp q hq rfl
  obtain ⟨vin, _, hvin⟩ := List.mem_map.mp hp
  obtain ⟨vout, _, hvout⟩ := List.mem_map.mp hq
  exact utxoPath_vin_ne_vout _ _ (hvin.trans hvout.symm)

end Path

section Sum
variable {hash : String → String} {network : Network} {txHash finalityState : String}
variable {events : List NormalizedBalanceEvent}

def btcEventText (network : Network) (txHash : String) (be : NormalizedBalanceEvent) : String :=
  (canonicalBTCEvent id .btc network txHash "" be).eventID

theorem eventID_eq_hash (be : NormalizedBalanceEvent) :
    (canonicalBTCEvent hash .btc network txHash finalityState be).eventID =
      hash (btcEventText network txHash be) := by
  simp only [btcEventText, canonicalBTCEvent, buildCanonicalEventID, id]

@[simp] theorem canonicalBTCEvent_delta (be : NormalizedBalanceEvent) :
    (canonicalBTCEvent hash .btc network txHash finalityState be).delta = be.delta := by
  simp only [canonicalBTCEvent]

theorem btcEventText_path {be be' : NormalizedBalanceEvent} (hp : PlainPath (pathOf be))
    (hp' : PlainPath (pathOf be')) (h : btcEventText network txHash be =
      btcEventText network txHash be') : pathOf be = pathOf be' := by
  obtain ⟨actor, asset, htext⟩ := canonicalBTCEvent_eventID id .btc network txHash "" hp
  obtain ⟨actor', asset', htext'⟩ := canonicalBTCEvent_eventID id .btc network txHash "" hp'
  have heq := (htext.symm.trans h).trans htext'
  exact canonicalEventText_path heq hp hp'

theorem sumWhere_canonicalBTC (hplain : ∀ be ∈ events, PlainPath (pathOf be))
    (hnodup : (events.map pathOf).Nodup)
    (hhash : CollisionFree hash (events.map (btcEventText network txHash)))
    (hadd : ∀ be ∈ events, trimSpace be.address = be.address) (a : String) :
    sumWhere (fun be => decide (be.address = a)) (fun be => deltaValue be.delta)
      (canonicalizeBTCBalanceEvents hash .btc network txHash finalityState events) =
    sumWhere (fun be => decide (be.address = a)) (fun be => deltaValue be.delta) events := by
  have hpaths : events.Pairwise fun be be' => pathOf be ≠ pathOf be' := List.pairwise_map.mp hnodup
  unfold canonicalizeBTCBalanceEvents
  rw [sumWhere_sorted_keep, sumWhere_map]
  · refine sumWhere_congr fun be hbe => ?_
    rw [canonicalBTCEvent_address, canonicalBTCEvent_delta,
      canonicalizeAddressIdentity_btc (hadd be hbe)]
    exact ⟨rfl, fun _ => rfl⟩
  · refine List.pairwise_map.mpr (hpaths.imp_of_mem fun {be be'} hbe hbe' hne heq => ?_)
    rw [eventID_eq_hash, eventID_eq_hash] at heq
    have htext := hhash _ (List.mem_map_of_mem hbe) _ (List.mem_map_of_mem hbe') heq
    exact absurd (btcEventText_path (hplain be hbe) (hplain be' hbe') htext) hne

theorem utxoEvents_address {be : NormalizedBalanceEvent} (h : be ∈ utxoEvents payload watched) :
    be.address ∈ watched := by
  rcases List.mem_append.mp h with h | h
  · obtain ⟨vin, hvin, rfl⟩ := List.mem_map.mp h
    simp only [List.mem_filter, Bool.and_eq_true, decide_eq_true_eq] at hvin
    exact hvin.2.1
  · obtain ⟨vout, hvout, rfl⟩ := List.mem_map.mp h
    simp only [List.mem_filter, Bool.and_eq_true, decide_eq_true_eq] at hvout
    exact hvout.2.1

@[simp] theorem feeEvent_address (feePayer feeAmount : String) :
    (buildBTCFeeBalanceEvent feePayer feeAmount).address = feePayer := rfl

@[simp] theorem feeEvent_delta (feePayer feeAmount : String) :
    (buildBTCFeeBalanceEvent feePayer feeAmount).delta = canonicalFeeDelta feeAmount := by
  simp only [buildBTCFeeBalanceEvent]

theorem pathOf_fee (feePayer feeAmount : String) :
    pathOf (buildBTCFeeBalanceEvent feePayer feeAmount) = "fee:miner" := rfl

theorem utxoPath_ne_fee {kind : String} (hkind : kind.toList.head? = some 'v') (index : Option Int) :
    utxoPath kind index ≠ "fee:miner" := by
  intro h
  have hhead := congrArg (fun s => s.toList.head?) h
  simp only [utxoPath, String.append_assoc, String.toList_append, List.head?_append, hkind,
    Option.some_or] at hhead
  exact absurd hhead (by decide)

theorem mem_feeEvents {be : NormalizedBalanceEvent} (h : be ∈ feeEvents payload watched) :
    payload.payer ∈ watched ∧ be = buildBTCFeeBalanceEvent payload.payer (toString payload.fee) := by
  unfold feeEvents at h
  split at h
  · rename_i hdue
    exact ⟨hdue.1, List.mem_singleton.mp h⟩
  · cases h

theorem sumWhere_feeEvents {a : String} (ha : a ∈ watched) :
    sumWhere (fun be => decide (be.address = a)) (fun be => deltaValue be.delta)
      (feeEvents payload watched) = -payload.feeCharged watched a := by
  unfold feeEvents BTCEnvelope.feeCharged
  by_cases howner : payload.payer = a
  · subst howner
    by_cases hcha : payload.FeeInChange watched
    · simp [hcha]
    · by_cases hfee : payload.fee = 0
      · simp [hfee]
      · rw [if_pos ⟨ha, hfee, hcha⟩, if_pos ⟨rfl, hcha⟩, sumWhere_cons, feeEvent_address,
          feeEvent_delta, deltaValue_canonicalFeeDelta]
        simp
  · rw [if_neg fun h : a = payload.payer ∧ _ => howner h.1.symm]
    split
    · simp [howner]
    · rfl

theorem nodup_pathOf_events (hwf : payload.WellFormed) :
    ((utxoEvents payload watched ++ feeEvents payload watched).map pathOf).Nodup := by
  rw [List.map_append]
  refine List.nodup_append.mpr ⟨nodup_pathOf_utxoEvents hwf, ?_, ?_⟩
  · unfold feeEvents
    split
    · exact List.nodup_singleton _
    · exact List.nodup_nil
  · rintro p hp q hq rfl
    obtain ⟨fee, hfee, hpath⟩ := List.mem_map.mp hq
    rw [(mem_feeEvents hfee).2, pathOf_fee] at hpath
    subst hpath
    obtain ⟨be, hbe, hpath⟩ := List.mem_map.mp hp
    rcases List.mem_append.mp hbe with h | h
    · obtain ⟨vin, _, rfl⟩ := List.mem_map.mp h
      rw [pathOf_spendEvent] at hpath
      exact utxoPath_ne_fee (by decide) _ hpath
    · obtain ⟨vout, _, rfl⟩ := List.mem_map.mp h
      rw [pathOf_receiveEvent] at hpath
      exact utxoPath_ne_fee (by decide) _ hpath

theorem plainPath_fee : PlainPath "fee:miner" :=
  ⟨by decide, forall_mem_of_all (by decide)⟩

end Sum

/-- The events of a transaction for a watched address sum to what it receives less what it spends
and less the fee that is charged once more. -/
theorem decodeBTC_canonical_sum (hash : String → String) (network : Network)
    (payload : BTCEnvelope) (signature txHash finalityState : String) (watched : List String)
    (hwf : payload.WellFormed) (hW : Addresses watched)
    (hhash : CollisionFree hash ((btcBalanceEvents
      (decodeBTCTransaction payload signature watched).status
      (decodeBTCTransaction payload signature watched).feePayer
      (decodeBTCTransaction payload signature watched).feeAmount
      (decodeBTCTransaction payload signature watched).balanceEvents watched).map
        (btcEventText network txHash)))
    (a : String) (ha : a ∈ watched) :
    sumWhere (fun be => decide (be.address = a)) (fun be => deltaValue be.delta)
      (buildCanonicalBTCBalanceEventsMulti hash .btc network txHash
        (decodeBTCTransaction payload signature watched).status
        (decodeBTCTransaction payload signature watched).feePayer
        (decodeBTCTransaction payload signature watched).feeAmount finalityState
        (decodeBTCTransaction payload signature watched).balanceEvents watched) =
      payload.paidTo a - payload.spentFrom a - payload.feeCharged watched a := by
  rw [btcBalanceEvents_decodeBTC hW signature] at hhash
  unfold buildCanonicalBTCBalanceEventsMulti
  rw [btcBalanceEvents_decodeBTC hW signature, sumWhere_canonicalBTC _ _ hhash, sumWhere_append,
    sumWhere_utxoEvents hwf ha, sumWhere_feeEvents ha]
  · omega
  · intro be hbe
    rcases List.mem_append.mp hbe with h | h
    · exact (hW _ (utxoEvents_address h)).2
    · obtain ⟨hpayer, rfl⟩ := mem_feeEvents h
      rw [feeEvent_address]
      exact (hW _ hpayer).2
  · intro be hbe
    rcases List.mem_append.mp hbe with h | h
    · exact plainPath_utxoEvents h
    · rw [(mem_feeEvents h).2, pathOf_fee]
      exact plainPath_fee
  · exact nodup_pathOf_events hwf

def payment : BTCEnvelope where
  txid := some "f00d"
  confirmations := .number 3
  feeSat := .text "1500"
  feePayer := some "bc1qpayer"
  vin := [{ index := some 0, address := some "bc1qpayer", valueSat := .text "50000" }]
  vout := [{ index := some 0, address := some "bc1qshop", valueSat := .text "30000" },
    { index := some 1, address := some "bc1qpayer", valueSat := .text "18500" }]

theorem payment_wellFormed : payment.WellFormed where
  vin_index := by decide
  vout_index := by decide
  vin_amount := by decide +kernel
  vout_amount := by decide +kernel

theorem payment_addresses : Addresses ["bc1qpayer", "bc1qshop"] := by
  unfold Addresses
  decide +kernel

theorem decodeBTC_canonical_sum_payment :
    sumWhere (fun be => decide (be.address = "bc1qshop")) (fun be => deltaValue be.delta)
      (buildCanonicalBTCBalanceEventsMulti id .btc .mainnet "f00d" "SUCCESS"
        (decodeBTCTransaction payment "f00d" ["bc1qpayer", "bc1qshop"]).feePayer
        (decodeBTCTransaction payment "f00d" ["bc1qpayer", "bc1qshop"]).feeAmount "confirmed"
        (decodeBTCTransaction payment "f00d" ["bc1qpayer", "bc1qshop"]).balanceEvents
        ["bc1qpayer", "bc1qshop"]) = 30000 := by
  have h := decodeBTC_canonical_sum id .mainnet payment "f00d" "f00d" "confirmed"
    ["bc1qpayer", "bc1qshop"] payment_wellFormed payment_addresses (fun _ _ _ _ heq => heq)
    "bc1qshop" (by decide)
  rw [decodeBTC_status] at h
  rw [h]
  decide +kernel

/-- The payer loses the fee twice: 31500 by its outputs and 1500 by the event of the fee. -/
theorem decodeBTC_charges_fee_twice :
    payment.WellFormed ∧ Addresses ["bc1qpayer"] ∧
    sumWhere (fun be => decide (be.address = "bc1qpayer")) (fun be => deltaValue be.delta)
      (buildCanonicalBTCBalanceEventsMulti id .btc .mainnet "f00d" "SUCCESS"
        (decodeBTCTransaction payment "f00d" ["bc1qpayer"]).feePayer
        (decodeBTCTransaction payment "f00d" ["bc1qpayer"]).feeAmount "confirmed"
        (decodeBTCTransaction payment "f00d" ["bc1qpayer"]).balanceEvents ["bc1qpayer"]) = -33000 ∧
    payment.paidTo "bc1qpayer" - payment.spentFrom "bc1qpayer" = -31500 := by
  refine ⟨payment_wellFormed, ?_, ?_, ?_⟩
  · unfold Addresses
    decide +kernel
  · decide +kernel
  · decide +kernel

end Normalizer

end MultichainIndexer
