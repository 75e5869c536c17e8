import MultichainIndexer.Normalizer.EventText
import MultichainIndexer.Normalizer.Evm

/-!
# Sums over the canonical events of the EVM chains

What a sum over the canonical events needs of the events before: that two of
them with the same text under their id count for nothing. The text tells their
path, where it is plain, and always their activity.
-/

namespace MultichainIndexer

open Text BestOf SumWhere

namespace Normalizer

section Fields
variable {hash : String → String} {chain : Chain} {network : Network} {txHash finalityState : String}
variable {be : NormalizedBalanceEvent}

@[simp] theorem canonicalBaseEvent_activityType :
    (canonicalBaseEvent hash chain network txHash finalityState be).activityType =
      be.activityType := by
  simp only [canonicalBaseEvent]

@[simp] theorem canonicalBaseEvent_chainData :
    (canonicalBaseEvent hash chain network txHash finalityState be).chainData = be.chainData := by
  simp only [canonicalBaseEvent]

def isFeeActivity (activityType : ActivityType) : Bool :=
  isBaseFeeActivity activityType || activityType = .fee

theorem canonicalBaseEvent_delta_fee (h : isFeeActivity be.activityType = true) :
    (canonicalBaseEvent hash chain network txHash finalityState be).delta =
      canonicalFeeDelta be.delta := by
  unfold isFeeActivity at h
  simp only [canonicalBaseEvent, h, if_true]

theorem canonicalBaseEvent_delta_other (h : isFeeActivity be.activityType = false) :
    (canonicalBaseEvent hash chain network txHash finalityState be).delta = be.delta := by
  unfold isFeeActivity at h
  simp only [canonicalBaseEvent, h, Bool.false_eq_true, if_false]

def evmEventText (chain : Chain) (network : Network) (txHash : String)
    (be : NormalizedBalanceEvent) : String :=
  (canonicalBaseEvent id chain network txHash "" be).eventID

theorem canonicalBaseEvent_eventID :
    (canonicalBaseEvent hash chain network txHash finalityState be).eventID =
      hash (evmEventText chain network txHash be) := by
  simp only [evmEventText, canonicalBaseEvent, buildCanonicalEventID, id]

end Fields

section Text
variable {chain : Chain} {network : Network} {txHash : String} {be be' : NormalizedBalanceEvent}

theorem exists_evmEventText (chain : Chain) (network : Network) (txHash : String)
    (be : NormalizedBalanceEvent) : ∃ path actor asset,
    evmEventText chain network txHash be =
      canonicalEventText chain network txHash path actor asset be.activityType := by
  simp only [evmEventText, canonicalBaseEvent, buildCanonicalEventID, id]
  exact ⟨_, _, _, rfl⟩

theorem evmEventText_activity
    (h : evmEventText chain network txHash be = evmEventText chain network txHash be') :
    be.activityType = be'.activityType := by
  obtain ⟨path, actor, asset, htext⟩ := exists_evmEventText chain network txHash be
  obtain ⟨path', actor', asset', htext'⟩ := exists_evmEventText chain network txHash be'
  rw [htext, htext'] at h
  exact canonicalEventText_activity h

end Text

section Sum
variable {hash : String → String} {chain : Chain} {network : Network} {txHash : String}
variable {events : List NormalizedBalanceEvent}
variable (p : NormalizedBalanceEvent → Bool) (val : NormalizedBalanceEvent → Int)

theorem sumWhere_canonicalBase (finalityState : String)
    (hhash : CollisionFree hash (events.map (evmEventText chain network txHash)))
    (h : ∀ finalityState, events.Pairwise fun a b =>
      evmEventText chain network txHash a = evmEventText chain network txHash b →
        (p (canonicalBaseEvent hash chain network txHash finalityState a) = true →
          val (canonicalBaseEvent hash chain network txHash finalityState a) = 0) ∧
        (p (canonicalBaseEvent hash chain network txHash finalityState b) = true →
          val (canonicalBaseEvent hash chain network txHash finalityState b) = 0)) :
    ∃ finality, sumWhere p val
        (canonicalizeBaseBalanceEvents hash chain network txHash finalityState events) =
      sumWhere (fun be => p (canonicalBaseEvent hash chain network txHash finality be))
        (fun be => val (canonicalBaseEvent hash chain network txHash finality be)) events := by
  refine ⟨normalizeFinalityStateOrDefault chain finalityState, ?_⟩
  unfold canonicalizeBaseBalanceEvents
  rw [sumWhere_sorted_keep, sumWhere_map]
  apply List.pairwise_map.mpr
  refine (h _).imp_of_mem fun {a b} ha hb hzero heq => hzero ?_
  rw [canonicalBaseEvent_eventID, canonicalBaseEvent_eventID] at heq
  exact hhash _ (List.mem_map_of_mem ha) _ (List.mem_map_of_mem hb) heq

end Sum

end Normalizer

end MultichainIndexer
