import MultichainIndexer.Store.BalanceRepo

/-!
# When a bulk adjustment adds up its list

The bulk statement applies one of the items listed for a stored key and inserts
the items of the others. It adds what is listed for every key, whatever row the
database joins, exactly when no key is listed twice, apart from stored keys with
only zero deltas, and every amount fits its column.
-/

namespace MultichainIndexer

open Relational

structure BulkAddable (chain : Chain) (network : Network) (items : List BulkAdjustItem)
    (t : Balances) : Prop where
  repeated : ∀ k, 1 < (listedFor chain network items k).length →
    (KeyedTable.find? t k).isSome = true ∧ ∀ i ∈ listedFor chain network items k, i.delta = 0
  fits : ∀ i ∈ items, FitsNumeric (amountOf t (i.key chain network) + i.delta)

variable {chain : Chain} {network : Network} {items : List BulkAdjustItem} {t : Balances}

namespace BulkAddable

theorem separable (h : BulkAddable chain network items t) (k : BalanceKey) :
    Separable (listedFor chain network items k) := by
  rcases Nat.lt_or_ge 1 (listedFor chain network items k).length with hlt | hge
  · exact .inr (h.repeated k hlt).2
  · exact .inl hge

theorem bulk_ok (h : BulkAddable chain network items t) (c : RowChoice BulkAdjustItem) :
    ∃ t', bulkAdjustBalanceTx chain network c items t = .ok t' := by
  refine bulkAdjust_ok_iff.mpr ⟨List.all_eq_true.mpr fun i hi => ?_, fun k hk => ?_⟩
  · have hsum := h.fits i hi
    split
    · rename_i r hr
      rw [decide_eq_true_eq, applyJoined_amount hr,
        appliedDelta_eq_listedSum (h.separable _), listedSum_eq,
        (h.separable _).sum_eq (mem_listedFor.mpr ⟨hi, rfl⟩)]
      exact hsum
    · rename_i hr
      rw [amountOf_none hr, Int.zero_add] at hsum
      exact decide_eq_true hsum
  · by_contra hlt
    have := (h.repeated k (by omega)).1
    rw [hk] at this
    cases this

end BulkAddable

theorem addable_of_adds
    (h : ∀ c, ∃ t', bulkAdjustBalanceTx chain network c items t = .ok t' ∧
      ∀ k, amountOf t' k = amountOf t k + listedSum chain network items k) :
    BulkAddable chain network items t := by
  obtain ⟨t', ht', _⟩ := h RowChoice.first
  obtain ⟨hfit, hone⟩ := bulkAdjust_ok_iff.mp ⟨t', ht'⟩
  have hsep : ∀ k, (KeyedTable.find? t k).isSome = true →
      Separable (listedFor chain network items k) := by
    intro k hsto
    refine separable_of_adds hsto fun c => ?_
    obtain ⟨u, hu, hku⟩ := h c
    have hadds := hku k
    rw [bulkAdjust_amount hu] at hadds
    omega
  refine ⟨fun k hlt => ?_, fun i hi => ?_⟩
  · cases hf : KeyedTable.find? t k with
    | none =>
      have := hone k hf
      omega
    | some r =>
      refine ⟨rfl, ?_⟩
      rcases hsep k (by rw [hf]; rfl) with hle | hzero
      · omega
      · exact hzero
  · have hw := List.all_eq_true.mp hfit i hi
    split at hw
    · rename_i r hr
      have hk := hsep (i.key chain network) (by rw [hr]; rfl)
      rw [decide_eq_true_eq, applyJoined_amount hr, appliedDelta_eq_listedSum hk, listedSum_eq,
        hk.sum_eq (mem_listedFor.mpr ⟨hi, rfl⟩)] at hw
      exact hw
    · rename_i hr
      rw [amountOf_none hr, Int.zero_add]
      exact of_decide_eq_true hw

theorem bulkAdjust_adds_iff :
    (∀ c, ∃ t', bulkAdjustBalanceTx chain network c items t = .ok t' ∧
      ∀ k, amountOf t' k = amountOf t k + listedSum chain network items k) ↔
      BulkAddable chain network items t := by
  refine ⟨addable_of_adds, fun h c => ?_⟩
  obtain ⟨t', ht'⟩ := h.bulk_ok c
  exact ⟨t', ht', fun k => bulkAdjust_adds ht' (h.separable k)⟩

end MultichainIndexer
