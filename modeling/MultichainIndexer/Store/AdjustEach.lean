import MultichainIndexer.Store.BulkAdds

/-!
# One bulk adjustment against a list of single ones

Adjusting one by one always adds up what is listed for a key. The bulk
statement agrees with it exactly when no key is listed twice, apart from stored
keys with only zero deltas, and every amount fits its column.
-/

namespace MultichainIndexer

open Relational SumWhere

section Each
variable {chain : Chain} {network : Network} {t t' : Balances}

variable {i : BulkAdjustItem} {items : List BulkAdjustItem}

theorem adjustBalanceTx_ok (h : adjustBalanceTx ⟨i, chain, network⟩ t = .ok t') :
    (FitsNumeric i.delta ∧ FitsNumeric (amountOf t (i.key chain network) + i.delta)) ∧
    ∀ k, KeyedTable.find? t' k =
      if i.key chain network = k then
        some (((KeyedTable.find? t k).map fun r => r.adjust i).getD (i.row chain network))
      else KeyedTable.find? t k := by
  unfold adjustBalanceTx at h
  split at h
  · rename_i hfit
    cases h
    exact ⟨hfit, fun k => upsertFrom_find? BalanceRow.adjust_key
      (BulkAdjustItem.row_key chain network) i t k⟩
  · cases Result.mapError_ok h

theorem adjustBalanceTx_amount (h : adjustBalanceTx ⟨i, chain, network⟩ t = .ok t') (k : BalanceKey) :
    amountOf t' k = amountOf t k + if i.key chain network = k then i.delta else 0 := by
  have hf := (adjustBalanceTx_ok h).2 k
  split
  · rename_i hk
    rw [if_pos hk] at hf
    rw [amountOf_some hf]
    cases hr : KeyedTable.find? t k with
    | some r => simp [amountOf, hr, BalanceRow.adjust]
    | none => simp [amountOf, hr, BulkAdjustItem.row]
  · rename_i hk
    rw [if_neg hk] at hf
    simp [amountOf, hf]

theorem adjustBalanceTx_isSome (h : adjustBalanceTx ⟨i, chain, network⟩ t = .ok t') (k : BalanceKey) :
    (KeyedTable.find? t' k).isSome = true ↔
      (KeyedTable.find? t k).isSome = true ∨ i.key chain network = k := by
  rw [(adjustBalanceTx_ok h).2 k]
  split
  · rename_i hk
    simp [hk]
  · rename_i hk
    simp [hk]

theorem adjustEach_cons (h : adjustEach chain network (i :: items) t = .ok t') :
    ∃ u, adjustBalanceTx ⟨i, chain, network⟩ t = .ok u ∧
      adjustEach chain network items u = .ok t' := by
  unfold adjustEach at h
  exact Result.bind_ok h

theorem adjustEach_amount (h : adjustEach chain network items t = .ok t') (k : BalanceKey) :
    amountOf t' k = amountOf t k + listedSum chain network items k := by
  induction items generalizing t with
  | nil =>
    cases h
    simp [listedSum]
  | cons i items ih =>
    obtain ⟨u, hu, hrest⟩ := adjustEach_cons h
    rw [ih hrest, adjustBalanceTx_amount hu]
    simp only [listedSum, sumWhere_cons, decide_eq_true_eq]
    omega

theorem adjustEach_isSome (h : adjustEach chain network items t = .ok t') (k : BalanceKey) :
    (KeyedTable.find? t' k).isSome = true ↔
      (KeyedTable.find? t k).isSome = true ∨ listedFor chain network items k ≠ [] := by
  induction items generalizing t with
  | nil =>
    cases h
    simp
  | cons i items ih =>
    obtain ⟨u, hu, hrest⟩ := adjustEach_cons h
    rw [ih hrest, adjustBalanceTx_isSome hu, or_assoc, listedFor_cons]
    split
    · rename_i hk
      simp [hk]
    · rename_i hk
      simp [hk]

theorem adjustEach_fits (h : adjustEach chain network items t = .ok t') :
    ∀ i ∈ items, FitsNumeric i.delta := by
  induction items generalizing t with
  | nil => simp
  | cons i items ih =>
    obtain ⟨u, hu, hrest⟩ := adjustEach_cons h
    intro j hj
    rcases List.mem_cons.mp hj with rfl | hj
    · exact (adjustBalanceTx_ok hu).1.1
    · exact ih hrest j hj

end Each

/-- What the bulk statement needs of its list to do what single adjustments do. -/
structure Adjustable (chain : Chain) (network : Network) (items : List BulkAdjustItem)
    (t : Balances) : Prop where
  repeated : ∀ k, 1 < (listedFor chain network items k).length →
    (KeyedTable.find? t k).isSome = true ∧ ∀ i ∈ listedFor chain network items k, i.delta = 0
  fits : ∀ i ∈ items, FitsNumeric i.delta ∧
    FitsNumeric (amountOf t (i.key chain network) + i.delta)

namespace Adjustable
variable {chain : Chain} {network : Network} {items : List BulkAdjustItem} {t : Balances}

theorem addable (h : Adjustable chain network items t) : BulkAddable chain network items t :=
  ⟨h.repeated, fun i hi => (h.fits i hi).2⟩

theorem each_ok (h : Adjustable chain network items t) :
    ∃ t', adjustEach chain network items t = .ok t' := by
  induction items generalizing t with
  | nil => exact ⟨t, rfl⟩
  | cons i items ih =>
    obtain ⟨hdelta, hsum⟩ := h.fits i List.mem_cons_self
    have hi : ∃ u, adjustBalanceTx ⟨i, chain, network⟩ t = .ok u := by
      unfold adjustBalanceTx
      exact ⟨_, if_pos ⟨hdelta, hsum⟩⟩
    obtain ⟨u, hu⟩ := hi
    have hsub : ∀ k, (listedFor chain network items k).Sublist
        (listedFor chain network (i :: items) k) :=
      fun k => (List.sublist_cons_self i items).filter _
    have hu' : Adjustable chain network items u := by
      refine ⟨fun k hk => ?_, fun j hj => ?_⟩
      · obtain ⟨hs, hz⟩ := h.repeated k (Nat.lt_of_lt_of_le hk (hsub k).length_le)
        exact ⟨(adjustBalanceTx_isSome hu k).mpr (.inl hs), fun j hj => hz j ((hsub k).subset hj)⟩
      · obtain ⟨hjd, hjs⟩ := h.fits j (List.mem_cons_of_mem i hj)
        refine ⟨hjd, ?_⟩
        rw [adjustBalanceTx_amount hu]
        split
        · rename_i hk
          -- the key is listed twice, so the first adjustment adds nothing
          have htwo : 1 < (listedFor chain network (i :: items) (j.key chain network)).length := by
            have hpos : 0 < (listedFor chain network items (j.key chain network)).length :=
              List.length_pos_of_mem (mem_listedFor.mpr ⟨hj, rfl⟩)
            rw [listedFor_cons, if_pos hk, List.length_cons]
            omega
          have hzero : i.delta = 0 :=
            (h.repeated _ htwo).2 i (mem_listedFor.mpr ⟨List.mem_cons_self, hk⟩)
          rw [hzero, Int.add_zero]
          exact hjs
        · rw [Int.add_zero]
          exact hjs
    obtain ⟨t', ht'⟩ := ih hu'
    refine ⟨t', ?_⟩
    unfold adjustEach at ht' ⊢
    rw [List.foldlM_cons, hu]
    exact ht'

end Adjustable

section Compare
variable (chain : Chain) (network : Network) (items : List BulkAdjustItem) (t : Balances)

def amount? (t : Balances) (k : BalanceKey) : Option Int :=
  (KeyedTable.find? t k).map BalanceRow.amount

theorem amount?_eq {t u : Balances} {k : BalanceKey} (ha : amountOf t k = amountOf u k)
    (hs : (KeyedTable.find? t k).isSome = true ↔ (KeyedTable.find? u k).isSome = true) :
    amount? t k = amount? u k := by
  unfold amount?
  cases ht : KeyedTable.find? t k with
  | none =>
    cases hu : KeyedTable.find? u k with
    | none => rfl
    | some r => simp [ht, hu] at hs
  | some r =>
    cases hu : KeyedTable.find? u k with
    | none => simp [ht, hu] at hs
    | some s =>
      rw [amountOf_some ht, amountOf_some hu] at ha
      simp [ha]

/-- The bulk statement and the single adjustments both succeed, store the same amounts and
change every amount by what is listed for it. -/
def BulkEqualsEach (c : RowChoice BulkAdjustItem) : Prop :=
  ∃ t' s', bulkAdjustBalanceTx chain network c items t = .ok t' ∧
    adjustEach chain network items t = .ok s' ∧
    ∀ k, amount? t' k = amount? s' k ∧
      amountOf t' k = amountOf t k + listedSum chain network items k

variable {chain network items t}

theorem bulkEqualsEach_of_adjustable (h : Adjustable chain network items t)
    (c : RowChoice BulkAdjustItem) : BulkEqualsEach chain network items t c := by
  obtain ⟨t', ht', hadds⟩ := bulkAdjust_adds_iff.mpr h.addable c
  obtain ⟨s', hs'⟩ := h.each_ok
  refine ⟨t', s', ht', hs', fun k => ?_⟩
  refine ⟨amount?_eq ((hadds k).trans (adjustEach_amount hs' k).symm) ?_, hadds k⟩
  rw [bulkAdjust_isSome ht', adjustEach_isSome hs']

theorem adjustable_of_bulkEqualsEach (h : ∀ c, BulkEqualsEach chain network items t c) :
    Adjustable chain network items t := by
  have hadd : BulkAddable chain network items t := by
    refine bulkAdjust_adds_iff.mp fun c => ?_
    obtain ⟨t', _, ht', _, hk⟩ := h c
    exact ⟨t', ht', fun k => (hk k).2⟩
  obtain ⟨_, s', _, hs', _⟩ := h RowChoice.first
  exact ⟨hadd.repeated, fun i hi => ⟨adjustEach_fits hs' i hi, hadd.fits i hi⟩⟩

/-- The bulk statement does what the single adjustments do, whatever row the database joins,
exactly on adjustable lists. -/
theorem bulkAdjustBalanceTx_eq_adjustEach_iff (chain : Chain) (network : Network)
    (items : List BulkAdjustItem) (t : Balances) :
    (∀ c, BulkEqualsEach chain network items t c) ↔ Adjustable chain network items t :=
  ⟨adjustable_of_bulkEqualsEach, bulkEqualsEach_of_adjustable⟩

/-- Two deposits to one stored balance: the statement applies the first and drops the second. -/
theorem bulkAdjustBalanceTx_drops_second :
    let k : BalanceKey := ⟨.ethereum, .mainnet, "0xa", 1, ""⟩
    let t : Balances := ⟨[{ key := k, amount := 10 }], List.pairwise_singleton _ _⟩
    let items : List BulkAdjustItem :=
      [{ address := "0xa", tokenID := 1, delta := 5, balanceType := "" },
       { address := "0xa", tokenID := 1, delta := 7, balanceType := "" }]
    ((bulkAdjustBalanceTx .ethereum .mainnet RowChoice.first items t).toOption.map
        fun t' => amountOf t' k) = some 15 ∧
      ((adjustEach .ethereum .mainnet items t).toOption.map fun t' => amountOf t' k) = some 22 ∧
      ¬ BulkEqualsEach .ethereum .mainnet items t RowChoice.first := by
  intro k t items
  have hbulk : ((bulkAdjustBalanceTx .ethereum .mainnet RowChoice.first items t).toOption.map
      fun t' => amountOf t' k) = some 15 := by decide
  refine ⟨hbulk, by decide, ?_⟩
  rintro ⟨t', s', ht', _, hk⟩
  rw [ht'] at hbulk
  have hamo : amountOf t' k = 15 := Option.some.inj hbulk
  have hsum := (hk k).2
  rw [hamo] at hsum
  revert hsum
  decide

end Compare

end MultichainIndexer
