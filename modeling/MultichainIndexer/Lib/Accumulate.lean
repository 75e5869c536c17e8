import MultichainIndexer.Lib.SumWhere
import Mathlib.Data.List.Induction
import Mathlib.Order.Bounds.Basic
import Mathlib.Order.MinMax

/-!
# Accumulators by key

A map from keys to accumulators, as the list of its entries. `bump` adds to the
accumulator of a key or starts one. Adding things up by key loses nothing: the
entries whose keys satisfy a condition hold what was added under such keys. What
is gathered under a key depends on the values that came under it; where a value
is the lesser of two, it is the least of them.
-/

namespace Accumulate

open SumWhere

universe u v w
variable {κ : Type u} {β : Type v} {G : Type w} [DecidableEq κ]

def bump (k : κ) (start : β) (add : β → β) : List (κ × β) → List (κ × β)
  | [] => [(k, start)]
  | e :: l => if e.1 = k then (k, add e.2) :: l else e :: bump k start add l

variable {add : β → β} {k k' : κ} {l : List (κ × β)} {start : β} {op : β → β → β} {vals : List β}

theorem mem_keys_bump : k' ∈ (bump k start add l).map Prod.fst ↔ k' = k ∨ k' ∈ l.map Prod.fst := by
  induction l with
  | nil => simp [bump]
  | cons e l ih =>
    unfold bump
    split
    · rename_i he
      simp [he]
    · simp only [List.map_cons, List.mem_cons, ih]
      exact or_left_comm

theorem nodup_keys_bump (h : (l.map Prod.fst).Nodup) :
    ((bump k start add l).map Prod.fst).Nodup := by
  induction l with
  | nil => simp [bump]
  | cons e l ih =>
    obtain ⟨he, hl⟩ := List.nodup_cons.mp h
    unfold bump
    split
    · rename_i hk
      rw [List.map_cons]
      exact List.nodup_cons.mpr ⟨hk ▸ he, hl⟩
    · rename_i hk
      rw [List.map_cons]
      refine List.nodup_cons.mpr ⟨fun hm => ?_, ih hl⟩
      rcases mem_keys_bump.mp hm with h' | h'
      · exact hk h'
      · exact he h'

theorem lookup_cons_eq {e : κ × β} :
    (e :: l).lookup k = if k = e.1 then some e.2 else l.lookup k := by
  rw [List.lookup_cons]
  by_cases h : k = e.1
  · rw [beq_iff_eq.mpr h, if_pos h]
  · rw [beq_eq_false_iff_ne.mpr h, if_neg h]

theorem lookup_bump :
    (bump k start add l).lookup k' =
      if k' = k then some ((l.lookup k).elim start add) else l.lookup k' := by
  induction l with
  | nil => exact lookup_cons_eq
  | cons e l ih =>
    unfold bump
    split
    · rename_i he
      rw [lookup_cons_eq, lookup_cons_eq, lookup_cons_eq, he, if_pos rfl]
      split
      · rfl
      · rfl
    · rename_i he
      rw [lookup_cons_eq, lookup_cons_eq, lookup_cons_eq, ih, if_neg (Ne.symm he)]
      by_cases h : k' = k
      · rw [if_pos h, if_neg (h ▸ Ne.symm he), if_pos h]
      · rw [if_neg h, if_neg h]

theorem lookup_filter_ne :
    (l.filter (·.1 ≠ k)).lookup k' = if k' = k then none else l.lookup k' := by
  induction l with
  | nil => simp
  | cons e l ih =>
    by_cases he : e.1 = k
    · rw [List.filter_cons_of_neg (by simp [he]), ih, lookup_cons_eq, he]
      split
      · rfl
      · rfl
    · rw [List.filter_cons_of_pos (by simp [he]), lookup_cons_eq, lookup_cons_eq, ih]
      by_cases h : k' = k
      · rw [if_pos h, if_pos h, if_neg (h ▸ Ne.symm he)]
      · rw [if_neg h, if_neg h]

theorem lookup_eq_some_iff {v : β} (h : (l.map Prod.fst).Nodup) :
    l.lookup k = some v ↔ (k, v) ∈ l := by
  induction l with
  | nil => simp
  | cons e l ih =>
    obtain ⟨he, hl⟩ := List.nodup_cons.mp h
    rw [lookup_cons_eq, List.mem_cons]
    by_cases hk : k = e.1
    · subst hk
      have hnot : (e.1, v) ∉ l := fun hmem => he (List.mem_map.mpr ⟨(e.1, v), hmem, rfl⟩)
      simp [hnot, Prod.ext_iff, eq_comm]
    · rw [if_neg hk, ih hl, or_iff_right fun heq => hk (congrArg Prod.fst heq)]

def gather (op : β → β → β) (acc : Option β) (v : β) : Option β := some (acc.elim v (op · v))

omit [DecidableEq κ] in
theorem gather_eq_none : vals.foldl (gather op) none = none ↔ vals = [] := by
  induction vals using List.reverseRecOn with
  | nil => simp
  | append_singleton vals v _ => simp [gather]

omit [DecidableEq κ] in
theorem isLeast_gather {γ : Type w} [LinearOrder γ] {m : β → γ}
    (hop : ∀ a b, m (op a b) = min (m a) (m b)) {v : β} (h : vals.foldl (gather op) none = some v) :
    IsLeast {c | ∃ x ∈ vals, m x = c} (m v) := by
  induction vals using List.reverseRecOn generalizing v with
  | nil => cases h
  | append_singleton vals x ih =>
    rw [List.foldl_concat, gather] at h
    cases hacc : vals.foldl (gather op) none with
    | none =>
      rw [hacc] at h
      cases h
      rw [gather_eq_none.mp hacc]
      exact ⟨⟨x, List.mem_singleton_self x, rfl⟩, by rintro c ⟨y, hy, rfl⟩; simp_all⟩
    | some a =>
      rw [hacc] at h
      cases h
      obtain ⟨⟨y, hy, hya⟩, hleast⟩ := ih hacc
      rw [Option.elim_some, hop]
      constructor
      · rcases min_choice (m a) (m x) with hmin | hmin
        · exact ⟨y, List.mem_append_left _ hy, hya.trans hmin.symm⟩
        · exact ⟨x, List.mem_append_right _ (List.mem_singleton_self x), hmin.symm⟩
      · rintro c ⟨z, hz, rfl⟩
        rcases List.mem_append.mp hz with hz | hz
        · exact (min_le_left _ _).trans (hleast ⟨z, hz, rfl⟩)
        · rw [List.mem_singleton.mp hz]
          exact min_le_right _ _

omit [DecidableEq κ] in
/-- The measure of what is gathered does not depend on the order of the values. -/
theorem map_gather_perm {γ : Type w} [LinearOrder γ] {m : β → γ}
    (hop : ∀ a b, m (op a b) = min (m a) (m b)) {vals' : List β} (h : vals.Perm vals') :
    (vals.foldl (gather op) none).map m = (vals'.foldl (gather op) none).map m := by
  cases hv : vals.foldl (gather op) none with
  | none =>
    rw [gather_eq_none] at hv
    subst hv
    rw [← h.nil_eq]
    rfl
  | some a =>
    cases hv' : vals'.foldl (gather op) none with
    | none =>
      rw [gather_eq_none] at hv'
      subst hv'
      rw [h.eq_nil] at hv
      cases hv
    | some b =>
      have hset : {c | ∃ x ∈ vals, m x = c} = {c | ∃ x ∈ vals', m x = c} := by
        simp only [h.mem_iff]
      have hleast := isLeast_gather hop hv
      rw [hset] at hleast
      exact congrArg some (hleast.unique (isLeast_gather hop hv'))

theorem sumWhere_bump [AddCommMonoid G] {val : β → G} {d : G} (hstart : val start = d)
    (hadd : ∀ b, val (add b) = val b + d) (p : κ → Bool) (l : List (κ × β)) :
    sumWhere (fun e => p e.1) (fun e => val e.2) (bump k start add l) =
      sumWhere (fun e => p e.1) (fun e => val e.2) l + if p k then d else 0 := by
  induction l with
  | nil => simp [bump, hstart]
  | cons e l ih =>
    unfold bump
    split
    · rename_i he
      by_cases hp : p k = true
      · simp [he, hp, hadd, add_right_comm]
      · simp [he, hp]
    · rw [sumWhere_cons, sumWhere_cons, ih, add_assoc]

theorem sumWhere_key [AddCommMonoid G] {val : β → G} (hl : (l.map Prod.fst).Nodup) {e : κ × β}
    (he : e ∈ l) (hk : e.1 = k) :
    sumWhere (fun e => decide (e.1 = k)) (fun e => val e.2) l = val e.2 := by
  induction l with
  | nil => cases he
  | cons e' l ih =>
    obtain ⟨hnot, hl⟩ := List.nodup_cons.mp hl
    rw [sumWhere_cons]
    rcases List.mem_cons.mp he with rfl | he
    · have hrest : sumWhere (fun e => decide (e.1 = k)) (fun e => val e.2) l = 0 := by
        apply sumWhere_eq_zero
        intro x hx hxk
        rw [decide_eq_true_eq, ← hk] at hxk
        exact absurd (hxk ▸ List.mem_map_of_mem hx) hnot
      simp [hk, hrest]
    · have hne : e'.1 ≠ k := by
        rintro rfl
        exact hnot (hk ▸ List.mem_map_of_mem he)
      simp [hne, ih hl he]

omit [DecidableEq κ] in
theorem length_filter_le_one (hl : (l.map Prod.fst).Nodup) {p : κ → Bool}
    (hp : ∀ e ∈ l, ∀ e' ∈ l, p e.1 = true → p e'.1 = true → e.1 = e'.1) :
    (l.filter fun e => p e.1).length ≤ 1 := by
  have hsub : ((l.filter fun e => p e.1).map Prod.fst).Nodup :=
    hl.sublist (List.filter_sublist.map Prod.fst)
  have hmem : ∀ e ∈ l.filter fun e => p e.1, e ∈ l ∧ p e.1 = true := fun e he =>
    List.mem_filter.mp he
  generalize (l.filter fun e => p e.1) = m at hsub hmem ⊢
  match m with
  | [] => simp
  | [e] => simp
  | e :: e' :: rest =>
    obtain ⟨he, hpe⟩ := hmem e List.mem_cons_self
    obtain ⟨he', hpe'⟩ := hmem e' (List.mem_cons_of_mem e List.mem_cons_self)
    have hne := (List.nodup_cons.mp hsub).1
    exact absurd (by simp [hp e he e' he' hpe hpe']) hne

end Accumulate
