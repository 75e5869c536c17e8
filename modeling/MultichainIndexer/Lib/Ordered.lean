import Mathlib.Data.List.Sort

/-!
# Ordered lists

Sorting rows with distinct keys gives a strictly ordered list, up or down. In
an ordered list the first entry that satisfies a condition is the extreme one
among those that do.
-/

namespace Ordered

universe u v
variable {α : Type u} {β : Type v}

theorem distinct_perm {key : α → β} {l m : List α} (h : l.Perm m)
    (hd : m.Pairwise fun a b => key a ≠ key b) : l.Pairwise fun a b => key a ≠ key b :=
  hd.perm h.symm fun hne => hne.symm

variable [LinearOrder β] (key : α → β)

/-- `ORDER BY key`. -/
def ascending (l : List α) : List α := l.insertionSort fun a b => key a ≤ key b

/-- `ORDER BY key DESC`. -/
def descending (l : List α) : List α := l.insertionSort fun a b => key b ≤ key a

variable {key} {l : List α}

theorem ascending_perm : (ascending key l).Perm l := List.perm_insertionSort _ l

theorem descending_perm : (descending key l).Perm l := List.perm_insertionSort _ l

theorem ascending_pairwise (hd : l.Pairwise fun a b => key a ≠ key b) :
    (ascending key l).Pairwise fun a b => key a < key b := by
  have : Std.Total fun a b : α => key a ≤ key b := ⟨fun a b => le_total _ _⟩
  have : IsTrans α fun a b : α => key a ≤ key b := ⟨fun _ _ _ => le_trans⟩
  have hle : (ascending key l).Pairwise fun a b => key a ≤ key b := List.pairwise_insertionSort _ l
  refine (hle.and (distinct_perm ascending_perm hd)).imp ?_
  rintro a b ⟨hab, hne⟩
  exact lt_of_le_of_ne hab hne

theorem descending_pairwise (hd : l.Pairwise fun a b => key a ≠ key b) :
    (descending key l).Pairwise fun a b => key b < key a := by
  have : Std.Total fun a b : α => key b ≤ key a := ⟨fun a b => le_total _ _⟩
  have : IsTrans α fun a b : α => key b ≤ key a := ⟨fun _ _ _ hab hbc => le_trans hbc hab⟩
  have hle : (descending key l).Pairwise fun a b => key b ≤ key a :=
    List.pairwise_insertionSort _ l
  refine (hle.and (distinct_perm descending_perm hd)).imp ?_
  rintro a b ⟨hab, hne⟩
  exact lt_of_le_of_ne hab hne.symm

theorem find?_first {r : α → α → Prop} {p : α → Bool} {a b : α} (hl : l.Pairwise r)
    (hfind : l.find? p = some a) (hb : b ∈ l) (hp : p b = true) : a = b ∨ r a b := by
  induction l with
  | nil => cases hb
  | cons c l ih =>
    obtain ⟨hc, hl⟩ := List.pairwise_cons.mp hl
    rw [List.find?_cons] at hfind
    split at hfind
    · cases hfind
      rcases List.mem_cons.mp hb with rfl | hb
      · exact .inl rfl
      · exact .inr (hc b hb)
    · rename_i hpc
      rcases List.mem_cons.mp hb with rfl | hb
      · rw [hp] at hpc
        cases hpc
      · exact ih hl hfind hb

end Ordered
