import Mathlib.Logic.Function.Basic
import Mathlib.Data.List.Basic

/-!
# Maps written entry by entry

A loop that puts a value under the key of each element. A later element
overwrites an earlier one of its key; a key of no element keeps what it had.
-/

namespace Overwrite

universe u v w
variable {α : Type u} {κ : Type v} {ν : Type w} [DecidableEq κ] (key : α → κ) (val : α → ν)

def writeAll (m : κ → Option ν) (l : List α) : κ → Option ν :=
  l.foldl (fun m a => Function.update m (key a) (some (val a))) m

variable {key val}

theorem writeAll_apply (m : κ → Option ν) (l : List α) (k : κ) :
    writeAll key val m l k = ((l.reverse.find? fun a => key a = k).map val).or (m k) := by
  unfold writeAll
  induction l generalizing m with
  | nil => rfl
  | cons a l ih =>
    rw [List.foldl_cons, ih, List.reverse_cons, List.find?_append]
    cases l.reverse.find? fun a => key a = k with
    | some b => rfl
    | none =>
      by_cases h : key a = k
      · subst h
        simp
      · simp [h, Function.update_of_ne (Ne.symm h)]

theorem writeAll_eq_some {m : κ → Option ν} {l : List α} {k : κ} {x : ν}
    (h : writeAll key val m l k = some x) :
    (∃ a ∈ l, key a = k ∧ val a = x) ∨ (∀ a ∈ l, key a ≠ k) ∧ m k = some x := by
  rw [writeAll_apply] at h
  cases hfind : l.reverse.find? fun a => key a = k with
  | some a =>
    rw [hfind] at h
    have hkey := List.find?_some hfind
    refine .inl ⟨a, List.mem_reverse.mp (List.mem_of_find?_eq_some hfind), ?_, ?_⟩
    · simpa using hkey
    · simpa using h
  | none =>
    rw [hfind] at h
    refine .inr ⟨fun a ha hkey => ?_, by simpa using h⟩
    have := List.find?_eq_none.mp hfind a (List.mem_reverse.mpr ha)
    simp [hkey] at this

theorem writeAll_pairs (m : κ → Option ν) (l : List α) :
    writeAll key val m l = writeAll Prod.fst Prod.snd m (l.map fun a => (key a, val a)) := by
  unfold writeAll
  rw [List.foldl_map]

theorem writeAll_congr {β : Type*} {key' : β → κ} {val' : β → ν} {l : List α} {l' : List β}
    (h : l.map (fun a => (key a, val a)) = l'.map fun b => (key' b, val' b)) (m : κ → Option ν) :
    writeAll key val m l = writeAll key' val' m l' := by
  rw [writeAll_pairs, h, ← writeAll_pairs]

end Overwrite
