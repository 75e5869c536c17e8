import Mathlib.Data.List.Basic

/-!
# The integers of a range

`between lo hi` lists the integers from `lo` to `hi` in their order.
-/

namespace IntRange

variable {lo hi b : Int}

def between (lo hi : Int) : List Int :=
  (List.range (hi - lo + 1).toNat).map fun i : Nat => lo + (i : Int)

theorem between_getElem? {i : Nat} :
    (between lo hi)[i]? = some b ↔ (i : Int) ≤ hi - lo ∧ b = lo + i := by
  rw [between, List.getElem?_map, Option.map_eq_some_iff]
  constructor
  · rintro ⟨j, hj, rfl⟩
    obtain ⟨hlt, rfl⟩ := List.getElem?_eq_some_iff.mp hj
    rw [List.length_range] at hlt
    rw [List.getElem_range]
    omega
  · rintro ⟨hi, rfl⟩
    refine ⟨i, ?_, rfl⟩
    rw [List.getElem?_range (by omega)]

theorem mem_between_zip {α : Type} {a : α} {l : List α} :
    (b, a) ∈ (between lo hi).zip l ↔
      (between lo hi)[(b - lo).toNat]? = some b ∧ l[(b - lo).toNat]? = some a := by
  rw [List.mem_iff_getElem?]
  refine ⟨fun ⟨i, hi⟩ => ?_, fun h => ⟨_, List.getElem?_zip_eq_some.mpr h⟩⟩
  obtain ⟨hb, ha⟩ := List.getElem?_zip_eq_some.mp hi
  have hplace := between_getElem?.mp hb
  obtain rfl : i = (b - lo).toNat := by omega
  exact ⟨hb, ha⟩

end IntRange
