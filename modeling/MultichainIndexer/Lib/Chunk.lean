import Mathlib.Data.List.Basic

/-!
# Chunks of a list

`chunks n l` cuts a list into pieces of length `n`; the last may be shorter.
-/

namespace Chunk

universe u
variable {α : Type u}

def chunksFrom (n : Nat) : Nat → List α → List (List α)
  | 0, _ => []
  | fuel + 1, l => if l.isEmpty then [] else l.take n :: chunksFrom n fuel (l.drop n)

def chunks (n : Nat) (l : List α) : List (List α) := chunksFrom n l.length l

theorem chunksFrom_flatten {n : Nat} (hn : 0 < n) (fuel : Nat) (l : List α)
    (hfuel : l.length ≤ fuel) : (chunksFrom n fuel l).flatten = l := by
  induction fuel generalizing l with
  | zero =>
    have hnil := List.length_eq_zero_iff.mp (Nat.le_zero.mp hfuel)
    rw [hnil]
    rfl
  | succ fuel ih =>
    unfold chunksFrom
    split
    · rename_i he
      rw [List.isEmpty_iff.mp he]
      rfl
    · rename_i hne
      have hpos : 0 < l.length := by
        rcases l with _ | ⟨a, l⟩
        · simp at hne
        · simp
      rw [List.flatten_cons, ih (l.drop n) (by rw [List.length_drop]; omega),
        List.take_append_drop]

theorem chunksFrom_take {n : Nat} (hn : 0 < n) (fuel : Nat) (l : List α) (hfuel : l.length ≤ fuel)
    (k : Nat) : ((chunksFrom n fuel l).take k).flatten = l.take (k * n) := by
  induction fuel generalizing l k with
  | zero =>
    rw [List.length_eq_zero_iff.mp (Nat.le_zero.mp hfuel)]
    simp [chunksFrom]
  | succ fuel ih =>
    unfold chunksFrom
    split
    · rename_i he
      rw [List.isEmpty_iff.mp he]
      simp
    · cases k with
      | zero => simp
      | succ k =>
        have hlen : (l.drop n).length ≤ fuel := by
          rw [List.length_drop]
          omega
        rw [List.take_succ_cons, List.flatten_cons, ih (l.drop n) hlen, Nat.succ_mul, Nat.add_comm,
          List.take_add]

theorem chunks_flatten {n : Nat} (hn : 0 < n) (l : List α) : (chunks n l).flatten = l :=
  chunksFrom_flatten hn l.length l (Nat.le_refl _)

theorem chunks_take {n : Nat} (hn : 0 < n) (l : List α) (k : Nat) :
    ((chunks n l).take k).flatten = l.take (k * n) :=
  chunksFrom_take hn l.length l (Nat.le_refl _) k

theorem chunks_drop {n : Nat} (hn : 0 < n) (l : List α) (k : Nat) :
    ((chunks n l).drop k).flatten = l.drop (k * n) := by
  have hsplit : ((chunks n l).take k).flatten ++ ((chunks n l).drop k).flatten = l := by
    rw [← List.flatten_append, List.take_append_drop, chunks_flatten hn]
  refine (List.append_right_inj (l.take (k * n))).mp ?_
  rw [← chunks_take hn, hsplit, chunks_take hn, List.take_append_drop]

end Chunk
