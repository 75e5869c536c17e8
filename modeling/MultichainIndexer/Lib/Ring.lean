import Mathlib.Data.List.DropRight
import Mathlib.Data.List.Induction

/-!
# Rings

A ring keeps the latest values in a fixed number of slots. The next value goes to
the slot after the last one, and from the last slot back to the first. The slots
in use hold the latest values: in order until the ring is full, and turned round
from then on.
-/

namespace Ring

universe u
variable {α : Type u}

structure Buffer (α : Type u) where
  samples : List α
  nextIndex : Nat := 0
  sampleCount : Nat := 0

def Buffer.record (size : Nat) (r : Buffer α) (x : α) : Buffer α where
  samples := r.samples.set r.nextIndex x
  nextIndex := if r.nextIndex + 1 ≥ size then 0 else r.nextIndex + 1
  sampleCount := if r.sampleCount < size then r.sampleCount + 1 else r.sampleCount

/-- The values that a ring with the latest ones in `window` holds after one more. -/
def slide (size : Nat) (window : List α) (x : α) : List α :=
  if window.length < size then window ++ [x] else window.tail ++ [x]

structure Holds (size : Nat) (r : Buffer α) (window : List α) : Prop where
  slots : r.samples.length = size
  next : r.nextIndex < size
  count : r.sampleCount = window.length
  bounded : window.length ≤ size
  filling : window.length < size → r.nextIndex = window.length ∧
    r.samples.take window.length = window
  full : window.length = size →
    r.samples.drop r.nextIndex ++ r.samples.take r.nextIndex = window

variable {size : Nat} {r : Buffer α} {window : List α}

theorem holds_empty (hsize : 0 < size) (x : α) :
    Holds size { samples := List.replicate size x } ([] : List α) where
  slots := List.length_replicate
  next := hsize
  count := rfl
  bounded := Nat.zero_le size
  filling _ := ⟨rfl, rfl⟩
  full h := absurd h hsize.ne

theorem length_slide (h : window.length ≤ size) (hsize : 0 < size) (x : α) :
    (slide size window x).length =
      if window.length < size then window.length + 1 else window.length := by
  unfold slide
  split
  · simp
  · simp only [List.length_append, List.length_tail, List.length_singleton]
    omega

/-- The slot that a full ring writes next holds its oldest value. -/
theorem Holds.oldest (h : Holds size r window) (hfull : window.length = size) :
    r.samples[r.nextIndex]? = window.head? := by
  have hlt : r.nextIndex < r.samples.length := h.slots ▸ h.next
  rw [← h.full hfull, List.head?_append, List.head?_drop, List.getElem?_eq_getElem hlt]
  rfl

theorem Holds.perm (h : Holds size r window) : (r.samples.take r.sampleCount).Perm window := by
  rw [h.count]
  by_cases hlt : window.length < size
  · rw [(h.filling hlt).2]
  · have hfull : window.length = size := Nat.le_antisymm h.bounded (not_lt.mp hlt)
    rw [hfull, List.take_of_length_le h.slots.le, ← h.full hfull]
    have hturn : (r.samples.take r.nextIndex ++ r.samples.drop r.nextIndex).Perm
        (r.samples.drop r.nextIndex ++ r.samples.take r.nextIndex) := List.perm_append_comm
    rwa [List.take_append_drop] at hturn

theorem Holds.split (h : Holds size r window) : ∃ front old back,
    r.samples = front ++ old :: back ∧ front.length = r.nextIndex ∧
      front.length + back.length + 1 = size := by
  have hlt : r.nextIndex < r.samples.length := h.slots ▸ h.next
  have hsplit := List.take_append_drop r.nextIndex r.samples
  rw [List.drop_eq_getElem_cons hlt] at hsplit
  refine ⟨_, _, _, hsplit.symm, List.length_take_of_le hlt.le, ?_⟩
  rw [List.length_take_of_le hlt.le, List.length_drop, h.slots]
  have hnext := h.next
  omega

theorem Holds.record (h : Holds size r window) (x : α) :
    Holds size (r.record size x) (slide size window x) := by
  obtain ⟨front, old, back, hsam, hfront, hsize⟩ := h.split
  have hset : (r.record size x).samples = front ++ x :: back := by
    rw [Buffer.record, hsam, ← hfront, List.set_append_right _ _ le_rfl, Nat.sub_self,
      List.set_cons_zero]
  have hlen := length_slide h.bounded (by omega) x
  have hbou := h.bounded
  have hcount : (r.record size x).sampleCount = (slide size window x).length := by
    rw [hlen, Buffer.record, h.count]
  have hnext : (r.record size x).nextIndex = if back = [] then 0 else front.length + 1 := by
    rw [Buffer.record, ← hfront]
    by_cases hback : back = []
    · rw [if_pos hback, if_pos (by rw [hback] at hsize; simp at hsize; omega)]
    · have hpos := List.length_pos_of_ne_nil hback
      rw [if_neg hback, if_neg (by omega)]
  -- The window after the record, as the slots before and after the one that was written.
  have hwin : slide size window x = if window.length < size then front ++ [x]
      else back ++ (front ++ [x]) := by
    unfold slide
    split
    · rename_i hlt
      obtain ⟨hidx, htake⟩ := h.filling hlt
      rw [hsam, ← hidx, ← hfront, List.take_left] at htake
      rw [htake]
    · rename_i hfull
      have hrot := h.full (Nat.le_antisymm hbou (not_lt.mp hfull))
      rw [hsam, ← hfront, List.drop_left, List.take_left] at hrot
      rw [← hrot]
      simp
  refine ⟨?_, ?_, hcount, ?_, ?_, ?_⟩
  · rw [hset]
    simp
    omega
  · rw [hnext]
    split
    · omega
    · rename_i hback
      have hpos := List.length_pos_of_ne_nil hback
      omega
  · rw [hlen]
    split <;> omega
  · intro hlt
    have hfew : window.length < size := by
      rw [hlen] at hlt
      split at hlt <;> omega
    have hidx := (h.filling hfew).1
    rw [hwin, if_pos hfew, List.length_append, List.length_singleton] at hlt ⊢
    have hback : back ≠ [] := fun hnil => by
      rw [hnil, List.length_nil] at hsize
      omega
    rw [hnext, if_neg hback, hset, List.append_cons,
      List.take_left' (by rw [List.length_append, List.length_singleton])]
    exact ⟨rfl, rfl⟩
  · intro hfull
    rw [hset, hnext, hwin]
    by_cases hback : back = []
    · simp [hback]
    · have hpos := List.length_pos_of_ne_nil hback
      have hmany : ¬ window.length < size := fun hlt => by
        rw [hlen, if_pos hlt] at hfull
        have hidx := (h.filling hlt).1
        omega
      rw [if_neg hback, if_neg hmany, List.append_cons,
        List.drop_left' (by rw [List.length_append, List.length_singleton]),
        List.take_left' (by rw [List.length_append, List.length_singleton])]

theorem slide_rtake (xs : List α) (x : α) (hsize : 0 < size) :
    slide size (xs.rtake size) x = (xs ++ [x]).rtake size := by
  obtain ⟨n, rfl⟩ : ∃ n, size = n + 1 := ⟨size - 1, by omega⟩
  rw [List.rtake_concat_succ]
  unfold slide List.rtake
  split
  · rename_i hlt
    rw [List.length_drop] at hlt
    rw [Nat.sub_eq_zero_of_le (show xs.length ≤ n + 1 by omega),
      Nat.sub_eq_zero_of_le (show xs.length ≤ n by omega)]
  · rename_i hge
    rw [List.length_drop] at hge
    rw [List.tail_drop]
    congr 2
    omega

end Ring
