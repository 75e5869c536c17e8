import Mathlib.Algebra.BigOperators.Group.List.Basic
import Mathlib.Algebra.Group.Int.Defs
import Mathlib.Tactic.Abel

/-!
# Conditional sums over lists

`sumWhere p val l` is the total of `val` over the entries of `l` that satisfy
`p`. A ledger is read through such sums: the balance of an account is the
total of the postings filed under it.
-/

namespace SumWhere

universe u v w
variable {α : Type u} {β : Type v} {G : Type w}

section Monoid
variable [AddCommMonoid G]

def sumWhere (p : α → Bool) (val : α → G) (l : List α) : G :=
  (l.map fun a => if p a then val a else 0).sum

@[simp] theorem sumWhere_nil (p : α → Bool) (val : α → G) : sumWhere p val [] = 0 := rfl

@[simp] theorem sumWhere_cons (p : α → Bool) (val : α → G) (a : α) (l : List α) :
    sumWhere p val (a :: l) = (if p a then val a else 0) + sumWhere p val l := by
  simp [sumWhere]

@[simp] theorem sumWhere_append (p : α → Bool) (val : α → G) (l m : List α) :
    sumWhere p val (l ++ m) = sumWhere p val l + sumWhere p val m := by
  simp [sumWhere]

theorem sumWhere_perm (p : α → Bool) (val : α → G) {l m : List α} (h : l.Perm m) :
    sumWhere p val l = sumWhere p val m :=
  (h.map _).sum_eq

@[simp] theorem sumWhere_map (p : α → Bool) (val : α → G) (f : β → α) (l : List β) :
    sumWhere p val (l.map f) = sumWhere (fun b => p (f b)) (fun b => val (f b)) l := by
  simp [sumWhere, Function.comp_def]

theorem sumWhere_congr {p q : α → Bool} {f g : α → G} {l : List α}
    (h : ∀ a ∈ l, p a = q a ∧ (q a = true → f a = g a)) :
    sumWhere p f l = sumWhere q g l := by
  induction l with
  | nil => rfl
  | cons a l ih =>
    obtain ⟨hp, hv⟩ := h a List.mem_cons_self
    have ht := ih (List.forall_mem_cons.mp h).2
    simp only [sumWhere_cons, hp, ht]
    by_cases hq : q a = true
    · simp [hq, hv hq]
    · simp [hq]

theorem sumWhere_congr_term {p q : α → Bool} {f g : α → G} {l : List α}
    (h : ∀ a ∈ l, (if p a then f a else 0) = (if q a then g a else 0)) :
    sumWhere p f l = sumWhere q g l := by
  unfold sumWhere
  rw [List.map_congr_left h]

theorem sumWhere_eq_zero {p : α → Bool} {val : α → G} {l : List α}
    (h : ∀ a ∈ l, p a = true → val a = 0) : sumWhere p val l = 0 := by
  induction l with
  | nil => rfl
  | cons a l ih =>
    have ht := ih (List.forall_mem_cons.mp h).2
    by_cases hp : p a = true
    · simp [hp, h a List.mem_cons_self hp, ht]
    · simp [hp, ht]

theorem sumWhere_nonneg {p : α → Bool} {val : α → Int} {l : List α}
    (h : ∀ a ∈ l, p a = true → 0 ≤ val a) : 0 ≤ sumWhere p val l := by
  induction l with
  | nil => exact Int.le_refl 0
  | cons a l ih =>
    have hrest := ih (List.forall_mem_cons.mp h).2
    rw [sumWhere_cons]
    split
    · exact Int.add_nonneg (h a List.mem_cons_self (by assumption)) hrest
    · exact Int.add_nonneg (Int.le_refl 0) hrest

theorem sumWhere_filter (p q : α → Bool) (val : α → G) (l : List α) :
    sumWhere p val (l.filter q) = sumWhere (fun a => q a && p a) val l := by
  induction l with
  | nil => rfl
  | cons a l ih =>
    by_cases hq : q a = true
    · simp [hq, ih]
    · simp [hq, ih]

theorem sumWhere_split (p q : α → Bool) (val : α → G) (l : List α) :
    sumWhere p val l = sumWhere p val (l.filter q) + sumWhere p val (l.filter fun a => !q a) := by
  induction l with
  | nil => simp
  | cons a l ih =>
    by_cases hq : q a = true
    · simp [hq, ih, add_assoc]
    · simp [hq, ih, add_left_comm]

theorem sumWhere_flatMap (p : α → Bool) (val : α → G) (f : β → List α) (l : List β) :
    sumWhere p val (l.flatMap f) = (l.map fun b => sumWhere p val (f b)).sum := by
  induction l with
  | nil => rfl
  | cons b l ih => simp [ih]

end Monoid

section Group
variable [AddCommGroup G]

theorem sumWhere_neg (p : α → Bool) (val : α → G) (l : List α) :
    sumWhere p (fun a => -val a) l = -sumWhere p val l := by
  induction l with
  | nil => simp
  | cons a l ih =>
    by_cases hp : p a = true
    · simp [hp, ih, add_comm]
    · simp [hp, ih]

theorem sumWhere_replace {p : α → Bool} {val : α → G} {hit : α → Bool} {f : α → α}
    {l : List α} {r : α} (hr : r ∈ l) (hhit : hit r = true)
    (hone : l.Pairwise fun a b => ¬ (hit a = true ∧ hit b = true)) :
    sumWhere p val (l.map fun a => if hit a then f a else a) =
      sumWhere p val l + ((if p (f r) then val (f r) else 0) - (if p r then val r else 0)) := by
  induction l with
  | nil => simp at hr
  | cons a l ih =>
    obtain ⟨ha, hl⟩ := List.pairwise_cons.mp hone
    rcases List.mem_cons.mp hr with rfl | hm
    · -- the entry is the head, so the tail is left as it stands
      have hrest : (l.map fun a => if hit a then f a else a) = l := by
        have hid : ∀ b ∈ l, (if hit b then f b else b) = b := by
          intro b hb
          have hn : ¬ hit b = true := fun hb' => ha b hb ⟨hhit, hb'⟩
          simp [hn]
        calc (l.map fun a => if hit a then f a else a) = l.map id := List.map_congr_left hid
          _ = l := List.map_id l
      simp only [List.map_cons, hhit, if_true, sumWhere_cons, hrest]
      abel
    · have hn : ¬ hit a = true := fun h => ha r hm ⟨h, hhit⟩
      simp only [List.map_cons, if_neg hn, sumWhere_cons, ih hm hl]
      abel

end Group

theorem sum_eq_zero_of_forall_eq_sum {l : List Int} (h : ∀ d ∈ l, d = l.sum) (hl : 2 ≤ l.length) :
    l.sum = 0 := by
  have hrep : l = List.replicate l.length l.sum := List.eq_replicate_of_mem h
  have hsum : l.sum = (l.length : Int) * l.sum := by
    conv_lhs => rw [hrep, List.sum_replicate]
    simp
  have hzero : ((l.length : Int) - 1) * l.sum = 0 := by
    rw [Int.sub_mul, Int.one_mul]
    omega
  rcases Int.mul_eq_zero.mp hzero with h1 | h0
  · omega
  · exact h0

end SumWhere
