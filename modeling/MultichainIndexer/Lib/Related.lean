import Mathlib.Data.List.Forall2
import MultichainIndexer.Lib.Result

/-!
# Lists related element by element

What carries over from one list to another when `List.Forall₂ R` relates them,
and the lockstep rule for two loops that may fail, over related lists.
-/

namespace Related

universe u v w
variable {α : Type u} {β : Type v} {R : α → β → Prop} {l : List α} {m : List β}

theorem exists_left (h : List.Forall₂ R l m) : ∀ b ∈ m, ∃ a ∈ l, R a b := by
  induction h with
  | nil => simp
  | @cons a b l m hab _ ih =>
    intro b' hb'
    rcases List.mem_cons.mp hb' with rfl | hb'
    · exact ⟨a, List.mem_cons_self, hab⟩
    · obtain ⟨a', ha', hr⟩ := ih b' hb'
      exact ⟨a', List.mem_cons_of_mem a ha', hr⟩

theorem exists_right (h : List.Forall₂ R l m) : ∀ a ∈ l, ∃ b ∈ m, R a b :=
  exists_left h.flip

theorem and_left {P : α → Prop} (h : List.Forall₂ R l m) (hP : ∀ a ∈ l, P a) :
    List.Forall₂ (fun a b => P a ∧ R a b) l m := by
  induction h with
  | nil => exact .nil
  | @cons a b l m hab _ ih =>
    exact .cons ⟨hP a List.mem_cons_self, hab⟩ (ih (List.forall_mem_cons.mp hP).2)

theorem map_eq {γ : Type w} {f : α → γ} {g : β → γ} (h : List.Forall₂ R l m)
    (hfg : ∀ a b, R a b → f a = g b) : l.map f = m.map g := by
  induction h with
  | nil => rfl
  | cons hab _ ih => rw [List.map_cons, List.map_cons, hfg _ _ hab, ih]

theorem pairwise {P : α → α → Prop} {Q : β → β → Prop} (h : List.Forall₂ R l m)
    (hl : l.Pairwise P) (hPQ : ∀ a a' b b', R a b → R a' b' → P a a' → Q b b') :
    m.Pairwise Q := by
  induction h with
  | nil => exact .nil
  | @cons a b l m hab hlm ih =>
    obtain ⟨ha, hl⟩ := List.pairwise_cons.mp hl
    refine List.pairwise_cons.mpr ⟨fun b' hb' => ?_, ih hl⟩
    obtain ⟨a', ha', hr⟩ := exists_left hlm b' hb'
    exact hPQ a a' b b' hab hr (ha a' ha')

/-- Two loops in lockstep: steps on related elements keep the states related. -/
theorem foldlM_lockstep {ε : Type u} {σ τ : Type w} {f : σ → α → Except ε σ}
    {g : τ → β → Except ε τ} {S : σ → τ → Prop} {s s' : σ} {t t' : τ} (h : List.Forall₂ R l m)
    (hf : l.foldlM f s = .ok s') (hg : m.foldlM g t = .ok t') (hs : S s t)
    (hstep : ∀ a ∈ l, ∀ b ∈ m, R a b → ∀ x x' y y', S x y → f x a = .ok x' → g y b = .ok y' →
      S x' y') : S s' t' := by
  induction h generalizing s t with
  | nil =>
    cases hf
    cases hg
    exact hs
  | @cons a b l m hab _ ih =>
    rw [List.foldlM_cons] at hf hg
    obtain ⟨x, hx, hf⟩ := Result.bind_ok hf
    obtain ⟨y, hy, hg⟩ := Result.bind_ok hg
    exact ih hf hg (hstep a List.mem_cons_self b List.mem_cons_self hab s x t y hs hx hy)
      fun a' ha' b' hb' => hstep a' (List.mem_cons_of_mem a ha') b' (List.mem_cons_of_mem b hb')

end Related
