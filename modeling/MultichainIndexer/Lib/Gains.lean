import MultichainIndexer.Lib.Result

/-!
# Loops that only add

What a loop holds in the end, if each of its steps keeps what is there and adds
what belongs to its element: what it began with, and what belongs to some element.
-/

namespace Gains

universe u v w
variable {σ : Type u} {ι : Type v} {κ : Type w} {adds : ι → κ → Prop}

theorem foldl_holds {holds : σ → κ → Prop} {step : σ → ι → σ} {l : List ι}
    (hstep : ∀ i ∈ l, ∀ s k, holds (step s i) k ↔ holds s k ∨ adds i k) (s : σ) (k : κ) :
    holds (l.foldl step s) k ↔ holds s k ∨ ∃ i ∈ l, adds i k := by
  induction l generalizing s with
  | nil => simp
  | cons i l ih =>
    rw [List.foldl_cons, ih (List.forall_mem_cons.mp hstep).2,
      hstep i List.mem_cons_self, or_assoc, List.exists_mem_cons_iff]

theorem foldlM_holds {ε : Type v} (inv : σ → Prop) (holds : σ → κ → Prop)
    {step : σ → ι → Except ε σ} {l : List ι}
    (hstep : ∀ i ∈ l, ∀ s s', inv s → step s i = .ok s' →
      inv s' ∧ ∀ k, holds s' k ↔ holds s k ∨ adds i k)
    {s s' : σ} (hs : inv s) (h : l.foldlM step s = .ok s') :
    inv s' ∧ ∀ k, holds s' k ↔ holds s k ∨ ∃ i ∈ l, adds i k := by
  induction l generalizing s with
  | nil =>
    cases h
    exact ⟨hs, by simp⟩
  | cons i l ih =>
    obtain ⟨t, ht, h⟩ := Result.bind_ok h
    obtain ⟨hinv, hadds⟩ := hstep i List.mem_cons_self s t hs ht
    obtain ⟨hinv', hrest⟩ := ih (List.forall_mem_cons.mp hstep).2 hinv h
    refine ⟨hinv', fun k => ?_⟩
    rw [hrest, hadds, or_assoc, List.exists_mem_cons_iff]

end Gains
