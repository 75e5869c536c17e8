import Mathlib.Data.List.Basic

/-!
# Runs

A run performs actions one after another. `Run step ok s acts s'` says that the
actions `acts` lead from `s` to `s'`, each taken by `step` in a state where `ok`
admits it. What one admitted step preserves, every run preserves; a run is one
for every condition that its own admits.
-/

namespace Runs

universe u v
variable {σ : Type u} {ι : Type v}

inductive Run (step : σ → ι → σ → Prop) (ok : σ → ι → Prop) (s : σ) : List ι → σ → Prop where
  | start : Run step ok s [] s
  | next {acts : List ι} {t t' : σ} {i : ι} :
      Run step ok s acts t → ok t i → step t i t' → Run step ok s (acts ++ [i]) t'

variable {step : σ → ι → σ → Prop} {ok : σ → ι → Prop}

variable {acts : List ι} {s s' : σ}

theorem Run.invariant {P : σ → Prop} (h : Run step ok s acts s') (hs : P s)
    (hstep : ∀ t i t', P t → ok t i → step t i t' → P t') : P s' := by
  induction h with
  | start => exact hs
  | next _ hok hi ih => exact hstep _ _ _ ih hok hi

theorem Run.append {t t' : σ} {more : List ι} (h : Run step ok s acts t)
    (hmore : Run step ok t more t') : Run step ok s (acts ++ more) t' := by
  induction hmore with
  | start => rwa [List.append_nil]
  | next _ hok hi ih =>
    rw [← List.append_assoc]
    exact .next ih hok hi

theorem Run.cons {t t' : σ} {i : ι} (hok : ok s i) (hi : step s i t) (h : Run step ok t acts t') :
    Run step ok s (i :: acts) t' :=
  (Run.next .start hok hi).append h

theorem Run.of_foldlM {f : σ → ι → Option σ} (hok : ∀ s i, ok s i) (h : acts.foldlM f s = some s') :
    Run (fun s i s' => f s i = some s') ok s acts s' := by
  induction acts generalizing s with
  | nil =>
    cases h
    exact .start
  | cons i acts ih =>
    obtain ⟨t, hi, ht⟩ := Option.bind_eq_some_iff.mp h
    exact .cons (hok s i) hi (ih ht)

theorem Run.mono {step' : σ → ι → σ → Prop} {ok' : σ → ι → Prop} (h : Run step ok s acts s')
    (himp : ∀ t i t', ok t i → step t i t' → ok' t i ∧ step' t i t') : Run step' ok' s acts s' := by
  induction h with
  | start => exact .start
  | next _ hok hi ih =>
    obtain ⟨hok', hi'⟩ := himp _ _ _ hok hi
    exact .next ih hok' hi'

theorem Run.imp {ok' : σ → ι → Prop} (h : Run step ok s acts s') (himp : ∀ t i, ok t i → ok' t i) :
    Run step ok' s acts s' :=
  h.mono fun t i _ hok hi => ⟨himp t i hok, hi⟩

end Runs
