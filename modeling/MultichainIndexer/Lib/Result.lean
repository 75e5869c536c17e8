import Mathlib.Data.List.Basic

/-!
# Computations that may fail

What the intermediate results of a successful computation in `Except` are, the
invariant rule for a loop that stops at the first error, and that it can be
decided what a computation on given values comes to.
-/

namespace Result

universe u v w
variable {ε : Type u} {ε' : Type v} {α : Type w} {β : Type w}

theorem bind_ok {x : Except ε α} {f : α → Except ε β} {r : β} (h : x >>= f = .ok r) :
    ∃ a, x = .ok a ∧ f a = .ok r := by
  cases x with
  | error e => cases h
  | ok a => exact ⟨a, rfl, h⟩

theorem mapError_ok {x : Except ε α} {g : ε → ε'} {r : α} (h : x.mapError g = .ok r) :
    x = .ok r := by
  cases x with
  | error e => cases h
  | ok a => exact congrArg _ (Except.ok.inj h)

theorem map_ok {x : Except ε α} {f : α → β} {r : β} (h : x.map f = .ok r) :
    ∃ a, x = .ok a ∧ f a = r := by
  cases x with
  | error e => cases h
  | ok a => exact ⟨a, rfl, Except.ok.inj h⟩

theorem guard_ok {p : Prop} [Decidable p] {e : ε} {x : Except ε α} {r : α}
    (h : (if p then .error e else x) = .ok r) : ¬ p ∧ x = .ok r := by
  split at h
  · cases h
  · exact ⟨by assumption, h⟩

theorem mapM_ok_iff {α : Type v} {β : Type w} {f : α → Except ε β} {l : List α} :
    (∃ ys, l.mapM f = .ok ys) ↔ ∀ x ∈ l, ∃ y, f x = .ok y := by
  induction l with
  | nil => exact ⟨fun _ => by simp, fun _ => ⟨[], rfl⟩⟩
  | cons x l ih =>
    rw [List.forall_mem_cons, ← ih, List.mapM_cons]
    constructor
    · rintro ⟨ys, h⟩
      obtain ⟨y, hy, h⟩ := bind_ok h
      obtain ⟨zs, hzs, _⟩ := bind_ok h
      exact ⟨⟨y, hy⟩, ⟨zs, hzs⟩⟩
    · rintro ⟨⟨y, hy⟩, ⟨zs, hzs⟩⟩
      refine ⟨y :: zs, ?_⟩
      rw [hy, hzs]
      rfl

theorem mapM_eq_map {α : Type v} {β : Type w} {f : α → Except ε β} {g : α → β} {l : List α}
    {ys : List β} (hfg : ∀ x ∈ l, ∀ y, f x = .ok y → y = g x) (h : l.mapM f = .ok ys) :
    ys = l.map g := by
  induction l generalizing ys with
  | nil =>
    cases h
    rfl
  | cons x l ih =>
    rw [List.mapM_cons] at h
    obtain ⟨y, hy, hl⟩ := bind_ok h
    obtain ⟨zs, hzs, heq⟩ := bind_ok hl
    cases heq
    rw [List.map_cons, hfg x List.mem_cons_self y hy,
      ih (List.forall_mem_cons.mp hfg).2 hzs]

theorem foldlM_ok_iff {σ : Type w} {ι : Type v} {step : σ → ι → Except ε σ} {P : ι → Prop}
    {l : List ι} (h : ∀ i ∈ l, ∀ s, (∃ s', step s i = .ok s') ↔ P i) (s : σ) :
    (∃ s', l.foldlM step s = .ok s') ↔ ∀ i ∈ l, P i := by
  induction l generalizing s with
  | nil => exact ⟨fun _ => by simp, fun _ => ⟨s, rfl⟩⟩
  | cons i l ih =>
    have hrest := ih (List.forall_mem_cons.mp h).2
    rw [List.forall_mem_cons, ← h i List.mem_cons_self s, List.foldlM_cons]
    constructor
    · rintro ⟨s', hs'⟩
      obtain ⟨t, ht, hl⟩ := bind_ok hs'
      exact ⟨⟨t, ht⟩, (hrest t).mp ⟨s', hl⟩⟩
    · rintro ⟨⟨t, ht⟩, hl⟩
      rw [ht]
      exact (hrest t).mpr hl

instance decidableExistsOk (x : Except ε α) (p : α → Prop) [DecidablePred p] :
    Decidable (∃ a, x = .ok a ∧ p a) :=
  match x with
  | .ok a => decidable_of_iff (p a) ⟨fun h => ⟨a, rfl, h⟩, fun ⟨_, hb, h⟩ => Except.ok.inj hb ▸ h⟩
  | .error _ => isFalse fun ⟨_, h, _⟩ => nomatch h

instance decidableExistsSome (x : Option α) (p : α → Prop) [DecidablePred p] :
    Decidable (∃ a, x = some a ∧ p a) :=
  match x with
  | some a => decidable_of_iff (p a) ⟨fun h => ⟨a, rfl, h⟩, fun ⟨_, hb, h⟩ => Option.some.inj hb ▸ h⟩
  | none => isFalse fun ⟨_, h, _⟩ => nomatch h

theorem toOption_bind {ε : Type u} {α β : Type v} (x : Except ε α) (f : α → Except ε β) :
    (x >>= f).toOption = x.toOption.bind fun a => (f a).toOption := by
  cases x with
  | error e => rfl
  | ok a => rfl

theorem toOption_map {ε α β : Type} (x : Except ε α) (f : α → β) :
    (x.map f).toOption = x.toOption.map f := by
  cases x with
  | error e => rfl
  | ok a => rfl

theorem toOption_foldlM {ε : Type u} {σ : Type v} {ι : Type w} (step : σ → ι → Except ε σ)
    (l : List ι) (s : σ) :
    (l.foldlM step s).toOption = l.foldlM (fun s i => (step s i).toOption) s := by
  induction l generalizing s with
  | nil => rfl
  | cons i l ih =>
    rw [List.foldlM_cons, List.foldlM_cons, toOption_bind]
    cases step s i with
    | error e => rfl
    | ok t => exact ih t

end Result
