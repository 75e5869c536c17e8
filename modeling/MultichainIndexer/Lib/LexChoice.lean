import MultichainIndexer.Lib.BestOf
import Mathlib.Data.Int.Order.Basic
import Mathlib.Data.String.Basic

/-!
# Rules that compare one field after the other

A rule of replacement looks at a field of two entries, and where they agree on it
at the next. If each field is compared by a strict total order, the rule does not
go round in circles, and entries that do not replace each other agree on every
field.
-/

namespace BestOf

universe u v

/-- The laws of a strict total order, for a test. -/
structure StrictTotal {β : Type v} (lt : β → β → Bool) : Prop where
  total : ∀ x y, x ≠ y → lt x y = !lt y x
  trans : ∀ x y z, lt x y = true → lt y z = true → lt x z = true

theorem strictTotal_lt {β : Type v} [LinearOrder β] [DecidableLT β] :
    StrictTotal fun x y : β => decide (x < y) := by
  refine ⟨fun x y hne => ?_, fun x y z hxy hyz => ?_⟩
  · rcases lt_or_gt_of_ne hne with hlt | hgt
    · simp [hlt, hlt.le]
    · simp [hgt, hgt.le]
  · exact decide_eq_true ((of_decide_eq_true hxy).trans (of_decide_eq_true hyz))

theorem StrictTotal.flip {β : Type v} {lt : β → β → Bool} (h : StrictTotal lt) :
    StrictTotal fun x y => lt y x :=
  ⟨fun x y hne => h.total y x hne.symm, fun x y z hxy hyz => h.trans z y x hyz hxy⟩

theorem strictTotal_set : StrictTotal fun x _ : Bool => x := by
  refine ⟨fun x y hne => ?_, fun x y z hxy _ => hxy⟩
  cases x
  · cases y
    · exact absurd rfl hne
    · rfl
  · cases y
    · rfl
    · exact absurd rfl hne

/-- Nothing comes before a number. -/
def numberLess : Option Int → Option Int → Bool
  | none, some _ => true
  | some x, some y => x < y
  | _, none => false

theorem strictTotal_number : StrictTotal numberLess := by
  refine ⟨fun x y hne => ?_, fun x y z hxy hyz => ?_⟩
  · cases x with
    | none =>
      cases y with
      | none => exact absurd rfl hne
      | some y => rfl
    | some x =>
      cases y with
      | none => rfl
      | some y => exact strictTotal_lt.total x y fun h => hne (congrArg some h)
  · cases z with
    | none => cases y <;> cases hyz
    | some z =>
      cases x with
      | none => rfl
      | some x =>
        cases y with
        | none => cases hxy
        | some y => exact strictTotal_lt.trans x y z hxy hyz

variable {α : Type u} {β : Type v} [DecidableEq β]

/-- Of two entries that differ in a field the lower one stays; else the rest of the rule decides. -/
def lexReplaces (f : α → β) (lt : β → β → Bool) (rest : α → α → Bool) (existing incoming : α) :
    Bool :=
  if f existing ≠ f incoming then lt (f incoming) (f existing) else rest existing incoming

def neverReplaces (_ _ : α) : Bool := false

section Lex
variable {f : α → β} {lt : β → β → Bool} {rest : α → α → Bool} {P : α → Prop} {a b : α}

theorem lexReplaces_of_eq (h : f a = f b) : lexReplaces f lt rest a b = rest a b :=
  if_neg fun hne => hne h

theorem lexReplaces_of_ne (h : f a ≠ f b) : lexReplaces f lt rest a b = lt (f b) (f a) :=
  if_pos h

theorem consistent_never : Consistent (neverReplaces : α → α → Bool) P :=
  ⟨fun _ _ => rfl, fun _ _ _ _ _ _ _ _ => rfl⟩

theorem Consistent.congr {replaces replaces' : α → α → Bool} (h : Consistent replaces' P)
    (heq : ∀ a b, P a → P b → replaces a b = replaces' a b) : Consistent replaces P := by
  refine ⟨fun a ha => ?_, fun a b c ha hb hc hbc hba => ?_⟩
  · rw [heq a a ha ha]
    exact h.irrefl a ha
  · rw [heq b c hb hc] at hbc
    rw [heq b a hb ha] at hba
    rw [heq c a hc ha]
    exact h.step a b c ha hb hc hbc hba

theorem Consistent.lex (hlt : StrictTotal lt) (h : ∀ x, Consistent rest fun a => P a ∧ f a = x) :
    Consistent (lexReplaces f lt rest) P := by
  refine ⟨fun a ha => ?_, fun a b c ha hb hc hbc hba => ?_⟩
  · rw [lexReplaces_of_eq rfl]
    exact (h (f a)).irrefl a ⟨ha, rfl⟩
  · by_cases hfbc : f b = f c
    · rw [lexReplaces_of_eq hfbc] at hbc
      by_cases hfba : f b = f a
      · rw [lexReplaces_of_eq hfba] at hba
        rw [lexReplaces_of_eq (hfbc.symm.trans hfba)]
        exact (h (f b)).step a b c ⟨ha, hfba.symm⟩ ⟨hb, rfl⟩ ⟨hc, hfbc.symm⟩ hbc hba
      · rw [lexReplaces_of_ne hfba, hfbc] at hba
        rw [lexReplaces_of_ne fun hca => hfba (hfbc.trans hca)]
        exact hba
    · -- the new entry is below the old one, and the old one not above the third
      rw [lexReplaces_of_ne hfbc] at hbc
      have hbelow : lt (f c) (f a) = true := by
        by_cases hfba : f b = f a
        · rw [← hfba]
          exact hbc
        · rw [lexReplaces_of_ne hfba, hlt.total _ _ fun hab => hfba hab.symm,
            Bool.not_eq_false'] at hba
          exact hlt.trans _ _ _ hbc hba
      have hne : f c ≠ f a := by
        intro hca
        by_cases hfba : f b = f a
        · exact hfbc (hfba.trans hca.symm)
        · rw [lexReplaces_of_ne hfba, ← hca, hbc] at hba
          cases hba
      rw [lexReplaces_of_ne hne, hlt.total _ _ fun hac => hne hac.symm, hbelow]
      rfl

/-- Entries that do not replace each other agree on the field, and the rest decides nothing. -/
theorem lexReplaces_tie (hlt : StrictTotal lt) (hab : lexReplaces f lt rest a b = false)
    (hba : lexReplaces f lt rest b a = false) :
    f a = f b ∧ rest a b = false ∧ rest b a = false := by
  by_cases hf : f a = f b
  · rw [lexReplaces_of_eq hf] at hab
    rw [lexReplaces_of_eq hf.symm] at hba
    exact ⟨hf, hab, hba⟩
  · rw [lexReplaces_of_ne hf, hlt.total _ _ fun h => hf h.symm, Bool.not_eq_false'] at hab
    rw [lexReplaces_of_ne fun h => hf h.symm, hab] at hba
    cases hba

end Lex

end BestOf
