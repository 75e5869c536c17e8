import Mathlib.Data.List.Pairwise

/-!
# Tables with unique constraints

A table is a list of rows that its unique constraints allow to stand together.
The constraints enter as a relation: `clash a b` says that one of them forbids
storing both `a` and `b`, so a primary key and a partial unique index are one
relation. A table that violates a constraint cannot be built; a statement that
would violate one has no result.
-/

namespace Relational

universe u v
variable {α : Type u} {κ : Type v}

structure Table (clash : α → α → Prop) where
  rows : List α
  unique : rows.Pairwise fun a b => ¬ clash a b

namespace Table
variable {clash : α → α → Prop}

def empty : Table clash := ⟨[], .nil⟩

/-- `DELETE … WHERE p`. -/
def deleteWhere (t : Table clash) (p : α → Bool) : Table clash :=
  ⟨t.rows.filter fun a => !p a, t.unique.filter _⟩

/-- `UPDATE … SET`, by a rewriting of rows that brings no two rows into conflict. -/
def update (t : Table clash) (f : α → α) (hf : ∀ a b, clash (f a) (f b) → clash a b) :
    Table clash :=
  ⟨t.rows.map f, List.pairwise_map.mpr (t.unique.imp fun h hc => h (hf _ _ hc))⟩

@[simp] theorem deleteWhere_rows (t : Table clash) (p : α → Bool) :
    (t.deleteWhere p).rows = t.rows.filter fun a => !p a := rfl

@[simp] theorem update_rows (t : Table clash) (f : α → α)
    (hf : ∀ a b, clash (f a) (f b) → clash a b) : (t.update f hf).rows = t.rows.map f := rfl

variable {t t' : Table clash} {l : List α}

theorem ext_rows (h : t.rows = t'.rows) : t = t' := by
  cases t
  cases t'
  cases h
  rfl

theorem update_eq_self {f : α → α} {hf : ∀ a b, clash (f a) (f b) → clash a b}
    (h : ∀ r ∈ t.rows, f r = r) : t.update f hf = t := by
  apply ext_rows
  calc t.rows.map f = t.rows.map id := List.map_congr_left h
    _ = t.rows := List.map_id _

variable [DecidableRel clash]

/-- `INSERT` of one row; a row in conflict with it fails the statement. -/
def insert? (t : Table clash) (a : α) : Option (Table clash) :=
  if h : ∀ r ∈ t.rows, ¬ clash r a then
    some ⟨t.rows ++ [a], List.pairwise_append.mpr
      ⟨t.unique, List.pairwise_singleton _ _, fun r hr b hb => by
        rw [List.mem_singleton.mp hb]
        exact h r hr⟩⟩
  else none

def insertAll? (t : Table clash) : List α → Option (Table clash)
  | [] => some t
  | a :: l => (t.insert? a).bind fun t' => t'.insertAll? l

theorem insert?_rows {a : α} (h : t.insert? a = some t') : t'.rows = t.rows ++ [a] := by
  unfold insert? at h
  split at h
  · cases h
    rfl
  · cases h

theorem insertAll?_rows (h : t.insertAll? l = some t') : t'.rows = t.rows ++ l := by
  induction l generalizing t with
  | nil =>
    cases h
    simp
  | cons a l ih =>
    obtain ⟨s, hs, hl⟩ := Option.bind_eq_some_iff.mp h
    rw [ih hl, insert?_rows hs, ← List.append_cons]

theorem insertAll?_isSome (hold : ∀ r ∈ t.rows, ∀ a ∈ l, ¬ clash r a)
    (hnew : l.Pairwise fun a b => ¬ clash a b) : ∃ t', t.insertAll? l = some t' := by
  induction l generalizing t with
  | nil => exact ⟨t, rfl⟩
  | cons a l ih =>
    obtain ⟨ha, hl⟩ := List.pairwise_cons.mp hnew
    have hins : ∀ r ∈ t.rows, ¬ clash r a := fun r hr => hold r hr a List.mem_cons_self
    have hi : t.insert? a = some ⟨t.rows ++ [a], _⟩ := dif_pos hins
    obtain ⟨t', ht'⟩ := ih (t := ⟨t.rows ++ [a], _⟩) (by
      intro r hr b hb
      rcases List.mem_append.mp hr with hr | hr
      · exact hold r hr b (List.mem_cons_of_mem a hb)
      · rw [List.mem_singleton.mp hr]
        exact ha b hb) hl
    refine ⟨t', ?_⟩
    show (t.insert? a).bind _ = some t'
    rw [hi]
    exact ht'

theorem insertAll?_no_clash (h : t.insertAll? l = some t') :
    (∀ r ∈ t.rows, ∀ a ∈ l, ¬ clash r a) ∧ l.Pairwise fun a b => ¬ clash a b := by
  have hu := t'.unique
  rw [insertAll?_rows h, List.pairwise_append] at hu
  exact ⟨hu.2.2, hu.2.1⟩

end Table

/-- A table whose only unique constraint is a key. -/
abbrev KeyedTable (key : α → κ) := Table fun a b : α => key a = key b

namespace KeyedTable
variable {key : α → κ}

variable {t : KeyedTable key}

theorem eq_of_key_eq {a b : α} (ha : a ∈ t.rows) (hb : b ∈ t.rows) (h : key a = key b) : a = b := by
  by_contra hne
  have hs : Std.Symm fun a b : α => ¬ key a = key b := ⟨fun _ _ h h' => h h'.symm⟩
  exact t.unique.forall ha hb hne h

variable [DecidableEq κ]

def find? (t : KeyedTable key) (k : κ) : Option α := t.rows.find? fun r => decide (key r = k)

theorem find?_eq_some_iff {k : κ} {r : α} : t.find? k = some r ↔ r ∈ t.rows ∧ key r = k := by
  constructor
  · intro h
    exact ⟨List.mem_of_find?_eq_some h, by simpa using List.find?_some h⟩
  · rintro ⟨hr, hk⟩
    cases hf : t.find? k with
    | none =>
      have := List.find?_eq_none.mp hf r hr
      simp [hk] at this
    | some s =>
      have hs := List.mem_of_find?_eq_some hf
      have hsk : key s = k := by simpa using List.find?_some hf
      rw [eq_of_key_eq hs hr (hsk.trans hk.symm)]

theorem find?_eq_none_iff {k : κ} : t.find? k = none ↔ ∀ r ∈ t.rows, key r ≠ k := by
  simp [find?, List.find?_eq_none]

theorem find?_update {f : α → α} (hkey : ∀ a, key (f a) = key a)
    (hf : ∀ a b, key (f a) = key (f b) → key a = key b) (k : κ) :
    KeyedTable.find? (t.update f hf) k = (t.find? k).map f := by
  simp only [find?, Table.update_rows, List.find?_map, Function.comp_def, hkey]

end KeyedTable

end Relational
