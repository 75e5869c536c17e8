import Mathlib.Data.List.Forall2
import MultichainIndexer.Lib.Table

/-!
# `INSERT … VALUES … ON CONFLICT DO UPDATE … WHERE`

One statement upserts a list of items, in order. The arbiter index is a
partial unique index: `key r = none` for a row that the index leaves out, and
such a row never conflicts. An item that finds a row either updates it or, when
the `WHERE` clause of the update rejects it, leaves it alone. A row that the
statement has already inserted or updated cannot be updated again: that fails
the statement.
-/

namespace Relational

universe u v w x
variable {α : Type u} {β : Type v} {κ : Type w} {ι : Type x}

/-- The constraints of a primary key and a partial unique index. -/
def clashOn (ident : α → ι) (key : α → Option κ) (a b : α) : Prop :=
  ident a = ident b ∨ (key a).isSome = true ∧ key a = key b

instance [DecidableEq ι] [DecidableEq κ] (ident : α → ι) (key : α → Option κ) :
    DecidableRel (clashOn ident key) := fun a b =>
  inferInstanceAs (Decidable (ident a = ident b ∨ (key a).isSome = true ∧ key a = key b))

abbrev IndexedTable (ident : α → ι) (key : α → Option κ) := Table (clashOn ident key)

namespace IndexedTable
variable {ident : α → ι} {key : α → Option κ}

variable {a b : α} {t : IndexedTable ident key} {k : κ}

theorem eq_of_clash (ha : a ∈ t.rows) (hb : b ∈ t.rows) (h : clashOn ident key a b) : a = b := by
  by_contra hne
  have hs : Std.Symm fun a b : α => ¬ clashOn ident key a b := by
    refine ⟨fun a b h hc => h ?_⟩
    rcases hc with hc | ⟨hsome, hc⟩
    · exact .inl hc.symm
    · exact .inr ⟨hc ▸ hsome, hc.symm⟩
  exact t.unique.forall ha hb hne h

theorem eq_of_key_eq (ha : a ∈ t.rows) (hb : b ∈ t.rows) (hak : key a = some k)
    (hbk : key b = some k) : a = b :=
  eq_of_clash ha hb (.inr ⟨by rw [hak]; rfl, hak.trans hbk.symm⟩)

theorem eq_of_ident_eq (ha : a ∈ t.rows) (hb : b ∈ t.rows) (h : ident a = ident b) : a = b :=
  eq_of_clash ha hb (.inl h)

variable [DecidableEq κ]

def findKey (t : IndexedTable ident key) (k : κ) : Option α :=
  t.rows.find? fun r => decide (key r = some k)

theorem findKey_eq_some_iff {r : α} : t.findKey k = some r ↔ r ∈ t.rows ∧ key r = some k := by
  constructor
  · intro h
    exact ⟨List.mem_of_find?_eq_some h, by simpa using List.find?_some h⟩
  · rintro ⟨hr, hk⟩
    cases hf : t.findKey k with
    | none =>
      have := List.find?_eq_none.mp hf r hr
      simp [hk] at this
    | some s =>
      have hs := List.mem_of_find?_eq_some hf
      have hsk : key s = some k := by simpa using List.find?_some hf
      rw [eq_of_key_eq hs hr hsk hk]

theorem findKey_eq_none_iff : t.findKey k = none ↔ ∀ r ∈ t.rows, key r ≠ some k := by
  simp [findKey, List.find?_eq_none]

theorem findKey_update {f : α → α} (hkey : ∀ a, key (f a) = key a)
    (hf : ∀ a b, clashOn ident key (f a) (f b) → clashOn ident key a b) (k : κ) :
    IndexedTable.findKey (t.update f hf) k = (t.findKey k).map f := by
  simp only [findKey, Table.update_rows, List.find?_map, Function.comp_def, hkey]

end IndexedTable

/-- The clauses of an upsert. `fresh` sees the stored rows, from which a new identity is drawn. -/
structure Upsert (ident : α → ι) (key : α → Option κ) (β : Type v) where
  itemKey : β → Option κ
  fresh : List α → β → α
  apply : α → β → α
  admits : α → β → Bool
  key_fresh : ∀ rows i, key (fresh rows i) = itemKey i
  key_apply : ∀ r i, key (apply r i) = key r
  ident_apply : ∀ r i, ident (apply r i) = ident r

namespace Upsert
variable {ident : α → ι} {key : α → Option κ} [DecidableEq κ] (U : Upsert ident key β)

def applyAt (k : κ) (i : β) (r : α) : α := if key r = some k then U.apply r i else r

theorem key_applyAt (k : κ) (i : β) (r : α) : key (U.applyAt k i r) = key r := by
  unfold applyAt
  split
  · exact U.key_apply r i
  · rfl

theorem ident_applyAt (k : κ) (i : β) (r : α) : ident (U.applyAt k i r) = ident r := by
  unfold applyAt
  split
  · exact U.ident_apply r i
  · rfl

/-- The item would conflict with none of the rows. -/
abbrev Free (rows : List α) (i : β) : Prop :=
  ∀ k, U.itemKey i = some k → ∀ r ∈ rows, key r ≠ some k

abbrev Apart (i j : β) : Prop := ∀ k, U.itemKey i = some k → U.itemKey j ≠ some k

/-- What one item leaves of a table. -/
inductive Wrote (t : IndexedTable ident key) (i : β) (t' : IndexedTable ident key) : Prop where
  | inserted (hfree : U.Free t.rows i)
      (hrows : t'.rows = t.rows ++ [U.fresh t.rows i])
  | updated {k : κ} {r : α} (hitem : U.itemKey i = some k) (hr : r ∈ t.rows)
      (hkey : key r = some k) (hadmits : U.admits r i = true)
      (hrows : t'.rows = t.rows.map (U.applyAt k i))
  | rejected {k : κ} {r : α} (hitem : U.itemKey i = some k) (hr : r ∈ t.rows)
      (hkey : key r = some k) (hadmits : U.admits r i = false) (hrows : t'.rows = t.rows)

/-- What a list of items leaves of a table, whatever statements they are split over. -/
def WroteAll (t : IndexedTable ident key) : List β → IndexedTable ident key → Prop
  | [], t' => t'.rows = t.rows
  | i :: l, t' => ∃ u, U.Wrote t i u ∧ WroteAll u l t'

section Wrote
variable {U}

variable {t t' : IndexedTable ident key} {items : List β}

theorem WroteAll.append {u : IndexedTable ident key} {l m : List β} (hl : U.WroteAll t l u)
    (hm : U.WroteAll u m t') : U.WroteAll t (l ++ m) t' := by
  induction l generalizing t with
  | nil =>
    have : u = t := Table.ext_rows hl
    subst this
    exact hm
  | cons i l ih =>
    obtain ⟨v, hv, hrest⟩ := hl
    exact ⟨v, hv, ih hrest⟩

theorem WroteAll.invariant {P : IndexedTable ident key → Prop} (h : U.WroteAll t items t')
    (ht : P t) (hstep : ∀ i ∈ items, ∀ u u', P u → U.Wrote u i u' → P u') : P t' := by
  induction items generalizing t with
  | nil =>
    have : t' = t := Table.ext_rows h
    subst this
    exact ht
  | cons i l ih =>
    obtain ⟨u, hu, hl⟩ := h
    exact ih hl (hstep i List.mem_cons_self t u ht hu)
      (List.forall_mem_cons.mp hstep).2

/-- A property of rows that fresh rows have and updates keep. -/
theorem WroteAll.forall_rows {Q : α → Prop} (h : U.WroteAll t items t') (ht : ∀ r ∈ t.rows, Q r)
    (hfresh : ∀ i ∈ items, ∀ rows, Q (U.fresh rows i))
    (happly : ∀ i ∈ items, ∀ r k, U.itemKey i = some k → key r = some k → Q r → Q (U.apply r i)) :
    ∀ r ∈ t'.rows, Q r := by
  refine h.invariant (P := fun t => ∀ r ∈ t.rows, Q r) ht ?_
  intro i hi u u' hu hw r hr
  cases hw with
  | inserted _ hrows =>
    rw [hrows] at hr
    rcases List.mem_append.mp hr with hr | hr
    · exact hu r hr
    · rw [List.mem_singleton.mp hr]
      exact hfresh i hi _
  | @updated k _ hitem _ _ _ hrows =>
    rw [hrows] at hr
    obtain ⟨s, hs, rfl⟩ := List.mem_map.mp hr
    unfold applyAt
    split
    · rename_i hk
      exact happly i hi s k hitem hk (hu s hs)
    · exact hu s hs
  | rejected _ _ _ _ hrows =>
    rw [hrows] at hr
    exact hu r hr

theorem WroteAll.mem_of_other (h : U.WroteAll t items t') {r : α} (hr : r ∈ t.rows)
    (hother : ∀ i ∈ items, ∀ k, U.itemKey i = some k → key r ≠ some k) : r ∈ t'.rows := by
  refine h.invariant (P := fun t => r ∈ t.rows) hr ?_
  intro i hi u u' hu hw
  cases hw with
  | inserted _ hrows =>
    rw [hrows]
    exact List.mem_append_left _ hu
  | updated hitem _ _ _ hrows =>
    rw [hrows]
    refine List.mem_map.mpr ⟨r, hu, ?_⟩
    unfold applyAt
    rw [if_neg (hother i hi _ hitem)]
  | rejected _ _ _ _ hrows =>
    rw [hrows]
    exact hu

theorem WroteAll.key_from (h : U.WroteAll t items t') : ∀ r ∈ t'.rows,
      (∃ s ∈ t.rows, key s = key r) ∨ ∃ i ∈ items, U.itemKey i = key r := by
  refine h.forall_rows (fun r hr => .inl ⟨r, hr, rfl⟩) ?_ ?_
  · intro i hi rows
    exact .inr ⟨i, hi, (U.key_fresh rows i).symm⟩
  · intro i _ r k _ _ hr
    rw [U.key_apply]
    exact hr

theorem WroteAll.keeps_key (h : U.WroteAll t items t') {s : α} (hs : s ∈ t.rows) :
    ∃ r ∈ t'.rows, key r = key s := by
  refine h.invariant (P := fun t => ∃ r ∈ t.rows, key r = key s) ⟨s, hs, rfl⟩ ?_
  rintro i _ u u' ⟨r, hr, hkey⟩ hw
  cases hw with
  | inserted _ hrows =>
    rw [hrows]
    exact ⟨r, List.mem_append_left _ hr, hkey⟩
  | updated _ _ _ _ hrows =>
    rw [hrows]
    exact ⟨_, List.mem_map_of_mem hr, (U.key_applyAt _ _ r).trans hkey⟩
  | rejected _ _ _ _ hrows =>
    rw [hrows]
    exact ⟨r, hr, hkey⟩

theorem WroteAll.exists_key (h : U.WroteAll t items t') {i : β} (hi : i ∈ items) :
    ∃ r ∈ t'.rows, key r = U.itemKey i := by
  induction items generalizing t with
  | nil => cases hi
  | cons j l ih =>
    obtain ⟨u, hu, hl⟩ := h
    rcases List.mem_cons.mp hi with rfl | hi
    · obtain ⟨s, hs, hkey⟩ : ∃ s ∈ u.rows, key s = U.itemKey i := by
        cases hu with
        | inserted _ hrows =>
          rw [hrows]
          exact ⟨_, List.mem_append_right _ (List.mem_singleton_self _), U.key_fresh _ _⟩
        | @updated k r hitem hr hkey _ hrows =>
          rw [hrows, hitem]
          exact ⟨_, List.mem_map_of_mem hr, (U.key_applyAt _ _ r).trans hkey⟩
        | @rejected k r hitem hr hkey _ hrows =>
          rw [hrows, hitem]
          exact ⟨r, hr, hkey⟩
      obtain ⟨r, hr, heq⟩ := hl.keeps_key hs
      exact ⟨r, hr, heq.trans hkey⟩
    · exact ih hl hi

theorem WroteAll.exists_item (h : U.WroteAll t items t') (hadm : ∀ r i, U.admits r i = true)
    (hdis : items.Pairwise U.Apart) {i : β} (hi : i ∈ items) {k : κ} (hk : U.itemKey i = some k) :
    ∃ r ∈ t'.rows, key r = some k ∧ ((∃ rows, r = U.fresh rows i) ∨ ∃ s, r = U.apply s i) := by
  induction items generalizing t with
  | nil => cases hi
  | cons j l ih =>
    obtain ⟨u, hu, hl⟩ := h
    obtain ⟨hj, hdis⟩ := List.pairwise_cons.mp hdis
    rcases List.mem_cons.mp hi with rfl | hi
    · have hrow : ∃ r ∈ u.rows, key r = some k ∧
          ((∃ rows, r = U.fresh rows i) ∨ ∃ s, r = U.apply s i) := by
        cases hu with
        | inserted _ hrows =>
          refine ⟨U.fresh t.rows i, ?_, (U.key_fresh _ _).trans hk, .inl ⟨_, rfl⟩⟩
          rw [hrows]
          exact List.mem_append_right _ (List.mem_singleton_self _)
        | @updated k' r hitem hr hkey _ hrows =>
          rw [hk] at hitem
          cases hitem
          refine ⟨U.apply r i, ?_, (U.key_apply r i).trans hkey, .inr ⟨r, rfl⟩⟩
          rw [hrows]
          refine List.mem_map.mpr ⟨r, hr, ?_⟩
          unfold applyAt
          rw [if_pos hkey]
        | rejected _ _ _ ha _ =>
          rw [hadm] at ha
          cases ha
      obtain ⟨r, hr, hkey, hfrom⟩ := hrow
      refine ⟨r, hl.mem_of_other hr ?_, hkey, hfrom⟩
      intro j' hj' k' hk' heq
      rw [hkey] at heq
      cases heq
      exact hj j' hj' k hk hk'
    · exact ih hl hdis hi

/-- Items under new and distinct keys are all inserted, in order. -/
theorem WroteAll.all_inserted (h : U.WroteAll t items t')
    (hfree : ∀ i ∈ items, U.Free t.rows i) (hdis : items.Pairwise U.Apart) :
    ∃ new, t'.rows = t.rows ++ new ∧
      List.Forall₂ (fun i r => ∃ rows, r = U.fresh rows i) items new := by
  induction items generalizing t with
  | nil =>
    have hrows : t'.rows = t.rows := h
    exact ⟨[], by rw [hrows, List.append_nil], .nil⟩
  | cons i l ih =>
    obtain ⟨u, hu, hl⟩ := h
    obtain ⟨hi, hdis⟩ := List.pairwise_cons.mp hdis
    have hnot : ∀ {k : κ} {r : α}, U.itemKey i = some k → r ∈ t.rows → key r ≠ some k :=
      fun hk hr => hfree i List.mem_cons_self _ hk _ hr
    cases hu with
    | inserted _ hrows =>
      obtain ⟨new, hnew, hrel⟩ := ih hl (by
        intro j hj k hk r hr
        rw [hrows] at hr
        rcases List.mem_append.mp hr with hr | hr
        · exact hfree j (List.mem_cons_of_mem i hj) k hk r hr
        · rw [List.mem_singleton.mp hr, U.key_fresh]
          intro hik
          exact hi j hj k hik hk) hdis
      refine ⟨U.fresh t.rows i :: new, ?_, .cons ⟨_, rfl⟩ hrel⟩
      rw [hnew, hrows, ← List.append_cons]
    | updated hitem hr hkey _ _ => exact absurd hkey (hnot hitem hr)
    | rejected hitem hr hkey _ _ => exact absurd hkey (hnot hitem hr)

end Wrote

/-- A statement in progress: the table, the keys it has written, and the rows it returns, each
with the mark of an inserted row. -/
structure Progress (ident : α → ι) (key : α → Option κ) where
  table : IndexedTable ident key
  written : List κ
  returned : List (α × Bool)

variable [DecidableEq ι]

def insertRow (s : Progress ident key) (i : β) : Option (Progress ident key) :=
  (s.table.insert? (U.fresh s.table.rows i)).map fun t =>
    ⟨t, (U.itemKey i).toList ++ s.written, s.returned ++ [(U.fresh s.table.rows i, true)]⟩

def upsertOne (s : Progress ident key) (i : β) : Option (Progress ident key) :=
  match U.itemKey i with
  | none => U.insertRow s i
  | some k =>
    match s.table.findKey k with
    | none => U.insertRow s i
    | some r =>
      if k ∈ s.written then none
      else if U.admits r i then
        some ⟨s.table.update (U.applyAt k i) (by
            intro a b h
            simpa only [clashOn, key_applyAt, ident_applyAt] using h),
          k :: s.written, s.returned ++ [(U.apply r i, false)]⟩
      else some s

def upsertMany (s : Progress ident key) : List β → Option (Progress ident key)
  | [] => some s
  | i :: l => (U.upsertOne s i).bind fun s' => upsertMany s' l

def run (t : IndexedTable ident key) (items : List β) :
    Option (IndexedTable ident key × List (α × Bool)) :=
  (U.upsertMany ⟨t, [], []⟩ items).map fun s => (s.table, s.returned)

variable {U}

variable {i : β} {s s' : Progress ident key} {items : List β} {ret : List (α × Bool)}
variable {t : IndexedTable ident key}

theorem upsertOne_cases (h : U.upsertOne s i = some s') :
    (U.Free s.table.rows i ∧
      s'.table.rows = s.table.rows ++ [U.fresh s.table.rows i] ∧
      s'.written = (U.itemKey i).toList ++ s.written ∧
      s'.returned = s.returned ++ [(U.fresh s.table.rows i, true)]) ∨
    (∃ k r, U.itemKey i = some k ∧ r ∈ s.table.rows ∧ key r = some k ∧ k ∉ s.written ∧
      U.admits r i = true ∧ s'.table.rows = s.table.rows.map (U.applyAt k i) ∧
      s'.written = k :: s.written ∧ s'.returned = s.returned ++ [(U.apply r i, false)]) ∨
    (∃ k r, U.itemKey i = some k ∧ r ∈ s.table.rows ∧ key r = some k ∧ k ∉ s.written ∧
      U.admits r i = false ∧ s' = s) := by
  have hins : ∀ {u : Progress ident key}, U.insertRow s i = some u →
      u.table.rows = s.table.rows ++ [U.fresh s.table.rows i] ∧
      u.written = (U.itemKey i).toList ++ s.written ∧
      u.returned = s.returned ++ [(U.fresh s.table.rows i, true)] := by
    intro u hu
    obtain ⟨t, ht, rfl⟩ := Option.map_eq_some_iff.mp hu
    exact ⟨Table.insert?_rows ht, rfl, rfl⟩
  unfold upsertOne at h
  split at h
  · rename_i hk
    refine .inl ⟨?_, hins h⟩
    intro k hk'
    rw [hk] at hk'
    cases hk'
  · rename_i k hk
    split at h
    · rename_i hnone
      refine .inl ⟨?_, hins h⟩
      intro k' hk'
      rw [hk] at hk'
      cases hk'
      exact IndexedTable.findKey_eq_none_iff.mp hnone
    · rename_i r hr
      obtain ⟨hmem, hkey⟩ := IndexedTable.findKey_eq_some_iff.mp hr
      split at h
      · cases h
      · rename_i hw
        split at h
        · rename_i ha
          cases h
          exact .inr (.inl ⟨k, r, hk, hmem, hkey, hw, ha, rfl, rfl, rfl⟩)
        · rename_i ha
          cases h
          exact .inr (.inr ⟨k, r, hk, hmem, hkey, hw, by simpa using ha, rfl⟩)

theorem upsertMany_invariant {P : Progress ident key → Prop} (h : U.upsertMany s items = some s')
    (hs : P s) (hstep : ∀ i ∈ items, ∀ u u', P u → U.upsertOne u i = some u' → P u') : P s' := by
  induction items generalizing s with
  | nil =>
    cases h
    exact hs
  | cons i l ih =>
    obtain ⟨u, hu, hl⟩ := Option.bind_eq_some_iff.mp h
    exact ih hl (hstep i List.mem_cons_self s u hs hu)
      (List.forall_mem_cons.mp hstep).2

theorem upsertMany_wroteAll (h : U.upsertMany s items = some s') :
    U.WroteAll s.table items s'.table := by
  induction items generalizing s with
  | nil =>
    cases h
    rfl
  | cons i l ih =>
    obtain ⟨u, hu, hl⟩ := Option.bind_eq_some_iff.mp h
    refine ⟨u.table, ?_, ih hl⟩
    rcases upsertOne_cases hu with ⟨hfree, hrows, _⟩ | ⟨k, r, hitem, hr, hkey, _, ha, hrows, _⟩ |
      ⟨k, r, hitem, hr, hkey, _, ha, rfl⟩
    · exact .inserted hfree hrows
    · exact .updated hitem hr hkey ha hrows
    · exact .rejected hitem hr hkey ha rfl

theorem run_wroteAll {t' : IndexedTable ident key} (h : U.run t items = some (t', ret)) :
    U.WroteAll t items t' := by
  obtain ⟨s, hs, heq⟩ := Option.map_eq_some_iff.mp h
  cases heq
  exact upsertMany_wroteAll hs

/-- One item of an upsert that leaves the rows it finds as they are: the stored rows stay, and
the row of the item is returned. -/
theorem upsertOne_keep (hkeep : ∀ r i, U.apply r i = r) (hadm : ∀ r i, U.admits r i = true)
    (h : U.upsertOne s i = some s') :
    (∀ r ∈ s.table.rows, r ∈ s'.table.rows) ∧
      ∃ x, x.1 ∈ s'.table.rows ∧ s'.returned = s.returned ++ [x] ∧ key x.1 = U.itemKey i := by
  have happA : ∀ k r, U.applyAt k i r = r := by
    intro k r
    unfold applyAt
    split
    · exact hkeep r i
    · rfl
  rcases upsertOne_cases h with ⟨_, hrows, _, hret⟩ | ⟨k, r, hitem, hr, hkey, _, _, hrows, _, hret⟩ |
    ⟨k, r, _, _, _, _, ha, _⟩
  · refine ⟨fun r hr => ?_, _, ?_, hret, U.key_fresh _ _⟩
    · rw [hrows]
      exact List.mem_append_left _ hr
    · rw [hrows]
      exact List.mem_append_right _ (List.mem_singleton_self _)
  · rw [List.map_id'' (happA k)] at hrows
    rw [hkeep] at hret
    refine ⟨fun r hr => hrows ▸ hr, _, ?_, hret, hkey.trans hitem.symm⟩
    rw [hrows]
    exact hr
  · rw [hadm] at ha
    cases ha

theorem run_keep (hkeep : ∀ r i, U.apply r i = r) (hadm : ∀ r i, U.admits r i = true)
    {t' : IndexedTable ident key} (h : U.run t items = some (t', ret)) :
    (∀ r ∈ t.rows, r ∈ t'.rows) ∧ (∀ x ∈ ret, x.1 ∈ t'.rows) ∧
      ret.map (fun x => key x.1) = items.map U.itemKey := by
  obtain ⟨s, hs, heq⟩ := Option.map_eq_some_iff.mp h
  cases heq
  -- the rows returned so far stay in the table
  have hall : ∀ (l : List β) (u u' : Progress ident key), U.upsertMany u l = some u' →
      (∀ x ∈ u.returned, x.1 ∈ u.table.rows) →
      (∀ r ∈ u.table.rows, r ∈ u'.table.rows) ∧ (∀ x ∈ u'.returned, x.1 ∈ u'.table.rows) ∧
      u'.returned.map (fun x => key x.1) =
        u.returned.map (fun x => key x.1) ++ l.map U.itemKey := by
    intro l
    induction l with
    | nil =>
      intro u u' hu hret
      cases hu
      exact ⟨fun r hr => hr, hret, by simp⟩
    | cons i l ih =>
      intro u u' hu hret
      obtain ⟨v, hv, hl⟩ := Option.bind_eq_some_iff.mp hu
      obtain ⟨hrows, x, hx, hvret, hxk⟩ := upsertOne_keep hkeep hadm hv
      obtain ⟨hrows', hret', hkeys⟩ := ih v u' hl (by
        intro y hy
        rw [hvret] at hy
        rcases List.mem_append.mp hy with hy | hy
        · exact hrows _ (hret y hy)
        · rw [List.mem_singleton.mp hy]
          exact hx)
      refine ⟨fun r hr => hrows' r (hrows r hr), hret', ?_⟩
      rw [hkeys, hvret, List.map_append, List.map_singleton, hxk, List.map_cons,
        ← List.append_cons]
  obtain ⟨hrows, hret, hkeys⟩ := hall items _ s hs (by simp)
  exact ⟨hrows, hret, by simpa using hkeys⟩

theorem upsertOne_isSome
    (hident : ∀ rows i, U.Free rows i →
      ∀ r ∈ rows, ident r ≠ ident (U.fresh rows i)) (hw : ∀ k, U.itemKey i = some k → k ∉ s.written) :
    ∃ s', U.upsertOne s i = some s' := by
  have hins : U.Free s.table.rows i →
      ∃ s', U.insertRow s i = some s' := by
    intro hfree
    have hclash : ∀ r ∈ s.table.rows, ¬ clashOn ident key r (U.fresh s.table.rows i) := by
      rintro r hr (hid | ⟨hsome, hkey⟩)
      · exact hident _ i hfree r hr hid
      · obtain ⟨k, hk⟩ := Option.isSome_iff_exists.mp hsome
        rw [U.key_fresh, hk] at hkey
        exact hfree k hkey.symm r hr hk
    obtain ⟨t, ht⟩ : ∃ t, s.table.insert? (U.fresh s.table.rows i) = some t :=
      ⟨_, dif_pos hclash⟩
    exact ⟨_, by rw [insertRow, ht]; rfl⟩
  unfold upsertOne
  split
  · rename_i hnone
    exact hins fun k hk => by rw [hnone] at hk; cases hk
  · rename_i k hk
    split
    · rename_i hfind
      refine hins fun k' hk' => ?_
      rw [hk] at hk'
      cases hk'
      exact IndexedTable.findKey_eq_none_iff.mp hfind
    · rw [if_neg (hw k hk)]
      split
      · exact ⟨_, rfl⟩
      · exact ⟨_, rfl⟩

theorem upsertOne_written {u : Progress ident key} (hu : U.upsertOne s i = some u) :
    ∀ k ∈ u.written, k ∈ s.written ∨ U.itemKey i = some k := by
  intro k hk
  rcases upsertOne_cases hu with ⟨_, _, hwr, _⟩ | ⟨k', _, hk', _, _, _, _, _, hwr, _⟩ |
    ⟨_, _, _, _, _, _, _, rfl⟩
  · rw [hwr, List.mem_append, Option.mem_toList] at hk
    exact hk.symm
  · rw [hwr, List.mem_cons] at hk
    rcases hk with rfl | hk
    · exact .inr hk'
    · exact .inl hk
  · exact .inl hk

theorem run_isSome (hident : ∀ rows i, U.Free rows i →
      ∀ r ∈ rows, ident r ≠ ident (U.fresh rows i))
    (hdis : items.Pairwise U.Apart) :
    ∃ res, U.run t items = some res := by
  have hall : ∀ (l : List β) (s : Progress ident key), l.Pairwise U.Apart →
      (∀ i ∈ l, ∀ k, U.itemKey i = some k → k ∉ s.written) →
      ∃ s', U.upsertMany s l = some s' := by
    intro l
    induction l with
    | nil => exact fun s _ _ => ⟨s, rfl⟩
    | cons i l ih =>
      intro s hl hw
      obtain ⟨hi, hl⟩ := List.pairwise_cons.mp hl
      obtain ⟨u, hu⟩ := upsertOne_isSome hident (hw i List.mem_cons_self)
      obtain ⟨s', hs'⟩ := ih u hl (by
        intro j hj k hk hmem
        rcases upsertOne_written hu k hmem with hmem | hik
        · exact hw j (List.mem_cons_of_mem i hj) k hk hmem
        · exact hi j hj k hik hk)
      refine ⟨s', ?_⟩
      show (U.upsertOne s i).bind _ = some s'
      rw [hu]
      exact hs'
  obtain ⟨s', hs'⟩ := hall items ⟨t, [], []⟩ hdis (by simp)
  exact ⟨_, by rw [run, hs']; rfl⟩

omit [DecidableEq κ] [DecidableEq ι] in
/-- Among the rows that a statement of the kind above returns, each item finds one by any name
that its key determines. -/
theorem exists_find?_returned {ν : Type u} [DecidableEq ν] {f : α → ν} {n : ν}
    (hret : ret.map (fun x => key x.1) = items.map U.itemKey) (hi : i ∈ items)
    (hname : ∀ r, key r = U.itemKey i → f r = n) :
    ∃ x, ret.find? (fun x => f x.1 = n) = some x := by
  have hmem : U.itemKey i ∈ ret.map fun x => key x.1 := by
    rw [hret]
    exact List.mem_map_of_mem hi
  obtain ⟨x, hx, hkey⟩ := List.mem_map.mp hmem
  refine Option.isSome_iff_exists.mp (List.find?_isSome.mpr ⟨x, hx, ?_⟩)
  simp [hname x.1 hkey]

section Split
variable {t : IndexedTable ident key} {written earlier : List κ} {returned before : List (α × Bool)}

/-- What a statement wrote and returned before matters only to an item that finds a written key. -/
theorem upsertOne_frame (hw : ∀ k, U.itemKey i = some k → k ∉ earlier) :
    U.upsertOne ⟨t, written ++ earlier, before ++ returned⟩ i =
      (U.upsertOne ⟨t, written, returned⟩ i).map fun s =>
        ⟨s.table, s.written ++ earlier, before ++ s.returned⟩ := by
  have hins : U.insertRow ⟨t, written ++ earlier, before ++ returned⟩ i =
      (U.insertRow ⟨t, written, returned⟩ i).map fun s =>
        ⟨s.table, s.written ++ earlier, before ++ s.returned⟩ := by
    unfold insertRow
    rw [Option.map_map]
    congr 1
    funext u
    simp only [Function.comp_apply, List.append_assoc]
  unfold upsertOne
  split
  · exact hins
  · rename_i k hk
    dsimp only
    split
    · exact hins
    · have hmem : k ∈ written ++ earlier ↔ k ∈ written := by
        rw [List.mem_append]
        exact or_iff_left (hw k hk)
      by_cases hdone : k ∈ written
      · rw [if_pos (hmem.mpr hdone), if_pos hdone]
        rfl
      · rw [if_neg fun h => hdone (hmem.mp h), if_neg hdone]
        split
        · simp only [Option.map_some, List.cons_append, List.append_assoc]
        · rfl

variable {items : List β}

theorem upsertMany_frame (hw : ∀ i ∈ items, ∀ k, U.itemKey i = some k → k ∉ earlier) :
    U.upsertMany ⟨t, written ++ earlier, before ++ returned⟩ items =
      (U.upsertMany ⟨t, written, returned⟩ items).map fun s =>
        ⟨s.table, s.written ++ earlier, before ++ s.returned⟩ := by
  induction items generalizing t written returned with
  | nil => rfl
  | cons i l ih =>
    unfold upsertMany
    rw [upsertOne_frame (hw i List.mem_cons_self)]
    cases U.upsertOne ⟨t, written, returned⟩ i with
    | none => rfl
    | some s => exact ih (List.forall_mem_cons.mp hw).2

/-- A statement whose first item shares its key with no other is that item alone and then the
rest. -/
theorem run_cons (hother : ∀ j ∈ items, U.Apart i j) :
    U.run t (i :: items) = (U.run t [i]).bind fun first =>
      (U.run first.1 items).map fun rest => (rest.1, first.2 ++ rest.2) := by
  have hone : U.run t [i] = (U.upsertOne ⟨t, [], []⟩ i).map fun s => (s.table, s.returned) := by
    unfold run upsertMany upsertMany
    cases U.upsertOne ⟨t, [], []⟩ i with
    | none => rfl
    | some s => rfl
  rw [hone, run, upsertMany]
  cases hi : U.upsertOne ⟨t, [], []⟩ i with
  | none => rfl
  | some s =>
    have hw : ∀ j ∈ items, ∀ k, U.itemKey j = some k → k ∉ s.written := by
      intro j hj k hk hmem
      rcases upsertOne_written hi k hmem with hmem | hik
      · cases hmem
      · exact hother j hj k hik hk
    have hframe : U.upsertMany ⟨s.table, [] ++ s.written, s.returned ++ []⟩ items = _ :=
      upsertMany_frame hw
    rw [List.nil_append, List.append_nil] at hframe
    simp only [Option.bind_some, Option.map_some, run, Option.map_map]
    rw [hframe, Option.map_map]
    rfl

theorem run_returned {t' : IndexedTable ident key} (h : U.run t items = some (t', ret)) :
    ∀ x ∈ ret, ∃ i ∈ items, key x.1 = U.itemKey i := by
  obtain ⟨s, hs, heq⟩ := Option.map_eq_some_iff.mp h
  cases heq
  refine upsertMany_invariant (P := fun s => ∀ x ∈ s.returned, ∃ i ∈ items, key x.1 = U.itemKey i)
    hs nofun ?_
  intro i hi u u' hu hone x hx
  rcases upsertOne_cases hone with ⟨_, _, _, hret⟩ | ⟨k, r, hitem, _, hkey, _, _, _, _, hret⟩ |
    ⟨_, _, _, _, _, _, _, rfl⟩
  · rw [hret] at hx
    rcases List.mem_append.mp hx with hx | hx
    · exact hu x hx
    · rw [List.mem_singleton.mp hx]
      exact ⟨i, hi, U.key_fresh _ _⟩
  · rw [hret] at hx
    rcases List.mem_append.mp hx with hx | hx
    · exact hu x hx
    · rw [List.mem_singleton.mp hx]
      exact ⟨i, hi, (U.key_apply r i).trans (hkey.trans hitem.symm)⟩
  · exact hu x hx

end Split

end Upsert

end Relational
