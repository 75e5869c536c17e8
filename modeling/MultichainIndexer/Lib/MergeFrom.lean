import MultichainIndexer.Lib.Table

/-!
# `UPDATE … FROM` with an anti-joined `INSERT`

A merge statement updates the stored rows from a list of items and inserts the
items that matched no stored row. Two rules of SQL decide what it does when a
key is listed more than once: an update applies at most one of the joined items
to a row, and which one is left open; two inserted rows with one key fail the
statement. The choice is a parameter here, so a result proved for every
`RowChoice` holds whichever item the database takes.

`upsertFrom` is the one-item statement `INSERT … ON CONFLICT DO UPDATE`.
-/

namespace Relational

universe u v w
variable {α : Type u} {β : Type v} {κ : Type w}

/-- The joined item that an `UPDATE … FROM` applies to a row. -/
structure RowChoice (β : Type v) where
  pick : List β → Option β
  pick_mem : ∀ {l : List β} {b : β}, pick l = some b → b ∈ l
  pick_isSome : ∀ {l : List β}, l ≠ [] → ∃ b, pick l = some b

namespace RowChoice

def first : RowChoice β where
  pick := List.head?
  pick_mem := List.mem_of_head?
  pick_isSome := by
    intro l hl
    cases l with
    | nil => exact absurd rfl hl
    | cons b _ => exact ⟨b, rfl⟩

@[simp] theorem pick_nil (c : RowChoice β) : c.pick [] = none := by
  cases h : c.pick [] with
  | none => rfl
  | some b => cases c.pick_mem h

theorem exists_pick [DecidableEq β] {l : List β} {b : β} (hb : b ∈ l) :
    ∃ c : RowChoice β, c.pick l = some b := by
  refine ⟨⟨fun m => if b ∈ m ∧ m = l then some b else m.head?, ?_, ?_⟩, by simp [hb]⟩
  · intro m b' h
    split at h
    · rename_i hm
      cases h
      exact hm.1
    · exact List.mem_of_head? h
  · intro m hm
    split
    · exact ⟨b, rfl⟩
    · exact first.pick_isSome hm

end RowChoice

section Merge
variable {rowKey : α → κ} (apply : α → β → α)

def applyJoined (c : RowChoice β) (l : List β) (r : α) : α :=
  match c.pick l with
  | none => r
  | some i => apply r i

theorem applyJoined_key (happly : ∀ r i, rowKey (apply r i) = rowKey r) (c : RowChoice β)
    (l : List β) (r : α) : rowKey (applyJoined apply c l r) = rowKey r := by
  unfold applyJoined
  split
  · rfl
  · exact happly r _

variable [DecidableEq κ] (itemKey : β → κ)

def listed (items : List β) (k : κ) : List β := items.filter fun i => decide (itemKey i = k)

theorem mem_listed {items : List β} {k : κ} {i : β} :
    i ∈ listed itemKey items k ↔ i ∈ items ∧ itemKey i = k := by simp [listed]

variable (fresh : β → α)

/-- The update half: every stored row takes at most one of the items listed for its key. -/
def updateFrom (happly : ∀ r i, rowKey (apply r i) = rowKey r) (c : RowChoice β)
    (items : List β) (t : KeyedTable rowKey) : KeyedTable rowKey :=
  t.update (fun r => applyJoined apply c (listed itemKey items (rowKey r)) r) (by
    intro a b h
    simpa only [applyJoined_key apply happly] using h)

/-- The items that the anti-join passes on to the insert half. -/
def unmatched (items : List β) (t : KeyedTable rowKey) : List β :=
  items.filter fun i => (KeyedTable.find? t (itemKey i)).isNone

def mergeFrom (happly : ∀ r i, rowKey (apply r i) = rowKey r) (c : RowChoice β)
    (items : List β) (t : KeyedTable rowKey) : Option (KeyedTable rowKey) :=
  (updateFrom apply itemKey happly c items t).insertAll? ((unmatched itemKey items t).map fresh)

/-- `INSERT … ON CONFLICT (key) DO UPDATE` of one item. -/
def upsertFrom (happly : ∀ r i, rowKey (apply r i) = rowKey r)
    (hfresh : ∀ i, rowKey (fresh i) = itemKey i) (i : β) (t : KeyedTable rowKey) :
    KeyedTable rowKey :=
  if h : ∀ r ∈ t.rows, rowKey r ≠ itemKey i then
    ⟨t.rows ++ [fresh i], List.pairwise_append.mpr
      ⟨t.unique, List.pairwise_singleton _ _, fun r hr b hb => by
        rw [List.mem_singleton.mp hb, hfresh]
        exact h r hr⟩⟩
  else t.update (fun r => if rowKey r = itemKey i then apply r i else r) (by
    intro a b hab
    have hk : ∀ r, rowKey (if rowKey r = itemKey i then apply r i else r) = rowKey r := by
      intro r
      split
      · exact happly r i
      · rfl
    simpa only [hk] using hab)

variable {apply fresh}
variable (happly : ∀ r i, rowKey (apply r i) = rowKey r)

theorem updateFrom_find? (c : RowChoice β) (items : List β) (t : KeyedTable rowKey) (k : κ) :
    KeyedTable.find? (updateFrom apply itemKey happly c items t) k =
      (KeyedTable.find? t k).map (applyJoined apply c (listed itemKey items k)) := by
  unfold updateFrom
  rw [KeyedTable.find?_update (fun r => applyJoined_key apply happly c _ r)]
  cases h : KeyedTable.find? t k with
  | none => rfl
  | some r => simp only [Option.map_some, (KeyedTable.find?_eq_some_iff.mp h).2]

theorem listed_unmatched (items : List β) (t : KeyedTable rowKey) (k : κ) :
    listed itemKey (unmatched itemKey items t) k =
      if (KeyedTable.find? t k).isNone then listed itemKey items k else [] := by
  have hcongr : ∀ i ∈ items, (decide (itemKey i = k) && (KeyedTable.find? t (itemKey i)).isNone) =
      (decide (itemKey i = k) && (KeyedTable.find? t k).isNone) := by
    intro i _
    by_cases hk : itemKey i = k
    · simp [hk]
    · simp [hk]
  unfold listed unmatched
  rw [List.filter_filter, List.filter_congr hcongr]
  split
  · rename_i h
    simp [h]
  · rename_i h
    simp [h]

variable {itemKey}
variable (hfresh : ∀ i, rowKey (fresh i) = itemKey i)
include hfresh

theorem mergeFrom_find? {c : RowChoice β} {items : List β} {t t' : KeyedTable rowKey}
    (h : mergeFrom apply itemKey fresh happly c items t = some t') (k : κ) :
    KeyedTable.find? t' k =
      ((KeyedTable.find? t k).map (applyJoined apply c (listed itemKey items k))).or
        ((listed itemKey items k).head?.map fresh) := by
  have hrows := Table.insertAll?_rows h
  unfold KeyedTable.find? at *
  rw [hrows, List.find?_append]
  have hu := updateFrom_find? itemKey happly c items t k
  unfold KeyedTable.find? at hu
  rw [hu]
  cases hf : t.rows.find? fun r => decide (rowKey r = k) with
  | some r => rfl
  | none =>
    have hl := listed_unmatched itemKey items t k
    have hn : (KeyedTable.find? t k).isNone = true := by
      unfold KeyedTable.find?
      rw [hf]
      rfl
    rw [hn, if_pos rfl] at hl
    simp only [Option.map_none, Option.none_or, List.find?_map, Function.comp_def, hfresh]
    rw [← hl, listed, List.head?_filter]

/-- The statement fails exactly on a key that is not stored and listed twice. -/
theorem mergeFrom_isSome_iff {c : RowChoice β} {items : List β} {t : KeyedTable rowKey} :
    (∃ t', mergeFrom apply itemKey fresh happly c items t = some t') ↔
      ∀ k, KeyedTable.find? t k = none → (listed itemKey items k).length ≤ 1 := by
  constructor
  · rintro ⟨t', h⟩ k hk
    have hp := (Table.insertAll?_no_clash h).2
    rw [List.pairwise_map] at hp
    have hl := listed_unmatched itemKey items t k
    rw [hk, Option.isNone_none, if_pos rfl] at hl
    have hpk := hp.filter (fun i => decide (itemKey i = k))
    change (listed itemKey (unmatched itemKey items t) k).Pairwise _ at hpk
    rw [hl] at hpk
    have hall : ∀ i ∈ listed itemKey items k, itemKey i = k :=
      fun i hi => ((mem_listed itemKey).mp hi).2
    match hlist : listed itemKey items k with
    | [] => simp
    | [i] => simp
    | i :: j :: rest =>
      rw [hlist] at hpk hall
      have hne := (List.pairwise_cons.mp hpk).1 j List.mem_cons_self
      rw [hfresh, hfresh, hall i List.mem_cons_self,
        hall j (List.mem_cons_of_mem i List.mem_cons_self)] at hne
      exact absurd rfl hne
  · intro h
    apply Table.insertAll?_isSome
    · intro r hr a ha hc
      obtain ⟨i, hi, rfl⟩ := List.mem_map.mp ha
      obtain ⟨s, hs, rfl⟩ := List.mem_map.mp hr
      rw [applyJoined_key apply happly, hfresh] at hc
      have hnone := (List.mem_filter.mp hi).2
      rw [Option.isNone_iff_eq_none] at hnone
      exact KeyedTable.find?_eq_none_iff.mp hnone s hs hc
    · rw [List.pairwise_map]
      -- two of the inserted items with one key would be listed twice for it
      have hsub : ∀ l : List β, (∀ k, (listed itemKey l k).length ≤ 1) →
          l.Pairwise fun i j => ¬ rowKey (fresh i) = rowKey (fresh j) := by
        intro l hl
        induction l with
        | nil => exact .nil
        | cons i l ih =>
          refine List.pairwise_cons.mpr ⟨?_, ih fun k => ?_⟩
          · intro j hj he
            rw [hfresh, hfresh] at he
            have := hl (itemKey i)
            have hjm : j ∈ listed itemKey l (itemKey i) := (mem_listed itemKey).mpr ⟨hj, he.symm⟩
            have hpos := List.length_pos_of_mem hjm
            simp only [listed, List.filter_cons, decide_true, if_true, List.length_cons] at this hpos
            omega
          · have := hl k
            unfold listed at this ⊢
            rw [List.filter_cons] at this
            split at this
            · simp only [List.length_cons] at this
              omega
            · exact this
      apply hsub
      intro k
      rw [listed_unmatched]
      split
      · rename_i hk
        exact h k (Option.isNone_iff_eq_none.mp hk)
      · simp

theorem upsertFrom_find? (i : β) (t : KeyedTable rowKey) (k : κ) :
    KeyedTable.find? (upsertFrom apply itemKey fresh happly hfresh i t) k =
      if itemKey i = k then some (((KeyedTable.find? t k).map fun r => apply r i).getD (fresh i))
      else KeyedTable.find? t k := by
  unfold upsertFrom
  split
  · rename_i hnone
    have hsto := KeyedTable.find?_eq_none_iff.mpr hnone
    by_cases hk : itemKey i = k
    · subst hk
      rw [if_pos rfl, hsto]
      unfold KeyedTable.find? at hsto ⊢
      simp [hsto, hfresh]
    · rw [if_neg hk]
      unfold KeyedTable.find?
      simp [hfresh, hk]
  · rename_i hsome
    have hkey : ∀ r, rowKey (if rowKey r = itemKey i then apply r i else r) = rowKey r := by
      intro r
      split
      · exact happly r i
      · rfl
    rw [KeyedTable.find?_update hkey]
    cases hf : KeyedTable.find? t k with
    | none =>
      split
      · rename_i hk
        subst hk
        exact absurd (KeyedTable.find?_eq_none_iff.mp hf) hsome
      · rfl
    | some r =>
      have hr := (KeyedTable.find?_eq_some_iff.mp hf).2
      split
      · rename_i hk
        simp [hr, hk]
      · rename_i hk
        simp [hr, Ne.symm hk]

end Merge

end Relational
