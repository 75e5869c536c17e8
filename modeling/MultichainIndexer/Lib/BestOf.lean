import Mathlib.Data.List.Basic
import Mathlib.Data.List.Induction
import Mathlib.Data.List.Nodup
import MultichainIndexer.Lib.SumWhere

/-!
# One entry for each key

A map that keeps one entry for each key, as the list of its entries: `put` adds
an entry whose key is new, and for a key that is there keeps the old entry or
takes the new one. What is kept came in, the keys are distinct, and nothing that
came in ranks above what is kept for its key.
-/

namespace BestOf

universe u v
variable {α : Type u} {κ : Type v} [DecidableEq κ] (key : α → κ) (replaces : α → α → Bool)

def put (a : α) : List α → List α
  | [] => [a]
  | b :: l => if key b = key a then (if replaces b a then a else b) :: l else b :: put a l

def keep (l : List α) : List α := l.foldl (fun kept a => put key replaces a kept) []

variable {key replaces} {l : List α}

theorem mem_put {a b : α} (h : b ∈ put key replaces a l) : b = a ∨ b ∈ l := by
  induction l with
  | nil => exact .inl (List.mem_singleton.mp h)
  | cons c l ih =>
    unfold put at h
    split at h
    · rcases List.mem_cons.mp h with rfl | hl
      · split
        · exact .inl rfl
        · exact .inr List.mem_cons_self
      · exact .inr (List.mem_cons_of_mem c hl)
    · rcases List.mem_cons.mp h with rfl | hl
      · exact .inr List.mem_cons_self
      · exact (ih hl).imp_right (List.mem_cons_of_mem c)

theorem key_mem_put {a : α} {k : κ} :
    k ∈ (put key replaces a l).map key ↔ k = key a ∨ k ∈ l.map key := by
  induction l with
  | nil => simp [put]
  | cons c l ih =>
    unfold put
    split
    · rename_i hc
      split
      · simp [hc]
      · simp [hc]
    · simp only [List.map_cons, List.mem_cons, ih]
      exact or_left_comm

theorem nodup_put {a : α} (h : (l.map key).Nodup) : ((put key replaces a l).map key).Nodup := by
  induction l with
  | nil => simp [put]
  | cons c l ih =>
    obtain ⟨hc, hl⟩ := List.nodup_cons.mp h
    unfold put
    split
    · rename_i heq
      have hkey : key (if replaces c a then a else c) = key c := by
        split
        · exact heq.symm
        · rfl
      rw [List.map_cons, hkey]
      exact h
    · rename_i hne
      rw [List.map_cons]
      refine List.nodup_cons.mpr ⟨fun hm => ?_, ih hl⟩
      rcases key_mem_put.mp hm with heq | hin
      · exact hne heq
      · exact hc hin

theorem keep_concat (l : List α) (a : α) :
    keep key replaces (l ++ [a]) = put key replaces a (keep key replaces l) :=
  List.foldl_concat _ _ _ _

theorem mem_of_mem_keep {b : α} (h : b ∈ keep key replaces l) : b ∈ l := by
  induction l using List.reverseRecOn with
  | nil => exact h
  | append_singleton l a ih =>
    rw [keep_concat] at h
    rcases mem_put h with rfl | hb
    · simp
    · exact List.mem_append_left _ (ih hb)

theorem nodup_keep (l : List α) : ((keep key replaces l).map key).Nodup := by
  induction l using List.reverseRecOn with
  | nil => exact List.nodup_nil
  | append_singleton l a ih =>
    rw [keep_concat]
    exact nodup_put ih

theorem key_mem_keep {k : κ} : k ∈ (keep key replaces l).map key ↔ k ∈ l.map key := by
  induction l using List.reverseRecOn with
  | nil => rfl
  | append_singleton l a ih =>
    rw [keep_concat, key_mem_put, ih, or_comm, List.map_append, List.mem_append,
      List.map_singleton, List.mem_singleton]

theorem keep_eq_nil : keep key replaces l = [] ↔ l = [] := by
  rw [← List.map_eq_nil_iff (f := key), ← List.map_eq_nil_iff (f := key) (l := l)]
  simp only [List.eq_nil_iff_forall_not_mem, key_mem_keep]

theorem mem_keep_of_unique {a : α} (ha : a ∈ l) (h : ∀ b ∈ l, key b = key a → b = a) :
    a ∈ keep key replaces l := by
  obtain ⟨b, hb, hkey⟩ := List.mem_map.mp
    ((key_mem_keep : key a ∈ (keep key replaces l).map key ↔ _).mpr (List.mem_map_of_mem ha))
  rw [← h b (mem_of_mem_keep hb) hkey]
  exact hb

theorem put_of_notMem {a : α} (h : key a ∉ l.map key) : put key replaces a l = l ++ [a] := by
  induction l with
  | nil => rfl
  | cons b l ih =>
    rw [List.map_cons, List.mem_cons, not_or] at h
    unfold put
    rw [if_neg fun hkey => h.1 hkey.symm, ih h.2, List.cons_append]

theorem keep_of_nodup (h : (l.map key).Nodup) : keep key replaces l = l := by
  induction l using List.reverseRecOn with
  | nil => rfl
  | append_singleton l a ih =>
    rw [List.map_append, List.map_singleton] at h
    have hnot : key a ∉ l.map key := by
      intro hmem
      exact (List.nodup_append.mp h).2.2 _ hmem _ (List.mem_singleton.mpr rfl) rfl
    rw [keep_concat, ih (List.nodup_append.mp h).1, put_of_notMem hnot]

/-- What a change of the entries leaves to key and rule, it leaves to the choice. -/
theorem map_keep {f : α → α} (hkey : ∀ a, key (f a) = key a)
    (hrule : ∀ a b, replaces (f a) (f b) = replaces a b) (l : List α) :
    (keep key replaces l).map f = keep key replaces (l.map f) := by
  have hput : ∀ (a : α) (l : List α),
      (put key replaces a l).map f = put key replaces (f a) (l.map f) := by
    intro a l
    induction l with
    | nil => rfl
    | cons b l ih =>
      rw [List.map_cons]
      unfold put
      rw [hkey, hkey, hrule]
      split
      · rw [List.map_cons, apply_ite f]
      · rw [List.map_cons, ih]
  induction l using List.reverseRecOn with
  | nil => rfl
  | append_singleton l a ih =>
    rw [List.map_append, List.map_singleton, keep_concat, keep_concat, hput, ih]

section Sum
open SumWhere

universe w
variable {G : Type w} [AddCommMonoid G] {p : α → Bool} {val : α → G}

theorem sumWhere_put {a : α}
    (h : ∀ b ∈ l, key b = key a → (p b = true → val b = 0) ∧ (p a = true → val a = 0)) :
    sumWhere p val (put key replaces a l) = sumWhere p val l + sumWhere p val [a] := by
  induction l with
  | nil => simp [put]
  | cons c l ih =>
    unfold put
    split
    · -- both the old and the new entry of the key count for nothing
      rename_i hc
      obtain ⟨hold, hnew⟩ := h c List.mem_cons_self hc
      have hzero : ∀ b, (p b = true → val b = 0) → (if p b = true then val b else 0) = 0 := by
        intro b hb
        split
        · rename_i hp
          exact hb hp
        · rfl
      split
      · simp [hzero c hold, hzero a hnew]
      · simp [hzero c hold, hzero a hnew]
    · rw [sumWhere_cons p val c, ih (List.forall_mem_cons.mp h).2,
        sumWhere_cons p val c, add_assoc]

/-- Keeping one entry for each key keeps a sum, if entries that share a key count for nothing. -/
theorem sumWhere_keep
    (h : l.Pairwise fun a b => key a = key b → (p a = true → val a = 0) ∧ (p b = true → val b = 0)) :
    sumWhere p val (keep key replaces l) = sumWhere p val l := by
  induction l using List.reverseRecOn with
  | nil => rfl
  | append_singleton l a ih =>
    obtain ⟨hl, -, hput⟩ := List.pairwise_append.mp h
    rw [keep_concat, sumWhere_put, ih hl, sumWhere_append]
    exact fun b hb => hput b (mem_of_mem_keep hb) a List.mem_cons_self

end Sum

section Best

/-- The entry that stays, of entries that come one after the other. -/
def best (replaces : α → α → Bool) (l : List α) : Option α :=
  l.foldl (fun kept a =>
    match kept with
    | none => some a
    | some b => if replaces b a then some a else some b) none

theorem best_append_singleton (l : List α) (a : α) :
    best replaces (l ++ [a]) = match best replaces l with
      | none => some a
      | some b => if replaces b a then some a else some b := by
  rw [best, List.foldl_append]
  rfl

theorem best_mem {b : α} (h : best replaces l = some b) : b ∈ l := by
  induction l using List.reverseRecOn generalizing b with
  | nil => cases h
  | append_singleton l a ih =>
    rw [best_append_singleton] at h
    split at h
    · cases h
      simp
    · rename_i c hc
      split at h
      · cases h
        simp
      · cases h
        exact List.mem_append_left _ (ih hc)

theorem best_eq_none : best replaces l = none ↔ l = [] := by
  constructor
  · intro h
    induction l using List.reverseRecOn with
    | nil => rfl
    | append_singleton l a ih =>
      rw [best_append_singleton] at h
      split at h
      · cases h
      · split at h <;> cases h
  · rintro rfl
    rfl

theorem best_rank {rank : α → Int} (hup : ∀ b a, replaces b a = true → rank b ≤ rank a)
    (hdown : ∀ b a, replaces b a = false → rank a ≤ rank b) {b : α}
    (h : best replaces l = some b) : ∀ a ∈ l, rank a ≤ rank b := by
  induction l using List.reverseRecOn generalizing b with
  | nil => cases h
  | append_singleton l c ih =>
    rw [best_append_singleton] at h
    intro a ha
    rw [List.mem_append, List.mem_singleton] at ha
    split at h
    · rename_i hnone
      cases h
      rw [best_eq_none.mp hnone] at ha
      obtain rfl := ha.resolve_left List.not_mem_nil
      exact Int.le_refl _
    · rename_i d hd
      split at h
      · rename_i hrep
        cases h
        rcases ha with ha | rfl
        · exact Int.le_trans (ih hd a ha) (hup d c hrep)
        · exact Int.le_refl _
      · rename_i hrep
        cases h
        rcases ha with ha | rfl
        · exact ih hd a ha
        · exact hdown b a (Bool.eq_false_iff.mpr hrep)

/-- A rule of replacement that does not go round in circles, on the entries with a property:
nothing replaces itself, and what did not replace an entry does not replace what did. -/
structure Consistent (replaces : α → α → Bool) (P : α → Prop) : Prop where
  irrefl : ∀ a, P a → replaces a a = false
  step : ∀ a b c, P a → P b → P c → replaces b c = true → replaces b a = false →
    replaces c a = false

variable {P : α → Prop}

theorem best_max (hr : Consistent replaces P) (hl : ∀ a ∈ l, P a) {b : α}
    (h : best replaces l = some b) : ∀ a ∈ l, replaces b a = false := by
  induction l using List.reverseRecOn generalizing b with
  | nil => cases h
  | append_singleton l c ih =>
    have hc := hl c (by simp)
    have hrest : ∀ a ∈ l, P a := fun a ha => hl a (List.mem_append_left _ ha)
    rw [best_append_singleton] at h
    intro a ha
    split at h
    · rename_i hnone
      cases h
      rw [best_eq_none.mp hnone, List.nil_append, List.mem_singleton] at ha
      rw [ha]
      exact hr.irrefl c hc
    · rename_i d hd
      have hPd := hrest d (best_mem hd)
      split at h
      · rename_i hrep
        cases h
        rcases List.mem_append.mp ha with ha | ha
        · exact hr.step a d c (hrest a ha) hPd hc hrep (ih hrest hd a ha)
        · rw [List.mem_singleton.mp ha]
          exact hr.irrefl c hc
      · rename_i hrep
        cases h
        rcases List.mem_append.mp ha with ha | ha
        · exact ih hrest hd a ha
        · rw [List.mem_singleton.mp ha]
          exact Bool.eq_false_iff.mpr hrep

theorem best_head {b : α} (h : ∀ a ∈ l, replaces b a = false) :
    best replaces (b :: l) = some b := by
  induction l using List.reverseRecOn with
  | nil => rfl
  | append_singleton l a ih =>
    rw [← List.cons_append, best_append_singleton,
      ih fun c hc => h c (List.mem_append_left _ hc)]
    simp only [h a (by simp), Bool.false_eq_true, if_false]

/-- The order of the entries does not matter to what is seen of the one that stays, if entries
that do not replace each other look the same. -/
theorem best_perm {β : Type v} (hr : Consistent replaces P) {view : α → β} {l l' : List α}
    (hl : ∀ a ∈ l, P a) (hperm : l.Perm l')
    (htie : ∀ a ∈ l, ∀ b ∈ l, replaces a b = false → replaces b a = false → view a = view b) :
    (best replaces l).map view = (best replaces l').map view := by
  cases hb : best replaces l with
  | none =>
    have hnil := best_eq_none.mp hb
    subst hnil
    have hnil' := hperm.nil_eq
    subst hnil'
    rfl
  | some b =>
    cases hb' : best replaces l' with
    | none =>
      have hnil := best_eq_none.mp hb'
      subst hnil
      rw [hperm.eq_nil] at hb
      cases hb
    | some b' =>
      have hmem := best_mem hb
      have hmem' := hperm.mem_iff.mpr (best_mem hb')
      have hl' : ∀ a ∈ l', P a := fun a ha => hl a (hperm.mem_iff.mpr ha)
      refine congrArg some (htie b hmem b' hmem' ?_ ?_)
      · exact best_max hr hl hb b' hmem'
      · exact best_max hr hl' hb' b (hperm.mem_iff.mp hmem)

end Best

section Order
variable {P : α → Prop}

theorem find?_put (k : κ) (a : α) (l : List α) :
    (put key replaces a l).find? (fun b => key b = k) =
      if key a = k then
        match l.find? (fun b => key b = k) with
        | none => some a
        | some b => if replaces b a then some a else some b
      else l.find? fun b => key b = k := by
  induction l with
  | nil =>
    by_cases ha : key a = k
    · simp [put, ha]
    · simp [put, ha]
  | cons c l ih =>
    unfold put
    by_cases hc : key c = key a
    · have hkey : key (if replaces c a then a else c) = key a := by
        split
        · rfl
        · exact hc
      rw [if_pos hc]
      by_cases ha : key a = k
      · rw [if_pos ha, List.find?_cons_of_pos (by simp [hkey, ha]),
          List.find?_cons_of_pos (by simp [hc, ha])]
        simp only
        split
        · rfl
        · rfl
      · rw [if_neg ha, List.find?_cons_of_neg (by simp [hkey, ha]),
          List.find?_cons_of_neg (by simp [hc, ha])]
    · rw [if_neg hc]
      by_cases hk : key c = k
      · have ha : key a ≠ k := fun h => hc (hk.trans h.symm)
        rw [if_neg ha, List.find?_cons_of_pos (by simp [hk]), List.find?_cons_of_pos (by simp [hk])]
      · rw [List.find?_cons_of_neg (by simp [hk]), List.find?_cons_of_neg (by simp [hk]), ih]

theorem find?_keep (k : κ) (l : List α) :
    (keep key replaces l).find? (fun b => key b = k) =
      best replaces (l.filter fun b => key b = k) := by
  induction l using List.reverseRecOn with
  | nil => rfl
  | append_singleton l a ih =>
    rw [keep_concat, find?_put, ih, List.filter_append]
    by_cases ha : key a = k
    · rw [if_pos ha, List.filter_cons_of_pos (by simp [ha]), List.filter_nil,
        best_append_singleton]
    · rw [if_neg ha, List.filter_cons_of_neg (by simp [ha]), List.filter_nil, List.append_nil]

theorem mem_keep_iff {b : α} :
    b ∈ keep key replaces l ↔ best replaces (l.filter fun c => key c = key b) = some b := by
  rw [← find?_keep]
  constructor
  · intro hb
    obtain ⟨c, hc⟩ := Option.isSome_iff_exists.mp
      (List.find?_isSome.mpr ⟨b, hb, by simp⟩ :
        ((keep key replaces l).find? fun c => key c = key b).isSome = true)
    have hkey := List.find?_some hc
    rw [decide_eq_true_eq] at hkey
    rw [hc, List.inj_on_of_nodup_map (nodup_keep l) (List.mem_of_find?_eq_some hc) hb hkey]
  · exact List.mem_of_find?_eq_some

theorem exists_keep {rank : α → Int} (hup : ∀ b a, replaces b a = true → rank b ≤ rank a)
    (hdown : ∀ b a, replaces b a = false → rank a ≤ rank b) {a : α} (h : a ∈ l) :
    ∃ b ∈ keep key replaces l, key b = key a ∧ rank a ≤ rank b := by
  have hmem : a ∈ l.filter fun b => key b = key a := List.mem_filter.mpr ⟨h, decide_eq_true rfl⟩
  obtain ⟨b, hb⟩ := Option.ne_none_iff_exists'.mp fun hnone =>
    List.ne_nil_of_mem hmem (best_eq_none.mp hnone)
  refine ⟨b, ?_, ?_, best_rank hup hdown hb a hmem⟩
  · exact List.mem_of_find?_eq_some ((find?_keep (key a) l).trans hb)
  · exact of_decide_eq_true (List.mem_filter.mp (best_mem hb)).2

/-- Keeping one entry for each key does not depend on the order of the entries, as far as what is
seen of them goes. -/
theorem keep_perm {β : Type v} {view : α → β}
    (hr : ∀ k, Consistent replaces fun a => P a ∧ key a = k) {l l' : List α} (hl : ∀ a ∈ l, P a)
    (hperm : l.Perm l') (hview : ∀ a b, view a = view b → key a = key b)
    (htie : ∀ a ∈ l, ∀ b ∈ l, key a = key b → replaces a b = false → replaces b a = false →
      view a = view b) :
    ((keep key replaces l).map view).Perm ((keep key replaces l').map view) := by
  have hkept : ∀ {l l' : List α}, (∀ a ∈ l, P a) → l.Perm l' →
      (∀ a ∈ l, ∀ b ∈ l, key a = key b → replaces a b = false → replaces b a = false →
        view a = view b) →
      ∀ b ∈ keep key replaces l, view b ∈ (keep key replaces l').map view := by
    intro l l' hl hperm htie b hb
    have hseen : (best replaces (l.filter fun c => key c = key b)).map view =
        (best replaces (l'.filter fun c => key c = key b)).map view := by
      refine best_perm (hr (key b)) ?_ (hperm.filter _) ?_
      · intro a ha
        rw [List.mem_filter, decide_eq_true_eq] at ha
        exact ⟨hl a ha.1, ha.2⟩
      · intro a ha c hc
        rw [List.mem_filter, decide_eq_true_eq] at ha hc
        exact htie a ha.1 c hc.1 (ha.2.trans hc.2.symm)
    rw [mem_keep_iff.mp hb] at hseen
    obtain ⟨b', hb', heq⟩ := Option.map_eq_some_iff.mp hseen.symm
    have hkey : key b' = key b := by
      have hmem := (List.mem_filter.mp (best_mem hb')).2
      rwa [decide_eq_true_eq] at hmem
    refine List.mem_map.mpr ⟨b', mem_keep_iff.mpr ?_, heq⟩
    rw [hkey]
    exact hb'
  have hnodup : ∀ l : List α, ((keep key replaces l).map view).Nodup := by
    intro l
    refine List.Nodup.map_on ?_ (List.Nodup.of_map key (nodup_keep l))
    intro a ha b hb heq
    exact List.inj_on_of_nodup_map (nodup_keep l) ha hb (hview a b heq)
  rw [List.perm_ext_iff_of_nodup (hnodup l) (hnodup l')]
  intro v
  constructor
  · intro hv
    obtain ⟨b, hb, rfl⟩ := List.mem_map.mp hv
    exact hkept hl hperm htie b hb
  · intro hv
    obtain ⟨b, hb, rfl⟩ := List.mem_map.mp hv
    have hmem := fun {a} => hperm.mem_iff (a := a)
    exact hkept (fun a ha => hl a (hmem.mpr ha)) hperm.symm
      (fun a ha c hc => htie a (hmem.mpr ha) c (hmem.mpr hc)) b hb

end Order

end BestOf
