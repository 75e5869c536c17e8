import Mathlib.Data.List.Basic

/-!
# The first of each key

A loop that collects elements and passes over those whose key it has already
seen. What it collects are the elements that come first among those of their
key, and no key is collected twice.
-/

namespace FirstOf

universe u v
variable {α : Type u} {κ : Type v} [DecidableEq κ] (key : α → κ)

def add (seen : List α) (a : α) : List α :=
  if seen.any fun b => key b = key a then seen else seen ++ [a]

def firstOf (l : List α) : List α := l.foldl (add key) []

variable {key}

variable {a : α} {seen l : List α}

theorem mem_add {b : α} : b ∈ add key seen a ↔ b ∈ seen ∨ b = a ∧ ∀ c ∈ seen, key c ≠ key a := by
  unfold add
  split
  · rename_i hany
    obtain ⟨c, hc, hkey⟩ := List.any_eq_true.mp hany
    constructor
    · exact .inl
    · rintro (hb | ⟨_, hnone⟩)
      · exact hb
      · exact absurd (by simpa using hkey) (hnone c hc)
  · rename_i hany
    have hnone : ∀ c ∈ seen, key c ≠ key a := by
      intro c hc heq
      exact hany (List.any_eq_true.mpr ⟨c, hc, by simpa using heq⟩)
    rw [List.mem_append, List.mem_singleton]
    exact ⟨fun h => h.imp_right fun hb => ⟨hb, hnone⟩, fun h => h.imp_right And.left⟩

theorem nodup_add (h : (seen.map key).Nodup) (a : α) : ((add key seen a).map key).Nodup := by
  unfold add
  split
  · exact h
  · rename_i hany
    rw [List.map_append, List.map_singleton, List.nodup_append]
    refine ⟨h, List.pairwise_singleton _ _, ?_⟩
    intro k hk k' hk' heq
    obtain ⟨c, hc, rfl⟩ := List.mem_map.mp hk
    rw [List.mem_singleton.mp hk'] at heq
    exact hany (List.any_eq_true.mpr ⟨c, hc, by simpa using heq⟩)

theorem nodup_firstOf (l : List α) : ((firstOf key l).map key).Nodup :=
  List.foldlRecOn l (add key) (motive := fun seen => (seen.map key).Nodup) List.nodup_nil
    fun _ hseen a _ => nodup_add hseen a

/-- The loop from any point on: an element is collected, or comes first among the rest and no
element of its key was collected. -/
theorem mem_foldl_add :
    a ∈ l.foldl (add key) seen ↔
      a ∈ seen ∨ (∀ b ∈ seen, key b ≠ key a) ∧ l.find? (fun b => key b = key a) = some a := by
  induction l generalizing seen with
  | nil => simp
  | cons c l ih =>
    rw [List.foldl_cons, ih, mem_add, List.find?_cons]
    simp only [mem_add]
    by_cases hkey : key c = key a
    · simp only [hkey, decide_true, Option.some.injEq]
      constructor
      · rintro ((ha | ⟨rfl, hnone⟩) | ⟨hnone, _⟩)
        · exact .inl ha
        · exact .inr ⟨hnone, rfl⟩
        · by_cases hseen : ∀ b ∈ seen, key b ≠ key a
          · exact absurd hkey (hnone c (.inr ⟨rfl, hseen⟩))
          · exact absurd (fun b hb => hnone b (.inl hb)) hseen
      · rintro (ha | ⟨hnone, rfl⟩)
        · exact .inl (.inl ha)
        · exact .inl (.inr ⟨rfl, hnone⟩)
    · simp only [hkey, decide_false]
      constructor
      · rintro ((ha | ⟨rfl, _⟩) | ⟨hnone, hfind⟩)
        · exact .inl ha
        · exact absurd rfl hkey
        · exact .inr ⟨fun b hb => hnone b (.inl hb), hfind⟩
      · rintro (ha | ⟨hnone, hfind⟩)
        · exact .inl (.inl ha)
        · refine .inr ⟨?_, hfind⟩
          rintro b (hb | ⟨rfl, _⟩)
          · exact hnone b hb
          · exact hkey

theorem mem_firstOf : a ∈ firstOf key l ↔ l.find? (fun b => key b = key a) = some a := by
  unfold firstOf
  rw [mem_foldl_add]
  simp

theorem mem_of_mem_firstOf (h : a ∈ firstOf key l) : a ∈ l :=
  List.mem_of_find?_eq_some (mem_firstOf.mp h)

theorem exists_mem_firstOf (h : a ∈ l) : ∃ b ∈ firstOf key l, key b = key a := by
  obtain ⟨b, hb⟩ := Option.isSome_iff_exists.mp
    (List.find?_isSome.mpr ⟨a, h, by simp⟩ : (l.find? fun b => key b = key a).isSome = true)
  have hkey : key b = key a := by simpa using List.find?_some hb
  refine ⟨b, mem_firstOf.mpr ?_, hkey⟩
  rw [hkey]
  exact hb

end FirstOf
