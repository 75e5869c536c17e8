import Mathlib.Data.List.Induction
import Mathlib.Data.List.Nodup
import Mathlib.Logic.Function.Basic

/-!
# The LRU cache

The cache is a map from keys to elements of a linked list, most recent first, with
an expiry for each entry. The map holds pointers; the heap says what they point
to. What the cache is for is said by a recency list of entries: a hit and a put
bring an entry to the front, a get that finds it expired drops it, and a put of a
new key drops the last entry of a full list. The cache answers as that list does.
-/

namespace MultichainIndexer

namespace Cache

universe u v

structure Entry (K : Type u) (V : Type v) where
  key : K
  value : V
  expiresAt : Int

/-- The elements of `order` are pointers into the heap, front first; `nextElem` is not yet in use. -/
structure LRU (K : Type u) (V : Type v) where
  capacity : Int
  ttl : Int
  items : K → Option Nat := fun _ => none
  order : List Nat := []
  heap : Nat → Option (Entry K V) := fun _ => none
  nextElem : Nat := 0

variable {K : Type u} {V : Type v} [DecidableEq K]

def newLRU (capacity ttl : Int) : LRU K V := { capacity := capacity, ttl := ttl }

namespace LRU

def moveToFront (c : LRU K V) (elem : Nat) : LRU K V :=
  { c with order := elem :: c.order.filter (· ≠ elem) }

/-- `none` stands for a nil pointer, here and below. -/
def removeElement (c : LRU K V) (elem : Nat) : Option (LRU K V) :=
  (c.heap elem).map fun e =>
    { c with
      order := c.order.filter (· ≠ elem)
      items := Function.update c.items e.key none }

def evictOldest (c : LRU K V) : Option (LRU K V) :=
  match c.order.getLast? with
  | none => some c
  | some elem => c.removeElement elem

def get (c : LRU K V) (now : Int) (key : K) : Option (LRU K V × Option V) :=
  match c.items key with
  | none => some (c, none)
  | some elem => do
    let e ← c.heap elem
    if e.expiresAt < now then
      let c ← c.removeElement elem
      return (c, none)
    else return (c.moveToFront elem, some e.value)

def put (c : LRU K V) (now : Int) (key : K) (value : V) : Option (LRU K V) :=
  match c.items key with
  | some elem => do
    let c := c.moveToFront elem
    let e ← c.heap elem
    return { c with
      heap := Function.update c.heap elem
        (some { e with value := value, expiresAt := now + c.ttl }) }
  | none => do
    let c ← if c.capacity ≤ c.order.length then c.evictOldest else some c
    return { c with
      heap := Function.update c.heap c.nextElem (some ⟨key, value, now + c.ttl⟩)
      order := c.nextElem :: c.order
      items := Function.update c.items key (some c.nextElem)
      nextElem := c.nextElem + 1 }

def entries (c : LRU K V) : List (Entry K V) := c.order.filterMap c.heap

end LRU

inductive Call (K : Type u) (V : Type v)
  | get (key : K)
  | put (key : K) (value : V)

def LRU.step (c : LRU K V) (call : Int × Call K V) : Option (LRU K V) :=
  match call.2 with
  | .get key => (c.get call.1 key).map Prod.fst
  | .put key value => c.put call.1 key value

def run (capacity ttl : Int) (calls : List (Int × Call K V)) : Option (LRU K V) :=
  calls.foldlM LRU.step (newLRU capacity ttl)

section Recency

def without (key : K) (l : List (Entry K V)) : List (Entry K V) := l.filter (·.key ≠ key)

def recencyGet (now : Int) (key : K) (l : List (Entry K V)) : List (Entry K V) × Option V :=
  match l.find? (·.key = key) with
  | none => (l, none)
  | some e =>
    if e.expiresAt < now then (without key l, none) else (e :: without key l, some e.value)

def recencyPut (capacity ttl now : Int) (key : K) (value : V) (l : List (Entry K V)) :
    List (Entry K V) :=
  if (l.find? (·.key = key)).isSome then ⟨key, value, now + ttl⟩ :: without key l
  else ⟨key, value, now + ttl⟩ :: if capacity ≤ l.length then l.dropLast else l

def recencyStep (capacity ttl : Int) (l : List (Entry K V)) (call : Int × Call K V) :
    List (Entry K V) :=
  match call.2 with
  | .get key => (recencyGet call.1 key l).1
  | .put key value => recencyPut capacity ttl call.1 key value l

def recencyRun (capacity ttl : Int) (calls : List (Int × Call K V)) : List (Entry K V) :=
  calls.foldl (recencyStep capacity ttl) []

/-- The value that was put last for a key. -/
def lastPut (key : K) (calls : List (Int × Call K V)) : Option V :=
  calls.foldl (fun last call =>
    match call.2 with
    | .get _ => last
    | .put k value => if k = key then some value else last) none

end Recency

section WellFormed

/-- The map and the list hold the same entries. -/
structure WellFormed (c : LRU K V) : Prop where
  nodup : c.order.Nodup
  fresh : ∀ elem ∈ c.order, elem < c.nextElem
  held : ∀ elem ∈ c.order, ∃ e, c.heap elem = some e ∧ c.items e.key = some elem
  pointed : ∀ key elem, c.items key = some elem →
    elem ∈ c.order ∧ ∃ e, c.heap elem = some e ∧ e.key = key

variable {c : LRU K V} {key : K} {elem : Nat} {e : Entry K V}

omit [DecidableEq K] in
theorem wellFormed_new (capacity ttl : Int) : WellFormed (newLRU capacity ttl : LRU K V) :=
  ⟨List.nodup_nil, nofun, nofun, nofun⟩

omit [DecidableEq K] in
theorem WellFormed.mem_entries (h : WellFormed c) :
    e ∈ c.entries ↔ ∃ elem, c.items e.key = some elem ∧ c.heap elem = some e := by
  unfold LRU.entries
  rw [List.mem_filterMap]
  constructor
  · rintro ⟨elem, hmem, he⟩
    obtain ⟨e', he', hitems⟩ := h.held elem hmem
    cases he.symm.trans he'
    exact ⟨elem, hitems, he⟩
  · rintro ⟨elem, hitems, he⟩
    exact ⟨elem, (h.pointed _ _ hitems).1, he⟩

omit [DecidableEq K] in
theorem WellFormed.length_entries (h : WellFormed c) : c.entries.length = c.order.length := by
  unfold LRU.entries
  rw [List.length_filterMap_eq_countP, List.countP_eq_length]
  intro elem hmem
  obtain ⟨e, he, -⟩ := h.held elem hmem
  rw [he]
  rfl

omit [DecidableEq K] in
theorem WellFormed.nodup_keys (h : WellFormed c) : (c.entries.map Entry.key).Nodup := by
  unfold LRU.entries
  rw [List.Nodup, List.pairwise_map, List.pairwise_filterMap]
  apply h.nodup.imp_of_mem
  intro elem elem' hmem hmem' hne e he e' he' hkey
  obtain ⟨_, he₁, hitems⟩ := h.held elem hmem
  obtain ⟨_, he₂, hitems'⟩ := h.held elem' hmem'
  cases he.symm.trans he₁
  cases he'.symm.trans he₂
  rw [hkey, hitems'] at hitems
  cases hitems
  exact hne rfl

theorem WellFormed.find_eq (h : WellFormed c) (key : K) :
    c.entries.find? (·.key = key) = (c.items key).bind c.heap := by
  cases hitems : c.items key with
  | none =>
    rw [Option.bind_none, List.find?_eq_none]
    intro e he hkey
    obtain ⟨elem, helem, -⟩ := h.mem_entries.mp he
    rw [of_decide_eq_true hkey, hitems] at helem
    cases helem
  | some elem =>
    obtain ⟨-, e, he, rfl⟩ := h.pointed _ _ hitems
    rw [Option.bind_some, he]
    cases hfind : c.entries.find? (·.key = e.key) with
    | none =>
      have hnone := List.find?_eq_none.mp hfind e (h.mem_entries.mpr ⟨elem, hitems, he⟩)
      simp at hnone
    | some e' =>
      obtain ⟨elem', hitems', he'⟩ := h.mem_entries.mp (List.mem_of_find?_eq_some hfind)
      have hkey : e'.key = e.key := by simpa using List.find?_some hfind
      rw [hkey, hitems] at hitems'
      cases hitems'
      exact he'.symm.trans he

/-- Without an element, the list is without its key. -/
theorem WellFormed.entries_filter (h : WellFormed c) (hitems : c.items key = some elem) :
    (c.order.filter (· ≠ elem)).filterMap c.heap = without key c.entries := by
  unfold without LRU.entries
  rw [List.filterMap_filter, List.filter_filterMap]
  apply List.filterMap_congr
  intro elem' hmem
  obtain ⟨e', he', hitems'⟩ := h.held elem' hmem
  rw [he']
  by_cases hkey : e'.key = key
  · rw [hkey, hitems] at hitems'
    cases hitems'
    simp [hkey, Option.filter]
  · have hne : elem' ≠ elem := by
      rintro rfl
      obtain ⟨-, e, he, rfl⟩ := h.pointed _ _ hitems
      cases he.symm.trans he'
      exact hkey rfl
    simp [hkey, hne, Option.filter]

/-- The cache as a step leaves it: well formed, with the entries `l` and the settings of before. -/
structure Becomes (c c' : LRU K V) (l : List (Entry K V)) : Prop where
  wellFormed : WellFormed c'
  entries : c'.entries = l
  capacity : c'.capacity = c.capacity
  ttl : c'.ttl = c.ttl

theorem WellFormed.removeElement (h : WellFormed c) (hitems : c.items key = some elem) :
    ∃ c', c.removeElement elem = some c' ∧ Becomes c c' (without key c.entries) ∧
      c'.items = Function.update c.items key none := by
  obtain ⟨hmem, e, he, rfl⟩ := h.pointed _ _ hitems
  refine ⟨_, by rw [LRU.removeElement, he, Option.map_some], ?_, rfl⟩
  refine ⟨⟨h.nodup.filter _, ?_, ?_, ?_⟩, h.entries_filter hitems, rfl, rfl⟩
  · intro elem' hmem'
    exact h.fresh elem' (List.mem_filter.mp hmem').1
  · intro elem' hmem'
    obtain ⟨hmem', hne⟩ := List.mem_filter.mp hmem'
    obtain ⟨e', he', hitems'⟩ := h.held elem' hmem'
    refine ⟨e', he', ?_⟩
    dsimp only
    rw [Function.update_of_ne, hitems']
    intro hkey
    rw [hkey, hitems] at hitems'
    cases hitems'
    simp at hne
  · intro key' elem' hitems'
    dsimp only at hitems'
    by_cases hkey : key' = e.key
    · rw [hkey, Function.update_self] at hitems'
      cases hitems'
    · rw [Function.update_of_ne hkey] at hitems'
      obtain ⟨hmem', e', he', hkey'⟩ := h.pointed _ _ hitems'
      refine ⟨List.mem_filter.mpr ⟨hmem', ?_⟩, e', he', hkey'⟩
      apply decide_eq_true
      rintro rfl
      cases he.symm.trans he'
      exact hkey hkey'.symm

theorem WellFormed.moveToFront (h : WellFormed c) (hitems : c.items e.key = some elem)
    (he : c.heap elem = some e) :
    Becomes c (c.moveToFront elem) (e :: without e.key c.entries) := by
  have hmem := (h.pointed _ _ hitems).1
  have hback : ∀ elem', elem' ∈ (c.moveToFront elem).order ↔ elem' ∈ c.order := by
    intro elem'
    rw [LRU.moveToFront, List.mem_cons, List.mem_filter]
    by_cases heq : elem' = elem
    · simp [heq, hmem]
    · simp [heq]
  refine ⟨⟨?_, ?_, ?_, ?_⟩, ?_, rfl, rfl⟩
  · exact List.nodup_cons.mpr ⟨by simp, h.nodup.filter _⟩
  · intro elem' hmem'
    exact h.fresh elem' ((hback elem').mp hmem')
  · intro elem' hmem'
    exact h.held elem' ((hback elem').mp hmem')
  · intro key' elem' hitems'
    obtain ⟨hmem', hrest⟩ := h.pointed key' elem' hitems'
    exact ⟨(hback elem').mpr hmem', hrest⟩
  · rw [← h.entries_filter hitems, LRU.entries, LRU.moveToFront]
    exact List.filterMap_cons_some he

omit [DecidableEq K] in
theorem WellFormed.setEntry (h : WellFormed c) (hitems : c.items e.key = some elem) :
    WellFormed { c with heap := Function.update c.heap elem (some e) } := by
  refine ⟨h.nodup, h.fresh, ?_, ?_⟩
  · intro elem' hmem'
    dsimp only
    by_cases heq : elem' = elem
    · rw [heq, Function.update_self]
      exact ⟨e, rfl, hitems⟩
    · rw [Function.update_of_ne heq]
      exact h.held elem' hmem'
  · intro key' elem' hitems'
    obtain ⟨hmem', e', he', hkey'⟩ := h.pointed key' elem' hitems'
    refine ⟨hmem', ?_⟩
    dsimp only
    by_cases heq : elem' = elem
    · subst heq
      obtain ⟨-, e₀, he₀, hkey₀⟩ := h.pointed _ _ hitems
      cases he₀.symm.trans he'
      rw [Function.update_self]
      exact ⟨e, rfl, hkey₀.symm.trans hkey'⟩
    · rw [Function.update_of_ne heq]
      exact ⟨e', he', hkey'⟩

omit [DecidableEq K] in
/-- Writing to an element that the list does not have changes none of its entries. -/
theorem filterMap_update {order : List Nat} (heap : Nat → Option (Entry K V))
    (h : elem ∉ order) (o : Option (Entry K V)) :
    order.filterMap (Function.update heap elem o) = order.filterMap heap := by
  apply List.filterMap_congr
  intro elem' hmem
  rw [Function.update_of_ne (ne_of_mem_of_not_mem hmem h)]

theorem WellFormed.pushFront (h : WellFormed c) (hitems : c.items e.key = none) :
    Becomes c { c with
      heap := Function.update c.heap c.nextElem (some e)
      order := c.nextElem :: c.order
      items := Function.update c.items e.key (some c.nextElem)
      nextElem := c.nextElem + 1 } (e :: c.entries) := by
  have hnew : c.nextElem ∉ c.order := fun hmem => Nat.lt_irrefl _ (h.fresh _ hmem)
  refine ⟨⟨List.nodup_cons.mpr ⟨hnew, h.nodup⟩, ?_, ?_, ?_⟩, ?_, rfl, rfl⟩
  · intro elem' hmem'
    rcases List.mem_cons.mp hmem' with rfl | hmem'
    · exact Nat.lt_succ_self _
    · exact Nat.lt_succ_of_lt (h.fresh elem' hmem')
  · intro elem' hmem'
    dsimp only
    rcases List.mem_cons.mp hmem' with rfl | hmem'
    · rw [Function.update_self]
      exact ⟨e, rfl, Function.update_self _ _ _⟩
    · obtain ⟨e', he', hitems'⟩ := h.held elem' hmem'
      rw [Function.update_of_ne (ne_of_mem_of_not_mem hmem' hnew)]
      refine ⟨e', he', ?_⟩
      rw [Function.update_of_ne, hitems']
      intro hkey
      rw [hkey, hitems] at hitems'
      cases hitems'
  · intro key' elem' hitems'
    dsimp only at hitems' ⊢
    by_cases hkey : key' = e.key
    · rw [hkey, Function.update_self] at hitems'
      cases hitems'
      exact ⟨List.mem_cons_self, e, Function.update_self _ _ _, hkey.symm⟩
    · rw [Function.update_of_ne hkey] at hitems'
      obtain ⟨hmem', e', he', hkey'⟩ := h.pointed key' elem' hitems'
      refine ⟨List.mem_cons_of_mem _ hmem', e', ?_, hkey'⟩
      rw [Function.update_of_ne (ne_of_mem_of_not_mem hmem' hnew), he']
  · rw [LRU.entries, List.filterMap_cons_some (Function.update_self _ _ _),
      filterMap_update _ hnew, LRU.entries]

/-- The last element goes, and no other. -/
theorem WellFormed.evictOldest (h : WellFormed c) :
    ∃ c', c.evictOldest = some c' ∧ Becomes c c' c.entries.dropLast ∧
      ∀ key, c.items key = none → c'.items key = none := by
  unfold LRU.evictOldest
  cases hlast : c.order.getLast? with
  | none =>
    have hnil : c.entries = [] := by
      rw [LRU.entries, List.getLast?_eq_none_iff.mp hlast]
      rfl
    exact ⟨c, rfl, ⟨h, by rw [hnil]; rfl, rfl, rfl⟩, fun _ hkey => hkey⟩
  | some elem =>
    obtain ⟨init, horder⟩ := List.getLast?_eq_some_iff.mp hlast
    obtain ⟨e, he, hitems⟩ := h.held elem (List.mem_of_getLast? hlast)
    obtain ⟨c', hc', ⟨hwf, hent, hcap, httl⟩, hitems'⟩ := h.removeElement hitems
    refine ⟨c', hc', ⟨hwf, ?_, hcap, httl⟩, ?_⟩
    · have hnodup := h.nodup
      rw [horder] at hnodup
      have hnot : elem ∉ init := fun hmem =>
        (List.nodup_append.mp hnodup).2.2 elem hmem elem (List.mem_singleton_self elem) rfl
      rw [hent, ← h.entries_filter hitems, LRU.entries, horder, List.filter_append,
        List.filter_eq_self.mpr fun x hx => decide_eq_true (ne_of_mem_of_not_mem hx hnot),
        List.filterMap_append, List.filterMap_append]
      simp [he]
    · intro key hkey
      rw [hitems']
      by_cases heq : key = e.key
      · rw [heq, Function.update_self]
      · rw [Function.update_of_ne heq, hkey]

end WellFormed

section Refinement
variable {c : LRU K V}

theorem get_refines (h : WellFormed c) (now : Int) (key : K) :
    ∃ c', c.get now key = some (c', (recencyGet now key c.entries).2) ∧
      Becomes c c' (recencyGet now key c.entries).1 := by
  unfold LRU.get recencyGet
  rw [h.find_eq]
  cases hitems : c.items key with
  | none => exact ⟨c, rfl, h, rfl, rfl, rfl⟩
  | some elem =>
    obtain ⟨-, e, he, rfl⟩ := h.pointed _ _ hitems
    simp only [Option.bind_some, he, Option.bind_eq_bind]
    split
    · obtain ⟨c', hc', hbec, -⟩ := h.removeElement hitems
      refine ⟨c', ?_, hbec⟩
      rw [hc']
      rfl
    · exact ⟨_, rfl, h.moveToFront hitems he⟩

theorem put_refines (h : WellFormed c) (now : Int) (key : K) (value : V) :
    ∃ c', c.put now key value = some c' ∧
      Becomes c c' (recencyPut c.capacity c.ttl now key value c.entries) := by
  unfold LRU.put recencyPut
  rw [h.find_eq]
  cases hitems : c.items key with
  | none =>
    rw [Option.bind_none, Option.isSome_none, if_neg Bool.false_ne_true, h.length_entries]
    dsimp only
    split
    · obtain ⟨c', hc', ⟨hwf, hent, hcap, httl⟩, hnone⟩ := h.evictOldest
      have hpush := hwf.pushFront (e := ⟨key, value, now + c'.ttl⟩) (hnone key hitems)
      rw [hc']
      refine ⟨_, rfl, hpush.wellFormed, ?_, hcap, httl⟩
      rw [hpush.entries, hent, httl]
    · have hpush := h.pushFront (e := ⟨key, value, now + c.ttl⟩) hitems
      exact ⟨_, rfl, hpush⟩
  | some elem =>
    obtain ⟨-, e, he, rfl⟩ := h.pointed _ _ hitems
    obtain ⟨hwf, hent, hcap, httl⟩ := h.moveToFront hitems he
    have he' : (c.moveToFront elem).heap elem = some e := he
    simp only [Option.bind_some, he, he', Option.bind_eq_bind, Option.isSome_some, if_true]
    refine ⟨_, rfl, hwf.setEntry (e := { e with value := value, expiresAt := _ }) hitems, ?_,
      hcap, httl⟩
    rw [LRU.entries]
    dsimp only [LRU.moveToFront]
    rw [List.filterMap_cons_some (Function.update_self _ _ _),
      filterMap_update _ (by simp), h.entries_filter hitems]

end Refinement

section RecencyFacts
variable {capacity ttl : Int} {l : List (Entry K V)} {key : K}

theorem length_without_lt {e : Entry K V} (h : l.find? (·.key = key) = some e) :
    (without key l).length < l.length := by
  apply List.length_filter_lt_length_iff_exists.mpr
  refine ⟨e, List.mem_of_find?_eq_some h, ?_⟩
  have hkey := List.find?_some h
  simpa using hkey

theorem length_recencyStep (hcap : 1 ≤ capacity) (hl : (l.length : Int) ≤ capacity)
    (call : Int × Call K V) : ((recencyStep capacity ttl l call).length : Int) ≤ capacity := by
  obtain ⟨now, key | ⟨key, value⟩⟩ := call
  · change ((recencyGet now key l).1.length : Int) ≤ capacity
    rw [recencyGet]
    split
    · exact hl
    · rename_i e hfind
      have hlt := length_without_lt hfind
      split
      · dsimp only
        omega
      · rw [List.length_cons]
        omega
  · change ((recencyPut capacity ttl now key value l).length : Int) ≤ capacity
    rw [recencyPut]
    split
    · rename_i hsome
      obtain ⟨e, hfind⟩ := Option.isSome_iff_exists.mp hsome
      have hlt := length_without_lt hfind
      rw [List.length_cons]
      omega
    · rw [List.length_cons]
      split
      · rw [List.length_dropLast]
        omega
      · omega

theorem length_recencyRun (hcap : 1 ≤ capacity) (calls : List (Int × Call K V)) :
    ((recencyRun capacity ttl calls).length : Int) ≤ capacity := by
  induction calls using List.reverseRecOn with
  | nil => exact Int.le_trans (Int.ofNat_le.mpr (Nat.zero_le 1)) hcap
  | append_singleton calls call ih =>
    rw [recencyRun, List.foldl_append]
    exact length_recencyStep hcap ih call

theorem recencyGet_hit {now : Int} {value : V} (h : (recencyGet now key l).2 = some value) :
    ∃ e ∈ l, e.key = key ∧ e.value = value := by
  rw [recencyGet] at h
  split at h
  · cases h
  · rename_i e hfind
    split at h
    · cases h
    · have hkey := List.find?_some hfind
      exact ⟨e, List.mem_of_find?_eq_some hfind, of_decide_eq_true hkey, Option.some.inj h⟩

theorem lastPut_concat (key : K) (calls : List (Int × Call K V)) (call : Int × Call K V) :
    lastPut key (calls ++ [call]) =
      match call.2 with
      | .get _ => lastPut key calls
      | .put k value => if k = key then some value else lastPut key calls := List.foldl_append

/-- Every entry has the value that was put last for its key. -/
theorem recencyRun_lastPut (calls : List (Int × Call K V)) :
    ∀ e ∈ recencyRun capacity ttl calls, lastPut e.key calls = some e.value := by
  induction calls using List.reverseRecOn with
  | nil => exact fun e he => absurd he List.not_mem_nil
  | append_singleton calls call ih =>
    rw [recencyRun, List.foldl_concat, ← recencyRun]
    generalize recencyRun capacity ttl calls = l at ih
    intro e he
    rw [lastPut_concat]
    obtain ⟨now, key | ⟨key, value⟩⟩ := call
    · apply ih
      change e ∈ (recencyGet now key l).1 at he
      rw [recencyGet] at he
      split at he
      · exact he
      · rename_i found hfind
        split at he
        · exact (List.mem_filter.mp he).1
        · rcases List.mem_cons.mp he with rfl | he
          · exact List.mem_of_find?_eq_some hfind
          · exact (List.mem_filter.mp he).1
    · change e ∈ recencyPut capacity ttl now key value l at he
      dsimp only
      rw [recencyPut] at he
      split at he
      · rcases List.mem_cons.mp he with rfl | he
        · exact if_pos rfl
        · obtain ⟨he, hkey⟩ := List.mem_filter.mp he
          rw [if_neg (Ne.symm (of_decide_eq_true hkey))]
          exact ih e he
      · rename_i hnone
        rcases List.mem_cons.mp he with rfl | he
        · exact if_pos rfl
        · have hmem : e ∈ l := by
            split at he
            · exact (List.dropLast_sublist l).subset he
            · exact he
          have hkey : ¬ key = e.key := by
            rintro rfl
            apply hnone
            rw [List.find?_isSome]
            exact ⟨e, hmem, decide_eq_true rfl⟩
          rw [if_neg hkey]
          exact ih e hmem

end RecencyFacts

theorem run_becomes (capacity ttl : Int) (calls : List (Int × Call K V)) :
    ∃ c : LRU K V, run capacity ttl calls = some c ∧
      Becomes (newLRU capacity ttl) c (recencyRun capacity ttl calls) := by
  induction calls using List.reverseRecOn with
  | nil => exact ⟨newLRU capacity ttl, rfl, wellFormed_new capacity ttl, rfl, rfl, rfl⟩
  | append_singleton calls call ih =>
    obtain ⟨c, hrun, hwf, hent, hcap, httl⟩ := ih
    have hstep : ∃ c', c.step call = some c' ∧
        Becomes c c' (recencyStep capacity ttl c.entries call) := by
      obtain ⟨now, key | ⟨key, value⟩⟩ := call
      · obtain ⟨c', hc', hbec⟩ := get_refines hwf now key
        refine ⟨c', ?_, hbec⟩
        change (c.get now key).map Prod.fst = some c'
        rw [hc']
        rfl
      · obtain ⟨c', hc', hbec⟩ := put_refines hwf now key value
        rw [hcap, httl] at hbec
        exact ⟨c', hc', hbec⟩
    obtain ⟨c', hc', hwf', hent', hcap', httl'⟩ := hstep
    refine ⟨c', ?_, hwf', ?_, hcap'.trans hcap, httl'.trans httl⟩
    · rw [run] at hrun ⊢
      rw [List.foldlM_append, hrun]
      simp [hc']
    · rw [hent', hent, recencyRun, recencyRun, List.foldl_append]
      rfl

/-- The cache answers as the recency list does; its map and its list hold the same keys, each once
and within the capacity, and a hit is the value that was put last. -/
theorem lru_refines_recency (capacity ttl : Int) (hcap : 1 ≤ capacity)
    (calls : List (Int × Call K V)) :
    ∃ c : LRU K V, run capacity ttl calls = some c ∧
      c.entries = recencyRun capacity ttl calls ∧
      (∀ now key, ∃ c', c.get now key =
        some (c', (recencyGet now key (recencyRun capacity ttl calls)).2)) ∧
      c.order.Nodup ∧ (c.entries.map Entry.key).Nodup ∧ c.entries.length = c.order.length ∧
      (∀ key, (c.items key).isSome ↔ key ∈ c.entries.map Entry.key) ∧
      (c.order.length : Int) ≤ capacity ∧
      ∀ now key c' value, c.get now key = some (c', some value) →
        lastPut key calls = some value := by
  obtain ⟨c, hrun, hwf, hent, -, -⟩ := run_becomes capacity ttl calls
  refine ⟨c, hrun, hent, ?_, hwf.nodup, hwf.nodup_keys, hwf.length_entries, ?_, ?_, ?_⟩
  · intro now key
    obtain ⟨c', hget, -⟩ := get_refines hwf now key
    rw [hent] at hget
    exact ⟨c', hget⟩
  · intro key
    rw [List.mem_map, Option.isSome_iff_exists]
    constructor
    · rintro ⟨elem, helem⟩
      obtain ⟨-, e, he, rfl⟩ := hwf.pointed _ _ helem
      exact ⟨e, hwf.mem_entries.mpr ⟨elem, helem, he⟩, rfl⟩
    · rintro ⟨e, he, rfl⟩
      obtain ⟨elem, helem, -⟩ := hwf.mem_entries.mp he
      exact ⟨elem, helem⟩
  · rw [← hwf.length_entries, hent]
    exact length_recencyRun hcap calls
  · intro now key c' value hget
    obtain ⟨c'', hget', -⟩ := get_refines hwf now key
    rw [hget', hent, Option.some.injEq, Prod.mk.injEq] at hget
    obtain ⟨e, he, rfl, rfl⟩ := recencyGet_hit hget.2
    exact recencyRun_lastPut calls e he

def twoPuts : List (Int × Call Nat String) := [(0, .put 1 "a"), (1, .put 2 "b")]

theorem lru_refines_recency_two : (1 : Int) ≤ 1 ∧ ∃ c : LRU Nat String,
    run 1 10 twoPuts = some c ∧ c.entries = recencyRun 1 10 twoPuts ∧
      (c.order.length : Int) ≤ 1 := by
  obtain ⟨c, hrun, hent, -, -, -, -, -, hlen, -⟩ :=
    lru_refines_recency 1 10 (by decide) twoPuts
  exact ⟨by decide, c, hrun, hent, hlen⟩

end Cache

end MultichainIndexer
