import Mathlib.Data.List.Sort

/-!
# Keyset pagination

A reader fetches the rows in the order of their identity, a page at a time:
each page holds the first `limit` rows past the last identity read, and a page
that is not full ends the loop. With distinct identities above the start the
pages together hold every row once.
-/

namespace Page

universe u
variable {α : Type u} (ident : α → Nat)

/-- `SELECT … WHERE ident > after ORDER BY ident LIMIT limit`. -/
def pageAfter (rows : List α) (after limit : Nat) : List α :=
  ((rows.filter fun r => decide (after < ident r)).insertionSort
    fun a b => ident a ≤ ident b).take limit

/-- The loop over the pages; it ends at the first page that is not full. -/
def fetchPages (rows : List α) (limit : Nat) : Nat → Nat → List α
  | 0, _ => []
  | fuel + 1, after =>
    let batch := pageAfter ident rows after limit
    if batch.length < limit then batch
    else
      match batch.getLast? with
      | none => batch
      | some r => batch ++ fetchPages rows limit fuel (ident r)

/-- The same loop; `none` is a loop that has not ended after `fuel` pages. -/
def readPages (rows : List α) (limit : Nat) : Nat → Nat → Option (List α)
  | 0, _ => none
  | fuel + 1, after =>
    let batch := pageAfter ident rows after limit
    if batch.length < limit then some batch
    else batch.getLast?.bind fun r => (readPages rows limit fuel (ident r)).map (batch ++ ·)

variable {ident}

variable {r : α} {after limit : Nat} {rows : List α}

theorem filter_gt_eq_drop {l : List α} (hs : l.Pairwise fun a b => ident a < ident b) {n : Nat}
    (hr : l[n]? = some r) : (l.filter fun a => decide (ident r < ident a)) = l.drop (n + 1) := by
  induction l generalizing n with
  | nil => simp at hr
  | cons a l ih =>
    obtain ⟨ha, hl⟩ := List.pairwise_cons.mp hs
    cases n with
    | zero =>
      rw [List.getElem?_cons_zero, Option.some.injEq] at hr
      subst hr
      have hall : ∀ b ∈ l, decide (ident a < ident b) = true := by
        intro b hb
        simpa using ha b hb
      simp [List.filter_eq_self.mpr hall]
    | succ n =>
      rw [List.getElem?_cons_succ] at hr
      have hlt : ident a < ident r := ha r (List.mem_of_getElem? hr)
      have hna : ¬ ident r < ident a := by omega
      rw [List.filter_cons, if_neg (by simpa using hna), ih hl hr]
      rfl

theorem sorted_strict {l : List α} (hs : l.Pairwise fun a b => ident a ≤ ident b)
    (hd : l.Pairwise fun a b => ident a ≠ ident b) : l.Pairwise fun a b => ident a < ident b := by
  refine (hs.and hd).imp ?_
  rintro a b ⟨hle, hne⟩
  omega

theorem after_lt_getLast (h : (pageAfter ident rows after limit).getLast? = some r) :
    r ∈ rows ∧ after < ident r := by
  have hmem := List.mem_of_mem_take (List.mem_of_getLast? h)
  obtain ⟨hrow, hlt⟩ := List.mem_filter.mp ((List.perm_insertionSort _ _).subset hmem)
  exact ⟨hrow, of_decide_eq_true hlt⟩

theorem filter_past (rows : List α) (hlt : after < ident r) :
    (rows.filter fun a => decide (ident r < ident a)) =
      (rows.filter fun a => decide (after < ident a)).filter
        fun a => decide (ident r < ident a) := by
  rw [List.filter_filter]
  apply List.filter_congr
  intro a _
  by_cases h : ident r < ident a
  · have : after < ident a := by omega
    simp [h, this]
  · simp [h]

theorem length_past_lt (hr : r ∈ rows) (hlt : after < ident r) :
    (rows.filter fun a => decide (ident r < ident a)).length <
      (rows.filter fun a => decide (after < ident a)).length := by
  rw [filter_past rows hlt]
  apply List.length_filter_lt_length_iff_exists.mpr
  exact ⟨r, List.mem_filter.mpr ⟨hr, decide_eq_true hlt⟩, by simp⟩

theorem readPages_eq (hlimit : 0 < limit) (fuel after : Nat)
    (hfuel : (rows.filter fun r => decide (after < ident r)).length < fuel) :
    readPages ident rows limit fuel after = some (fetchPages ident rows limit fuel after) := by
  induction fuel generalizing after with
  | zero => omega
  | succ fuel ih =>
    unfold readPages fetchPages
    dsimp only
    split
    · rfl
    · rename_i hfull
      cases hlast : (pageAfter ident rows after limit).getLast? with
      | none =>
        rw [List.getLast?_eq_none_iff.mp hlast, List.length_nil] at hfull
        omega
      | some r =>
        obtain ⟨hr, hlt⟩ := after_lt_getLast hlast
        have hless := length_past_lt hr hlt
        rw [Option.bind_some, ih (ident r) (by omega)]
        rfl

/-- The pages past `after` hold the rows past `after`, each once. -/
theorem fetchPages_perm (hd : rows.Pairwise fun a b => ident a ≠ ident b) (hlimit : 0 < limit)
    (fuel after : Nat) (hfuel : (rows.filter fun r => decide (after < ident r)).length < fuel) :
    (fetchPages ident rows limit fuel after).Perm
      (rows.filter fun r => decide (after < ident r)) := by
  induction fuel generalizing after with
  | zero => omega
  | succ fuel ih =>
    set R := rows.filter fun r => decide (after < ident r) with hR
    set S := R.insertionSort fun a b => ident a ≤ ident b with hS
    have hperm : S.Perm R := List.perm_insertionSort _ R
    have hsym : ∀ {a b : α}, ident a ≠ ident b → ident b ≠ ident a := fun h => h.symm
    have hle : S.Pairwise fun a b => ident a ≤ ident b := by
      have : Std.Total fun a b : α => ident a ≤ ident b := ⟨fun a b => Nat.le_total _ _⟩
      have : IsTrans α fun a b : α => ident a ≤ ident b := ⟨fun _ _ _ => Nat.le_trans⟩
      exact List.pairwise_insertionSort _ R
    have hstr := sorted_strict hle ((hd.filter _).perm hperm.symm hsym)
    have hbatch : pageAfter ident rows after limit = S.take limit := rfl
    unfold fetchPages
    rw [hbatch]
    simp only
    split
    · rename_i hlt
      rw [List.length_take] at hlt
      rw [List.take_of_length_le (by omega)]
      exact hperm
    · rename_i hfull
      rw [List.length_take] at hfull
      have hlen : limit ≤ S.length := by omega
      obtain ⟨m, rfl⟩ : ∃ m, limit = m + 1 := ⟨limit - 1, by omega⟩
      obtain ⟨x, hx⟩ : ∃ x, S[m]? = some x := ⟨_, List.getElem?_eq_getElem (by omega)⟩
      have hget : (S.take (m + 1)).getLast? = some x := by
        rw [List.getLast?_eq_getElem?, List.length_take, Nat.min_eq_left hlen,
          List.getElem?_take_of_lt (by omega)]
        exact hx
      rw [hget]
      simp only
      obtain ⟨hrow, hafter⟩ := after_lt_getLast hget
      -- the rows past the last one read are the rest of the sorted rows
      have hrest : (rows.filter fun r => decide (ident x < ident r)).Perm (S.drop (m + 1)) := by
        rw [← filter_gt_eq_drop hstr hx, filter_past rows hafter]
        exact (hperm.filter _).symm
      have hshort := length_past_lt hrow hafter
      rw [← hR] at hshort
      have hall := ((ih (ident x) (by omega)).trans hrest).append_left (S.take (m + 1))
      rw [List.take_append_drop] at hall
      exact hall.trans hperm

end Page
