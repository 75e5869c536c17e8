import MultichainIndexer.Ingester.BuildFacts
import MultichainIndexer.Store.EventRepo

/-!
# What the written events add to the ledger

The event upsert inserts a new event, brings a stored one to a later finality
state, or leaves it alone. `CountsOnce` says of an applied event that the row it
finds, if any, is the same movement and still pending. Events of which this
holds add their values to the totals of the ledger, each once.
-/

namespace MultichainIndexer

open Relational SumWhere

/-- A stored row that an applied event settles: pending, and the same movement. -/
structure Settles (b : BalanceKind) (r : BalanceEventRow) (v : EventValues) : Prop where
  pending : r.balanceApplied = false
  account : r.account = v.event.account
  delta : r.delta = v.delta
  counts : b.counts r.activityType = b.counts v.event.activityType
  rank : finalityRank r.finalityState ≤ finalityRank v.event.finalityState

def CountsOnce (b : BalanceKind) (t : BalanceEvents) (v : EventValues) : Prop :=
  v.event.balanceApplied = true → ∀ k, v.eventKey = some k →
    ∀ r ∈ t.rows, r.eventKey = some k → Settles b r v

def EventValues.adds (b : BalanceKind) (a : Account) (v : EventValues) : Int :=
  if v.event.posts b && decide (v.event.account = a) then b.signed v.delta else 0

theorem merge_applied (r : BalanceEventRow) (v : EventValues) :
    (r.merge v).balanceApplied = (v.event.balanceApplied || r.balanceApplied) := by
  show (if v.event.balanceApplied && !r.balanceApplied then true else r.balanceApplied) = _
  cases v.event.balanceApplied <;> cases r.balanceApplied <;> rfl

section One
variable {b : BalanceKind} {t t' : BalanceEvents} {v : EventValues}

theorem total_fresh (rows : List BalanceEventRow) (a : Account) :
    b.book.total [eventUpsert.fresh rows v] a = v.adds b a := by
  unfold Ledger.Book.total
  rw [sumWhere_cons, sumWhere_nil, Int.add_zero]
  rfl

theorem total_applyAt {k : String} {r : BalanceEventRow} (hr : r ∈ t.rows)
    (hk : r.eventKey = some k) (a : Account) :
    b.book.total (t.rows.map (eventUpsert.applyAt k v)) a =
      b.book.total t.rows a + (b.book.total [r.merge v] a - b.book.total [r] a) := by
  have hone : t.rows.Pairwise fun x y =>
      ¬ (decide (x.eventKey = some k) = true ∧ decide (y.eventKey = some k) = true) := by
    refine t.unique.imp fun hxy hboth => hxy ?_
    obtain ⟨hx, hy⟩ := hboth
    rw [decide_eq_true_eq] at hx hy
    exact .inr ⟨by rw [hx]; rfl, hx.trans hy.symm⟩
  have hmap : t.rows.map (eventUpsert.applyAt k v) =
      t.rows.map fun x => if decide (x.eventKey = some k) then x.merge v else x := by
    refine List.map_congr_left fun x _ => ?_
    simp only [decide_eq_true_eq]
    rfl
  unfold Ledger.Book.total
  rw [hmap, sumWhere_replace hr (by rw [decide_eq_true_eq]; exact hk) hone]
  simp

theorem total_merge {r : BalanceEventRow}
    (h : v.event.balanceApplied = true → Settles b r v) (a : Account) :
    b.book.total [r.merge v] a - b.book.total [r] a = v.adds b a := by
  have hmerge : b.book.total [r.merge v] a =
      if ((v.event.balanceApplied || r.balanceApplied) && b.counts r.activityType) &&
        decide (r.account = a) then b.signed r.delta else 0 := by
    unfold Ledger.Book.total
    rw [sumWhere_cons, sumWhere_nil, Int.add_zero, ← merge_applied]
    rfl
  have hrow : b.book.total [r] a = if (r.balanceApplied && b.counts r.activityType) &&
      decide (r.account = a) then b.signed r.delta else 0 := by
    unfold Ledger.Book.total
    rw [sumWhere_cons, sumWhere_nil, Int.add_zero]
    rfl
  rw [hmerge, hrow]
  unfold EventValues.adds BalanceEvent.posts
  cases happ : v.event.balanceApplied with
  | false => simp
  | true =>
    obtain ⟨hpen, hacc, hdelta, hcou, _⟩ := h happ
    simp [hpen, hacc, hdelta, hcou]

theorem wrote_total (h : eventUpsert.Wrote t v t') (hv : CountsOnce b t v) (a : Account) :
    b.book.total t'.rows a = b.book.total t.rows a + v.adds b a := by
  cases h with
  | inserted _ hrows => rw [hrows, Ledger.total_append, total_fresh]
  | @updated k r hitem hr hkey _ hrows =>
    rw [hrows, total_applyAt hr hkey, total_merge fun happ => hv happ k hitem r hr hkey]
  | @rejected k r hitem hr hkey hadm hrows =>
    have happ : v.event.balanceApplied = false := by
      by_contra happ
      have hrank := (hv (by simpa using happ) k hitem r hr hkey).rank
      rw [eventUpsert_admits, decide_eq_false_iff_not] at hadm
      exact hadm hrank
    rw [hrows]
    simp [EventValues.adds, BalanceEvent.posts, happ]

theorem wrote_countsOnce {w : EventValues} (h : eventUpsert.Wrote t v t')
    (hne : ∀ k, v.eventKey = some k → w.eventKey ≠ some k) (hw : CountsOnce b t w) :
    CountsOnce b t' w := by
  intro happ k hk r hr hrk
  cases h with
  | inserted _ hrows =>
    rw [hrows] at hr
    rcases List.mem_append.mp hr with hr | hr
    · exact hw happ k hk r hr hrk
    · rw [List.mem_singleton.mp hr] at hrk
      exact absurd hk (hne k hrk)
  | @updated k' s hitem _ _ _ hrows =>
    rw [hrows] at hr
    obtain ⟨x, hx, rfl⟩ := List.mem_map.mp hr
    have hrk : x.eventKey = some k := (eventUpsert.key_applyAt k' v x).symm.trans hrk
    have hother : x.eventKey ≠ some k' := by
      intro hx'
      exact hne k' hitem (hk.trans (hrk.symm.trans hx'))
    have hsame : eventUpsert.applyAt k' v x = x := if_neg hother
    rw [hsame]
    exact hw happ k hk x hx hrk
  | rejected _ _ _ _ hrows =>
    rw [hrows] at hr
    exact hw happ k hk r hr hrk

end One

theorem wroteAll_total {b : BalanceKind} {vs : List EventValues} {t t' : BalanceEvents}
    (h : eventUpsert.WroteAll t vs t')
    (hdis : vs.Pairwise fun v w => ∀ k, v.eventKey = some k → w.eventKey ≠ some k)
    (hvs : ∀ v ∈ vs, CountsOnce b t v) (a : Account) :
    b.book.total t'.rows a = b.book.total t.rows a + (vs.map (EventValues.adds b a)).sum := by
  induction vs generalizing t with
  | nil =>
    have hrows : t'.rows = t.rows := h
    rw [hrows]
    simp
  | cons v vs ih =>
    obtain ⟨u, hu, hrest⟩ := h
    obtain ⟨hv, hdis⟩ := List.pairwise_cons.mp hdis
    have htotal := ih hrest hdis fun w hw =>
      wrote_countsOnce hu (hv w hw) (hvs w (List.mem_cons_of_mem v hw))
    rw [htotal, wrote_total hu (hvs v List.mem_cons_self), List.map_cons, List.sum_cons, add_assoc]

end MultichainIndexer
