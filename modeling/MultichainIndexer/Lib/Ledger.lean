import MultichainIndexer.Lib.SumWhere

/-!
# Ledgers

A ledger files events under accounts. An event counts once it is applied, and
the total of an account is the sum of the values of its applied events. What
deleting events and applying pending ones does to the totals is settled here,
so that a store of balances is right when it moves by the same amounts.
-/

namespace Ledger

open SumWhere

universe u v w
variable {α : Type u} {κ : Type v} {G : Type w}

structure Book (α : Type u) (κ : Type v) (G : Type w) where
  applied : α → Bool
  account : α → κ
  value : α → G

variable [DecidableEq κ]

def Book.entries (L : Book α κ G) (p : α → Bool) (events : List α) (a : κ) : List α :=
  events.filter fun e => p e && decide (L.account e = a)

theorem Book.entries_cons (L : Book α κ G) (p : α → Bool) (e : α) (events : List α) (a : κ) :
    L.entries p (e :: events) a = if p e && decide (L.account e = a) then
      e :: L.entries p events a else L.entries p events a :=
  List.filter_cons

def Book.total [AddCommMonoid G] (L : Book α κ G) (events : List α) (a : κ) : G :=
  sumWhere (fun e => L.applied e && decide (L.account e = a)) L.value events

section Monoid
variable [AddCommMonoid G] (L : Book α κ G)

theorem total_eq_entries (events : List α) (a : κ) :
    L.total events a = ((L.entries L.applied events a).map L.value).sum := by
  unfold Book.total Book.entries
  induction events with
  | nil => rfl
  | cons e l ih =>
    rw [sumWhere_cons, ih, List.filter_cons]
    split
    · rename_i h
      simp
    · rename_i h
      simp

theorem total_append (l m : List α) (a : κ) : L.total (l ++ m) a = L.total l a + L.total m a :=
  sumWhere_append _ _ _ _

theorem total_split (p : α → Bool) (events : List α) (a : κ) :
    L.total events a =
      L.total (events.filter p) a + L.total (events.filter fun e => !p e) a :=
  sumWhere_split _ _ _ _

end Monoid

end Ledger
