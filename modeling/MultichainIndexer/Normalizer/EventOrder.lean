import MultichainIndexer.Lib.LexChoice
import MultichainIndexer.Normalizer.EventText

/-!
# Canonical events and the order of the decoded ones

What is seen of a canonical event are its id, the number its delta stands for and
its activity. Among deltas that are numbers the last step of the choice is the
order of the numbers. The delta of a fee is a minus sign before digits, or, where
the amount has two signs, before a second sign; that one is no number, and it
comes before those that are.
-/

namespace MultichainIndexer

open Text BestOf

namespace Normalizer

def numericDelta (be : NormalizedBalanceEvent) : Option Int := parseInt (trimSpace be.delta)

def eventView (be : NormalizedBalanceEvent) : String × Option Int × ActivityType :=
  (be.eventID, numericDelta be, be.activityType)

theorem eventView_eq_iff {a b : NormalizedBalanceEvent} : eventView a = eventView b ↔
    a.eventID = b.eventID ∧ numericDelta a = numericDelta b ∧ a.activityType = b.activityType := by
  unfold eventView
  rw [Prod.mk.injEq, Prod.mk.injEq]

/-- The delta of a decoded event is a decimal integer. -/
def BalanceEventInfo.IsNumber (be : BalanceEventInfo) : Prop :=
  (parseInt (trimSpace be.delta)).isSome = true

instance (be : BalanceEventInfo) : Decidable (BalanceEventInfo.IsNumber be) :=
  inferInstanceAs (Decidable (_ = true))

section FeeDelta

theorem dropSign_digits {s : String} {n : Int} (h : parseInt s = some n) :
    (dropSign s).toList ≠ [] ∧ (dropSign s).toList.all Char.isDigit = true := by
  have hdig : ∀ {l : List Char} {m : Nat}, parseDigits l = some m →
      l ≠ [] ∧ l.all Char.isDigit = true := by
    intro l m hl
    unfold parseDigits at hl
    split at hl
    · rename_i hcond
      exact hcond
    · cases hl
  unfold parseInt at h
  unfold dropSign
  split at h
  · rename_i l hl
    obtain ⟨m, hm, -⟩ := Option.map_eq_some_iff.mp h
    rw [hl]
    simp only [String.toList_ofList]
    exact hdig hm
  · rename_i l hl
    obtain ⟨m, hm, -⟩ := Option.map_eq_some_iff.mp h
    rw [hl]
    simp only [String.toList_ofList]
    exact hdig hm
  · obtain ⟨m, hm, -⟩ := Option.map_eq_some_iff.mp h
    split
    · rename_i hplus _ _ hl
      exact absurd hl (hplus _)
    · rename_i hminus _ _ _ hl
      exact absurd hl (hminus _)
    · exact hdig hm

/-- A minus sign stands before digits, or before a second sign if the amount is no number. -/
theorem canonicalFeeDelta_shape (amount : String) : ∃ c t,
    (canonicalFeeDelta amount).toList = '-' :: c :: t ∧ (∀ d ∈ t, d.isDigit = true) ∧
      (c.isDigit = true ∨ c = '-' ∧ parseInt (trimSpace amount) = none) := by
  have hzero : ∃ c t, "-0".toList = '-' :: c :: t ∧ (∀ d ∈ t, d.isDigit = true) ∧
      (c.isDigit = true ∨ c = '-' ∧ parseInt (trimSpace amount) = none) :=
    ⟨'0', [], by decide, nofun, .inl (by decide)⟩
  have hminus : ∀ s : String, ("-" ++ s).toList = '-' :: s.toList := fun s => by
    rw [String.toList_append]
    rfl
  have hnat : ∀ n : Nat, ∃ c t, (toString (n : Int)).toList = c :: t ∧ ∀ d ∈ c :: t, d.isDigit = true := by
    intro n
    have hs : (toString (n : Int)).toList = Nat.toDigits 10 n := Nat.toList_repr
    cases hd : Nat.toDigits 10 n with
    | nil => exact absurd hd Nat.toDigits_ne_nil
    | cons c t =>
      refine ⟨c, t, hs.trans hd, fun d hmem => ?_⟩
      rw [← hd] at hmem
      exact Nat.isDigit_of_mem_toDigits (by omega) (by omega) hmem
  unfold canonicalFeeDelta
  extract_lets clean trimmed
  split
  · exact hzero
  · split
    · exact hzero
    · rename_i hne
      split
      · rename_i hall
        rw [hminus]
        cases hl : trimmed.toList with
        | nil =>
          simp only [Bool.or_eq_true, decide_eq_true_eq, not_or] at hne
          exact absurd (String.toList_injective hl) hne.1
        | cons c t =>
          rw [hl, List.all_eq_true] at hall
          exact ⟨c, t, rfl, (List.forall_mem_cons.mp hall).2,
            .inl (hall c List.mem_cons_self)⟩
      · rename_i hall
        have hno : parseInt (trimSpace amount) = none :=
          Option.eq_none_iff_forall_ne_some.mpr fun n hn => hall (dropSign_digits hn).2
        split
        · exact hzero
        · rename_i v _
          split
          · exact hzero
          · rename_i hv
            rw [hminus]
            rcases Int.lt_or_gt_of_ne hv with hneg | hpos
            · obtain ⟨c, t, hct, hdigit⟩ := hnat v.natAbs
              have htext : toString v = "-" ++ toString (v.natAbs : Int) :=
                (congrArg toString (by omega : v = -(v.natAbs : Int))).trans
                  (toString_neg_of_pos (by omega))
              rw [htext, hminus, hct]
              exact ⟨'-', c :: t, rfl, hdigit, .inr ⟨rfl, hno⟩⟩
            · obtain ⟨c, t, hct, hdigit⟩ := hnat v.natAbs
              have htext : toString v = toString (v.natAbs : Int) :=
                congrArg toString (by omega : v = (v.natAbs : Int))
              rw [htext, hct]
              exact ⟨c, t, rfl, (List.forall_mem_cons.mp hdigit).2,
                .inl (hdigit c List.mem_cons_self)⟩

theorem trimSpace_canonicalFeeDelta (amount : String) :
    trimSpace (canonicalFeeDelta amount) = canonicalFeeDelta amount := by
  obtain ⟨c, t, hct, ht, hc⟩ := canonicalFeeDelta_shape amount
  apply trimSpace_of_forall
  rw [hct]
  intro d hd
  apply isSpace_number
  rcases List.mem_cons.mp hd with rfl | hd
  · exact .inr (.inl rfl)
  · rcases List.mem_cons.mp hd with rfl | hd
    · exact hc.imp_right fun h => .inl h.1
    · exact .inl (ht d hd)

/-- The delta of a fee is a number unless a second sign follows the first. -/
theorem parseInt_canonicalFeeDelta (amount : String) {c : Char} {t : List Char}
    (hct : (canonicalFeeDelta amount).toList = '-' :: c :: t) :
    (parseInt (trimSpace (canonicalFeeDelta amount))).isSome = true ↔ c.isDigit = true := by
  obtain ⟨c', t', hct', ht, hc⟩ := canonicalFeeDelta_shape amount
  rw [hct] at hct'
  cases hct'
  rw [trimSpace_canonicalFeeDelta]
  unfold parseInt
  rw [hct]
  simp only [Option.isSome_map]
  unfold parseDigits
  constructor
  · intro h
    split at h
    · rename_i hcond
      exact List.all_eq_true.mp hcond.2 c List.mem_cons_self
    · cases h
  · intro hdigit
    have hall : (c :: t).all Char.isDigit = true := by
      apply List.all_eq_true.mpr
      intro d hd
      rcases List.mem_cons.mp hd with rfl | hd
      · exact hdigit
      · exact ht d hd
    rw [if_pos ⟨List.cons_ne_nil c t, hall⟩]
    rfl

theorem canonicalFeeDelta_isNumber {amount : String}
    (h : (parseInt (trimSpace amount)).isSome = true) :
    (parseInt (trimSpace (canonicalFeeDelta amount))).isSome = true := by
  obtain ⟨c, t, hct, -, hc⟩ := canonicalFeeDelta_shape amount
  refine (parseInt_canonicalFeeDelta amount hct).mpr (hc.resolve_right fun hno => ?_)
  rw [hno.2] at h
  cases h

end FeeDelta

section Ranked
variable {a b : NormalizedBalanceEvent}

def Ranked (a b : NormalizedBalanceEvent) : Prop :=
  decide (compareCanonicalDeltas a.delta b.delta = .gt) =
    numberLess (numericDelta b) (numericDelta a)

theorem ranked_of_numbers (ha : (numericDelta a).isSome = true)
    (hb : (numericDelta b).isSome = true) : Ranked a b := by
  obtain ⟨x, hx⟩ := Option.isSome_iff_exists.mp ha
  obtain ⟨y, hy⟩ := Option.isSome_iff_exists.mp hb
  unfold Ranked
  rw [hx, hy]
  unfold numericDelta at hx hy
  unfold compareCanonicalDeltas
  rw [hx, hy]
  simp only [numberLess, decide_eq_decide]
  exact Int.compare_eq_gt

theorem minus_lt_digit {c : Char} (h : c.isDigit = true) : '-' < c := by
  simp only [Char.isDigit, Bool.and_eq_true, decide_eq_true_eq, ge_iff_le] at h
  have hle := UInt32.le_iff_toNat_le.mp h.1
  refine Char.lt_def.mpr (UInt32.lt_iff_toNat_lt.mpr ?_)
  exact lt_of_lt_of_le (by decide : '-'.val.toNat < '0'.val.toNat) hle

theorem feeDelta_lt {s t : String} (hs : parseInt (trimSpace (canonicalFeeDelta s)) = none)
    (ht : (parseInt (trimSpace (canonicalFeeDelta t))).isSome = true) :
    canonicalFeeDelta s < canonicalFeeDelta t := by
  obtain ⟨c, l, hcl, -, hc⟩ := canonicalFeeDelta_shape s
  obtain ⟨d, m, hdm, -, hd⟩ := canonicalFeeDelta_shape t
  have hdigit := (parseInt_canonicalFeeDelta t hdm).mp ht
  have hminus : c = '-' := by
    rcases hc with hc | hc
    · have := (parseInt_canonicalFeeDelta s hcl).mpr hc
      rw [hs] at this
      cases this
    · exact hc.1
  rw [String.lt_iff, hcl, hdm, hminus]
  exact List.cons_lt_cons_iff.mpr (.inr ⟨rfl, List.cons_lt_cons_iff.mpr (.inl (minus_lt_digit hdigit))⟩)

theorem compare_of_lt {s t : String} (h : s < t) : compare s t = .lt ∧ compare t s = .gt := by
  refine ⟨compareOfLessAndEq_eq_lt.mpr h, ?_⟩
  have hnot : ¬ t < s := String.lt_asymm h
  have hne : ¬ t = s := by
    rintro rfl
    exact hnot h
  exact (if_neg hnot).trans (if_neg hne)

theorem ranked_of_fees {s t : String} (ha : a.delta = canonicalFeeDelta s)
    (hb : b.delta = canonicalFeeDelta t)
    (hsame : numericDelta a = none → numericDelta b = none → a.delta = b.delta) : Ranked a b := by
  have hcom : ¬ ((numericDelta a).isSome = true ∧ (numericDelta b).isSome = true) →
      compareCanonicalDeltas a.delta b.delta = compare (canonicalFeeDelta s) (canonicalFeeDelta t) := by
    intro hno
    unfold compareCanonicalDeltas
    split
    · rename_i x y hx hy
      exact absurd ⟨Option.isSome_iff_exists.mpr ⟨x, hx⟩, Option.isSome_iff_exists.mpr ⟨y, hy⟩⟩ hno
    · rw [ha, hb, trimSpace_canonicalFeeDelta, trimSpace_canonicalFeeDelta]
  have hna : numericDelta a = parseInt (trimSpace (canonicalFeeDelta s)) := by
    rw [numericDelta, ha]
  have hnb : numericDelta b = parseInt (trimSpace (canonicalFeeDelta t)) := by
    rw [numericDelta, hb]
  unfold Ranked
  cases hx : numericDelta a with
  | some x =>
    cases hy : numericDelta b with
    | some y =>
      have hran : Ranked a b := ranked_of_numbers (by rw [hx]; rfl) (by rw [hy]; rfl)
      unfold Ranked at hran
      rw [hran, hx, hy]
    | none =>
      have hlt := feeDelta_lt (hnb.symm.trans hy) (by rw [← hna, hx]; rfl)
      rw [hcom (by rw [hy]; exact fun h => nomatch h.2), (compare_of_lt hlt).2]
      rfl
  | none =>
    rw [hcom (by rw [hx]; exact fun h => nomatch h.1)]
    cases hy : numericDelta b with
    | some y =>
      have hlt := feeDelta_lt (hna.symm.trans hx) (by rw [← hnb, hy]; rfl)
      rw [(compare_of_lt hlt).1]
      rfl
    | none =>
      have hself : compare b.delta b.delta = .eq := Std.ReflCmp.compare_self
      rw [← ha, ← hb, hsame hx hy, hself]
      rfl

/-- An event is a number, or the fee that the normalizer itself adds. -/
def NumberOrFee (fee be : NormalizedBalanceEvent) : Prop :=
  (numericDelta be).isSome = true ∨ be = fee

theorem ranked_of_source (isFee : ActivityType → Bool) {fee e e' : NormalizedBalanceEvent}
    (hfee : isFee fee.activityType = true) (he : NumberOrFee fee e) (he' : NumberOrFee fee e')
    (hact : e.activityType = e'.activityType)
    (ha : a.delta = if isFee e.activityType then canonicalFeeDelta e.delta else e.delta)
    (hb : b.delta = if isFee e'.activityType then canonicalFeeDelta e'.delta else e'.delta) :
    Ranked a b := by
  by_cases hkind : isFee e.activityType = true
  · rw [if_pos hkind] at ha
    rw [if_pos (hact ▸ hkind)] at hb
    -- only the added fee can be no number
    have hadded : ∀ {be c : NormalizedBalanceEvent}, NumberOrFee fee be →
        c.delta = canonicalFeeDelta be.delta → numericDelta c = none → be = fee := by
      intro be c hbe hc hnone
      rcases hbe with hnum | heq
      · have hsome := canonicalFeeDelta_isNumber hnum
        rw [← hc, ← numericDelta, hnone] at hsome
        cases hsome
      · exact heq
    apply ranked_of_fees ha hb
    intro hnone hnone'
    rw [ha, hb, hadded he ha hnone, hadded he' hb hnone']
  · rw [if_neg hkind] at ha
    rw [if_neg (hact ▸ hkind)] at hb
    have hnum : ∀ {be c : NormalizedBalanceEvent}, NumberOrFee fee be →
        ¬ isFee be.activityType = true → c.delta = be.delta → (numericDelta c).isSome = true := by
      intro be c hbe hne hc
      rcases hbe with hnum | rfl
      · rw [numericDelta, hc]
        exact hnum
      · exact absurd hfee hne
    exact ranked_of_numbers (hnum he hkind ha) (hnum he' (hact ▸ hkind) hb)

section Rule
variable {α : Type} {f : α → NormalizedBalanceEvent} {x y : α} {P : α → Prop}

def numberRule (f : α → NormalizedBalanceEvent) : α → α → Bool :=
  lexReplaces (fun a => numericDelta (f a)) numberLess neverReplaces

theorem numberRule_eq (h : Ranked (f x) (f y)) :
    decide (compareCanonicalDeltas (f x).delta (f y).delta = .gt) = numberRule f x y := by
  unfold Ranked at h
  rw [h]
  unfold numberRule lexReplaces
  by_cases heq : numericDelta (f x) = numericDelta (f y)
  · rw [if_neg fun hne => hne heq, heq]
    cases numericDelta (f y) with
    | none => rfl
    | some n => exact decide_eq_false (Int.lt_irrefl n)
  · rw [if_pos heq]

theorem numberRule_consistent : Consistent (numberRule f) P :=
  Consistent.lex strictTotal_number fun _ => consistent_never

theorem numberRule_tie (hxy : numberRule f x y = false) (hyx : numberRule f y x = false) :
    numericDelta (f x) = numericDelta (f y) :=
  (lexReplaces_tie strictTotal_number hxy hyx).1

end Rule

theorem compareFinalityStateStrength_self (state : String) :
    compareFinalityStateStrength state state = .eq := by
  have hrank : compare (finalityStateRank state) (finalityStateRank state) = .eq :=
    Std.ReflCmp.compare_self
  have htext : compare (canonicalizeFinalityState state) (canonicalizeFinalityState state) = .eq :=
    Std.ReflCmp.compare_self
  rw [compareFinalityStateStrength, hrank, htext]
  rfl

end Ranked

section Sorted

instance : Std.Total fun a b : NormalizedBalanceEvent => a.eventID ≤ b.eventID :=
  ⟨fun a b => String.le_total a.eventID b.eventID⟩

instance : IsTrans NormalizedBalanceEvent fun a b => a.eventID ≤ b.eventID :=
  ⟨fun _ _ _ hab hbc => String.le_trans hab hbc⟩

theorem perm_sortByEventID (events : List NormalizedBalanceEvent) :
    (sortByEventID events).Perm events := List.perm_insertionSort _ _

theorem pairwise_sortByEventID (events : List NormalizedBalanceEvent) :
    (sortByEventID events).Pairwise fun a b => a.eventID ≤ b.eventID :=
  List.pairwise_insertionSort _ _

theorem sortByEventID_view {events events' : List NormalizedBalanceEvent}
    (hperm : (events.map eventView).Perm (events'.map eventView))
    (hnodup : (events.map NormalizedBalanceEvent.eventID).Nodup) :
    (sortByEventID events).map eventView = (sortByEventID events').map eventView := by
  have hsor : ∀ l : List NormalizedBalanceEvent, ((sortByEventID l).map eventView).Pairwise
      fun v w => v.1 ≤ w.1 := fun l => List.pairwise_map.mpr (pairwise_sortByEventID l)
  have hsame : ((sortByEventID events).map eventView).Perm ((sortByEventID events').map eventView) :=
    (((perm_sortByEventID events).map eventView).trans hperm).trans
      ((perm_sortByEventID events').map eventView).symm
  refine List.Perm.eq_of_pairwise ?_ (hsor events) (hsor events') hsame
  intro v w hv hw hvw hwv
  have hseen := ((perm_sortByEventID events).map eventView)
  obtain ⟨a, ha, rfl⟩ := List.mem_map.mp (hseen.mem_iff.mp hv)
  obtain ⟨b, hb, rfl⟩ := List.mem_map.mp (hseen.mem_iff.mp (hsame.mem_iff.mpr hw))
  rw [List.inj_on_of_nodup_map hnodup ha hb (String.le_antisymm hvw hwv)]

theorem ascending_sortByEventID {events : List NormalizedBalanceEvent}
    (hnodup : (events.map NormalizedBalanceEvent.eventID).Nodup) :
    ((sortByEventID events).map NormalizedBalanceEvent.eventID).Pairwise (· < ·) := by
  have hne := ((perm_sortByEventID events).map NormalizedBalanceEvent.eventID).nodup_iff.mpr hnodup
  refine (List.Pairwise.and (List.pairwise_map.mpr (pairwise_sortByEventID events)) hne).imp ?_
  intro id id' h
  apply Classical.byContradiction
  intro hnot
  exact h.2 (String.le_antisymm h.1 (String.not_lt.mp hnot))

end Sorted

section Raw
variable {rawEvents rawEvents' : List BalanceEventInfo} (hperm : rawEvents.Perm rawEvents')
include hperm

theorem buildRawBalanceEventsMulti_perm (watchedAddresses : List String) (handleSelfTransfer : Bool) :
    (buildRawBalanceEventsMulti rawEvents watchedAddresses handleSelfTransfer).Perm
      (buildRawBalanceEventsMulti rawEvents' watchedAddresses handleSelfTransfer) :=
  (hperm.filter _).map _

end Raw

theorem numericDelta_normalizeRaw (handleSelfTransfer : Bool) {be : BalanceEventInfo}
    (h : BalanceEventInfo.IsNumber be) :
    (numericDelta (normalizeRaw handleSelfTransfer be)).isSome = true := by
  unfold normalizeRaw
  split
  · have hzero : (parseInt (trimSpace "0")).isSome = true := by decide
    exact hzero
  · exact h

end Normalizer

end MultichainIndexer
