import MultichainIndexer.Normalizer.Balance

/-!
# Texts under the ids of events

The id of a canonical event is the hash of a text in which path, actor, asset and
activity stand between bars. Texts of one transaction that agree have the same
path, if no path contains a bar, and the same activity. Where the hash tells the
texts of a transaction apart, the canonical events add up to what the events
before the choice add up to, unless two events of one text both count.
-/

namespace MultichainIndexer

open Text BestOf SumWhere

/-- The hash tells the texts of a list apart. -/
def CollisionFree (hash : String → String) (texts : List String) : Prop :=
  ∀ s ∈ texts, ∀ t ∈ texts, hash s = hash t → s = t

theorem CollisionFree.left {hash : String → String} {l l' : List String}
    (h : CollisionFree hash (l ++ l')) : CollisionFree hash l :=
  fun s hs t ht => h s (List.mem_append_left _ hs) t (List.mem_append_left _ ht)

theorem CollisionFree.swap {hash : String → String} {l l' : List String}
    (h : CollisionFree hash (l ++ l')) : CollisionFree hash (l' ++ l) := by
  intro s hs t ht
  rw [List.mem_append, or_comm, ← List.mem_append] at hs ht
  exact h s hs t ht

theorem ActivityType.text_injective {a b : ActivityType} (h : a.text = b.text) : a = b := by
  have hread : ∀ a : ActivityType, [.deposit, .withdrawal, .stake, .unstake, .claimReward, .fee,
      .feeExecutionL2, .feeDataL1, .swap, .mint, .burn, .other, .selfTransfer].find?
        (fun b : ActivityType => b.text = a.text) = some a := by
    intro a
    cases a
    all_goals decide
  have ha := hread a
  rw [h, hread b] at ha
  exact (Option.some.inj ha).symm

theorem ActivityType.bar_not_mem (activity : ActivityType) :
    '|' ∉ "activity=".toList ++ activity.text.toList := by
  cases activity
  all_goals decide

namespace Normalizer

/-- A path that is neither empty nor has blanks or bars. -/
def PlainPath (path : String) : Prop := path ≠ "" ∧ ∀ c ∈ path.toList, isSpace c = false ∧ c ≠ '|'

theorem PlainPath.trimSpace {path : String} (h : PlainPath path) : Text.trimSpace path = path :=
  trimSpace_of_forall fun c hc => (h.2 c hc).1

def headFields (chain : Chain) (network : Network) (txHash : String) : List (List Char) :=
  ["chain=".toList ++ chain.text.toList, "network=".toList ++ network.text.toList,
    "tx=".toList ++ (canonicalTxHash chain txHash).toList]

def tailFields (actor asset : String) (activity : ActivityType) : List (List Char) :=
  ["actor=".toList ++ actor.toList, "asset=".toList ++ asset.toList,
    "activity=".toList ++ activity.text.toList]

theorem canonicalEventText_fields (chain : Chain) (network : Network)
    (txHash path actor asset : String) (activity : ActivityType) :
    (canonicalEventText chain network txHash path actor asset activity).toList =
      headed '|' (headFields chain network txHash)
        (tailed '|' ("path=".toList ++ path.toList) (tailFields actor asset activity)) := by
  have htext : canonicalEventText chain network txHash path actor asset activity =
      "chain=" ++ chain.text ++ "|network=" ++ network.text ++ "|tx=" ++
        canonicalTxHash chain txHash ++ "|path=" ++ path ++ "|actor=" ++ actor ++ "|asset=" ++
        asset ++ "|activity=" ++ activity.text := rfl
  rw [htext]
  unfold headFields tailFields
  generalize canonicalTxHash chain txHash = tx
  simp [headed, tailed]

theorem label_append_inj {label : List Char} {s t : String}
    (h : label ++ s.toList = label ++ t.toList) : s = t :=
  String.toList_injective (List.append_cancel_left h)

theorem toList_sep (c : Char) (s : String) :
    (String.singleton c ++ s).toList = c :: s.toList := by
  rw [String.toList_append, String.toList_singleton, List.singleton_append]

section Text
variable {chain : Chain} {network : Network} {txHash path path' actor actor' asset asset' : String}
variable {activity activity' : ActivityType}
variable (h : canonicalEventText chain network txHash path actor asset activity =
  canonicalEventText chain network txHash path' actor' asset' activity')
include h

theorem canonicalEventText_rest :
    tailed '|' ("path=".toList ++ path.toList) (tailFields actor asset activity) =
      tailed '|' ("path=".toList ++ path'.toList) (tailFields actor' asset' activity') := by
  have hlist := congrArg String.toList h
  rw [canonicalEventText_fields, canonicalEventText_fields] at hlist
  unfold headed headFields at hlist
  simpa only [List.foldr_cons, List.foldr_nil, List.append_cancel_left_eq, List.cons.injEq,
    true_and] using hlist

theorem canonicalEventText_path (hp : PlainPath path) (hp' : PlainPath path') : path = path' := by
  have hbar : ∀ path, PlainPath path → '|' ∉ "path=".toList ++ path.toList := by
    intro path hpath hc
    rcases List.mem_append.mp hc with hc | hc
    · exact absurd hc (by decide)
    · exact (hpath.2 _ hc).2 rfl
  have hrest := canonicalEventText_rest h
  simp only [tailed, tailFields, List.foldl_cons, List.foldl_nil, List.append_assoc,
    List.cons_append] at hrest
  rw [← List.append_assoc, ← List.append_assoc] at hrest
  exact label_append_inj (append_sep_inj (hbar path hp) (hbar path' hp') hrest).1

-- the activity stands last, so it is read from the end
theorem canonicalEventText_activity : activity = activity' := by
  have hrest := canonicalEventText_rest h
  have hlast := (append_sep_inj_last activity.bar_not_mem activity'.bar_not_mem hrest).2
  exact ActivityType.text_injective (label_append_inj hlast)

end Text

theorem sumWhere_sorted_keep {replaces : NormalizedBalanceEvent → NormalizedBalanceEvent → Bool}
    {p : NormalizedBalanceEvent → Bool} {val : NormalizedBalanceEvent → Int}
    {events : List NormalizedBalanceEvent}
    (h : events.Pairwise fun a b => a.eventID = b.eventID →
      (p a = true → val a = 0) ∧ (p b = true → val b = 0)) :
    sumWhere p val (sortByEventID (keep NormalizedBalanceEvent.eventID replaces events)) =
      sumWhere p val events := by
  have hperm : (sortByEventID (keep NormalizedBalanceEvent.eventID replaces events)).Perm
      (keep NormalizedBalanceEvent.eventID replaces events) := List.perm_insertionSort _ _
  rw [sumWhere_perm p val hperm, sumWhere_keep h]

end Normalizer

end MultichainIndexer
