import MultichainIndexer.Lib.Js
import MultichainIndexer.Normalizer.Response

/-!
# The scam check of Solana token events

The map keeps one balance before and one after the transaction for each owner and
mint, the last one listed. An event is compared with these two, whatever other
accounts the owner has and whatever other events of the transaction did before.
Where no owner and mint are listed twice and nothing that came in goes out again,
the two balances stand for the running total.
-/

namespace MultichainIndexer

open SumWhere

namespace Sidecar

/-- An entry of `preTokenBalances` or `postTokenBalances`; the amount is that of
`uiTokenAmount`. -/
structure TokenBalance where
  accountIndex : Option Int := none
  owner : Option String := none
  mint : Option String := none
  amount : Option String := none

structure TokenBalanceMeta where
  owner : String
  mint : String
  amount : String

structure BalanceEntry where
  pre : Option TokenBalanceMeta := none
  post : Option TokenBalanceMeta := none

inductive ScamSignal
  | zeroBalanceWithdrawal
  | phantomDeposit
  deriving DecidableEq

def balanceMapKey (owner mint : String) : String := owner ++ "|" ++ mint

/-- `BigInt` of a text, none where it throws. -/
def parseBigInt (s : String) : Option Int := Js.bigInt (Js.trim s)

def orZero (s : String) : String := if s = "" then "0" else s

namespace TokenBalance

def isKept (tb : TokenBalance) : Bool := tb.owner.getD "" ≠ "" && tb.mint.getD "" ≠ ""

def key (tb : TokenBalance) : String := balanceMapKey (tb.owner.getD "") (tb.mint.getD "")

def toMeta (tb : TokenBalance) : TokenBalanceMeta where
  owner := tb.owner.getD ""
  mint := tb.mint.getD ""
  amount := orZero (tb.amount.getD "")

end TokenBalance

abbrev BalanceMap := String → Option BalanceEntry

/-- One round of either loop: an entry is put under the key of its owner and mint. -/
def addBalance (put : TokenBalanceMeta → BalanceEntry → BalanceEntry) (map : BalanceMap)
    (tb : TokenBalance) : BalanceMap :=
  if tb.isKept then Function.update map tb.key (some (put tb.toMeta ((map tb.key).getD {})))
  else map

def addPre : BalanceMap → TokenBalance → BalanceMap :=
  addBalance fun balance entry => { entry with pre := some balance }

def addPost : BalanceMap → TokenBalance → BalanceMap :=
  addBalance fun balance entry => { entry with post := some balance }

def buildBalanceMap (preTokenBalances postTokenBalances : List TokenBalance) : BalanceMap :=
  postTokenBalances.foldl addPost (preTokenBalances.foldl addPre fun _ => none)

/-- The signal of an event, if it has one; none where a text is not the one of an integer and
`BigInt` throws. -/
def validateEvent (event : BalanceEventInfo) (balanceMap : BalanceMap) :
    Option (Option ScamSignal) :=
  if event.tokenType = "NATIVE" then some none
  else
    let entry := balanceMap (balanceMapKey event.address event.contractAddress)
    match parseBigInt (orZero event.delta) with
    | none => none
    | some deltaNum =>
      if deltaNum < 0 then
        match entry.bind BalanceEntry.pre with
        | none => some (some .zeroBalanceWithdrawal)
        | some pre =>
          (parseBigInt pre.amount).map fun amount =>
            if amount = 0 then some .zeroBalanceWithdrawal else none
      else if 0 < deltaNum ∧ (entry.bind BalanceEntry.pre).isSome ∧
          (entry.bind BalanceEntry.post).isNone then some (some .phantomDeposit)
      else some none

def lastFor (key : String) (balances : List TokenBalance) : Option TokenBalance :=
  balances.reverse.find? fun tb => tb.isKept && tb.key == key

theorem lastFor_concat (key : String) (balances : List TokenBalance) (tb : TokenBalance) :
    lastFor key (balances ++ [tb]) =
      if tb.isKept && tb.key == key then some tb else lastFor key balances := by
  rw [lastFor, List.reverse_append, List.reverse_singleton, List.singleton_append,
    List.find?_cons]
  cases tb.isKept && tb.key == key
  all_goals rfl

section Map
variable {put : TokenBalanceMeta → BalanceEntry → BalanceEntry}
variable {side : BalanceEntry → Option TokenBalanceMeta} (key : String) (map : BalanceMap)

theorem foldl_addBalance_written (hput : ∀ balance entry, side (put balance entry) = some balance)
    (balances : List TokenBalance) :
    (balances.foldl (addBalance put) map key).bind side =
      ((lastFor key balances).map TokenBalance.toMeta).or ((map key).bind side) := by
  induction balances using List.reverseRecOn with
  | nil => rfl
  | append_singleton balances tb ih =>
    rw [List.foldl_concat, lastFor_concat]
    generalize balances.foldl (addBalance put) map = map' at ih ⊢
    unfold addBalance
    cases hkept : tb.isKept with
    | false => simpa using ih
    | true =>
      by_cases hkey : tb.key = key
      · subst hkey
        simp [hput]
      · simpa [hkey, Function.update_of_ne (Ne.symm hkey)] using ih

theorem foldl_addBalance_other (hput : ∀ balance entry, side (put balance entry) = side entry)
    (hnone : side {} = none) (balances : List TokenBalance) :
    (balances.foldl (addBalance put) map key).bind side = (map key).bind side := by
  induction balances using List.reverseRecOn with
  | nil => rfl
  | append_singleton balances tb ih =>
    rw [List.foldl_concat]
    generalize balances.foldl (addBalance put) map = map' at ih ⊢
    unfold addBalance
    split
    · by_cases hkey : tb.key = key
      · subst hkey
        rw [Function.update_self, Option.bind_some, hput, ← ih]
        cases map' tb.key with
        | none => exact hnone
        | some entry => rfl
      · rw [Function.update_of_ne (Ne.symm hkey)]
        exact ih
    · exact ih

theorem buildBalanceMap_entry (pre post : List TokenBalance) :
    (buildBalanceMap pre post key).bind BalanceEntry.pre =
        (lastFor key pre).map TokenBalance.toMeta ∧
      (buildBalanceMap pre post key).bind BalanceEntry.post =
        (lastFor key post).map TokenBalance.toMeta := by
  unfold buildBalanceMap addPre addPost
  constructor
  · rw [foldl_addBalance_other, foldl_addBalance_written]
    · exact Option.or_none
    · exact fun _ _ => rfl
    · exact fun _ _ => rfl
    · rfl
  · rw [foldl_addBalance_written, foldl_addBalance_other]
    · exact Option.or_none
    · exact fun _ _ => rfl
    · rfl
    · exact fun _ _ => rfl

end Map

section Consistency

def TokenBalance.value (tb : TokenBalance) : Int := (parseBigInt tb.toMeta.amount).getD 0

def eventValue (event : BalanceEventInfo) : Int := (parseBigInt (orZero event.delta)).getD 0

/-- The balances of all accounts of an owner for a mint. -/
def total (owner mint : String) (balances : List TokenBalance) : Int :=
  sumWhere (fun tb => tb.isKept && tb.owner = some owner && tb.mint = some mint) TokenBalance.value
    balances

def moves (owner mint : String) (event : BalanceEventInfo) : Bool :=
  event.tokenType ≠ "NATIVE" && event.address = owner && event.contractAddress = mint

def added (owner mint : String) (events : List BalanceEventInfo) : Int :=
  sumWhere (moves owner mint) eventValue events

/-- Amounts are integers, no balance is ever negative on the way and each ends where the
transaction left it. -/
structure Consistent (pre post : List TokenBalance) (events : List BalanceEventInfo) : Prop where
  amounts : ∀ tb ∈ pre ++ post, (parseBigInt tb.toMeta.amount).isSome = true
  deltas : ∀ event ∈ events, (parseBigInt (orZero event.delta)).isSome = true
  running : ∀ owner mint before after, events = before ++ after →
    0 ≤ total owner mint pre + added owner mint before
  ending : ∀ owner mint, total owner mint pre + added owner mint events = total owner mint post

variable {pre post : List TokenBalance} {events : List BalanceEventInfo}

theorem mem_of_lastFor {key : String} {balances : List TokenBalance} {tb : TokenBalance}
    (h : lastFor key balances = some tb) : tb ∈ balances :=
  List.mem_reverse.mp (List.mem_of_find?_eq_some h)

def eventKey (event : BalanceEventInfo) : String :=
  balanceMapKey event.address event.contractAddress

theorem validateEvent_clean (h : Consistent pre post events) {event : BalanceEventInfo}
    (hevent : event ∈ events)
    (htaken : event.tokenType ≠ "NATIVE" → eventValue event < 0 →
      ∃ tb, lastFor (eventKey event) pre = some tb ∧ tb.value ≠ 0)
    (hgiven : event.tokenType ≠ "NATIVE" → 0 < eventValue event →
      (lastFor (eventKey event) post).isSome = true) :
    validateEvent event (buildBalanceMap pre post) = some none := by
  obtain ⟨hpre, hpost⟩ := buildBalanceMap_entry (eventKey event) pre post
  obtain ⟨delta, hdelta⟩ := Option.isSome_iff_exists.mp (h.deltas event hevent)
  rw [eventValue, hdelta, Option.getD_some] at htaken hgiven
  unfold validateEvent
  by_cases hnat : event.tokenType = "NATIVE"
  · rw [if_pos hnat]
  rw [if_neg hnat, hdelta, ← eventKey]
  dsimp only
  rw [hpre, hpost]
  by_cases hneg : delta < 0
  · obtain ⟨tb, hlast, hvalue⟩ := htaken hnat hneg
    obtain ⟨amount, hamo⟩ := Option.isSome_iff_exists.mp
      (h.amounts tb (List.mem_append_left _ (mem_of_lastFor hlast)))
    rw [TokenBalance.value, hamo, Option.getD_some] at hvalue
    rw [if_pos hneg, hlast]
    simp only [Option.map_some, hamo, if_neg hvalue]
  · rw [if_neg hneg, if_neg]
    rintro ⟨hpos, _, hnone⟩
    rw [Option.isNone_map, Option.isNone_iff_eq_none] at hnone
    exact absurd (hgiven hnat hpos) (by simp [hnone])

/-- No owner and mint are listed twice before the transaction, and no event takes from an owner and
mint after another has given to them. -/
structure OneWay (pre : List TokenBalance) (events : List BalanceEventInfo) : Prop where
  listed : ((pre.filter TokenBalance.isKept).map TokenBalance.key).Nodup
  order : events.Pairwise fun event later => event.tokenType ≠ "NATIVE" → 0 < eventValue event →
    moves event.address event.contractAddress later = true → 0 ≤ eventValue later

section Totals
variable {owner mint : String} {balances : List TokenBalance}

theorem exists_of_total_pos (h : 0 < total owner mint balances) :
    ∃ tb ∈ balances, tb.isKept = true ∧ tb.key = balanceMapKey owner mint ∧ tb.value ≠ 0 := by
  by_contra hnone
  refine absurd (sumWhere_eq_zero fun tb htb hmatch => ?_) (Int.ne_of_gt h)
  simp only [Bool.and_eq_true, decide_eq_true_eq] at hmatch
  obtain ⟨⟨hkept, howner⟩, hmint⟩ := hmatch
  by_contra hvalue
  refine hnone ⟨tb, htb, hkept, ?_, hvalue⟩
  rw [TokenBalance.key, howner, hmint]
  rfl

theorem lastFor_isSome {key : String} {tb : TokenBalance} (hmem : tb ∈ balances)
    (hkept : tb.isKept = true) (hkey : tb.key = key) : (lastFor key balances).isSome = true := by
  rw [lastFor, List.find?_isSome]
  exact ⟨tb, List.mem_reverse.mpr hmem, by simp [hkept, hkey]⟩

theorem lastFor_of_nodup {tb : TokenBalance}
    (hone : ((balances.filter TokenBalance.isKept).map TokenBalance.key).Nodup)
    (hmem : tb ∈ balances) (hkept : tb.isKept = true) : lastFor tb.key balances = some tb := by
  obtain ⟨last, hlast⟩ := Option.isSome_iff_exists.mp (lastFor_isSome hmem hkept rfl)
  have hmatch := List.find?_some hlast
  rw [Bool.and_eq_true, beq_iff_eq] at hmatch
  rw [hlast, List.inj_on_of_nodup_map hone (List.mem_filter.mpr ⟨mem_of_lastFor hlast, hmatch.1⟩)
    (List.mem_filter.mpr ⟨hmem, hkept⟩) hmatch.2]

end Totals

section OneWay
variable {before after : List BalanceEventInfo} {event : BalanceEventInfo}

theorem moves_self (hnat : event.tokenType ≠ "NATIVE") :
    moves event.address event.contractAddress event = true := by
  simp [moves, hnat]

theorem moves_iff {owner mint : String} : moves owner mint event = true ↔
    event.tokenType ≠ "NATIVE" ∧ event.address = owner ∧ event.contractAddress = mint := by
  simp [moves, and_assoc]

/-- What is taken was there before: nothing has come in that could have been taken. -/
theorem total_pre_pos (h : Consistent pre post (before ++ event :: after))
    (hway : OneWay pre (before ++ event :: after)) (hnat : event.tokenType ≠ "NATIVE")
    (hneg : eventValue event < 0) : 0 < total event.address event.contractAddress pre := by
  have hrun := h.running event.address event.contractAddress (before ++ [event]) after (by simp)
  have hbefore : 0 ≤ sumWhere (moves event.address event.contractAddress)
      (fun earlier => -eventValue earlier) before := by
    apply sumWhere_nonneg
    intro earlier hearlier hsame
    obtain ⟨htype, howner, hmint⟩ := moves_iff.mp hsame
    by_contra hpos
    have hlater := (List.pairwise_append.mp hway.order).2.2 earlier hearlier event
      List.mem_cons_self htype (by omega) (by rw [howner, hmint, moves_self hnat])
    omega
  rw [sumWhere_neg] at hbefore
  simp only [added, sumWhere_append, sumWhere_cons, moves_self hnat, if_true, sumWhere_nil] at hrun
  omega

/-- What is given stays to the end: nothing goes out after it. -/
theorem total_post_pos (h : Consistent pre post (before ++ event :: after))
    (hway : OneWay pre (before ++ event :: after)) (hnat : event.tokenType ≠ "NATIVE")
    (hpos : 0 < eventValue event) : 0 < total event.address event.contractAddress post := by
  have hrun := h.running event.address event.contractAddress before _ rfl
  have hend := h.ending event.address event.contractAddress
  have hafter : 0 ≤ sumWhere (moves event.address event.contractAddress) eventValue after :=
    sumWhere_nonneg fun later hlater hsame => (List.pairwise_cons.mp
      (List.pairwise_append.mp hway.order).2.1).1 later hlater hnat hpos hsame
  simp only [added, sumWhere_append, sumWhere_cons, moves_self hnat, if_true] at hrun hend
  omega

end OneWay

/-- A consistent transaction without a signal: each owner and mint has one account before it, and
what comes in does not go out again. -/
theorem scam_check_clean (h : Consistent pre post events) (hway : OneWay pre events) :
    ∀ event ∈ events, validateEvent event (buildBalanceMap pre post) = some none := by
  intro event hevent
  obtain ⟨before, after, rfl⟩ := List.append_of_mem hevent
  refine validateEvent_clean h hevent ?_ ?_
  · intro hnat hneg
    obtain ⟨tb, hmem, hkept, hkey, hvalue⟩ := exists_of_total_pos (total_pre_pos h hway hnat hneg)
    refine ⟨tb, ?_, hvalue⟩
    rw [eventKey, ← hkey]
    exact lastFor_of_nodup hway.listed hmem hkept
  · intro hnat hpos
    obtain ⟨tb, hmem, hkept, hkey, _⟩ := exists_of_total_pos (total_post_pos h hway hnat hpos)
    exact lastFor_isSome hmem hkept hkey

def tokenAccount (amount : String) : TokenBalance :=
  ⟨some 1, some "wallet", some "mint", some amount⟩

def tokenMove (delta : String) : BalanceEventInfo :=
  { address := "wallet", contractAddress := "mint", delta := delta, tokenType := "FUNGIBLE" }

theorem consistent_wallet {pre post deltas : List String}
    (hamo : ∀ tb ∈ pre.map tokenAccount ++ post.map tokenAccount,
      (parseBigInt tb.toMeta.amount).isSome = true)
    (hdel : ∀ event ∈ deltas.map tokenMove, (parseBigInt (orZero event.delta)).isSome = true)
    (hrun : ∀ before ∈ (deltas.map tokenMove).inits,
      0 ≤ total "wallet" "mint" (pre.map tokenAccount) + added "wallet" "mint" before)
    (hend : total "wallet" "mint" (pre.map tokenAccount) +
        added "wallet" "mint" (deltas.map tokenMove) =
      total "wallet" "mint" (post.map tokenAccount)) :
    Consistent (pre.map tokenAccount) (post.map tokenAccount) (deltas.map tokenMove) := by
  have htotal : ∀ (owner mint : String) (amounts : List String),
      ¬ (owner = "wallet" ∧ mint = "mint") → total owner mint (amounts.map tokenAccount) = 0 := by
    intro owner mint amounts hother
    apply sumWhere_eq_zero
    intro tb htb hmatch
    obtain ⟨amount, _, rfl⟩ := List.mem_map.mp htb
    simp only [tokenAccount, Option.some.injEq, Bool.and_eq_true, decide_eq_true_eq] at hmatch
    exact absurd ⟨hmatch.1.2.symm, hmatch.2.symm⟩ hother
  have hadded : ∀ (owner mint : String) (deltas : List String),
      ¬ (owner = "wallet" ∧ mint = "mint") → added owner mint (deltas.map tokenMove) = 0 := by
    intro owner mint deltas hother
    apply sumWhere_eq_zero
    intro event hevent hmatch
    obtain ⟨delta, _, rfl⟩ := List.mem_map.mp hevent
    obtain ⟨_, howner, hmint⟩ := moves_iff.mp hmatch
    exact absurd ⟨howner.symm, hmint.symm⟩ hother
  refine ⟨hamo, hdel, ?_, ?_⟩
  · intro owner mint before after heq
    by_cases hown : owner = "wallet" ∧ mint = "mint"
    · obtain ⟨rfl, rfl⟩ := hown
      exact hrun before ((List.mem_inits _ _).mpr ⟨after, heq.symm⟩)
    · obtain ⟨earlier, _, _, rfl, _⟩ := List.map_eq_append_iff.mp heq
      rw [htotal owner mint pre hown, hadded owner mint earlier hown, Int.add_zero]
  · intro owner mint
    by_cases hown : owner = "wallet" ∧ mint = "mint"
    · obtain ⟨rfl, rfl⟩ := hown
      exact hend
    · rw [htotal owner mint pre hown, htotal owner mint post hown, hadded owner mint deltas hown,
        Int.add_zero]

/-- A wallet that gives away five tokens and then gets three passes. -/
theorem scam_check_exchange :
    Consistent (["5"].map tokenAccount) (["3"].map tokenAccount) (["-5", "3"].map tokenMove) ∧
    OneWay (["5"].map tokenAccount) (["-5", "3"].map tokenMove) ∧
    ∀ event ∈ ["-5", "3"].map tokenMove,
      validateEvent event (buildBalanceMap (["5"].map tokenAccount) (["3"].map tokenAccount)) =
        some none := by
  have hwal : Consistent (["5"].map tokenAccount) (["3"].map tokenAccount)
      (["-5", "3"].map tokenMove) :=
    consistent_wallet (by decide +kernel) (by decide +kernel) (by decide +kernel)
      (by decide +kernel)
  have hway : OneWay (["5"].map tokenAccount) (["-5", "3"].map tokenMove) :=
    ⟨by decide +kernel, by decide +kernel⟩
  exact ⟨hwal, hway, scam_check_clean hwal hway⟩

/-- Tokens that come in and go out in one transaction, and tokens of the first of two accounts:
both are consistent and both withdrawals are flagged. -/
theorem scam_check_false_alarm :
    (Consistent (["0"].map tokenAccount) (["0"].map tokenAccount) (["5", "-5"].map tokenMove) ∧
      validateEvent (tokenMove "-5")
          (buildBalanceMap (["0"].map tokenAccount) (["0"].map tokenAccount)) =
        some (some .zeroBalanceWithdrawal)) ∧
    Consistent (["5", "0"].map tokenAccount) (["0", "0"].map tokenAccount) (["-5"].map tokenMove) ∧
      validateEvent (tokenMove "-5")
          (buildBalanceMap (["5", "0"].map tokenAccount) (["0", "0"].map tokenAccount)) =
        some (some .zeroBalanceWithdrawal) := by
  refine ⟨⟨?_, by decide +kernel⟩, ?_, by decide +kernel⟩
  · exact consistent_wallet (by decide +kernel) (by decide +kernel) (by decide +kernel)
      (by decide +kernel)
  · exact consistent_wallet (by decide +kernel) (by decide +kernel) (by decide +kernel)
      (by decide +kernel)

end Consistency

end Sidecar

end MultichainIndexer
