import MultichainIndexer.Lib.Text
import Mathlib.Data.List.Induction
import Mathlib.Data.Set.Basic
import Mathlib.Logic.Function.Basic

/-!
# Alerts and their cooldown

`Send` notes the time and the type of an alert under texts that join its names by
colons, then hands the alert to the channels. It does not look at what they
answer: an alert that reached nobody holds back its repeats as well. A type that
differs from the last one of its chain and network passes at once.

The log of the calls is kept for the statements only.
-/

namespace MultichainIndexer

namespace Alerts

def alertTypeUnhealthy : String := "UNHEALTHY"

def alertTypeRecovery : String := "RECOVERY"

structure Alert where
  type : String
  chain : String
  network : String
  title : String := ""
  message : String := ""
  fields : List (String × String) := []

/-- A channel answers a call of `Send`, told by its number, with an error or with none. -/
abbrev Channel := Nat → Alert → Option String

structure Config where
  alerters : List Channel
  cooldown : Int

inductive Outcome
  | suppressed
  | dispatched (errs : List (Option String))

def Outcome.firstErr : Outcome → Option String
  | .suppressed => none
  | .dispatched errs => errs.findSome? id

def Outcome.delivered : Outcome → Bool
  | .suppressed => false
  | .dispatched errs => errs.any Option.isNone

structure Sent where
  time : Int
  alert : Alert
  outcome : Outcome

structure MultiAlerter where
  lastSent : String → Option Int := fun _ => none
  lastAlertType : String → Option String := fun _ => none
  log : List Sent := []

def Alert.cooldownKey (a : Alert) : String := a.type ++ ":" ++ a.chain ++ ":" ++ a.network

def Alert.stateKey (a : Alert) : String := a.chain ++ ":" ++ a.network

theorem Alert.cooldownKey_eq (a : Alert) : a.cooldownKey = a.type ++ (":" ++ a.stateKey) := by
  simp only [Alert.cooldownKey, Alert.stateKey, String.append_assoc]

namespace MultiAlerter

def stateChanged (m : MultiAlerter) (alert : Alert) : Bool :=
  match m.lastAlertType alert.stateKey with
  | none => false
  | some prevType => prevType ≠ alert.type

def coolingDown (cooldown : Int) (m : MultiAlerter) (now : Int) (alert : Alert) : Bool :=
  match m.lastSent alert.cooldownKey with
  | none => false
  | some last => now - last < cooldown

def dispatch (alerters : List Channel) (m : MultiAlerter) (now : Int) (alert : Alert) :
    MultiAlerter where
  lastSent := Function.update m.lastSent alert.cooldownKey (some now)
  lastAlertType := Function.update m.lastAlertType alert.stateKey (some alert.type)
  log := m.log ++
    [⟨now, alert, .dispatched (alerters.map fun channel => channel m.log.length alert)⟩]

def suppress (m : MultiAlerter) (now : Int) (alert : Alert) : MultiAlerter :=
  { m with log := m.log ++ [⟨now, alert, .suppressed⟩] }

def send (cfg : Config) (m : MultiAlerter) (call : Int × Alert) : MultiAlerter :=
  if !m.stateChanged call.2 && m.coolingDown cfg.cooldown call.1 call.2 then
    m.suppress call.1 call.2
  else m.dispatch cfg.alerters call.1 call.2

def sendAll (cfg : Config) (calls : List (Int × Alert)) : MultiAlerter := calls.foldl (send cfg) {}

theorem sendAll_concat (cfg : Config) (calls : List (Int × Alert)) (call : Int × Alert) :
    sendAll cfg (calls ++ [call]) = send cfg (sendAll cfg calls) call :=
  List.foldl_append

variable {cfg : Config} {m : MultiAlerter} {call : Int × Alert}

theorem send_cases (cfg : Config) (m : MultiAlerter) (call : Int × Alert) :
    (send cfg m call = m.suppress call.1 call.2 ∧
      ∃ last, m.lastSent call.2.cooldownKey = some last ∧ call.1 - last < cfg.cooldown) ∨
    send cfg m call = m.dispatch cfg.alerters call.1 call.2 := by
  unfold send
  split
  · rename_i h
    refine .inl ⟨rfl, ?_⟩
    rw [Bool.and_eq_true] at h
    have hcool := h.2
    unfold coolingDown at hcool
    cases hlast : m.lastSent call.2.cooldownKey with
    | none =>
      rw [hlast] at hcool
      cases hcool
    | some last =>
      rw [hlast] at hcool
      exact ⟨last, rfl, of_decide_eq_true hcool⟩
  · exact .inr rfl

theorem log_calls (cfg : Config) (calls : List (Int × Alert)) :
    (sendAll cfg calls).log.map (fun sent => (sent.time, sent.alert)) = calls := by
  induction calls using List.reverseRecOn with
  | nil => rfl
  | append_singleton calls call ih =>
    rw [sendAll_concat]
    rcases send_cases cfg (sendAll cfg calls) call with ⟨h, _⟩ | h
    · rw [h, suppress, List.map_append, ih]
      rfl
    · rw [h, dispatch, List.map_append, ih]
      rfl

theorem log_length (cfg : Config) (calls : List (Int × Alert)) :
    (sendAll cfg calls).log.length = calls.length := by
  rw [← congrArg List.length (log_calls cfg calls), List.length_map]

def Noted (m : MultiAlerter) : Prop :=
  ∀ key last, m.lastSent key = some last →
    ∃ sent ∈ m.log, sent.alert.cooldownKey = key ∧ sent.time = last ∧
      ∃ errs, sent.outcome = .dispatched errs

theorem Noted.send (h : Noted m) : Noted (send cfg m call) := by
  rcases send_cases cfg m call with ⟨hsend, _⟩ | hsend
  · rw [hsend]
    intro key last hlast
    obtain ⟨sent, hmem, hsent⟩ := h key last hlast
    exact ⟨sent, List.mem_append_left _ hmem, hsent⟩
  · rw [hsend]
    intro key last hlast
    by_cases hkey : key = call.2.cooldownKey
    · subst hkey
      have hnow : call.1 = last := by
        simpa [dispatch] using hlast
      exact ⟨_, List.mem_append_cons_self, rfl, hnow, _, rfl⟩
    · have hold : m.lastSent key = some last := by
        simpa [dispatch, Function.update_of_ne hkey] using hlast
      obtain ⟨sent, hmem, hsent⟩ := h key last hold
      exact ⟨sent, List.mem_append_left _ hmem, hsent⟩

theorem noted_sendAll (cfg : Config) (calls : List (Int × Alert)) : Noted (sendAll cfg calls) := by
  induction calls using List.reverseRecOn with
  | nil => exact nofun
  | append_singleton calls call ih =>
    rw [sendAll_concat]
    exact ih.send

end MultiAlerter

open MultiAlerter

/-- An alert with the names of this one got through within the cooldown before it. -/
def Repeats (cooldown : Int) (before : List Sent) (this : Sent) : Prop :=
  ∃ sent ∈ before, sent.alert.type = this.alert.type ∧ sent.alert.chain = this.alert.chain ∧
    sent.alert.network = this.alert.network ∧ sent.time ≤ this.time ∧
    this.time - sent.time < cooldown ∧ sent.outcome.delivered = true

/-- Whatever the cooldown suppressed repeats an alert that got through. -/
def OnlyRepeats (cooldown : Int) (log : List Sent) : Prop :=
  ∀ before this after, log = before ++ this :: after → this.outcome = .suppressed →
    Repeats cooldown before this

theorem onlyRepeats_concat {cooldown : Int} {log : List Sent} {this : Sent} :
    OnlyRepeats cooldown (log ++ [this]) ↔
      OnlyRepeats cooldown log ∧ (this.outcome = .suppressed → Repeats cooldown log this) := by
  constructor
  · intro h
    refine ⟨?_, ?_⟩
    · intro before that after hlog
      exact h before that (after ++ [this]) (by rw [hlog, List.append_assoc, List.cons_append])
    · exact h log this [] rfl
  · rintro ⟨hlog, hthis⟩ before that after heq
    rcases List.eq_nil_or_concat after with rfl | ⟨after, last, rfl⟩
    · obtain ⟨rfl, hlast⟩ := List.append_inj' heq rfl
      cases hlast
      exact hthis
    · rw [List.concat_eq_append, ← List.cons_append, ← List.append_assoc] at heq
      obtain ⟨rfl, _⟩ := List.append_inj' heq rfl
      exact hlog before that after rfl

section Condition
variable (cfg : Config)

def getsThrough (n : Nat) (alert : Alert) : Bool :=
  cfg.alerters.any fun channel => (channel n alert).isNone

/-- What went out reached a channel. -/
def AllDelivered (log : List Sent) : Prop :=
  ∀ sent ∈ log, ∀ errs, sent.outcome = .dispatched errs → sent.outcome.delivered = true

/-- The texts of the keys tell the alerts apart. -/
def KeysApart (alerts : Set Alert) : Prop :=
  ∀ a ∈ alerts, ∀ b ∈ alerts, a.cooldownKey = b.cooldownKey →
    a.type = b.type ∧ a.chain = b.chain ∧ a.network = b.network

variable {cfg} {alerts : Set Alert}

theorem keysApart_of_plain
    (h : ∀ a ∈ alerts, ':' ∉ a.type.toList ∧ ':' ∉ a.chain.toList) : KeysApart alerts := by
  have hkey : ∀ a : Alert, a.cooldownKey.toList =
      a.type.toList ++ ':' :: (a.chain.toList ++ ':' :: a.network.toList) := by
    intro a
    simp [Alert.cooldownKey]
  intro a ha b hb heq
  have hlist := congrArg String.toList heq
  rw [hkey, hkey] at hlist
  obtain ⟨htype, hrest⟩ := Text.append_sep_inj (h a ha).1 (h b hb).1 hlist
  obtain ⟨hchain, hnet⟩ := Text.append_sep_inj (h a ha).2 (h b hb).2 hrest
  exact ⟨String.toList_injective htype, String.toList_injective hchain,
    String.toList_injective hnet⟩

variable {calls : List (Int × Alert)}

theorem log_delivered (hthr : ∀ n, ∀ a ∈ alerts, getsThrough cfg n a = true)
    (hcalls : ∀ call ∈ calls, call.2 ∈ alerts) : AllDelivered (sendAll cfg calls).log := by
  induction calls using List.reverseRecOn with
  | nil => exact nofun
  | append_singleton calls call ih =>
    have hbef := ih fun c hc => hcalls c (List.mem_append_left _ hc)
    have hcall : call.2 ∈ alerts := hcalls call List.mem_append_cons_self
    rw [sendAll_concat]
    rcases send_cases cfg (sendAll cfg calls) call with ⟨h, _⟩ | h
    · rw [h]
      intro sent hsent errs herrs
      rcases List.mem_append.mp hsent with hsent | hsent
      · exact hbef sent hsent errs herrs
      · cases List.mem_singleton.mp hsent
        cases herrs
    · rw [h]
      intro sent hsent errs herrs
      rcases List.mem_append.mp hsent with hsent | hsent
      · exact hbef sent hsent errs herrs
      · cases List.mem_singleton.mp hsent
        have hget := hthr (sendAll cfg calls).log.length call.2 hcall
        simpa [Outcome.delivered, getsThrough, Function.comp_def] using hget

theorem onlyRepeats_of_delivered (hdel : AllDelivered (sendAll cfg calls).log)
    (hkeys : KeysApart alerts) (htimes : calls.Pairwise fun a b => a.1 ≤ b.1)
    (hcalls : ∀ call ∈ calls, call.2 ∈ alerts) :
    OnlyRepeats cfg.cooldown (sendAll cfg calls).log := by
  induction calls using List.reverseRecOn with
  | nil => simp [OnlyRepeats, sendAll]
  | append_singleton calls call ih =>
    obtain ⟨hord, _, hlater⟩ := List.pairwise_append.mp htimes
    have hin : ∀ c ∈ calls, c.2 ∈ alerts := fun c hc => hcalls c (List.mem_append_left _ hc)
    have hcall : call.2 ∈ alerts := hcalls call List.mem_append_cons_self
    rw [sendAll_concat] at hdel ⊢
    rcases send_cases cfg (sendAll cfg calls) call with ⟨h, last, hlast, hcool⟩ | h
    · rw [h, suppress] at hdel ⊢
      have hbef : AllDelivered (sendAll cfg calls).log :=
        fun sent hsent => hdel sent (List.mem_append_left _ hsent)
      refine onlyRepeats_concat.mpr ⟨ih hbef hord hin, fun _ => ?_⟩
      obtain ⟨sent, hmem, hkey, rfl, errs, herrs⟩ := noted_sendAll cfg calls _ _ hlast
      have hentry : (sent.time, sent.alert) ∈ calls := by
        rw [← log_calls cfg calls]
        exact List.mem_map_of_mem hmem
      obtain ⟨htype, hchain, hnet⟩ := hkeys _ (hin _ hentry) _ hcall hkey
      exact ⟨sent, hmem, htype, hchain, hnet, hlater _ hentry _ List.mem_cons_self, hcool,
        hbef sent hmem errs herrs⟩
    · rw [h, dispatch] at hdel ⊢
      have hbef : AllDelivered (sendAll cfg calls).log :=
        fun sent hsent => hdel sent (List.mem_append_left _ hsent)
      exact onlyRepeats_concat.mpr ⟨ih hbef hord hin, nofun⟩

theorem onlyRepeats_of_no_cooldown (hcool : cfg.cooldown ≤ 0)
    (htimes : calls.Pairwise fun a b => a.1 ≤ b.1) :
    OnlyRepeats cfg.cooldown (sendAll cfg calls).log := by
  induction calls using List.reverseRecOn with
  | nil => simp [OnlyRepeats, sendAll]
  | append_singleton calls call ih =>
    obtain ⟨hord, _, hlater⟩ := List.pairwise_append.mp htimes
    rw [sendAll_concat]
    rcases send_cases cfg (sendAll cfg calls) call with ⟨_, last, hlast, hlt⟩ | h
    · obtain ⟨sent, hmem, _, rfl, _⟩ := noted_sendAll cfg calls _ _ hlast
      have hentry : (sent.time, sent.alert) ∈ calls := by
        rw [← log_calls cfg calls]
        exact List.mem_map_of_mem hmem
      have hle : sent.time ≤ call.1 := hlater _ hentry _ List.mem_cons_self
      omega
    · rw [h, dispatch, onlyRepeats_concat]
      exact ⟨ih hord, nofun⟩

end Condition

section Repeated
variable {cfg : Config}

def spaced (cooldown : Int) (alert : Alert) (n : Nat) : List (Int × Alert) :=
  (List.range n).map fun i : Nat => ((i : Int) * cooldown, alert)

theorem spaced_succ (cooldown : Int) (alert : Alert) (n : Nat) :
    spaced cooldown alert (n + 1) = spaced cooldown alert n ++ [((n : Int) * cooldown, alert)] := by
  simp [spaced, List.range_succ]

/-- What is noted after a call that went out. -/
structure Fresh (m : MultiAlerter) (now : Int) (alert : Alert) : Prop where
  lastSent : m.lastSent alert.cooldownKey = some now
  lastType : m.lastAlertType alert.stateKey = some alert.type

theorem fresh_dispatch (alerters : List Channel) (m : MultiAlerter) (now : Int) (alert : Alert) :
    Fresh (m.dispatch alerters now alert) now alert where
  lastSent := Function.update_self ..
  lastType := Function.update_self ..

variable {alert : Alert}

theorem Fresh.send_again {m : MultiAlerter} {now : Int} (h : Fresh m now alert)
    (hcool : 0 < cfg.cooldown) : send cfg m (now, alert) = m.suppress now alert := by
  unfold send
  rw [if_pos]
  simp [stateChanged, coolingDown, h.lastSent, h.lastType, hcool]

theorem Fresh.send_late {m : MultiAlerter} {now later : Int} (h : Fresh m now alert)
    (hlate : cfg.cooldown ≤ later - now) :
    send cfg m (later, alert) = m.dispatch cfg.alerters later alert := by
  unfold send
  rw [if_neg]
  simp [coolingDown, h.lastSent, hlate]

theorem send_new (alert : Alert) (now : Int) :
    send cfg {} (now, alert) = MultiAlerter.dispatch cfg.alerters {} now alert := by
  simp [send, stateChanged, coolingDown]

theorem sendAll_spaced (alert : Alert) (n : Nat) :
    sendAll cfg (spaced cfg.cooldown alert (n + 1)) =
      (sendAll cfg (spaced cfg.cooldown alert n)).dispatch cfg.alerters (n * cfg.cooldown)
        alert := by
  induction n with
  | zero =>
    rw [spaced_succ, sendAll_concat]
    exact send_new alert _
  | succ n ih =>
    rw [spaced_succ, sendAll_concat]
    have hfresh : Fresh (sendAll cfg (spaced cfg.cooldown alert (n + 1))) (n * cfg.cooldown)
        alert := by
      rw [ih]
      exact fresh_dispatch _ _ _ _
    apply hfresh.send_late
    rw [Int.natCast_succ, Int.add_mul]
    omega

theorem spaced_pairwise (hcool : 0 < cfg.cooldown) (alert : Alert) (n : Nat) :
    (spaced cfg.cooldown alert n).Pairwise fun a b => a.1 ≤ b.1 := by
  rw [spaced, List.pairwise_map]
  refine List.Pairwise.imp ?_ List.pairwise_lt_range
  intro i j hij
  exact Int.mul_le_mul_of_nonneg_right (by omega) (by omega)

theorem spaced_before {n : Nat} (hcool : 0 < cfg.cooldown) {entry : Int × Alert}
    (h : entry ∈ spaced cfg.cooldown alert n) : cfg.cooldown ≤ n * cfg.cooldown - entry.1 := by
  obtain ⟨i, hi, rfl⟩ := List.mem_map.mp h
  have hlt : i + 1 ≤ n := List.mem_range.mp hi
  have hmul : ((i + 1 : Nat) : Int) * cfg.cooldown ≤ n * cfg.cooldown :=
    Int.mul_le_mul_of_nonneg_right (by omega) (by omega)
  rw [Int.natCast_succ, Int.add_mul] at hmul
  omega

/-- An alert that reaches nobody in its call suppresses its repeat. -/
theorem getsThrough_of_onlyRepeats (hcool : 0 < cfg.cooldown) {n : Nat}
    (h : OnlyRepeats cfg.cooldown
      (sendAll cfg (spaced cfg.cooldown alert (n + 1) ++ [((n : Int) * cfg.cooldown, alert)])).log) :
    getsThrough cfg n alert = true := by
  rw [sendAll_concat, sendAll_spaced, (fresh_dispatch _ _ _ _).send_again hcool, suppress,
    onlyRepeats_concat] at h
  obtain ⟨sent, hsent, _, _, _, _, hlt, hdel⟩ := h.2 rfl
  rcases List.mem_append.mp hsent with hsent | hsent
  · -- the calls before are too long ago
    have hentry : (sent.time, sent.alert) ∈ spaced cfg.cooldown alert n := by
      rw [← log_calls cfg (spaced cfg.cooldown alert n)]
      exact List.mem_map_of_mem hsent
    have hfar : cfg.cooldown ≤ n * cfg.cooldown - sent.time := spaced_before hcool hentry
    have hnear : n * cfg.cooldown - sent.time < cfg.cooldown := hlt
    omega
  · cases List.mem_singleton.mp hsent
    have hlen : (sendAll cfg (spaced cfg.cooldown alert n)).log.length = n := by
      rw [log_length, spaced, List.length_map, List.length_range]
    rw [hlen] at hdel
    simpa [Outcome.delivered, getsThrough, Function.comp_def] using hdel

/-- Two alerts of one key count as one, whatever their names are. -/
theorem same_names_of_onlyRepeats (hcool : 0 < cfg.cooldown) {a b : Alert}
    (hkey : a.cooldownKey = b.cooldownKey)
    (h : OnlyRepeats cfg.cooldown (sendAll cfg [(0, a), (0, b)]).log) :
    a.type = b.type ∧ a.chain = b.chain ∧ a.network = b.network := by
  have hsend : sendAll cfg [(0, a), (0, b)] =
      (MultiAlerter.dispatch cfg.alerters {} 0 a).suppress 0 b := by
    show send cfg (send cfg {} (0, a)) (0, b) = _
    rw [send_new]
    unfold send
    rw [if_pos]
    have hlast : (MultiAlerter.dispatch cfg.alerters {} 0 a).coolingDown cfg.cooldown 0 b = true := by
      simp [coolingDown, dispatch, ← hkey, hcool]
    have hstate : (MultiAlerter.dispatch cfg.alerters {} 0 a).stateChanged b = false := by
      by_cases hsame : b.stateKey = a.stateKey
      · -- what is left of the keys is the type
        have htype : a.type = b.type := by
          rw [Alert.cooldownKey_eq, Alert.cooldownKey_eq, hsame] at hkey
          exact (String.append_left_inj _).mp hkey
        simp [stateChanged, dispatch, hsame, htype]
      · simp [stateChanged, dispatch, Function.update_of_ne hsame]
    simp [hlast, hstate]
  rw [hsend, suppress, onlyRepeats_concat] at h
  obtain ⟨sent, hsent, htype, hchain, hnet, _⟩ := h.2 rfl
  cases List.mem_singleton.mp hsent
  exact ⟨htype, hchain, hnet⟩

end Repeated

/-- The cooldown suppresses only repeats of alerts that got through, whatever is sent, exactly
where there is no cooldown or each alert always reaches a channel and its key tells its names. In
one run it does if what went out in that run reached a channel. -/
theorem cooldown_suppresses_repeats_iff (cfg : Config) (alerts : Set Alert) :
    ((∀ calls : List (Int × Alert), (calls.Pairwise fun a b => a.1 ≤ b.1) →
        (∀ call ∈ calls, call.2 ∈ alerts) →
        OnlyRepeats cfg.cooldown (sendAll cfg calls).log) ↔
      cfg.cooldown ≤ 0 ∨
        (∀ n, ∀ a ∈ alerts, getsThrough cfg n a = true) ∧ KeysApart alerts) ∧
    ∀ calls : List (Int × Alert), (calls.Pairwise fun a b => a.1 ≤ b.1) →
      AllDelivered (sendAll cfg calls).log → KeysApart {a | ∃ call ∈ calls, call.2 = a} →
      OnlyRepeats cfg.cooldown (sendAll cfg calls).log := by
  refine ⟨⟨?_, ?_⟩, fun calls htimes hdel hkeys =>
    onlyRepeats_of_delivered hdel hkeys htimes fun call hcall => ⟨call, hcall, rfl⟩⟩
  · intro h
    by_cases hcool : cfg.cooldown ≤ 0
    · exact .inl hcool
    · rw [Int.not_le] at hcool
      refine .inr ⟨?_, ?_⟩
      · intro n a ha
        apply getsThrough_of_onlyRepeats hcool
        apply h
        · rw [List.pairwise_append]
          refine ⟨spaced_pairwise hcool a _, List.pairwise_singleton _ _, ?_⟩
          intro entry hentry last hlast
          cases List.mem_singleton.mp hlast
          rw [spaced_succ] at hentry
          rcases List.mem_append.mp hentry with hentry | hentry
          · have hfar := spaced_before hcool hentry
            omega
          · cases List.mem_singleton.mp hentry
            exact Int.le_refl _
        · intro call hmem
          rcases List.mem_append.mp hmem with hmem | hmem
          · obtain ⟨i, _, rfl⟩ := List.mem_map.mp hmem
            exact ha
          · cases List.mem_singleton.mp hmem
            exact ha
      · intro a ha b hb hkey
        apply same_names_of_onlyRepeats hcool hkey
        apply h
        · simp
        · simp [ha, hb]
  · rintro (hcool | ⟨hthr, hkeys⟩) calls htimes hcalls
    · exact onlyRepeats_of_no_cooldown hcool htimes
    · exact onlyRepeats_of_delivered (log_delivered hthr hcalls) hkeys htimes hcalls

theorem cooldown_after_delivery :
    OnlyRepeats 10 (sendAll ⟨[fun _ _ => none], 10⟩
      [(0, ⟨alertTypeUnhealthy, "base", "mainnet", "", "", []⟩),
        (1, ⟨alertTypeUnhealthy, "base", "mainnet", "", "", []⟩)]).log := by
  refine (cooldown_suppresses_repeats_iff ⟨[fun _ _ => none], 10⟩
    {a | a.type = alertTypeUnhealthy ∧ a.chain = "base"}).1.mpr (.inr ⟨fun _ _ _ => rfl, ?_⟩) _
    (by simp) (by simp)
  apply keysApart_of_plain
  rintro a ⟨htype, hchain⟩
  rw [htype, hchain]
  decide

/-- A channel that is down: the first alert reaches nobody and its repeat is suppressed. -/
theorem cooldown_after_failure :
    ¬ OnlyRepeats 10 (sendAll ⟨[fun _ _ => some "slack returned status 500"], 10⟩
      [(0, ⟨alertTypeUnhealthy, "base", "mainnet", "", "", []⟩),
        (1, ⟨alertTypeUnhealthy, "base", "mainnet", "", "", []⟩)]).log := by
  intro h
  obtain ⟨sent, hsent, _, _, _, _, _, hdel⟩ := h [_] _ [] rfl rfl
  cases List.mem_singleton.mp hsent
  cases hdel

end Alerts

end MultichainIndexer
