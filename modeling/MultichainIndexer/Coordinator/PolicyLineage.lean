import MultichainIndexer.Coordinator.PolicyDigest
import MultichainIndexer.Lib.Run

/-!
# From one controller's policy to the next

A new controller starts from its configuration and is reconciled with the policy
state that the one before it exported. Only the policy and what the
reconciliation resets are kept of a controller; between two reconciliations it
takes its ticks, which count down the activation hold and change the adaptive
state, but never the policy.
-/

namespace MultichainIndexer

open Runs

namespace AutoTune

structure Config where
  policyVersion : String
  policyManifestDigest : String
  policyManifestRefreshEpoch : Int
  policyActivationHoldTicks : Int := 0

inductive Signal
  | hold | increase | decrease
  deriving DecidableEq

structure Controller where
  policyVersion : String
  policyManifestDigest : String
  policyEpoch : Int
  policyActivationHold : Int
  policyActivationLeft : Int := 0
  lastSignal : Signal := .hold
  lastApplied : Signal := .hold
  saturationSignal : Signal := .hold
  streak : Int := 0
  cooldownLeft : Int := 0
  deriving DecidableEq

structure PolicyTransition where
  hasState : Bool := false
  version : String := ""
  manifestDigest : String := ""
  epoch : Int := 0
  activationHoldRemaining : Int := 0
  fromWarmCheckpoint : Bool := false

def newAutoTuneController (cfg : Config) : Controller where
  policyVersion := normalizePolicyVersion cfg.policyVersion
  policyManifestDigest := normalizePolicyManifestDigest cfg.policyManifestDigest
  policyEpoch := max cfg.policyManifestRefreshEpoch 0
  policyActivationHold := max cfg.policyActivationHoldTicks 0

def normalizeTransitionActivationHold (transition : PolicyTransition) : Int :=
  let remaining := max transition.activationHoldRemaining 0
  if remaining = 0 ∨ !transition.fromWarmCheckpoint then remaining
  else if isRollbackFenceEpochCompactionDigest transition.epoch transition.manifestDigest then 0
  else if !isRollbackFenceTransition transition.epoch transition.manifestDigest then remaining
  else min remaining 1

namespace Controller

def exportPolicyTransition (a : Controller) : PolicyTransition where
  hasState := true
  version := a.policyVersion
  manifestDigest := a.policyManifestDigest
  epoch := a.policyEpoch
  activationHoldRemaining := a.policyActivationLeft

def resetAdaptiveControlState (a : Controller) : Controller :=
  { a with lastSignal := .hold, lastApplied := .hold, saturationSignal := .hold, streak := 0,
           cooldownLeft := 0 }

def withPolicy (a : Controller) (digest : String) (epoch : Int) : Controller :=
  { a with policyManifestDigest := digest, policyEpoch := epoch }

def activate (a : Controller) (digest : String) (epoch : Int) : Controller :=
  resetAdaptiveControlState
    { a.withPolicy digest epoch with policyActivationLeft := a.policyActivationHold }

def carryHold (a : Controller) (hold : Int) : Controller :=
  if a.policyActivationLeft < hold then
    resetAdaptiveControlState { a with policyActivationLeft := hold }
  else a

def reconcilePolicyTransition (a : Controller) (transition : PolicyTransition) : Controller :=
  if !transition.hasState then a
  else
    let hold := normalizeTransitionActivationHold transition
    let previousVersion := normalizePolicyVersion transition.version
    let previousDigest := normalizePolicyManifestDigest transition.manifestDigest
    let previousEpoch := max transition.epoch 0
    let incomingDigest := normalizePolicyManifestDigest a.policyManifestDigest
    let incomingEpoch := max a.policyEpoch 0
    let next := wrap64 (previousEpoch + 1)
    if a.policyVersion = previousVersion ∧ incomingDigest = previousDigest then
      (if incomingEpoch = next then a.activate incomingDigest incomingEpoch
        else a.withPolicy previousDigest previousEpoch).carryHold hold
    else if a.policyVersion ≠ previousVersion then
      a.activate incomingDigest (max next incomingEpoch)
    else if previousEpoch < incomingEpoch then
      if isDeterministicRollbackFencePostReleaseWindowEpochRolloverStaleTransition previousEpoch
          incomingEpoch previousDigest incomingDigest then
        (a.withPolicy previousDigest previousEpoch).carryHold hold
      else if incomingEpoch = next then a.activate incomingDigest incomingEpoch
      else if isDeterministicSnapshotCutover previousEpoch incomingEpoch incomingDigest then
        a.activate incomingDigest incomingEpoch
      else (a.withPolicy previousDigest previousEpoch).carryHold hold
    else if incomingEpoch < previousEpoch then
      if isDeterministicRollbackLineage previousEpoch incomingEpoch incomingDigest then
        a.activate incomingDigest incomingEpoch
      else (a.withPolicy previousDigest previousEpoch).carryHold hold
    else
      match resolveSameEpochPolicyLineage previousEpoch previousDigest incomingDigest with
      | some true => a.withPolicy incomingDigest incomingEpoch
      | some false => a.withPolicy previousDigest previousEpoch
      | none => (a.withPolicy previousDigest previousEpoch).carryHold hold

end Controller

/-! ### The policy alone -/

structure Policy where
  version : String
  digest : String
  epoch : Int
  deriving DecidableEq

def Controller.policy (a : Controller) : Policy :=
  ⟨a.policyVersion, a.policyManifestDigest, a.policyEpoch⟩

def Config.policy (cfg : Config) : Policy where
  version := normalizePolicyVersion cfg.policyVersion
  digest := normalizePolicyManifestDigest cfg.policyManifestDigest
  epoch := max cfg.policyManifestRefreshEpoch 0

@[simp] theorem policy_newAutoTuneController (cfg : Config) :
    (newAutoTuneController cfg).policy = cfg.policy := rfl

@[simp] theorem policy_withPolicy (a : Controller) (digest : String) (epoch : Int) :
    (a.withPolicy digest epoch).policy = ⟨a.policyVersion, digest, epoch⟩ := rfl

@[simp] theorem policy_activate (a : Controller) (digest : String) (epoch : Int) :
    (a.activate digest epoch).policy = ⟨a.policyVersion, digest, epoch⟩ := rfl

@[simp] theorem policy_carryHold (a : Controller) (hold : Int) :
    (a.carryHold hold).policy = a.policy := by
  unfold Controller.carryHold
  split <;> rfl

structure Policy.Normal (p : Policy) : Prop where
  version : normalizePolicyVersion p.version = p.version
  digest : normalizePolicyManifestDigest p.digest = p.digest
  epoch : 0 ≤ p.epoch

theorem Config.policy_normal (cfg : Config) : cfg.policy.Normal :=
  ⟨normalizePolicyVersion_idem _, normalizePolicyManifestDigest_idem _, Int.le_max_right _ _⟩

/-- The policy after a reconciliation, where `p` was exported and `c` is configured. -/
def nextPolicy (p c : Policy) : Policy :=
  let next := wrap64 (p.epoch + 1)
  let pinned : Policy := ⟨c.version, p.digest, p.epoch⟩
  if c.version = p.version ∧ c.digest = p.digest then
    if c.epoch = next then c else pinned
  else if c.version ≠ p.version then ⟨c.version, c.digest, max next c.epoch⟩
  else if p.epoch < c.epoch then
    if isDeterministicRollbackFencePostReleaseWindowEpochRolloverStaleTransition p.epoch c.epoch
        p.digest c.digest then pinned
    else if c.epoch = next then c
    else if isDeterministicSnapshotCutover p.epoch c.epoch c.digest then c
    else pinned
  else if c.epoch < p.epoch then
    if isDeterministicRollbackLineage p.epoch c.epoch c.digest then c else pinned
  else if resolveSameEpochPolicyLineage p.epoch p.digest c.digest = some true then c
  else pinned

/-- A reconciliation acts on the policy alone as `nextPolicy` does. -/
theorem policy_reconcile {a b : Controller} (ha : a.policy.Normal) (hb : b.policy.Normal) :
    (a.reconcilePolicyTransition b.exportPolicyTransition).policy =
      nextPolicy b.policy a.policy := by
  have hver : normalizePolicyVersion b.policyVersion = b.policyVersion := hb.version
  have hdig : normalizePolicyManifestDigest b.policyManifestDigest = b.policyManifestDigest :=
    hb.digest
  have hepoch : max b.policyEpoch 0 = b.policyEpoch := Int.max_eq_left hb.epoch
  have hdig' : normalizePolicyManifestDigest a.policyManifestDigest = a.policyManifestDigest :=
    ha.digest
  have hepoch' : max a.policyEpoch 0 = a.policyEpoch := Int.max_eq_left ha.epoch
  have hmatch : ∀ (resolved : Option Bool) (hold : Int),
      (match resolved with
        | some true => a.withPolicy a.policyManifestDigest a.policyEpoch
        | some false => a.withPolicy b.policyManifestDigest b.policyEpoch
        | none => (a.withPolicy b.policyManifestDigest b.policyEpoch).carryHold hold).policy =
      if resolved = some true then a.policy
      else ⟨a.policyVersion, b.policyManifestDigest, b.policyEpoch⟩ := by
    rintro (_ | _ | _) hold
    · exact policy_carryHold _ _
    · rfl
    · rfl
  unfold Controller.reconcilePolicyTransition nextPolicy
  simp only [Controller.exportPolicyTransition, hver, hdig, hepoch, hdig', hepoch',
    Bool.not_true, Bool.false_eq_true, if_false, apply_ite Controller.policy, policy_carryHold,
    policy_activate, policy_withPolicy, hmatch]
  rfl

/-- A controller reconciled with the export of the one before it, whose ticks left the policy. -/
def Reconciled (a : Controller) (cfg : Config) (a' : Controller) : Prop :=
  ∃ b : Controller, b.policy = a.policy ∧
    a' = (newAutoTuneController cfg).reconcilePolicyTransition b.exportPolicyTransition

theorem Reconciled.policy {a a' : Controller} {cfg : Config} (h : Reconciled a cfg a')
    (ha : a.policy.Normal) : a'.policy = nextPolicy a.policy cfg.policy := by
  obtain ⟨b, hb, rfl⟩ := h
  have hcfg : (newAutoTuneController cfg).policy.Normal := by
    rw [policy_newAutoTuneController]
    exact cfg.policy_normal
  rw [policy_reconcile hcfg (hb ▸ ha), hb, policy_newAutoTuneController]

/-! ### How the epoch moves -/

/-- How the policy of one controller may become that of the next, of the same version. -/
inductive Moves (p q : Policy) : Prop
  | unchanged : q.digest = p.digest → q.epoch = p.epoch → Moves p q
  | lineage : q.epoch = p.epoch →
      resolveSameEpochPolicyLineage p.epoch p.digest q.digest = some true → Moves p q
  | next : q.epoch = p.epoch + 1 → Moves p q
  | snapshot : p.epoch + 1 < q.epoch →
      parseSnapshotCutoverLineage q.digest = some (p.epoch, q.epoch) → Moves p q
  | rollback (forward : Int) : q.epoch < p.epoch → p.epoch ≤ forward →
      parseRollbackLineage q.digest = some (p.epoch, q.epoch, forward) → Moves p q

theorem rollback_declared {previousEpoch incomingEpoch : Int} {digest : String}
    (h : isDeterministicRollbackLineage previousEpoch incomingEpoch digest = true) :
    incomingEpoch < previousEpoch ∧ ∃ forward, previousEpoch ≤ forward ∧
      parseRollbackLineage digest = some (previousEpoch, incomingEpoch, forward) := by
  unfold isDeterministicRollbackLineage at h
  rw [Bool.and_eq_true, decide_eq_true_eq] at h
  obtain ⟨hlt, h⟩ := h
  refine ⟨hlt, ?_⟩
  cases hparse : parseRollbackLineage digest with
  | none => rw [hparse] at h; cases h
  | some lineage =>
    obtain ⟨fromSeq, toSeq, forward⟩ := lineage
    rw [hparse] at h
    simp only [Option.any_some, Bool.and_eq_true, decide_eq_true_eq] at h
    obtain ⟨⟨⟨rfl, rfl⟩, -⟩, hfor⟩ := h
    exact ⟨forward, hfor, rfl⟩

theorem snapshot_declared {previousEpoch incomingEpoch : Int} {digest : String}
    (h : isDeterministicSnapshotCutover previousEpoch incomingEpoch digest = true) :
    wrap64 (previousEpoch + 1) < incomingEpoch ∧
      parseSnapshotCutoverLineage digest = some (previousEpoch, incomingEpoch) := by
  unfold isDeterministicSnapshotCutover at h
  rw [Bool.and_eq_true, decide_eq_true_eq] at h
  obtain ⟨hlt, h⟩ := h
  refine ⟨hlt, ?_⟩
  cases hparse : parseSnapshotCutoverLineage digest with
  | none => rw [hparse] at h; cases h
  | some lineage =>
    obtain ⟨baseSeq, tailSeq⟩ := lineage
    rw [hparse] at h
    simp only [Option.any_some, Bool.and_eq_true, decide_eq_true_eq] at h
    obtain ⟨⟨rfl, rfl⟩, -⟩ := h
    rfl

theorem wrap64_next {epoch : Int} (hlo : 0 ≤ epoch) (hhi : epoch ≤ 2 ^ 62) :
    wrap64 (epoch + 1) = epoch + 1 := by
  apply wrap64_of_isInt64
  constructor <;> omega

theorem nextPolicy_moves {p c : Policy} (hlo : 0 ≤ p.epoch) (hhi : p.epoch ≤ 2 ^ 62)
    (hver : c.version = p.version) : Moves p (nextPolicy p c) := by
  have hnext := wrap64_next hlo hhi
  have hpin : Moves p ⟨c.version, p.digest, p.epoch⟩ := .unchanged rfl rfl
  unfold nextPolicy
  simp only [hnext]
  split
  · split
    · rename_i heq
      exact .next heq
    · exact hpin
  · rw [if_neg (not_not_intro hver)]
    split
    · split
      · exact hpin
      · split
        · rename_i heq
          exact .next heq
        · split
          · rename_i hsna
            obtain ⟨hlt, hparse⟩ := snapshot_declared hsna
            rw [hnext] at hlt
            exact .snapshot hlt hparse
          · exact hpin
    · split
      · split
        · rename_i hrol
          obtain ⟨hlt, forward, hfor, hparse⟩ := rollback_declared hrol
          exact .rollback forward hlt hfor hparse
        · exact hpin
      · split
        · rename_i hnlt hngt hlin
          exact .lineage (by omega) hlin
        · exact hpin

theorem nextPolicy_stale {p c : Policy} (hver : c.version = p.version) (hlo : 0 ≤ p.epoch)
    (hhi : p.epoch ≤ 2 ^ 62) (hstale : c.epoch < p.epoch)
    (hc : parseRollbackLineage c.digest = none) : nextPolicy p c = p := by
  have hnext := wrap64_next hlo hhi
  have hno : isDeterministicRollbackLineage p.epoch c.epoch c.digest = false := by
    by_contra hrol
    obtain ⟨-, forward, -, hparse⟩ := rollback_declared (Bool.of_not_eq_false hrol)
    rw [hc] at hparse
    cases hparse
  have hnot : ¬ c.epoch = p.epoch + 1 := by omega
  have hngt : ¬ p.epoch < c.epoch := by omega
  unfold nextPolicy
  simp only [hnext, hno, hnot, hngt, hstale, hver, ne_eq, not_true_eq_false, if_false, if_true,
    Bool.false_eq_true, ite_self]

theorem nextPolicy_normal {p c : Policy} (hp : p.Normal) (hc : c.Normal) :
    (nextPolicy p c).Normal := by
  have hpin : Policy.Normal ⟨c.version, p.digest, p.epoch⟩ := ⟨hc.version, hp.digest, hp.epoch⟩
  have hmax : 0 ≤ max (wrap64 (p.epoch + 1)) c.epoch := Int.le_trans hc.epoch (Int.le_max_right _ _)
  have hnew : Policy.Normal ⟨c.version, c.digest, max (wrap64 (p.epoch + 1)) c.epoch⟩ :=
    ⟨hc.version, hc.digest, hmax⟩
  unfold nextPolicy
  simp only
  split_ifs
  all_goals first
    | exact hc
    | exact hpin
    | exact hnew

/-- The epochs that a reconciliation meets are at most `2 ^ 62`. -/
def InRange (a : Controller) (cfg : Config) : Prop :=
  a.policyEpoch ≤ 2 ^ 62 ∧ cfg.policyManifestRefreshEpoch ≤ 2 ^ 62

/-- A configuration of the version that declares no rollback. -/
def StaysForward (version : String) (cfg : Config) : Prop :=
  cfg.policy.version = version ∧ parseRollbackLineage cfg.policy.digest = none

theorem Reconciled.normal {a a' : Controller} {cfg : Config} (h : Reconciled a cfg a')
    (ha : a.policy.Normal) : a'.policy.Normal := by
  rw [h.policy ha]
  exact nextPolicy_normal ha cfg.policy_normal

theorem nextPolicy_version (p c : Policy) : (nextPolicy p c).version = c.version := by
  unfold nextPolicy
  simp only
  split_ifs <;> rfl

theorem nextPolicy_epoch_le {p c : Policy} (hver : c.version = p.version) (hlo : 0 ≤ p.epoch)
    (hhi : p.epoch ≤ 2 ^ 62) (hc : parseRollbackLineage c.digest = none) :
    p.epoch ≤ (nextPolicy p c).epoch := by
  by_cases hstale : c.epoch < p.epoch
  · have hkept := nextPolicy_stale hver hlo hhi hstale hc
    exact Int.le_of_eq (congrArg Policy.epoch hkept.symm)
  · have hc' : p.epoch ≤ c.epoch := by omega
    unfold nextPolicy
    simp only
    split_ifs
    all_goals first
      | exact hc'
      | exact Int.le_refl _
      | exact Int.le_trans hc' (Int.le_max_right _ _)

/-- Between two controllers of one version the epoch moves by a declared step only and the digest
of one epoch by a lineage rule only. Where from some point on the version stays and no rollback is
declared, the epoch does not fall and an earlier configuration changes nothing. -/
theorem policy_moves_by_declared_steps (first : Config) {cfgs : List Config} {a : Controller}
    (hrun : Run Reconciled InRange (newAutoTuneController first) cfgs a) :
    (∀ cfg a', InRange a cfg → Reconciled a cfg a' → a'.policy.version = a.policy.version →
      Moves a.policy a'.policy) ∧
    ∀ more a', Run Reconciled (fun t cfg => InRange t cfg ∧ StaysForward a.policy.version cfg)
        a more a' →
      a.policy.epoch ≤ a'.policy.epoch ∧
      ∀ cfg a'', InRange a' cfg → StaysForward a.policy.version cfg → Reconciled a' cfg a'' →
        a'.policy.epoch ≤ a''.policy.epoch ∧
          (cfg.policy.epoch < a'.policy.epoch → a''.policy = a'.policy) := by
  have hnor : a.policy.Normal := by
    refine hrun.invariant (P := fun t => t.policy.Normal) first.policy_normal ?_
    intro t cfg t' ht _ hstep
    exact hstep.normal ht
  constructor
  · intro cfg a' hrange hstep hver
    rw [hstep.policy hnor] at hver ⊢
    rw [nextPolicy_version] at hver
    exact nextPolicy_moves hnor.epoch hrange.1 hver
  · intro more a' hmore
    have h : a'.policy.Normal ∧ a'.policy.version = a.policy.version ∧
        a.policy.epoch ≤ a'.policy.epoch := by
      refine hmore.invariant (P := fun t => t.policy.Normal ∧ t.policy.version = a.policy.version ∧
        a.policy.epoch ≤ t.policy.epoch) ⟨hnor, rfl, Int.le_refl _⟩ ?_
      rintro t cfg t' ⟨ht, hver, hle⟩ ⟨hrange, hcfg⟩ hstep
      have hnext := nextPolicy_epoch_le (hcfg.1.trans hver.symm) ht.epoch hrange.1 hcfg.2
      rw [hstep.policy ht]
      exact ⟨nextPolicy_normal ht cfg.policy_normal, (nextPolicy_version _ _).trans hcfg.1,
        Int.le_trans hle hnext⟩
    obtain ⟨ha', hver, hle⟩ := h
    refine ⟨hle, fun cfg a'' hrange hcfg hstep => ?_⟩
    have hsame := hcfg.1.trans hver.symm
    rw [hstep.policy ha']
    refine ⟨nextPolicy_epoch_le hsame ha'.epoch hrange.1 hcfg.2, fun hstale => ?_⟩
    exact nextPolicy_stale hsame ha'.epoch hrange.1 hstale hcfg.2

theorem policy_moves_by_declared_steps_forward :
    let first : Config := ⟨"policy-v2", "manifest-a", 1, 0⟩
    let second : Config := ⟨"policy-v2", "manifest-b", 2, 0⟩
    ∃ a, Run Reconciled InRange (newAutoTuneController first) [second] a ∧
      ∀ a', Reconciled a first a' → a'.policy = a.policy := by
  intro first second
  have hrun : Run Reconciled InRange (newAutoTuneController first) ([] ++ [second]) _ :=
    .next .start ⟨by decide +kernel, by decide⟩ ⟨_, rfl, rfl⟩
  refine ⟨_, hrun, fun a' hstep => ?_⟩
  have hmoves := (policy_moves_by_declared_steps first hrun).2 [] _ .start
  exact (hmoves.2 first a' ⟨by decide +kernel, by decide⟩
    ⟨by decide +kernel, by decide +kernel⟩ hstep).2 (by decide +kernel)

end AutoTune

end MultichainIndexer
