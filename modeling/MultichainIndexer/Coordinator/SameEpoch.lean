import MultichainIndexer.Coordinator.PolicyLineage

/-!
# Digests of one epoch

The digests of a rollback fence go through stages: the fence, its tombstone, the
expiry of the tombstone, the quarantine of late markers, and their release with
the windows after it. The rules adopt a digest of the next stage, a later owner
of the release window, and a tombstone from any stage. A rank orders the digests
by their stage and then by their ownership; every adoption other than that of a
tombstone raises it.
-/

namespace MultichainIndexer

open Runs

namespace AutoTune

def stage (epoch : Int) (digest : String) : Nat :=
  if hasRollbackFenceEpochCompactionTombstone digest then 1
  else if isRollbackFenceTombstoneExpiryDigest epoch digest then 2
  else if isRollbackFencePostExpiryLateMarkerQuarantineDigest epoch digest then 3
  else if isRollbackFencePostExpiryLateMarkerReleaseDigest epoch digest then 4
  else 0

def Adopts (epoch : Int) (previous incoming : String) : Prop :=
  resolveSameEpochPolicyLineage epoch previous incoming = some true

/-! ### When a rule adopts -/

theorem find_map_append (epoch : Int) (previous incoming : String)
    {adopting keeping : List SameEpochPolicyLineageRule}
    (hado : ∀ rule ∈ adopting, rule.adoptIncoming = true)
    (hkee : ∀ rule ∈ keeping, rule.adoptIncoming = false) :
    ((adopting ++ keeping).find? (·.applies epoch previous incoming)).map (·.adoptIncoming) =
      some true ↔ ∃ rule ∈ adopting, rule.applies epoch previous incoming = true := by
  rw [List.find?_append]
  cases hfind : adopting.find? (·.applies epoch previous incoming) with
  | some rule =>
    have hmem := List.mem_of_find?_eq_some hfind
    simp only [Option.some_or, Option.map_some, hado rule hmem, true_iff]
    have happ := List.find?_some hfind
    exact ⟨rule, hmem, happ⟩
  | none =>
    rw [List.find?_eq_none] at hfind
    constructor
    · intro h
      obtain ⟨rule, hrule, hadopt⟩ := Option.map_eq_some_iff.mp h
      rw [hkee rule (List.mem_of_find?_eq_some hrule)] at hadopt
      cases hadopt
    · rintro ⟨rule, hrule, happ⟩
      exact absurd happ (hfind rule hrule)

/-- The five rules that adopt come first, so one that keeps never hinders them. -/
theorem adopts_iff {epoch : Int} {previous incoming : String} : Adopts epoch previous incoming ↔
    isDeterministicRollbackFenceEpochCompactionTransition epoch previous incoming = true ∨
    isDeterministicRollbackFenceTombstoneExpiryTransition epoch previous incoming = true ∨
    isDeterministicRollbackFencePostExpiryLateMarkerQuarantineTransition epoch previous incoming =
      true ∨
    isDeterministicRollbackFencePostExpiryLateMarkerReleaseTransition epoch previous incoming =
      true ∨
    isDeterministicRollbackFencePostExpiryLateMarkerReleaseWindowTransition epoch previous
      incoming = true := by
  have hado : ∀ rule ∈ sameEpochPolicyLineageRules.take 5, rule.adoptIncoming = true := by
    simp [sameEpochPolicyLineageRules]
  have hkee : ∀ rule ∈ sameEpochPolicyLineageRules.drop 5, rule.adoptIncoming = false := by
    simp [sameEpochPolicyLineageRules]
  have h := find_map_append epoch previous incoming hado hkee
  rw [List.take_append_drop] at h
  refine h.trans ?_
  simp [sameEpochPolicyLineageRules]

/-! ### What a stage says about a digest -/

section Stage
variable {epoch : Int} {digest : String}

theorem anchored_of_pair {source target : String}
    (h : validateLineagePair epoch source target = true) :
    validateRollbackLineage epoch source = true ∧ validateRollbackLineage epoch target = true := by
  unfold validateLineagePair at h
  split at h
  · rename_i lineage lineage' hsource htarget
    simp only [Bool.and_eq_true, decide_eq_true_eq] at h
    rw [validateRollbackLineage, validateRollbackLineage, hsource, htarget]
    exact ⟨h.1.2, h.2⟩
  · cases h

theorem tombstone_of_stage (h : stage epoch digest = 1) :
    hasRollbackFenceEpochCompactionTombstone digest = true := by
  unfold stage at h
  split at h
  · assumption
  · split_ifs at h <;> simp at h

theorem stage_of_tombstone (h : hasRollbackFenceEpochCompactionTombstone digest = true) :
    stage epoch digest = 1 := by
  rw [stage, if_pos h]

/-- What the three digests without a tombstone have in common, and how they differ. -/
structure Marked (digest : String) (hold release : Bool) : Prop where
  bare : hasRollbackFenceEpochCompactionTombstone digest = false
  expiry : (parseRollbackFenceTombstoneExpiryEpoch digest).isSome = true
  hold : (parseRollbackFenceLateMarkerHoldEpoch digest).isSome = hold
  release : (parseRollbackFenceLateMarkerReleaseEpoch digest).isSome = release

variable (hnormal : normalizePolicyManifestDigest digest = digest)
include hnormal

theorem marked_of_expiry (h : isRollbackFenceTombstoneExpiryDigest epoch digest = true) :
    Marked digest false false := by
  unfold isRollbackFenceTombstoneExpiryDigest at h
  simp only [hnormal, Bool.and_eq_true, Bool.not_eq_true', Option.isNone_iff_eq_none] at h
  obtain ⟨⟨⟨⟨-, hbare⟩, hhold⟩, hrel⟩, h⟩ := h
  cases hexp : parseRollbackFenceTombstoneExpiryEpoch digest with
  | none => rw [hexp] at h; cases h
  | some => exact ⟨hbare, by rw [hexp]; rfl, by rw [hhold]; rfl, by rw [hrel]; rfl⟩

theorem marked_of_quarantine
    (h : isRollbackFencePostExpiryLateMarkerQuarantineDigest epoch digest = true) :
    Marked digest true false := by
  unfold isRollbackFencePostExpiryLateMarkerQuarantineDigest at h
  simp only [hnormal, Bool.and_eq_true, Bool.not_eq_true', Option.isNone_iff_eq_none] at h
  obtain ⟨⟨⟨-, hbare⟩, hrel⟩, h⟩ := h
  split at h
  · rename_i hexp hhold
    exact ⟨hbare, by rw [hexp]; rfl, by rw [hhold]; rfl, by rw [hrel]; rfl⟩
  · cases h

theorem marked_of_release
    (h : isRollbackFencePostExpiryLateMarkerReleaseDigest epoch digest = true) :
    Marked digest true true := by
  unfold isRollbackFencePostExpiryLateMarkerReleaseDigest at h
  simp only [hnormal, Bool.and_eq_true, Bool.not_eq_true'] at h
  obtain ⟨⟨-, hbare⟩, h⟩ := h
  split at h
  · rename_i hexp hhold hrel
    exact ⟨hbare, by rw [hexp]; rfl, by rw [hhold]; rfl, by rw [hrel]; rfl⟩
  · cases h

theorem stage_of_expiry (h : isRollbackFenceTombstoneExpiryDigest epoch digest = true) :
    stage epoch digest = 2 := by
  rw [stage, (marked_of_expiry hnormal h).bare, if_neg (by decide), if_pos h]

theorem stage_of_quarantine
    (h : isRollbackFencePostExpiryLateMarkerQuarantineDigest epoch digest = true) :
    stage epoch digest = 3 := by
  have hmar := marked_of_quarantine hnormal h
  have hnot : ¬ isRollbackFenceTombstoneExpiryDigest epoch digest = true := by
    intro hexp
    have := (marked_of_expiry hnormal hexp).hold
    rw [hmar.hold] at this
    cases this
  rw [stage, hmar.bare, if_neg (by decide), if_neg hnot, if_pos h]

theorem stage_of_release
    (h : isRollbackFencePostExpiryLateMarkerReleaseDigest epoch digest = true) :
    stage epoch digest = 4 := by
  have hmar := marked_of_release hnormal h
  have hnot : ¬ isRollbackFenceTombstoneExpiryDigest epoch digest = true := by
    intro hexp
    have := (marked_of_expiry hnormal hexp).release
    rw [hmar.release] at this
    cases this
  have hnot' : ¬ isRollbackFencePostExpiryLateMarkerQuarantineDigest epoch digest = true := by
    intro hqua
    have := (marked_of_quarantine hnormal hqua).release
    rw [hmar.release] at this
    cases this
  rw [stage, hmar.bare, if_neg (by decide), if_neg hnot, if_neg hnot', if_pos h]

omit hnormal

theorem expiry_of_stage (h : stage epoch digest = 2) :
    isRollbackFenceTombstoneExpiryDigest epoch digest = true := by
  unfold stage at h
  split_ifs at h <;> simp_all

theorem quarantine_of_stage (h : stage epoch digest = 3) :
    isRollbackFencePostExpiryLateMarkerQuarantineDigest epoch digest = true := by
  unfold stage at h
  split_ifs at h <;> simp_all

theorem release_of_stage (h : stage epoch digest = 4) :
    isRollbackFencePostExpiryLateMarkerReleaseDigest epoch digest = true := by
  unfold stage at h
  split_ifs at h <;> simp_all

theorem stage_le (epoch : Int) (digest : String) : stage epoch digest ≤ 4 := by
  unfold stage
  split_ifs <;> omega

end Stage

/-! ### The rank of a digest -/

theorem lt_of_compare {left right : List Int}
    (h : compareRollbackFenceOwnershipOrdering left right < 0) : left < right := by
  induction left, right using compareRollbackFenceOwnershipOrdering.induct with
  | case1 l left r right hlt => exact List.cons_lt_cons_iff.mpr (.inl hlt)
  | case2 l left r right hle hgt =>
    rw [compareRollbackFenceOwnershipOrdering, if_neg hle, if_pos hgt] at h
    omega
  | case3 l left r right hle hge ih =>
    rw [compareRollbackFenceOwnershipOrdering, if_neg hle, if_neg hge] at h
    exact List.cons_lt_cons_iff.mpr (.inr ⟨by omega, ih h⟩)
  | case4 left right hcons =>
    rw [compareRollbackFenceOwnershipOrdering] at h
    · omega
    · exact hcons

def markerFlags (digest : String) (markers : List Nat) : List Int :=
  markers.map fun idx => if hasMarker digest idx then 1 else 0

/-- The markers are compared before the fields, each as whether it is there. -/
theorem lt_of_progression {source target : String} {markers : List Nat} {left right : List Int}
    (h : (match stageProgression source target markers with
      | some decided => decided
      | none => decide (compareRollbackFenceOwnershipOrdering left right < 0)) = true) :
    markerFlags source markers ++ left < markerFlags target markers ++ right := by
  induction markers with
  | nil => exact lt_of_compare (of_decide_eq_true h)
  | cons idx markers ih =>
    unfold stageProgression at h
    simp only [markerFlags, List.map_cons, List.cons_append]
    cases hsource : hasMarker source idx <;> cases htarget : hasMarker target idx <;>
      simp only [hsource, htarget, Bool.not_true, Bool.not_false, Bool.and_true, Bool.and_false,
        Bool.false_eq_true, if_true, if_false] at h ⊢
    · exact List.cons_lt_cons_iff.mpr (.inr ⟨rfl, ih h⟩)
    · exact List.cons_lt_cons_iff.mpr (.inl (by decide))
    · exact List.cons_lt_cons_iff.mpr (.inr ⟨rfl, ih h⟩)

def rank (epoch : Int) (digest : String) : List Int :=
  stage epoch digest ::
    match parseRollbackFenceOwnershipOrdering epoch digest with
    | some ownership => markerFlags digest stageProgressionMarkers ++ ownership
    | none => []

section Rank
variable {epoch : Int} {source target : String}

theorem rank_lt_of_stage (h : stage epoch source < stage epoch target) :
    rank epoch source < rank epoch target :=
  List.cons_lt_cons_iff.mpr (.inl (Int.ofNat_lt.mpr h))

theorem stage_le_of_rank (h : rank epoch source < rank epoch target) :
    stage epoch source ≤ stage epoch target := by
  rcases List.cons_lt_cons_iff.mp h with hlt | ⟨heq, -⟩
  · exact Nat.le_of_lt (Int.ofNat_lt.mp hlt)
  · exact Nat.le_of_eq (Int.ofNat_inj.mp heq)

variable (hsource : normalizePolicyManifestDigest source = source)
  (htarget : normalizePolicyManifestDigest target = target)
include hsource htarget

theorem window_rank
    (h : isDeterministicRollbackFencePostExpiryLateMarkerReleaseWindowTransition epoch source
      target = true) :
    stage epoch source = 4 ∧ stage epoch target = 4 ∧ rank epoch source < rank epoch target := by
  unfold isDeterministicRollbackFencePostExpiryLateMarkerReleaseWindowTransition at h
  simp only [hsource, htarget, Bool.and_eq_true] at h
  obtain ⟨⟨⟨⟨⟨⟨-, hs⟩, ht⟩, -⟩, -⟩, -⟩, h⟩ := h
  have hs' := stage_of_release hsource hs
  have ht' := stage_of_release htarget ht
  refine ⟨hs', ht', ?_⟩
  unfold rank
  rw [hs', ht']
  split at h
  · rename_i left right hleft hright
    rw [hleft, hright]
    exact List.cons_lt_cons_iff.mpr (.inr ⟨rfl, lt_of_progression h⟩)
  · cases h

/-- An adoption is that of a tombstone, or it raises the rank. -/
theorem rank_lt_of_adopts (h : Adopts epoch source target) :
    stage epoch target = 1 ∨ rank epoch source < rank epoch target := by
  rcases adopts_iff.mp h with h | h | h | h | h
  · unfold isDeterministicRollbackFenceEpochCompactionTransition at h
    simp only [htarget, Bool.and_eq_true] at h
    exact .inl (stage_of_tombstone h.1.2)
  · unfold isDeterministicRollbackFenceTombstoneExpiryTransition at h
    simp only [hsource, htarget, Bool.and_eq_true] at h
    have hs : hasRollbackFenceEpochCompactionTombstone source = true := by
      have hcom := h.1.1.2
      unfold isRollbackFenceEpochCompactionDigest at hcom
      simp only [hsource, Bool.and_eq_true] at hcom
      exact hcom.1.2
    refine .inr (rank_lt_of_stage ?_)
    rw [stage_of_tombstone hs, stage_of_expiry htarget h.1.2]
    decide
  · unfold isDeterministicRollbackFencePostExpiryLateMarkerQuarantineTransition at h
    simp only [hsource, htarget, Bool.and_eq_true] at h
    refine .inr (rank_lt_of_stage ?_)
    rw [stage_of_expiry hsource h.1.1.1.2, stage_of_quarantine htarget h.1.1.2]
    decide
  · unfold isDeterministicRollbackFencePostExpiryLateMarkerReleaseTransition at h
    simp only [hsource, htarget, Bool.and_eq_true] at h
    refine .inr (rank_lt_of_stage ?_)
    rw [stage_of_quarantine hsource h.1.1.1.1.1.2, stage_of_release htarget h.1.1.1.1.2]
    decide
  · exact .inr (window_rank hsource htarget h).2.2

end Rank

/-! ### Digests that share a lineage -/

structure SharedLineage (epoch : Int) (digests : List String) : Prop where
  nonneg : 0 ≤ epoch
  normal : ∀ d ∈ digests, normalizePolicyManifestDigest d = d
  lineage : ∀ d ∈ digests, ∀ d' ∈ digests, validateLineagePair epoch d d' = true
  expiry : ∀ d ∈ digests, ∀ d' ∈ digests, 2 ≤ stage epoch d → 2 ≤ stage epoch d' →
    parseRollbackFenceTombstoneExpiryEpoch d = parseRollbackFenceTombstoneExpiryEpoch d'
  hold : ∀ d ∈ digests, ∀ d' ∈ digests, 3 ≤ stage epoch d → 3 ≤ stage epoch d' →
    parseRollbackFenceLateMarkerHoldEpoch d = parseRollbackFenceLateMarkerHoldEpoch d'

/-- The stages follow one another up to that of `last`, which is the only digest of its stage or
the latest owner of the release window, and no digest is of a later stage than a tombstone. -/
structure Settled (epoch : Int) (digests : List String) (last : String) : Prop where
  mem : last ∈ digests
  stage_le : ∀ d ∈ digests, stage epoch d ≤ stage epoch last
  latest : ∀ d ∈ digests, d ≠ last → stage epoch d = stage epoch last →
    isDeterministicRollbackFencePostExpiryLateMarkerReleaseWindowTransition epoch d last = true
  consecutive : ∀ d ∈ digests, stage epoch d < stage epoch last →
    ∃ d' ∈ digests, stage epoch d' = stage epoch d + 1
  tombstone : ∀ d ∈ digests, stage epoch d = 1 → stage epoch last = 1

section Shared
variable {epoch : Int} {digests : List String} {last : String}

theorem agree_of_eq {parse : String → Option Int} {source target : String}
    (hsome : (parse source).isSome = true) (heq : parse source = parse target) :
    agree parse source target = true := by
  rw [agree, hsome, heq]
  simp

variable {d d' : String}

theorem SharedLineage.adopts_tombstone (h : SharedLineage epoch digests) (hd : d ∈ digests)
    (hd' : d' ∈ digests) (hstage : stage epoch d' = 1) : Adopts epoch d d' := by
  rw [adopts_iff]
  refine .inl ?_
  unfold isDeterministicRollbackFenceEpochCompactionTransition
  simp only [h.normal d hd, h.normal d' hd', decide_eq_true h.nonneg, h.lineage d hd d' hd',
    tombstone_of_stage hstage, Bool.and_self]

theorem SharedLineage.adopts_next (h : SharedLineage epoch digests) (hd : d ∈ digests)
    (hd' : d' ∈ digests) (hstage : stage epoch d' = stage epoch d + 1) : Adopts epoch d d' := by
  have hn := h.normal d hd
  have hn' := h.normal d' hd'
  have hpair := h.lineage d hd d' hd'
  have hepoch : decide (0 ≤ epoch) = true := decide_eq_true h.nonneg
  have hle := AutoTune.stage_le epoch d'
  have hcases : stage epoch d = 0 ∨ stage epoch d = 1 ∨ stage epoch d = 2 ∨ stage epoch d = 3 := by
    omega
  rcases hcases with hs | hs | hs | hs <;> rw [hs] at hstage
  · exact h.adopts_tombstone hd hd' hstage
  · refine adopts_iff.mpr (.inr (.inl ?_))
    unfold isDeterministicRollbackFenceTombstoneExpiryTransition isRollbackFenceEpochCompactionDigest
    simp only [hn, hn', hepoch, hpair, tombstone_of_stage hs, expiry_of_stage hstage,
      (anchored_of_pair hpair).1, Bool.and_self]
  · refine adopts_iff.mpr (.inr (.inr (.inl ?_)))
    have hexp := agree_of_eq (marked_of_expiry hn (expiry_of_stage hs)).expiry
      (h.expiry d hd d' hd' (by omega) (by omega))
    unfold isDeterministicRollbackFencePostExpiryLateMarkerQuarantineTransition
    simp only [hn, hn', hepoch, hpair, expiry_of_stage hs, quarantine_of_stage hstage, hexp,
      Bool.and_self]
  · refine adopts_iff.mpr (.inr (.inr (.inr (.inl ?_))))
    have hmar := marked_of_quarantine hn (quarantine_of_stage hs)
    have hexp := agree_of_eq hmar.expiry (h.expiry d hd d' hd' (by omega) (by omega))
    have hhold := agree_of_eq hmar.hold (h.hold d hd d' hd' (by omega) (by omega))
    have hrel := release_of_stage hstage
    obtain ⟨releaseEpoch, holdE, hreq, hheq, hlater⟩ :
        ∃ releaseEpoch holdE, parseRollbackFenceLateMarkerReleaseEpoch d' = some releaseEpoch ∧
          parseRollbackFenceLateMarkerHoldEpoch d' = some holdE ∧
            decide (holdE < releaseEpoch) = true := by
      unfold isRollbackFencePostExpiryLateMarkerReleaseDigest at hrel
      simp only [hn', Bool.and_eq_true] at hrel
      obtain ⟨-, hrel⟩ := hrel
      split at hrel
      · rename_i hheq hreq
        simp only [Bool.and_eq_true] at hrel
        exact ⟨_, _, hreq, hheq, hrel.2⟩
      · cases hrel
    unfold isDeterministicRollbackFencePostExpiryLateMarkerReleaseTransition
    simp only [hn, hn', hepoch, hpair, quarantine_of_stage hs, release_of_stage hstage, hexp,
      hhold, Bool.and_self, Bool.true_and, hreq, hheq]
    exact hlater

variable (h : SharedLineage epoch digests) (hlast : Settled epoch digests last)
include h hlast

theorem Settled.eq_of_tombstone (hd : d ∈ digests) (hs : stage epoch d = 1) : d = last := by
  by_contra hne
  have hl := hlast.tombstone d hd hs
  have hwindow := window_rank (h.normal d hd) (h.normal last hlast.mem)
    (hlast.latest d hd hne (by omega))
  omega

theorem Settled.rank_lt (hd : d ∈ digests) (hd' : d' ∈ digests) (hado : Adopts epoch d d') :
    d = d' ∨ rank epoch d < rank epoch d' := by
  rcases rank_lt_of_adopts (h.normal d hd) (h.normal d' hd') hado with hs | hlt
  · have hd'last := hlast.eq_of_tombstone h hd' hs
    have hle := hlast.stage_le d hd
    rw [← hd'last, hs] at hle
    by_cases hone : stage epoch d = 1
    · exact .inl ((hlast.eq_of_tombstone h hd hone).trans hd'last.symm)
    · exact .inr (rank_lt_of_stage (by omega))
  · exact .inr hlt

theorem Settled.not_adopts (hd : d ∈ digests) (hne : d ≠ last) : ¬ Adopts epoch last d := by
  intro hado
  rcases hlast.rank_lt h hlast.mem hd hado with heq | hlt
  · exact hne heq.symm
  · have hle := hlast.stage_le d hd
    by_cases hs : stage epoch d = stage epoch last
    · have hwin := (window_rank (h.normal d hd) (h.normal last hlast.mem)
        (hlast.latest d hd hne hs)).2.2
      exact List.lt_irrefl _ (List.lt_trans hlt hwin)
    · have := stage_le_of_rank hlt
      omega

theorem Settled.adopts_last (hd : d ∈ digests) (hne : d ≠ last)
    (hs : stage epoch last ≤ stage epoch d + 1) : Adopts epoch d last := by
  have hle := hlast.stage_le d hd
  by_cases heq : stage epoch d = stage epoch last
  · rw [adopts_iff]
    exact .inr (.inr (.inr (.inr (hlast.latest d hd hne heq))))
  · exact h.adopts_next hd hlast.mem (by omega)

end Shared

/-! ### Deliveries -/

instance (epoch : Int) (previous incoming : String) : Decidable (Adopts epoch previous incoming) :=
  inferInstanceAs (Decidable (_ = _))

def deliver (epoch : Int) (current incoming : String) : String :=
  if Adopts epoch current incoming then incoming else current

theorem deliver_self (epoch : Int) (digest : String) : deliver epoch digest digest = digest :=
  ite_self _

theorem nextPolicy_same {p c : Policy} (hver : c.version = p.version)
    (hepoch : c.epoch = p.epoch) :
    nextPolicy p c = ⟨p.version, deliver p.epoch p.digest c.digest, p.epoch⟩ := by
  obtain ⟨version, digest, epoch⟩ := p
  obtain ⟨version', digest', epoch'⟩ := c
  simp only at hver hepoch
  subst hver hepoch
  have hnext : ¬ epoch' = wrap64 (epoch' + 1) := by
    unfold wrap64
    omega
  unfold nextPolicy deliver
  by_cases hdig : digest' = digest
  · subst hdig
    simp [hnext]
  · simp only [hdig, and_false, if_false, ne_eq, not_true_eq_false, Int.lt_irrefl]
    by_cases hado : Adopts epoch' digest digest'
    · rw [if_pos hado]
      exact if_pos hado
    · rw [if_neg hado]
      exact if_neg hado

/-- The configuration carries one of the digests, under the version and the epoch. -/
structure Delivers (version : String) (epoch : Int) (digests : List String) (cfg : Config) :
    Prop where
  version : cfg.policy.version = version
  epoch : cfg.policy.epoch = epoch
  digest : cfg.policy.digest ∈ digests

/-- Every digest is delivered once after all digests of earlier stages were. -/
def Complete (epoch : Int) (digests delivered : List String) : Prop :=
  ∀ d ∈ digests, ∃ before after, delivered = before ++ d :: after ∧
    ∀ d' ∈ digests, stage epoch d' < stage epoch d → d' ∈ before

section Delivered
variable {version : String} {epoch : Int} {digests : List String}

variable {a : Controller} {d d' : String} {delivered : List String}

theorem run_policy {a' : Controller} {cfgs : List Config} (ha : a.policy.Normal)
    (hver : a.policy.version = version) (hepoch : a.policy.epoch = epoch)
    (hrun : Run Reconciled (fun _ cfg => Delivers version epoch digests cfg) a cfgs a') :
    a'.policy = ⟨version, (cfgs.map (·.policy.digest)).foldl (deliver epoch) a.policy.digest, epoch⟩ ∧
      a'.policy.Normal := by
  induction hrun with
  | start =>
    refine ⟨?_, ha⟩
    rw [← hver, ← hepoch]
    rfl
  | @next cfgs t t' cfg hrun hcfg hstep ih =>
    obtain ⟨hpol, hnormal⟩ := ih
    refine ⟨?_, hstep.normal hnormal⟩
    have hv : cfg.policy.version = t.policy.version := by rw [hcfg.version, hpol]
    have he : cfg.policy.epoch = t.policy.epoch := by rw [hcfg.epoch, hpol]
    rw [hstep.policy hnormal, nextPolicy_same hv he, hpol, List.map_append, List.foldl_append]
    rfl

theorem exists_delivered (ha : a.policy.Normal) (hver : a.policy.version = version)
    (hepoch : a.policy.epoch = epoch) {cfg : Config} (hcfg : Delivers version epoch digests cfg) :
    ∃ a', Run Reconciled (fun _ cfg => Delivers version epoch digests cfg) a [cfg] a' ∧
      a'.policy = ⟨version, deliver epoch a.policy.digest cfg.policy.digest, epoch⟩ ∧
      a'.policy.Normal := by
  have hrun : Run Reconciled (fun _ cfg => Delivers version epoch digests cfg) a ([] ++ [cfg]) _ :=
    .next .start hcfg ⟨a, rfl, rfl⟩
  exact ⟨_, hrun, run_policy ha hver hepoch hrun⟩

theorem delivered_mem {a' : Controller} {cfgs : List Config}
    (hrun : Run Reconciled (fun _ cfg => Delivers version epoch digests cfg) a cfgs a') :
    ∀ d ∈ cfgs.map (·.policy.digest), d ∈ digests := by
  induction hrun with
  | start => exact nofun
  | next _ hcfg _ ih =>
    intro d hd
    rw [List.map_append, List.mem_append] at hd
    rcases hd with hd | hd
    · exact ih d hd
    · rw [List.map_singleton, List.mem_singleton] at hd
      exact hd ▸ hcfg.digest

theorem deliver_mem (hd : d ∈ digests) (hd' : d' ∈ digests) : deliver epoch d d' ∈ digests := by
  unfold deliver
  split <;> assumption

theorem foldl_deliver_mem (hmem : ∀ d ∈ delivered, d ∈ digests) (hd : d ∈ digests) :
    delivered.foldl (deliver epoch) d ∈ digests := by
  induction delivered generalizing d with
  | nil => exact hd
  | cons d' delivered ih =>
    have hd' := hmem d' List.mem_cons_self
    exact ih (List.forall_mem_cons.mp hmem).2 (deliver_mem hd hd')

variable {last : String} (h : SharedLineage epoch digests) (hlast : Settled epoch digests last)
include h hlast

theorem deliver_rank (hd : d ∈ digests) (hd' : d' ∈ digests) :
    deliver epoch d d' = d ∨ rank epoch d < rank epoch (deliver epoch d d') := by
  unfold deliver
  split
  · rename_i hado
    rcases hlast.rank_lt h hd hd' hado with heq | hlt
    · exact .inl heq.symm
    · exact .inr hlt
  · exact .inl rfl

theorem foldl_deliver_rank (hmem : ∀ d ∈ delivered, d ∈ digests) (hd : d ∈ digests) :
    delivered.foldl (deliver epoch) d = d ∨
      rank epoch d < rank epoch (delivered.foldl (deliver epoch) d) := by
  induction delivered generalizing d with
  | nil => exact .inl rfl
  | cons d' delivered ih =>
    have hd' := hmem d' List.mem_cons_self
    have hnow : deliver epoch d d' ∈ digests := deliver_mem hd hd'
    have hrest := ih (List.forall_mem_cons.mp hmem).2 hnow
    rw [List.foldl_cons]
    rcases deliver_rank h hlast hd hd' with heq | hlt
    · rw [heq] at hrest ⊢
      exact hrest
    · rcases hrest with heq | hlt'
      · rw [heq]
        exact .inr hlt
      · exact .inr (List.lt_trans hlt hlt')

theorem foldl_deliver_stage (hmem : ∀ d ∈ delivered, d ∈ digests) (hd : d ∈ digests) :
    stage epoch d ≤ stage epoch (delivered.foldl (deliver epoch) d) := by
  rcases foldl_deliver_rank h hlast hmem hd with heq | hlt
  · rw [heq]
  · exact stage_le_of_rank hlt

theorem foldl_deliver_reaches (hmem : ∀ d ∈ delivered, d ∈ digests) (hd : d ∈ digests)
    (hd' : d' ∈ delivered) (hlow : ∀ x ∈ digests, stage epoch d' ≤ stage epoch x + 1) :
    stage epoch d' ≤ stage epoch (delivered.foldl (deliver epoch) d) := by
  obtain ⟨before, after, rfl⟩ := List.append_of_mem hd'
  obtain ⟨hmemB, hmemA⟩ := List.forall_mem_append.mp hmem
  have hmemA := (List.forall_mem_cons.mp hmemA).2
  have hd'mem := hmem d' hd'
  rw [List.foldl_append, List.foldl_cons]
  generalize hs : before.foldl (deliver epoch) d = s
  have hsmem : s ∈ digests := hs ▸ foldl_deliver_mem hmemB hd
  have hstep : stage epoch d' ≤ stage epoch (deliver epoch s d') := by
    have hnext := hlow s hsmem
    unfold deliver
    split
    · exact Nat.le_refl _
    · rename_i hnot
      by_contra hlt
      exact hnot (h.adopts_next hsmem hd'mem (by omega))
  exact Nat.le_trans hstep (foldl_deliver_stage h hlast hmemA (deliver_mem hsmem hd'mem))

theorem foldl_deliver_last (hmem : ∀ d ∈ delivered, d ∈ digests) :
    delivered.foldl (deliver epoch) last = last := by
  induction delivered with
  | nil => rfl
  | cons d delivered ih =>
    have hkeep : deliver epoch last d = last := by
      by_cases heq : d = last
      · rw [heq, deliver_self]
      · exact if_neg (hlast.not_adopts h (hmem d List.mem_cons_self) heq)
    rw [List.foldl_cons, hkeep]
    exact ih (List.forall_mem_cons.mp hmem).2

omit h in
theorem Settled.two_le_stage (htwo : 2 ≤ stage epoch last) (hd : d ∈ digests) :
    2 ≤ stage epoch d := by
  have hnone : ∀ d ∈ digests, stage epoch d ≠ 1 := by
    intro d hd hs
    have := hlast.tombstone d hd hs
    omega
  by_contra hlt
  have hone := hnone d hd
  obtain ⟨d', hd', hs'⟩ := hlast.consecutive d hd (by omega)
  exact hnone d' hd' (by omega)

/-- Complete deliveries end in the last digest, whichever came first. -/
theorem complete_deliver (hmem : ∀ d ∈ delivered, d ∈ digests)
    (hcom : Complete epoch digests delivered) (hd : d ∈ digests) :
    delivered.foldl (deliver epoch) d = last := by
  obtain ⟨before, after, rfl, hear⟩ := hcom last hlast.mem
  obtain ⟨hmemB, hmemA⟩ := List.forall_mem_append.mp hmem
  have hmemA := (List.forall_mem_cons.mp hmemA).2
  rw [List.foldl_append, List.foldl_cons]
  generalize hs : before.foldl (deliver epoch) d = s
  have hsmem : s ∈ digests := hs ▸ foldl_deliver_mem hmemB hd
  have hnear : stage epoch last ≤ stage epoch s + 1 := by
    by_contra hfar
    have htwo : 2 ≤ stage epoch last := by omega
    have hs2 := hlast.two_le_stage htwo hsmem
    have hle := AutoTune.stage_le epoch last
    -- the only gap left is from the expiry to the release, and the quarantine was delivered
    obtain ⟨d', hd', hd's⟩ := hlast.consecutive s hsmem (by omega)
    have hd'before := hear d' hd' (by omega)
    have hreach := foldl_deliver_reaches h hlast hmemB hd hd'before fun x hx => by
      have := hlast.two_le_stage htwo hx
      omega
    rw [hs] at hreach
    omega
  have hlasN : deliver epoch s last = last := by
    by_cases heq : s = last
    · rw [heq, deliver_self]
    · exact if_pos (hlast.adopts_last h hsmem heq hnear)
  rw [hlasN]
  exact foldl_deliver_last h hlast hmemA

end Delivered

/-- A digest is of an earlier stage, or an earlier owner of the release window. -/
def Earlier (epoch : Int) (digest digest' : String) : Prop :=
  stage epoch digest < stage epoch digest' ∨
    isDeterministicRollbackFencePostExpiryLateMarkerReleaseWindowTransition epoch digest digest' =
      true

/-- Digests of one lineage whose stages are settled: complete deliveries in any order end in the
last one, and a digest that was current is never replaced by an earlier one. -/
theorem same_epoch_digests_converge {version : String} {epoch : Int} {digests : List String}
    {last : String} (h : SharedLineage epoch digests) (hlast : Settled epoch digests last)
    (first : Config) (hfirst : Delivers version epoch digests first) {rest : List Config}
    {a : Controller}
    (hrun : Run Reconciled (fun _ cfg => Delivers version epoch digests cfg)
      (newAutoTuneController first) rest a) :
    (Complete epoch digests ((first :: rest).map (·.policy.digest)) → a.policy.digest = last) ∧
    ∀ more a', Run Reconciled (fun _ cfg => Delivers version epoch digests cfg) a more a' →
      ¬ Earlier epoch a'.policy.digest a.policy.digest := by
  have hnew : (newAutoTuneController first).policy.Normal := first.policy_normal
  obtain ⟨hpol, hnormal⟩ := run_policy hnew hfirst.version hfirst.epoch hrun
  have hmem := delivered_mem hrun
  have ha : a.policy.digest ∈ digests := by
    rw [hpol]
    exact foldl_deliver_mem hmem hfirst.digest
  constructor
  · intro hcom
    have hall : ∀ d ∈ (first :: rest).map (·.policy.digest), d ∈ digests := by
      intro d hd
      rcases List.mem_cons.mp hd with rfl | hd
      · exact hfirst.digest
      · exact hmem d hd
    have hend := complete_deliver h hlast hall hcom hfirst.digest
    rw [List.map_cons, List.foldl_cons, deliver_self] at hend
    rw [hpol]
    exact hend
  · intro more a' hmore hear
    have hv : a.policy.version = version := by rw [hpol]
    have he : a.policy.epoch = epoch := by rw [hpol]
    have hpol' := (run_policy hnormal hv he hmore).1
    have hrank := foldl_deliver_rank h hlast (delivered_mem hmore) ha
    have hdig : a'.policy.digest =
        (more.map (·.policy.digest)).foldl (deliver epoch) a.policy.digest := by rw [hpol']
    have ha' : a'.policy.digest ∈ digests := by
      rw [hdig]
      exact foldl_deliver_mem (delivered_mem hmore) ha
    have hback : rank epoch a'.policy.digest < rank epoch a.policy.digest := by
      rcases hear with hlt | hwin
      · exact rank_lt_of_stage hlt
      · exact (window_rank (h.normal _ ha') (h.normal _ ha) hwin).2.2
    rw [← hdig] at hrank
    rcases hrank with heq | hlt
    · rw [heq] at hback
      exact List.lt_irrefl _ hback
    · exact List.lt_irrefl _ (List.lt_trans hlt hback)

section Deliveries

set_option maxRecDepth 2000

def fenceDigest : String := "rollback-from-seq=3|rollback-to-seq=2|rollback-forward-seq=3"

def tombstoneDigest : String :=
  "rollback-from-seq=3|rollback-to-seq=2|rollback-forward-seq=3|rollback-fence-tombstone"

def expiryDigest : String :=
  "rollback-from-seq=3|rollback-to-seq=2|rollback-forward-seq=3|rollback-fence-tombstone-expiry-epoch=4"

def config (digest : String) : Config := ⟨"policy-v2", digest, 2, 0⟩

/-- What is read from a digest of the epoch 2. -/
structure Reads (digest : String) (n : Nat) : Prop where
  normal : normalizePolicyManifestDigest digest = digest
  lineage : parseRollbackLineage digest = some (3, 2, 3)
  stage : stage 2 digest = n

def plainTexts : List String := ["policy-v2", fenceDigest, tombstoneDigest, expiryDigest]

theorem plain_of_mem : ∀ text ∈ plainTexts, text.toList ≠ [] ∧
    text.toList.map Text.lowerChar = text.toList ∧
      Text.trimList Text.isSpace text.toList = text.toList := by
  decide +kernel

theorem normalizeOr_of_mem {default text : String} (h : text ∈ plainTexts) :
    normalizeOr default text = text := by
  obtain ⟨hne, hlower, htrim⟩ := plain_of_mem text h
  rw [← String.ofList_toList (s := text)]
  exact normalizeOr_ofList hne hlower htrim

-- the text stays a variable: the kernel would evaluate it
theorem reads_of_tokens {n : Nat} {text : String} (last : List String) (hmem : text ∈ plainTexts)
    (hlast : (last, n) ∈ [([], 0), (["rollback-fence-tombstone"], 1),
      (["rollback-fence-tombstone-expiry-epoch=4"], 2)])
    (htok : tokens text =
      ["rollback-from-seq=3", "rollback-to-seq=2", "rollback-forward-seq=3"] ++ last) :
    Reads text n := by
  have hnormal : normalizePolicyManifestDigest text = text := normalizeOr_of_mem hmem
  simp only [List.mem_cons, Prod.mk.injEq, List.not_mem_nil, or_false] at hlast
  refine ⟨hnormal, ?_, ?_⟩
  · simp only [parseRollbackLineage, lastValue, htok]
    rcases hlast with ⟨rfl, rfl⟩ | ⟨rfl, rfl⟩ | ⟨rfl, rfl⟩ <;> decide +kernel
  · simp only [AutoTune.stage, hasRollbackFenceEpochCompactionTombstone,
      isRollbackFenceTombstoneExpiryDigest, isRollbackFencePostExpiryLateMarkerQuarantineDigest,
      isRollbackFencePostExpiryLateMarkerReleaseDigest, validateRollbackLineage,
      parseRollbackLineage, lastValue, parseRollbackFenceTombstoneExpiryEpoch,
      parseRollbackFenceLateMarkerHoldEpoch, parseRollbackFenceLateMarkerReleaseEpoch,
      parseSingleKey, hnormal, htok]
    rcases hlast with ⟨rfl, rfl⟩ | ⟨rfl, rfl⟩ | ⟨rfl, rfl⟩ <;> decide +kernel

theorem reads_fenceDigest : Reads fenceDigest 0 :=
  reads_of_tokens [] (by simp [plainTexts]) (by simp) ((tokens_ofList _).trans rfl)

theorem reads_tombstoneDigest : Reads tombstoneDigest 1 :=
  reads_of_tokens ["rollback-fence-tombstone"] (by simp [plainTexts]) (by simp)
    ((tokens_ofList _).trans rfl)

theorem reads_expiryDigest : Reads expiryDigest 2 :=
  reads_of_tokens ["rollback-fence-tombstone-expiry-epoch=4"] (by simp [plainTexts]) (by simp)
    ((tokens_ofList _).trans rfl)

theorem delivers_config {digest : String} {digests : List String}
    (hnormal : normalizePolicyManifestDigest digest = digest) (hmem : digest ∈ digests) :
    Delivers "policy-v2" 2 digests (config digest) := by
  refine ⟨normalizeOr_of_mem List.mem_cons_self, rfl, ?_⟩
  rw [Config.policy, config, hnormal]
  exact hmem

theorem shared_fence_tombstone : SharedLineage 2 [fenceDigest, tombstoneDigest] where
  nonneg := by decide
  normal := by simp [reads_fenceDigest.normal, reads_tombstoneDigest.normal]
  lineage := by
    simp [validateLineagePair, anchored, reads_fenceDigest.lineage, reads_tombstoneDigest.lineage]
  expiry := by simp [reads_fenceDigest.stage, reads_tombstoneDigest.stage]
  hold := by simp [reads_fenceDigest.stage, reads_tombstoneDigest.stage]

theorem shared_tombstone_expiry : SharedLineage 2 [tombstoneDigest, expiryDigest] where
  nonneg := by decide
  normal := by simp [reads_tombstoneDigest.normal, reads_expiryDigest.normal]
  lineage := by
    simp [validateLineagePair, anchored, reads_tombstoneDigest.lineage, reads_expiryDigest.lineage]
  expiry := by simp [reads_tombstoneDigest.stage, reads_expiryDigest.stage]
  hold := by simp [reads_tombstoneDigest.stage, reads_expiryDigest.stage]

theorem settled_tombstone : Settled 2 [fenceDigest, tombstoneDigest] tombstoneDigest where
  mem := by simp
  stage_le := by simp [reads_fenceDigest.stage, reads_tombstoneDigest.stage]
  latest := by simp [reads_fenceDigest.stage, reads_tombstoneDigest.stage]
  consecutive := by simp [reads_fenceDigest.stage, reads_tombstoneDigest.stage]
  tombstone := by simp [reads_tombstoneDigest.stage]

theorem same_epoch_digests_converge_tombstone :
    ∃ a, Run Reconciled
      (fun _ cfg => Delivers "policy-v2" 2 [fenceDigest, tombstoneDigest] cfg)
      (newAutoTuneController (config tombstoneDigest)) [config fenceDigest, config tombstoneDigest]
      a ∧ a.policy.digest = tombstoneDigest := by
  have hfence : Delivers "policy-v2" 2 [fenceDigest, tombstoneDigest] (config fenceDigest) :=
    delivers_config reads_fenceDigest.normal List.mem_cons_self
  have htom : Delivers "policy-v2" 2 [fenceDigest, tombstoneDigest] (config tombstoneDigest) :=
    delivers_config reads_tombstoneDigest.normal (List.mem_cons_of_mem _ List.mem_cons_self)
  have hrun : Run Reconciled
      (fun _ cfg => Delivers "policy-v2" 2 [fenceDigest, tombstoneDigest] cfg)
      (newAutoTuneController (config tombstoneDigest))
      ([] ++ [config fenceDigest] ++ [config tombstoneDigest]) _ :=
    .next (.next .start hfence ⟨_, rfl, rfl⟩) htom ⟨_, rfl, rfl⟩
  refine ⟨_, hrun, (same_epoch_digests_converge shared_fence_tombstone settled_tombstone _
    htom hrun).1 ?_⟩
  have hdel : [config tombstoneDigest, config fenceDigest, config tombstoneDigest].map
      (·.policy.digest) = [tombstoneDigest, fenceDigest, tombstoneDigest] := by
    simp [Config.policy, config, reads_fenceDigest.normal, reads_tombstoneDigest.normal]
  show Complete 2 _ ([config tombstoneDigest, config fenceDigest, config tombstoneDigest].map _)
  rw [hdel]
  intro d hd
  simp only [List.mem_cons, List.not_mem_nil, or_false] at hd
  rcases hd with rfl | rfl
  · exact ⟨[tombstoneDigest], [tombstoneDigest], rfl, by simp [reads_fenceDigest.stage]⟩
  · exact ⟨[tombstoneDigest, fenceDigest], [], rfl, by simp⟩

/-- A tombstone that is delivered once more after its expiry was adopted replaces it. -/
theorem same_epoch_tombstone_returns :
    SharedLineage 2 [tombstoneDigest, expiryDigest] ∧
    stage 2 tombstoneDigest < stage 2 expiryDigest ∧
    ∃ a a', Run Reconciled
        (fun _ cfg => Delivers "policy-v2" 2 [tombstoneDigest, expiryDigest] cfg)
        (newAutoTuneController (config tombstoneDigest)) [config expiryDigest] a ∧
      a.policy.digest = expiryDigest ∧
      Run Reconciled (fun _ cfg => Delivers "policy-v2" 2 [tombstoneDigest, expiryDigest] cfg) a
        [config tombstoneDigest] a' ∧
      a'.policy.digest = tombstoneDigest := by
  have h := shared_tombstone_expiry
  have htmem : tombstoneDigest ∈ [tombstoneDigest, expiryDigest] := List.mem_cons_self
  have hemem : expiryDigest ∈ [tombstoneDigest, expiryDigest] :=
    List.mem_cons_of_mem _ List.mem_cons_self
  have htom := delivers_config reads_tombstoneDigest.normal htmem
  have hexp := delivers_config reads_expiryDigest.normal hemem
  have hforth : Adopts 2 tombstoneDigest expiryDigest :=
    h.adopts_next htmem hemem (by rw [reads_tombstoneDigest.stage, reads_expiryDigest.stage])
  have hback : Adopts 2 expiryDigest tombstoneDigest :=
    h.adopts_tombstone hemem htmem reads_tombstoneDigest.stage
  have htdi : (config tombstoneDigest).policy.digest = tombstoneDigest := reads_tombstoneDigest.normal
  have hedi : (config expiryDigest).policy.digest = expiryDigest := reads_expiryDigest.normal
  have hnew : (newAutoTuneController (config tombstoneDigest)).policy.Normal :=
    (config tombstoneDigest).policy_normal
  obtain ⟨a, hrun, hpol, hnormal⟩ :=
    exists_delivered hnew htom.version htom.epoch hexp
  have ha : a.policy.digest = expiryDigest := by
    rw [hpol, policy_newAutoTuneController, htdi, hedi]
    exact if_pos hforth
  have hv : a.policy.version = "policy-v2" := by rw [hpol]
  have he : a.policy.epoch = 2 := by rw [hpol]
  obtain ⟨a', hrun', hpol', -⟩ := exists_delivered hnormal hv he htom
  have ha' : a'.policy.digest = tombstoneDigest := by
    rw [hpol', ha, htdi]
    exact if_pos hback
  exact ⟨h, by rw [reads_tombstoneDigest.stage, reads_expiryDigest.stage]; decide, a, a', hrun, ha, hrun', ha'⟩

end Deliveries

end AutoTune

end MultichainIndexer
