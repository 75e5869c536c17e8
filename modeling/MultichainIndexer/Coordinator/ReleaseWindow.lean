import Mathlib.Data.Int.Order.Basic
import Mathlib.Data.List.Lex
import MultichainIndexer.Coordinator.SameEpoch
import Mathlib.Data.Option.Basic

/-!
# The order of the release windows

Release digests of one epoch that share their rollback lineage, the expiry of
the tombstone and the hold of late markers. Which of two replaces the other is
decided by the markers that only one of them has, and then by the fields of the
ownership. Both are one comparison of lists of one length: a strict weak order.
-/

namespace MultichainIndexer

open Text

namespace AutoTune

/-- A release digest with a valid ownership, of one lineage, expiry and hold. -/
structure WindowDigest (epoch : Int) (lineage : Int × Int × Int) (expiryEpoch holdEpoch : Int) where
  text : String
  release : isRollbackFencePostExpiryLateMarkerReleaseDigest epoch text = true
  owned : (parseRollbackFenceOwnershipOrdering epoch text).isSome = true
  lineage_eq : parseRollbackLineage (normalizePolicyManifestDigest text) = some lineage
  expiry_eq : parseRollbackFenceTombstoneExpiryEpoch (normalizePolicyManifestDigest text) =
    some expiryEpoch
  hold_eq : parseRollbackFenceLateMarkerHoldEpoch (normalizePolicyManifestDigest text) =
    some holdEpoch

section Compare

theorem compare_neg_iff {left right : List Int} (hlen : left.length = right.length) :
    compareRollbackFenceOwnershipOrdering left right < 0 ↔ left < right := by
  constructor
  · exact lt_of_compare
  · intro hlt
    induction left generalizing right with
    | nil =>
      obtain rfl := List.eq_nil_of_length_eq_zero hlen.symm
      exact absurd hlt (List.lt_irrefl _)
    | cons l left ih =>
      cases right with
      | nil => cases hlen
      | cons r right =>
        unfold compareRollbackFenceOwnershipOrdering
        rcases List.cons_lt_cons_iff.mp hlt with hhead | ⟨rfl, htail⟩
        · rw [if_pos hhead]
          omega
        · rw [if_neg (Int.lt_irrefl l), if_neg (Int.lt_irrefl l)]
          exact ih (Nat.succ_inj.mp hlen) htail

theorem progression_iff {source target : String} {markers : List Nat} {left right : List Int}
    (hlen : left.length = right.length) :
    (match stageProgression source target markers with
      | some decided => decided
      | none => decide (compareRollbackFenceOwnershipOrdering left right < 0)) = true ↔
      markerFlags source markers ++ left < markerFlags target markers ++ right := by
  constructor
  · exact lt_of_progression
  · intro hlt
    induction markers with
    | nil => exact decide_eq_true ((compare_neg_iff hlen).mpr hlt)
    | cons idx markers ih =>
      unfold stageProgression
      simp only [markerFlags, List.map_cons, List.cons_append] at hlt
      cases hsou : hasMarker source idx <;> cases htar : hasMarker target idx <;>
        rw [hsou, htar] at hlt
      · exact ih ((List.cons_lt_cons_iff.mp hlt).resolve_left (Int.lt_irrefl _)).2
      · rfl
      · rcases List.cons_lt_cons_iff.mp hlt with hhead | ⟨heq, -⟩
        · exact absurd hhead (by decide)
        · exact absurd heq (by decide)
      · exact ih ((List.cons_lt_cons_iff.mp hlt).resolve_left (Int.lt_irrefl _)).2

theorem ownership_length {epoch : Int} {digest : String} {ownership : List Int}
    (h : parseRollbackFenceOwnershipOrdering epoch digest = some ownership) :
    ownership.length = 12 + epochMarkers.length := by
  unfold parseRollbackFenceOwnershipOrdering at h
  simp only [Option.bind_eq_bind, Option.bind_eq_some_iff] at h
  obtain ⟨-, -, fields, -, releaseEpoch, -, -, -, -, -, -, -, -, -, -, -, -, -, -, -, -, -, -, -, h⟩ :=
    h
  rw [← Option.some.inj h, List.length_append, List.length_map, List.length_map]
  rfl

end Compare

namespace WindowDigest
variable {epoch : Int} {lineage : Int × Int × Int} {expiryEpoch holdEpoch : Int}

def key (d : WindowDigest epoch lineage expiryEpoch holdEpoch) : List Int :=
  markerFlags (normalizePolicyManifestDigest d.text) stageProgressionMarkers ++
    (parseRollbackFenceOwnershipOrdering epoch d.text).get d.owned

def Supersedes (source target : WindowDigest epoch lineage expiryEpoch holdEpoch) : Prop :=
  isDeterministicRollbackFencePostExpiryLateMarkerReleaseWindowTransition epoch source.text
    target.text = true

theorem supersedes_iff (source target : WindowDigest epoch lineage expiryEpoch holdEpoch) :
    Supersedes source target ↔ key source < key target := by
  have hparse : ∀ d : WindowDigest epoch lineage expiryEpoch holdEpoch,
      parseRollbackFenceOwnershipOrdering epoch (normalizePolicyManifestDigest d.text) =
        some ((parseRollbackFenceOwnershipOrdering epoch d.text).get d.owned) := by
    intro d
    rw [Option.some_get]
    unfold parseRollbackFenceOwnershipOrdering
    rw [normalizePolicyManifestDigest_idem]
  have hrel : ∀ d : WindowDigest epoch lineage expiryEpoch holdEpoch,
      isRollbackFencePostExpiryLateMarkerReleaseDigest epoch
        (normalizePolicyManifestDigest d.text) = true := by
    intro d
    have h := d.release
    unfold isRollbackFencePostExpiryLateMarkerReleaseDigest at h ⊢
    rwa [normalizePolicyManifestDigest_idem]
  obtain ⟨hepoch, hanc⟩ : 0 ≤ epoch ∧ anchored epoch lineage = true := by
    have h := source.release
    unfold isRollbackFencePostExpiryLateMarkerReleaseDigest at h
    simp only [Bool.and_eq_true, decide_eq_true_eq] at h
    refine ⟨h.1.1, ?_⟩
    obtain ⟨-, h⟩ := h
    split at h
    · simp only [validateRollbackLineage, source.lineage_eq, Option.any_some,
        Bool.and_eq_true] at h
      exact h.1.1.1
    · cases h
  have hpair : validateLineagePair epoch (normalizePolicyManifestDigest source.text)
      (normalizePolicyManifestDigest target.text) = true := by
    rw [validateLineagePair, source.lineage_eq, target.lineage_eq]
    simp [hanc]
  have hexp : agree parseRollbackFenceTombstoneExpiryEpoch
      (normalizePolicyManifestDigest source.text) (normalizePolicyManifestDigest target.text) =
        true := by
    rw [agree, source.expiry_eq, target.expiry_eq]
    simp
  have hhold : agree parseRollbackFenceLateMarkerHoldEpoch
      (normalizePolicyManifestDigest source.text) (normalizePolicyManifestDigest target.text) =
        true := by
    rw [agree, source.hold_eq, target.hold_eq]
    simp
  unfold Supersedes key isDeterministicRollbackFencePostExpiryLateMarkerReleaseWindowTransition
  simp only [hrel, hpair, hexp, hhold, hparse, hepoch, decide_true, Bool.and_self,
    Bool.true_and]
  apply progression_iff
  rw [ownership_length (Option.some_get _).symm, ownership_length (Option.some_get _).symm]

/-- Replacing is a strict weak order on the digests of a window. -/
theorem supersedes_strictWeak :
    (∀ a : WindowDigest epoch lineage expiryEpoch holdEpoch, ¬ Supersedes a a) ∧
    (∀ a b : WindowDigest epoch lineage expiryEpoch holdEpoch,
      Supersedes a b → ¬ Supersedes b a) ∧
    (∀ a b c : WindowDigest epoch lineage expiryEpoch holdEpoch,
      Supersedes a b → Supersedes b c → Supersedes a c) ∧
    ∀ a b c : WindowDigest epoch lineage expiryEpoch holdEpoch,
      ¬ Supersedes a b ∧ ¬ Supersedes b a → ¬ Supersedes b c ∧ ¬ Supersedes c b →
        ¬ Supersedes a c ∧ ¬ Supersedes c a := by
  simp only [supersedes_iff]
  refine ⟨?_, ?_, ?_, ?_⟩
  · intro a
    exact lt_irrefl (key a)
  · intro a b hab
    exact lt_asymm hab
  · intro a b c hab hbc
    exact lt_trans hab hbc
  · rintro a b c ⟨hab, hba⟩ ⟨hbc, hcb⟩
    -- two lists neither of which is the smaller one are the same
    have hleft : key a = key b := le_antisymm (not_lt.mp hba) (not_lt.mp hab)
    have hright : key b = key c := le_antisymm (not_lt.mp hcb) (not_lt.mp hbc)
    rw [hleft, hright]
    exact ⟨lt_irrefl _, lt_irrefl _⟩

end WindowDigest

section Witness

set_option maxRecDepth 4000

theorem foldlM_keep {α σ : Type} {f : σ → α → Option σ} {l : List α}
    (h : ∀ a ∈ l, ∀ s, f s a = some s) (s : σ) : l.foldlM f s = some s := by
  induction l with
  | nil => rfl
  | cons a l ih =>
    rw [List.foldlM_cons, h a List.mem_cons_self]
    exact ih (List.forall_mem_cons.mp h).2

theorem parseEpochMarker_none {digest : String} {keys : List String}
    (h : ∀ token ∈ tokens digest, ∀ key ∈ keys, hasPrefix token key = false) :
    parseEpochMarker digest keys = none := by
  unfold parseEpochMarker
  rw [foldlM_keep]
  · rfl
  · intro token htoken seen
    have hfind : keys.find? (hasPrefix token ·) = none := by
      rw [List.find?_eq_none]
      intro key hkey
      rw [h token htoken key hkey]
      exact Bool.false_ne_true
    rw [hfind]
    rfl

theorem hasPrefix_head {token head rest : String} (h : hasPrefix token head = false) :
    hasPrefix token (head ++ rest) = false := by
  rw [← Bool.not_eq_true] at h ⊢
  intro hfull
  apply h
  unfold hasPrefix at hfull ⊢
  rw [String.toList_append, List.isPrefixOf_iff_prefix] at hfull
  exact List.isPrefixOf_iff_prefix.mpr ((List.prefix_append _ _).trans hfull)

theorem hasPrefix_ofList (t k : List Char) :
    hasPrefix (String.ofList t) (String.ofList k) = k.isPrefixOf t := by
  rw [hasPrefix, String.toList_ofList, String.toList_ofList]

/-- How the keys of the cycles begin. -/
def cycleHeads : List String :=
  ["rollback-fence-resurrection-", "rollback-fence-late-resurrection-",
    "rollback-fence-post-late-resurrection-", "rollback-fence-post-marker-expiry-late-resurrection-",
    "rollback-fence-post-"]

theorem not_cycleKey {token : String} (hhead : ∀ head ∈ cycleHeads, hasPrefix token head = false)
    (stages : Nat) : ∀ key ∈ cycleKeys stages, hasPrefix token key = false := by
  simp only [cycleHeads, List.forall_mem_cons, List.not_mem_nil, false_implies, implies_true, and_true]
    at hhead
  obtain ⟨h₁, h₂, h₃, h₄, h₅⟩ := hhead
  unfold cycleKeys
  simp only [List.forall_mem_cons, List.not_mem_nil, false_implies, implies_true, and_true]
  exact ⟨hasPrefix_head h₁, hasPrefix_head h₂, hasPrefix_head h₃, hasPrefix_head h₄,
    hasPrefix_head h₅⟩

def released : String :=
  "rollback-from-seq=3|rollback-to-seq=2|rollback-forward-seq=3|rollback-fence-tombstone-expiry-epoch=4|rollback-fence-late-marker-hold-epoch=5|rollback-fence-late-marker-release-epoch=6"

def releasedLater : String :=
  "rollback-from-seq=3|rollback-to-seq=2|rollback-forward-seq=3|rollback-fence-tombstone-expiry-epoch=4|rollback-fence-late-marker-hold-epoch=5|rollback-fence-late-marker-release-epoch=7"

def windowTokens : List String :=
  ["rollback-from-seq=3", "rollback-to-seq=2", "rollback-forward-seq=3",
    "rollback-fence-tombstone-expiry-epoch=4", "rollback-fence-late-marker-hold-epoch=5"]

def releaseTokens : List String :=
  ["rollback-fence-late-marker-release-epoch=6", "rollback-fence-late-marker-release-epoch=7"]

theorem heads_released : ∀ token ∈ windowTokens ++ releaseTokens,
    ∀ keys ∈ epochMarkers.take 6, ∀ key ∈ keys, hasPrefix token key = false := by
  simp only [windowTokens, releaseTokens, epochMarkers, List.cons_append, List.nil_append,
    List.take_succ_cons, List.take_zero, List.forall_mem_cons, List.not_mem_nil, false_implies,
    implies_true, and_true]
  repeat' apply And.intro
  all_goals exact (hasPrefix_ofList _ _).trans rfl

theorem cycles_released : ∀ token ∈ windowTokens ++ releaseTokens,
    ∀ head ∈ cycleHeads, hasPrefix token head = false := by
  simp only [windowTokens, releaseTokens, cycleHeads, List.cons_append, List.nil_append,
    List.forall_mem_cons, List.not_mem_nil, false_implies, implies_true, and_true]
  repeat' apply And.intro
  all_goals exact (hasPrefix_ofList _ _).trans rfl

variable {digest last : String}

theorem markers_released (htok : tokens digest = windowTokens ++ [last])
    (hlast : last ∈ releaseTokens) : ∀ keys ∈ epochMarkers, parseEpochMarker digest keys = none := by
  intro keys hkeys
  apply parseEpochMarker_none
  rw [htok]
  intro token htoken
  replace htoken : token ∈ windowTokens ++ releaseTokens :=
    List.append_subset.mpr ⟨List.subset_append_left _ _, by simp [hlast]⟩ htoken
  rw [← List.take_append_drop 6 epochMarkers, List.mem_append] at hkeys
  rcases hkeys with hfirst | hcycle
  · exact heads_released token htoken keys hfirst
  · have hsta : ∃ stages, keys = cycleKeys stages := by
      simp only [epochMarkers, List.drop_succ_cons, List.drop_zero, List.mem_cons,
        List.not_mem_nil, or_false] at hcycle
      rcases hcycle with rfl | rfl | rfl | rfl | rfl | rfl | rfl | rfl | rfl | rfl | rfl | rfl |
        rfl | rfl | rfl | rfl <;> exact ⟨_, rfl⟩
    obtain ⟨stages, rfl⟩ := hsta
    exact not_cycleKey (cycles_released token htoken) stages

-- the digest stays a variable: the kernel would evaluate its text
theorem reads_released {n : Int}
    (hlast : (last, n) ∈ releaseTokens.zip [6, 7]) (htok : tokens digest = windowTokens ++ [last]) :
    parseRollbackLineage digest = some (3, 2, 3) ∧
    hasRollbackFenceEpochCompactionTombstone digest = false ∧
    parseRollbackFenceTombstoneExpiryEpoch digest = some 4 ∧
    parseRollbackFenceLateMarkerHoldEpoch digest = some 5 ∧
    parseRollbackFenceLateMarkerReleaseEpoch digest = some n ∧
    (parseRollbackFenceOwnershipPrefixFields digest).map (OwnershipField.all.map ·) =
      some (some n :: List.replicate 12 none) := by
  simp only [parseRollbackLineage, lastValue, hasRollbackFenceEpochCompactionTombstone,
    parseRollbackFenceTombstoneExpiryEpoch, parseRollbackFenceLateMarkerHoldEpoch,
    parseRollbackFenceLateMarkerReleaseEpoch, parseSingleKey,
    parseRollbackFenceOwnershipPrefixFields, htok]
  simp only [releaseTokens, List.zip_cons_cons, List.zip_nil_left, List.mem_cons, Prod.mk.injEq,
    List.not_mem_nil, or_false] at hlast
  rcases hlast with ⟨rfl, rfl⟩ | ⟨rfl, rfl⟩ <;> refine ⟨?_, ?_, ?_, ?_, ?_, ?_⟩ <;> decide +kernel

/-- A release digest of the window, and the ownership that its release epoch gives it. -/
theorem exists_released (digest : String) {n : Int} (hnor : normalizePolicyManifestDigest digest = digest)
    (hlast : (last, n) ∈ releaseTokens.zip [6, 7]) (htok : tokens digest = windowTokens ++ [last]) :
    ∃ d : WindowDigest 2 (3, 2, 3) 4 5, d.text = digest ∧
      d.key = List.replicate 9 0 ++ ([2, 0, n, n, n] ++ List.replicate 29 0) := by
  have hnone := markers_released htok (List.of_mem_zip hlast).1
  obtain ⟨hlin, hbare, hexp, hhold, hrel, hfie⟩ := reads_released hlast htok
  have hn : 5 < n := by
    rcases (List.of_mem_zip hlast).2 with _ | ⟨_, _ | ⟨_, h⟩⟩
    · decide
    · decide
    · cases h
  have hrelease : isRollbackFencePostExpiryLateMarkerReleaseDigest 2 digest = true := by
    unfold isRollbackFencePostExpiryLateMarkerReleaseDigest validateRollbackLineage
    simp [hnor, hbare, hexp, hhold, hrel, hlin, hn, anchored]
  have hem : epochMarkers.map (parseEpochMarker digest) = List.replicate 22 none := by
    rw [List.map_congr_left hnone, List.map_const']
    rfl
  obtain ⟨fields, hparse, hall⟩ := Option.map_eq_some_iff.mp hfie
  simp only [OwnershipField.all, List.map_cons, List.map_nil, List.replicate_succ,
    List.replicate_zero, List.cons.injEq, and_true] at hall
  have hfield : fields = fun f => if f = .releaseEpoch then some n else none := by
    funext f
    cases f <;> simp [hall]
  have hown : parseRollbackFenceOwnershipOrdering 2 digest =
      some ([2, 0, n, n, n] ++ List.replicate 29 0) := by
    unfold parseRollbackFenceOwnershipOrdering
    simp [hnor, hrelease, hparse, hem, hfield, OwnershipField.needs, List.replicate_succ]
  refine ⟨⟨digest, hrelease, by rw [hown]; rfl, by rw [hnor, hlin], by rw [hnor, hexp],
    by rw [hnor, hhold]⟩, rfl, ?_⟩
  have hflags : markerFlags digest stageProgressionMarkers = List.replicate 9 0 := by
    have hnot : ∀ idx ∈ stageProgressionMarkers, hasMarker digest idx = false := by
      intro idx hidx
      have hlt : idx < epochMarkers.length := by
        revert idx
        decide
      rw [hasMarker, List.getD_eq_getElem?_getD, List.getElem?_eq_getElem hlt, Option.getD_some,
        hnone _ (List.getElem_mem hlt)]
      rfl
    rw [markerFlags, List.map_congr_left (g := fun _ => 0) fun idx hidx => by rw [hnot idx hidx]; rfl]
    rfl
  simp only [WindowDigest.key, hnor, hflags, hown, Option.get_some]

/-- The digest with the later release epoch replaces the other one, and not the other way round. -/
theorem supersedes_strictWeak_released : ∃ a b : WindowDigest 2 (3, 2, 3) 4 5,
    a.text = released ∧ b.text = releasedLater ∧ a.Supersedes b ∧ ¬ b.Supersedes a := by
  obtain ⟨a, ha, hkey⟩ := exists_released released
    (normalizeOr_ofList (List.cons_ne_nil _ _) (by decide +kernel) (by decide +kernel))
    List.mem_cons_self ((tokens_ofList _).trans rfl)
  obtain ⟨b, hb, hkey'⟩ := exists_released releasedLater
    (normalizeOr_ofList (List.cons_ne_nil _ _) (by decide +kernel) (by decide +kernel))
    (List.mem_cons_of_mem _ List.mem_cons_self) ((tokens_ofList _).trans rfl)
  have hab : a.Supersedes b := by
    rw [WindowDigest.supersedes_iff, hkey, hkey']
    decide
  exact ⟨a, b, ha, hb, hab, WindowDigest.supersedes_strictWeak.2.1 a b hab⟩

end Witness

end AutoTune

end MultichainIndexer
