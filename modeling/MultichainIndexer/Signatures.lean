import MultichainIndexer.Lib.BestOf
import MultichainIndexer.Identity
import MultichainIndexer.Domain.Event
import Mathlib.Data.List.Sort

/-!
# Canonical signature lists

The fetcher and the normalizer both bring a list of signatures into canonical
form: the identities without the empty ones, one signature for each identity,
in the order of sequence and hash. They differ only in which of two signatures
of one identity stays.
-/

namespace MultichainIndexer

open BestOf

/-- The order of `sortSignatureInfosBySequenceThenHash`. -/
def SignatureInfo.before (a b : SignatureInfo) : Prop :=
  a.sequence < b.sequence ∨ a.sequence = b.sequence ∧ a.hash ≤ b.hash

instance : DecidableRel SignatureInfo.before := fun a b =>
  inferInstanceAs (Decidable (a.sequence < b.sequence ∨ a.sequence = b.sequence ∧ a.hash ≤ b.hash))

instance : Std.Total SignatureInfo.before := by
  refine ⟨fun a b => ?_⟩
  rcases lt_trichotomy a.sequence b.sequence with hlt | heq | hgt
  · exact .inl (.inl hlt)
  · exact (String.le_total a.hash b.hash).imp (fun h => .inr ⟨heq, h⟩) fun h => .inr ⟨heq.symm, h⟩
  · exact .inr (.inl hgt)

instance : IsTrans SignatureInfo SignatureInfo.before := by
  refine ⟨?_⟩
  rintro a b c (hab | ⟨hab, hh⟩) (hbc | ⟨hbc, hh'⟩)
  · exact .inl (hab.trans hbc)
  · exact .inl (hbc ▸ hab)
  · exact .inl (hab ▸ hbc)
  · exact .inr ⟨hab.trans hbc, String.le_trans hh hh'⟩

theorem SignatureInfo.before_antisymm {a b : SignatureInfo} (hab : a.before b) (hba : b.before a) :
    a.sequence = b.sequence ∧ a.hash = b.hash := by
  rcases hab with hlt | ⟨heq, hle⟩
  · rcases hba with hlt' | ⟨heq', _⟩
    · omega
    · omega
  · rcases hba with hlt' | ⟨_, hle'⟩
    · omega
    · exact ⟨heq, String.le_antisymm hle hle'⟩

theorem eq_of_perm_of_before {l l' : List SignatureInfo} (hperm : l.Perm l')
    (hnodup : (l.map SignatureInfo.hash).Nodup) (hl : l.Pairwise SignatureInfo.before)
    (hl' : l'.Pairwise SignatureInfo.before) : l = l' := by
  refine List.Perm.eq_of_pairwise ?_ hl hl' hperm
  intro a b ha hb hab hba
  exact List.inj_on_of_nodup_map hnodup ha (hperm.mem_iff.mpr hb) (SignatureInfo.before_antisymm hab hba).2

def SignatureInfo.candidate (chainID : Chain) (sig : SignatureInfo) : Option SignatureInfo :=
  let identity := canonicalSignatureIdentity chainID sig.hash
  if identity = "" then none else some { sig with hash := identity }

def canonicalSignatures (replaces : SignatureInfo → SignatureInfo → Bool) (chainID : Chain)
    (sigs : List SignatureInfo) : List SignatureInfo :=
  (keep SignatureInfo.hash replaces (sigs.filterMap (SignatureInfo.candidate chainID))).insertionSort
    SignatureInfo.before

/-- The fetcher's rule: the higher sequence, then a known and a later time, then the lower hash. -/
def fetcherReplaces (existing incoming : SignatureInfo) : Bool :=
  if existing.sequence ≠ incoming.sequence then existing.sequence < incoming.sequence
  else
    match existing.time, incoming.time with
    | none, some _ => true
    | some _, none => false
    | some t, some t' => if t ≠ t' then t < t' else incoming.hash < existing.hash
    | none, none => incoming.hash < existing.hash

/-- The normalizer's rule: the higher sequence, then the lower hash. -/
def normalizerReplaces (existing incoming : SignatureInfo) : Bool :=
  if existing.sequence ≠ incoming.sequence then existing.sequence < incoming.sequence
  else incoming.hash < existing.hash

def canonicalizeSignatures (chainID : Chain) (sigs : List SignatureInfo) : List SignatureInfo :=
  canonicalSignatures fetcherReplaces chainID sigs

def canonicalizeBatchSignatures (chainID : Chain) (sigs : List SignatureInfo) :
    List SignatureInfo :=
  canonicalSignatures normalizerReplaces chainID sigs

/-- A rule that never lowers the sequence. -/
structure KeepsSequence (replaces : SignatureInfo → SignatureInfo → Bool) : Prop where
  up : ∀ b a, replaces b a = true → b.sequence ≤ a.sequence
  down : ∀ b a, replaces b a = false → a.sequence ≤ b.sequence

theorem fetcherReplaces_keeps : KeepsSequence fetcherReplaces := by
  refine ⟨fun b a h => ?_, fun b a h => ?_⟩
  · unfold fetcherReplaces at h
    split at h
    · have := of_decide_eq_true h
      omega
    · omega
  · unfold fetcherReplaces at h
    split at h
    · have := of_decide_eq_false h
      omega
    · omega

theorem normalizerReplaces_keeps : KeepsSequence normalizerReplaces := by
  refine ⟨fun b a h => ?_, fun b a h => ?_⟩
  · unfold normalizerReplaces at h
    split at h
    · have := of_decide_eq_true h
      omega
    · omega
  · unfold normalizerReplaces at h
    split at h
    · have := of_decide_eq_false h
      omega
    · omega

theorem fetcherReplaces_consistent (hash : String) :
    Consistent fetcherReplaces fun sig => True ∧ sig.hash = hash := by
  refine ⟨?_, ?_⟩
  · intro a _
    unfold fetcherReplaces
    cases a.time with
    | none => simp
    | some t => simp
  · intro a b c ha hb hc hbc hba
    have hirrefl : ¬ hash < hash := String.lt_irrefl hash
    unfold fetcherReplaces at hbc hba ⊢
    rw [ha.2, hb.2] at hba
    rw [hb.2, hc.2] at hbc
    rw [ha.2, hc.2]
    by_cases hseq : b.sequence = c.sequence
    · by_cases hseq' : b.sequence = a.sequence
      · have hca : c.sequence = a.sequence := hseq.symm.trans hseq'
        rw [if_neg (by simpa using hseq)] at hbc
        rw [if_neg (by simpa using hseq')] at hba
        rw [if_neg (by simpa using hca)]
        revert hbc hba
        cases a.time <;> cases b.time <;> cases c.time <;> grind
      · rw [if_pos hseq'] at hba
        rw [if_pos (by omega)]
        have := of_decide_eq_false hba
        exact decide_eq_false (by omega)
    · rw [if_pos hseq] at hbc
      have hup := of_decide_eq_true hbc
      have hdown := fetcherReplaces_keeps.down b a (by unfold fetcherReplaces; rw [ha.2, hb.2]; exact hba)
      rw [if_pos (by omega)]
      exact decide_eq_false (by omega)

theorem fetcherReplaces_tie {a b : SignatureInfo} (hhash : a.hash = b.hash)
    (hab : fetcherReplaces a b = false) (hba : fetcherReplaces b a = false) : a = b := by
  have hseq : a.sequence = b.sequence := by
    have hle := fetcherReplaces_keeps.down a b hab
    have hle' := fetcherReplaces_keeps.down b a hba
    omega
  obtain ⟨hash, sequence, time⟩ := a
  obtain ⟨hash', sequence', time'⟩ := b
  obtain rfl : hash = hash' := hhash
  obtain rfl : sequence = sequence' := hseq
  have htime : time = time' := by
    unfold fetcherReplaces at hab hba
    cases time <;> cases time' <;> grind
  rw [htime]

section Canonical
variable {replaces : SignatureInfo → SignatureInfo → Bool} {chainID : Chain}
variable {sigs : List SignatureInfo}

theorem candidate_eq_some {sig c : SignatureInfo} :
    sig.candidate chainID = some c ↔ canonicalSignatureIdentity chainID sig.hash ≠ "" ∧
      c = { sig with hash := canonicalSignatureIdentity chainID sig.hash } := by
  unfold SignatureInfo.candidate
  simp only
  split
  · rename_i h
    exact iff_of_false nofun fun hc => hc.1 h
  · rename_i h
    rw [Option.some.injEq, eq_comm]
    exact (and_iff_right h).symm

theorem mem_canonicalSignatures {c : SignatureInfo}
    (h : c ∈ canonicalSignatures replaces chainID sigs) :
    ∃ sig ∈ sigs, canonicalSignatureIdentity chainID sig.hash ≠ "" ∧
      c = { sig with hash := canonicalSignatureIdentity chainID sig.hash } := by
  have hkeep := mem_of_mem_keep ((List.perm_insertionSort _ _).mem_iff.mp h)
  obtain ⟨sig, hsig, hc⟩ := List.mem_filterMap.mp hkeep
  exact ⟨sig, hsig, candidate_eq_some.mp hc⟩

theorem exists_canonicalSignatures (hr : KeepsSequence replaces) {sig : SignatureInfo}
    (hsig : sig ∈ sigs) (hne : canonicalSignatureIdentity chainID sig.hash ≠ "") :
    ∃ c ∈ canonicalSignatures replaces chainID sigs,
      c.hash = canonicalSignatureIdentity chainID sig.hash ∧ sig.sequence ≤ c.sequence := by
  have hmem : { sig with hash := canonicalSignatureIdentity chainID sig.hash } ∈
      sigs.filterMap (SignatureInfo.candidate chainID) :=
    List.mem_filterMap.mpr ⟨sig, hsig, candidate_eq_some.mpr ⟨hne, rfl⟩⟩
  obtain ⟨c, hc, hhash, hseq⟩ :=
    @exists_keep _ _ _ SignatureInfo.hash _ _ SignatureInfo.sequence hr.up hr.down _ hmem
  exact ⟨c, (List.perm_insertionSort _ _).mem_iff.mpr hc, hhash, hseq⟩

theorem nodup_canonicalSignatures :
    ((canonicalSignatures replaces chainID sigs).map SignatureInfo.hash).Nodup := by
  have hperm := (List.perm_insertionSort SignatureInfo.before (keep SignatureInfo.hash replaces
    (sigs.filterMap (SignatureInfo.candidate chainID)))).map SignatureInfo.hash
  exact hperm.nodup_iff.mpr (nodup_keep _)

theorem pairwise_before_canonicalSignatures :
    (canonicalSignatures replaces chainID sigs).Pairwise SignatureInfo.before :=
  List.pairwise_insertionSort _ _

theorem sorted_canonicalSignatures :
    (canonicalSignatures replaces chainID sigs).Pairwise fun a b => a.sequence ≤ b.sequence := by
  refine pairwise_before_canonicalSignatures.imp ?_
  intro a b h
  rcases h with hlt | ⟨heq, _⟩
  · exact hlt.le
  · exact heq.le

theorem canonicalSignatures_perm {sigs' : List SignatureInfo} (hperm : sigs.Perm sigs') :
    canonicalSignatures fetcherReplaces chainID sigs =
      canonicalSignatures fetcherReplaces chainID sigs' := by
  refine eq_of_perm_of_before ?_ nodup_canonicalSignatures pairwise_before_canonicalSignatures
    pairwise_before_canonicalSignatures
  have hkeep : ((keep SignatureInfo.hash fetcherReplaces
      (sigs.filterMap (SignatureInfo.candidate chainID))).map id).Perm
      ((keep SignatureInfo.hash fetcherReplaces
        (sigs'.filterMap (SignatureInfo.candidate chainID))).map id) := by
    refine keep_perm fetcherReplaces_consistent (fun _ _ => trivial) (hperm.filterMap _) ?_ ?_
    · exact fun a b hab => congrArg SignatureInfo.hash hab
    · exact fun a _ b _ hkey hab hba => fetcherReplaces_tie hkey hab hba
  rw [List.map_id, List.map_id] at hkeep
  exact ((List.perm_insertionSort _ _).trans hkeep).trans (List.perm_insertionSort _ _).symm

end Canonical

end MultichainIndexer
