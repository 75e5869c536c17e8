import MultichainIndexer.Lib.Result
import MultichainIndexer.Signatures
import MultichainIndexer.Pipeline.Retry
import Mathlib.Data.List.TakeWhile

/-!
# Signatures of a Solana address

The node lists the signatures of an address newest first: those older than
`before`, down to `until`, at most `limit` of them. The adapter reads page after
page until it has as many as it was asked for, each page from the last signature
of the one before, and returns them oldest first. What it returns are the newest
signatures; if there are more new ones than it was asked for, the oldest of them
are missing. The history may grow between two pages.
-/

namespace MultichainIndexer

open Retry

namespace Solana

/-- The signatures of an address, newest first, with the slot as the sequence. -/
structure History where
  entries : List SignatureInfo
  distinct : (entries.map SignatureInfo.hash).Nodup
  newestFirst : entries.Pairwise fun a b => b.sequence ≤ a.sequence
  named : ∀ sig ∈ entries, sig.hash ≠ "" ∧ Text.trimSpace sig.hash = sig.hash

def newerThan (hash : String) (sigs : List SignatureInfo) : List SignatureInfo :=
  sigs.takeWhile fun sig => sig.hash ≠ hash

def olderThan (hash : String) (sigs : List SignatureInfo) : List SignatureInfo :=
  (sigs.dropWhile fun sig => sig.hash ≠ hash).tail

structure SignaturesOpts where
  limit : Int
  before : String := ""
  until' : String := ""

/-- A limit that is not positive is not sent, and the node takes 1000. -/
def effectiveLimit (limit : Int) : Nat := if limit ≤ 0 then 1000 else limit.toNat

def listed (sigs : List SignatureInfo) (opts : SignaturesOpts) : List SignatureInfo :=
  let sigs := if opts.before = "" then sigs else olderThan opts.before sigs
  let sigs := if opts.until' = "" then sigs else newerThan opts.until' sigs
  sigs.take (effectiveLimit opts.limit)

abbrev Client := Nat → SignaturesOpts → Except Err (List SignatureInfo)

def accepts (cutoffSeq : Int) (sig : SignatureInfo) : Bool := !(0 < cutoffSeq && cutoffSeq < sig.sequence)

def pageSize (maxPageSize remaining : Int) : Int :=
  if maxPageSize < remaining then maxPageSize else remaining

/-- The loop over the pages. `none` is a loop that has not ended after `fuel` pages. -/
def collectPages (client : Client) (maxPageSize : Int) (until' : String) (cutoffSeq : Int) :
    Nat → Nat → Int → String → List SignatureInfo → Option (Except Err (List SignatureInfo))
  | 0, _, _, _, _ => none
  | fuel + 1, page, remaining, before, allSigs =>
    if remaining ≤ 0 then some (.ok allSigs)
    else
      match client page { limit := pageSize maxPageSize remaining, before, until' } with
      | .error e => some (.error (e.wrap "fetch signatures page: "))
      | .ok sigs =>
        match sigs.getLast? with
        | none => some (.ok allSigs)
        | some oldest =>
          let accepted := sigs.filter (accepts cutoffSeq)
          if remaining - accepted.length ≤ 0 then some (.ok (allSigs ++ accepted))
          else if (sigs.length : Int) < pageSize maxPageSize remaining then some (.ok (allSigs ++ accepted))
          else collectPages client maxPageSize until' cutoffSeq fuel (page + 1)
            (remaining - accepted.length) oldest.hash (allSigs ++ accepted)

def fetchNewSignaturesWithCutoff (client : Client) (maxPageSize : Int) (fuel : Nat)
    (cursor : Option String) (batchSize cutoffSeq : Int) :
    Option (Except Err (List SignatureInfo)) :=
  (collectPages client maxPageSize (cursor.getD "") cutoffSeq fuel 0 batchSize "" []).map
    fun collected => collected.map List.reverse

/-- The client lists a history; later pages may see one that has grown. -/
def Truthful (client : Client) (history : History) : Prop :=
  ∀ page opts sigs, client page opts = .ok sigs → ∃ newer : List SignatureInfo,
    sigs = listed (newer ++ history.entries) opts ∧ (page = 0 → newer = []) ∧
    ∀ sig ∈ newer, ∀ known ∈ history.entries, sig.hash ≠ known.hash

def since (cursor : Option String) (sigs : List SignatureInfo) : List SignatureInfo :=
  match cursor with
  | none => sigs
  | some hash => newerThan hash sigs

section Listed
variable {sigs newer done rest : List SignatureInfo} {sig : SignatureInfo}

theorem olderThan_append (h : ∀ other ∈ done, other.hash ≠ sig.hash) :
    olderThan sig.hash (done ++ sig :: rest) = rest := by
  unfold olderThan
  rw [List.dropWhile_append_of_pos (by simpa using h), List.dropWhile_cons_of_neg (by simp)]
  rfl

theorem olderThan_newer (h : ∀ other ∈ newer, other.hash ≠ sig.hash) (sigs : List SignatureInfo) :
    olderThan sig.hash (newer ++ sigs) = olderThan sig.hash sigs := by
  unfold olderThan
  rw [List.dropWhile_append_of_pos (by simpa using h)]

theorem newerThan_append_rest (hash : String) (sigs : List SignatureInfo) :
    ∃ older, sigs = newerThan hash sigs ++ older ∧ ∀ sig ∈ older.head?, sig.hash = hash := by
  induction sigs with
  | nil => exact ⟨[], rfl, nofun⟩
  | cons sig sigs ih =>
    by_cases hsig : sig.hash = hash
    · refine ⟨sig :: sigs, ?_, ?_⟩
      · simp [newerThan, hsig]
      · intro first hfirst
        cases hfirst
        exact hsig
    · obtain ⟨older, hsplit, hhead⟩ := ih
      refine ⟨older, ?_, hhead⟩
      have hcons : newerThan hash (sig :: sigs) = sig :: newerThan hash sigs := by
        simp [newerThan, hsig]
      rw [hcons, List.cons_append, ← hsplit]

theorem newerThan_append {hash : String} (hnot : ∀ sig ∈ sigs, sig.hash ≠ hash)
    (hhead : ∀ sig ∈ rest.head?, sig.hash = hash) : newerThan hash (sigs ++ rest) = sigs := by
  unfold newerThan
  rw [List.takeWhile_append_of_pos (by simpa using hnot)]
  cases rest with
  | nil => simp
  | cons sig rest => simp [hhead sig rfl]

theorem ne_of_mem_newerThan {hash : String} (h : sig ∈ newerThan hash sigs) : sig.hash ≠ hash := by
  simpa using List.mem_takeWhile_imp h

theorem since_begins (cursor : Option String) (sigs : List SignatureInfo) :
    since cursor sigs <+: sigs := by
  cases cursor with
  | none => exact List.prefix_refl sigs
  | some hash => exact List.takeWhile_prefix _

theorem since_olderThan {cursor : Option String} (hsigs : since cursor sigs = done ++ sig :: rest)
    (hdone : ∀ other ∈ done, other.hash ≠ sig.hash) :
    since cursor (olderThan sig.hash sigs) = rest := by
  cases cursor with
  | none =>
    rw [show sigs = _ from hsigs]
    exact olderThan_append hdone
  | some hash =>
    obtain ⟨older, hsplit, hhead⟩ := newerThan_append_rest hash sigs
    rw [show newerThan hash sigs = _ from hsigs, List.append_assoc, List.cons_append] at hsplit
    rw [hsplit, olderThan_append hdone]
    refine newerThan_append ?_ hhead
    intro other hother
    have hmem : other ∈ newerThan hash sigs := by
      rw [show newerThan hash sigs = _ from hsigs]
      simp [hother]
    exact ne_of_mem_newerThan hmem

end Listed

section Pages
variable {client : Client} {history : History} {maxPageSize cutoffSeq : Int}
variable {cursor : Option String}

/-- Where the loop is: at its first page, or behind a signature that it has read. -/
def At (history : History) (cursor : Option String) (page : Nat) (before : String)
    (rest : List SignatureInfo) : Prop :=
  (page = 0 ∧ before = "" ∧ rest = since cursor history.entries) ∨
    ∃ done sig, sig.hash = before ∧ since cursor history.entries = done ++ sig :: rest

variable {page : Nat} {before : String} {rest sigs : List SignatureInfo} {limit : Int}

theorem effectiveLimit_pos (limit : Int) : 0 < effectiveLimit limit := by
  unfold effectiveLimit
  split
  · decide
  · omega

theorem take_short (h : ((rest.take (effectiveLimit limit)).length : Int) < limit) :
    rest.take (effectiveLimit limit) = rest := by
  have hlimit : effectiveLimit limit = limit.toNat := if_neg (by omega)
  rw [hlimit] at h ⊢
  rw [List.length_take] at h
  exact List.take_of_length_le (by omega)

theorem At.listed_page (htrue : Truthful client history) (hcur : cursor ≠ some "")
    (hat : At history cursor page before rest)
    (h : client page { limit, before, until' := cursor.getD "" } = .ok sigs) :
    sigs = rest.take (effectiveLimit limit) := by
  have huntil : ∀ l, (if cursor.getD "" = "" then l else newerThan (cursor.getD "") l) =
      since cursor l := by
    intro l
    cases cursor with
    | none => rfl
    | some hash => exact if_neg fun hempty => hcur (congrArg some hempty)
  obtain ⟨newer, hsigs, hfirst, hnew⟩ := htrue _ _ _ h
  rw [hsigs]
  simp only [listed, huntil]
  congr 1
  rcases hat with ⟨hpage, hbef, hrest⟩ | ⟨done, sig, hbef, hsplit⟩
  · rw [if_pos hbef, hfirst hpage, hrest, List.nil_append]
  · have hpre := since_begins cursor history.entries
    have hmem : sig ∈ history.entries := hpre.subset (by rw [hsplit]; simp)
    have hdone : ∀ other ∈ done, other.hash ≠ sig.hash := by
      intro other hother heq
      have hnodup := history.distinct.sublist (hpre.sublist.map SignatureInfo.hash)
      rw [hsplit, List.map_append, List.map_cons] at hnodup
      refine (List.nodup_append.mp hnodup).2.2 _ (List.mem_map_of_mem hother) _ ?_ heq
      exact List.mem_cons_self
    rw [if_neg (hbef ▸ (history.named sig hmem).1), ← hbef,
      olderThan_newer fun other hother => hnew other hother sig hmem]
    exact since_olderThan hsplit hdone

theorem At.next (hat : At history cursor page before rest) {count : Nat} {oldest : SignatureInfo}
    (hlast : (rest.take count).getLast? = some oldest) :
    At history cursor (page + 1) oldest.hash (rest.drop count) := by
  obtain ⟨init, hinit⟩ := List.getLast?_eq_some_iff.mp hlast
  have hrest : rest = init ++ oldest :: rest.drop count := by
    conv_lhs => rw [← List.take_append_drop count rest, hinit]
    simp
  rcases hat with ⟨_, _, heq⟩ | ⟨done, sig, _, hsplit⟩
  · exact .inr ⟨init, oldest, rfl, heq ▸ hrest⟩
  · refine .inr ⟨done ++ sig :: init, oldest, rfl, ?_⟩
    rw [hsplit, List.append_assoc, List.cons_append, ← hrest]

/-- If no more is left than was asked for, the loop collects all of it. -/
theorem collectPages_all (htrue : Truthful client history) (hcur : cursor ≠ some "")
    {fuel : Nat} {remaining : Int} {allSigs collected : List SignatureInfo}
    (hat : At history cursor page before rest)
    (hcount : ((rest.filter (accepts cutoffSeq)).length : Int) ≤ remaining)
    (h : collectPages client maxPageSize (cursor.getD "") cutoffSeq fuel page remaining before
      allSigs = some (.ok collected)) :
    collected = allSigs ++ rest.filter (accepts cutoffSeq) := by
  induction fuel generalizing page remaining before allSigs rest with
  | zero => cases h
  | succ fuel ih =>
    rw [collectPages] at h
    split_ifs at h with hremaining
    · cases h
      have hnone : rest.filter (accepts cutoffSeq) = [] :=
        List.eq_nil_of_length_eq_zero (by omega)
      rw [hnone, List.append_nil]
    · simp only at h
      split at h
      · cases h
      · rename_i sigs hcli
        obtain rfl := hat.listed_page htrue hcur hcli
        have hpos := effectiveLimit_pos (pageSize maxPageSize remaining)
        split at h
        · rename_i hnone
          cases h
          have hnil : rest = [] := by
            rcases List.take_eq_nil_iff.mp (List.getLast?_eq_none_iff.mp hnone) with hzero | hnil
            · omega
            · exact hnil
          rw [hnil, List.filter_nil, List.append_nil]
        · rename_i oldest hlast
          have hsplit : (rest.take (effectiveLimit (pageSize maxPageSize remaining))).filter
                (accepts cutoffSeq) ++
              (rest.drop (effectiveLimit (pageSize maxPageSize remaining))).filter
                (accepts cutoffSeq) = rest.filter (accepts cutoffSeq) := by
            rw [← List.filter_append, List.take_append_drop]
          have hlen := congrArg List.length hsplit
          rw [List.length_append] at hlen
          split_ifs at h with hfull hshort
          · -- as many as were asked for: nothing is left
            cases h
            have hnone : (rest.drop (effectiveLimit (pageSize maxPageSize remaining))).filter
                (accepts cutoffSeq) = [] := List.eq_nil_of_length_eq_zero (by omega)
            rw [← hsplit, hnone, List.append_nil]
          · cases h
            rw [take_short hshort]
          · rw [ih (hat.next hlast) (by omega) h, List.append_assoc, hsplit]

theorem fetchNewSignaturesWithCutoff_all (htrue : Truthful client history)
    (hcur : cursor ≠ some "") {fuel : Nat} {batchSize : Int} {response : List SignatureInfo}
    (hcount : (((since cursor history.entries).filter (accepts cutoffSeq)).length : Int) ≤ batchSize)
    (h : fetchNewSignaturesWithCutoff client maxPageSize fuel cursor batchSize cutoffSeq =
      some (.ok response)) :
    response = ((since cursor history.entries).filter (accepts cutoffSeq)).reverse := by
  obtain ⟨collected, hcol, hmap⟩ := Option.map_eq_some_iff.mp h
  obtain ⟨sigs, rfl, rfl⟩ := Result.map_ok hmap
  rw [collectPages_all htrue hcur (.inl ⟨rfl, rfl, rfl⟩) hcount hcol, List.nil_append]

end Pages

end Solana

end MultichainIndexer
