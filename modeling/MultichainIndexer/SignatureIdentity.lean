import MultichainIndexer.Identity

/-!
# The identity of a signature as a canonical form

On an EVM chain the identity puts back the prefix that it takes away, and a second
pass changes nothing. On Bitcoin it takes one away and puts none back: what stands
behind the prefix may begin with a blank or with another prefix, and a second pass
removes that as well.
-/

namespace MultichainIndexer

open Text

section Forms
variable {chainID : Chain}

theorem canonicalSignatureIdentity_evm (hevm : isEVMChain chainID = true) (hash : String) :
    canonicalSignatureIdentity chainID hash =
      if withoutHexPrefix (trimSpace hash) = "" then ""
      else canonicalHex (trimSpace hash) (withoutHexPrefix (trimSpace hash)) := by
  have hbtc : chainID ≠ .btc := by
    rintro rfl
    cases hevm
  by_cases hempty : trimSpace hash = ""
  · have hrest : withoutHexPrefix "" = "" := by decide
    simp [canonicalSignatureIdentity, hempty, hrest]
  · simp [canonicalSignatureIdentity, hempty, hbtc, hevm]

theorem canonicalSignatureIdentity_btc (hash : String) :
    canonicalSignatureIdentity .btc hash = toLower (withoutHexPrefix (trimSpace hash)) := by
  by_cases hempty : trimSpace hash = ""
  · have hrest : toLower (withoutHexPrefix "") = "" := by decide
    simp [canonicalSignatureIdentity, hempty, hrest]
  · by_cases hrest : withoutHexPrefix (trimSpace hash) = ""
    · have hlow : toLower "" = "" := by decide
      simp [canonicalSignatureIdentity, hrest, hlow]
    · simp [canonicalSignatureIdentity, hempty, hrest]

theorem canonicalSignatureIdentity_plain (hevm : isEVMChain chainID = false)
    (hbtc : chainID ≠ .btc) (hash : String) :
    canonicalSignatureIdentity chainID hash = trimSpace hash := by
  by_cases hempty : trimSpace hash = ""
  · simp [canonicalSignatureIdentity, hempty]
  · simp [canonicalSignatureIdentity, hempty, hbtc, hevm]

end Forms

theorem canonicalSignatureIdentity_evm_idem {chainID : Chain} (hevm : isEVMChain chainID = true)
    (hash : String) :
    canonicalSignatureIdentity chainID (canonicalSignatureIdentity chainID hash) =
      canonicalSignatureIdentity chainID hash := by
  rw [canonicalSignatureIdentity_evm hevm hash]
  by_cases hrest : withoutHexPrefix (trimSpace hash) = ""
  · rw [if_pos hrest]
    rfl
  rw [if_neg hrest]
  rcases canonicalHex_cases (trimSpace hash) (withoutHexPrefix (trimSpace hash)) with
    hpre | hform
  · rw [hpre, canonicalSignatureIdentity_evm hevm, trimSpace_canonical,
      withoutHexPrefix_canonical, if_neg (toLower_ne_empty hrest), canonicalHex_canonical]
  · rw [hform, canonicalSignatureIdentity_trimSpace, canonicalSignatureIdentity_evm hevm,
      if_neg hrest, hform]

section Bitcoin

/-- Neither a blank nor a prefix in either case stands in front. -/
def isBare (rest : String) : Bool :=
  !rest.toList.head?.any isSpace && !hasPrefix (toLower rest) "0x"

theorem withoutHexPrefix_length_le (s : String) :
    (withoutHexPrefix s).toList.length ≤ s.toList.length :=
  Nat.le_trans (trimPrefix_length_le _ _) (trimPrefix_length_le _ _)

theorem head?_toLower (s : String) :
    (toLower s).toList.head?.any isSpace = s.toList.head?.any isSpace := by
  rw [toLower, String.toList_ofList, List.head?_map]
  cases s.toList.head? with
  | none => rfl
  | some c => exact isSpace_lowerChar c

theorem trimSpace_bare {v : String}
    (h : (withoutHexPrefix (trimSpace v)).toList.head?.any isSpace = false) :
    trimSpace (toLower (withoutHexPrefix (trimSpace v))) =
      toLower (withoutHexPrefix (trimSpace v)) := by
  rw [← head?_toLower] at h
  rw [trimSpace, trimBy, trimList_eq_self, String.ofList_toList]
  · intro c hc
    rw [hc] at h
    exact h
  · intro c hc
    exact toLower_withoutHexPrefix_last v hc

/-- On Bitcoin an identity is kept by a second pass when its prefix hid nothing to strip. -/
theorem canonicalSignatureIdentity_btc_idem_iff (hash : String) :
    canonicalSignatureIdentity .btc (canonicalSignatureIdentity .btc hash) =
        canonicalSignatureIdentity .btc hash ↔
      isBare (withoutHexPrefix (trimSpace hash)) = true := by
  rw [canonicalSignatureIdentity_btc, canonicalSignatureIdentity_btc]
  have hkeep := @trimSpace_bare hash
  generalize withoutHexPrefix (trimSpace hash) = rest at hkeep ⊢
  constructor
  · intro hidem
    have hlen := congrArg (fun s : String => s.toList.length) hidem
    simp only [toLower_length] at hlen
    have hblank : rest.toList.head?.any isSpace = false := by
      by_contra hspace
      rw [Bool.not_eq_false, ← head?_toLower] at hspace
      have hlt := trimSpace_length_lt hspace
      have hle := withoutHexPrefix_length_le (trimSpace (toLower rest))
      rw [toLower_length] at hlt
      omega
    have hmark : hasPrefix (toLower rest) "0x" = false := by
      by_contra hpre
      rw [Bool.not_eq_false] at hpre
      have hlt := trimPrefix_length_lt hpre (by decide)
      have hle := trimPrefix_length_le (trimPrefix (toLower rest) "0x") "0X"
      rw [hkeep hblank, withoutHexPrefix] at hlen
      rw [toLower_length] at hlt
      omega
    simp [isBare, hblank, hmark]
  · intro hbare
    simp only [isBare, Bool.and_eq_true, Bool.not_eq_true'] at hbare
    obtain ⟨hblank, hmark⟩ := hbare
    rw [hkeep hblank, withoutHexPrefix, trimPrefix_of_not hmark,
      trimPrefix_of_not (toLower_not_hasPrefix rest), toLower_toLower]

end Bitcoin

section Digits

/-- The text writes the digits in either case, behind at most one prefix and between blanks. -/
def Spells (digits s : String) : Prop :=
  ∃ before mark body after : String, s = before ++ mark ++ body ++ after ∧
    (∀ c ∈ before.toList, isSpace c = true) ∧ (∀ c ∈ after.toList, isSpace c = true) ∧
    mark ∈ ["", "0x", "0X"] ∧ isHexString body = true ∧ toLower body = toLower digits

theorem isHexString_chars {v : String} (h : isHexString v = true) :
    ∀ c ∈ v.toList, isSpace c = false ∧ c ≠ 'x' ∧ c ≠ 'X' := by
  intro c hc
  have hdigit := List.all_eq_true.mp h c hc
  simp only [Bool.or_eq_true, Bool.and_eq_true, decide_eq_true_eq, Char.le_def,
    UInt32.le_iff_toNat_le] at hdigit
  have hrange : (48 ≤ c.toNat ∧ c.toNat ≤ 57) ∨ (97 ≤ c.toNat ∧ c.toNat ≤ 102) ∨
      (65 ≤ c.toNat ∧ c.toNat ≤ 70) := by
    rcases hdigit with (h | h) | h
    · exact .inl h
    · exact .inr (.inl h)
    · exact .inr (.inr h)
  refine ⟨?_, ?_, ?_⟩
  · simp [isSpace]
    omega
  · rintro rfl
    revert hrange
    decide
  · rintro rfl
    revert hrange
    decide

theorem isHexString_not_hasPrefix {v mark : String} (h : isHexString v = true)
    (hmark : 'x' ∈ mark.toList ∨ 'X' ∈ mark.toList) : hasPrefix v mark = false := by
  by_contra hpre
  rw [Bool.not_eq_false] at hpre
  have hsub := (List.isPrefixOf_iff_prefix.mp hpre).subset
  rcases hmark with hx | hx
  · exact (isHexString_chars h _ (hsub hx)).2.1 rfl
  · exact (isHexString_chars h _ (hsub hx)).2.2 rfl

theorem withoutHexPrefix_mark {mark body : String} (hmark : mark ∈ ["", "0x", "0X"])
    (hbody : isHexString body = true) : withoutHexPrefix (mark ++ body) = body := by
  have hlow : trimPrefix body "0x" = body :=
    trimPrefix_of_not (isHexString_not_hasPrefix hbody (.inl (by decide)))
  have hup : trimPrefix body "0X" = body :=
    trimPrefix_of_not (isHexString_not_hasPrefix hbody (.inr (by decide)))
  simp only [List.mem_cons, List.not_mem_nil, or_false] at hmark
  unfold withoutHexPrefix
  rcases hmark with rfl | rfl | rfl
  · rw [String.empty_append, hlow, hup]
  · have hcut : trimPrefix ("0x" ++ body) "0x" = body := by
      simp [trimPrefix, hasPrefix, String.toList_append]
    rw [hcut, hup]
  · have hstay : trimPrefix ("0X" ++ body) "0x" = "0X" ++ body := by
      simp [trimPrefix, hasPrefix, String.toList_append]
    have hcut : trimPrefix ("0X" ++ body) "0X" = body := by
      simp [trimPrefix, hasPrefix, String.toList_append]
    rw [hstay, hcut]

theorem Spells.trimmed {digits s : String} (h : Spells digits s) :
    ∃ mark body : String, trimSpace s = mark ++ body ∧ mark ∈ ["", "0x", "0X"] ∧
      isHexString body = true ∧ toLower body = toLower digits := by
  obtain ⟨before, mark, body, after, rfl, hbef, hafter, hmark, hbody, hdig⟩ := h
  refine ⟨mark, body, ?_, hmark, hbody, hdig⟩
  have hinner : ∀ c ∈ (mark ++ body).toList, isSpace c = false := by
    intro c hc
    rw [String.toList_append] at hc
    rcases List.mem_append.mp hc with hc | hc
    · have hall : ∀ mark ∈ ["", "0x", "0X"], mark.toList.all (decide <| isSpace · = false) = true := by
        decide
      exact forall_mem_of_all (hall mark hmark) c hc
    · exact (isHexString_chars hbody c hc).1
  have hsan := trimList_sandwich hbef hinner hafter
  have hgroup : before ++ mark ++ body ++ after = before ++ (mark ++ body) ++ after := by
    simp only [String.append_assoc]
  rw [hgroup, trimSpace, trimBy, String.toList_append, String.toList_append, hsan,
    String.ofList_toList]

/-- The identity of a spelling is told by the digits. -/
theorem canonicalSignatureIdentity_spells {chainID : Chain}
    (hchain : isEVMChain chainID = true ∨ chainID = .btc) {digits s : String}
    (h : Spells digits s) :
    canonicalSignatureIdentity chainID s =
      if chainID = .btc ∨ toLower digits = "" then toLower digits else "0x" ++ toLower digits := by
  obtain ⟨mark, body, htrim, hmark, hbody, hdig⟩ := h.trimmed
  have hrest : withoutHexPrefix (trimSpace s) = body := by
    rw [htrim, withoutHexPrefix_mark hmark hbody]
  rcases hchain with hevm | rfl
  · have hbtc : chainID ≠ .btc := by
      rintro rfl
      cases hevm
    rw [canonicalSignatureIdentity_evm hevm, hrest]
    by_cases hnil : body = ""
    · rw [if_pos hnil, if_pos (.inr (by rw [← hdig, hnil]; decide)), ← hdig, hnil]
      decide
    · have hne : ¬ (chainID = .btc ∨ toLower digits = "") := by
        rintro (hc | hc)
        · exact hbtc hc
        · rw [← hdig] at hc
          exact toLower_ne_empty hnil hc
      rw [if_neg hnil, if_neg hne, canonicalHex, if_pos hbody, hdig]
  · rw [canonicalSignatureIdentity_btc, hrest, if_pos (.inl rfl), hdig]

end Digits

/-- The identity is a canonical form on every chain but Bitcoin, where it is one for the texts
with nothing left to strip behind their prefix; spellings of the same digits share it. -/
theorem canonicalSignatureIdentity_canonical_iff (chainID : Chain) :
    (∀ s : String,
      canonicalSignatureIdentity chainID (canonicalSignatureIdentity chainID s) =
          canonicalSignatureIdentity chainID s ↔
        (chainID = .btc → isBare (withoutHexPrefix (trimSpace s)) = true)) ∧
    ((isEVMChain chainID = true ∨ chainID = .btc) → ∀ digits s t : String, Spells digits s → Spells digits t →
        canonicalSignatureIdentity chainID s = canonicalSignatureIdentity chainID t) := by
  refine ⟨?_, ?_⟩
  · intro s
    by_cases hbtc : chainID = .btc
    · subst hbtc
      rw [canonicalSignatureIdentity_btc_idem_iff]
      exact ⟨fun h _ => h, fun h => h rfl⟩
    · refine iff_of_true ?_ fun h => absurd h hbtc
      by_cases hevm : isEVMChain chainID = true
      · exact canonicalSignatureIdentity_evm_idem hevm s
      · rw [Bool.not_eq_true] at hevm
        rw [canonicalSignatureIdentity_plain hevm hbtc, canonicalSignatureIdentity_plain hevm hbtc,
          trimSpace_trimSpace]
  · intro hchain digits s t hs ht
    rw [canonicalSignatureIdentity_spells hchain hs, canonicalSignatureIdentity_spells hchain ht]

theorem canonicalSignatureIdentity_spelled :
    canonicalSignatureIdentity .btc (canonicalSignatureIdentity .btc " 0XaB") =
        canonicalSignatureIdentity .btc " 0XaB" ∧
      canonicalSignatureIdentity .base " 0XaB" = canonicalSignatureIdentity .base "Ab" := by
  refine ⟨((canonicalSignatureIdentity_canonical_iff .btc).1 " 0XaB").mpr fun _ => by decide, ?_⟩
  apply (canonicalSignatureIdentity_canonical_iff .base).2 (.inl rfl) "ab"
  · exact ⟨" ", "0X", "aB", "", rfl, forall_mem_of_all (by decide), forall_mem_of_all (by decide),
      by decide⟩
  · exact ⟨"", "", "Ab", "", rfl, forall_mem_of_all (by decide), forall_mem_of_all (by decide),
      by decide⟩

/-- A hash with two prefixes loses one with each pass. -/
theorem canonicalSignatureIdentity_second_pass :
    canonicalSignatureIdentity .btc "0x0x12" = "0x12" ∧
      canonicalSignatureIdentity .btc "0x12" = "12" := by
  decide

end MultichainIndexer
