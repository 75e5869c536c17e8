import MultichainIndexer.Lib.Text
import MultichainIndexer.Domain.Model

/-!
# Canonical identities and decimal amounts

`canonicalSignatureIdentity` strips one `0x` and then one `0X`, in that order.
-/

namespace MultichainIndexer

open Text

def isEVMChain : Chain → Bool
  | .base | .ethereum | .polygon | .arbitrum | .bsc => true
  | _ => false

def isHexString (v : String) : Bool :=
  v.toList.all fun ch => ('0' ≤ ch && ch ≤ '9') || ('a' ≤ ch && ch ≤ 'f') || ('A' ≤ ch && ch ≤ 'F')

def withoutHexPrefix (trimmed : String) : String := trimPrefix (trimPrefix trimmed "0x") "0X"

/-- The EVM branch that hashes and addresses share, on a nonempty rest. -/
def canonicalHex (trimmed withoutPrefix : String) : String :=
  if isHexString withoutPrefix then "0x" ++ toLower withoutPrefix
  else if hasPrefix trimmed "0x" || hasPrefix trimmed "0X" then "0x" ++ toLower withoutPrefix
  else trimmed

def canonicalSignatureIdentity (chainID : Chain) (hash : String) : String :=
  let trimmed := trimSpace hash
  if trimmed = "" then ""
  else if chainID = .btc then
    let withoutPrefix := withoutHexPrefix trimmed
    if withoutPrefix = "" then "" else toLower withoutPrefix
  else if !isEVMChain chainID then trimmed
  else
    let withoutPrefix := withoutHexPrefix trimmed
    if withoutPrefix = "" then "" else canonicalHex trimmed withoutPrefix

/-- The identity of a hash, or another text if it has none. -/
def identityOr (chainID : Chain) (hash other : String) : String :=
  let identity := canonicalSignatureIdentity chainID hash
  if identity = "" then other else identity

theorem canonicalSignatureIdentity_trimSpace (chainID : Chain) (hash : String) :
    canonicalSignatureIdentity chainID (trimSpace hash) =
      canonicalSignatureIdentity chainID hash := by
  unfold canonicalSignatureIdentity
  rw [trimSpace_trimSpace]

def canonicalizeCursorValue (chainID : Chain) (cursor : Option String) : Option String :=
  match cursor with
  | none => none
  | some c =>
    let id := canonicalSignatureIdentity chainID c
    if id = "" then none else some id

def canonicalAddressIdentity (chainID : Chain) (address : String) : String :=
  let trimmed := trimSpace address
  if trimmed = "" then ""
  else if !isEVMChain chainID then trimmed
  else
    let withoutPrefix := withoutHexPrefix trimmed
    if withoutPrefix = "" then trimmed else canonicalHex trimmed withoutPrefix

theorem toLower_not_hasPrefix (w : String) : hasPrefix (toLower w) "0X" = false := by
  rw [Bool.eq_false_iff]
  intro h
  have hmem : 'X' ∈ (toLower w).toList :=
    (List.isPrefixOf_iff_prefix.mp h).subset (by simp)
  rw [toLower, String.toList_ofList] at hmem
  obtain ⟨c, _, hc⟩ := List.mem_map.mp hmem
  rcases lowerChar_cases c with ⟨h, hnot⟩ | ⟨hlow, _⟩
  · rw [← h, hc] at hnot
    exact hnot (by decide)
  · rw [hc] at hlow
    exact absurd hlow (by decide)

theorem withoutHexPrefix_canonical (w : String) :
    withoutHexPrefix ("0x" ++ toLower w) = toLower w := by
  have hfirst : trimPrefix ("0x" ++ toLower w) "0x" = toLower w := by
    simp [trimPrefix, hasPrefix, String.toList_append]
  rw [withoutHexPrefix, hfirst, trimPrefix_of_not (toLower_not_hasPrefix w)]

theorem withoutHexPrefix_getLast? {s : String} {c : Char}
    (h : (withoutHexPrefix s).toList.getLast? = some c) : s.toList.getLast? = some c :=
  trimPrefix_getLast? s _ (trimPrefix_getLast? _ _ h)

theorem toLower_withoutHexPrefix_last (v : String) {c : Char}
    (h : (toLower (withoutHexPrefix (trimSpace v))).toList.getLast? = some c) :
    isSpace c = false := by
  simp only [toLower, String.toList_ofList, List.getLast?_map] at h
  obtain ⟨d, hlast, rfl⟩ := Option.map_eq_some_iff.mp h
  rw [isSpace_lowerChar]
  have hd := withoutHexPrefix_getLast? hlast
  rw [trimSpace, trimBy, String.toList_ofList] at hd
  exact trimList_last hd

theorem trimSpace_canonical (v : String) :
    trimSpace ("0x" ++ toLower (withoutHexPrefix (trimSpace v))) =
      "0x" ++ toLower (withoutHexPrefix (trimSpace v)) := by
  rw [trimSpace, trimBy, trimList_eq_self, String.ofList_toList]
  · intro c hc
    rw [String.toList_append] at hc
    cases hc
    decide
  · intro c hc
    rw [String.toList_append, List.getLast?_append] at hc
    cases hlast : (toLower (withoutHexPrefix (trimSpace v))).toList.getLast? with
    | none =>
      rw [hlast] at hc
      cases hc
      decide
    | some d =>
      rw [hlast] at hc
      cases hc
      exact toLower_withoutHexPrefix_last v hlast

theorem canonicalHex_canonical (w : String) :
    canonicalHex ("0x" ++ toLower w) (toLower w) = "0x" ++ toLower w := by
  have hpre : hasPrefix ("0x" ++ toLower w) "0x" = true := by
    simp [hasPrefix, String.toList_append]
  unfold canonicalHex
  rw [toLower_toLower, hpre]
  split
  · rfl
  · rfl

theorem canonicalHex_cases (trimmed withoutPrefix : String) :
    canonicalHex trimmed withoutPrefix = "0x" ++ toLower withoutPrefix ∨
      canonicalHex trimmed withoutPrefix = trimmed := by
  unfold canonicalHex
  split
  · exact .inl rfl
  · split
    · exact .inl rfl
    · exact .inr rfl

theorem canonicalHex_ne_empty {trimmed : String} (h : trimmed ≠ "") (withoutPrefix : String) :
    canonicalHex trimmed withoutPrefix ≠ "" := by
  rcases canonicalHex_cases trimmed withoutPrefix with hform | hform
  · rw [hform]
    intro hnil
    have hlist := congrArg String.toList hnil
    rw [String.toList_append] at hlist
    cases hlist
  · rw [hform]
    exact h

theorem canonicalAddressIdentity_idem (chainID : Chain) (address : String) :
    canonicalAddressIdentity chainID (canonicalAddressIdentity chainID address) =
      canonicalAddressIdentity chainID address := by
  have htri : canonicalAddressIdentity chainID (trimSpace address) =
      canonicalAddressIdentity chainID address := by
    rw [canonicalAddressIdentity, trimSpace_trimSpace, ← canonicalAddressIdentity]
  by_cases hempty : trimSpace address = ""
  · rw [← htri, hempty]
    rfl
  by_cases hevm : isEVMChain chainID = true
  · by_cases hrest : withoutHexPrefix (trimSpace address) = ""
    · have hself : canonicalAddressIdentity chainID address = trimSpace address := by
        simp [canonicalAddressIdentity, hempty, hevm, hrest]
      rw [hself, htri, hself]
    · have hhex : canonicalAddressIdentity chainID address =
          canonicalHex (trimSpace address) (withoutHexPrefix (trimSpace address)) := by
        simp [canonicalAddressIdentity, hempty, hevm, hrest]
      rcases canonicalHex_cases (trimSpace address) (withoutHexPrefix (trimSpace address)) with
        hpre | hform
      · have hne := canonicalHex_ne_empty hempty (withoutHexPrefix (trimSpace address))
        rw [hpre] at hne
        rw [hhex, hpre, canonicalAddressIdentity, trimSpace_canonical, if_neg hne,
          if_neg (by simp [hevm]), withoutHexPrefix_canonical, if_neg (toLower_ne_empty hrest),
          canonicalHex_canonical]
      · rw [hhex, hform, htri, hhex, hform]
  · have hself : canonicalAddressIdentity chainID address = trimSpace address := by
      simp [canonicalAddressIdentity, hempty, hevm]
    rw [hself, htri, hself]

/-- `NegateDecimalString`: no trimming, so a blank makes the text invalid. -/
def negateDecimalString (value : String) : Except String String :=
  match parseInt value with
  | none => .error ("invalid decimal value: " ++ value)
  | some d => .ok (toString (-d))

def isStakingActivity (activityType : ActivityType) : Bool :=
  activityType = .stake || activityType = .unstake

def deltaValue (delta : String) : Int := (parseInt (trimSpace delta)).getD 0

@[simp] theorem deltaValue_toString (n : Int) : deltaValue (toString n) = n := by
  have hparse := parseInt_toString n
  rw [deltaValue, trimSpace_of_parseInt hparse, hparse]
  rfl

theorem deltaValue_minus {n : Int} (h : 0 < n) : deltaValue ("-" ++ toString n) = -n := by
  rw [← toString_neg_of_pos h, deltaValue_toString]

end MultichainIndexer
