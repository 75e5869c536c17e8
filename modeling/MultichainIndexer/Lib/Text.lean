import Mathlib.Data.List.Basic
import Mathlib.Data.List.DropRight
import Mathlib.Data.List.Infix
import MultichainIndexer.Lib.LowerCase

/-!
# Text as lists of characters

The trimming, prefix and case operations that Go's `strings` package and SQL
apply to a text, and decimal integers as texts: `parseInt` reads an optional
sign and a nonempty run of digits, as `big.Int.SetString` does in base ten, and
reads back every integer that is printed.
-/

namespace Text

/-- Go's `unicode.IsSpace`. -/
def isSpace (c : Char) : Bool :=
  (9 ≤ c.toNat && c.toNat ≤ 13) || (0x2000 ≤ c.toNat && c.toNat ≤ 0x200a) ||
    c.toNat ∈ [0x20, 0x85, 0xa0, 0x1680, 0x2028, 0x2029, 0x202f, 0x205f, 0x3000]

/-- C's `isspace`, the blanks that PostgreSQL skips around a number. -/
def isAsciiSpace (c : Char) : Bool := (9 ≤ c.toNat && c.toNat ≤ 13) || c.toNat == 0x20

-- An instance that goes through all characters may be found for the conclusion itself.
theorem forall_mem_of_all {p : Char → Prop} [DecidablePred p] {l : List Char}
    (h : l.all (fun c => decide (p c)) = true) : ∀ c ∈ l, p c := by
  intro c hc
  exact of_decide_eq_true (List.all_eq_true.mp h c hc)

def trimList (p : Char → Bool) (l : List Char) : List Char :=
  ((l.dropWhile p).reverse.dropWhile p).reverse

def trimBy (p : Char → Bool) (s : String) : String := String.ofList (trimList p s.toList)

def trimSpace (s : String) : String := trimBy isSpace s

/-- Go's `unicode.ToLower`. -/
def lowerChar (c : Char) : Char :=
  if c.toNat < 0x80 then c.toLower else Char.ofNat (lowerCode c.toNat)

def toLower (s : String) : String := String.ofList (s.toList.map lowerChar)

/-- Upper case of a character. Outside ASCII: the letters whose upper case is an ASCII letter, the
dotless i and the long s. -/
def upperChar (c : Char) : Char :=
  if c.toNat = 0x131 then 'I' else if c.toNat = 0x17f then 'S' else c.toUpper

def toUpper (s : String) : String := String.ofList (s.toList.map upperChar)

/-- The long s and the Kelvin sign fold to ASCII letters. -/
def foldChar (c : Char) : Char :=
  if c.toNat = 0x17f then 's' else if c.toNat = 0x212a then 'k' else c.toLower

/-- `strings.EqualFold`, against an ASCII text. -/
def equalFold (s t : String) : Bool := s.toList.map foldChar = t.toList.map foldChar

def hasPrefix (s pre : String) : Bool := pre.toList.isPrefixOf s.toList

def trimPrefix (s pre : String) : String :=
  if hasPrefix s pre then String.ofList (s.toList.drop pre.toList.length) else s

def containsText (s token : String) : Bool := s.toList.tails.any fun t => token.toList.isPrefixOf t

/-- `strings.Split` at one character. -/
def split (sep : Char) (s : String) : List String := (s.toList.splitOn sep).map String.ofList

/-- `strings.Cut` at one character: what stands before and after the first one. -/
def cut (sep : Char) (s : String) : Option (String × String) :=
  match s.toList.dropWhile (· != sep) with
  | [] => none
  | _ :: after => some (String.ofList (s.toList.takeWhile (· != sep)), String.ofList after)

def parseDigits (l : List Char) : Option Nat :=
  if l ≠ [] ∧ l.all Char.isDigit = true then some (Nat.ofDigitChars 10 l 0) else none

def parseInt (s : String) : Option Int :=
  match s.toList with
  | '-' :: l => (parseDigits l).map fun n : Nat => -(n : Int)
  | '+' :: l => (parseDigits l).map Int.ofNat
  | l => (parseDigits l).map Int.ofNat

theorem parseDigits_toDigits (n : Nat) : parseDigits (Nat.toDigits 10 n) = some n := by
  have hall : (Nat.toDigits 10 n).all Char.isDigit = true := by
    rw [List.all_eq_true]
    intro c hc
    exact Nat.isDigit_of_mem_toDigits (by omega) (by omega) hc
  unfold parseDigits
  rw [if_pos ⟨Nat.toDigits_ne_nil, hall⟩, Nat.ofDigitChars_ten_toDigits]

theorem toDigits_sign_free (n : Nat) (c : Char) (l : List Char) (h : Nat.toDigits 10 n = c :: l) :
    c ≠ '-' ∧ c ≠ '+' := by
  have hd : c.isDigit = true := by
    apply Nat.isDigit_of_mem_toDigits (b := 10) (n := n) (by omega) (by omega)
    rw [h]
    exact List.mem_cons_self
  constructor
  · rintro rfl
    simp at hd
  · rintro rfl
    simp at hd

theorem parseInt_toString (n : Int) : parseInt (toString n) = some n := by
  cases n with
  | ofNat n =>
    have hs : (toString (Int.ofNat n)).toList = Nat.toDigits 10 n := Nat.toList_repr
    unfold parseInt
    rw [hs]
    split
    · rename_i l h
      exact absurd rfl (toDigits_sign_free n _ _ h).1
    · rename_i l h
      exact absurd rfl (toDigits_sign_free n _ _ h).2
    · rw [parseDigits_toDigits]
      rfl
  | negSucc n =>
    have hs : (toString (Int.negSucc n)).toList = '-' :: Nat.toDigits 10 (n + 1) := by
      change ("-" ++ Nat.repr (n + 1)).toList = _
      rw [String.toList_append, Nat.toList_repr]
      rfl
    unfold parseInt
    rw [hs]
    simp only [parseDigits_toDigits]
    rfl

theorem toString_injective {m n : Int} (h : toString m = toString n) : m = n := by
  have hparse := parseInt_toString m
  rw [h, parseInt_toString] at hparse
  exact (Option.some.inj hparse).symm

theorem toString_ne_empty (n : Int) : toString n ≠ "" := by
  intro h
  have hparse := parseInt_toString n
  have hnone : parseInt "" = none := by decide
  rw [h, hnone] at hparse
  cases hparse

theorem toString_neg_of_pos {n : Int} (h : 0 < n) : toString (-n) = "-" ++ toString n := by
  obtain ⟨m, rfl⟩ : ∃ m : Nat, n = (m + 1 : Nat) := ⟨n.toNat - 1, by omega⟩
  rfl

section Trim
variable {p q : Char → Bool}

theorem exists_trimList (l : List Char) : ∃ pre post, l = pre ++ trimList q l ++ post ∧
    (∀ c ∈ pre, q c = true) ∧ ∀ c ∈ post, q c = true := by
  refine ⟨l.takeWhile q, ((l.dropWhile q).reverse.takeWhile q).reverse, ?_, ?_, ?_⟩
  · have hinner : trimList q l ++ ((l.dropWhile q).reverse.takeWhile q).reverse =
        l.dropWhile q := by
      unfold trimList
      rw [← List.reverse_append, List.takeWhile_append_dropWhile, List.reverse_reverse]
    rw [List.append_assoc, hinner, List.takeWhile_append_dropWhile]
  · exact fun c hc => List.mem_takeWhile_imp hc
  · intro c hc
    exact List.mem_takeWhile_imp (List.mem_reverse.mp hc)

theorem trimList_trimList (l : List Char) : trimList q (trimList q l) = trimList q l := by
  have hpre : trimList q l <+: l.dropWhile q := List.reverse_suffix.mp
    (by rw [trimList, List.reverse_reverse]; exact List.dropWhile_suffix q)
  have hkeep : (trimList q l).dropWhile q = trimList q l := by
    obtain ⟨post, hpost⟩ := hpre
    cases htrim : trimList q l with
    | nil => rfl
    | cons c t =>
      rw [htrim] at hpost
      have hidem := List.dropWhile_idempotent q l
      rw [← hpost, List.cons_append, List.dropWhile_cons] at hidem
      split at hidem
      · have hlen := (List.dropWhile_suffix q : (t ++ post).dropWhile q <:+ t ++ post).length_le
        rw [hidem, List.length_cons] at hlen
        omega
      · rename_i hc
        rw [List.dropWhile_cons, if_neg hc]
  have hback : (trimList q l).reverse = (l.dropWhile q).reverse.dropWhile q :=
    List.reverse_reverse _
  rw [trimList, hkeep, hback, List.dropWhile_idempotent, ← hback, List.reverse_reverse]

theorem trimSpace_trimSpace (s : String) : trimSpace (trimSpace s) = trimSpace s := by
  simp only [trimSpace, trimBy, String.toList_ofList, trimList_trimList]

theorem trimList_sandwich {pre t post : List Char} (hpre : ∀ c ∈ pre, p c = true)
    (ht : ∀ c ∈ t, p c = false) (hpost : ∀ c ∈ post, p c = true) :
    trimList p (pre ++ t ++ post) = t := by
  have hkeep : ∀ l : List Char, (∀ c ∈ l, p c = false) → l.dropWhile p = l := by
    intro l hl
    cases l with
    | nil => rfl
    | cons c l => simp [hl c List.mem_cons_self]
  unfold trimList
  rw [List.append_assoc, List.dropWhile_append_of_pos hpre]
  cases t with
  | nil =>
    have hnil : post.dropWhile p = [] := List.dropWhile_eq_nil_iff.mpr hpost
    simp [hnil]
  | cons c t =>
    have hdrop : ((c :: t) ++ post).dropWhile p = (c :: t) ++ post := by
      simp [ht c List.mem_cons_self]
    rw [hdrop, List.reverse_append,
      List.dropWhile_append_of_pos fun c hc => hpost c (List.mem_reverse.mp hc),
      hkeep _ fun c hc => ht c (List.mem_reverse.mp hc), List.reverse_reverse]

variable {l : List Char} {d : Int} {s : String} {c : Char}

theorem parseDigits_isDigit {n : Nat} (h : parseDigits l = some n) : ∀ c ∈ l, c.isDigit = true := by
  unfold parseDigits at h
  split at h
  · rename_i hl
    exact List.all_eq_true.mp hl.2
  · cases h

theorem parseInt_chars (h : parseInt s = some d) :
    ∀ c ∈ s.toList, c.isDigit = true ∨ c = '-' ∨ c = '+' := by
  unfold parseInt at h
  intro c hc
  split at h
  · rename_i l hl
    obtain ⟨n, hn, _⟩ := Option.map_eq_some_iff.mp h
    rw [hl] at hc
    rcases List.mem_cons.mp hc with rfl | hc
    · exact .inr (.inl rfl)
    · exact .inl (parseDigits_isDigit hn c hc)
  · rename_i l hl
    obtain ⟨n, hn, _⟩ := Option.map_eq_some_iff.mp h
    rw [hl] at hc
    rcases List.mem_cons.mp hc with rfl | hc
    · exact .inr (.inr rfl)
    · exact .inl (parseDigits_isDigit hn c hc)
  · obtain ⟨n, hn, _⟩ := Option.map_eq_some_iff.mp h
    exact .inl (parseDigits_isDigit hn c hc)

theorem isSpace_number (h : c.isDigit = true ∨ c = '-' ∨ c = '+') : isSpace c = false := by
  rcases h with h | rfl | rfl
  · have hrange : 48 ≤ c.toNat ∧ c.toNat ≤ 57 := by
      simp only [Char.isDigit, Bool.and_eq_true, decide_eq_true_eq, ge_iff_le] at h
      exact ⟨UInt32.le_iff_toNat_le.mp h.1, UInt32.le_iff_toNat_le.mp h.2⟩
    simp [isSpace]
    omega
  · decide
  · decide

theorem isSpace_of_isAsciiSpace (h : isAsciiSpace c = true) : isSpace c = true := by
  simp only [isAsciiSpace, Bool.or_eq_true, Bool.and_eq_true, decide_eq_true_eq, beq_iff_eq] at h
  rcases h with h | h
  · simp [isSpace, h]
  · simp [isSpace, h]

/-- A text that is a number between ASCII blanks is that number between Unicode blanks. -/
theorem parseInt_trimSpace (h : parseInt (trimBy isAsciiSpace s) = some d) :
    parseInt (trimSpace s) = some d := by
  obtain ⟨pre, post, hs, hpre, hpost⟩ := exists_trimList (q := isAsciiSpace) s.toList
  have hchars := parseInt_chars h
  simp only [trimBy, String.toList_ofList] at hchars
  have htrim : trimList isSpace s.toList = trimList isAsciiSpace s.toList :=
    calc trimList isSpace s.toList
        = trimList isSpace (pre ++ trimList isAsciiSpace s.toList ++ post) := congrArg _ hs
      _ = trimList isAsciiSpace s.toList :=
        trimList_sandwich (fun c hc => isSpace_of_isAsciiSpace (hpre c hc))
          (fun c hc => isSpace_number (hchars c hc))
          fun c hc => isSpace_of_isAsciiSpace (hpost c hc)
  unfold trimSpace trimBy
  rw [htrim]
  exact h

theorem trimBy_of_parseInt (hp : ∀ c, p c = true → isSpace c = true) (h : parseInt s = some d) :
    trimBy p s = s := by
  have hblank : ∀ c ∈ s.toList, p c = false := by
    intro c hc
    by_contra hpc
    have := hp c (by simpa using hpc)
    rw [isSpace_number (parseInt_chars h c hc)] at this
    cases this
  have htrim : trimList p s.toList = s.toList := by
    have hsan : trimList p ([] ++ s.toList ++ []) = s.toList :=
      trimList_sandwich (by simp) hblank (by simp)
    simpa using hsan
  unfold trimBy
  rw [htrim, String.ofList_toList]

theorem trimSpace_of_parseInt (h : parseInt s = some d) : trimSpace s = s :=
  trimBy_of_parseInt (fun _ hc => hc) h

theorem trimSpace_of_forall (h : ∀ c ∈ s.toList, isSpace c = false) : trimSpace s = s := by
  have hlist : trimList isSpace ([] ++ s.toList ++ []) = s.toList := trimList_sandwich nofun h nofun
  rw [List.nil_append, List.append_nil] at hlist
  rw [trimSpace, trimBy, hlist, String.ofList_toList]

theorem toString_chars (n : Int) : ∀ c ∈ (toString n).toList, isSpace c = false ∧ c ≠ '|' := by
  intro c hc
  have hnum := parseInt_chars (parseInt_toString n) c hc
  refine ⟨isSpace_number hnum, ?_⟩
  rintro rfl
  revert hnum
  decide

theorem trimList_last (h : (trimList q l).getLast? = some c) : q c = false := by
  unfold trimList at h
  rw [List.getLast?_reverse] at h
  have hnot := List.head?_dropWhile_not q (l.dropWhile q).reverse
  rw [h] at hnot
  exact hnot

theorem trimList_eq_self (hhead : ∀ c, l.head? = some c → q c = false)
    (hlast : ∀ c, l.getLast? = some c → q c = false) : trimList q l = l := by
  have hkeep : ∀ m : List Char, (∀ c, m.head? = some c → q c = false) → m.dropWhile q = m := by
    intro m hm
    cases m with
    | nil => rfl
    | cons c m => rw [List.dropWhile_cons, hm c rfl, if_neg nofun]
  unfold trimList
  rw [hkeep l hhead, hkeep l.reverse, List.reverse_reverse]
  intro c hc
  rw [List.head?_reverse] at hc
  exact hlast c hc

end Trim

section Case

variable {c : Char}

theorem toLower_of_not_upper (h : ¬ (65 ≤ c.toNat ∧ c.toNat ≤ 90)) : c.toLower = c := by
  apply dif_neg
  rintro ⟨hlow, hhigh⟩
  exact h ⟨UInt32.le_iff_toNat_le.mp hlow, UInt32.le_iff_toNat_le.mp hhigh⟩

theorem toLower_of_upper (h : 65 ≤ c.toNat ∧ c.toNat ≤ 90) : c.toLower.toNat = c.toNat + 32 := by
  have hrange : c.val ≥ 'A'.val ∧ c.val ≤ 'Z'.val :=
    ⟨UInt32.le_iff_toNat_le.mpr h.1, UInt32.le_iff_toNat_le.mpr h.2⟩
  have hval : c.toLower.val = c.val + ('a'.val - 'A'.val) := congrArg Char.val (dif_pos hrange)
  have h32 : ('a'.val - 'A'.val).toNat = 32 := by decide
  rw [Char.toNat, hval, UInt32.toNat_add, h32]
  exact Nat.mod_eq_of_lt (show c.toNat + 32 < 2 ^ 32 by omega)

theorem toNat_ofNat {n : Nat} (h : n.isValidChar) : (Char.ofNat n).toNat = n := by
  rw [Char.ofNat, dif_pos h]
  rfl

theorem isSpace_of_blankFree (lo hi : Nat) (h : blankFree lo hi = true) (hlo : lo ≤ c.toNat)
    (hhi : c.toNat ≤ hi) : isSpace c = false := by
  simp only [blankFree, blankRanges, List.all_cons, List.all_nil, Bool.and_true, Bool.and_eq_true,
    Bool.or_eq_true, decide_eq_true_eq] at h
  simp [isSpace]
  omega

/-- A character stays in lower case, or it and its lower case, which stays, are no blanks. -/
theorem lowerChar_cases (c : Char) :
    (lowerChar c = c ∧ ¬ (65 ≤ c.toNat ∧ c.toNat ≤ 90)) ∨
      ((0x80 ≤ (lowerChar c).toNat ∨ 97 ≤ (lowerChar c).toNat ∧ (lowerChar c).toNat ≤ 122) ∧
        (65 ≤ c.toNat ∧ c.toNat ≤ 90 ∨ 0x80 ≤ c.toNat) ∧ isSpace c = false ∧
        isSpace (lowerChar c) = false ∧ lowerChar (lowerChar c) = lowerChar c) := by
  by_cases hascii : c.toNat < 0x80
  · rw [show lowerChar c = c.toLower from if_pos hascii]
    by_cases hupper : 65 ≤ c.toNat ∧ c.toNat ≤ 90
    · have hup := toLower_of_upper hupper
      refine .inr ⟨.inr (by omega), .inl hupper, ?_, ?_, ?_⟩
      · exact isSpace_of_blankFree 65 90 (by decide) hupper.1 hupper.2
      · exact isSpace_of_blankFree 97 122 (by decide) (by omega) (by omega)
      · rw [lowerChar, if_pos (by omega), toLower_of_not_upper (by omega)]
    · exact .inl ⟨toLower_of_not_upper hupper, hupper⟩
  · have hlower : lowerChar c = Char.ofNat (lowerCode c.toNat) := if_neg hascii
    rcases lowerCode_cases c.toNat with hsame | ⟨r, hmem, hhas, hcode, hstay⟩
    · refine .inl ⟨?_, by omega⟩
      rw [hlower, hsame, Char.ofNat_toNat]
    · have hsound := List.all_eq_true.mp lowerRanges_sound r hmem
      simp only [CaseRange.sound, Bool.and_eq_true, Bool.or_eq_true, decide_eq_true_eq] at hsound
      obtain ⟨⟨⟨hfrom, hto⟩, hlow⟩, hvalid⟩ := hsound
      have hin := CaseRange.has_iff.mp hhas
      have hout := CaseRange.lower_bounds hhas
      have hnat : (lowerChar c).toNat = r.lower c.toNat := by
        rw [hlower, hcode, toNat_ofNat (by unfold Nat.isValidChar; omega)]
      refine .inr ⟨by omega, .inr (by omega), isSpace_of_blankFree _ _ hfrom hin.1 hin.2.1,
        isSpace_of_blankFree _ _ hto (by omega) (by omega), ?_⟩
      generalize lowerChar c = d at hnat
      by_cases hd : d.toNat < 0x80
      · rw [lowerChar, if_pos hd, toLower_of_not_upper (by omega)]
      · rw [lowerChar, if_neg hd, hnat, hstay, ← hnat, Char.ofNat_toNat]

theorem lowerChar_number (h : c.isDigit = true ∨ c = '-' ∨ c = '+') : lowerChar c = c := by
  rcases h with hdigit | rfl | rfl
  · have hle : c.toNat ≤ 57 := by
      simp only [Char.isDigit, Bool.and_eq_true, decide_eq_true_eq] at hdigit
      exact UInt32.le_iff_toNat_le.mp hdigit.2
    rw [lowerChar, if_pos (by omega), toLower_of_not_upper (by omega)]
  · rfl
  · rfl

theorem lowerChar_lowerChar (c : Char) : lowerChar (lowerChar c) = lowerChar c := by
  rcases lowerChar_cases c with ⟨h, _⟩ | ⟨_, _, _, _, h⟩
  · rw [h, h]
  · exact h

theorem isSpace_lowerChar (c : Char) : isSpace (lowerChar c) = isSpace c := by
  rcases lowerChar_cases c with ⟨h, _⟩ | ⟨_, _, hc, hl, _⟩
  · rw [h]
  · rw [hc, hl]

theorem toLower_toLower (s : String) : toLower (toLower s) = toLower s := by
  unfold toLower
  rw [String.toList_ofList, List.map_map]
  congr 1
  exact List.map_congr_left fun c _ => lowerChar_lowerChar c

theorem trimList_map_lowerChar (l : List Char) :
    trimList isSpace (l.map lowerChar) = (trimList isSpace l).map lowerChar := by
  have hspace : isSpace ∘ lowerChar = isSpace := funext isSpace_lowerChar
  unfold trimList
  rw [List.dropWhile_map, hspace, ← List.map_reverse, List.dropWhile_map, hspace,
    ← List.map_reverse]

theorem toLower_trimSpace (s : String) : toLower (trimSpace s) = trimSpace (toLower s) := by
  unfold toLower trimSpace trimBy
  rw [String.toList_ofList, String.toList_ofList, trimList_map_lowerChar]

theorem toLower_ne_empty {s : String} (h : s ≠ "") : toLower s ≠ "" := by
  intro hnil
  apply h
  have hlist := congrArg String.toList hnil
  rw [toLower, String.toList_ofList] at hlist
  rw [← String.ofList_toList (s := s), List.map_eq_nil_iff.mp hlist]

end Case

theorem trimPrefix_of_not {s pre : String} (h : hasPrefix s pre = false) : trimPrefix s pre = s := by
  unfold trimPrefix
  rw [if_neg (by simp [h])]

theorem trimPrefix_getLast? (s pre : String) {c : Char}
    (h : (trimPrefix s pre).toList.getLast? = some c) : s.toList.getLast? = some c := by
  unfold trimPrefix at h
  split at h
  · rw [String.toList_ofList, List.getLast?_drop] at h
    split at h
    · cases h
    · exact h
  · exact h

section Length

theorem toLower_length (s : String) : (toLower s).toList.length = s.toList.length := by
  rw [toLower, String.toList_ofList, List.length_map]

theorem trimPrefix_length_le (s pre : String) :
    (trimPrefix s pre).toList.length ≤ s.toList.length := by
  unfold trimPrefix
  split
  · rw [String.toList_ofList, List.length_drop]
    omega
  · exact Nat.le_refl _

theorem trimPrefix_length_lt {s pre : String} (hpre : hasPrefix s pre = true) (hne : pre ≠ "") :
    (trimPrefix s pre).toList.length < s.toList.length := by
  have hpos : 0 < pre.toList.length := by
    apply List.length_pos_iff.mpr
    intro hnil
    exact hne (String.toList_injective hnil)
  have hle := (List.isPrefixOf_iff_prefix.mp hpre).length_le
  unfold trimPrefix
  rw [if_pos hpre, String.toList_ofList, List.length_drop]
  omega

theorem trimList_length_le (p : Char → Bool) (l : List Char) :
    (trimList p l).length ≤ (l.dropWhile p).length := by
  unfold trimList
  rw [List.length_reverse]
  have hle := (List.dropWhile_suffix p : (l.dropWhile p).reverse.dropWhile p <:+ _).length_le
  rw [List.length_reverse] at hle
  exact hle

theorem trimSpace_length_lt {s : String} (h : s.toList.head?.any isSpace = true) :
    (trimSpace s).toList.length < s.toList.length := by
  rw [trimSpace, trimBy, String.toList_ofList]
  cases hs : s.toList with
  | nil =>
    rw [hs] at h
    cases h
  | cons c l =>
    rw [hs] at h
    have hc : isSpace c = true := h
    have htrim := trimList_length_le isSpace (c :: l)
    rw [List.dropWhile_cons_of_pos hc] at htrim
    have hdrop := (List.dropWhile_suffix isSpace : l.dropWhile isSpace <:+ l).length_le
    rw [List.length_cons]
    omega

end Length

/-- A text up to the first separator is read back from what follows it. -/
theorem append_sep_inj {c : Char} {l m x y : List Char} (hl : c ∉ l) (hm : c ∉ m)
    (h : l ++ c :: x = m ++ c :: y) : l = m ∧ x = y := by
  have hread : ∀ {u v : List Char}, c ∉ u → (u ++ c :: v).takeWhile (· ≠ c) = u := by
    intro u v hu
    have hall : ∀ a ∈ u, (decide (a ≠ c)) = true := by
      intro a ha
      simp only [decide_eq_true_eq]
      rintro rfl
      exact hu ha
    rw [List.takeWhile_append_of_pos hall]
    simp
  have hlm : l = m := by
    rw [← hread hl (v := x), h, hread hm]
  subst hlm
  exact ⟨rfl, (List.cons.inj (List.append_cancel_left h)).2⟩

section Fields
variable {c : Char}

variable {x y : List Char}

theorem append_sep_inj_last {l m : List Char} (hx : c ∉ x) (hy : c ∉ y)
    (h : l ++ c :: x = m ++ c :: y) : l = m ∧ x = y := by
  have hrev := congrArg List.reverse h
  simp only [List.reverse_append, List.reverse_cons, List.append_assoc,
    List.singleton_append] at hrev
  have hback := append_sep_inj (fun hc => hx (List.mem_reverse.mp hc))
    (fun hc => hy (List.mem_reverse.mp hc)) hrev
  exact ⟨List.reverse_injective hback.2, List.reverse_injective hback.1⟩

/-- Fields in front of a text, each closed by the separator. -/
def headed (c : Char) (heads : List (List Char)) (rest : List Char) : List Char :=
  heads.foldr (fun field rest => field ++ c :: rest) rest

/-- Fields behind a text, each opened by the separator. -/
def tailed (c : Char) (front : List Char) (tails : List (List Char)) : List Char :=
  tails.foldl (fun front field => front ++ c :: field) front

theorem headed_inj {heads heads' : List (List Char)} (hlen : heads.length = heads'.length)
    (hheads : ∀ field ∈ heads, c ∉ field) (hheads' : ∀ field ∈ heads', c ∉ field)
    (h : headed c heads x = headed c heads' y) : heads = heads' ∧ x = y := by
  induction heads generalizing heads' with
  | nil =>
    rw [List.eq_nil_of_length_eq_zero hlen.symm] at h ⊢
    exact ⟨rfl, h⟩
  | cons field heads ih =>
    cases heads' with
    | nil => cases hlen
    | cons field' heads' =>
      obtain ⟨rfl, hrest⟩ := append_sep_inj (hheads field List.mem_cons_self)
        (hheads' field' List.mem_cons_self) h
      obtain ⟨rfl, hxy⟩ := ih (Nat.succ.inj hlen)
        (List.forall_mem_cons.mp hheads).2
        (List.forall_mem_cons.mp hheads').2 hrest
      exact ⟨rfl, hxy⟩

theorem tailed_inj {tails tails' : List (List Char)} (hlen : tails.length = tails'.length)
    (htails : ∀ field ∈ tails, c ∉ field) (htails' : ∀ field ∈ tails', c ∉ field)
    (h : tailed c x tails = tailed c y tails') : x = y ∧ tails = tails' := by
  induction tails using List.reverseRecOn generalizing tails' with
  | nil =>
    rw [List.eq_nil_of_length_eq_zero hlen.symm] at h ⊢
    exact ⟨h, rfl⟩
  | append_singleton tails field ih =>
    rcases List.eq_nil_or_concat tails' with rfl | ⟨tails', field', rfl⟩
    · simp at hlen
    · rw [List.concat_eq_append] at hlen htails' h ⊢
      simp only [List.length_append, List.length_singleton] at hlen
      rw [tailed, tailed, List.foldl_append, List.foldl_append] at h
      obtain ⟨hfront, rfl⟩ := append_sep_inj_last
        (htails field List.mem_append_cons_self)
        (htails' field' List.mem_append_cons_self) h
      obtain ⟨hxy, rfl⟩ := ih (Nat.succ.inj hlen)
        (fun f hf => htails f (List.mem_append_left _ hf))
        (fun f hf => htails' f (List.mem_append_left _ hf)) hfront
      exact ⟨hxy, rfl⟩

end Fields

section Contains
variable {pre s token : String}

/-- No end of the first text goes on to the second, and the second does not lie in the first. -/
def apart (pre token : List Char) : Bool :=
  pre.tails.all fun u => u.isEmpty || !u.isPrefixOf token && !token.isPrefixOf u

theorem toLower_append (s t : String) : toLower (s ++ t) = toLower s ++ toLower t := by
  rw [← String.toList_inj]
  simp [toLower]

theorem containsText_append (h : containsText s token = true) :
    containsText (pre ++ s) token = true := by
  obtain ⟨t, ht, hpre⟩ := List.any_eq_true.mp h
  refine List.any_eq_true.mpr ⟨t, ?_, hpre⟩
  rw [String.toList_append, List.mem_tails]
  exact ((List.mem_tails _ _).mp ht).trans (List.suffix_append _ _)

theorem containsText_append_apart (h : apart pre.toList token.toList = true) :
    containsText (pre ++ s) token = containsText s token := by
  unfold containsText
  rw [String.toList_append]
  generalize pre.toList = l at h
  induction l with
  | nil => rfl
  | cons c l ih =>
    rw [apart, List.tails_cons, List.all_cons, Bool.and_eq_true] at h
    obtain ⟨hhere, hrest⟩ := h
    have hno : token.toList.isPrefixOf (c :: l ++ s.toList) = false := by
      by_contra hyes
      rw [Bool.not_eq_false, List.isPrefixOf_iff_prefix] at hyes
      simp only [List.isEmpty_cons, Bool.false_or, Bool.and_eq_true, Bool.not_eq_true'] at hhere
      -- a token at this place lies in the first text, or this end of it begins the token
      rcases List.prefix_or_prefix_of_prefix hyes (List.prefix_append (c :: l) s.toList) with hin | hin
      · exact absurd (List.isPrefixOf_iff_prefix.mpr hin) (by simp [hhere.2])
      · exact absurd (List.isPrefixOf_iff_prefix.mpr hin) (by simp [hhere.1])
    rw [List.cons_append] at hno ⊢
    rw [List.tails_cons, List.any_cons, hno, Bool.false_or]
    exact ih hrest

end Contains
end Text
