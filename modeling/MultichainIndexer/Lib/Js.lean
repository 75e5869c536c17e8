import MultichainIndexer.Lib.Text
import Mathlib.Algebra.Group.Int.Defs
import Mathlib.Algebra.Group.Nat.Defs

/-!
# Scalars of JavaScript

A scalar of a parsed JSON text, the trimming of `String.prototype.trim`, and the
integer literals that `BigInt` reads: decimal with a sign, or hexadecimal, octal
and binary without one. `Number` of an integer is exact up to 53 bits and rounds
to the nearest double beyond, and such a number prints the fewest digits that
round to it.
-/

namespace Js

/-- A property of an object that is a number or a text where it is there at all. Numbers are those
without a fraction. -/
inductive Scalar
  | absent
  | number (n : Int)
  | text (s : String)
  deriving DecidableEq, Repr

/-- White space and line terminators: against Go, the byte order mark is one, U+0085 is none. -/
def isSpace (c : Char) : Bool := c.toNat == 0xfeff || (Text.isSpace c && c.toNat != 0x85)

def trim (s : String) : String := Text.trimBy isSpace s

def digitValue (c : Char) : Nat :=
  if c.isDigit then c.toNat - 48
  else if 'a' ≤ c ∧ c ≤ 'z' then c.toNat - 87
  else if 'A' ≤ c ∧ c ≤ 'Z' then c.toNat - 55
  else 36

def parseRadix (radix : Nat) (l : List Char) : Option Int :=
  if l ≠ [] ∧ l.all (fun c => decide (digitValue c < radix)) = true then
    some (l.foldl (fun n c => n * radix + digitValue c) 0)
  else none

/-- `BigInt` of a text without blanks around it. -/
def bigInt (s : String) : Option Int :=
  match s.toList with
  | [] => some 0
  | '0' :: 'x' :: l | '0' :: 'X' :: l => parseRadix 16 l
  | '0' :: 'o' :: l | '0' :: 'O' :: l => parseRadix 8 l
  | '0' :: 'b' :: l | '0' :: 'B' :: l => parseRadix 2 l
  | _ => Text.parseInt s

/-- Whether an operand of `||` is taken. -/
def Scalar.truthy : Scalar → Bool
  | .absent => false
  | .number n => n ≠ 0
  | .text s => s ≠ ""

def Scalar.or (a b : Scalar) : Scalar := if a.truthy then a else b

/-- `a || b` on texts. -/
def orText (a b : Option String) : Option String := if a.getD "" ≠ "" then a else b

/-- The quotient rounded to the nearest integer, ties to the even one. -/
def roundDiv (m p : Nat) : Nat :=
  if p < 2 * (m % p) ∨ 2 * (m % p) = p ∧ m / p % 2 = 1 then m / p + 1 else m / p

/-- The double next to a number. -/
def nearestDouble (m : Nat) : Nat :=
  roundDiv m (2 ^ (Nat.log2 m - 52)) * 2 ^ (Nat.log2 m - 52)

/-- `Number` of an integer, none where it is infinite. -/
def number (n : Int) : Option Int :=
  if n.natAbs < 2 ^ 53 then some n
  else if nearestDouble n.natAbs < 2 ^ 1024 then some (n.sign * nearestDouble n.natAbs)
  else none

/-- The integer with the fewest leading digits whose double is the given one. -/
def shortest (m : Nat) : Nat :=
  let digits := (Nat.toDigits 10 m).length
  ((List.range 17).map fun k => roundDiv m (10 ^ (digits - (k + 1))) * 10 ^ (digits - (k + 1))).find?
    (fun c => nearestDouble c = m) |>.getD m

def exponentText (m : Nat) : String :=
  let digits := Nat.toDigits 10 m
  let lead := digits.rdropWhile (· = '0')
  String.ofList (lead.take 1 ++ (if lead.length ≤ 1 then [] else '.' :: lead.drop 1)) ++ "e+" ++
    toString (digits.length - 1)

/-- `String` of a number without a fraction. -/
def numberText (n : Int) : String :=
  if n.natAbs < 2 ^ 53 then toString n
  else (if n < 0 then "-" else "") ++
    if shortest n.natAbs < 10 ^ 21 then toString (shortest n.natAbs)
    else exponentText (shortest n.natAbs)

theorem numberText_chars (n : Int) :
    ∀ c ∈ (numberText n).toList, Text.isSpace c = false ∧ c ≠ '|' := by
  have hdig : ∀ {m : Nat} {c : Char}, c ∈ Nat.toDigits 10 m → Text.isSpace c = false ∧ c ≠ '|' := by
    intro m c hc
    have hchars := Text.toString_chars (m : Int)
    rw [show (toString (m : Int)).toList = Nat.toDigits 10 m from Nat.toList_repr] at hchars
    exact hchars c hc
  have hnat : ∀ {m : Nat} {c : Char}, c ∈ (toString m).toList → Text.isSpace c = false ∧ c ≠ '|' :=
    fun {m c} hc => hdig (by rwa [show (toString m).toList = _ from Nat.toList_repr] at hc)
  have hexp : ∀ (m : Nat), ∀ c ∈ (exponentText m).toList, Text.isSpace c = false ∧ c ≠ '|' := by
    intro m c hc
    have hlead : ∀ {c}, c ∈ (Nat.toDigits 10 m).rdropWhile (· = '0') → c ∈ Nat.toDigits 10 m :=
      fun h => (List.rdropWhile_prefix _ _).subset h
    unfold exponentText at hc
    simp only [String.toList_append, String.toList_ofList, List.mem_append] at hc
    rcases hc with ((hc | hc) | hc) | hc
    · exact hdig (hlead (List.mem_of_mem_take hc))
    · split at hc
      · cases hc
      · rcases List.mem_cons.mp hc with rfl | hc
        · decide
        · exact hdig (hlead (List.mem_of_mem_drop hc))
    · revert c
      exact Text.forall_mem_of_all (by decide)
    · exact hnat hc
  intro c hc
  unfold numberText at hc
  split at hc
  · exact Text.toString_chars n c hc
  · rw [String.toList_append, List.mem_append] at hc
    rcases hc with hc | hc
    · split at hc
      · revert c
        exact Text.forall_mem_of_all (by decide)
      · cases hc
    · split at hc
      · exact hnat hc
      · exact hexp _ c hc

theorem trim_trim (s : String) : trim (trim s) = trim s := by
  simp only [trim, Text.trimBy, String.toList_ofList, Text.trimList_trimList]

example : number (2 ^ 53 + 1) = some (2 ^ 53) ∧ numberText (2 ^ 53) = "9007199254740992" ∧
    (number (10 ^ 23)).map numberText = some "1e+23" := by decide +kernel

example : bigInt "0x1F" = some 31 ∧ bigInt "-12" = some (-12) ∧ bigInt "-0x1" = none := by decide

end Js
