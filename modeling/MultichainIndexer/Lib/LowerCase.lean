import Mathlib.Data.List.Basic

/-!
# Lower case beyond ASCII

The simple lower-case mapping of Unicode as ranges of codes, those of Go's
`unicode.CaseRanges`. No lower-case code is mapped again, and no blank is mapped or
mapped to: both are read off the table range by range.
-/

namespace Text

/-- The codes `lo`, `lo + stride`, … up to `hi`; the lower case of `lo` is `low`. -/
structure CaseRange where
  lo : Nat
  hi : Nat
  stride : Nat
  low : Nat

namespace CaseRange

def has (r : CaseRange) (n : Nat) : Bool :=
  r.lo ≤ n && n ≤ r.hi && (n - r.lo) % r.stride == 0

def lower (r : CaseRange) (n : Nat) : Nat := r.low + (n - r.lo)

def highest (r : CaseRange) : Nat := r.lower r.hi

/-- No lower case of the first range lies in the second. -/
def leaves (r s : CaseRange) : Bool :=
  r.highest < s.lo || s.hi < r.low ||
    ((r.lo == r.hi || r.stride == 2) && s.stride == 2 && (r.low + s.lo) % 2 == 1)

end CaseRange

/-- The blanks of `unicode.White_Space`, first and last of each run. -/
def blankRanges : List (Nat × Nat) :=
  [(9, 13), (0x20, 0x20), (0x85, 0x85), (0xa0, 0xa0), (0x1680, 0x1680), (0x2000, 0x200a),
   (0x2028, 0x2029), (0x202f, 0x202f), (0x205f, 0x205f), (0x3000, 0x3000)]

def blankFree (lo hi : Nat) : Bool := blankRanges.all fun b => hi < b.1 || b.2 < lo

def CaseRange.sound (r : CaseRange) : Bool :=
  blankFree r.lo r.hi && blankFree r.low r.highest &&
    (0x80 ≤ r.low || (97 ≤ r.low && r.highest ≤ 122)) &&
    (r.highest < 0xd800 || (0xdfff < r.low && r.highest < 0x110000))

/-- First and last code of a run, and the lower case of the first. -/
def shiftedRuns : List (Nat × Nat × Nat) :=
  [(192, 214, 224), (216, 222, 248), (393, 394, 598), (433, 434, 650), (904, 906, 941),
   (910, 911, 973), (913, 929, 945), (931, 939, 963), (1021, 1023, 891), (1024, 1039, 1104),
   (1040, 1071, 1072), (1329, 1366, 1377), (4256, 4293, 11520), (5024, 5103, 43888),
   (5104, 5109, 5112), (7312, 7354, 4304), (7357, 7359, 4349), (7944, 7951, 7936),
   (7960, 7965, 7952), (7976, 7983, 7968), (7992, 7999, 7984), (8008, 8013, 8000),
   (8040, 8047, 8032), (8072, 8079, 8064), (8088, 8095, 8080), (8104, 8111, 8096),
   (8120, 8121, 8112), (8122, 8123, 8048), (8136, 8139, 8050), (8152, 8153, 8144),
   (8154, 8155, 8054), (8168, 8169, 8160), (8170, 8171, 8058), (8184, 8185, 8056),
   (8186, 8187, 8060), (8544, 8559, 8560), (9398, 9423, 9424), (11264, 11311, 11312),
   (11390, 11391, 575), (65313, 65338, 65345), (66560, 66599, 66600), (66736, 66771, 66776),
   (66928, 66938, 66967), (66940, 66954, 66979), (66956, 66962, 66995), (66964, 66965, 67003),
   (68736, 68786, 68800), (71840, 71871, 71872), (93760, 93791, 93792), (125184, 125217, 125218)]

/-- Runs in which every upper-case code comes before its lower case. -/
def alternatingRuns : List (Nat × Nat) :=
  [(256, 302), (306, 310), (313, 327), (330, 374), (377, 381), (386, 388), (416, 420), (435, 437),
   (459, 475), (478, 494), (498, 500), (504, 542), (546, 562), (582, 590), (880, 882), (984, 1006),
   (1120, 1152), (1162, 1214), (1217, 1229), (1232, 1326), (7680, 7828), (7840, 7934),
   (11367, 11371), (11392, 11490), (11499, 11501), (42560, 42604), (42624, 42650), (42786, 42798),
   (42802, 42862), (42873, 42875), (42878, 42886), (42896, 42898), (42902, 42920), (42932, 42946),
   (42951, 42953), (42966, 42968)]

def loneCodes : List (Nat × Nat) :=
  [(304, 105), (376, 255), (385, 595), (390, 596), (391, 392), (395, 396), (398, 477), (399, 601),
   (400, 603), (401, 402), (403, 608), (404, 611), (406, 617), (407, 616), (408, 409), (412, 623),
   (413, 626), (415, 629), (422, 640), (423, 424), (425, 643), (428, 429), (430, 648), (431, 432),
   (439, 658), (440, 441), (444, 445), (452, 454), (453, 454), (455, 457), (456, 457), (458, 460),
   (497, 499), (502, 405), (503, 447), (544, 414), (570, 11365), (571, 572), (573, 410),
   (574, 11366), (577, 578), (579, 384), (580, 649), (581, 652), (886, 887), (895, 1011),
   (902, 940), (908, 972), (975, 983), (1012, 952), (1015, 1016), (1017, 1010), (1018, 1019),
   (1216, 1231), (4295, 11559), (4301, 11565), (7838, 223), (8025, 8017), (8027, 8019),
   (8029, 8021), (8031, 8023), (8124, 8115), (8140, 8131), (8172, 8165), (8188, 8179), (8486, 969),
   (8490, 107), (8491, 229), (8498, 8526), (8579, 8580), (11360, 11361), (11362, 619),
   (11363, 7549), (11364, 637), (11373, 593), (11374, 625), (11375, 592), (11376, 594),
   (11378, 11379), (11381, 11382), (11506, 11507), (42877, 7545), (42891, 42892), (42893, 613),
   (42922, 614), (42923, 604), (42924, 609), (42925, 620), (42926, 618), (42928, 670),
   (42929, 647), (42930, 669), (42931, 43859), (42948, 42900), (42949, 642), (42950, 7566),
   (42960, 42961), (42997, 42998)]

def lowerRanges : List CaseRange :=
  shiftedRuns.map (fun (lo, hi, low) => ⟨lo, hi, 1, low⟩) ++
    alternatingRuns.map (fun (lo, hi) => ⟨lo, hi, 2, lo + 1⟩) ++
    loneCodes.map fun (n, low) => ⟨n, n, 1, low⟩

/-- Lower case of a code from 0x80 on. -/
def lowerCode (n : Nat) : Nat :=
  match lowerRanges.find? (·.has n) with
  | some r => r.lower n
  | none => n

set_option maxRecDepth 4000 in
theorem lowerRanges_leave : (lowerRanges.all fun r => lowerRanges.all r.leaves) = true := by
  decide +kernel

set_option maxRecDepth 4000 in
theorem lowerRanges_sound : lowerRanges.all CaseRange.sound = true := by
  decide +kernel

section Range
variable {r s : CaseRange} {n : Nat}

theorem CaseRange.has_iff : r.has n = true ↔ r.lo ≤ n ∧ n ≤ r.hi ∧ (n - r.lo) % r.stride = 0 := by
  simp [has, and_assoc]

theorem CaseRange.lower_bounds (h : r.has n = true) : r.low ≤ r.lower n ∧ r.lower n ≤ r.highest := by
  obtain ⟨hlo, hhi, _⟩ := has_iff.mp h
  unfold highest lower
  omega

theorem CaseRange.not_has_lower (hleave : r.leaves s = true) (h : r.has n = true) :
    s.has (r.lower n) = false := by
  have hbounds := lower_bounds h
  obtain ⟨hlo, hhi, hstep⟩ := has_iff.mp h
  rw [Bool.eq_false_iff]
  intro hin
  obtain ⟨hslo, hshi, hsstep⟩ := has_iff.mp hin
  simp only [leaves, Bool.or_eq_true, Bool.and_eq_true, decide_eq_true_eq, beq_iff_eq] at hleave
  rcases hleave with (hbelow | habove) | ⟨⟨hr | hr, hs⟩, hodd⟩
  · omega
  · omega
  · rw [hs] at hsstep
    unfold lower at hslo hsstep
    omega
  · -- both run over every second code, and start at codes of different parity
    rw [hr] at hstep
    rw [hs] at hsstep
    unfold lower at hslo hsstep
    omega

end Range

/-- A code stays, or a range of the table maps it to a code that stays. -/
theorem lowerCode_cases (n : Nat) :
    lowerCode n = n ∨ ∃ r ∈ lowerRanges, r.has n = true ∧ lowerCode n = r.lower n ∧
      lowerCode (r.lower n) = r.lower n := by
  cases hfind : lowerRanges.find? (·.has n) with
  | none => exact .inl (by rw [lowerCode, hfind])
  | some r =>
    have hmem := List.mem_of_find?_eq_some hfind
    have hhas := List.find?_some (p := fun s : CaseRange => s.has n) hfind
    have hstay : lowerRanges.find? (·.has (r.lower n)) = none := by
      rw [List.find?_eq_none]
      intro s hs
      have hleave := List.all_eq_true.mp (List.all_eq_true.mp lowerRanges_leave r hmem) s hs
      rw [CaseRange.not_has_lower hleave hhas]
      exact Bool.false_ne_true
    exact .inr ⟨r, hmem, hhas, by rw [lowerCode, hfind], by rw [lowerCode, hstay]⟩

end Text
