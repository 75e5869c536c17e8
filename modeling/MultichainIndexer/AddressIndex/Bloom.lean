import MultichainIndexer.AddressIndex.Tiered

/-!
# The bloom filter of the address index

The bits of the filter are packed in words of 64. Each key has `k` positions, by
double hashing in 64-bit arithmetic from the two halves of a 128-bit hash. An
access to a word that does not exist would end the program: here it gives
`none`. How large a filter is made is left out.
-/

namespace MultichainIndexer

namespace Bloom

structure BloomFilter where
  bits : List (BitVec 64)
  m : BitVec 64
  k : BitVec 64

/-- The filter has a bit and a hash function, and a word for each of its bits. -/
structure BloomFilter.WellFormed (bf : BloomFilter) : Prop where
  bits_pos : 1 ≤ bf.m.toNat
  hashes_pos : 1 ≤ bf.k.toNat
  words : bf.bits.length = (bf.m.toNat + 63) / 64

/-- The two halves of the hash, the first one in front. -/
def hashHalves (sum : BitVec 128) : BitVec 64 × BitVec 64 :=
  let h2 := sum.extractLsb' 0 64
  (sum.extractLsb' 64 64, if h2 = 0 then 1 else h2)

def BloomFilter.position (bf : BloomFilter) (h : BitVec 64 × BitVec 64) (i : Nat) : BitVec 64 :=
  (h.1 + BitVec.ofNat 64 i * h.2) % bf.m

def BloomFilter.positions (bf : BloomFilter) (sum : BitVec 128) : List (BitVec 64) :=
  (List.range bf.k.toNat).map (bf.position (hashHalves sum))

def word (pos : BitVec 64) : Nat := (pos / 64#64).toNat

def mask (pos : BitVec 64) : BitVec 64 := 1#64 <<< (pos % 64#64)

def setBit (bits : List (BitVec 64)) (pos : BitVec 64) : Option (List (BitVec 64)) :=
  bits[word pos]?.map fun w => bits.set (word pos) (w ||| mask pos)

def testBits (bits : List (BitVec 64)) : List (BitVec 64) → Option Bool
  | [] => some true
  | pos :: rest => bits[word pos]?.bind fun w =>
    if w &&& mask pos = 0 then some false else testBits bits rest

section Filter
variable (hash : String → BitVec 128)

def BloomFilter.add (bf : BloomFilter) (key : String) : Option BloomFilter :=
  ((bf.positions (hash key)).foldlM setBit bf.bits).map fun bits => { bf with bits := bits }

def BloomFilter.mayContain (bf : BloomFilter) (key : String) : Option Bool :=
  testBits bf.bits (bf.positions (hash key))

end Filter

/-! ### One bit -/

def IsSet (bits : List (BitVec 64)) (pos : BitVec 64) : Prop :=
  ∃ w, bits[word pos]? = some w ∧ w &&& mask pos ≠ 0

theorem mask_ne_zero (pos : BitVec 64) : mask pos ≠ 0 := by
  intro hzero
  have hlt : pos.toNat % 64 < 64 := Nat.mod_lt _ (by decide)
  have hbit := congrArg (fun w : BitVec 64 => w.getLsbD (pos % 64#64).toNat) hzero
  unfold mask at hbit
  rw [BitVec.shiftLeft_eq'] at hbit
  simp at hbit
  omega

theorem setBit_isSome {bits : List (BitVec 64)} {pos : BitVec 64} (h : word pos < bits.length) :
    ∃ bits', setBit bits pos = some bits' ∧ bits'.length = bits.length ∧ IsSet bits' pos ∧
      ∀ pos', IsSet bits pos' → IsSet bits' pos' := by
  obtain ⟨w, hw⟩ : ∃ w, bits[word pos]? = some w := ⟨_, List.getElem?_eq_getElem h⟩
  refine ⟨bits.set (word pos) (w ||| mask pos), ?_, List.length_set, ?_, ?_⟩
  · unfold setBit
    rw [hw, Option.map_some]
  · refine ⟨w ||| mask pos, List.getElem?_set_self h, ?_⟩
    rw [BitVec.and_or_distrib_right, BitVec.and_self]
    intro hzero
    exact mask_ne_zero pos (BitVec.or_eq_zero_iff.mp hzero).2
  · rintro pos' ⟨w', hw', hset⟩
    by_cases hsame : word pos = word pos'
    · rw [← hsame, hw] at hw'
      cases hw'
      refine ⟨w ||| mask pos, hsame ▸ List.getElem?_set_self h, ?_⟩
      rw [BitVec.and_or_distrib_right]
      intro hzero
      exact hset (BitVec.or_eq_zero_iff.mp hzero).1
    · exact ⟨w', (List.getElem?_set_ne hsame).trans hw', hset⟩

/-! ### The bits of the keys -/

section Run
variable {bf : BloomFilter}

theorem BloomFilter.WellFormed.word_lt (h : bf.WellFormed) {sum : BitVec 128} {pos : BitVec 64}
    (hpos : pos ∈ bf.positions sum) : word pos < bf.bits.length := by
  obtain ⟨i, _, rfl⟩ := List.mem_map.mp hpos
  have hlt : (bf.position (hashHalves sum) i).toNat < bf.m.toNat := by
    unfold BloomFilter.position
    rw [BitVec.toNat_umod]
    exact Nat.mod_lt _ h.bits_pos
  have hdiv : word (bf.position (hashHalves sum) i) =
      (bf.position (hashHalves sum) i).toNat / 64 := BitVec.toNat_udiv
  rw [hdiv, h.words]
  omega

variable {bits ps : List (BitVec 64)}

theorem foldlM_setBit (h : ∀ pos ∈ ps, word pos < bits.length) :
    ∃ bits', ps.foldlM setBit bits = some bits' ∧ bits'.length = bits.length ∧
      (∀ pos ∈ ps, IsSet bits' pos) ∧ ∀ pos, IsSet bits pos → IsSet bits' pos := by
  induction ps generalizing bits with
  | nil => exact ⟨bits, rfl, rfl, fun pos hpos => absurd hpos List.not_mem_nil, fun _ hset => hset⟩
  | cons pos ps ih =>
    obtain ⟨bits₁, hset, hlen, hnew, hkept⟩ := setBit_isSome (h pos List.mem_cons_self)
    obtain ⟨bits₂, hfold, hlen₂, hall, hkept₂⟩ := ih fun p hp =>
      hlen ▸ h p (List.mem_cons_of_mem pos hp)
    refine ⟨bits₂, ?_, hlen₂.trans hlen, ?_, fun p hp => hkept₂ p (hkept p hp)⟩
    · rw [List.foldlM_cons, hset]
      exact hfold
    · intro p hp
      rcases List.mem_cons.mp hp with rfl | hp
      · exact hkept₂ p hnew
      · exact hall p hp

theorem testBits_of_isSet (h : ∀ pos ∈ ps, IsSet bits pos) : testBits bits ps = some true := by
  induction ps with
  | nil => rfl
  | cons pos ps ih =>
    obtain ⟨w, hw, hset⟩ := h pos List.mem_cons_self
    unfold testBits
    rw [hw, Option.bind_some, if_neg hset]
    exact ih (List.forall_mem_cons.mp h).2

theorem testBits_isSome (h : ∀ pos ∈ ps, word pos < bits.length) :
    (testBits bits ps).isSome = true := by
  induction ps with
  | nil => rfl
  | cons pos ps ih =>
    unfold testBits
    rw [List.getElem?_eq_getElem (h pos List.mem_cons_self), Option.bind_some]
    split
    · rfl
    · exact ih (List.forall_mem_cons.mp h).2

def BloomFilter.Holds (bf : BloomFilter) (sum : BitVec 128) : Prop :=
  ∀ pos ∈ bf.positions sum, IsSet bf.bits pos

theorem BloomFilter.WellFormed.add (h : bf.WellFormed) (hash : String → BitVec 128) (key : String) :
    ∃ bf', bf.add hash key = some bf' ∧ bf'.WellFormed ∧ bf'.Holds (hash key) ∧
      ∀ sum, bf.Holds sum → bf'.Holds sum := by
  have hin : ∀ pos ∈ bf.positions (hash key), word pos < bf.bits.length := fun _ => h.word_lt
  obtain ⟨bits', hfold, hlen, hall, hkept⟩ := foldlM_setBit hin
  refine ⟨{ bf with bits := bits' }, ?_, ⟨h.bits_pos, h.hashes_pos, hlen.trans h.words⟩, hall, ?_⟩
  · unfold BloomFilter.add
    rw [hfold, Option.map_some]
  · intro sum hsum pos hpos
    exact hkept pos (hsum pos hpos)

theorem BloomFilter.WellFormed.addAll (h : bf.WellFormed) (hash : String → BitVec 128)
    (keys : List String) : ∃ bf', keys.foldlM (BloomFilter.add hash) bf = some bf' ∧
      bf'.WellFormed ∧ (∀ key ∈ keys, bf'.Holds (hash key)) ∧
      ∀ sum, bf.Holds sum → bf'.Holds sum := by
  induction keys generalizing bf with
  | nil => exact ⟨bf, rfl, h, fun key hkey => absurd hkey List.not_mem_nil, fun _ hsum => hsum⟩
  | cons key keys ih =>
    obtain ⟨bf₁, hadd, hwf, hnew, hkept⟩ := h.add hash key
    obtain ⟨bf₂, hfold, hwf₂, hall, hkept₂⟩ := ih hwf
    refine ⟨bf₂, ?_, hwf₂, ?_, fun sum hsum => hkept₂ sum (hkept sum hsum)⟩
    · rw [List.foldlM_cons, hadd]
      exact hfold
    · intro key' hkey
      rcases List.mem_cons.mp hkey with rfl | hkey
      · exact hkept₂ _ hnew
      · exact hall key' hkey

/-- Adding keys never leaves the words of the filter, and afterwards it may contain each of them. -/
theorem mayContain_added (hash : String → BitVec 128) (bf : BloomFilter) (h : bf.WellFormed)
    (keys : List String) :
    ∃ bf', keys.foldlM (BloomFilter.add hash) bf = some bf' ∧
      (∀ key ∈ keys, bf'.mayContain hash key = some true) ∧
      ∀ key, (bf'.mayContain hash key).isSome = true := by
  obtain ⟨bf', hfold, hwf, hall, _⟩ := h.addAll hash keys
  refine ⟨bf', hfold, ?_, ?_⟩
  · intro key hkey
    exact testBits_of_isSet (hall key hkey)
  · intro key
    exact testBits_isSome fun pos hpos => hwf.word_lt hpos

/-- FNV-128a, the hash of the program. -/
def fnv128a (key : String) : BitVec 128 :=
  key.toUTF8.toList.foldl (fun sum byte =>
    (sum ^^^ byte.toBitVec.setWidth 128) * 0x1000000000000000000013B#128)
    0x6c62272e07bb014262b821756295c58d#128

/-- Two of three addresses are put in a filter of 128 bits: it may contain them, and not the third. -/
theorem mayContain_added_two : ∃ bf', ["0xab", "0xcd"].foldlM (BloomFilter.add fnv128a)
    ⟨[0, 0], 128, 3⟩ = some bf' ∧ (∀ key ∈ ["0xab", "0xcd"], bf'.mayContain fnv128a key = some true) ∧
    bf'.mayContain fnv128a "0xef" = some false := by
  obtain ⟨bf', hfold, hall, _⟩ := mayContain_added fnv128a ⟨[0, 0], 128, 3⟩
    ⟨by decide, by decide, by decide⟩ ["0xab", "0xcd"]
  have hother : ((["0xab", "0xcd"].foldlM (BloomFilter.add fnv128a) ⟨[0, 0], 128, 3⟩).bind
      (BloomFilter.mayContain fnv128a · "0xef")) = some false := by decide +kernel
  rw [hfold] at hother
  exact ⟨bf', hfold, hall, hother⟩

end Run

end Bloom

end MultichainIndexer
