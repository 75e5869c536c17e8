import MultichainIndexer.Lib.Overwrite
import MultichainIndexer.Lib.Run
import MultichainIndexer.Ingester.Build
import MultichainIndexer.Store.WatchedAddressRepo

/-!
# The tiered address index

A lookup asks a bloom filter, then an LRU cache, then the database. The filter
and the cache are keyed by the text of the address as it is stored; the filter
is the one of the last reload, an entry of the cache stays until it is evicted
or put again, and the database answers with inactive rows too. The bloom filter
is any set that has the keys added to it. Without an index the ingester builds
a map from the active addresses, keyed by their canonical form.

`loaded` records, for the proofs only, the table that the last reload read.
-/

namespace MultichainIndexer

open Relational Overwrite

def WatchedAddress.addrMeta (wa : WatchedAddress) : Option String × Option String :=
  (wa.walletID, wa.organizationID)

/-- The map of `getBlockScanAddrMap`, built from what the database answers. -/
def blockScanAddrMap (chain : Chain) (activeAddrs : List WatchedAddress) :
    String → Option (Option String × Option String) :=
  writeAll (fun wa => canonicalAddressIdentity chain wa.address) WatchedAddress.addrMeta
    (fun _ => none) activeAddrs

structure TieredIndex where
  bloom : Option (String → Bool) := none
  lru : String → Option (Option WatchedAddress) := fun _ => none

def lruKey (chain : Chain) (network : Network) (address : String) : String :=
  chain.text ++ ":" ++ network.text ++ ":" ++ address

namespace TieredIndex
variable (chain : Chain) (network : Network)

/-- No filter yet: every key may be there. -/
def mayContain (idx : TieredIndex) (key : String) : Bool :=
  match idx.bloom with
  | some bf => bf key
  | none => true

def put (idx : TieredIndex) (key : String) (wa : Option WatchedAddress) : TieredIndex :=
  { idx with lru := Function.update idx.lru key (some wa) }

def lookup (address : String) (t : WatchedAddresses) (idx : TieredIndex) :
    Option WatchedAddress × TieredIndex :=
  if idx.mayContain (lruKey chain network address) then
    match idx.lru (lruKey chain network address) with
    | some wa => (wa, idx)
    | none =>
      (findByAddress chain network address t,
        idx.put (lruKey chain network address) (findByAddress chain network address t))
  else (none, idx)

/-- `Reload`; `others` are the keys that the new filter lets through by chance. -/
def reload (others : String → Bool) (t : WatchedAddresses) (idx : TieredIndex) : TieredIndex :=
  let addrs := getActive chain network t
  { bloom := some fun key =>
      addrs.any (fun wa => lruKey chain network wa.address = key) || others key
    lru := writeAll (fun wa => lruKey chain network wa.address) some idx.lru addrs }

def evict (gone : String → Bool) (idx : TieredIndex) : TieredIndex :=
  { idx with lru := fun key => if gone key then none else idx.lru key }

end TieredIndex

structure IndexSystem where
  watched : WatchedAddresses
  index : TieredIndex := {}
  loaded : WatchedAddresses := Table.empty

inductive IndexAction where
  | upsert (addr : WatchedAddressRow)
  | reload (others : String → Bool)
  | lookup (address : String)
  | evict (gone : String → Bool)

def IndexSystem.step (chain : Chain) (network : Network) (s : IndexSystem) :
    IndexAction → IndexSystem
  | .upsert addr => { s with watched := upsertWatchedAddress addr s.watched }
  | .reload others =>
    { s with index := s.index.reload chain network others s.watched, loaded := s.watched }
  | .lookup address => { s with index := (s.index.lookup chain network address s.watched).2 }
  | .evict gone => { s with index := s.index.evict gone }

theorem lruKey_inj {chain : Chain} {network : Network} {a b : String} :
    lruKey chain network a = lruKey chain network b ↔ a = b := by
  simp [lruKey]

section Rows
variable {chain : Chain} {network : Network} {t : WatchedAddresses} {a : String}

theorem find?_upsertWatchedAddress (addr : WatchedAddressRow) (k : Chain × Network × String) :
    KeyedTable.find? (upsertWatchedAddress addr t) k =
      if addr.key = k then some (((KeyedTable.find? t k).map fun r =>
        { r with isActive := addr.isActive }).getD { addr with backfillFromBlock := none })
      else KeyedTable.find? t k :=
  upsertFrom_find? _ _ addr t k

theorem find?_upsert_of_some {addr r : WatchedAddressRow} {k : Chain × Network × String}
    (h : KeyedTable.find? t k = some r) :
    ∃ r', KeyedTable.find? (upsertWatchedAddress addr t) k = some r' ∧
      r'.addrMeta = r.addrMeta := by
  rw [find?_upsertWatchedAddress, h]
  split
  · exact ⟨_, rfl, rfl⟩
  · exact ⟨r, rfl, rfl⟩

theorem mem_getActive {wa : WatchedAddress} :
    wa ∈ getActive chain network t ↔ ∃ r ∈ t.rows, r.chain = chain ∧ r.network = network ∧
      r.isActive = true ∧ r.toWatchedAddress = wa := by
  unfold getActive
  simp only [List.mem_map, List.mem_filter, WatchedAddressRow.isActiveOf, Bool.and_eq_true,
    decide_eq_true_eq, and_assoc]

end Rows

/-- A row of the index's chain and network is active and stored under its canonical text. -/
def Plain (chain : Chain) (network : Network) (r : WatchedAddressRow) : Prop :=
  r.chain = chain → r.network = network →
    canonicalAddressIdentity chain r.address = r.address ∧ r.isActive = true

def Stored (chain : Chain) (network : Network) (a : String) (t : WatchedAddresses) : Prop :=
  ∃ r, KeyedTable.find? t (chain, network, a) = some r

/-- The index may be asked for the address: if it is stored, the last reload has seen it. -/
def IndexSystem.Seen (chain : Chain) (network : Network) (s : IndexSystem) (a : String) : Prop :=
  Stored chain network a s.watched → Stored chain network a s.loaded

def UpsertsPlain (chain : Chain) (network : Network) (_ : IndexSystem) : IndexAction → Prop
  | .upsert addr => Plain chain network addr
  | _ => True

/-- What a lookup should answer: the owner of an active address of this canonical form, or
nothing where there is none. -/
def Answers (chain : Chain) (network : Network) (t : WatchedAddresses) (a : String) :
    Option WatchedAddress → Prop
  | some wa => ∃ r ∈ getActive chain network t, canonicalAddressIdentity chain r.address = a ∧
      wa.addrMeta = r.addrMeta
  | none => ∀ r ∈ getActive chain network t, canonicalAddressIdentity chain r.address ≠ a

/-- What the filter and the cache hold, against the tables. -/
structure IndexSystem.Coherent (chain : Chain) (network : Network) (s : IndexSystem) : Prop where
  plain : ∀ r ∈ s.watched.rows, Plain chain network r
  grown : ∀ a, Stored chain network a s.loaded → Stored chain network a s.watched
  filter : ∀ a, Stored chain network a s.loaded →
    s.index.mayContain (lruKey chain network a) = true
  positive : ∀ a wa, s.index.lru (lruKey chain network a) = some (some wa) →
    ∃ r, KeyedTable.find? s.watched (chain, network, a) = some r ∧ wa.addrMeta = r.addrMeta
  negative : ∀ a, s.index.lru (lruKey chain network a) = some none →
    ¬ Stored chain network a s.loaded

section Coherence
variable {chain : Chain} {network : Network} {t : WatchedAddresses} {s : IndexSystem} {a : String}

theorem Plain.of_key {r r' : WatchedAddressRow} (h : Plain chain network r') (hkey : r.key = r'.key)
    (hact : r.isActive = r'.isActive) : Plain chain network r := by
  have hchain : r.chain = r'.chain := congrArg Prod.fst hkey
  have hnet : r.network = r'.network := congrArg (fun k => k.2.1) hkey
  have hadd : r.address = r'.address := congrArg (fun k => k.2.2) hkey
  intro hc hn
  rw [hadd, hact]
  exact h (hchain.symm.trans hc) (hnet.symm.trans hn)

theorem plain_upsert {addr : WatchedAddressRow} (h : ∀ r ∈ t.rows, Plain chain network r)
    (haddr : Plain chain network addr) :
    ∀ r ∈ (upsertWatchedAddress addr t).rows, Plain chain network r := by
  intro r hr
  have hfind : KeyedTable.find? (upsertWatchedAddress addr t) r.key = some r :=
    KeyedTable.find?_eq_some_iff.mpr ⟨hr, rfl⟩
  rw [find?_upsertWatchedAddress] at hfind
  split at hfind
  · rename_i hkey
    refine haddr.of_key hkey.symm ?_
    -- a row that was there, or a new one, has the activity of the upsert
    cases hold : KeyedTable.find? t r.key with
    | none =>
      rw [hold] at hfind
      cases hfind
      rfl
    | some r₀ =>
      rw [hold] at hfind
      cases hfind
      rfl
  · exact h r (KeyedTable.find?_eq_some_iff.mp hfind).1

theorem mem_getActive_of_plain (h : ∀ r ∈ t.rows, Plain chain network r) {wa : WatchedAddress} :
    (wa ∈ getActive chain network t ∧ wa.address = a) ↔
      ∃ r, KeyedTable.find? t (chain, network, a) = some r ∧ r.toWatchedAddress = wa := by
  constructor
  · rintro ⟨hwa, haddr⟩
    obtain ⟨r, hr, rfl, rfl, _, rfl⟩ := mem_getActive.mp hwa
    exact ⟨r, KeyedTable.find?_eq_some_iff.mpr ⟨hr, by rw [← haddr]; rfl⟩, rfl⟩
  · rintro ⟨r, hfind, rfl⟩
    obtain ⟨hr, hkey⟩ := KeyedTable.find?_eq_some_iff.mp hfind
    have hchain : r.chain = chain := congrArg Prod.fst hkey
    have hnet : r.network = network := congrArg (fun k => k.2.1) hkey
    exact ⟨mem_getActive.mpr ⟨r, hr, hchain, hnet, (h r hr hchain hnet).2, rfl⟩,
      congrArg (fun k => k.2.2) hkey⟩

theorem canonical_getActive (h : ∀ r ∈ t.rows, Plain chain network r) {wa : WatchedAddress}
    (hwa : wa ∈ getActive chain network t) :
    canonicalAddressIdentity chain wa.address = wa.address := by
  obtain ⟨r, hr, hchain, hnet, _, rfl⟩ := mem_getActive.mp hwa
  exact (h r hr hchain hnet).1

theorem answers_some (h : ∀ r ∈ t.rows, Plain chain network r) {wa : WatchedAddress}
    {r : WatchedAddressRow} (hfind : KeyedTable.find? t (chain, network, a) = some r)
    (hmeta : wa.addrMeta = r.addrMeta) : Answers chain network t a (some wa) := by
  obtain ⟨hmem, haddr⟩ := (mem_getActive_of_plain h).mpr ⟨r, hfind, rfl⟩
  exact ⟨_, hmem, (canonical_getActive h hmem).trans haddr, hmeta⟩

theorem answers_none (h : ∀ r ∈ t.rows, Plain chain network r)
    (hnone : ¬ Stored chain network a t) : Answers chain network t a none := by
  intro wa hwa heq
  obtain ⟨r, hr, _⟩ := (mem_getActive_of_plain h).mp
    ⟨hwa, (canonical_getActive h hwa).symm.trans heq⟩
  exact hnone ⟨r, hr⟩

/-- Among plain rows no two have one canonical form, so the answer is the map's. -/
theorem Answers.eq_map (hplain : ∀ r ∈ t.rows, Plain chain network r) {res : Option WatchedAddress}
    (h : Answers chain network t a res) :
    res.map WatchedAddress.addrMeta = blockScanAddrMap chain (getActive chain network t) a := by
  unfold blockScanAddrMap
  cases hmap : writeAll (fun wa => canonicalAddressIdentity chain wa.address)
      WatchedAddress.addrMeta (fun _ => none) (getActive chain network t) a with
  | none =>
    rw [writeAll_apply, Option.or_none, Option.map_eq_none_iff, List.find?_eq_none] at hmap
    cases res with
    | none => rfl
    | some wa =>
      obtain ⟨r, hr, hcanon, _⟩ := h
      exact absurd hcanon (by simpa using hmap r (List.mem_reverse.mpr hr))
  | some m =>
    rcases writeAll_eq_some hmap with ⟨r', hr', hcanon', rfl⟩ | ⟨_, hnone⟩
    · cases res with
      | none => exact absurd hcanon' (h r' hr')
      | some wa =>
        obtain ⟨r, hr, hcanon, hmeta⟩ := h
        obtain ⟨x, hx, rfl⟩ := (mem_getActive_of_plain hplain).mp
          ⟨hr, (canonical_getActive hplain hr).symm.trans hcanon⟩
        obtain ⟨y, hy, rfl⟩ := (mem_getActive_of_plain hplain).mp
          ⟨hr', (canonical_getActive hplain hr').symm.trans hcanon'⟩
        cases hx.symm.trans hy
        exact congrArg some hmeta
    · cases hnone

theorem IndexSystem.Coherent.upsert (h : s.Coherent chain network) {addr : WatchedAddressRow}
    (haddr : Plain chain network addr) :
    (s.step chain network (.upsert addr)).Coherent chain network := by
  constructor
  · exact plain_upsert h.plain haddr
  · intro a ha
    obtain ⟨r, hr⟩ := h.grown a ha
    obtain ⟨r', hr', _⟩ := find?_upsert_of_some hr
    exact ⟨r', hr'⟩
  · exact h.filter
  · intro a wa hwa
    obtain ⟨r, hr, hmeta⟩ := h.positive a wa hwa
    obtain ⟨r', hr', hmeta'⟩ := find?_upsert_of_some hr
    exact ⟨r', hr', hmeta.trans hmeta'.symm⟩
  · exact h.negative

theorem IndexSystem.Coherent.reload (h : s.Coherent chain network) (others : String → Bool) :
    (s.step chain network (.reload others)).Coherent chain network := by
  constructor
  · exact h.plain
  · exact fun _ ha => ha
  · rintro a ⟨r, hr⟩
    obtain ⟨hmem, haddr⟩ := (mem_getActive_of_plain h.plain).mpr ⟨r, hr, rfl⟩
    show (_ || _) = true
    rw [Bool.or_eq_true]
    exact .inl (List.any_eq_true.mpr ⟨_, hmem, by simp [haddr]⟩)
  · intro a wa hwa
    rcases writeAll_eq_some hwa with ⟨wa', hmem, hkey, heq⟩ | ⟨_, hold⟩
    · cases heq
      obtain ⟨r, hr, rfl⟩ := (mem_getActive_of_plain h.plain).mp ⟨hmem, lruKey_inj.mp hkey⟩
      exact ⟨r, hr, rfl⟩
    · exact h.positive a wa hold
  · rintro a hnone ⟨r, hr⟩
    obtain ⟨hmem, haddr⟩ := (mem_getActive_of_plain h.plain).mpr ⟨r, hr, rfl⟩
    rcases writeAll_eq_some hnone with ⟨_, _, _, heq⟩ | ⟨hother, _⟩
    · cases heq
    · exact hother _ hmem (lruKey_inj.mpr haddr)

theorem IndexSystem.Coherent.evict (h : s.Coherent chain network) (gone : String → Bool) :
    (s.step chain network (.evict gone)).Coherent chain network := by
  have hlru : ∀ key x, (s.index.evict gone).lru key = some x → s.index.lru key = some x := by
    intro key x hx
    unfold TieredIndex.evict at hx
    simp only at hx
    split at hx
    · cases hx
    · exact hx
  exact ⟨h.plain, h.grown, h.filter, fun a wa hwa => h.positive a wa (hlru _ _ hwa),
    fun a hnone => h.negative a (hlru _ _ hnone)⟩

theorem IndexSystem.Coherent.lookup (h : s.Coherent chain network) (address : String) :
    (s.step chain network (.lookup address)).Coherent chain network := by
  show IndexSystem.Coherent chain network
    { s with index := (s.index.lookup chain network address s.watched).2 }
  unfold TieredIndex.lookup
  split
  · cases hlru : s.index.lru (lruKey chain network address) with
    | some wa => exact h
    | none =>
      refine ⟨h.plain, h.grown, h.filter, fun a wa hwa => ?_, fun a hnone => ?_⟩
      · by_cases ha : a = address
        · subst ha
          have hfind : findByAddress chain network a s.watched = some wa := by
            simpa [TieredIndex.put] using hwa
          obtain ⟨r, hr, rfl⟩ := Option.map_eq_some_iff.mp hfind
          exact ⟨r, hr, rfl⟩
        · apply h.positive a wa
          simpa [TieredIndex.put, Function.update_of_ne (lruKey_inj.not.mpr ha)] using hwa
      · by_cases ha : a = address
        · subst ha
          have hfind : findByAddress chain network a s.watched = none := by
            simpa [TieredIndex.put] using hnone
          intro hloa
          obtain ⟨r, hr⟩ := h.grown a hloa
          rw [findByAddress, hr] at hfind
          cases hfind
        · apply h.negative a
          simpa [TieredIndex.put, Function.update_of_ne (lruKey_inj.not.mpr ha)] using hnone
  · exact h

theorem IndexSystem.Coherent.step (h : s.Coherent chain network) {act : IndexAction}
    (hok : UpsertsPlain chain network s act) : (s.step chain network act).Coherent chain network := by
  cases act with
  | upsert addr => exact h.upsert hok
  | reload others => exact h.reload others
  | lookup address => exact h.lookup address
  | evict gone => exact h.evict gone

theorem IndexSystem.Coherent.answers (h : s.Coherent chain network) (hseen : s.Seen chain network a) :
    Answers chain network s.watched a (s.index.lookup chain network a s.watched).1 := by
  unfold TieredIndex.lookup
  split
  · cases hlru : s.index.lru (lruKey chain network a) with
    | some cached =>
      cases cached with
      | some wa =>
        obtain ⟨r, hr, hmeta⟩ := h.positive a wa hlru
        exact answers_some h.plain hr hmeta
      | none => exact answers_none h.plain fun hsto => h.negative a hlru (hseen hsto)
    | none =>
      cases hfind : KeyedTable.find? s.watched (chain, network, a) with
      | some r =>
        simp only [findByAddress, hfind]
        exact answers_some h.plain hfind rfl
      | none =>
        simp only [findByAddress, hfind]
        refine answers_none h.plain ?_
        rintro ⟨r, hr⟩
        rw [hfind] at hr
        cases hr
  · rename_i hrej
    exact answers_none h.plain fun hsto => hrej (h.filter a (hseen hsto))

end Coherence

/-- After any run that stores only active addresses in canonical form, the lookup of an address
that the last reload has seen, if it is stored, is exact. -/
theorem run_lookup_exact (chain : Chain) (network : Network) (t : WatchedAddresses)
    (s : IndexSystem) (acts : List IndexAction) (hplain : ∀ r ∈ t.rows, Plain chain network r)
    (hrun : Runs.Run (fun s act s' => s.step chain network act = s') (UpsertsPlain chain network)
      { watched := t } acts s)
    (a : String) (hseen : s.Seen chain network a) :
    Answers chain network s.watched a (s.index.lookup chain network a s.watched).1 ∧
      (s.index.lookup chain network a s.watched).1.map WatchedAddress.addrMeta =
        blockScanAddrMap chain (getActive chain network s.watched) a := by
  have hnone : ∀ a, ¬ Stored chain network a Table.empty := by
    rintro a ⟨r, hr⟩
    cases hr
  have hstart : IndexSystem.Coherent chain network { watched := t } := by
    refine ⟨hplain, fun a ha => absurd ha (hnone a), fun a ha => absurd ha (hnone a), ?_, ?_⟩
    · intro a wa h
      cases h
    · intro a h
      cases h
  have hcoh : s.Coherent chain network := by
    refine hrun.invariant hstart ?_
    intro s act s' hs hok hstep
    subst hstep
    exact hs.step hok
  have hans := hcoh.answers hseen
  exact ⟨hans, hans.eq_map hcoh.plain⟩

def walletAddress (address : String) (isActive : Bool) : WatchedAddressRow where
  chain := .ethereum
  network := .mainnet
  address := address
  walletID := some "w"
  isActive := isActive

def noAddress : IndexSystem where
  watched := Table.empty

/-- Two addresses are stored, the index is reloaded, the first one is found. -/
theorem run_lookup_exact_reloaded :
    ∃ s, Runs.Run (fun s act s' => s.step .ethereum .mainnet act = s')
        (UpsertsPlain .ethereum .mainnet) noAddress
        [.upsert (walletAddress "0xab" true), .upsert (walletAddress "0xcd" true),
          .reload fun _ => false] s ∧
      Answers .ethereum .mainnet s.watched "0xab"
        (s.index.lookup .ethereum .mainnet "0xab" s.watched).1 ∧
      blockScanAddrMap .ethereum (getActive .ethereum .mainnet s.watched) "0xab" =
        some (some "w", none) := by
  have hrun : Runs.Run (fun s act s' => s.step .ethereum .mainnet act = s')
      (UpsertsPlain .ethereum .mainnet) noAddress
      [.upsert (walletAddress "0xab" true), .upsert (walletAddress "0xcd" true),
        .reload fun _ => false] _ :=
    .next (.next (.next .start (fun _ _ => ⟨by decide +kernel, rfl⟩) rfl)
      (fun _ _ => ⟨by decide +kernel, rfl⟩) rfl) trivial rfl
  refine ⟨_, hrun, ?_, by decide +kernel⟩
  exact (run_lookup_exact .ethereum .mainnet Table.empty _ _ (by simp [Table.empty]) hrun "0xab"
    fun h => h).1

def answersAfter (acts : List IndexAction) (a : String) :
    Option (Option String × Option String) × Option (Option String × Option String) :=
  let s := acts.foldl (IndexSystem.step .ethereum .mainnet) noAddress
  ((s.index.lookup .ethereum .mainnet a s.watched).1.map WatchedAddress.addrMeta,
    blockScanAddrMap .ethereum (getActive .ethereum .mainnet s.watched) a)

/-- An address stored in upper case is not found under its canonical form; one that is stored
after the reload is not found; one that is no longer active is still found. -/
theorem lookup_not_exact :
    answersAfter [.upsert (walletAddress "0xAB" true), .reload fun _ => false] "0xab" =
      (none, some (some "w", none)) ∧
    answersAfter [.reload fun _ => false, .upsert (walletAddress "0xab" true)] "0xab" =
      (none, some (some "w", none)) ∧
    answersAfter [.upsert (walletAddress "0xab" true), .reload fun _ => false,
      .upsert (walletAddress "0xab" false)] "0xab" = (some (some "w", none), none) := by
  refine ⟨?_, ?_, ?_⟩
  · decide +kernel
  · decide +kernel
  · decide +kernel

end MultichainIndexer
