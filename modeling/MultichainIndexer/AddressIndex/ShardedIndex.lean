import MultichainIndexer.AddressIndex.Bloom
import MultichainIndexer.Cache.ShardedLru

/-!
# The address index over its filter and its cache

The index as it is built: a bloom filter in words of 64 bits and a sharded LRU
cache whose entries expire and are evicted. Whatever one of its operations does
the tiered index does too, with the chance hits of this filter and after the
evictions of this cache, so that it is as exact. How large a filter is made is
left to the caller, as are the times that are read. Operations run one after
another.
-/

namespace MultichainIndexer

open Relational Overwrite Cache Bloom

structure ShardedIndex where
  bloom : Option BloomFilter := none
  lru : ShardedLRU String (Option WatchedAddress)

def newTieredIndex (lruCapacity lruTTL : Int) : ShardedIndex where
  lru := newShardedLRUWithCount (if lruCapacity ≤ 0 then 100000 else lruCapacity)
    (if lruTTL ≤ 0 then 600000000000 else lruTTL) id 16

namespace ShardedIndex
variable (hash : String → BitVec 128) (chain : Chain) (network : Network)

def mayContain (idx : ShardedIndex) (key : String) : Option Bool :=
  match idx.bloom with
  | some bf => bf.mayContain hash key
  | none => some true

def lookup (address : String) (now later : Int) (t : WatchedAddresses) (idx : ShardedIndex) :
    Option (Option WatchedAddress × ShardedIndex) := do
  let key := lruKey chain network address
  if ← idx.mayContain hash key then
    let (lru, cached) ← idx.lru.get now key
    match cached with
    | some wa => return (wa, { idx with lru := lru })
    | none =>
      let wa := findByAddress chain network address t
      let lru ← lru.put later key wa
      return (wa, { idx with lru := lru })
  else return (none, idx)

def reloadStep (clock : WatchedAddress → Int)
    (s : BloomFilter × ShardedLRU String (Option WatchedAddress)) (wa : WatchedAddress) :
    Option (BloomFilter × ShardedLRU String (Option WatchedAddress)) := do
  let key := lruKey chain network wa.address
  let bf ← s.1.add hash key
  let lru ← s.2.put (clock wa) key (some wa)
  return (bf, lru)

def reload (empty : BloomFilter) (clock : WatchedAddress → Int) (t : WatchedAddresses)
    (idx : ShardedIndex) : Option ShardedIndex := do
  let (bf, lru) ← (getActive chain network t).foldlM (reloadStep hash chain network clock)
    (empty, idx.lru)
  return ⟨some bf, lru⟩

/-- The tiered index lets the same keys through, and has what the cache holds. -/
structure Models (idx : ShardedIndex) (abs : TieredIndex) : Prop where
  filter : ∀ key, idx.mayContain hash key = some (abs.mayContain key)
  cache : idx.lru.Covered abs.lru

variable {hash chain network}

theorem Models.lookup {idx : ShardedIndex} {abs : TieredIndex} (h : idx.Models hash abs)
    (address : String) (now later : Int) (t : WatchedAddresses) :
    ∃ gone idx', idx.lookup hash chain network address now later t =
        some (((abs.evict gone).lookup chain network address t).1, idx') ∧
      idx'.Models hash ((abs.evict gone).lookup chain network address t).2 := by
  have hfil : ∀ gone, (abs.evict gone).mayContain = abs.mayContain := fun _ => rfl
  simp only [ShardedIndex.lookup, h.filter, TieredIndex.lookup, hfil, Option.bind_eq_bind,
    Option.bind_some]
  cases abs.mayContain (lruKey chain network address) with
  | false => exact ⟨fun _ => false, idx, rfl, h⟩
  | true =>
    obtain ⟨lru, answer, hget, hcov, hhit⟩ := h.cache.get now (lruKey chain network address)
    simp only [hget, if_true, Option.bind_some]
    cases answer with
    | some wa =>
      refine ⟨fun _ => false, { idx with lru := lru }, ?_⟩
      simp only [TieredIndex.evict, Bool.false_eq_true, if_false, hhit wa rfl]
      exact ⟨rfl, h.filter, hcov⟩
    | none =>
      obtain ⟨lru', hput, hcov'⟩ := hcov.put later (lruKey chain network address)
        (findByAddress chain network address t)
      -- the cache may have dropped the entry, so it is evicted here
      refine ⟨fun key => key = lruKey chain network address, { idx with lru := lru' }, ?_⟩
      simp only [TieredIndex.evict, decide_true, if_true, hput, Option.bind_some]
      refine ⟨rfl, h.filter, ?_⟩
      convert hcov' using 1
      funext key
      by_cases hkey : key = lruKey chain network address
      · simp [TieredIndex.put, hkey]
      · simp [TieredIndex.put, hkey]

variable (hash chain network) in
theorem reloadStep_loop (clock : WatchedAddress → Int) {bf : BloomFilter}
    {lru : ShardedLRU String (Option WatchedAddress)}
    {m : String → Option (Option WatchedAddress)} (hbf : bf.WellFormed) (hlru : lru.Covered m)
    (addrs : List WatchedAddress) :
    ∃ bf' lru', addrs.foldlM (reloadStep hash chain network clock) (bf, lru) = some (bf', lru') ∧
      bf'.WellFormed ∧ (∀ sum, bf.Holds sum → bf'.Holds sum) ∧
      (∀ wa ∈ addrs, bf'.Holds (hash (lruKey chain network wa.address))) ∧
      lru'.Covered (writeAll (fun wa => lruKey chain network wa.address) some m addrs) := by
  induction addrs generalizing bf lru m with
  | nil => exact ⟨bf, lru, rfl, hbf, fun _ h => h, fun wa hwa => absurd hwa List.not_mem_nil, hlru⟩
  | cons wa addrs ih =>
    obtain ⟨bf₁, hadd, hbf₁, hnew, hkept⟩ := hbf.add hash (lruKey chain network wa.address)
    obtain ⟨lru₁, hput, hlru₁⟩ := hlru.put (clock wa) (lruKey chain network wa.address) (some wa)
    obtain ⟨bf₂, lru₂, hfold, hbf₂, hkept₂, hall, hlru₂⟩ := ih hbf₁ hlru₁
    refine ⟨bf₂, lru₂, ?_, hbf₂, fun sum h => hkept₂ sum (hkept sum h), ?_, hlru₂⟩
    · rw [List.foldlM_cons]
      simp only [reloadStep, hadd, hput, Option.bind_eq_bind, Option.bind_some]
      exact hfold
    · intro wa' hwa
      rcases List.mem_cons.mp hwa with rfl | hwa
      · exact hkept₂ _ hnew
      · exact hall wa' hwa

theorem Models.reload {idx : ShardedIndex} {abs : TieredIndex} (h : idx.Models hash abs)
    {empty : BloomFilter} (hempty : empty.WellFormed) (clock : WatchedAddress → Int)
    (t : WatchedAddresses) :
    ∃ others idx', idx.reload hash chain network empty clock t = some idx' ∧
      idx'.Models hash (abs.reload chain network others t) := by
  obtain ⟨bf, lru, hfold, hbf, -, hall, hlru⟩ :=
    reloadStep_loop hash chain network clock hempty h.cache (getActive chain network t)
  refine ⟨fun key => (bf.mayContain hash key).getD true, ⟨some bf, lru⟩, ?_, ?_, hlru⟩
  · simp [ShardedIndex.reload, hfold]
  · intro key
    have hin : ∀ pos ∈ bf.positions (hash key), word pos < bf.bits.length := fun _ => hbf.word_lt
    obtain ⟨answer, hans⟩ := Option.isSome_iff_exists.mp (testBits_isSome hin)
    change bf.mayContain hash key = some answer at hans
    change bf.mayContain hash key =
      some ((getActive chain network t).any _ || (bf.mayContain hash key).getD true)
    cases hany : (getActive chain network t).any
        (fun wa => lruKey chain network wa.address = key) with
    | false => simp [hans]
    | true =>
      -- a key that was added is found
      obtain ⟨wa, hwa, hkey⟩ := List.any_eq_true.mp hany
      have hfound : bf.mayContain hash key = some true :=
        of_decide_eq_true hkey ▸ testBits_of_isSet (hall wa hwa)
      simp [hfound]

end ShardedIndex

structure IndexServer where
  watched : WatchedAddresses
  index : ShardedIndex
  loaded : WatchedAddresses := Table.empty

namespace IndexServer

section Reached
variable (hash : String → BitVec 128) (chain : Chain) (network : Network)
  (lruCapacity lruTTL : Int) (t : WatchedAddresses)

/-- What a new index over a table comes to, if addresses are stored active and in canonical form
and filters are made with bits and hashes. -/
inductive Reached : IndexServer → Prop
  | new : Reached ⟨t, newTieredIndex lruCapacity lruTTL, Table.empty⟩
  | upsert {s : IndexServer} {addr : WatchedAddressRow} : Reached s → Plain chain network addr →
      Reached { s with watched := upsertWatchedAddress addr s.watched }
  | reload {s : IndexServer} {empty : BloomFilter} {clock : WatchedAddress → Int}
      {idx : ShardedIndex} : Reached s → empty.WellFormed →
      s.index.reload hash chain network empty clock s.watched = some idx →
      Reached { s with index := idx, loaded := s.watched }
  | lookup {s : IndexServer} {address : String} {now later : Int}
      {r : Option WatchedAddress × ShardedIndex} : Reached s →
      s.index.lookup hash chain network address now later s.watched = some r →
      Reached { s with index := r.2 }

end Reached

variable {hash : String → BitVec 128} {chain : Chain} {network : Network}
  {lruCapacity lruTTL : Int} {t : WatchedAddresses} {s : IndexServer}

theorem Reached.simulates (hplain : ∀ r ∈ t.rows, Plain chain network r)
    (h : Reached hash chain network lruCapacity lruTTL t s) :
    ∃ abs, s.index.Models hash abs ∧
      IndexSystem.Coherent chain network ⟨s.watched, abs, s.loaded⟩ := by
  induction h with
  | new =>
    have hnone : ∀ a, ¬ Stored chain network a Table.empty := by
      rintro a ⟨r, hr⟩
      cases hr
    refine ⟨{}, ⟨fun _ => rfl, ShardedLRU.covered_new _ _ _ _⟩, hplain,
      fun a ha => absurd ha (hnone a), fun a ha => absurd ha (hnone a), ?_, ?_⟩
    · intro a wa hwa
      cases hwa
    · intro a ha
      cases ha
  | upsert _ haddr ih =>
    obtain ⟨abs, hmod, hcoh⟩ := ih
    exact ⟨abs, hmod, hcoh.upsert haddr⟩
  | @reload s empty clock idx _ hempty hre ih =>
    obtain ⟨abs, hmod, hcoh⟩ := ih
    obtain ⟨others, idx', hre', hmod'⟩ := hmod.reload hempty clock s.watched
    rw [hre] at hre'
    cases hre'
    exact ⟨_, hmod', hcoh.reload others⟩
  | @lookup s address now later r _ hlook ih =>
    obtain ⟨abs, hmod, hcoh⟩ := ih
    obtain ⟨gone, idx', hlook', hmod'⟩ := hmod.lookup address now later s.watched
    rw [hlook] at hlook'
    cases hlook'
    exact ⟨_, hmod', (hcoh.evict gone).lookup address⟩

end IndexServer

/-- In every run that stores only active addresses in canonical form, a reload and a lookup never
leave the words of a filter nor follow a nil pointer, and the lookup of an address that the last
reload has seen, if it is stored, is the one in the map of the active addresses. -/
theorem sharded_lookup_exact (hash : String → BitVec 128) (chain : Chain) (network : Network)
    (lruCapacity lruTTL : Int) (t : WatchedAddresses) (hplain : ∀ r ∈ t.rows, Plain chain network r)
    (s : IndexServer)
    (hreached : IndexServer.Reached hash chain network lruCapacity lruTTL t s) :
    (∀ empty clock, empty.WellFormed →
      ∃ idx, s.index.reload hash chain network empty clock s.watched = some idx) ∧
    ∀ a now later, ∃ answer idx,
      s.index.lookup hash chain network a now later s.watched = some (answer, idx) ∧
      ((Stored chain network a s.watched → Stored chain network a s.loaded) →
        answer.map WatchedAddress.addrMeta =
          blockScanAddrMap chain (getActive chain network s.watched) a) := by
  obtain ⟨abs, hmod, hcoh⟩ := hreached.simulates hplain
  constructor
  · intro empty clock hempty
    obtain ⟨_, idx, hre, _⟩ := hmod.reload hempty clock s.watched
    exact ⟨idx, hre⟩
  · intro a now later
    obtain ⟨gone, idx, hlook, _⟩ := hmod.lookup a now later s.watched
    refine ⟨_, idx, hlook, fun hseen => ?_⟩
    have hans := (hcoh.evict gone).answers (a := a) hseen
    exact hans.eq_map hcoh.plain

/-- Two addresses are stored, the index is reloaded, the first one is found. -/
theorem sharded_lookup_exact_reloaded :
    ∃ s, IndexServer.Reached fnv128a .ethereum .mainnet 1 1 Table.empty s ∧
      ∃ answer idx, s.index.lookup fnv128a .ethereum .mainnet "0xab" 0 0 s.watched =
          some (answer, idx) ∧ answer.map WatchedAddress.addrMeta = some (some "w", none) := by
  have hplain : ∀ a ∈ ["0xab", "0xcd"], Plain .ethereum .mainnet (walletAddress a true) :=
    fun a ha _ _ => ⟨by revert a; decide +kernel, rfl⟩
  have hempty : ∀ r ∈ (Table.empty : WatchedAddresses).rows, Plain .ethereum .mainnet r := by
    simp [Table.empty]
  have hfilter : (⟨[0, 0], 128, 3⟩ : BloomFilter).WellFormed := ⟨by decide, by decide, by decide⟩
  have hmap : blockScanAddrMap .ethereum (getActive .ethereum .mainnet
      (upsertWatchedAddress (walletAddress "0xcd" true)
        (upsertWatchedAddress (walletAddress "0xab" true) Table.empty))) "0xab" =
      some (some "w", none) := by decide +kernel
  have hstored := (IndexServer.Reached.upsert
    (.new : IndexServer.Reached fnv128a .ethereum .mainnet 1 1 Table.empty _)
      (hplain "0xab" (by decide))).upsert (hplain "0xcd" (by decide))
  obtain ⟨idx, hre⟩ := (sharded_lookup_exact _ _ _ 1 1 _ hempty _ hstored).1 _ (fun _ => 0) hfilter
  have hreached := hstored.reload hfilter hre
  obtain ⟨answer, idx', hlook, hmeta⟩ :=
    (sharded_lookup_exact _ _ _ 1 1 _ hempty _ hreached).2 "0xab" 0 0
  exact ⟨_, hreached, answer, idx', hlook, (hmeta fun h => h).trans hmap⟩

end MultichainIndexer
