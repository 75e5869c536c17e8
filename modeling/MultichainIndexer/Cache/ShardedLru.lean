import MultichainIndexer.Cache.Lru

/-!
# The sharded LRU cache

The FNV-32a hash of a key says which shard has its entry. A map covers the cache
if it has every entry that some shard holds: a get keeps it covered however many
entries it drops, and a put needs no more than its own entry in the map.
-/

namespace MultichainIndexer

namespace Cache

universe u v

structure ShardedLRU (K : Type u) (V : Type v) where
  shards : List (LRU K V)
  keyToStr : K → String

variable {K : Type u} {V : Type v}

def newShardedLRUWithCount (totalCapacity ttl : Int) (keyFn : K → String) (shardCount : Int) :
    ShardedLRU K V :=
  let shardCount := if shardCount ≤ 0 then 16 else shardCount
  ⟨.replicate shardCount.toNat (newLRU (max (totalCapacity.tdiv shardCount) 1) ttl), keyFn⟩

def fnv32a (str : String) : BitVec 32 :=
  str.toUTF8.data.toList.foldl (fun h b => (h ^^^ b.toBitVec.setWidth 32) * 16777619#32)
    2166136261#32

namespace ShardedLRU

def shard (s : ShardedLRU K V) (key : K) : Nat :=
  (fnv32a (s.keyToStr key)).toNat % s.shards.length

/-- The shards are well formed, and an entry is in the shard of its key and in the map. -/
structure Covered (s : ShardedLRU K V) (m : K → Option V) : Prop where
  shards : s.shards ≠ []
  caches : ∀ i c, s.shards[i]? = some c →
    WellFormed c ∧ ∀ e ∈ c.entries, s.shard e.key = i ∧ m e.key = some e.value

variable {s : ShardedLRU K V} {c' : LRU K V} {key : K} {m m' : K → Option V}

theorem covered_new (totalCapacity ttl : Int) (keyFn : K → String) (shardCount : Int) :
    (newShardedLRUWithCount totalCapacity ttl keyFn shardCount).Covered m := by
  constructor
  · simp only [newShardedLRUWithCount, ne_eq, List.replicate_eq_nil_iff]
    split <;> omega
  · intro i c hc
    rw [List.eq_of_mem_replicate (List.mem_of_getElem? hc)]
    exact ⟨wellFormed_new _ ttl, fun e he => absurd he List.not_mem_nil⟩

theorem Covered.exists_shard (h : s.Covered m) (key : K) :
    ∃ c, s.shards[s.shard key]? = some c := by
  have hlt : s.shard key < s.shards.length := Nat.mod_lt _ (List.length_pos_iff.mpr h.shards)
  exact ⟨_, List.getElem?_eq_getElem hlt⟩

/-- A shard is replaced; of the other shards' keys the map says what it said. -/
theorem Covered.set (h : s.Covered m) (hwf : WellFormed c')
    (hnew : ∀ e ∈ c'.entries, s.shard e.key = s.shard key ∧ m' e.key = some e.value)
    (hold : ∀ k, s.shard k ≠ s.shard key → m' k = m k) :
    Covered { s with shards := s.shards.set (s.shard key) c' } m' := by
  refine ⟨by simpa using h.shards, ?_⟩
  intro i c hc
  simp only [shard, List.length_set]
  rw [List.getElem?_set] at hc
  split at hc
  · rename_i hi
    split at hc
    · cases hc
      exact ⟨hwf, hi ▸ hnew⟩
    · cases hc
  · rename_i hi
    obtain ⟨hwf', hent⟩ := h.caches i c hc
    refine ⟨hwf', fun e he => ⟨(hent e he).1, ?_⟩⟩
    rw [hold e.key fun hsame => hi (hsame.symm.trans (hent e he).1)]
    exact (hent e he).2

end ShardedLRU

variable [DecidableEq K]

section Entries
variable {now capacity ttl : Int} {l : List (Entry K V)} {key : K} {value : V} {e : Entry K V}

theorem mem_recencyGet (h : e ∈ (recencyGet now key l).1) : e ∈ l := by
  unfold recencyGet at h
  split at h
  · exact h
  · rename_i found hfind
    split at h
    · exact (List.mem_filter.mp h).1
    · rcases List.mem_cons.mp h with rfl | h
      · exact List.mem_of_find?_eq_some hfind
      · exact (List.mem_filter.mp h).1

theorem mem_recencyPut (h : e ∈ recencyPut capacity ttl now key value l) :
    e.key = key ∧ e.value = value ∨ e ∈ l ∧ e.key ≠ key := by
  unfold recencyPut at h
  split at h
  · rcases List.mem_cons.mp h with rfl | h
    · exact .inl ⟨rfl, rfl⟩
    · exact .inr ((List.mem_filter.mp h).imp_right of_decide_eq_true)
  · rename_i hnone
    rcases List.mem_cons.mp h with rfl | h
    · exact .inl ⟨rfl, rfl⟩
    · have hmem : e ∈ l := by
        split at h
        · exact (List.dropLast_sublist l).subset h
        · exact h
      refine .inr ⟨hmem, fun hkey => hnone ?_⟩
      exact List.find?_isSome.mpr ⟨e, hmem, decide_eq_true hkey⟩

end Entries

namespace ShardedLRU
variable {s : ShardedLRU K V} {m : K → Option V}

def get (s : ShardedLRU K V) (now : Int) (key : K) : Option (ShardedLRU K V × Option V) := do
  let c ← s.shards[s.shard key]?
  let (c, value) ← c.get now key
  return ({ s with shards := s.shards.set (s.shard key) c }, value)

def put (s : ShardedLRU K V) (now : Int) (key : K) (value : V) : Option (ShardedLRU K V) := do
  let c ← s.shards[s.shard key]?
  let c ← c.put now key value
  return { s with shards := s.shards.set (s.shard key) c }

theorem Covered.get (h : s.Covered m) (now : Int) (key : K) :
    ∃ s' answer, s.get now key = some (s', answer) ∧ s'.Covered m ∧
      ∀ value, answer = some value → m key = some value := by
  obtain ⟨c, hc⟩ := h.exists_shard key
  obtain ⟨hwf, hent⟩ := h.caches _ c hc
  obtain ⟨c', hget, hbec⟩ := get_refines hwf now key
  refine ⟨{ s with shards := s.shards.set (s.shard key) c' },
    (recencyGet now key c.entries).2, ?_, ?_, ?_⟩
  · rw [ShardedLRU.get, hc]
    simp [hget]
  · apply h.set hbec.wellFormed
    · intro e he
      rw [hbec.entries] at he
      exact hent e (mem_recencyGet he)
    · exact fun _ _ => rfl
  · intro value hvalue
    obtain ⟨e, he, rfl, rfl⟩ := recencyGet_hit hvalue
    exact (hent e he).2

theorem Covered.put (h : s.Covered m) (now : Int) (key : K) (value : V) :
    ∃ s', s.put now key value = some s' ∧ s'.Covered (Function.update m key (some value)) := by
  obtain ⟨c, hc⟩ := h.exists_shard key
  obtain ⟨hwf, hent⟩ := h.caches _ c hc
  obtain ⟨c', hput, hbec⟩ := put_refines hwf now key value
  refine ⟨{ s with shards := s.shards.set (s.shard key) c' }, ?_, h.set hbec.wellFormed ?_ ?_⟩
  · rw [ShardedLRU.put, hc]
    simp [hput]
  · intro e he
    rw [hbec.entries] at he
    rcases mem_recencyPut he with ⟨rfl, rfl⟩ | ⟨he, hkey⟩
    · simp
    · rw [Function.update_of_ne hkey]
      exact hent e he
  · intro k hk
    exact Function.update_of_ne (fun heq => hk (congrArg s.shard heq)) _ _

end ShardedLRU

end Cache

end MultichainIndexer
