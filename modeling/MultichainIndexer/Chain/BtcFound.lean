import MultichainIndexer.Chain.BtcScan
import MultichainIndexer.Lib.Related

/-!
# What the Bitcoin scan finds

A transaction of the range is in the result exactly if its block was answered and
it creates an output of a watched address, or spends one whose first address is
watched and that the node made known. The cache changes nothing, since an output is
spent once.
-/

namespace MultichainIndexer

open Text IntRange

namespace Btc

/-- An input as the chain has it, with the output that it spends. -/
structure Spend where
  txid : String
  vout : Int
  coinbase : String
  script : ScriptPubKey

def Spend.Real (s : Spend) : Prop := trimSpace s.coinbase = ""

instance (s : Spend) : Decidable s.Real := inferInstanceAs (Decidable (_ = _))

structure Mined where
  txid : String
  spends : List Spend
  outputs : List Vout

/-- The blocks of a chain. Every output is spent at most once. -/
structure Ledger where
  mined : Int → List Mined
  blockHash : Int → Option String
  blockHash_ne_empty : ∀ {b}, blockHash b ≠ some ""
  blockHash_inj : ∀ {b b' h}, blockHash b = some h → blockHash b' = some h → b = b'
  txid_ne_empty : ∀ {b m}, m ∈ mined b → canonicalTxID m.txid ≠ ""
  txid_inj : ∀ {b b' m m'}, m ∈ mined b → m' ∈ mined b' →
    canonicalTxID m.txid = canonicalTxID m'.txid → b = b' ∧ m = m'
  spend_named : ∀ {b m s}, m ∈ mined b → s ∈ m.spends → s.Real →
    canonicalTxID s.txid ≠ "" ∧ 0 ≤ s.vout
  spend_once : ∀ {b b' m m' s s'}, m ∈ mined b → m' ∈ mined b' → s ∈ m.spends → s' ∈ m'.spends →
    s.Real → s'.Real → canonicalTxID s.txid = canonicalTxID s'.txid → s.vout = s'.vout → s = s'

def Spend.vin (inlined : Spend → Bool) (s : Spend) : Vin :=
  { txid := s.txid, vout := s.vout, coinbase := s.coinbase,
    prevout := if inlined s = true then some s.script else none }

structure TransactionTells (inlined : Spend → Bool) (tx : Transaction) (m : Mined) : Prop where
  txid : tx.txid = m.txid
  vin : tx.vin.filterMap id = m.spends.map (Spend.vin inlined)
  vout : tx.vout.filterMap id = m.outputs

def BlockTells (ledger : Ledger) (inlined : Spend → Bool) (b : Int) (block : Block) : Prop :=
  List.Forall₂ (TransactionTells inlined) (block.tx.filterMap id) (ledger.mined b)

/-- An answer that is neither an error nor null agrees with the chain; which spent outputs come
with a block is the node's choice, for each verbosity. -/
structure Client.Truthful (ledger : Ledger) (inlined : Nat → Spend → Bool) (client : Client) :
    Prop where
  hashes : ∀ {bs hashes}, client.getBlockHashes bs = .ok hashes → hashes.length ≤ bs.length ∧
    ∀ (i : Nat) b h, bs[i]? = some b → hashes[i]? = some h → h = "" ∨ ledger.blockHash b = some h
  block : ∀ {h v block}, client.getBlock h v = .ok (some block) →
    ∃ b, ledger.blockHash b = some h ∧ BlockTells ledger (inlined v) b block
  transaction : ∀ {txid n tx}, client.getRawTransactionVerbose txid n = .ok (some tx) →
    ∀ b m s, m ∈ ledger.mined b → s ∈ m.spends → s.Real → canonicalTxID s.txid = txid → s.vout = n →
      ∃ vout, (tx.vout.filterMap id).find? (fun vout => vout.n = n) = some vout ∧
        vout.scriptPubKey = s.script

/-- The spent output came with the block, or its transaction was answered. -/
def SpendKnown (client : Client) (inlined : Spend → Bool) (s : Spend) : Prop :=
  inlined s = true ∨
    ∃ tx, client.getRawTransactionVerbose (canonicalTxID s.txid) s.vout = .ok (some tx)

def SpendFound (client : Client) (inlined : Spend → Bool) (addrs : List String) (s : Spend) : Prop :=
  s.Real ∧ watches addrs (firstOutputAddress s.script) = true ∧ SpendKnown client inlined s

def TransactionFound (client : Client) (inlined : Spend → Bool) (addrs : List String) (m : Mined) :
    Prop :=
  touchesOutputs addrs m.outputs = true ∨ ∃ s ∈ m.spends, SpendFound client inlined addrs s

section Cache
variable {ledger : Ledger} {inlined : Spend → Bool} {client : Client} {addrs : List String}

theorem colon_not_mem_toString (n : Int) : ':' ∉ (toString n).toList := by
  intro hmem
  rcases parseInt_chars (parseInt_toString n) ':' hmem with h | h | h
  · exact absurd h (by decide)
  · exact absurd h (by decide)
  · exact absurd h (by decide)

theorem outpoint_inj {txid txid' : String} {n n' : Int}
    (h : txid ++ ":" ++ toString n = txid' ++ ":" ++ toString n') : txid = txid' ∧ n = n' := by
  have hlist : (toString n).toList.reverse ++ ':' :: txid.toList.reverse =
      (toString n').toList.reverse ++ ':' :: txid'.toList.reverse := by
    have hrev := congrArg (fun s => s.toList.reverse) h
    simpa using hrev
  -- the number stands behind the last colon
  have hcolon : ∀ n : Int, ':' ∉ (toString n).toList.reverse := fun n hn =>
    colon_not_mem_toString n (List.mem_reverse.mp hn)
  obtain ⟨hnum, htxid⟩ := append_sep_inj (hcolon n) (hcolon n') hlist
  refine ⟨String.toList_injective (List.reverse_injective htxid), ?_⟩
  exact toString_injective (String.toList_injective (List.reverse_injective hnum))

theorem cacheKey_inj {v v' : Vin} (h : cacheKey v = cacheKey v') :
    canonicalTxID v.txid = canonicalTxID v'.txid ∧ v.vout = v'.vout :=
  outpoint_inj h

def Spent (ledger : Ledger) (s : Spend) : Prop := s.Real ∧ ∃ b m, m ∈ ledger.mined b ∧ s ∈ m.spends

variable {s : Spend} {cache cache' : PrevoutCache} {found : Option String} {v : Nat}

theorem Spent.eq_of_cacheKey {s' : Spend} (h : Spent ledger s) (h' : Spent ledger s')
    (hkey : cacheKey (s.vin inlined) = cacheKey (s'.vin inlined)) : s = s' := by
  obtain ⟨hreal, b, m, hm, hs⟩ := h
  obtain ⟨hreal', b', m', hm', hs'⟩ := h'
  obtain ⟨htxid, hvout⟩ := cacheKey_inj hkey
  exact ledger.spend_once hm hm' hs hs' hreal hreal' htxid hvout

/-- Every entry of the cache is what the queries for some input of the chain gave. -/
def CacheTells (ledger : Ledger) (client : Client) (inlined : Spend → Bool)
    (cache : PrevoutCache) : Prop :=
  ∀ key found, cache.lookup key = some found →
    ∃ s, Spent ledger s ∧ cacheKey (s.vin inlined) = key ∧
      fetchPrevout client (s.vin inlined) = .ok found

theorem CacheTells.cons (h : CacheTells ledger client inlined cache) (hs : Spent ledger s)
    (hfetch : fetchPrevout client (s.vin inlined) = .ok found) :
    CacheTells ledger client inlined ((cacheKey (s.vin inlined), found) :: cache) := by
  intro key got hloo
  rw [List.lookup_cons] at hloo
  split at hloo
  · rename_i hkey
    cases hloo
    exact ⟨s, hs, (eq_of_beq hkey).symm, hfetch⟩
  · exact h key got hloo

/-- With or without the cache, an input resolves to what the queries for it give. -/
theorem resolveInputPrevout_spec (hcache : CacheTells ledger client inlined cache)
    (hs : Spent ledger s)
    (h : resolveInputPrevout client (s.vin inlined) cache = .ok (found, cache')) :
    CacheTells ledger client inlined cache' ∧ fetchPrevout client (s.vin inlined) = .ok found := by
  obtain ⟨hreal, b, m, hm, hmem⟩ := hs
  have hnamed := ledger.spend_named hm hmem hreal
  have hgo : ¬ (canonicalTxID (s.vin inlined).txid = "" ∨ (s.vin inlined).vout < 0) := by
    rintro (hblank | hneg)
    · exact hnamed.1 hblank
    · exact absurd hneg (by simpa [Spend.vin] using hnamed.2)
  rw [resolveInputPrevout, if_neg hgo] at h
  split at h
  · rename_i cached hloo
    cases h
    obtain ⟨s', hs', hkey, hfetch⟩ := hcache _ _ hloo
    obtain rfl := hs'.eq_of_cacheKey ⟨hreal, b, m, hm, hmem⟩ hkey
    exact ⟨hcache, hfetch⟩
  · obtain ⟨resolved, hfetch, heq⟩ := Result.map_ok h
    cases heq
    exact ⟨hcache.cons ⟨hreal, b, m, hm, hmem⟩ hfetch, hfetch⟩

theorem fetchPrevout_found (addrs : List String) {inlined : Nat → Spend → Bool}
    (ht : client.Truthful ledger inlined) (hs : Spent ledger s)
    (h : fetchPrevout client (s.vin (inlined v)) = .ok found) :
    found.any (watches addrs) = true ↔ SpendFound client (inlined v) addrs s := by
  obtain ⟨hreal, b, m, hm, hmem⟩ := hs
  have hknown : found.any (watches addrs) = true ↔
      watches addrs (firstOutputAddress s.script) = true ∧ SpendKnown client (inlined v) s := by
    unfold fetchPrevout at h
    by_cases hin : inlined v s = true
    · rw [Spend.vin, if_pos hin] at h
      cases h
      simp [SpendKnown, hin]
    · rw [Spend.vin, if_neg hin] at h
      simp only at h
      split at h
      · cases h
      · rename_i hnull
        cases h
        simp [SpendKnown, hin, hnull]
      · rename_i tx htx
        obtain ⟨vout, hfind, hscr⟩ := ht.transaction htx b m s hm hmem hreal rfl rfl
        rw [hfind] at h
        cases h
        simp [SpendKnown, hin, htx, hscr]
  rw [hknown, SpendFound]
  exact (and_iff_right hreal).symm

theorem touchesInputs_spec {inlined : Nat → Spend → Bool} (ht : client.Truthful ledger inlined)
    {spends : List Spend} (hspe : ∀ s ∈ spends, ∃ b m, m ∈ ledger.mined b ∧ s ∈ m.spends)
    {touched : Bool} (hcache : CacheTells ledger client (inlined v) cache)
    (h : touchesInputs client addrs (spends.map (Spend.vin (inlined v))) cache =
      .ok (touched, cache')) :
    CacheTells ledger client (inlined v) cache' ∧
      (touched = true ↔ ∃ s ∈ spends, SpendFound client (inlined v) addrs s) := by
  induction spends generalizing cache with
  | nil =>
    cases h
    exact ⟨hcache, by simp⟩
  | cons s spends ih =>
    have hrest := (List.forall_mem_cons.mp hspe).2
    rw [List.map_cons, touchesInputs] at h
    rw [List.exists_mem_cons_iff]
    split at h
    · rename_i hcoi
      obtain ⟨hcache', htou⟩ := ih hrest hcache h
      refine ⟨hcache', htou.trans (or_iff_right fun hfound => ?_).symm⟩
      exact hcoi hfound.1
    · rename_i hcoi
      have hs : Spent ledger s := ⟨not_not.mp hcoi, hspe s List.mem_cons_self⟩
      obtain ⟨⟨found, mid⟩, hres, h⟩ := Result.bind_ok h
      obtain ⟨hmid, hfetch⟩ := resolveInputPrevout_spec hcache hs hres
      have hfound := fetchPrevout_found addrs ht hs hfetch
      simp only at h
      split at h
      · rename_i hany
        cases h
        exact ⟨hmid, by simp [hfound.mp hany]⟩
      · rename_i hany
        obtain ⟨hcache', htou⟩ := ih hrest hmid h
        exact ⟨hcache', htou.trans (or_iff_right fun hs => hany (hfound.mpr hs)).symm⟩

theorem touches_spec {inlined : Nat → Spend → Bool} (ht : client.Truthful ledger inlined) {b : Int}
    {m : Mined} (hm : m ∈ ledger.mined b) {tx : Transaction}
    (htx : TransactionTells (inlined v) tx m) {touched : Bool}
    (hcache : CacheTells ledger client (inlined v) cache)
    (h : touches client addrs tx cache = .ok (touched, cache')) :
    CacheTells ledger client (inlined v) cache' ∧
      (touched = true ↔ TransactionFound client (inlined v) addrs m) := by
  unfold touches at h
  rw [htx.vout] at h
  split at h
  · rename_i hout
    cases h
    exact ⟨hcache, by simp [TransactionFound, hout]⟩
  · rename_i hout
    have hins := Result.mapError_ok h
    rw [htx.vin] at hins
    obtain ⟨hcache', htou⟩ := touchesInputs_spec ht (fun s hs => ⟨b, m, hm, hs⟩) hcache hins
    exact ⟨hcache', htou.trans (or_iff_right hout).symm⟩

end Cache

section Blocks
variable {ledger : Ledger} {inlined : Nat → Spend → Bool} {client : Client} {addrs : List String}
  {v : Nat} {b : Int}

def ScanState.Has (s : ScanState) (hash : String) : Prop := ∃ c ∈ s.candidates, c.hash = hash

theorem has_addCandidate (s : ScanState) (new : Candidate) (k : String) :
    (s.addCandidate new).Has k ↔ s.Has k ∨ new.hash = k := by
  unfold ScanState.addCandidate
  split
  · rename_i hany
    simp only [List.any_eq_true, decide_eq_true_eq] at hany
    refine (or_iff_left_of_imp ?_).symm
    rintro rfl
    exact hany
  · simp only [ScanState.Has, List.mem_append, List.mem_singleton]
    constructor
    · rintro ⟨c, hc | rfl, rfl⟩
      · exact Or.inl ⟨c, hc, rfl⟩
      · exact Or.inr rfl
    · rintro (⟨c, hc, rfl⟩ | rfl)
      · exact ⟨c, Or.inl hc, rfl⟩
      · exact ⟨new, Or.inr rfl, rfl⟩

variable {block : Block} {known : Verbosity3} {s s' : ScanState}

theorem BlockTells.exists_mined (h : BlockTells ledger (inlined v) b block) {tx : Transaction}
    (htx : some tx ∈ block.tx) : ∃ m ∈ ledger.mined b, TransactionTells (inlined v) tx m :=
  Related.exists_right h tx (List.mem_filterMap.mpr ⟨_, htx, rfl⟩)

theorem BlockTells.exists_transaction (h : BlockTells ledger (inlined v) b block) {m : Mined}
    (hm : m ∈ ledger.mined b) : ∃ tx, some tx ∈ block.tx ∧ TransactionTells (inlined v) tx m := by
  obtain ⟨tx, htx, htells⟩ := Related.exists_left h m hm
  obtain ⟨_, hmem, rfl⟩ := List.mem_filterMap.mp htx
  exact ⟨tx, hmem, htells⟩

/-- What a scan keeps while it reads blocks at one verbosity. -/
def Settled (ledger : Ledger) (client : Client) (inlined : Nat → Spend → Bool) (v : Nat)
    (known : Verbosity3) (s : ScanState) : Prop :=
  s.known = known ∧ CacheTells ledger client (inlined v) s.prevoutCache

theorem scanTransaction_spec (ht : client.Truthful ledger inlined) {height : Int}
    {time : Option Int} {tx : Transaction} {i : Nat} {m : Mined} (hm : m ∈ ledger.mined b)
    (htx : TransactionTells (inlined v) tx m) (hs : Settled ledger client inlined v known s)
    (h : scanTransaction client addrs height time s (some tx, i) = .ok s') :
    Settled ledger client inlined v known s' ∧ ∀ k, s'.Has k ↔ s.Has k ∨
      (TransactionFound client (inlined v) addrs m ∧ canonicalTxID m.txid = k) := by
  obtain ⟨hknown, hcache⟩ := hs
  have hne : canonicalTxID tx.txid ≠ "" := by
    rw [htx.txid]
    exact ledger.txid_ne_empty hm
  rw [scanTransaction] at h
  simp only [hne, if_false] at h
  obtain ⟨⟨touched, cache⟩, htouch, rfl⟩ := Result.map_ok h
  obtain ⟨hcache', htou⟩ := touches_spec ht hm htx hcache htouch
  rw [← htou, htx.txid]
  cases touched with
  | false => exact ⟨⟨hknown, hcache'⟩, fun k => by simp [ScanState.Has]⟩
  | true =>
    refine ⟨?_, fun k => ?_⟩
    · simp only [if_true, ScanState.addCandidate]
      split <;> exact ⟨hknown, hcache'⟩
    · simp only [if_true, has_addCandidate, true_and]
      rfl

theorem scanTransactions_spec (ht : client.Truthful ledger inlined)
    (hblock : BlockTells ledger (inlined v) b block) {blockNum : Int}
    (hs : Settled ledger client inlined v known s)
    (h : scanTransactions client addrs blockNum block s = .ok s') :
    Settled ledger client inlined v known s' ∧ ∀ k, s'.Has k ↔ s.Has k ∨
      ∃ m ∈ ledger.mined b, TransactionFound client (inlined v) addrs m ∧
        canonicalTxID m.txid = k := by
  have hstep : ∀ height, ∀ entry ∈ block.tx.zipIdx, ∀ t t', Settled ledger client inlined v known t →
      scanTransaction client addrs height (unixTime block.time) t entry = .ok t' →
      Settled ledger client inlined v known t' ∧ ∀ k, t'.Has k ↔ t.Has k ∨
        ∃ tx, entry.1 = some tx ∧ ∃ m ∈ ledger.mined b, TransactionTells (inlined v) tx m ∧
          TransactionFound client (inlined v) addrs m ∧ canonicalTxID m.txid = k := by
    rintro height ⟨_ | tx, i⟩ hmem t t' hset hrun
    · cases hrun
      exact ⟨hset, by simp⟩
    · have htx := List.fst_mem_of_mem_zipIdx hmem
      obtain ⟨m, hm, htells⟩ := hblock.exists_mined htx
      obtain ⟨hset', hhas⟩ := scanTransaction_spec ht hm htells hset hrun
      refine ⟨hset', fun k => (hhas k).trans (or_congr Iff.rfl ?_)⟩
      constructor
      · rintro ⟨hfound, hk⟩
        exact ⟨tx, rfl, m, hm, htells, hfound, hk⟩
      · rintro ⟨tx', htx', m', hm', htells', hfound, hk⟩
        cases htx'
        have hsame : canonicalTxID m.txid = canonicalTxID m'.txid := by
          rw [← htells.txid, htells'.txid]
        obtain ⟨-, rfl⟩ := ledger.txid_inj hm hm' hsame
        exact ⟨hfound, hk⟩
  obtain ⟨hset, hhas⟩ := Gains.foldlM_holds _ ScanState.Has (hstep _) hs h
  refine ⟨hset, fun k => (hhas k).trans (or_congr Iff.rfl ?_)⟩
  constructor
  · rintro ⟨entry, -, tx, -, m, hm, -, hfound, hk⟩
    exact ⟨m, hm, hfound, hk⟩
  · rintro ⟨m, hm, hfound, hk⟩
    obtain ⟨tx, htx, htells⟩ := hblock.exists_transaction hm
    obtain ⟨i, hi⟩ := List.mem_iff_getElem?.mp htx
    have hentry : (some tx, i) ∈ block.tx.zipIdx := by
      rw [List.mem_zipIdx_iff_getElem?]
      exact hi
    exact ⟨_, hentry, tx, rfl, m, hm, htells, hfound, hk⟩

/-- The verbosity of a whole scan: what the first block shows, if it is not known before. -/
def usedVerbosity (client : Client) (known : Verbosity3) (hashes : List String) : Nat :=
  match known, hashes with
  | .supported, _ => blockVerbosityPrevout
  | .unsupported, _ => blockVerbosityTxObjects
  | .unknown, [] => blockVerbosityPrevout
  | .unknown, h :: _ =>
    match client.getBlock h blockVerbosityPrevout with
    | .ok _ => blockVerbosityPrevout
    | .error _ => blockVerbosityTxObjects

theorem getBlockWithVerbosity_ok {known' : Verbosity3} {h : String} {block : Option Block}
    (hget : getBlockWithVerbosity client known h = (.ok block, known')) (hashes : List String) :
    client.getBlock h (usedVerbosity client known (h :: hashes)) = .ok block ∧
      ∀ rest, usedVerbosity client known' rest = usedVerbosity client known (h :: hashes) := by
  cases known with
  | unsupported =>
    obtain ⟨hblock, rfl⟩ := Prod.mk.inj hget
    exact ⟨hblock, fun rest => rfl⟩
  | supported =>
    unfold getBlockWithVerbosity at hget
    cases hthree : client.getBlock h blockVerbosityPrevout with
    | ok answer =>
      simp only [hthree] at hget
      cases hget
      exact ⟨hthree, fun rest => rfl⟩
    | error err =>
      simp only [hthree] at hget
      cases hget
  | unknown =>
    unfold getBlockWithVerbosity at hget
    cases hthree : client.getBlock h blockVerbosityPrevout with
    | ok answer =>
      simp only [hthree] at hget
      cases hget
      have hused : usedVerbosity client .unknown (h :: hashes) = blockVerbosityPrevout := by
        simp only [usedVerbosity, hthree]
      rw [hused]
      exact ⟨hthree, fun rest => rfl⟩
    | error err =>
      simp only [hthree] at hget
      obtain ⟨hblock, rfl⟩ := Prod.mk.inj hget
      have hused : usedVerbosity client .unknown (h :: hashes) = blockVerbosityTxObjects := by
        simp only [usedVerbosity, hthree]
      rw [hused]
      exact ⟨hblock, fun rest => rfl⟩

def Answered (client : Client) (v : Nat) (h : String) : Prop :=
  ∃ block, client.getBlock h v = .ok (some block)

theorem scanBlock_spec (ht : client.Truthful ledger inlined) {h : String}
    (hhash : h = "" ∨ ledger.blockHash b = some h) {hashes : List String}
    (hv : usedVerbosity client s.known (h :: hashes) = v)
    (hcache : CacheTells ledger client (inlined v) s.prevoutCache)
    (hrun : scanBlock client addrs s (b, h) = .ok s') :
    CacheTells ledger client (inlined v) s'.prevoutCache ∧
      (∀ rest, usedVerbosity client s'.known rest = v) ∧
      ∀ k, s'.Has k ↔ s.Has k ∨ (Answered client v h ∧
        ∃ m ∈ ledger.mined b, TransactionFound client (inlined v) addrs m ∧
          canonicalTxID m.txid = k) := by
  unfold scanBlock at hrun
  split at hrun
  · cases hrun
  · rename_i known hget
    obtain ⟨hblock, hsett⟩ := getBlockWithVerbosity_ok hget hashes
    rw [hv] at hblock hsett
    cases hrun
    refine ⟨hcache, hsett, fun k => ?_⟩
    refine (or_iff_left ?_).symm
    rintro ⟨⟨block, hsome⟩, -⟩
    rw [hblock] at hsome
    cases hsome
  · rename_i block known hget
    obtain ⟨hblock, hsett⟩ := getBlockWithVerbosity_ok hget hashes
    rw [hv] at hblock hsett
    obtain ⟨b', hb', htells⟩ := ht.block hblock
    obtain rfl : b' = b := by
      rcases hhash with rfl | hhash
      · exact absurd hb' ledger.blockHash_ne_empty
      · exact ledger.blockHash_inj hb' hhash
    have hset : Settled ledger client inlined v known { s with known := known } := ⟨rfl, hcache⟩
    obtain ⟨⟨hknown, hcache'⟩, hhas⟩ := scanTransactions_spec ht htells hset hrun
    refine ⟨hcache', fun rest => ?_, fun k => (hhas k).trans (or_congr Iff.rfl ?_)⟩
    · rw [hknown]
      exact hsett rest
    · exact (and_iff_right ⟨block, hblock⟩).symm

theorem scanHashes_spec (ht : client.Truthful ledger inlined) {entries : List (Int × String)}
    (hent : ∀ entry ∈ entries, entry.2 = "" ∨ ledger.blockHash entry.1 = some entry.2)
    (hv : usedVerbosity client s.known (entries.map Prod.snd) = v)
    (hcache : CacheTells ledger client (inlined v) s.prevoutCache)
    (hrun : entries.foldlM (scanBlock client addrs) s = .ok s') (k : String) :
    s'.Has k ↔ s.Has k ∨ ∃ entry ∈ entries, Answered client v entry.2 ∧
      ∃ m ∈ ledger.mined entry.1, TransactionFound client (inlined v) addrs m ∧
        canonicalTxID m.txid = k := by
  induction entries generalizing s with
  | nil =>
    cases hrun
    simp
  | cons entry entries ih =>
    obtain ⟨t, hblock, hrun⟩ := Result.bind_ok hrun
    obtain ⟨hcache', hset, hhas⟩ :=
      scanBlock_spec ht (hent entry List.mem_cons_self) hv hcache hblock
    rw [ih (List.forall_mem_cons.mp hent).2 (hset _) hcache' hrun,
      hhas k, or_assoc, List.exists_mem_cons_iff]

end Blocks

section Scan
variable {ledger : Ledger} {inlined : Nat → Spend → Bool} {client : Client} {known : Verbosity3}
  {lo hi b : Int} {watched : List String}

def Found (client : Client) (inlined : Nat → Spend → Bool) (known : Verbosity3) (lo hi : Int)
    (watched : List String) (b : Int) (m : Mined) : Prop :=
  ∃ hashes h, client.getBlockHashes (between lo hi) = .ok hashes ∧
    hashes[(b - lo).toNat]? = some h ∧
    Answered client (usedVerbosity client known hashes) h ∧
    TransactionFound client (inlined (usedVerbosity client known hashes)) (addrSet watched) m

def Mentions (watched : List String) (m : Mined) : Prop :=
  touchesOutputs (addrSet watched) m.outputs = true ∨
    ∃ s ∈ m.spends, s.Real ∧ (allOutputAddresses s.script).any (watches (addrSet watched)) = true

def ScanComplete (ledger : Ledger) (lo hi : Int) (watched : List String)
    (sigs : List SignatureInfo) : Prop :=
  ∀ b m, lo ≤ b → b ≤ hi → m ∈ ledger.mined b → Mentions watched m →
    ∃ sig ∈ sigs, sig.hash = canonicalTxID m.txid

theorem mem_signatures (s : ScanState) (k : String) :
    (∃ sig ∈ s.signatures, sig.hash = k) ↔ s.Has k := by
  simp [ScanState.signatures, ScanState.Has, List.mem_insertionSort]

theorem not_mentions_nil (m : Mined) : ¬ Mentions [] m := by
  simp [Mentions, touchesOutputs, watches, addrSet]

theorem mem_scanBlocks (ht : client.Truthful ledger inlined) {sigs : List SignatureInfo}
    (h : scanBlocks client known lo hi watched = .ok sigs) (hw : watched ≠ []) (hlo : lo ≤ b)
    (hhi : b ≤ hi) {m : Mined} (hm : m ∈ ledger.mined b) :
    (∃ sig ∈ sigs, sig.hash = canonicalTxID m.txid) ↔
      Found client inlined known lo hi watched b m := by
  have hgo : ¬ (lo > hi ∨ watched = []) := by
    rintro (hgt | hnil)
    · omega
    · exact hw hnil
  rw [scanBlocks, if_neg hgo] at h
  split at h
  · cases h
  · rename_i hashes hhas
    obtain ⟨hlen, htells⟩ := ht.hashes hhas
    obtain ⟨s, hs, rfl⟩ := Result.map_ok h
    have hent : ∀ entry ∈ (between lo hi).zip hashes,
        entry.2 = "" ∨ ledger.blockHash entry.1 = some entry.2 := by
      intro entry hentry
      obtain ⟨hb, hh⟩ := mem_between_zip.mp hentry
      exact htells _ _ _ hb hh
    have hsnd : ((between lo hi).zip hashes).map Prod.snd = hashes := List.map_snd_zip hlen
    rw [mem_signatures, scanHashes_spec ht hent (by rw [hsnd]) (fun _ _ hl => by cases hl) hs]
    constructor
    · rintro (⟨_, hnil, -⟩ | ⟨⟨b', h'⟩, hentry, hans, m', hm', hfound, hk⟩)
      · cases hnil
      · obtain ⟨rfl, rfl⟩ := ledger.txid_inj hm' hm hk
        exact ⟨hashes, h', hhas, (mem_between_zip.mp hentry).2, hans, hfound⟩
    · rintro ⟨hashes', h', hhas', hh, hans, hfound⟩
      rw [hhas] at hhas'
      cases hhas'
      have hb : (between lo hi)[(b - lo).toNat]? = some b := between_getElem?.mpr (by omega)
      exact Or.inr ⟨(b, h'), mem_between_zip.mpr ⟨hb, hh⟩, hans, m, hm, hfound, rfl⟩

theorem scanComplete_iff (ht : client.Truthful ledger inlined) {sigs : List SignatureInfo}
    (h : scanBlocks client known lo hi watched = .ok sigs) :
    ScanComplete ledger lo hi watched sigs ↔
      ∀ b m, lo ≤ b → b ≤ hi → m ∈ ledger.mined b → Mentions watched m →
        Found client inlined known lo hi watched b m := by
  refine forall₅_congr fun b m hlo hhi hm => forall_congr' fun hmen => ?_
  refine mem_scanBlocks ht h ?_ hlo hhi hm
  rintro rfl
  exact not_mentions_nil m hmen

end Scan

end Btc
end MultichainIndexer
