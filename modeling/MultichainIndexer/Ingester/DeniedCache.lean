import MultichainIndexer.Lib.Overwrite
import MultichainIndexer.Lib.Run
import MultichainIndexer.Ingester.ExactDeltas
import MultichainIndexer.Ingester.Ingested

/-!
# The cache of denied tokens

The ingester remembers across batches which contracts are denied. The prefetch
fills the cache from the tokens inside the transaction, and every scam that the
build finds is put there as it is denied, before the commit. An attempt that
then fails takes back its writes to the database but not those to the cache, so
the retry skips a token that the database does not know as denied.

`processAttempt` is `processBatch` with the cache and with the point at which a
database error ends it. An acknowledgement that is lost after the commit leaves
the same database and cache as a commit that is heard of.
-/

namespace MultichainIndexer

open Relational Overwrite Text

/-- By `deniedKey`; an entry that has expired is none. -/
abbrev DeniedCache := String → Option Bool

/-- Where an error of the database ends an attempt. -/
inductive Fault where
  /-- at the latest in the query for denied contracts -/
  | early
  /-- in the query for the balances -/
  | balances
  /-- in a denial, after so many that succeeded -/
  | deny (n : Nat)
  /-- in the bulk writes, the watermark or the commit -/
  | late
  deriving DecidableEq

def cacheDenied (batch : NormalizedBatch) (tokens : Tokens) (cache : DeniedCache) : DeniedCache :=
  writeAll (deniedKey batch) (fun contract => isDeniedTx batch.chain batch.network contract tokens)
    cache (((collectEvents batch).tokenModels.map Token.contractAddress).filter fun contract =>
      (cache (deniedKey batch contract)).isNone)

/-- The build with the cache; `fault` counts the denials that still succeed. -/
def buildCached (env : IngestEnv) (addrMap : Option (List WatchedAddress)) (batch : NormalizedBatch)
    (pre : Prefetched) : Option Nat → List EventContext → BuildState → DeniedCache →
      Except String BuildState × DeniedCache
  | _, [], st, cache => (.ok st, cache)
  | fault, ec :: rest, st, cache =>
    match buildEvent env addrMap batch pre st ec with
    | .error e => (.error e, cache)
    | .ok st' =>
      -- the event has just denied its contract if the contract was not denied before it
      if st'.cachedDenied ec.be.contractAddress = st.cachedDenied ec.be.contractAddress then
        buildCached env addrMap batch pre fault rest st' cache
      else
        match fault with
        | some 0 => (.error ("deny scam token " ++ ec.be.contractAddress), cache)
        | some (n + 1) => buildCached env addrMap batch pre (some n) rest st'
            (Function.update cache (deniedKey batch ec.be.contractAddress) (some true))
        | none => buildCached env addrMap batch pre none rest st'
            (Function.update cache (deniedKey batch ec.be.contractAddress) (some true))

def Fault.denials : Fault → Option Nat
  | .deny n => some n
  | _ => none

def ingestAttempt (env : IngestEnv) (batch : NormalizedBatch) (fault : Option Fault)
    (cache : DeniedCache) (db : Db) : Except String Db × DeniedCache :=
  match blockScanAddresses { env with deniedCache := cache } batch with
  | .error e => (.error e, cache)
  | .ok addrMap =>
    match prefetchBulkData { env with deniedCache := cache } batch (collectEvents batch) db with
    | .error e => (.error e, cache)
    | .ok (pre, db) =>
      if fault = some .balances then (.error "bulk get balances", cacheDenied batch db.tokens cache)
      else
        match buildCached { env with deniedCache := cache } addrMap batch pre
            (fault.bind Fault.denials) (collectEvents batch).allEvents (.start batch pre db)
            (cacheDenied batch db.tokens cache) with
        | (.error e, cache') => (.error e, cache')
        | (.ok st, cache') =>
          if fault = some .late then (.error "commit", cache')
          else (writeBulkAndCommit { env with deniedCache := cache } batch st db, cache')

def processAttempt (env : IngestEnv) (batch : NormalizedBatch) (fault : Option Fault)
    (cache : DeniedCache) (db : Db) : Except String Db × DeniedCache :=
  let batch := canonicalizeCursors batch
  if fault = some .early then (.error "begin tx", cache)
  else if rollsBack batch then
    match rollbackCanonicalityDrift { env with deniedCache := cache }
        (withRollbackForkCursor batch) db with
    | .error e => (.error ("handle reorg path: " ++ e), cache)
    | .ok db =>
      if shouldContinueCompetingBranchReplay batch then ingestAttempt env batch fault cache db
      else if fault = some .late then (.error "commit rollback path", cache)
      else (.ok db, cache)
  else ingestAttempt env batch fault cache db

structure CacheSystem where
  db : Db := {}
  cache : DeniedCache := fun _ => none

inductive CacheAction where
  | process (env : IngestEnv) (batch : NormalizedBatch) (fault : Option Fault)
  | expire (gone : String → Bool)
  /-- another writer of the database, which leaves the deny list alone -/
  | write (db : Db)

/-- A failed attempt leaves the database as it was. -/
def CacheSystem.process (s : CacheSystem) (env : IngestEnv) (batch : NormalizedBatch)
    (fault : Option Fault) : CacheSystem where
  db := (processAttempt env batch fault s.cache s.db).1.toOption.getD s.db
  cache := (processAttempt env batch fault s.cache s.db).2

inductive CacheSystem.Step (s : CacheSystem) : CacheAction → CacheSystem → Prop where
  | process (env : IngestEnv) (batch : NormalizedBatch) (fault : Option Fault) :
      CacheSystem.Step s (.process env batch fault) (s.process env batch fault)
  | expire (gone : String → Bool) : CacheSystem.Step s (.expire gone)
      { s with cache := fun key => if gone key then none else s.cache key }
  | write (db : Db) (hdenied : ∀ chain network contract,
        isDeniedTx chain network contract db.tokens = isDeniedTx chain network contract s.db.tokens) :
      CacheSystem.Step s (.write db) { s with db := db }

/-- Every entry is what the tokens say of its contract. -/
def Truthful (cache : DeniedCache) (t : Tokens) : Prop :=
  ∀ (batch : NormalizedBatch) (contract : String) (denied : Bool),
    cache (deniedKey batch contract) = some denied →
      denied = isDeniedTx batch.chain batch.network contract t

section Keys

theorem Chain.text_colon (chain : Chain) : ':' ∉ chain.text.toList := by
  cases chain <;> decide

theorem Network.text_colon (network : Network) : ':' ∉ network.text.toList := by
  cases network <;> decide

/-- The texts of chains and networks have no colon, so a key has one reading. -/
theorem deniedKey_inj {batch batch' : NormalizedBatch} {contract contract' : String}
    (h : deniedKey batch contract = deniedKey batch' contract') :
    batch.chain = batch'.chain ∧ batch.network = batch'.network ∧ contract = contract' := by
  have hlist : batch.chain.text.toList ++ ':' :: (batch.network.text.toList ++
      ':' :: contract.toList) = batch'.chain.text.toList ++ ':' :: (batch'.network.text.toList ++
      ':' :: contract'.toList) := by
    have := congrArg String.toList h
    simpa [deniedKey, String.toList_append] using this
  obtain ⟨hchain, hrest⟩ := append_sep_inj batch.chain.text_colon batch'.chain.text_colon hlist
  obtain ⟨hnet, hcon⟩ :=
    append_sep_inj batch.network.text_colon batch'.network.text_colon hrest
  exact ⟨Chain.text_inj (String.toList_inj.mp hchain),
    Network.text_inj (String.toList_inj.mp hnet), String.toList_inj.mp hcon⟩

end Keys

section Truth
variable {batch : NormalizedBatch} {cache : DeniedCache} {t t' : Tokens}

theorem Truthful.congr (h : Truthful cache t) (hden : ∀ chain network contract,
    isDeniedTx chain network contract t' = isDeniedTx chain network contract t) :
    Truthful cache t' := by
  intro batch contract denied hd
  rw [hden]
  exact h batch contract denied hd

theorem Truthful.expire (h : Truthful cache t) (gone : String → Bool) :
    Truthful (fun key => if gone key then none else cache key) t := by
  intro batch contract denied hd
  simp only at hd
  split at hd
  · cases hd
  · exact h batch contract denied hd

theorem Truthful.cacheDenied (h : Truthful cache t) (batch : NormalizedBatch) :
    Truthful (cacheDenied batch t cache) t := by
  intro batch' contract denied hd
  rcases writeAll_eq_some hd with ⟨c, _, hkey, rfl⟩ | ⟨_, hold⟩
  · obtain ⟨hchain, hnet, rfl⟩ := deniedKey_inj hkey
    rw [hchain, hnet]
  · exact h batch' contract denied hold

theorem Truthful.deny (h : Truthful cache t) {contract reason source : String} {score : Int}
    {signals : List String} (htok : HasToken batch.chain batch.network contract t) :
    Truthful (Function.update cache (deniedKey batch contract) (some true))
      (denyTokenTx batch.chain batch.network contract reason source score signals t) := by
  intro batch' contract' denied hd
  rw [isDeniedTx_denyTokenTx htok]
  by_cases hkey : deniedKey batch' contract' = deniedKey batch contract
  · rw [hkey, Function.update_self] at hd
    obtain ⟨hchain, hnet, rfl⟩ := deniedKey_inj hkey
    rw [hchain, hnet, if_pos rfl]
    exact (Option.some.inj hd).symm
  · rw [Function.update_of_ne hkey] at hd
    rw [if_neg]
    · exact h batch' contract' denied hd
    · intro heq
      obtain ⟨hchain, hnet, rfl⟩ : batch.chain = batch'.chain ∧
          batch.network = batch'.network ∧ contract = contract' := by simpa using heq
      exact hkey (by rw [deniedKey, deniedKey, hchain, hnet])

end Truth

section Build
variable {env : IngestEnv} {addrMap : Option (List WatchedAddress)} {batch : NormalizedBatch}
variable {pre : Prefetched}

theorem buildEvent_known {st st' : BuildState} {ec : EventContext} {tokenID : UUID}
    (htok : pre.tokenIDMap ec.be.contractAddress = some tokenID)
    (htx : (pre.txIDMap ec.canonicalTxHash).isSome = true)
    (h : buildEvent env addrMap batch pre st ec = .ok st') :
    (st.cachedDenied ec.be.contractAddress = true ∧ st' = st) ∨
    (st.cachedDenied ec.be.contractAddress = false ∧ ∃ signal ≠ "",
      signal = detectScamSignal batch.chain ec.be
        (st.inMemoryBalances (ec.be.address, tokenID)).present ∧
      st' = st.follow env addrMap batch ec (.scam signal)) ∨
    (st.cachedDenied ec.be.contractAddress = false ∧
      detectScamSignal batch.chain ec.be
        (st.inMemoryBalances (ec.be.address, tokenID)).present = "" ∧
      ∃ txID, st' = st.follow env addrMap batch ec (.take tokenID txID)) := by
  obtain ⟨txID, htx⟩ := Option.isSome_iff_exists.mp htx
  obtain ⟨rfl, -⟩ := buildEvent_follow h
  rw [verdict_known htok htx]
  split_ifs with hden hsig
  · exact .inl ⟨hden, rfl⟩
  · exact .inr (.inl ⟨Bool.eq_false_iff.mpr hden, _, hsig, rfl, rfl⟩)
  · exact .inr (.inr ⟨Bool.eq_false_iff.mpr hden, not_not.mp hsig, txID, rfl⟩)

theorem buildCached_result (l : List EventContext) (st : BuildState) (cache : DeniedCache) :
    (buildCached env addrMap batch pre none l st cache).1 =
      l.foldlM (buildEvent env addrMap batch pre) st := by
  induction l generalizing st cache with
  | nil => rfl
  | cons ec l ih =>
    rw [List.foldlM_cons]
    unfold buildCached
    cases buildEvent env addrMap batch pre st ec with
    | error e => rfl
    | ok st' =>
      simp only
      split
      · exact ih st' _
      · exact ih st' _

def EventContext.Known (pre : Prefetched) (ec : EventContext) : Prop :=
  (pre.tokenIDMap ec.be.contractAddress).isSome = true ∧
    (pre.txIDMap ec.canonicalTxHash).isSome = true

theorem buildCached_truthful {fault : Option Nat} {l : List EventContext} {st st' : BuildState}
    {cache cache' : DeniedCache} (hknown : ∀ ec ∈ l, ec.Known pre)
    (htoke : ∀ ec ∈ l, HasToken batch.chain batch.network ec.be.contractAddress st.tokens)
    (htruth : Truthful cache st.tokens)
    (h : buildCached env addrMap batch pre fault l st cache = (.ok st', cache')) :
    Truthful cache' st'.tokens := by
  induction l generalizing fault st cache with
  | nil =>
    cases h
    exact htruth
  | cons ec l ih =>
    have hknown' := (List.forall_mem_cons.mp hknown).2
    have htok' := (List.forall_mem_cons.mp htoke).2
    obtain ⟨htok, htx⟩ := hknown ec List.mem_cons_self
    obtain ⟨tokenID, htok⟩ := Option.isSome_iff_exists.mp htok
    unfold buildCached at h
    split at h
    · cases h
    · rename_i u hu
      rcases buildEvent_known htok htx hu with ⟨_, rfl⟩ | ⟨hno, signal, _, _, rfl⟩ | ⟨_, _, _, rfl⟩
      · rw [if_pos rfl] at h
        exact ih hknown' htok' htruth h
      · have hyes : (st.follow env addrMap batch ec (.scam signal)).cachedDenied
            ec.be.contractAddress = true := if_pos rfl
        rw [if_neg (by rw [hno, hyes]; decide)] at h
        have hden : Truthful (Function.update cache (deniedKey batch ec.be.contractAddress)
            (some true)) (st.follow env addrMap batch ec (.scam signal)).tokens :=
          htruth.deny (htoke ec List.mem_cons_self)
        split at h
        · cases h
        · exact ih hknown' (fun ec' hec' => (htok' ec' hec').denyTokenTx _ _ _) hden h
        · exact ih hknown' (fun ec' hec' => (htok' ec' hec').denyTokenTx _ _ _) hden h
      · rw [if_pos (by rfl)] at h
        exact ih hknown' (by exact htok') (by exact htruth) h

end Build

/-- Whether a balance of the event's address and token is known as the event comes: it is stored, or
an applied event before it has reached it. -/
def balanceKnown (batch : NormalizedBatch) (db : Db) (earlier : List EventContext)
    (ec : EventContext) : Bool :=
  ((tokenIDs batch db ec.be.contractAddress).any fun id =>
      (prefetchedBalance batch db.balances (ec.be.address, id)).present) ||
    earlier.any fun e => e.be.address = ec.be.address &&
      e.be.contractAddress = ec.be.contractAddress && e.applies batch

/-- No event of the batch would deny a token that the database does not deny already. -/
def DeniesNothing (batch : NormalizedBatch) (db : Db) : Prop :=
  ∀ earlier ec rest, batchEvents batch = earlier ++ ec :: rest →
    isDeniedTx batch.chain batch.network ec.be.contractAddress db.tokens = false →
      detectScamSignal batch.chain ec.be (balanceKnown batch db earlier ec) = ""

section Nothing
variable {env : IngestEnv} {addrMap : Option (List WatchedAddress)} {batch : NormalizedBatch}
variable {pre : Prefetched} {db : Db}

theorem detectScamSignal_mono {chain : Chain} {be : NormalizedBalanceEvent} {known present : Bool}
    (h : detectScamSignal chain be known = "") (himp : known = true → present = true) :
    detectScamSignal chain be present = "" := by
  cases present with
  | false =>
    cases known with
    | false => exact h
    | true => exact absurd (himp rfl) (by decide)
  | true =>
    cases known with
    | true => exact h
    | false =>
      unfold detectScamSignal at h ⊢
      split
      · rfl
      · split
        · rfl
        · rename_i hnat hbtc
          rw [if_neg hnat, if_neg hbtc] at h
          simp only at h ⊢
          split
          · rename_i hsig
            rw [if_pos hsig] at h
            exact h
          · split
            · simp
            · rfl

/-- What the build knows after the events `earlier`, as long as nothing was denied. -/
structure Undenied (batch : NormalizedBatch) (pre : Prefetched) (db : Db)
    (earlier : List EventContext) (st : BuildState) : Prop where
  denied : ∀ ec ∈ batchEvents batch, st.cachedDenied ec.be.contractAddress =
    isDeniedTx batch.chain batch.network ec.be.contractAddress db.tokens
  stored : ∀ key, (prefetchedBalance batch db.balances key).present = true →
    (st.inMemoryBalances key).present = true
  reached : ∀ e ∈ earlier,
    isDeniedTx batch.chain batch.network e.be.contractAddress db.tokens = false →
    e.applies batch = true → ∀ id, pre.tokenIDMap e.be.contractAddress = some id →
      (st.inMemoryBalances (e.be.address, id)).present = true

variable {earlier : List EventContext} {ec : EventContext} {st : BuildState}

theorem Undenied.known (h : Undenied batch pre db earlier st)
    (hids : pre.tokenIDMap = tokenIDs batch db) {tokenID : UUID}
    (htok : pre.tokenIDMap ec.be.contractAddress = some tokenID)
    (hden : isDeniedTx batch.chain batch.network ec.be.contractAddress db.tokens = false)
    (hknown : balanceKnown batch db earlier ec = true) :
    (st.inMemoryBalances (ec.be.address, tokenID)).present = true := by
  rw [balanceKnown, Bool.or_eq_true, ← hids, htok] at hknown
  rcases hknown with hsto | hrea
  · exact h.stored _ hsto
  · obtain ⟨e, he, hsame⟩ := List.any_eq_true.mp hrea
    simp only [Bool.and_eq_true, decide_eq_true_eq] at hsame
    obtain ⟨⟨haddr, hcon⟩, happ⟩ := hsame
    rw [← haddr]
    rw [← hcon] at hden htok
    exact h.reached e he hden happ tokenID htok

theorem Undenied.skipped (h : Undenied batch pre db earlier st)
    (hden : isDeniedTx batch.chain batch.network ec.be.contractAddress db.tokens = true) :
    Undenied batch pre db (earlier ++ [ec]) st := by
  refine ⟨h.denied, h.stored, fun e he hne => ?_⟩
  rcases List.mem_append.mp he with he | he
  · exact h.reached e he hne
  · rw [List.mem_singleton.mp he, hden] at hne
    cases hne

theorem Undenied.taken (h : Undenied batch pre db earlier st) {tokenID txID : UUID}
    (htok : pre.tokenIDMap ec.be.contractAddress = some tokenID) :
    Undenied batch pre db (earlier ++ [ec]) (st.follow env addrMap batch ec (.take tokenID txID)) := by
  refine ⟨h.denied, fun key hkey => ?_, fun e he hne happ id hid => ?_⟩
  · rw [follow_present, h.stored key hkey]
    rfl
  · rw [follow_present]
    rcases List.mem_append.mp he with he | he
    · rw [h.reached e he hne happ id hid]
      rfl
    · obtain rfl := List.mem_singleton.mp he
      cases htok.symm.trans hid
      simp [happ]

theorem Undenied.next {rest : List EventContext} {st' : BuildState}
    (h : Undenied batch pre db earlier st) (hnot : DeniesNothing batch db)
    (hids : pre.tokenIDMap = tokenIDs batch db) (hknown : ec.Known pre)
    (hsplit : batchEvents batch = earlier ++ ec :: rest)
    (hst : buildEvent env addrMap batch pre st ec = .ok st') :
    Undenied batch pre db (earlier ++ [ec]) st' ∧
      st'.cachedDenied ec.be.contractAddress = st.cachedDenied ec.be.contractAddress ∧
      st'.tokens = st.tokens := by
  obtain ⟨htok, htx⟩ := hknown
  obtain ⟨tokenID, htok⟩ := Option.isSome_iff_exists.mp htok
  have hmem : ec ∈ batchEvents batch := hsplit ▸ List.mem_append_cons_self
  have hden := h.denied ec hmem
  rcases buildEvent_known htok htx hst with ⟨hyes, rfl⟩ | ⟨hno, _, hsig, rfl, _⟩ | ⟨_, _, _, rfl⟩
  · exact ⟨h.skipped (hden.symm.trans hyes), rfl, rfl⟩
  · rw [hno] at hden
    exact absurd (detectScamSignal_mono (hnot earlier ec rest hsplit hden.symm)
      (h.known hids htok hden.symm)) hsig
  · exact ⟨h.taken htok, rfl, rfl⟩

/-- A batch that denies nothing leaves the cache as the prefetch left it, wherever it ends. -/
theorem buildCached_nothing {fault : Option Nat} {rest : List EventContext}
    {cache cache' : DeniedCache} {res : Except String BuildState}
    (h : Undenied batch pre db earlier st) (hnot : DeniesNothing batch db)
    (hids : pre.tokenIDMap = tokenIDs batch db) (hknown : ∀ ec ∈ rest, ec.Known pre)
    (hsplit : batchEvents batch = earlier ++ rest)
    (hres : buildCached env addrMap batch pre fault rest st cache = (res, cache')) :
    cache' = cache := by
  induction rest generalizing earlier st with
  | nil => exact (Prod.mk.inj hres).2.symm
  | cons ec rest ih =>
    unfold buildCached at hres
    split at hres
    · exact (Prod.mk.inj hres).2.symm
    · rename_i st' hst
      obtain ⟨hnext, hsame, _⟩ := h.next hnot hids (hknown ec List.mem_cons_self) hsplit hst
      rw [if_pos hsame] at hres
      exact ih hnext (List.forall_mem_cons.mp hknown).2
        (hsplit.trans (List.append_cons ..)) hres

end Nothing

section Attempt
variable {env : IngestEnv} {batch : NormalizedBatch} {fault : Option Fault}
variable {cache cache' : DeniedCache} {db db' u : Db} {pre : Prefetched}

theorem prefetchBulkData_cached (htruth : Truthful env.deniedCache db.tokens)
    (h : prefetchBulkData env batch (collectEvents batch) db = .ok (pre, u)) :
    (∀ ec ∈ batchEvents batch, ec.Known pre) ∧
    (∀ ec ∈ batchEvents batch,
      HasToken batch.chain batch.network ec.be.contractAddress u.tokens) ∧
    (∀ chain network contract, isDeniedTx chain network contract u.tokens =
      isDeniedTx chain network contract db.tokens) ∧
    Undenied batch pre db [] (.start batch pre u) := by
  obtain ⟨_, hfor⟩ := prefetchBulkData_for h
  obtain ⟨_, htok, hframe⟩ := prefetchBulkData_ok h
  have hsta := bulkUpsertTokensTx_denied htok tokenModels_not_denied
  refine ⟨fun ec hec => ⟨?_, ?_⟩, ?_, hsta, ?_, ?_, ?_⟩
  · exact Option.isSome_iff_exists.mpr (hfor.token ec hec)
  · exact Option.isSome_iff_exists.mpr (hfor.tx ec hec)
  · intro ec hec
    obtain ⟨id, hid⟩ := hfor.token ec hec
    obtain ⟨tok, hmem, hkey, _⟩ := (bulkUpsertTokensTx_ok collectEvents_tokenModels htok).2 _ _ hid
    exact ⟨tok, hmem, hkey⟩
  · intro ec hec
    show pre.cachedDenied ec.be.contractAddress = _
    rw [hfor.denied ec hec, deniedBefore]
    cases hcache : env.deniedCache (deniedKey batch ec.be.contractAddress) with
    | none => rfl
    | some denied => exact htruth batch _ denied hcache
  · intro key hkey
    have hbal : u.balances = db.balances := by rw [hframe]
    rw [BuildState.start, hbal]
    exact hkey
  · intro e he
    cases he

theorem writeBulkAndCommit_tokens {st : BuildState} (h : writeBulkAndCommit env batch st db = .ok db') :
    db'.tokens = st.tokens := by
  unfold writeBulkAndCommit at h
  obtain ⟨⟨balanceEvents, res⟩, _, h⟩ := Result.bind_ok h
  obtain ⟨balances, _, h⟩ := Result.bind_ok h
  simp only at h
  split at h
  · obtain ⟨v, hv, h⟩ := Result.bind_ok h
    cases h
    obtain ⟨_, hframe⟩ := bulkUpsertBlocksTx_ok (Result.mapError_ok hv)
    rw [hframe]
    rfl
  · obtain ⟨v, hv, h⟩ := Result.bind_ok h
    cases hv
    cases h
    rfl

/-- An attempt that commits leaves the cache in agreement with what it has committed; one that
fails leaves it in agreement with the old database, if it denies nothing. -/
def Agrees (batch : NormalizedBatch) (db : Db) : Except String Db × DeniedCache → Prop
  | (.ok db', cache') => Truthful cache' db'.tokens
  | (.error _, cache') => DeniesNothing batch db → Truthful cache' db.tokens

theorem Agrees.of_tokens {res : Except String Db × DeniedCache} (h : Agrees batch u res)
    (hnot : DeniesNothing batch u) (htok : u.tokens = db.tokens) : Agrees batch db res := by
  obtain ⟨_ | db', cache'⟩ := res
  · intro _
    rw [← htok]
    exact h hnot
  · exact h

theorem ingestAttempt_agrees (env : IngestEnv) (batch : NormalizedBatch) (fault : Option Fault)
    (htruth : Truthful cache db.tokens) :
    Agrees batch db (ingestAttempt env batch fault cache db) := by
  unfold ingestAttempt
  split
  · exact fun _ => htruth
  · split
    · exact fun _ => htruth
    · rename_i addrMap _ _ pre u hpre
      obtain ⟨hknown, htok, hsta, hund⟩ := prefetchBulkData_cached htruth hpre
      have hstart := (htruth.congr hsta).cacheDenied batch
      have hcac : Truthful (cacheDenied batch u.tokens cache) db.tokens :=
        hstart.congr fun c n a => (hsta c n a).symm
      have hids := (prefetchBulkData_for hpre).2.tokenIDs
      split
      · exact fun _ => hcac
      · rw [collectEvents_allEvents]
        split
        · rename_i hbuild
          exact fun hnot => buildCached_nothing hund hnot hids hknown rfl hbuild ▸ hcac
        · rename_i st cache₂ hbuild
          have hfai : DeniesNothing batch db → Truthful cache₂ db.tokens :=
            fun hnot => buildCached_nothing hund hnot hids hknown rfl hbuild ▸ hcac
          split
          · exact hfai
          · cases hwrite : writeBulkAndCommit { env with deniedCache := cache } batch st u with
            | error e => exact hfai
            | ok db' =>
              rw [Agrees, writeBulkAndCommit_tokens hwrite]
              exact buildCached_truthful hknown htok hstart hbuild

/-- Without an error of the database an attempt does what the batch does. -/
theorem ingestAttempt_none :
    (ingestAttempt env batch none cache db).1 =
      ingestBatch { env with deniedCache := cache } batch db := by
  unfold ingestAttempt ingestBatch
  cases blockScanAddresses { env with deniedCache := cache } batch with
  | error e => rfl
  | ok addrMap =>
    simp only [bind, Except.bind]
    cases prefetchBulkData { env with deniedCache := cache } batch (collectEvents batch) db with
    | error e => rfl
    | ok res =>
      obtain ⟨pre, u⟩ := res
      simp only [reduceCtorEq, if_false, Option.bind_none, buildEventModels_eq]
      rw [← buildCached_result _ _ (cacheDenied batch u.tokens cache)]
      cases buildCached { env with deniedCache := cache } addrMap batch pre none
          (collectEvents batch).allEvents (.start batch pre u) (cacheDenied batch u.tokens cache) with
      | mk res cache₂ =>
        cases res with
        | error e => rfl
        | ok st => rfl

theorem prefetchBulkData_of_truthful (htruth : Truthful cache db.tokens) :
    prefetchBulkData { env with deniedCache := cache } batch (collectEvents batch) db =
      prefetchBulkData { env with deniedCache := fun _ => none } batch (collectEvents batch) db := by
  unfold prefetchBulkData
  cases bulkUpsertTransactionsTx (collectEvents batch).txModels db.transactions with
  | error e => rfl
  | ok x =>
    cases htok : bulkUpsertTokensTx (collectEvents batch).tokenModels db.tokens with
    | error e => rfl
    | ok y =>
      obtain ⟨tokens, ids⟩ := y
      simp only [Except.mapError, bind, Except.bind]
      congr 3
      funext contract
      split
      · cases hcache : cache (deniedKey batch contract) with
        | none => rfl
        | some denied =>
          simp only
          rw [htruth batch contract denied hcache,
            bulkUpsertTokensTx_denied htok tokenModels_not_denied]
      · rfl

theorem buildEventModels_deniedCache (addrMap : Option (List WatchedAddress))
    (allEvents : List EventContext) :
    buildEventModels { env with deniedCache := cache } addrMap batch pre allEvents u =
      buildEventModels { env with deniedCache := cache' } addrMap batch pre allEvents u := by
  have hstep : buildEvent { env with deniedCache := cache } addrMap batch pre =
      buildEvent { env with deniedCache := cache' } addrMap batch pre := rfl
  unfold buildEventModels buildEventModelsFrom
  rw [hstep]

theorem ingestBatch_of_truthful (htruth : Truthful cache db.tokens) :
    ingestBatch { env with deniedCache := cache } batch db =
      ingestBatch { env with deniedCache := fun _ => none } batch db := by
  have haddr : blockScanAddresses { env with deniedCache := cache } batch =
      blockScanAddresses { env with deniedCache := fun _ => none } batch := rfl
  have hwrite : writeBulkAndCommit { env with deniedCache := cache } batch =
      writeBulkAndCommit { env with deniedCache := fun _ => none } batch := rfl
  have hbuild : ∀ addrMap pre allEvents u,
      buildEventModels { env with deniedCache := cache } addrMap batch pre allEvents u =
      buildEventModels { env with deniedCache := fun _ => none } addrMap batch pre allEvents u :=
    fun addrMap pre allEvents u => buildEventModels_deniedCache addrMap allEvents
  unfold ingestBatch
  simp only [haddr, prefetchBulkData_of_truthful htruth, hbuild, hwrite]

theorem deniesNothing_of_signals
    (h : ∀ ec ∈ batchEvents batch, detectScamSignal batch.chain ec.be false = "") (db : Db) :
    DeniesNothing batch db := by
  intro earlier ec rest hsplit _
  refine detectScamSignal_mono (h ec ?_) fun hfalse => absurd hfalse (by decide)
  rw [hsplit]
  exact List.mem_append_cons_self

theorem deniesNothing_btc (h : batch.chain = .btc) (db : Db) : DeniesNothing batch db := by
  refine deniesNothing_of_signals (fun ec _ => ?_) db
  unfold detectScamSignal
  rw [h]
  split
  · rfl
  · rfl

theorem btc_of_continues (h : shouldContinueCompetingBranchReplay batch = true) :
    batch.chain = .btc := by
  unfold shouldContinueCompetingBranchReplay at h
  rw [Bool.and_eq_true, decide_eq_true_eq] at h
  exact h.1

theorem processAttempt_agrees (env : IngestEnv) (batch : NormalizedBatch) (fault : Option Fault)
    (htruth : Truthful cache db.tokens) :
    Agrees batch db (processAttempt env batch fault cache db) := by
  unfold processAttempt
  simp only
  split
  · exact fun _ => htruth
  · split
    · split
      · exact fun _ => htruth
      · rename_i u hu
        have htok := (rollbackCanonicalityDrift_ok hu).tokens
        have hback := htruth
        rw [← htok] at hback
        split
        · rename_i hcont
          exact (ingestAttempt_agrees env _ fault hback).of_tokens
            (deniesNothing_btc (btc_of_continues hcont) u) htok
        · split
          · exact fun _ => htruth
          · exact hback
    · exact ingestAttempt_agrees env (canonicalizeCursors batch) fault htruth

theorem processAttempt_none : (processAttempt env batch none cache db).1 =
    processBatch { env with deniedCache := cache } batch db := by
  unfold processAttempt processBatch
  simp only [reduceCtorEq, if_false]
  split
  · cases rollbackCanonicalityDrift { env with deniedCache := cache }
        (withRollbackForkCursor (canonicalizeCursors batch)) db with
    | error e => rfl
    | ok u =>
      simp only
      split
      · exact ingestAttempt_none
      · rfl
  · exact ingestAttempt_none

theorem processBatch_of_truthful (htruth : Truthful cache db.tokens) :
    processBatch { env with deniedCache := cache } batch db =
      processBatch { env with deniedCache := fun _ => none } batch db := by
  have hback : rollbackCanonicalityDrift { env with deniedCache := cache } =
      rollbackCanonicalityDrift { env with deniedCache := fun _ => none } := rfl
  unfold processBatch
  simp only [hback, ingestBatch_of_truthful htruth]
  split
  · split
    · rfl
    · rename_i u hu
      have hdrift := rollbackCanonicalityDrift_ok hu
      rw [← hdrift.tokens] at htruth
      rw [ingestBatch_of_truthful htruth]
  · rfl

end Attempt

/-- A batch that the database takes in, if it reports no error. -/
structure Accepted (env : IngestEnv) (batch : NormalizedBatch) (db : Db) : Prop where
  previous : batch.previousCursorValue = none
  new : NewEvents batch db
  postable : ∃ addrMap, blockScanAddresses env batch = .ok addrMap ∧
    ExactlyPostable { env with deniedCache := fun _ => none } addrMap batch db

/-- A call that denies nothing may fail; any other one has to be taken in at once. -/
def CacheSystem.DeniesSafely (s : CacheSystem) : CacheAction → Prop
  | .process env batch fault =>
    DeniesNothing batch s.db ∨ fault = none ∧ Accepted env batch s.db
  | _ => True

theorem Accepted.isOk {env : IngestEnv} {batch : NormalizedBatch} {db : Db}
    (h : Accepted env batch db) :
    ∃ db', processBatch { env with deniedCache := fun _ => none } batch db = .ok db' := by
  obtain ⟨addrMap, haddr, hpost⟩ := h.postable
  have hnew : NewEvents (canonicalizeCursors batch) db := ⟨h.new.1, h.new.2, h.new.3⟩
  have haddr' : blockScanAddresses { env with deniedCache := fun _ => none }
    (canonicalizeCursors batch) = .ok addrMap := haddr
  obtain ⟨db', hok, _⟩ := (ingestBatch_exact_iff haddr' hnew).mpr
    ((exactlyPostable_canonicalizeCursors _ batch db addrMap).mpr hpost) env.choice
  refine ⟨db', ?_⟩
  rw [processBatch_of_no_previous _ db h.previous]
  exact hok

theorem CacheSystem.process_truthful {s : CacheSystem} {env : IngestEnv} {batch : NormalizedBatch}
    {fault : Option Fault} (hs : Truthful s.cache s.db.tokens)
    (hsafe : s.DeniesSafely (.process env batch fault)) :
    Truthful (s.process env batch fault).cache (s.process env batch fault).db.tokens := by
  unfold CacheSystem.process
  have hagr := processAttempt_agrees env batch fault hs
  cases hres : processAttempt env batch fault s.cache s.db with
  | mk res cache' =>
    rw [hres] at hagr
    cases res with
    | ok db' => exact hagr
    | error e =>
      rcases hsafe with hnot | ⟨rfl, hacc⟩
      · exact hagr hnot
      · obtain ⟨db', hok⟩ := hacc.isOk
        rw [← processBatch_of_truthful hs, ← processAttempt_none, hres] at hok
        cases hok

theorem CacheSystem.step_truthful {s s' : CacheSystem} {act : CacheAction}
    (hs : Truthful s.cache s.db.tokens) (hsafe : s.DeniesSafely act) (h : s.Step act s') :
    Truthful s'.cache s'.db.tokens := by
  cases h with
  | process env batch fault => exact CacheSystem.process_truthful hs hsafe
  | expire gone => exact hs.expire gone
  | write db hden => exact hs.congr hden

/-- After every sequence of attempts in which whatever denies a token is committed, the cache says
what the committed database says. The next attempt then does what it would do without a cache, and
so a batch that succeeds on a retry does what it would have done at once. -/
theorem run_cache_truthful (s s' : CacheSystem) (acts : List CacheAction)
    (hs : Truthful s.cache s.db.tokens)
    (hrun : Runs.Run CacheSystem.Step CacheSystem.DeniesSafely s acts s') :
    Truthful s'.cache s'.db.tokens ∧
    (∀ env batch, (processAttempt env batch none s'.cache s'.db).1 =
      processBatch { env with deniedCache := fun _ => none } batch s'.db) ∧
    (s'.db = s.db → ∀ env batch, (s'.process env batch none).db = (s.process env batch none).db) := by
  have htruth : Truthful s'.cache s'.db.tokens :=
    hrun.invariant hs fun _ _ _ ht hsafe hstep => CacheSystem.step_truthful ht hsafe hstep
  have hres : ∀ {cache : DeniedCache} {db : Db}, Truthful cache db.tokens → ∀ env batch,
      (processAttempt env batch none cache db).1 =
        processBatch { env with deniedCache := fun _ => none } batch db := by
    intro cache db h env batch
    rw [processAttempt_none, processBatch_of_truthful h]
  refine ⟨htruth, hres htruth, fun hdb env batch => ?_⟩
  unfold CacheSystem.process
  rw [hres htruth, hres hs, hdb]

def signalledBatch (signal : String) : NormalizedBatch where
  chain := .ethereum
  network := .mainnet
  blockScanMode := true
  transactions := [{
    txHash := "0xaa"
    blockCursor := 10
    feeAmount := "0"
    balanceEvents := [depositFrom "e1" "0xb" "5",
      { depositFrom "e2" "0xb" "7" with chainData := some [("scam_signal", signal)] }] }]
  newCursorSequence := 10

def retried : CacheSystem :=
  (CacheSystem.process {} {} (signalledBatch "") (some .late)).process {} (signalledBatch "") none

/-- Without a signal the first attempt may fail: the retry finds the cache as the database. -/
theorem run_cache_truthful_retry :
    Runs.Run CacheSystem.Step CacheSystem.DeniesSafely {}
      [.process {} (signalledBatch "") (some .late), .process {} (signalledBatch "") none] retried ∧
    Truthful retried.cache retried.db.tokens := by
  have hnot : ∀ db, DeniesNothing (signalledBatch "") db :=
    deniesNothing_of_signals (by decide)
  refine ⟨?hrun, (run_cache_truthful {} _ _ (fun _ _ _ h => nomatch h) ?hrun).1⟩
  exact .next (.next .start (.inl (hnot _)) (.process {} _ _)) (.inl (hnot _)) (.process {} _ _)

def CacheSystem.stored (s : CacheSystem) : Bool × Nat :=
  (isDeniedTx .ethereum .mainnet "0xt" s.db.tokens, s.db.balanceEvents.rows.length)

/-- With a signal, an attempt whose commit fails leaves a cache that denies a token which the
database does not. The retry stores nothing and denies nothing, where an attempt that commits at
once stores the first deposit and denies the token. -/
theorem cache_not_truthful :
    ¬ Truthful (CacheSystem.process {} {} (signalledBatch "honeypot") (some .late)).cache
      (CacheSystem.process {} {} (signalledBatch "honeypot") (some .late)).db.tokens ∧
    ((CacheSystem.process {} {} (signalledBatch "honeypot") (some .late)).process {}
      (signalledBatch "honeypot") none).stored = (false, 0) ∧
    (CacheSystem.process {} {} (signalledBatch "honeypot") none).stored = (true, 1) := by
  refine ⟨fun h => ?_, by decide +kernel, by decide +kernel⟩
  have hcac : (CacheSystem.process {} {} (signalledBatch "honeypot") (some .late)).cache
      (deniedKey (signalledBatch "honeypot") "0xt") = some true := by decide +kernel
  have hdb : isDeniedTx .ethereum .mainnet "0xt" (CacheSystem.process {} {}
      (signalledBatch "honeypot") (some .late)).db.tokens = false := by decide +kernel
  have heq : true = isDeniedTx .ethereum .mainnet "0xt" (CacheSystem.process {} {}
      (signalledBatch "honeypot") (some .late)).db.tokens :=
    h (signalledBatch "honeypot") "0xt" true hcac
  rw [hdb] at heq
  cases heq

end MultichainIndexer
