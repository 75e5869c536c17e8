import MultichainIndexer.Lib.FirstOf
import MultichainIndexer.Ingester.Build

/-!
# What the prefetch answers

The first phase lists every transaction hash and every contract once, so the
upserts of the prefetch fail only on a fee that is not a number. Every event of
the batch then finds the id of its transaction and of its token, and a contract
counts as denied if the cache says so or, where the cache is silent, if its
stored token is denied.
-/

namespace MultichainIndexer

open Relational FirstOf

section Collect
variable {batch : NormalizedBatch}

theorem addTx_txModels (s : Collected) (tx : Transaction) :
    (s.addTx tx).txModels = add Transaction.txHash s.txModels tx := by
  unfold Collected.addTx add
  split
  · rfl
  · rfl

theorem addToken_tokenModels (s : Collected) (tok : Token) :
    (s.addToken tok).tokenModels = add Token.contractAddress s.tokenModels tok := by
  unfold Collected.addToken add
  split
  · rfl
  · rfl

theorem addToken_txModels (s : Collected) (tok : Token) :
    (s.addToken tok).txModels = s.txModels := by
  unfold Collected.addToken
  split
  · rfl
  · rfl

theorem collectTx_models (s : Collected) (ntx : NormalizedTransaction) :
    (collectTx batch s ntx).txModels = add Transaction.txHash s.txModels (txModel batch ntx) ∧
      (collectTx batch s ntx).tokenModels = ((eventsOf batch.chain ntx).map
        (tokenModel batch)).foldl (add Token.contractAddress) s.tokenModels := by
  have hall : ∀ (l : List NormalizedBalanceEvent) (u : Collected),
      (l.foldl (fun s be => (s.addToken (tokenModel batch be)).addEvent
        ⟨ntx, be, canonicalTxHash batch.chain ntx.txHash⟩) u).txModels = u.txModels ∧
      (l.foldl (fun s be => (s.addToken (tokenModel batch be)).addEvent
        ⟨ntx, be, canonicalTxHash batch.chain ntx.txHash⟩) u).tokenModels =
        (l.map (tokenModel batch)).foldl (add Token.contractAddress) u.tokenModels := by
    intro l
    induction l with
    | nil => exact fun u => ⟨rfl, rfl⟩
    | cons be l ih =>
      intro u
      obtain ⟨htx, htok⟩ := ih ((u.addToken (tokenModel batch be)).addEvent
        ⟨ntx, be, canonicalTxHash batch.chain ntx.txHash⟩)
      constructor
      · exact htx.trans (addToken_txModels u _)
      · rw [List.foldl_cons, htok, List.map_cons, List.foldl_cons, ← addToken_tokenModels]
        rfl
  obtain ⟨htx, htok⟩ := hall (eventsOf batch.chain ntx) (s.addTx (txModel batch ntx))
  exact ⟨htx.trans (addTx_txModels s _), htok.trans (by rw [addTx_tokenModels])⟩

theorem collectEvents_txModels : (collectEvents batch).txModels =
    firstOf Transaction.txHash (batch.transactions.map (txModel batch)) := by
  rw [firstOf, List.foldl_map]
  exact (List.foldl_hom Collected.txModels fun s ntx => (collectTx_models s ntx).1.symm).symm

theorem collectEvents_tokens : (collectEvents batch).tokenModels =
    firstOf Token.contractAddress ((batchEvents batch).map fun ec => tokenModel batch ec.be) := by
  rw [firstOf, List.foldl_map, batchEvents, List.foldl_flatMap]
  refine (List.foldl_hom Collected.tokenModels fun s ntx => ?_).symm
  rw [(collectTx_models s ntx).2, List.foldl_map, List.foldl_map]

theorem txModels_distinct (batch : NormalizedBatch) :
    ((collectEvents batch).txModels.map Transaction.hashKey).Nodup := by
  rw [collectEvents_txModels]
  refine List.pairwise_map.mpr ((List.pairwise_map.mp (nodup_firstOf _)).imp ?_)
  intro x y hne heq
  exact hne (congrArg (fun k => k.2.2) (Option.some.inj heq))

theorem tokenModels_distinct (batch : NormalizedBatch) :
    ((collectEvents batch).tokenModels.map Token.contractKey).Nodup := by
  rw [collectEvents_tokens]
  refine List.pairwise_map.mpr ((List.pairwise_map.mp (nodup_firstOf _)).imp ?_)
  intro x y hne heq
  exact hne (congrArg (fun k => k.2.2) (Option.some.inj heq))

theorem exists_txModel {ec : EventContext} (h : ec ∈ batchEvents batch) :
    ∃ x ∈ (collectEvents batch).txModels, x.txHash = ec.canonicalTxHash := by
  obtain ⟨ntx, hntx, hec⟩ := List.mem_flatMap.mp h
  obtain ⟨be, _, rfl⟩ := List.mem_map.mp hec
  obtain ⟨x, hx, hhash⟩ : ∃ x ∈ firstOf Transaction.txHash
      (batch.transactions.map (txModel batch)), x.txHash = (txModel batch ntx).txHash :=
    exists_mem_firstOf (List.mem_map_of_mem hntx)
  rw [collectEvents_txModels]
  exact ⟨x, hx, hhash⟩

theorem exists_tokenModel {ec : EventContext} (h : ec ∈ batchEvents batch) :
    ∃ x ∈ (collectEvents batch).tokenModels, x.contractAddress = ec.be.contractAddress := by
  rw [collectEvents_tokens]
  exact exists_mem_firstOf (List.mem_map_of_mem h)

theorem exists_of_tokenModel {x : Token} (hx : x ∈ (collectEvents batch).tokenModels) :
    ∃ be, tokenModel batch be = x := by
  rw [collectEvents_tokens] at hx
  obtain ⟨ec, _, hec⟩ := List.mem_map.mp (mem_of_mem_firstOf hx)
  exact ⟨ec.be, hec⟩

theorem collectEvents_tokenModels : ∀ tok ∈ (collectEvents batch).tokenModels,
    tok.chain = batch.chain ∧ tok.network = batch.network := by
  intro tok htok
  obtain ⟨be, rfl⟩ := exists_of_tokenModel htok
  exact ⟨rfl, rfl⟩

theorem tokenModels_not_denied : ∀ x ∈ (collectEvents batch).tokenModels, x.isDenied = false := by
  intro x hx
  obtain ⟨be, rfl⟩ := exists_of_tokenModel hx
  rfl

end Collect

/-- Whether the events of a contract are skipped from the start. -/
def deniedBefore (env : IngestEnv) (batch : NormalizedBatch) (db : Db) (contract : String) : Bool :=
  (env.deniedCache (deniedKey batch contract)).getD
    (isDeniedTx batch.chain batch.network contract db.tokens)

def tokenIDs (batch : NormalizedBatch) (db : Db) : String → Option UUID :=
  match bulkUpsertTokensTx (collectEvents batch).tokenModels db.tokens with
  | .ok (_, ids) => ids
  | .error _ => fun _ => none

/-- Every fee that the batch stores is a number. -/
def FeesNumeric (batch : NormalizedBatch) : Prop :=
  ∀ x ∈ (collectEvents batch).txModels, ∃ fee, numericIn x.feeAmount = .ok fee

section Prefetch
variable {env : IngestEnv} {batch : NormalizedBatch} {db db' : Db} {pre : Prefetched}

/-- What the build relies on after a prefetch. -/
structure PrefetchedFor (env : IngestEnv) (batch : NormalizedBatch) (db : Db) (pre : Prefetched) :
    Prop where
  tokenIDs : pre.tokenIDMap = tokenIDs batch db
  token : ∀ ec ∈ batchEvents batch, ∃ id, pre.tokenIDMap ec.be.contractAddress = some id
  tx : ∀ ec ∈ batchEvents batch, ∃ id, pre.txIDMap ec.canonicalTxHash = some id
  denied : ∀ ec ∈ batchEvents batch, pre.cachedDenied ec.be.contractAddress =
    deniedBefore env batch db ec.be.contractAddress

theorem prefetchBulkData_for
    (h : prefetchBulkData env batch (collectEvents batch) db = .ok (pre, db')) :
    FeesNumeric batch ∧ PrefetchedFor env batch db pre := by
  unfold prefetchBulkData at h
  obtain ⟨⟨transactions, txIDMap⟩, htx, h⟩ := Result.bind_ok h
  obtain ⟨⟨tokens, tokenIDMap⟩, htok, h⟩ := Result.bind_ok h
  have htx := Result.mapError_ok htx
  have htok := Result.mapError_ok htok
  have hids : tokenIDMap = tokenIDs batch db := by rw [tokenIDs, htok]
  cases h
  refine ⟨(bulkUpsertTransactionsTx_ok_iff (txModels_distinct batch)).mp ⟨_, htx⟩, hids, ?_, ?_, ?_⟩
  · intro ec hec
    obtain ⟨x, hx, hcon⟩ := exists_tokenModel hec
    obtain ⟨t', ids, hok, htotal⟩ := bulkUpsertTokensTx_total (t := db.tokens)
      (tokenModels_distinct batch)
    rw [htok] at hok
    cases hok
    rw [← hcon]
    exact htotal x hx
  · intro ec hec
    obtain ⟨x, hx, hhash⟩ := exists_txModel hec
    rw [← hhash]
    exact bulkUpsertTransactionsTx_total htx hx
  · intro ec hec
    obtain ⟨x, hx, hcon⟩ := exists_tokenModel hec
    have hany : ((collectEvents batch).tokenModels.any fun t =>
        t.contractAddress = ec.be.contractAddress) = true :=
      List.any_eq_true.mpr ⟨x, hx, by simpa using hcon⟩
    simp only [hany, if_true, deniedBefore]
    cases env.deniedCache (deniedKey batch ec.be.contractAddress) with
    | some denied => rfl
    | none => exact bulkUpsertTokensTx_denied htok tokenModels_not_denied _ _ _

theorem prefetchBulkData_ok_iff :
    (∃ res, prefetchBulkData env batch (collectEvents batch) db = .ok res) ↔
      FeesNumeric batch := by
  constructor
  · rintro ⟨⟨pre, db'⟩, h⟩
    exact (prefetchBulkData_for h).1
  · intro hfees
    obtain ⟨res, htx⟩ := (bulkUpsertTransactionsTx_ok_iff (t := db.transactions)
      (txModels_distinct batch)).mpr hfees
    obtain ⟨t', ids, htok, _⟩ := bulkUpsertTokensTx_total (t := db.tokens)
      (tokenModels_distinct batch)
    unfold prefetchBulkData
    rw [htx, htok]
    exact ⟨_, rfl⟩

end Prefetch

end MultichainIndexer
