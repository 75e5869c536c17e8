import MultichainIndexer.Lib.Run
import MultichainIndexer.Ingester.Ingested
import MultichainIndexer.Replay.Purge

/-!
# Batches keep the balances reconciled

The balance update of a batch runs whether its events were new or not, so a
stored event that comes again is counted again. `BatchCounts` says when a batch
counts each event once: an applied event is new, or it settles the pending row
of the same movement. Runs of such batches keep the stored balances equal to
the totals of the ledger.
-/

namespace MultichainIndexer

open Relational SumWhere

/-- A stored pending row of the movement that an event reports. -/
@[mk_iff]
structure SameMovement (b : BalanceKind) (batch : NormalizedBatch) (tokens : List Token)
    (r : BalanceEventRow) (be : NormalizedBalanceEvent) : Prop where
  pending : r.balanceApplied = false
  chain : r.chain = batch.chain
  network : r.network = batch.network
  address : r.address = be.address
  token : ∃ tok ∈ tokens,
    tok.contractKey = some (batch.chain, batch.network, be.contractAddress) ∧ tok.id = r.tokenID
  delta : r.delta = deltaValue be.delta
  counts : b.counts r.activityType = b.counts be.activityType
  rank : finalityRank r.finalityState ≤ finalityRank be.finalityState

/-- The events of a batch, over the stored rows and tokens, count once: no id comes twice, an
applied event finds no row but a pending one of its own, and a balance has one owner. -/
structure CountsEachOnce (b : BalanceKind) (env : IngestEnv) (batch : NormalizedBatch)
    (rows : List BalanceEventRow) (tokens : List Token) : Prop where
  distinct : (batchEvents batch).Pairwise fun ec ec' =>
    ec.be.eventID ≠ "" → ec.be.eventID ≠ ec'.be.eventID
  stored : ∀ ec ∈ batchEvents batch, ec.applies batch = true → ec.be.eventID ≠ "" →
    ∀ r ∈ rows, r.eventID = ec.be.eventID → SameMovement b batch tokens r ec.be
  owner : OwnersAgree env batch

def BalanceEventRow.rolledBack (batch : NormalizedBatch) (r : BalanceEventRow) : Bool :=
  r.isDrifted (withRollbackForkCursor batch)
    (rollbackForkCursorSequence (withRollbackForkCursor batch))

/-- What a batch needs of the database so that each event counts once. -/
structure BatchCounts (b : BalanceKind) (env : IngestEnv) (batch : NormalizedBatch) (db : Db) :
    Prop where
  forward : rollsBack (canonicalizeCursors batch) = false →
    CountsEachOnce b env (canonicalizeCursors batch) db.balanceEvents.rows db.tokens.rows
  revert : rollsBack (canonicalizeCursors batch) = true → ∀ a : Account,
    (KeyedTable.find? db.balances (a.key b)).isSome = true →
      Postable (b.book.entries b.book.applied (db.balanceEvents.rows.filter
        (BalanceEventRow.rolledBack (canonicalizeCursors batch))) a)
  replay : rollsBack (canonicalizeCursors batch) = true →
    shouldContinueCompetingBranchReplay (canonicalizeCursors batch) = true →
    CountsEachOnce b env (canonicalizeCursors batch)
      (db.balanceEvents.rows.filter fun r => !r.rolledBack (canonicalizeCursors batch))
      db.tokens.rows

section Ingest
variable {b : BalanceKind} {env : IngestEnv} {batch : NormalizedBatch} {db db' : Db}
variable {addrMap : Option (List WatchedAddress)} {pre : Prefetched} {prefetched : Tokens}

theorem countsOnce_of_built {ec : EventContext} {v : EventValues} {t : BalanceEvents}
    (htoke : bulkUpsertTokensTx (collectEvents batch).tokenModels db.tokens =
      .ok (prefetched, pre.tokenIDMap))
    (honce : CountsEachOnce b env batch t.rows db.tokens.rows) (hec : ec ∈ batchEvents batch)
    (hbuilt : BuiltFrom env addrMap batch pre ec v.event)
    (hnum : numericText v.event.delta = .ok v.delta) : CountsOnce b t v := by
  obtain ⟨txID, tokenID, before, after, htok, hm⟩ := hbuilt
  intro happ k hk r hr hrk
  have hid : v.event.eventID = ec.be.eventID := by rw [hm]; rfl
  have happl : ec.applies batch = true := by rw [hm] at happ; exact happ
  rw [EventValues.eventKey_eq_some, hid] at hk
  rw [BalanceEventRow.eventKey_eq_some] at hrk
  have hsame := honce.stored ec hec happl hk.1 r hr (hrk.2.trans hk.2.symm)
  obtain ⟨tok, htokm, htokk, htokid⟩ := hsame.token
  have hidt : tok.id = tokenID :=
    bulkUpsertTokensTx_id collectEvents_tokenModels htoke htok htokm htokk
  refine ⟨hsame.pending, ?_, ?_, ?_, ?_⟩
  · rw [hm, BalanceEventRow.account, hsame.chain, hsame.network, hsame.address, ← htokid, hidt]
    rfl
  · rw [← numericText_value hnum, hsame.delta, hm]
    rfl
  · rw [hsame.counts, hm]
    rfl
  · rw [hm]
    exact hsame.rank

theorem ingestBatch_reconciledAt (hrec : ReconciledAt b db)
    (honce : CountsEachOnce b env batch db.balanceEvents.rows db.tokens.rows)
    (h : ingestBatch env batch db = .ok db') : ReconciledAt b db' := by
  obtain ⟨addrMap, pre, prefetched, st, hin⟩ := ingestBatch_ok h
  obtain ⟨kept, vs, hw⟩ := hin.written
  have hcou : ∀ v ∈ vs, CountsOnce b db.balanceEvents v := by
    intro v hv
    obtain ⟨ec, hec, hb⟩ := hw.exists_event v hv
    exact countsOnce_of_built hin.tokens honce hec hb (hw.numbers v hv)
  intro a
  rw [hw.amount hin (hw.oneOwner hin honce.owner) a, hrec a,
    wroteAll_total hw.wrote (hw.distinct honce.distinct) hcou, hw.adds_models]

end Ingest

section Drift
variable {b : BalanceKind} {env : IngestEnv} {batch : NormalizedBatch} {db db' : Db}

theorem buildReversalAdjustItems_eq (l : List BalanceEventRow) :
    buildReversalAdjustItems l = bothItems (-1) (fun b r => b.book.applied r) l := by
  unfold buildReversalAdjustItems bothItems
  congr 1
  funext r
  cases happ : r.balanceApplied <;> cases hst : isStakingActivity r.activityType <;>
    simp [BalanceKind.book, BalanceKind.counts, happ, hst, revertLiquidItem, revertStakedItem,
      BalanceEventRow.item, BalanceKind.signed, BalanceKind.balanceType]

/-- A drift rollback that may revert its events keeps the balances reconciled. -/
theorem drifted_reconciledAt (hrec : ReconciledAt b db) (h : DriftedBy env batch db db')
    (hpost : ∀ a : Account, (KeyedTable.find? db.balances (a.key b)).isSome = true →
      Postable (b.book.entries b.book.applied (db.balanceEvents.rows.filter
        (BalanceEventRow.isDrifted batch (rollbackForkCursorSequence batch))) a)) :
    ReconciledAt b db' := by
  intro a
  have hl : ∀ r ∈ db.balanceEvents.rows.filter
      (BalanceEventRow.isDrifted batch (rollbackForkCursorSequence batch)),
      r.chain = batch.chain ∧ r.network = batch.network := by
    intro r hr
    have hd := (List.mem_filter.mp hr).2
    simp only [BalanceEventRow.isDrifted, BalanceEventRow.isFrom, Bool.and_eq_true,
      decide_eq_true_eq] at hd
    exact ⟨hd.1.1, hd.1.2.1⟩
  have hbal := h.balances
  rw [buildReversalAdjustItems_eq] at hbal
  have hlist := listedFor_bothItems hl (fun b r => b.book.applied r) b (-1) a
  rw [bulkAdjust_amount hbal, appliedDelta_posts (by decide) (.of_eq hlist) (hpost a)
    ((bulkAdjust_ok_iff.mp ⟨_, hbal⟩).2 _), ← Ledger.total_eq_entries, hrec a, h.balanceEvents,
    Table.deleteWhere_rows, Ledger.total_split b.book
      (BalanceEventRow.isDrifted batch (rollbackForkCursorSequence batch)) _ a]
  omega

end Drift

section Runs
variable {b : BalanceKind} {env : IngestEnv} {batch : NormalizedBatch} {db db' : Db}

theorem processBatch_reconciledAt (hrec : ReconciledAt b db) (hcou : BatchCounts b env batch db)
    (h : processBatch env batch db = .ok db') : ReconciledAt b db' := by
  rcases processBatch_cases h with ⟨hback, hin⟩ | ⟨u, hback, hdrift, hrest⟩
  · exact ingestBatch_reconciledAt hrec (hcou.forward hback) hin
  · have hu := drifted_reconciledAt hrec hdrift (hcou.revert hback)
    rcases hrest with ⟨hcont, hin⟩ | ⟨_, rfl⟩
    · refine ingestBatch_reconciledAt hu ?_ hin
      rw [hdrift.balanceEvents, hdrift.tokens]
      exact hcou.replay hback hcont
    · exact hu

/-- Batches processed one after another, each counting its events once, keep the balances equal to
the totals of the ledger in every state they reach. -/
theorem processBatch_run_reconciledAt (b : BalanceKind) (db db' : Db)
    (batches : List (IngestEnv × NormalizedBatch)) (hrec : ReconciledAt b db)
    (hrun : Runs.Run (fun db i db' => processBatch i.1 i.2 db = .ok db')
      (fun db i => BatchCounts b i.1 i.2 db) db batches db') : ReconciledAt b db' :=
  hrun.invariant hrec fun _ _ _ ht hcou hstep => processBatch_reconciledAt ht hcou hstep

end Runs

def depositEvent (finality : String) : NormalizedBalanceEvent where
  activityType := .deposit
  contractAddress := "0xt"
  address := "0xa"
  delta := "5"
  tokenType := .fungible
  eventID := "e1"
  finalityState := finality

def depositBatch (finality : String) : NormalizedBatch where
  chain := .ethereum
  network := .mainnet
  transactions := [{
    txHash := "0xaa"
    blockCursor := 10
    feeAmount := "0"
    balanceEvents := [depositEvent finality] }]
  newCursorSequence := 10

theorem reconciled_empty : Reconciled {} := fun _ _ => rfl

instance {b : BalanceKind} {batch : NormalizedBatch} {tokens : List Token} {r : BalanceEventRow}
    {be : NormalizedBalanceEvent} : Decidable (SameMovement b batch tokens r be) :=
  decidable_of_iff' _ (sameMovement_iff b batch tokens r be)

theorem depositBatch_counts {finality : String} {db : Db}
    (h : ∀ r ∈ db.balanceEvents.rows, SameMovement .liquid (canonicalizeCursors
      (depositBatch finality)) db.tokens.rows r (depositEvent finality)) :
    BatchCounts .liquid {} (depositBatch finality) db := by
  refine ⟨fun _ => ⟨List.pairwise_singleton _ _, ?_, ?_⟩, nofun, nofun⟩
  · intro ec hec _ _ r hr _
    rw [List.mem_singleton.mp hec]
    exact h r hr
  · intro addrMap _ ec _ ec' _ _ _ _ _
    exact ⟨rfl, rfl⟩

/-- A deposit that is pending and then final counts once, and its balance is its total. -/
theorem processBatch_run_reconciledAt_deposit :
    ∃ db', Runs.Run (fun db i db' => processBatch i.1 i.2 db = .ok db')
      (fun db i => BatchCounts .liquid i.1 i.2 db) {}
        [({}, depositBatch "processed"), ({}, depositBatch "finalized")] db' ∧
      amountOf db'.balances (depositAccount.key .liquid) = 5 ∧ ReconciledAt .liquid db' := by
  obtain ⟨db₁, h₁, db₂, h₂, hpending, hamount⟩ :
      ∃ db₁, processBatch {} (depositBatch "processed") {} = .ok db₁ ∧
      ∃ db₂, processBatch {} (depositBatch "finalized") db₁ = .ok db₂ ∧
        (∀ r ∈ db₁.balanceEvents.rows, SameMovement .liquid (canonicalizeCursors
          (depositBatch "finalized")) db₁.tokens.rows r (depositEvent "finalized")) ∧
        amountOf db₂.balances (depositAccount.key .liquid) = 5 := by decide
  have hrun : Runs.Run (fun db i db' => processBatch i.1 i.2 db = .ok db')
      (fun db i => BatchCounts .liquid i.1 i.2 db) {}
        [({}, depositBatch "processed"), ({}, depositBatch "finalized")] db₂ := by
    refine .next (.next .start ?_ h₁) ?_ h₂
    · exact depositBatch_counts fun _ hr => absurd hr List.not_mem_nil
    · exact depositBatch_counts hpending
  exact ⟨db₂, hrun, hamount,
    processBatch_run_reconciledAt .liquid {} db₂ _ (reconciled_empty .liquid) hrun⟩

/-- The same batch twice: one event of 5 is stored, and the balance is 10. -/
theorem processBatch_counts_twice :
    ReconciledAt .liquid {} ∧
    ∃ db₁ db₂, processBatch {} (depositBatch "finalized") {} = .ok db₁ ∧
      processBatch {} (depositBatch "finalized") db₁ = .ok db₂ ∧
      amountOf db₂.balances (depositAccount.key .liquid) = 10 ∧
      BalanceKind.liquid.book.total db₂.balanceEvents.rows depositAccount = 5 ∧
      ¬ ReconciledAt .liquid db₂ := by
  obtain ⟨db₁, h₁, db₂, h₂, hamo, htotal⟩ :
      ∃ db₁, processBatch {} (depositBatch "finalized") {} = .ok db₁ ∧
      ∃ db₂, processBatch {} (depositBatch "finalized") db₁ = .ok db₂ ∧
        amountOf db₂.balances (depositAccount.key .liquid) = 10 ∧
        BalanceKind.liquid.book.total db₂.balanceEvents.rows depositAccount = 5 := by decide
  refine ⟨reconciled_empty .liquid, db₁, db₂, h₁, h₂, hamo, htotal, fun hrec => ?_⟩
  have heq := hrec depositAccount
  rw [hamo, htotal] at heq
  revert heq
  decide

end MultichainIndexer
