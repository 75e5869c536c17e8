import MultichainIndexer.Ingester.BatchFacts
import MultichainIndexer.Ingester.Promotion
import MultichainIndexer.Replay.Purge

/-!
# The ingester's loop

The ingester takes items from three channels: normalized batches, reorgs and
finality promotions. `select` may take any channel that has an item, so the
order of the three is open; within a channel it is the order of sending. An item
that fails ends the loop and leaves the database as it was, so that no step
stands for it. A rollback neither drains the batch channel nor marks its items.
-/

namespace MultichainIndexer

open Relational

/-- `handleReorg`. The replay service, where one is configured, has a block repository or not. -/
def handleReorg (env : IngestEnv) (replayService : Option Bool) (reorg : ReorgEvent) (db : Db) :
    Except String Db :=
  match replayService with
  | some blockRepo =>
    match purgeFromBlock blockRepo env.choice
        { chain := reorg.chain
          network := reorg.network
          fromBlock := reorg.forkBlockNumber
          force := true
          reason := "reorg: expected=" ++ reorg.expectedHash ++ " actual=" ++ reorg.actualHash }
        db with
    | .error e => .error ("reorg via replay service: " ++ e)
    | .ok (_, db) => .ok db
  | none =>
    let rollbackEvents := eventsFrom reorg.chain reorg.network reorg.forkBlockNumber db
    let reversalItems := buildReversalAdjustItems rollbackEvents
    if reversalItems.isEmpty then
      .ok (deleteAndRewind reorg.chain reorg.network reorg.forkBlockNumber env.blockRepo db)
    else
      match bulkAdjustBalanceTx reorg.chain reorg.network env.choice reversalItems db.balances with
      | .error e => .error ("revert balances: " ++ e)
      | .ok balances =>
        .ok (deleteAndRewind reorg.chain reorg.network reorg.forkBlockNumber env.blockRepo
          { db with balances := balances })

variable {env : IngestEnv} {replayService : Option Bool}

/-- Whatever way it goes, a rollback deletes and rewinds from the fork block. -/
theorem handleReorg_ok {reorg : ReorgEvent} {db db' : Db}
    (h : handleReorg env replayService reorg db = .ok db') :
    ∃ blockRepo balances, db' = deleteAndRewind reorg.chain reorg.network reorg.forkBlockNumber
      blockRepo { db with balances := balances } := by
  unfold handleReorg at h
  split at h
  · rename_i blockRepo
    split at h
    · cases h
    · rename_i res u hpurge
      cases h
      obtain ⟨_, t, _, _, rfl⟩ := purge_ok rfl hpurge
      exact ⟨blockRepo, t, rfl⟩
  · simp only at h
    split at h
    · cases h
      exact ⟨env.blockRepo, db.balances, rfl⟩
    · split at h
      · cases h
      · rename_i balances _
        cases h
        exact ⟨env.blockRepo, balances, rfl⟩

structure LoopState where
  db : Db
  normalizedCh : List NormalizedBatch := []
  reorgCh : List ReorgEvent := []
  finalityCh : List FinalityPromotion := []

/-- What may happen next: the loop takes an item, or another stage sends one. -/
inductive LoopAction where
  | takeBatch
  | takeReorg
  | takeFinality
  | sendBatch (batch : NormalizedBatch)
  | sendReorg (reorg : ReorgEvent)
  | sendFinality (promo : FinalityPromotion)

def takeFrom {ι : Type} (ch : List ι) (handle : ι → Except String Db) : Option (Db × List ι) :=
  match ch with
  | [] => none
  | i :: rest =>
    match handle i with
    | .error _ => none
    | .ok db => some (db, rest)

theorem takeFrom_some {ι : Type} {ch rest : List ι} {handle : ι → Except String Db} {db : Db}
    (h : takeFrom ch handle = some (db, rest)) : ∃ i, ch = i :: rest ∧ handle i = .ok db := by
  unfold takeFrom at h
  split at h
  · cases h
  · rename_i i _
    split at h
    · cases h
    · rename_i hok
      cases h
      exact ⟨i, rfl, hok⟩

def LoopState.step (env : IngestEnv) (replayService : Option Bool) (s : LoopState) :
    LoopAction → Option LoopState
  | .takeBatch => (takeFrom s.normalizedCh fun batch => processBatch env batch s.db).map fun r =>
      { s with db := r.1, normalizedCh := r.2 }
  | .takeReorg => (takeFrom s.reorgCh fun reorg => handleReorg env replayService reorg s.db).map
      fun r => { s with db := r.1, reorgCh := r.2 }
  | .takeFinality => (takeFrom s.finalityCh fun promo =>
      handleFinalityPromotion env.blockRepo env.choice promo s.db).map
      fun r => { s with db := r.1, finalityCh := r.2 }
  | .sendBatch batch => some { s with normalizedCh := s.normalizedCh ++ [batch] }
  | .sendReorg reorg => some { s with reorgCh := s.reorgCh ++ [reorg] }
  | .sendFinality promo => some { s with finalityCh := s.finalityCh ++ [promo] }

theorem LoopState.takeReorg_some {s s' : LoopState}
    (h : s.step env replayService .takeReorg = some s') :
    ∃ reorg rest db, s.reorgCh = reorg :: rest ∧
      handleReorg env replayService reorg s.db = .ok db ∧
      s' = { s with db := db, reorgCh := rest } := by
  unfold LoopState.step at h
  obtain ⟨⟨db, rest⟩, htake, rfl⟩ := Option.map_eq_some_iff.mp h
  obtain ⟨reorg, hq, hok⟩ := takeFrom_some htake
  exact ⟨reorg, rest, db, hq, hok, rfl⟩

theorem LoopState.step_cases {s s' : LoopState} {act : LoopAction}
    (h : s.step env replayService act = some s') :
    (∃ batch rest, act = .takeBatch ∧ s.normalizedCh = batch :: rest ∧
      processBatch env batch s.db = .ok s'.db) ∨
    (∃ reorg rest, act = .takeReorg ∧ s.reorgCh = reorg :: rest ∧
      handleReorg env replayService reorg s.db = .ok s'.db) ∨
    (∃ promo rest, act = .takeFinality ∧ s.finalityCh = promo :: rest ∧
      handleFinalityPromotion env.blockRepo env.choice promo s.db = .ok s'.db) ∨
    s'.db = s.db := by
  cases act with
  | takeBatch =>
    obtain ⟨⟨db, rest⟩, htake, rfl⟩ := Option.map_eq_some_iff.mp h
    obtain ⟨batch, hq, hok⟩ := takeFrom_some htake
    exact .inl ⟨batch, rest, rfl, hq, hok⟩
  | takeReorg =>
    obtain ⟨reorg, rest, db, hq, hok, rfl⟩ := LoopState.takeReorg_some h
    exact .inr (.inl ⟨reorg, rest, rfl, hq, hok⟩)
  | takeFinality =>
    obtain ⟨⟨db, rest⟩, htake, rfl⟩ := Option.map_eq_some_iff.mp h
    obtain ⟨promo, hq, hok⟩ := takeFrom_some htake
    exact .inr (.inr (.inl ⟨promo, rest, rfl, hq, hok⟩))
  | sendBatch batch =>
    cases h
    exact .inr (.inr (.inr rfl))
  | sendReorg reorg =>
    cases h
    exact .inr (.inr (.inr rfl))
  | sendFinality promo =>
    cases h
    exact .inr (.inr (.inr rfl))

end MultichainIndexer
