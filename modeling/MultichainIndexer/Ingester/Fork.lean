import MultichainIndexer.Ingester.Loop
import MultichainIndexer.Ingester.Reconcile

/-!
# After a rollback

Once a reorg is rolled back, nothing of its chain and network is stored from the
fork block on. The loop keeps it that way as long as the batches it takes end
below the fork and no later reorg forks above it. A batch that was queued before
the rollback and reaches the fork undoes it: nothing in the loop holds it back.
-/

namespace MultichainIndexer

open Relational

/-- Nothing of a chain and network is stored from the fork block on. -/
structure RolledBack (chain : Chain) (network : Network) (fork : Int) (db : Db) : Prop where
  events : ∀ r ∈ db.balanceEvents.rows, r.isFrom chain network fork = false
  watermark : ∃ w, db.watermarks chain network = some w ∧ w < fork

/-- A batch that stays below the fork. One of another chain or network has only to keep off the
stored event ids, which the upsert tells apart by nothing else. -/
structure BelowFork (chain : Chain) (network : Network) (fork : Int) (batch : NormalizedBatch)
    (db : Db) : Prop where
  own : batch.chain = chain → batch.network = network →
    0 ≤ batch.newCursorSequence ∧ batch.newCursorSequence < fork ∧
      ∀ ntx ∈ batch.transactions, ntx.blockCursor < fork
  foreign : ¬ (batch.chain = chain ∧ batch.network = network) →
    ∀ ec ∈ batchEvents batch, ec.be.eventID ≠ "" → ∀ r ∈ db.balanceEvents.rows,
      r.chain = chain → r.network = network → r.eventID ≠ ec.be.eventID

theorem isFrom_eq_false {r : BalanceEventRow} {chain : Chain} {network : Network} {fork : Int} :
    r.isFrom chain network fork = false ↔
      (r.chain = chain → r.network = network → r.blockCursor < fork) := by
  unfold BalanceEventRow.isFrom
  rw [decide_eq_false_iff_not]
  constructor
  · intro h hc hn
    by_contra hlt
    exact h ⟨hc, hn, by omega⟩
  · rintro h ⟨hc, hn, hle⟩
    have := h hc hn
    omega

theorem rollbackWatermark_lt {fromBlock fork : Int} (hlo : -2 ^ 63 < fromBlock)
    (hle : fromBlock ≤ fork) (hfork : 1 ≤ fork) (hint : IsInt64 fork) :
    rollbackWatermark fromBlock < fork := by
  obtain ⟨_, hhi⟩ := hint
  have hw : wrap64 (fromBlock - 1) = fromBlock - 1 := wrap64_of_isInt64 ⟨by omega, by omega⟩
  simp only [rollbackWatermark, hw]
  split
  · omega
  · omega

section Cursor
variable {batch : NormalizedBatch}

theorem rollbackBTCEarliest_some {earliest : Int}
    (h : rollbackBTCEarliestCompetingSequence batch = some earliest) :
    0 < earliest ∧ earliest < batch.newCursorSequence := by
  have hfold : ∀ (l : List NormalizedTransaction) (e : Int), 0 ≤ e →
      0 ≤ l.foldl (fun earliest tx =>
        if tx.blockCursor ≤ 0 then earliest
        else if earliest = 0 || tx.blockCursor < earliest then tx.blockCursor else earliest) e := by
    intro l
    induction l with
    | nil => exact fun e he => he
    | cons tx l ih =>
      intro e he
      refine ih _ ?_
      simp only
      split
      · exact he
      · split
        · omega
        · exact he
  unfold rollbackBTCEarliestCompetingSequence at h
  split at h
  · cases h
  · simp only at h
    split at h
    · cases h
    · rename_i hcond
      cases h
      have hpos := hfold batch.transactions 0 (Int.le_refl 0)
      rw [Bool.or_eq_true, decide_eq_true_eq, decide_eq_true_eq, not_or] at hcond
      omega

theorem rollbackFork_le (hback : rollsBack batch = true) (hnew : 0 ≤ batch.newCursorSequence) :
    0 ≤ rollbackForkCursorSequence batch ∧
      rollbackForkCursorSequence batch ≤ batch.newCursorSequence := by
  have hdrift : batch.newCursorSequence ≤ batch.previousCursorSequence := by
    simp only [rollsBack, Bool.and_eq_true] at hback
    have hd := hback.1
    unfold isCanonicalityDrift at hd
    split at hd
    · split at hd
      · cases hd
      · split at hd
        · omega
        · simp only [Bool.and_eq_true, decide_eq_true_eq] at hd
          omega
    · cases hd
  unfold rollbackForkCursorSequence
  split
  · split
    · rename_i floor hfloor
      have := rollbackBTCEarliest_some hfloor
      omega
    · omega
  · omega

theorem rollbackFork_withRollbackForkCursor (hback : rollsBack batch = true)
    (hnew : 0 ≤ batch.newCursorSequence) :
    rollbackForkCursorSequence (withRollbackForkCursor batch) = rollbackForkCursorSequence batch := by
  have hle := (rollbackFork_le hback hnew).2
  have hcond : ¬ (withRollbackForkCursor batch).newCursorSequence <
      (withRollbackForkCursor batch).previousCursorSequence := by
    show ¬ batch.newCursorSequence < rollbackForkCursorSequence batch
    omega
  exact if_neg hcond

end Cursor

section Steps
variable {chain : Chain} {network : Network} {fork : Int} {env : IngestEnv}
variable {batch : NormalizedBatch} {db db' : Db}

/-- A batch of another chain or network that keeps off the stored ids adds no row of this one and
changes none. -/
theorem Written.foreign_rows {addrMap : Option (List WatchedAddress)} {pre : Prefetched}
    {st : BuildState} {kept : List EventContext} {vs : List EventValues}
    (hw : Written env batch db db' addrMap pre st kept vs)
    (hown : ¬ (batch.chain = chain ∧ batch.network = network))
    (hids : ∀ ec ∈ batchEvents batch, ec.be.eventID ≠ "" → ∀ r ∈ db.balanceEvents.rows,
      r.chain = chain → r.network = network → r.eventID ≠ ec.be.eventID) :
    ∀ r ∈ db'.balanceEvents.rows, r.chain = chain ∧ r.network = network →
      r ∈ db.balanceEvents.rows := by
  refine hw.wrote.forall_rows (fun r hr _ => hr) ?_ ?_
  · intro v hv rows hkey
    obtain ⟨_, _, _, _, _, _, _, hm⟩ := hw.exists_event v hv
    refine absurd ?_ hown
    have hc : v.event.chain = chain := hkey.1
    have hn : v.event.network = network := hkey.2
    rw [hm] at hc hn
    exact ⟨hc, hn⟩
  · intro v hv r k hk hrk hr hkey
    obtain ⟨ec, hec, hb⟩ := hw.exists_event v hv
    have hk : v.eventKey = some k := hk
    rw [EventValues.eventKey_eq_some, hb.eventID] at hk
    rw [BalanceEventRow.eventKey_eq_some] at hrk
    exact absurd (hrk.2.trans hk.2.symm) (hids ec hec hk.1 r (hr hkey) hkey.1 hkey.2)

theorem ingestBatch_events (h : RolledBack chain network fork db)
    (hbelow : BelowFork chain network fork batch db) (hin : ingestBatch env batch db = .ok db') :
    ∀ r ∈ db'.balanceEvents.rows, r.isFrom chain network fork = false := by
  obtain ⟨addrMap, pre, prefetched, st, hby⟩ := ingestBatch_ok hin
  obtain ⟨kept, vs, hw⟩ := hby.written
  by_cases hown : batch.chain = chain ∧ batch.network = network
  · have hcur : ∀ v ∈ vs, v.event.blockCursor < fork := by
      intro v hv
      obtain ⟨ec, hec, _, _, _, _, _, hm⟩ := hw.exists_event v hv
      rw [hm]
      exact (hbelow.own hown.1 hown.2).2.2 ec.ntx (mem_batchEvents hec).1
    refine hw.wrote.forall_rows h.events ?_ ?_
    · exact fun v hv rows => isFrom_eq_false.mpr fun _ _ => hcur v hv
    · intro v hv r _ _ _ hr
      rw [isFrom_eq_false] at hr ⊢
      intro hc hn
      exact max_lt (hr hc hn) (hcur v hv)
  · intro r hr
    rw [isFrom_eq_false]
    intro hc hn
    have hold := hw.foreign_rows hown (hbelow.foreign hown) r hr ⟨hc, hn⟩
    exact isFrom_eq_false.mp (h.events r hold) hc hn

theorem ingestBatch_rolledBack (h : RolledBack chain network fork db)
    (hbelow : BelowFork chain network fork batch db) (hin : ingestBatch env batch db = .ok db') :
    RolledBack chain network fork db' := by
  refine ⟨ingestBatch_events h hbelow hin, ?_⟩
  obtain ⟨_, _, _, _, hby⟩ := ingestBatch_ok hin
  obtain ⟨w, hw, hlt⟩ := h.watermark
  rw [hby.watermarks]
  by_cases hown : batch.chain = chain ∧ batch.network = network
  · obtain ⟨rfl, rfl⟩ := hown
    have hnew := (hbelow.own rfl rfl).2.1
    refine ⟨max w batch.newCursorSequence, ?_, max_lt hlt hnew⟩
    unfold updateWatermarkTx
    rw [setWatermark_self, hw]
  · refine ⟨w, ?_, hlt⟩
    unfold updateWatermarkTx
    rw [setWatermark_other _ _ (fun hc => hown ⟨hc.1.symm, hc.2.symm⟩), hw]

theorem drifted_rolledBack (hfork : 1 ≤ fork) (hint : IsInt64 fork)
    (h : RolledBack chain network fork db) (hback : rollsBack batch = true)
    (hbelow : BelowFork chain network fork batch db)
    (hdrift : DriftedBy env (withRollbackForkCursor batch) db db') :
    RolledBack chain network fork db' := by
  refine ⟨fun r hr => ?_, ?_⟩
  · rw [hdrift.balanceEvents] at hr
    exact h.events r (List.mem_filter.mp hr).1
  · obtain ⟨w, hw, hlt⟩ := h.watermark
    rw [hdrift.watermarks]
    by_cases hown : batch.chain = chain ∧ batch.network = network
    · obtain ⟨rfl, rfl⟩ := hown
      obtain ⟨hnew, hlt', _⟩ := hbelow.own rfl rfl
      obtain ⟨hlo, hle⟩ := rollbackFork_le hback hnew
      refine ⟨_, setWatermark_self _ _ _ _, ?_⟩
      rw [rollbackFork_withRollbackForkCursor hback hnew]
      exact rollbackWatermark_lt (by omega) (by omega) hfork hint
    · refine ⟨w, ?_, hlt⟩
      have hother : ¬ (chain = (withRollbackForkCursor batch).chain ∧
          network = (withRollbackForkCursor batch).network) :=
        fun hc => hown ⟨hc.1.symm, hc.2.symm⟩
      unfold rewindWatermarkTx
      rw [setWatermark_other _ _ hother, hw]

theorem processBatch_rolledBack (hfork : 1 ≤ fork) (hint : IsInt64 fork)
    (h : RolledBack chain network fork db) (hbelow : BelowFork chain network fork batch db)
    (hok : processBatch env batch db = .ok db') : RolledBack chain network fork db' := by
  have hcanon : BelowFork chain network fork (canonicalizeCursors batch) db :=
    ⟨hbelow.own, hbelow.foreign⟩
  rcases processBatch_cases hok with ⟨_, hin⟩ | ⟨u, hback, hdrift, hrest⟩
  · exact ingestBatch_rolledBack h hcanon hin
  · have hu := drifted_rolledBack hfork hint h hback hcanon hdrift
    rcases hrest with ⟨_, hin⟩ | ⟨_, rfl⟩
    · refine ingestBatch_rolledBack hu ⟨hcanon.own, fun hown ec hec hne r hr => ?_⟩ hin
      rw [hdrift.balanceEvents] at hr
      exact hcanon.foreign hown ec hec hne r (List.mem_filter.mp hr).1
    · exact hu

/-- A rollback leaves nothing from its fork block on, and a later one that forks no higher keeps
an earlier one. -/
theorem handleReorg_rolledBack {replayService : Option Bool} {reorg : ReorgEvent}
    (hok : handleReorg env replayService reorg db = .ok db')
    (hown : reorg.chain = chain → reorg.network = network →
      rollbackWatermark reorg.forkBlockNumber < fork)
    (h : RolledBack chain network fork db ∨
      reorg.chain = chain ∧ reorg.network = network ∧ reorg.forkBlockNumber = fork) :
    RolledBack chain network fork db' := by
  obtain ⟨blockRepo, balances, rfl⟩ := handleReorg_ok hok
  refine ⟨fun r hr => ?_, ?_⟩
  · rw [deleteAndRewind_balanceEvents] at hr
    obtain ⟨hmem, hnot⟩ := List.mem_filter.mp hr
    rcases h with h | ⟨rfl, rfl, rfl⟩
    · exact h.events r hmem
    · simpa using hnot
  · rw [deleteAndRewind_watermarks]
    by_cases hkey : chain = reorg.chain ∧ network = reorg.network
    · exact ⟨_, if_pos hkey, hown hkey.1.symm hkey.2.symm⟩
    · rcases h with h | ⟨rfl, rfl, _⟩
      · obtain ⟨w, hw, hlt⟩ := h.watermark
        exact ⟨w, (if_neg hkey).trans hw, hlt⟩
      · exact absurd ⟨rfl, rfl⟩ hkey

theorem handleFinalityPromotion_rolledBack {promo : FinalityPromotion}
    (h : RolledBack chain network fork db)
    (hok : handleFinalityPromotion env.blockRepo env.choice promo db = .ok db') :
    RolledBack chain network fork db' := by
  obtain ⟨t, _, rfl⟩ := handleFinalityPromotion_iff.mp hok
  refine ⟨fun r hr => ?_, ?_⟩
  · obtain ⟨s', hs', rfl⟩ := List.mem_map.mp hr
    obtain ⟨s, hs, rfl⟩ := List.mem_map.mp hs'
    obtain ⟨state, hstate⟩ := finalize_frame promo.chain promo.network promo.newFinalizedBlock s
    rw [hstate]
    unfold BalanceEventRow.promote
    split
    · exact h.events s hs
    · exact h.events s hs
  · exact h.watermark

end Steps

section Loop
variable {chain : Chain} {network : Network} {fork : Int}

/-- What keeps a rollback in place: a batch that is taken stays below the fork, and a reorg of the
chain and network that is taken forks no higher. -/
def LoopState.StaysBelow (chain : Chain) (network : Network) (fork : Int) (s : LoopState) :
    LoopAction → Prop
  | .takeBatch => ∀ batch ∈ s.normalizedCh.head?, BelowFork chain network fork batch s.db
  | .takeReorg => ∀ reorg ∈ s.reorgCh.head?, reorg.chain = chain → reorg.network = network →
      -2 ^ 63 < reorg.forkBlockNumber ∧ reorg.forkBlockNumber ≤ fork
  | _ => True

theorem LoopState.step_rolledBack (hfork : 1 ≤ fork) (hint : IsInt64 fork) {env : IngestEnv}
    {replayService : Option Bool} {s s' : LoopState} {act : LoopAction}
    (h : RolledBack chain network fork s.db) (hok : s.StaysBelow chain network fork act)
    (hstep : s.step env replayService act = some s') : RolledBack chain network fork s'.db := by
  rcases LoopState.step_cases hstep with ⟨batch, rest, rfl, hq, hb⟩ | ⟨reorg, rest, rfl, hq, hr⟩ |
    ⟨promo, rest, rfl, hq, hp⟩ | hsame
  · exact processBatch_rolledBack hfork hint h (hok batch (by rw [hq]; rfl)) hb
  · refine handleReorg_rolledBack hr (fun hc hn => ?_) (.inl h)
    obtain ⟨hlo, hle⟩ := hok reorg (by rw [hq]; rfl) hc hn
    exact rollbackWatermark_lt hlo hle hfork hint
  · exact handleFinalityPromotion_rolledBack h hp
  · rw [hsame]
    exact h

/-- Once a rollback has committed, every run of the loop whose steps stay below its fork keeps it:
no event is stored from the fork on, and the watermark is below it. -/
theorem rollback_run_rolledBack (replayService : Option Bool) (env : IngestEnv) (reorg : ReorgEvent)
    (s s₁ s' : LoopState) (acts : List LoopAction) (hfork : 1 ≤ reorg.forkBlockNumber)
    (hint : IsInt64 reorg.forkBlockNumber) (hreorg : s.reorgCh.head? = some reorg)
    (hrollback : s.step env replayService .takeReorg = some s₁)
    (hrun : Runs.Run (fun t act t' => ∃ env, t.step env replayService act = some t')
      (LoopState.StaysBelow reorg.chain reorg.network reorg.forkBlockNumber) s₁ acts s') :
    RolledBack reorg.chain reorg.network reorg.forkBlockNumber s'.db := by
  have hfirst : RolledBack reorg.chain reorg.network reorg.forkBlockNumber s₁.db := by
    obtain ⟨head, rest, db, hq, hok, rfl⟩ := LoopState.takeReorg_some hrollback
    rw [hq] at hreorg
    cases hreorg
    refine handleReorg_rolledBack hok (fun _ _ => ?_) (.inr ⟨rfl, rfl, rfl⟩)
    exact rollbackWatermark_lt (by omega) (Int.le_refl _) hfork hint
  refine hrun.invariant (P := fun t => RolledBack _ _ _ t.db) hfirst fun t act t' ht hok hstep => ?_
  obtain ⟨env', hstep⟩ := hstep
  exact LoopState.step_rolledBack hfork hint ht hok hstep

def depositReorg (fork : Int) : ReorgEvent where
  chain := .ethereum
  network := .mainnet
  forkBlockNumber := fork

def queuedDeposit (fork : Int) : LoopState where
  db := {}
  normalizedCh := [depositBatch "finalized"]
  reorgCh := [depositReorg fork]

/-- A fork above the queued batch stays rolled back when the batch is taken. -/
theorem rollback_run_rolledBack_above :
    ∃ s₁ s', (queuedDeposit 11).step {} none .takeReorg = some s₁ ∧
      Runs.Run (fun t act t' => ∃ env, LoopState.step env none t act = some t')
        (LoopState.StaysBelow .ethereum .mainnet 11) s₁ [.takeBatch] s' ∧
      RolledBack .ethereum .mainnet 11 s'.db := by
  have heval : ((queuedDeposit 11).step {} none .takeReorg).bind (fun s₁ =>
      (s₁.step {} none .takeBatch).map fun _ => ()) = some () := by decide
  obtain ⟨s₁, h₁, h⟩ := Option.bind_eq_some_iff.mp heval
  obtain ⟨s', h', _⟩ := Option.map_eq_some_iff.mp h
  have hq : s₁.normalizedCh = [depositBatch "finalized"] := by
    obtain ⟨_, _, _, _, _, rfl⟩ := LoopState.takeReorg_some h₁
    rfl
  have hrun : Runs.Run (fun t act t' => ∃ env, LoopState.step env none t act = some t')
      (LoopState.StaysBelow .ethereum .mainnet 11) s₁ [.takeBatch] s' := by
    refine .next .start (fun batch hb => ?_) ⟨{}, h'⟩
    rw [hq] at hb
    cases hb
    refine ⟨fun _ _ => ⟨by decide, by decide, by decide⟩, fun hother => ?_⟩
    exact absurd ⟨rfl, rfl⟩ hother
  refine ⟨s₁, s', h₁, hrun, ?_⟩
  exact rollback_run_rolledBack none {} (depositReorg 11) (queuedDeposit 11) s₁ s' [.takeBatch]
    (by decide) (by decide) rfl h₁ hrun

/-- A fork at the queued batch does not: once the batch is taken, its event is stored and the
watermark is the fork block again. -/
theorem rollback_undone :
    ∃ s₁ s₂, (queuedDeposit 10).step {} none .takeReorg = some s₁ ∧
      RolledBack .ethereum .mainnet 10 s₁.db ∧
      s₁.step {} none .takeBatch = some s₂ ∧
      (∃ r ∈ s₂.db.balanceEvents.rows, r.isFrom .ethereum .mainnet 10 = true) ∧
      s₂.db.watermarks .ethereum .mainnet = some 10 := by
  have heval : ((queuedDeposit 10).step {} none .takeReorg).bind (fun s₁ =>
      (s₁.step {} none .takeBatch).map fun s₂ =>
        (s₁.db.balanceEvents.rows.isEmpty, s₁.db.watermarks .ethereum .mainnet,
          s₂.db.balanceEvents.rows.any (·.isFrom .ethereum .mainnet 10),
          s₂.db.watermarks .ethereum .mainnet)) = some (true, some 9, true, some 10) := by decide
  obtain ⟨s₁, h₁, h⟩ := Option.bind_eq_some_iff.mp heval
  obtain ⟨s₂, h₂, h⟩ := Option.map_eq_some_iff.mp h
  simp only [Prod.mk.injEq] at h
  obtain ⟨hempty, hw₁, hany, hw₂⟩ := h
  refine ⟨s₁, s₂, h₁, ⟨fun r hr => ?_, 9, hw₁, by decide⟩, h₂, List.any_eq_true.mp hany, hw₂⟩
  rw [List.isEmpty_iff.mp hempty] at hr
  cases hr

end Loop

end MultichainIndexer
