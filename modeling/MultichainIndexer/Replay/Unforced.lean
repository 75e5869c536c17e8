import MultichainIndexer.Ingester.FinalityRank
import MultichainIndexer.Ingester.Fork

/-!
# Purges without force

A purge that is not forced is refused where the block it starts from is indexed
and final. The blocks above it are deleted unseen, and a block that is not
indexed, or no longer, is not guarded at all. What does protect final events is
the history of the database: a purge from a block above all that was ingested
or promoted as final deletes nothing final.
-/

namespace MultichainIndexer

open Relational

/-- A database with the height that was promoted last for each chain and network. -/
structure History where
  db : Db := {}
  promoted : Chain → Network → Option Int := fun _ _ => none

inductive HistoryAction where
  | ingest (env : IngestEnv) (batch : NormalizedBatch)
  | promote (blockRepo : Bool) (choice : RowChoice BulkAdjustItem) (promo : FinalityPromotion)
  | prune (chain : Chain) (network : Network) (beforeBlock : Int)

def History.promotedTo (s : History) (promo : FinalityPromotion) (db : Db) : History where
  db := db
  promoted c n :=
    if c = promo.chain ∧ n = promo.network then some promo.newFinalizedBlock else s.promoted c n

def History.step (s : History) : HistoryAction → Except String History
  | .ingest env batch => (processBatch env batch s.db).map fun db => { s with db := db }
  | .promote blockRepo choice promo =>
    (handleFinalityPromotion blockRepo choice promo s.db).map (s.promotedTo promo)
  | .prune chain network beforeBlock =>
    .ok { s with db := purgeFinalizedBefore chain network beforeBlock s.db }

/-- The final rows of a chain and network are below a block. -/
def FinalRowsBelow (chain : Chain) (network : Network) (block : Int)
    (rows : List BalanceEventRow) : Prop :=
  ∀ r ∈ rows, r.chain = chain → r.network = network → r.finalityState = "finalized" →
    r.blockCursor < block

/-- Everything final of a chain and network is below a block. -/
structure History.FinalBelow (chain : Chain) (network : Network) (block : Int) (s : History) :
    Prop where
  events : FinalRowsBelow chain network block s.db.balanceEvents.rows
  promoted : ∀ b, s.promoted chain network = some b → b < block

/-- A batch whose final events are below a block, as are the events and the stored rows that share
their ids. One of another chain or network has only to keep off the stored event ids. -/
structure FinalizesBelow (chain : Chain) (network : Network) (block : Int)
    (batch : NormalizedBatch) (db : Db) : Prop where
  own : batch.chain = chain → batch.network = network → ∀ ec ∈ batchEvents batch,
    ec.be.finalityState = "finalized" → ec.ntx.blockCursor < block ∧ (ec.be.eventID ≠ "" →
      (∀ ec' ∈ batchEvents batch, ec'.be.eventID = ec.be.eventID → ec'.ntx.blockCursor < block) ∧
      ∀ r ∈ db.balanceEvents.rows, r.chain = chain → r.network = network →
        r.eventID = ec.be.eventID → r.blockCursor < block)
  foreign : ¬ (batch.chain = chain ∧ batch.network = network) →
    ∀ ec ∈ batchEvents batch, ec.be.eventID ≠ "" → ∀ r ∈ db.balanceEvents.rows,
      r.chain = chain → r.network = network → r.eventID ≠ ec.be.eventID

/-- What keeps everything final below a block. -/
def History.StaysFinalBelow (chain : Chain) (network : Network) (block : Int) (s : History) :
    HistoryAction → Prop
  | .ingest _ batch => FinalizesBelow chain network block batch s.db
  | .promote _ _ promo => promo.chain = chain → promo.network = network →
      promo.newFinalizedBlock < block
  | .prune _ _ _ => True

section Steps
variable {chain : Chain} {network : Network} {block : Int} {env : IngestEnv}
variable {batch : NormalizedBatch} {db db' : Db}

theorem ingestBatch_finalBelow (h : FinalRowsBelow chain network block db.balanceEvents.rows)
    (hbelow : FinalizesBelow chain network block batch db)
    (hin : ingestBatch env batch db = .ok db') :
    FinalRowsBelow chain network block db'.balanceEvents.rows := by
  obtain ⟨addrMap, pre, prefetched, st, hby⟩ := ingestBatch_ok hin
  obtain ⟨kept, vs, hw⟩ := hby.written
  by_cases hown : batch.chain = chain ∧ batch.network = network
  · have hown := hbelow.own hown.1 hown.2
    -- a row under the id of a final event has to stay below the block as well, since the event
    -- makes it final
    have hrows : ∀ r ∈ db'.balanceEvents.rows, r.chain = chain → r.network = network →
        (r.finalityState = "finalized" → r.blockCursor < block) ∧
        ((∃ ec ∈ batchEvents batch, ec.be.finalityState = "finalized" ∧ ec.be.eventID ≠ "" ∧
          r.eventID = ec.be.eventID) → r.blockCursor < block) := by
      refine hw.wrote.forall_rows ?_ ?_ ?_
      · intro r hr hc hn
        refine ⟨h r hr hc hn, ?_⟩
        rintro ⟨ec, hec, hfinal, hid, heq⟩
        exact ((hown ec hec hfinal).2 hid).2 r hr hc hn heq
      · intro v hv rows _ _
        obtain ⟨ec, hec, hb⟩ := hw.exists_event v hv
        obtain ⟨hcur, hstate⟩ := hb.placed
        refine ⟨fun hfinal => hcur.trans_lt (hown ec hec (hstate.symm.trans hfinal)).1, ?_⟩
        rintro ⟨ec', hec', hfinal, hne, heq⟩
        exact hcur.trans_lt (((hown ec' hec' hfinal).2 hne).1 ec hec (hb.eventID.symm.trans heq))
      · intro v hv r k hk hrk hr hc hn
        obtain ⟨ec, hec, hb⟩ := hw.exists_event v hv
        have hk : v.eventKey = some k := hk
        rw [EventValues.eventKey_eq_some, hb.eventID] at hk
        rw [BalanceEventRow.eventKey_eq_some] at hrk
        have hsame : r.eventID = ec.be.eventID := hrk.2.trans hk.2.symm
        obtain ⟨hcur, hstate⟩ := hb.placed
        have hboth : (∃ ec' ∈ batchEvents batch, ec'.be.finalityState = "finalized" ∧
            ec'.be.eventID ≠ "" ∧ r.eventID = ec'.be.eventID) →
            max r.blockCursor v.event.blockCursor < block := by
          rintro ⟨ec', hec', hfinal, hne, heq⟩
          refine max_lt ((hr hc hn).2 ⟨ec', hec', hfinal, hne, heq⟩) ?_
          rw [hcur]
          exact ((hown ec' hec' hfinal).2 hne).1 ec hec (hsame.symm.trans heq)
        refine ⟨fun hfinal => hboth ⟨ec, hec, ?_, hk.1, hsame⟩, hboth⟩
        exact hstate.symm.trans hfinal
    intro r hr hc hn
    exact (hrows r hr hc hn).1
  · intro r hr hc hn
    exact h r (hw.foreign_rows hown (hbelow.foreign hown) r hr ⟨hc, hn⟩) hc hn

theorem processBatch_finalBelow (h : FinalRowsBelow chain network block db.balanceEvents.rows)
    (hbelow : FinalizesBelow chain network block batch db)
    (hok : processBatch env batch db = .ok db') :
    FinalRowsBelow chain network block db'.balanceEvents.rows := by
  have hcanon : FinalizesBelow chain network block (canonicalizeCursors batch) db :=
    ⟨hbelow.own, hbelow.foreign⟩
  rcases processBatch_cases hok with ⟨_, hin⟩ | ⟨u, _, hdrift, hrest⟩
  · exact ingestBatch_finalBelow h hcanon hin
  · have hsub : ∀ r ∈ u.balanceEvents.rows, r ∈ db.balanceEvents.rows := by
      intro r hr
      rw [hdrift.balanceEvents] at hr
      exact (List.mem_filter.mp hr).1
    have hu : FinalRowsBelow chain network block u.balanceEvents.rows :=
      fun r hr => h r (hsub r hr)
    rcases hrest with ⟨_, hin⟩ | ⟨_, rfl⟩
    · refine ingestBatch_finalBelow hu ⟨?_, ?_⟩ hin
      · intro hc hn ec hec hfinal
        obtain ⟨hlt, hids⟩ := hcanon.own hc hn ec hec hfinal
        exact ⟨hlt, fun hne => ⟨(hids hne).1, fun r hr => (hids hne).2 r (hsub r hr)⟩⟩
      · intro hown ec hec hne r hr
        exact hcanon.foreign hown ec hec hne r (hsub r hr)
    · exact hu

theorem promotion_finalBelow {blockRepo : Bool} {choice : RowChoice BulkAdjustItem}
    {promo : FinalityPromotion} (h : FinalRowsBelow chain network block db.balanceEvents.rows)
    (hbelow : promo.chain = chain → promo.network = network → promo.newFinalizedBlock < block)
    (hok : handleFinalityPromotion blockRepo choice promo db = .ok db') :
    FinalRowsBelow chain network block db'.balanceEvents.rows := by
  obtain ⟨t, _, rfl⟩ := handleFinalityPromotion_iff.mp hok
  -- a finalized row was final before, or the promotion is past it
  have hfin : FinalRowsBelow chain network block (db.balanceEvents.rows.map
      (BalanceEventRow.finalize promo.chain promo.network promo.newFinalizedBlock)) := by
    intro r hr
    obtain ⟨s, hs, rfl⟩ := List.mem_map.mp hr
    unfold BalanceEventRow.finalize
    split
    · rename_i hup
      intro hc hn _
      simp only [BalanceEventRow.isUpTo, Bool.and_eq_true, decide_eq_true_eq] at hup
      obtain ⟨⟨⟨hpc, hpn, hle⟩, _⟩, _⟩ := hup
      have := hbelow (hpc.symm.trans hc) (hpn.symm.trans hn)
      exact Int.lt_of_le_of_lt hle this
    · exact h s hs
  intro r hr
  obtain ⟨s, hs, rfl⟩ := List.mem_map.mp hr
  unfold BalanceEventRow.promote
  split
  · exact hfin s hs
  · exact hfin s hs

theorem History.step_finalBelow {s s' : History} {act : HistoryAction}
    (h : s.FinalBelow chain network block) (hok : s.StaysFinalBelow chain network block act)
    (hstep : s.step act = .ok s') : s'.FinalBelow chain network block := by
  cases act with
  | ingest env batch =>
    obtain ⟨db', hproc, rfl⟩ := Result.map_ok hstep
    exact ⟨processBatch_finalBelow h.events hok hproc, h.promoted⟩
  | promote blockRepo choice promo =>
    obtain ⟨db', hpromo, rfl⟩ := Result.map_ok hstep
    refine ⟨promotion_finalBelow h.events hok hpromo, ?_⟩
    intro b hb
    simp only [History.promotedTo] at hb
    split at hb
    · rename_i hkey
      cases hb
      exact hok hkey.1.symm hkey.2.symm
    · exact h.promoted b hb
  | prune c n beforeBlock =>
    cases hstep
    exact ⟨h.events, h.promoted⟩

end Steps

section Purge
variable {blockRepo : Bool} {c : RowChoice BulkAdjustItem} {req : PurgeRequest} {db db' : Db}

/-- The block that the purge starts from is indexed and final. -/
def GuardsPurge (blockRepo : Bool) (req : PurgeRequest) (db : Db) : Prop :=
  blockRepo = true ∧ ∃ b, getByBlockNumber req.chain req.network req.fromBlock db = some b ∧
    b.finalityState = "finalized"

theorem purge_refused (hforce : req.force = false) (h : GuardsPurge blockRepo req db) :
    purgeFromBlock blockRepo c req db = .error errFinalizedBlock := by
  obtain ⟨hrepo, b, hb, hfinal⟩ := h
  unfold purgeFromBlock
  simp [hforce, hrepo, hb, hfinal]

theorem purge_deletes {res : PurgeResult} (h : purgeFromBlock blockRepo c req db = .ok (res, db'))
    {r : BalanceEventRow} (hr : r ∈ db.balanceEvents.rows) (hgone : r ∉ db'.balanceEvents.rows) :
    r.chain = req.chain ∧ r.network = req.network ∧ req.fromBlock ≤ r.blockCursor := by
  cases hdry : req.dryRun with
  | true =>
    unfold purgeFromBlock at h
    obtain ⟨_, h⟩ := Result.guard_ok h
    rw [hdry, if_pos rfl] at h
    cases h
    exact absurd hr hgone
  | false =>
    obtain ⟨_, _, _, _, rfl⟩ := purge_ok hdry h
    rw [deleteAndRewind_balanceEvents] at hgone
    by_contra hnot
    refine hgone (List.mem_filter.mpr ⟨hr, ?_⟩)
    rw [BalanceEventRow.isFrom, decide_eq_false hnot]
    rfl

/-- A purge without force deletes nothing final where its block is indexed and final, so that it is
refused, or where all steps of the history kept what is final below its block. -/
theorem run_purge_keepsFinal (blockRepo : Bool) (c : RowChoice BulkAdjustItem) (req : PurgeRequest)
    (s s' : History) (acts : List HistoryAction) (hforce : req.force = false)
    (hstart : s.FinalBelow req.chain req.network req.fromBlock)
    (h : GuardsPurge blockRepo req s'.db ∨ Runs.Run (fun t act t' => t.step act = .ok t')
      (History.StaysFinalBelow req.chain req.network req.fromBlock) s acts s') :
    (∃ e, purgeFromBlock blockRepo c req s'.db = .error e) ∨
      ∃ res db', purgeFromBlock blockRepo c req s'.db = .ok (res, db') ∧
        ∀ r ∈ s'.db.balanceEvents.rows, r ∉ db'.balanceEvents.rows →
          r.finalityState ≠ "finalized" ∧
            ∀ b, s'.promoted req.chain req.network = some b → b < r.blockCursor := by
  rcases h with hguard | hrun
  · exact .inl ⟨_, purge_refused hforce hguard⟩
  · have hbelow : s'.FinalBelow req.chain req.network req.fromBlock :=
      hrun.invariant hstart fun _ _ _ ht hok hstep => History.step_finalBelow ht hok hstep
    cases hpurge : purgeFromBlock blockRepo c req s'.db with
    | error e => exact .inl ⟨e, rfl⟩
    | ok p =>
      obtain ⟨res, db'⟩ := p
      refine .inr ⟨res, db', rfl, ?_⟩
      intro r hr hgone
      obtain ⟨hc, hn, hle⟩ := purge_deletes hpurge hr hgone
      constructor
      · intro hfinal
        have := hbelow.events r hr hc hn hfinal
        omega
      · intro b hb
        have := hbelow.promoted b hb
        omega

def purgeFrom (block : Int) : PurgeRequest where
  chain := .ethereum
  network := .mainnet
  fromBlock := block

/-- A purge from above the final deposit deletes nothing final. -/
theorem run_purge_keepsFinal_above :
    ∃ s', Runs.Run (fun t act t' => History.step t act = .ok t')
        (History.StaysFinalBelow .ethereum .mainnet 11) {} [.ingest {} (hashedDeposit "finalized")]
        s' ∧
      ((∃ e, purgeFromBlock true RowChoice.first (purgeFrom 11) s'.db = .error e) ∨
        ∃ res db', purgeFromBlock true RowChoice.first (purgeFrom 11) s'.db = .ok (res, db') ∧
          ∀ r ∈ s'.db.balanceEvents.rows, r ∉ db'.balanceEvents.rows →
            r.finalityState ≠ "finalized" ∧
              ∀ b, s'.promoted .ethereum .mainnet = some b → b < r.blockCursor) := by
  obtain ⟨s', hstep, _⟩ :
      ∃ s', History.step {} (.ingest {} (hashedDeposit "finalized")) = .ok s' ∧ True := by decide
  have hrun : Runs.Run (fun t act t' => History.step t act = .ok t')
      (History.StaysFinalBelow .ethereum .mainnet 11) {} [.ingest {} (hashedDeposit "finalized")]
      s' := by
    refine .next .start ⟨?_, fun hother => absurd ⟨rfl, rfl⟩ hother⟩ hstep
    intro _ _ ec hec _
    have hcur : ∀ ec ∈ batchEvents (hashedDeposit "finalized"), ec.ntx.blockCursor < 11 := by
      decide
    exact ⟨hcur ec hec, fun _ => ⟨fun ec' hec' _ => hcur ec' hec',
      fun r hr => absurd hr List.not_mem_nil⟩⟩
  refine ⟨s', hrun, run_purge_keepsFinal true RowChoice.first (purgeFrom 11) {} s' _ rfl ?_
    (.inr hrun)⟩
  exact ⟨fun r hr => absurd hr List.not_mem_nil, fun b hb => by cases hb⟩

/-- The deposit of block 10 is promoted as final and its block is indexed: a purge from block 10 is
refused, and one from block 9 deletes it. -/
theorem purge_deletes_final :
    ∃ s₁ s₂ res db', History.step {} (.ingest {} (hashedDeposit "confirmed")) = .ok s₁ ∧
      s₁.step (.promote true RowChoice.first (promoteTo 10)) = .ok s₂ ∧
      GuardsPurge true (purgeFrom 10) s₂.db ∧
      purgeFromBlock true RowChoice.first (purgeFrom 9) s₂.db = .ok (res, db') ∧
      s₂.promoted .ethereum .mainnet = some 10 ∧
      ∃ r ∈ s₂.db.balanceEvents.rows, r ∉ db'.balanceEvents.rows ∧
        r.finalityState = "finalized" ∧ r.blockCursor = 10 := by
  obtain ⟨s₁, h₁, s₂, h₂, ⟨res, db'⟩, hpurge, hblock, hpro, ⟨r, hr, hstate⟩, hempty⟩ :
      ∃ s₁, History.step {} (.ingest {} (hashedDeposit "confirmed")) = .ok s₁ ∧
      ∃ s₂, s₁.step (.promote true RowChoice.first (promoteTo 10)) = .ok s₂ ∧
      ∃ p, purgeFromBlock true RowChoice.first (purgeFrom 9) s₂.db = .ok p ∧
        (∃ b, getByBlockNumber .ethereum .mainnet 10 s₂.db = some b ∧
          b.finalityState = "finalized") ∧ s₂.promoted .ethereum .mainnet = some 10 ∧
        (∃ r ∈ s₂.db.balanceEvents.rows, r.finalityState = "finalized" ∧ r.blockCursor = 10) ∧
        p.2.balanceEvents.rows.isEmpty = true := by decide
  refine ⟨s₁, s₂, res, db', h₁, h₂, ⟨rfl, hblock⟩, hpurge, hpro, r, hr, ?_, hstate⟩
  rw [List.isEmpty_iff.mp hempty]
  exact List.not_mem_nil

end Purge

end MultichainIndexer
