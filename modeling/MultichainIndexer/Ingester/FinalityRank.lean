import MultichainIndexer.Ingester.Promotion
import MultichainIndexer.Ingester.Reconcile

/-!
# Finality over ingested batches and promotions

The upsert of balance events turns away a state that ranks below the stored
one, and a promotion only ever writes `finalized`. The upsert of indexed blocks
takes whatever state the batch has for the block: that of the first event of
its first hashed transaction, or `pending`. So no stored state loses rank in a
run exactly when no batch of it describes a stored block by a lower state.
-/

namespace MultichainIndexer

open Relational

/-- A transaction of the ingester that rolls nothing back. -/
inductive CommitAction where
  | ingest (env : IngestEnv) (batch : NormalizedBatch)
  | promote (blockRepo : Bool) (choice : RowChoice BulkAdjustItem) (promo : FinalityPromotion)

def CommitAction.commit (db : Db) : CommitAction → Except String Db
  | .ingest env batch => processBatch env batch db
  | .promote blockRepo choice promo => handleFinalityPromotion blockRepo choice promo db

def CommitAction.GoesForward : CommitAction → Prop
  | .ingest _ batch => rollsBack (canonicalizeCursors batch) = false
  | .promote _ _ _ => True

def NoLower (state state' : String) : Prop := finalityRank state ≤ finalityRank state'

instance (state state' : String) : Decidable (NoLower state state') :=
  inferInstanceAs (Decidable (_ ≤ _))

theorem NoLower.refl (state : String) : NoLower state state := Nat.le_refl _

theorem NoLower.trans {state state' state'' : String} (h : NoLower state state')
    (h' : NoLower state' state'') : NoLower state state'' := Nat.le_trans h h'

theorem noLower_finalized (state : String) : NoLower state "finalized" := by
  have hfinal : finalityRank "finalized" = 4 := by decide
  unfold NoLower
  rw [hfinal]
  unfold finalityRank
  split <;> omega

/-- Every stored event is still there, at no lower rank. -/
def EventsNoLower (t t' : BalanceEvents) : Prop :=
  ∀ r ∈ t.rows, ∃ r' ∈ t'.rows, r'.id = r.id ∧ NoLower r.finalityState r'.finalityState

/-- Every stored block is still there, at no lower rank. -/
def BlocksNoLower (t t' : IndexedBlocks) : Prop :=
  ∀ b ∈ t.rows, ∃ b' ∈ t'.rows, b'.numberKey = b.numberKey ∧
    NoLower b.finalityState b'.finalityState

theorem EventsNoLower.refl (t : BalanceEvents) : EventsNoLower t t := by
  intro r hr
  exact ⟨r, hr, rfl, NoLower.refl _⟩

theorem BlocksNoLower.refl (t : IndexedBlocks) : BlocksNoLower t t := by
  intro b hb
  exact ⟨b, hb, rfl, NoLower.refl _⟩

structure RanksKept (db db' : Db) : Prop where
  events : EventsNoLower db.balanceEvents db'.balanceEvents
  blocks : BlocksNoLower db.indexedBlocks db'.indexedBlocks

/-- The transaction that describes a block of a batch: the first one of it with a block hash. -/
def NormalizedBatch.describing (batch : NormalizedBatch) (number : Int) :
    Option NormalizedTransaction :=
  batch.transactions.find? fun ntx => ntx.blockHash ≠ "" && ntx.blockCursor = number

/-- No stored block is described by a state of lower rank. -/
def CommitAction.DescribesNoLower (db : Db) : CommitAction → Prop
  | .ingest env batch => env.blockRepo = true → ∀ b ∈ db.indexedBlocks.rows,
      b.chain = batch.chain → b.network = batch.network →
      ∀ ntx, batch.describing b.blockNumber = some ntx →
        NoLower b.finalityState ntx.blockState
  | .promote _ _ _ => True

section Blocks
variable {batch : NormalizedBatch}

theorem mem_blocksOf {b : IndexedBlock} :
    b ∈ blocksOf batch ↔ ∃ ntx, batch.describing b.blockNumber = some ntx ∧ b = blockRow batch ntx := by
  rw [blocksOf_eq, FirstOf.mem_firstOf, List.find?_map, List.find?_filter, Option.map_eq_some_iff]
  simp only [Function.comp_def, Bool.decide_and, Bool.decide_eq_true]
  constructor
  · rintro ⟨ntx, hfind, rfl⟩
    exact ⟨ntx, hfind, rfl⟩
  · rintro ⟨ntx, hfind, rfl⟩
    exact ⟨ntx, hfind, rfl⟩

theorem blocksOf_chain {b : IndexedBlock} (hb : b ∈ blocksOf batch) :
    b.chain = batch.chain ∧ b.network = batch.network := by
  obtain ⟨_, _, rfl⟩ := mem_blocksOf.mp hb
  exact ⟨rfl, rfl⟩

variable {t t' : IndexedBlocks}

/-- The blocks of a batch keep the ranks of the stored ones exactly if none is described lower. -/
theorem wroteBlocks_noLower_iff (h : IndexedBlock.upsert.WroteAll t (blocksOf batch) t') :
    BlocksNoLower t t' ↔
      ∀ b ∈ t.rows, b.chain = batch.chain → b.network = batch.network →
        ∀ ntx, batch.describing b.blockNumber = some ntx →
          NoLower b.finalityState ntx.blockState := by
  -- the row that a described block has afterwards
  have hwri : ∀ b ∈ t.rows, b.chain = batch.chain → b.network = batch.network →
      ∀ ntx, batch.describing b.blockNumber = some ntx →
      ∃ b' ∈ t'.rows, b'.numberKey = b.numberKey ∧ b'.finalityState = ntx.blockState := by
    intro b _ hchain hnet ntx hntx
    have hcur : ntx.blockCursor = b.blockNumber := by
      have := List.find?_some hntx
      simp only [Bool.and_eq_true, decide_eq_true_eq] at this
      exact this.2
    have hkey : (blockRow batch ntx).numberKey = b.numberKey := by
      unfold IndexedBlock.numberKey
      rw [hchain, hnet, ← hcur]
      rfl
    have hmem : blockRow batch ntx ∈ blocksOf batch := by
      refine mem_blocksOf.mpr ⟨ntx, ?_, rfl⟩
      show batch.describing ntx.blockCursor = some ntx
      rw [hcur]
      exact hntx
    obtain ⟨b', hb', hbkey, hfrom⟩ :=
      h.exists_item (fun _ _ => rfl) blocksOf_distinct hmem (k := b.numberKey) (congrArg some hkey)
    refine ⟨b', hb', Option.some.inj hbkey, ?_⟩
    rcases hfrom with ⟨_, rfl⟩ | ⟨_, rfl⟩
    · rfl
    · rfl
  constructor
  · intro hkept b hb hchain hnet ntx hntx
    obtain ⟨b', hb', hkey, hrank⟩ := hkept b hb
    obtain ⟨b₂, hb₂, hkey₂, hstate⟩ := hwri b hb hchain hnet ntx hntx
    have heq : b' = b₂ := IndexedTable.eq_of_ident_eq hb' hb₂ (hkey.trans hkey₂.symm)
    rw [heq, hstate] at hrank
    exact hrank
  · intro hlower b hb
    by_cases hown : b.chain = batch.chain ∧ b.network = batch.network
    · cases hntx : batch.describing b.blockNumber with
      | some ntx =>
        obtain ⟨b', hb', hkey, hstate⟩ := hwri b hb hown.1 hown.2 ntx hntx
        refine ⟨b', hb', hkey, ?_⟩
        rw [hstate]
        exact hlower b hb hown.1 hown.2 ntx hntx
      | none =>
        refine ⟨b, h.mem_of_other hb ?_, rfl, NoLower.refl _⟩
        intro c hc k hk hbk
        obtain ⟨ntx, hntx', _⟩ := mem_blocksOf.mp hc
        have hsame : c.numberKey = b.numberKey := Option.some.inj (hk.trans hbk.symm)
        rw [show c.blockNumber = b.blockNumber from congrArg (fun key => key.2.2) hsame,
          hntx] at hntx'
        cases hntx'
    · refine ⟨b, h.mem_of_other hb ?_, rfl, NoLower.refl _⟩
      intro c hc k hk hbk
      have hsame : c.numberKey = b.numberKey := Option.some.inj (hk.trans hbk.symm)
      obtain ⟨hcc, hcn⟩ := blocksOf_chain hc
      apply hown
      exact ⟨(congrArg Prod.fst hsame).symm.trans hcc,
        (congrArg (fun key => key.2.1) hsame).symm.trans hcn⟩

end Blocks

section Events
variable {t t' : BalanceEvents}

theorem rank_applyAt {k : String} {v : EventValues} {r : BalanceEventRow}
    (h : r.eventKey = some k → NoLower r.finalityState v.event.finalityState) :
    NoLower r.finalityState (eventUpsert.applyAt k v r).finalityState := by
  unfold Upsert.applyAt
  split
  · rename_i hk
    exact h hk
  · exact NoLower.refl _

theorem wroteEvents_noLower {vs : List EventValues} (h : eventUpsert.WroteAll t vs t') :
    EventsNoLower t t' := by
  refine h.invariant (P := EventsNoLower t) (EventsNoLower.refl t) ?_
  intro v _ u u' hu hw r hr
  obtain ⟨s, hs, hid, hrank⟩ := hu r hr
  cases hw with
  | inserted _ hrows =>
    refine ⟨s, ?_, hid, hrank⟩
    rw [hrows]
    exact List.mem_append_left _ hs
  | @updated k found hitem hfound hkey hadm hrows =>
    have hup : NoLower found.finalityState v.event.finalityState := by
      rw [eventUpsert_admits, decide_eq_true_eq] at hadm
      exact hadm
    refine ⟨eventUpsert.applyAt k v s, ?_, ?_, ?_⟩
    · rw [hrows]
      exact List.mem_map_of_mem hs
    · rw [eventUpsert.ident_applyAt]
      exact hid
    · apply hrank.trans
      apply rank_applyAt
      intro hsk
      rw [IndexedTable.eq_of_key_eq hs hfound hsk hkey]
      exact hup
  | rejected _ _ _ _ hrows =>
    refine ⟨s, ?_, hid, hrank⟩
    rw [hrows]
    exact hs

theorem promoteBalanceEvents_noLower (chain : Chain) (network : Network) (upToBlock : Int) :
    EventsNoLower t (promoteBalanceEvents chain network upToBlock t).1 := by
  intro r hr
  refine ⟨(r.finalize chain network upToBlock).promote chain network upToBlock,
    List.mem_map_of_mem (List.mem_map_of_mem hr),
    ((promote_keys _ _ _ _).1).trans (finalize_keys _ _ _ _).1, ?_⟩
  have hpro : ∀ s : BalanceEventRow,
      (s.promote chain network upToBlock).finalityState = s.finalityState := by
    intro s
    unfold BalanceEventRow.promote
    split
    · rfl
    · rfl
  rw [hpro]
  unfold BalanceEventRow.finalize
  split
  · exact noLower_finalized _
  · exact NoLower.refl _

end Events

theorem updateFinalityTx_noLower (chain : Chain) (network : Network) (upToBlock : Int) (db : Db) :
    BlocksNoLower db.indexedBlocks
      (updateFinalityTx chain network upToBlock "finalized" db).indexedBlocks := by
  intro b hb
  refine ⟨_, List.mem_map_of_mem hb, ?_⟩
  split
  · exact ⟨rfl, noLower_finalized _⟩
  · exact ⟨rfl, NoLower.refl _⟩

section Commit
variable {db db' : Db}

theorem ingestBatch_ranksKept_iff {env : IngestEnv} {batch : NormalizedBatch}
    (h : ingestBatch env batch db = .ok db') :
    RanksKept db db' ↔ (CommitAction.ingest env batch).DescribesNoLower db := by
  obtain ⟨_, _, _, _, hby⟩ := ingestBatch_ok h
  obtain ⟨_, heve⟩ := hby.balanceEvents
  obtain ⟨_, _, _, hwrote⟩ := bulkUpsertEventsTx_wrote heve
  have hblo := hby.indexedBlocks
  constructor
  · intro hkept hrepo
    rw [if_pos hrepo] at hblo
    exact (wroteBlocks_noLower_iff hblo).mp hkept.blocks
  · intro hlower
    refine ⟨wroteEvents_noLower hwrote, ?_⟩
    split at hblo
    · rename_i hrepo
      exact (wroteBlocks_noLower_iff hblo).mpr (hlower hrepo)
    · rw [hblo]
      exact BlocksNoLower.refl _

theorem handleFinalityPromotion_ranksKept {blockRepo : Bool} {choice : RowChoice BulkAdjustItem}
    {promo : FinalityPromotion} (h : handleFinalityPromotion blockRepo choice promo db = .ok db') :
    RanksKept db db' := by
  obtain ⟨t, _, rfl⟩ := handleFinalityPromotion_iff.mp h
  refine ⟨promoteBalanceEvents_noLower _ _ _, ?_⟩
  cases blockRepo with
  | true => exact updateFinalityTx_noLower _ _ _ db
  | false => exact BlocksNoLower.refl _

theorem commit_ranksKept_iff {act : CommitAction} (hfor : act.GoesForward)
    (h : act.commit db = .ok db') : RanksKept db db' ↔ act.DescribesNoLower db := by
  cases act with
  | ingest env batch =>
    rcases processBatch_cases h with ⟨_, hin⟩ | ⟨_, hback, _⟩
    · rw [ingestBatch_ranksKept_iff hin]
      simp only [CommitAction.DescribesNoLower, NormalizedBatch.describing, canonicalizeCursors]
    · rw [show rollsBack (canonicalizeCursors batch) = false from hfor] at hback
      cases hback
  | promote blockRepo choice promo =>
    exact ⟨fun _ => trivial, fun _ => handleFinalityPromotion_ranksKept h⟩

end Commit

/-- The runs whose commits keep every rank are those whose batches describe no stored block by a
lower state. -/
theorem run_ranksKept_iff (db db' : Db) (acts : List CommitAction) :
    Runs.Run (fun t act t' => act.commit t = .ok t' ∧ RanksKept t t')
        (fun _ act => act.GoesForward) db acts db' ↔
      Runs.Run (fun t act t' => act.commit t = .ok t')
        (fun t act => act.GoesForward ∧ act.DescribesNoLower t) db acts db' := by
  constructor
  · intro hrun
    apply hrun.mono
    intro t act t' hfor hstep
    exact ⟨⟨hfor, (commit_ranksKept_iff hfor hstep.1).mp hstep.2⟩, hstep.1⟩
  · intro hrun
    apply hrun.mono
    intro t act t' hok hstep
    exact ⟨hok.1, hstep, (commit_ranksKept_iff hok.1 hstep).mpr hok.2⟩

def hashedDeposit (finality : String) : NormalizedBatch where
  chain := .ethereum
  network := .mainnet
  transactions := [{
    txHash := "0xaa"
    blockCursor := 10
    feeAmount := "0"
    blockHash := "0xb10c"
    balanceEvents := [depositEvent finality] }]
  newCursorSequence := 10

def promoteTo (block : Int) : FinalityPromotion where
  chain := .ethereum
  network := .mainnet
  newFinalizedBlock := block

/-- A deposit that is ingested and promoted loses no rank. -/
theorem run_ranksKept_promoted :
    ∃ db', Runs.Run (fun t act t' => CommitAction.commit t act = .ok t' ∧ RanksKept t t')
      (fun _ act => act.GoesForward) {}
      [.ingest {} (hashedDeposit "confirmed"), .promote true RowChoice.first (promoteTo 10)] db' := by
  obtain ⟨db₁, h₁, db₂, h₂, _⟩ :
      ∃ db₁, CommitAction.commit {} (.ingest {} (hashedDeposit "confirmed")) = .ok db₁ ∧
      ∃ db₂, CommitAction.commit db₁ (.promote true RowChoice.first (promoteTo 10)) = .ok db₂ ∧
        True := by decide
  refine ⟨db₂, (run_ranksKept_iff _ _ _).mpr (.next (.next .start ?_ h₁) ⟨trivial, trivial⟩ h₂)⟩
  exact ⟨rfl, fun _ b hb => absurd hb List.not_mem_nil⟩

/-- The deposit of block 10 is ingested and promoted, and its block ingested again: the stored block
goes from `finalized` back to `confirmed`. -/
theorem commit_lowers_block :
    ∃ db₁ db₂ db₃, CommitAction.commit {} (.ingest {} (hashedDeposit "confirmed")) = .ok db₁ ∧
      CommitAction.commit db₁ (.promote true RowChoice.first (promoteTo 10)) = .ok db₂ ∧
      CommitAction.commit db₂ (.ingest {} (hashedDeposit "confirmed")) = .ok db₃ ∧
      (getByBlockNumber .ethereum .mainnet 10 db₂).map IndexedBlock.finalityState =
        some "finalized" ∧
      (getByBlockNumber .ethereum .mainnet 10 db₃).map IndexedBlock.finalityState =
        some "confirmed" ∧ ¬ RanksKept db₂ db₃ := by
  obtain ⟨db₁, h₁, db₂, h₂, db₃, h₃, hbef, hafter⟩ :
      ∃ db₁, CommitAction.commit {} (.ingest {} (hashedDeposit "confirmed")) = .ok db₁ ∧
      ∃ db₂, CommitAction.commit db₁ (.promote true RowChoice.first (promoteTo 10)) = .ok db₂ ∧
      ∃ db₃, CommitAction.commit db₂ (.ingest {} (hashedDeposit "confirmed")) = .ok db₃ ∧
        (getByBlockNumber .ethereum .mainnet 10 db₂).map IndexedBlock.finalityState =
          some "finalized" ∧
        (getByBlockNumber .ethereum .mainnet 10 db₃).map IndexedBlock.finalityState =
          some "confirmed" := by decide
  refine ⟨db₁, db₂, db₃, h₁, h₂, h₃, hbef, hafter, ?_⟩
  intro hkept
  obtain ⟨b, hb, hfinal⟩ := Option.map_eq_some_iff.mp hbef
  obtain ⟨c, hc, hcon⟩ := Option.map_eq_some_iff.mp hafter
  obtain ⟨hbmem, hbkey⟩ := IndexedTable.findKey_eq_some_iff.mp hb
  obtain ⟨hcmem, hckey⟩ := IndexedTable.findKey_eq_some_iff.mp hc
  obtain ⟨b', hb', hkey, hrank⟩ := hkept.blocks b hbmem
  have hsame : b' = c := IndexedTable.eq_of_ident_eq hb' hcmem
    (hkey.trans (Option.some.inj (hbkey.trans hckey.symm)))
  rw [hsame, hfinal, hcon] at hrank
  revert hrank
  decide

end MultichainIndexer
