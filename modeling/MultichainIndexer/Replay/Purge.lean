import MultichainIndexer.Replay.Service

/-!
# What a purge leaves behind

A purge that commits deletes exactly the rows from the block on, rewinds the
watermark and, for each account and kind of balance, adds one of the reverting
deltas listed for it. So it keeps a reconciled database reconciled when no
stored balance has two applied events to revert, or has only zero ones.
-/

namespace MultichainIndexer

open Relational

section Step
variable {blockRepo : Bool} {c : RowChoice BulkAdjustItem} {req : PurgeRequest} {db db' : Db}
variable {res : PurgeResult}

section Rows
variable (chain : Chain) (network : Network) (fromBlock : Int) (blockRepo : Bool) (db : Db)

theorem deleteAndRewind_balanceEvents :
    (deleteAndRewind chain network fromBlock blockRepo db).balanceEvents.rows =
      db.balanceEvents.rows.filter fun r => !r.isFrom chain network fromBlock := by
  cases blockRepo <;> rfl

theorem deleteAndRewind_transactions :
    (deleteAndRewind chain network fromBlock blockRepo db).transactions.rows =
      db.transactions.rows.filter fun t => !t.isFrom chain network fromBlock := by
  cases blockRepo <;> rfl

theorem deleteAndRewind_indexedBlocks :
    (deleteAndRewind chain network fromBlock blockRepo db).indexedBlocks.rows =
      if blockRepo then db.indexedBlocks.rows.filter fun b => !b.isFrom chain network fromBlock
      else db.indexedBlocks.rows := by
  cases blockRepo <;> rfl

theorem deleteAndRewind_balances :
    (deleteAndRewind chain network fromBlock blockRepo db).balances = db.balances := by
  cases blockRepo <;> rfl

theorem deleteAndRewind_tokens :
    (deleteAndRewind chain network fromBlock blockRepo db).tokens = db.tokens := by
  cases blockRepo <;> rfl

theorem deleteAndRewind_watermarks :
    (deleteAndRewind chain network fromBlock blockRepo db).watermarks =
      fun c n => if c = chain ∧ n = network then some (rollbackWatermark fromBlock)
        else db.watermarks c n := by
  cases blockRepo <;> rfl

end Rows

theorem purge_ok (hdry : req.dryRun = false)
    (h : purgeFromBlock blockRepo c req db = .ok (res, db')) :
    ∃ t₁ t₂, bulkAdjustBalanceTx req.chain req.network c
        (revertItems .liquid (fetchRollbackEvents req.chain req.network req.fromBlock db))
        db.balances = .ok t₁ ∧
      bulkAdjustBalanceTx req.chain req.network c
        (revertItems .staked (fetchRollbackEvents req.chain req.network req.fromBlock db))
        t₁ = .ok t₂ ∧
      db' = deleteAndRewind req.chain req.network req.fromBlock blockRepo
        { db with balances := t₂ } := by
  unfold purgeFromBlock at h
  obtain ⟨_, h⟩ := Result.guard_ok h
  rw [hdry, if_neg (by decide)] at h
  unfold executePurge at h
  obtain ⟨t₁, h₁, h⟩ := Result.bind_ok h
  obtain ⟨t₂, h₂, h⟩ := Result.bind_ok h
  cases h
  exact ⟨t₁, t₂, Result.mapError_ok h₁, Result.mapError_ok h₂, rfl⟩

/-- Each balance moves by the delta that its own statement applies, a foreign one not at all. -/
theorem purge_amount (hdry : req.dryRun = false)
    (h : purgeFromBlock blockRepo c req db = .ok (res, db')) (b : BalanceKind) (a : Account) :
    amountOf db'.balances (a.key b) = amountOf db.balances (a.key b) +
        appliedDelta req.chain req.network c
          (revertItems b (fetchRollbackEvents req.chain req.network req.fromBlock db))
          db.balances (a.key b) ∧
      (KeyedTable.find? db.balances (a.key b) = none →
        (listedFor req.chain req.network
          (revertItems b (fetchRollbackEvents req.chain req.network req.fromBlock db))
          (a.key b)).length ≤ 1) := by
  obtain ⟨t₁, t₂, h₁, h₂, rfl⟩ := purge_ok hdry h
  rw [deleteAndRewind_balances]
  cases b with
  | liquid =>
    have hne : BalanceKind.staked ≠ .liquid := by decide
    have hframe := bulkAdjust_frame h₂ (listedFor_revertItems_other hne a)
    refine ⟨?_, (bulkAdjust_ok_iff.mp ⟨t₁, h₁⟩).2 _⟩
    exact (amountOf_congr hframe).trans (bulkAdjust_amount h₁ _)
  | staked =>
    have hne : BalanceKind.liquid ≠ .staked := by decide
    have hframe := bulkAdjust_frame h₁ (listedFor_revertItems_other hne a)
    have hsame := congrArg Option.isSome hframe
    refine ⟨?_, fun hnone => (bulkAdjust_ok_iff.mp ⟨t₂, h₂⟩).2 _ (hframe.trans hnone)⟩
    rw [← appliedDelta_congr hsame, ← amountOf_congr hframe]
    exact bulkAdjust_amount h₂ _

end Step

/-- A purge of `chain` and `network` from `fromBlock` that undid the ingestion. -/
structure Purged (chain : Chain) (network : Network) (fromBlock : Int) (db db' : Db) : Prop where
  reconciled : Reconciled db'
  balanceEvents : db'.balanceEvents.rows =
    db.balanceEvents.rows.filter fun r => !r.isFrom chain network fromBlock
  transactions : db'.transactions.rows =
    db.transactions.rows.filter fun t => !t.isFrom chain network fromBlock
  indexedBlocks : db'.indexedBlocks.rows =
    db.indexedBlocks.rows.filter fun b => !b.isFrom chain network fromBlock
  tokens : db'.tokens = db.tokens
  foreignBalances : ∀ k : BalanceKey, ¬ (k.chain = chain ∧ k.network = network) →
    KeyedTable.find? db'.balances k = KeyedTable.find? db.balances k
  watermark : db'.watermarks chain network = some (max (fromBlock - 1) 0)
  foreignWatermarks : ∀ c n, ¬ (c = chain ∧ n = network) →
    db'.watermarks c n = db.watermarks c n

/-- What a purge needs of the database and of its own configuration. -/
structure Purgeable (blockRepo : Bool) (chain : Chain) (network : Network) (fromBlock : Int)
    (db : Db) : Prop where
  postable : ∀ (b : BalanceKind) (a : Account),
    (KeyedTable.find? db.balances (a.key b)).isSome = true →
      Postable (b.book.entries b.book.applied (eventsFrom chain network fromBlock db) a)
  blocks : blockRepo = true ∨
    ∀ b ∈ db.indexedBlocks.rows, b.isFrom chain network fromBlock = false
  fromBlock_ne : fromBlock ≠ -2 ^ 63

section Purge
variable {blockRepo : Bool} {c : RowChoice BulkAdjustItem} {req : PurgeRequest} {db db' : Db}
variable {res : PurgeResult}

theorem total_eventsFrom (b : BalanceKind) (a : Account) (chain : Chain) (network : Network)
    (fromBlock : Int) (db : Db) :
    b.book.total db.balanceEvents.rows a =
      b.book.total (eventsFrom chain network fromBlock db) a +
        b.book.total (db.balanceEvents.rows.filter fun r => !r.isFrom chain network fromBlock) a :=
  Ledger.total_split b.book _ _ a

theorem purged_of_purgeable (hdry : req.dryRun = false) (hblock : IsInt64 req.fromBlock)
    (hrec : Reconciled db)
    (hsafe : Purgeable blockRepo req.chain req.network req.fromBlock db)
    (h : purgeFromBlock blockRepo c req db = .ok (res, db')) :
    Purged req.chain req.network req.fromBlock db db' := by
  have hamo := purge_amount hdry h
  obtain ⟨t₁, t₂, h₁, h₂, rfl⟩ := purge_ok hdry h
  refine ⟨fun b a => ?_, deleteAndRewind_balanceEvents .., deleteAndRewind_transactions .., ?_,
    deleteAndRewind_tokens .., fun k hk => ?_, ?_, fun c n hcn => ?_⟩
  · have hsplit := total_eventsFrom b a req.chain req.network req.fromBlock db
    rw [Ledger.total_eq_entries b.book (eventsFrom _ _ _ db)] at hsplit
    rw [(hamo b a).1, hrec b a, hsplit, deleteAndRewind_balanceEvents,
      appliedDelta_posts (by decide) (listedFor_revertItems b a) (hsafe.postable b a)
        (hamo b a).2]
    show _ = b.book.total (db.balanceEvents.rows.filter _) a
    omega
  · rw [deleteAndRewind_indexedBlocks]
    split
    · rfl
    · rename_i hrepo
      have hnone := hsafe.blocks.resolve_left hrepo
      symm
      apply List.filter_eq_self.mpr
      intro b hb
      simp [hnone b hb]
  · rw [deleteAndRewind_balances]
    show KeyedTable.find? t₂ k = _
    rw [bulkAdjust_frame h₂ (listedFor_foreign hk), bulkAdjust_frame h₁ (listedFor_foreign hk)]
  · rw [deleteAndRewind_watermarks]
    simp only [and_self, if_true, Option.some.injEq]
    exact (rollbackWatermark_eq_iff _ hblock).mpr hsafe.fromBlock_ne
  · rw [deleteAndRewind_watermarks]
    exact if_neg hcn

theorem purgeable_of_purged (hdry : req.dryRun = false) (hblock : IsInt64 req.fromBlock)
    (hrec : Reconciled db)
    (hcom : ∀ c, ∃ res db', purgeFromBlock blockRepo c req db = .ok (res, db'))
    (h : ∀ c res db', purgeFromBlock blockRepo c req db = .ok (res, db') →
      Purged req.chain req.network req.fromBlock db db') :
    Purgeable blockRepo req.chain req.network req.fromBlock db := by
  obtain ⟨res, db', hok⟩ := hcom RowChoice.first
  have hpur := h _ res db' hok
  obtain ⟨_, t₂, _, _, rfl⟩ := purge_ok hdry hok
  refine ⟨fun b a hsto => ?_, ?_, ?_⟩
  · refine postable_of_posts (by decide) (listedFor_revertItems b a) hsto fun c => ?_
    obtain ⟨res, db', hok⟩ := hcom c
    have hpur := h c res db' hok
    have hafter := hpur.reconciled b a
    rw [hpur.balanceEvents, (purge_amount hdry hok b a).1, hrec b a,
      total_eventsFrom b a req.chain req.network req.fromBlock db,
      Ledger.total_eq_entries b.book (eventsFrom _ _ _ db)] at hafter
    omega
  · have hrows := hpur.indexedBlocks
    rw [deleteAndRewind_indexedBlocks] at hrows
    split at hrows
    · rename_i hrepo
      exact .inl hrepo
    · refine .inr fun b hb => ?_
      rw [hrows] at hb
      simpa using (List.mem_filter.mp hb).2
  · have hw := hpur.watermark
    rw [deleteAndRewind_watermarks] at hw
    simp only [and_self, if_true, Option.some.injEq] at hw
    exact (rollbackWatermark_eq_iff _ hblock).mp hw

/-- A purge of a reconciled database undoes the ingestion when the database is purgeable, and
where every choice of the database commits, only then. -/
theorem purgeFromBlock_undoes_iff (blockRepo : Bool) (req : PurgeRequest) (db : Db)
    (hdry : req.dryRun = false) (hblock : IsInt64 req.fromBlock) (hrec : Reconciled db) :
    (Purgeable blockRepo req.chain req.network req.fromBlock db →
      ∀ c res db', purgeFromBlock blockRepo c req db = .ok (res, db') →
        Purged req.chain req.network req.fromBlock db db') ∧
    ((∀ c, ∃ res db', purgeFromBlock blockRepo c req db = .ok (res, db')) →
      (∀ c res db', purgeFromBlock blockRepo c req db = .ok (res, db') →
        Purged req.chain req.network req.fromBlock db db') →
      Purgeable blockRepo req.chain req.network req.fromBlock db) :=
  ⟨fun hsafe _ _ _ h => purged_of_purgeable hdry hblock hrec hsafe h,
    fun hcom h => purgeable_of_purged hdry hblock hrec hcom h⟩

end Purge

def depositAccount : Account := ⟨.ethereum, .mainnet, "0xa", 1⟩

def oneDeposit : Db where
  balanceEvents := ⟨[depositRow 1 (by decide) "e1" 5 10], by decide⟩
  balances := ⟨[{ key := depositAccount.key .liquid, amount := 5 }], by decide⟩

def twoDeposits : Db where
  balanceEvents := ⟨[depositRow 1 (by decide) "e1" 5 10, depositRow 2 (by decide) "e2" 7 11],
    by decide⟩
  balances := ⟨[{ key := depositAccount.key .liquid, amount := 12 }], by decide⟩

theorem reconciled_oneDeposit : Reconciled oneDeposit := by
  apply reconciled_of_account depositAccount
  · decide
  · decide
  · decide

theorem reconciled_twoDeposits : Reconciled twoDeposits := by
  apply reconciled_of_account depositAccount
  · decide
  · decide
  · decide

/-- One deposit is purged: its balance returns to zero. -/
theorem purgeFromBlock_undoes_oneDeposit :
    ∃ res db', purgeFromBlock true RowChoice.first ⟨.ethereum, .mainnet, 10, false, false, "", false⟩
      oneDeposit = .ok (res, db') ∧ Purged .ethereum .mainnet 10 oneDeposit db' := by
  have hok : (purgeFromBlock true RowChoice.first
      ⟨.ethereum, .mainnet, 10, false, false, "", false⟩ oneDeposit).toOption.isSome = true := by
    decide
  cases h : purgeFromBlock true RowChoice.first
      ⟨.ethereum, .mainnet, 10, false, false, "", false⟩ oneDeposit with
  | error e =>
    rw [h] at hok
    cases hok
  | ok r =>
    refine ⟨r.1, r.2, rfl, ?_⟩
    refine (purgeFromBlock_undoes_iff true ⟨.ethereum, .mainnet, 10, false, false, "", false⟩
      oneDeposit rfl (by decide) reconciled_oneDeposit).1 ⟨fun b a _ => .inl ?_, .inl rfl, by decide⟩
      RowChoice.first r.1 r.2 h
    exact (List.length_filter_le _ _).trans (List.length_filter_le _ _)

/-- Two deposits to one account, both from the purged blocks: only one is taken back. -/
theorem purgeFromBlock_leaves_second :
    Reconciled twoDeposits ∧
    ((purgeFromBlock true RowChoice.first ⟨.ethereum, .mainnet, 10, false, false, "", false⟩
        twoDeposits).toOption.map fun r => (r.2.balanceEvents.rows.length,
          amountOf r.2.balances (depositAccount.key .liquid))) = some (0, 7) ∧
    ∀ res db', purgeFromBlock true RowChoice.first
        ⟨.ethereum, .mainnet, 10, false, false, "", false⟩ twoDeposits = .ok (res, db') →
      ¬ Purged .ethereum .mainnet 10 twoDeposits db' := by
  have hrun : ((purgeFromBlock true RowChoice.first
      ⟨.ethereum, .mainnet, 10, false, false, "", false⟩ twoDeposits).toOption.map
        fun r => (r.2.balanceEvents.rows.length,
          amountOf r.2.balances (depositAccount.key .liquid))) = some (0, 7) := by decide
  refine ⟨reconciled_twoDeposits, hrun, ?_⟩
  intro res db' h hpur
  rw [h] at hrun
  have hamo : amountOf db'.balances (depositAccount.key .liquid) = 7 :=
    congrArg Prod.snd (Option.some.inj hrun)
  have hempty := hpur.balanceEvents
  have hrec := hpur.reconciled .liquid depositAccount
  rw [hamo, hempty] at hrec
  revert hrec
  decide

end MultichainIndexer
