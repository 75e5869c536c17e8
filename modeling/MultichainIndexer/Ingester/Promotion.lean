import MultichainIndexer.Accounting
import MultichainIndexer.Domain.Event
import MultichainIndexer.Store.BulkAdds
import MultichainIndexer.Store.Rollback

/-!
# Finality promotion

`handleFinalityPromotion` finalizes blocks and events up to a height and applies
the pending deltas to the balances, one item for each promoted event and one
more for staking. The items are not added up first, so the bulk statement adds
all pending deltas exactly when no balance has two of them, or a stored one has
only zero ones. What is promoted once is never promoted again.
-/

namespace MultichainIndexer

open Relational

section Model
variable (chain : Chain) (network : Network) (upToBlock : Int)

def BalanceEventRow.isUpTo (r : BalanceEventRow) : Bool :=
  decide (r.chain = chain ∧ r.network = network ∧ r.blockCursor ≤ upToBlock)

def BalanceEventRow.finalize (r : BalanceEventRow) : BalanceEventRow :=
  if r.isUpTo chain network upToBlock && r.finalityState ≠ "finalized" && r.finalityState ≠ "" then
    { r with finalityState := "finalized" }
  else r

def BalanceEventRow.isPromoted (r : BalanceEventRow) : Bool :=
  r.isUpTo chain network upToBlock && !r.balanceApplied && r.finalityState = "finalized"

def BalanceEventRow.promote (r : BalanceEventRow) : BalanceEventRow :=
  if r.isPromoted chain network upToBlock then { r with balanceApplied := true } else r

theorem finalize_keys (r : BalanceEventRow) :
    (r.finalize chain network upToBlock).id = r.id ∧
      (r.finalize chain network upToBlock).eventKey = r.eventKey := by
  unfold BalanceEventRow.finalize
  split
  · exact ⟨rfl, rfl⟩
  · exact ⟨rfl, rfl⟩

theorem promote_keys (r : BalanceEventRow) :
    (r.promote chain network upToBlock).id = r.id ∧
      (r.promote chain network upToBlock).eventKey = r.eventKey := by
  unfold BalanceEventRow.promote
  split
  · exact ⟨rfl, rfl⟩
  · exact ⟨rfl, rfl⟩

/-- The rows after both updates, and the rows that the second one returns. -/
def promoteBalanceEvents (t : BalanceEvents) : BalanceEvents × List BalanceEventRow :=
  let t := t.update (BalanceEventRow.finalize chain network upToBlock) (by
    intro a b h
    simpa only [clashOn, finalize_keys] using h)
  (t.update (BalanceEventRow.promote chain network upToBlock) (by
    intro a b h
    simpa only [clashOn, promote_keys] using h),
    t.rows.filter (BalanceEventRow.isPromoted chain network upToBlock))

end Model

def promoteLiquidItem (pe : BalanceEventRow) : BulkAdjustItem where
  address := pe.address
  tokenID := pe.tokenID
  walletID := pe.walletID
  orgID := pe.organizationID
  delta := pe.delta
  cursor := pe.blockCursor
  txHash := pe.txHash
  balanceType := ""

def promoteStakedItem (pe : BalanceEventRow) : BulkAdjustItem where
  address := pe.address
  tokenID := pe.tokenID
  walletID := pe.walletID
  orgID := pe.organizationID
  delta := -pe.delta
  cursor := pe.blockCursor
  txHash := pe.txHash
  balanceType := "staked"

def buildPromotionAdjustItems (events : List BalanceEventRow) : List BulkAdjustItem :=
  events.flatMap fun pe =>
    promoteLiquidItem pe ::
      if isStakingActivity pe.activityType then [promoteStakedItem pe] else []

def handleFinalityPromotion (blockRepo : Bool) (c : RowChoice BulkAdjustItem)
    (promo : FinalityPromotion) (db : Db) : Except String Db :=
  let db := if blockRepo then
      updateFinalityTx promo.chain promo.network promo.newFinalizedBlock "finalized" db
    else db
  let promoted := promoteBalanceEvents promo.chain promo.network promo.newFinalizedBlock
    db.balanceEvents
  if promoted.2.isEmpty then .ok { db with balanceEvents := promoted.1 }
  else
    match bulkAdjustBalanceTx promo.chain promo.network c (buildPromotionAdjustItems promoted.2)
      db.balances with
    | .error e => .error ("bulk adjust balances for finality promotion: " ++ e)
    | .ok balances => .ok { db with balanceEvents := promoted.1, balances := balances }

def BalanceEventRow.isPending (promo : FinalityPromotion) (r : BalanceEventRow) : Bool :=
  r.isUpTo promo.chain promo.network promo.newFinalizedBlock && !r.balanceApplied &&
    r.finalityState ≠ ""

def pendingFor (promo : FinalityPromotion) (db : Db) (b : BalanceKind) (a : Account) :
    List BalanceEventRow :=
  b.book.entries (fun r => r.isPending promo && b.counts r.activityType) db.balanceEvents.rows a

def pendingSum (promo : FinalityPromotion) (db : Db) (b : BalanceKind) (a : Account) : Int :=
  ((pendingFor promo db b a).map b.book.value).sum

section Rows
variable {promo : FinalityPromotion}

theorem finalize_frame (chain : Chain) (network : Network) (upToBlock : Int) (r : BalanceEventRow) :
    ∃ state, r.finalize chain network upToBlock = { r with finalityState := state } := by
  unfold BalanceEventRow.finalize
  split
  · exact ⟨_, rfl⟩
  · exact ⟨r.finalityState, rfl⟩

theorem isPromoted_finalize (r : BalanceEventRow) :
    (r.finalize promo.chain promo.network promo.newFinalizedBlock).isPromoted
      promo.chain promo.network promo.newFinalizedBlock = r.isPending promo := by
  have hup : ∀ state, ({ r with finalityState := state } : BalanceEventRow).isUpTo
      promo.chain promo.network promo.newFinalizedBlock =
      r.isUpTo promo.chain promo.network promo.newFinalizedBlock := fun _ => rfl
  unfold BalanceEventRow.finalize BalanceEventRow.isPromoted BalanceEventRow.isPending
  cases hu : r.isUpTo promo.chain promo.network promo.newFinalizedBlock with
  | false => simp [hu]
  | true =>
    by_cases hf : r.finalityState = "finalized"
    · simp [hu, hf]
    · by_cases he : r.finalityState = ""
      · simp [hu, he]
      · simp [hu, hup, hf, he]

theorem promoted_rows (t : BalanceEvents) :
    (promoteBalanceEvents promo.chain promo.network promo.newFinalizedBlock t).2 =
      (t.rows.filter (BalanceEventRow.isPending promo)).map
        (BalanceEventRow.finalize promo.chain promo.network promo.newFinalizedBlock) := by
  show (t.rows.map _).filter _ = _
  rw [List.filter_map]
  congr 1
  refine List.filter_congr fun r _ => ?_
  exact isPromoted_finalize r

theorem buildPromotionAdjustItems_eq (l : List BalanceEventRow) (chain : Chain)
    (network : Network) (upToBlock : Int) :
    buildPromotionAdjustItems (l.map (BalanceEventRow.finalize chain network upToBlock)) =
      bothItems 1 (fun b r => b.counts r.activityType) l := by
  unfold buildPromotionAdjustItems bothItems
  rw [List.flatMap_map]
  congr 1
  funext r
  obtain ⟨state, hstate⟩ := finalize_frame chain network upToBlock r
  rw [hstate]
  cases hst : isStakingActivity r.activityType <;>
    simp [BalanceKind.counts, hst, promoteLiquidItem, promoteStakedItem, BalanceEventRow.item,
      BalanceKind.signed, BalanceKind.balanceType]

end Rows

/-- The items of a promotion: one for each pending event and kind of balance that it moves. -/
def promoteItems (promo : FinalityPromotion) (db : Db) : List BulkAdjustItem :=
  bothItems 1 (fun b r => b.counts r.activityType)
    (db.balanceEvents.rows.filter (BalanceEventRow.isPending promo))

/-- What a promotion needs of the database: no balance has two pending deltas, but for a stored
one with zeros, and the amounts fit. -/
structure Promotable (promo : FinalityPromotion) (db : Db) : Prop where
  repeated : ∀ b a, 1 < (pendingFor promo db b a).length →
    (KeyedTable.find? db.balances (a.key b)).isSome = true ∧
      ∀ r ∈ pendingFor promo db b a, r.delta = 0
  fits : ∀ b a, ∀ r ∈ pendingFor promo db b a,
    FitsNumeric (amountOf db.balances (a.key b) + b.signed r.delta)

section Promote
variable {blockRepo : Bool} {c : RowChoice BulkAdjustItem} {promo : FinalityPromotion} {db db' : Db}

def promotedBlocks (blockRepo : Bool) (promo : FinalityPromotion) (db : Db) : IndexedBlocks :=
  if blockRepo then
    (updateFinalityTx promo.chain promo.network promo.newFinalizedBlock "finalized" db).indexedBlocks
  else db.indexedBlocks

/-- A promotion is its bulk statement, the two updates of the events and the one of the blocks. -/
theorem handleFinalityPromotion_iff :
    handleFinalityPromotion blockRepo c promo db = .ok db' ↔
      ∃ t, bulkAdjustBalanceTx promo.chain promo.network c (promoteItems promo db) db.balances =
          .ok t ∧
        db' = { db with
            indexedBlocks := promotedBlocks blockRepo promo db
            balanceEvents := (promoteBalanceEvents promo.chain promo.network
              promo.newFinalizedBlock db.balanceEvents).1
            balances := t } := by
  have hdb : (if blockRepo then updateFinalityTx promo.chain promo.network
      promo.newFinalizedBlock "finalized" db else db) =
        { db with indexedBlocks := promotedBlocks blockRepo promo db } := by
    cases blockRepo <;> rfl
  unfold handleFinalityPromotion
  simp only [hdb]
  rw [promoted_rows]
  split
  · rename_i hempty
    have hnone : db.balanceEvents.rows.filter (BalanceEventRow.isPending promo) = [] := by
      simpa using hempty
    have hitems : promoteItems promo db = [] := by
      unfold promoteItems
      rw [hnone]
      rfl
    rw [hitems]
    constructor
    · intro h
      cases h
      exact ⟨db.balances, rfl, rfl⟩
    · rintro ⟨t, ht, rfl⟩
      cases ht
      rfl
  · have hitems : buildPromotionAdjustItems ((db.balanceEvents.rows.filter
        (BalanceEventRow.isPending promo)).map (BalanceEventRow.finalize promo.chain promo.network
          promo.newFinalizedBlock)) = promoteItems promo db := buildPromotionAdjustItems_eq _ _ _ _
    rw [hitems]
    cases bulkAdjustBalanceTx promo.chain promo.network c (promoteItems promo db) db.balances with
    | error e => simp
    | ok t =>
      constructor
      · intro h
        cases h
        exact ⟨t, rfl, rfl⟩
      · rintro ⟨u, hu, rfl⟩
        cases hu
        rfl

theorem mem_pending {r : BalanceEventRow}
    (hr : r ∈ db.balanceEvents.rows.filter (BalanceEventRow.isPending promo)) :
    r.chain = promo.chain ∧ r.network = promo.network := by
  have hp := (List.mem_filter.mp hr).2
  simp only [BalanceEventRow.isPending, BalanceEventRow.isUpTo, Bool.and_eq_true,
    decide_eq_true_eq] at hp
  exact ⟨hp.1.1.1, hp.1.1.2.1⟩

theorem listedFor_promoteItems (b : BalanceKind) (a : Account) :
    listedFor promo.chain promo.network (promoteItems promo db) (a.key b) =
      (pendingFor promo db b a).map (BalanceEventRow.item b 1) := by
  unfold promoteItems
  rw [listedFor_bothItems fun _ => mem_pending]
  unfold pendingFor Ledger.Book.entries
  rw [List.filter_filter]
  congr 1
  refine List.filter_congr fun r _ => ?_
  cases hp : r.isPending promo <;> simp [hp]

theorem listedSum_promoteItems (b : BalanceKind) (a : Account) :
    listedSum promo.chain promo.network (promoteItems promo db) (a.key b) =
      pendingSum promo db b a := by
  rw [listedSum_eq, listedFor_promoteItems, sum_items, Int.one_mul]
  rfl

theorem promoteItems_key {i : BulkAdjustItem} (hi : i ∈ promoteItems promo db) :
    ∃ (b : BalanceKind) (a : Account), i.key promo.chain promo.network = a.key b := by
  obtain ⟨r, hr, b, _, rfl⟩ := mem_bothItems.mp hi
  obtain ⟨hc, hn⟩ := mem_pending hr
  exact ⟨b, r.account, item_key hc hn b 1⟩

theorem promotable_iff_addable : Promotable promo db ↔
    BulkAddable promo.chain promo.network (promoteItems promo db) db.balances := by
  constructor
  · intro h
    refine ⟨fun k hlt => ?_, fun i hi => ?_⟩
    · obtain ⟨i, hi⟩ := List.exists_mem_of_length_pos (Nat.lt_of_succ_lt hlt)
      obtain ⟨hitem, rfl⟩ := mem_listedFor.mp hi
      obtain ⟨b, a, hk⟩ := promoteItems_key hitem
      rw [hk, listedFor_promoteItems] at hlt ⊢
      rw [List.length_map] at hlt
      obtain ⟨hsto, hzero⟩ := h.repeated b a hlt
      refine ⟨hsto, ?_⟩
      rw [List.forall_mem_map]
      intro r hr
      show 1 * b.signed r.delta = 0
      rw [BalanceKind.signed_eq_zero.mpr (hzero r hr)]
      rfl
    · obtain ⟨b, a, hk⟩ := promoteItems_key hi
      have hlis := mem_listedFor.mpr ⟨hi, hk⟩
      rw [listedFor_promoteItems] at hlis
      obtain ⟨r, hr, rfl⟩ := List.mem_map.mp hlis
      rw [hk]
      show FitsNumeric (_ + 1 * b.signed r.delta)
      rw [Int.one_mul]
      exact h.fits b a r hr
  · intro h
    refine ⟨fun b a hlt => ?_, fun b a r hr => ?_⟩
    · have hk := h.repeated (a.key b)
      rw [listedFor_promoteItems, List.length_map, List.forall_mem_map] at hk
      obtain ⟨hsto, hzero⟩ := hk hlt
      refine ⟨hsto, fun r hr => ?_⟩
      have := hzero r hr
      rw [← BalanceKind.signed_eq_zero (b := b), ← Int.one_mul (b.signed r.delta)]
      exact this
    · have hlis : r.item b 1 ∈ listedFor promo.chain promo.network (promoteItems promo db)
          (a.key b) := by
        rw [listedFor_promoteItems]
        exact List.mem_map_of_mem hr
      obtain ⟨hi, hk⟩ := mem_listedFor.mp hlis
      have hfit := h.fits _ hi
      rw [hk] at hfit
      rw [← Int.one_mul (b.signed r.delta)]
      exact hfit

/-- A promotion applies every pending delta, whatever rows the database joins, exactly when the
database is promotable. -/
theorem promotes_iff :
    (∀ c, ∃ db', handleFinalityPromotion blockRepo c promo db = .ok db' ∧
      ∀ b a, amountOf db'.balances (a.key b) =
        amountOf db.balances (a.key b) + pendingSum promo db b a) ↔ Promotable promo db := by
  rw [promotable_iff_addable, ← bulkAdjust_adds_iff]
  constructor
  · intro h c
    obtain ⟨db', hok, hadds⟩ := h c
    obtain ⟨t, ht, rfl⟩ := handleFinalityPromotion_iff.mp hok
    refine ⟨t, ht, fun k => ?_⟩
    by_cases hk : listedFor promo.chain promo.network (promoteItems promo db) k = []
    · rw [amountOf_congr (bulkAdjust_frame ht hk), listedSum_eq, hk]
      simp
    · obtain ⟨i, hi⟩ := List.exists_mem_of_ne_nil _ hk
      obtain ⟨hitem, rfl⟩ := mem_listedFor.mp hi
      obtain ⟨b, a, hkey⟩ := promoteItems_key hitem
      rw [hkey, listedSum_promoteItems]
      exact hadds b a
  · intro h c
    obtain ⟨t, ht, hadds⟩ := h c
    refine ⟨_, handleFinalityPromotion_iff.mpr ⟨t, ht, rfl⟩, fun b a => ?_⟩
    rw [← listedSum_promoteItems]
    exact hadds _

end Promote

section Again
variable {promo : FinalityPromotion}

/-- A row that no promotion up to the height has anything left to do for. -/
def BalanceEventRow.Settled (promo : FinalityPromotion) (r : BalanceEventRow) : Prop :=
  r.isUpTo promo.chain promo.network promo.newFinalizedBlock = true →
    r.finalityState = "" ∨ r.finalityState = "finalized" ∧ r.balanceApplied = true

theorem settled_promoted {t : BalanceEvents} {r : BalanceEventRow}
    (hr : r ∈ (promoteBalanceEvents promo.chain promo.network promo.newFinalizedBlock t).1.rows) :
    r.Settled promo := by
  obtain ⟨s', hs', rfl⟩ := List.mem_map.mp hr
  obtain ⟨s, _, rfl⟩ := List.mem_map.mp hs'
  unfold BalanceEventRow.promote
  intro hup
  split at hup
  · rename_i hp
    rw [if_pos hp]
    simp only [BalanceEventRow.isPromoted, Bool.and_eq_true, decide_eq_true_eq] at hp
    exact .inr ⟨hp.2, rfl⟩
  · rename_i hp
    rw [if_neg hp]
    -- a row up to the height that is not promoted has no state, or was applied already
    have hfinal : (s.finalize promo.chain promo.network promo.newFinalizedBlock).finalityState = "" ∨
        (s.finalize promo.chain promo.network promo.newFinalizedBlock).finalityState =
          "finalized" := by
      unfold BalanceEventRow.finalize at hup ⊢
      split at hup
      · rename_i hc
        rw [if_pos hc]
        exact .inr rfl
      · rename_i hc
        rw [if_neg hc]
        simp only [hup, Bool.true_and, Bool.and_eq_true, decide_eq_true_eq, not_and, ne_eq,
          not_not] at hc
        by_cases hf : s.finalityState = "finalized"
        · exact .inr hf
        · exact .inl (hc hf)
    rcases hfinal with hf | hf
    · exact .inl hf
    · refine .inr ⟨hf, ?_⟩
      simpa [BalanceEventRow.isPromoted, hup, hf] using hp

theorem promote_settled {upToBlock : Int} (hle : upToBlock ≤ promo.newFinalizedBlock)
    {r : BalanceEventRow} (hr : r.Settled promo) :
    r.finalize promo.chain promo.network upToBlock = r ∧
      r.isPromoted promo.chain promo.network upToBlock = false := by
  have hmono : r.isUpTo promo.chain promo.network upToBlock = true →
      r.isUpTo promo.chain promo.network promo.newFinalizedBlock = true := by
    simp only [BalanceEventRow.isUpTo, decide_eq_true_eq]
    rintro ⟨hc, hn, hb⟩
    exact ⟨hc, hn, by omega⟩
  unfold BalanceEventRow.finalize BalanceEventRow.isPromoted
  cases hup : r.isUpTo promo.chain promo.network upToBlock with
  | false => simp
  | true =>
    rcases hr (hmono hup) with hf | ⟨hf, happ⟩
    · simp [hf]
    · simp [hf, happ]

theorem promoteBalanceEvents_settled {upToBlock : Int}
    (hle : upToBlock ≤ promo.newFinalizedBlock) {t : BalanceEvents}
    (ht : ∀ r ∈ t.rows, r.Settled promo) :
    promoteBalanceEvents promo.chain promo.network upToBlock t = (t, []) := by
  have hfin : t.update (BalanceEventRow.finalize promo.chain promo.network upToBlock) (by
      intro a b h
      simpa only [clashOn, finalize_keys] using h) = t :=
    Table.update_eq_self fun r hr => (promote_settled hle (ht r hr)).1
  unfold promoteBalanceEvents
  simp only [hfin, Prod.mk.injEq]
  constructor
  · apply Table.update_eq_self
    intro r hr
    unfold BalanceEventRow.promote
    rw [(promote_settled hle (ht r hr)).2]
    rfl
  · rw [List.filter_eq_nil_iff]
    intro r hr
    rw [(promote_settled hle (ht r hr)).2]
    decide

theorem promotion_again {blockRepo : Bool} {c c' : RowChoice BulkAdjustItem} {db db' : Db}
    (h : handleFinalityPromotion blockRepo c promo db = .ok db') {upToBlock : Int}
    (hle : upToBlock ≤ promo.newFinalizedBlock) :
    handleFinalityPromotion blockRepo c' { promo with newFinalizedBlock := upToBlock } db' =
      .ok db' := by
  obtain ⟨t, _, rfl⟩ := handleFinalityPromotion_iff.mp h
  have hblo : ∀ events, ∀ u : Db, u = { db with
        indexedBlocks := promotedBlocks blockRepo promo db, balanceEvents := events, balances := t } →
      (if blockRepo then updateFinalityTx promo.chain promo.network upToBlock "finalized" u
        else u) = u := by
    rintro events u rfl
    cases blockRepo with
    | true => exact updateFinalityTx_again hle { db with balanceEvents := events, balances := t }
    | false => rfl
  unfold handleFinalityPromotion
  simp only [hblo _ _ rfl]
  rw [promoteBalanceEvents_settled hle fun r hr => settled_promoted hr]
  rfl

end Again

end MultichainIndexer
