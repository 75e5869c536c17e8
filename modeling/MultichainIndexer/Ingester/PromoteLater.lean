import MultichainIndexer.Ingester.Finality
import MultichainIndexer.Ingester.Promotion
import MultichainIndexer.Ingester.Reconcile

/-!
# Ingesting early and promoting later

A batch taken in at `processed` holds its deltas back, and a promotion past it
applies them. `PromotesLike` says when this leaves the balances that taking the
batch in at `finalized` leaves: its events are new, nothing else is pending, no
event is taken for a scam early on, and no balance gets two held deltas.
-/

namespace MultichainIndexer

open Relational SumWhere

/-- An event whose delta is held back until a promotion. -/
def EventContext.held (batch : NormalizedBatch) (ec : EventContext) : Bool :=
  !ec.applies batch && decide (ec.be.finalityState ≠ "")

/-- What a batch needs of the rows, tokens and balances that it finds. -/
structure PromotesLike (env : IngestEnv) (promo : FinalityPromotion) (batch : NormalizedBatch)
    (rows : List BalanceEventRow) (tokens : List Token) (t : Balances) : Prop where
  chain : batch.chain = promo.chain
  network : batch.network = promo.network
  past : ∀ ec ∈ batchEvents (batch.withFinality "processed"),
    ec.ntx.blockCursor ≤ promo.newFinalizedBlock
  distinct : (batchEvents (batch.withFinality "processed")).Pairwise fun ec ec' =>
    ec.be.eventID ≠ "" → ec.be.eventID ≠ ec'.be.eventID
  fresh : ∀ ec ∈ batchEvents (batch.withFinality "processed"), ec.be.eventID ≠ "" →
    ∀ r ∈ rows, r.eventID ≠ ec.be.eventID
  settled : ∀ r ∈ rows, r.isPending promo = false
  backed : ∀ ec ∈ batchEvents (batch.withFinality "processed"),
    detectScamSignal batch.chain ec.be false ≠ detectScamSignal batch.chain ec.be true →
    ∃ tok ∈ tokens, tok.contractKey = some (batch.chain, batch.network, ec.be.contractAddress) ∧
      (KeyedTable.find? t ⟨batch.chain, batch.network, ec.be.address, tok.id, ""⟩).isSome = true
  single : (batchEvents (batch.withFinality "processed")).Pairwise fun ec ec' =>
    ec.held (batch.withFinality "processed") = true →
    ec'.held (batch.withFinality "processed") = true → ec.be.address = ec'.be.address →
    ec.be.contractAddress = ec'.be.contractAddress →
    deltaValue ec.be.delta = 0 ∧ deltaValue ec'.be.delta = 0
  owner : OwnersAgree env (batch.withFinality "finalized")

def BalanceEvent.holds (b : BalanceKind) (a : Account) (m : BalanceEvent) : Int :=
  if !m.balanceApplied && decide (m.finalityState ≠ "") && b.counts m.activityType &&
    decide (m.account = a) then b.signed (deltaValue m.delta) else 0

section Models
variable {b : BalanceKind} {ms ms' : List BalanceEvent}

theorem SameModel.adds {m m' : BalanceEvent} (h : SameModel m m') (a : Account) :
    m'.adds b a = m.adds b a + m.holds b a := by
  unfold BalanceEvent.adds BalanceEvent.holds BalanceEvent.posts
  rw [h.account, h.activityType, h.delta]
  rcases h.applied with ⟨hstate, heq⟩ | ⟨hstate, himp, hzero⟩
  · simp [hstate, heq]
  · cases hm : m.balanceApplied with
    | true => simp [himp hm]
    | false =>
      cases hm' : m'.balanceApplied with
      | true => simp [hstate]
      | false =>
        rw [hzero hm']
        have hb : b.signed 0 = 0 := BalanceKind.signed_eq_zero.mpr rfl
        simp [hb]

theorem sum_adds_related (h : List.Forall₂ SameModel ms ms') (a : Account) :
    (ms'.map (BalanceEvent.adds b a)).sum =
      (ms.map (BalanceEvent.adds b a)).sum + (ms.map (BalanceEvent.holds b a)).sum := by
  induction h with
  | nil => rfl
  | cons hm _ ih =>
    simp only [List.map_cons, List.sum_cons, ih, hm.adds]
    omega

theorem oneOwner_related (h : List.Forall₂ SameModel ms ms') (howner : OneOwner b ms') :
    OneOwner b ms := by
  have hposts : ∀ m m', SameModel m m' → m.posts b = true → m'.posts b = true := by
    intro m m' hm hp
    unfold BalanceEvent.posts at hp ⊢
    rw [Bool.and_eq_true] at hp ⊢
    refine ⟨?_, hm.activityType ▸ hp.2⟩
    rcases hm.applied with ⟨_, heq⟩ | ⟨_, himp, _⟩
    · exact heq.trans hp.1
    · exact himp hp.1
  intro m hm n hn hpm hpn hacc
  obtain ⟨m', hm', hmm⟩ := Related.exists_right h m hm
  obtain ⟨n', hn', hnn⟩ := Related.exists_right h n hn
  have hown := howner m' hm' n' hn' (hposts m m' hmm hpm) (hposts n n' hnn hpn)
    (hmm.account.trans (hacc.trans hnn.account.symm))
  rw [hmm.walletID, hnn.walletID, hmm.organizationID, hnn.organizationID] at hown
  exact hown

end Models

section Held
variable {b : BalanceKind} {env : IngestEnv} {promo : FinalityPromotion} {batch : NormalizedBatch}
variable {db db' : Db} {addrMap : Option (List WatchedAddress)} {pre : Prefetched}
variable {prefetched : Tokens} {st : BuildState}

def pendingBook (promo : FinalityPromotion) (b : BalanceKind) :
    Ledger.Book BalanceEventRow Account Int :=
  { b.book with applied := fun r => r.isPending promo && b.counts r.activityType }

theorem pendingSum_eq_total (a : Account) :
    pendingSum promo db b a = (pendingBook promo b).total db.balanceEvents.rows a :=
  (Ledger.total_eq_entries (pendingBook promo b) _ a).symm

theorem isPending_fresh (rows : List BalanceEventRow) {v : EventValues}
    (hchain : v.event.chain = promo.chain) (hnet : v.event.network = promo.network)
    (hpast : v.event.blockCursor ≤ promo.newFinalizedBlock) :
    (eventUpsert.fresh rows v).isPending promo =
      (!v.event.balanceApplied && decide (v.event.finalityState ≠ "")) := by
  have hup : (eventUpsert.fresh rows v).isUpTo promo.chain promo.network
      promo.newFinalizedBlock = true := decide_eq_true ⟨hchain, hnet, hpast⟩
  unfold BalanceEventRow.isPending
  rw [hup, Bool.true_and]
  rfl

/-- What the promotion needs of a written value. -/
structure WithinReach (promo : FinalityPromotion) (v : EventValues) : Prop where
  chain : v.event.chain = promo.chain
  network : v.event.network = promo.network
  past : v.event.blockCursor ≤ promo.newFinalizedBlock
  number : deltaValue v.event.delta = v.delta

variable {kept : List EventContext} {vs : List EventValues}

/-- A batch of new events inserts a row for each written value, in order. -/
theorem rows_inserted {t : Balances}
    (hw : Written env (batch.withFinality "processed") db db' addrMap pre st kept vs)
    (hlike : PromotesLike env promo batch db.balanceEvents.rows db.tokens.rows t) :
    ∃ new, db'.balanceEvents.rows = db.balanceEvents.rows ++ new ∧
      List.Forall₂ (fun v r => WithinReach promo v ∧ ∃ rows, r = eventUpsert.fresh rows v)
        vs new := by
  have hfree : ∀ v ∈ vs, ∀ k, v.eventKey = some k → ∀ r ∈ db.balanceEvents.rows,
      r.eventKey ≠ some k := by
    intro v hv k hk r hr hrk
    obtain ⟨ec, hec, hb⟩ := hw.exists_event v hv
    rw [EventValues.eventKey_eq_some, hb.eventID] at hk
    rw [BalanceEventRow.eventKey_eq_some] at hrk
    exact hlike.fresh ec hec hk.1 r hr (hrk.2.trans hk.2.symm)
  obtain ⟨new, hrows, hrel⟩ := hw.wrote.all_inserted hfree (hw.distinct hlike.distinct)
  refine ⟨new, hrows, Related.and_left hrel fun v hv => ?_⟩
  have hnum := numericText_value (hw.numbers v hv)
  obtain ⟨ec, hec, _, _, _, _, _, hm⟩ := hw.exists_event v hv
  refine ⟨?_, ?_, ?_, hnum⟩
  · rw [hm]
    exact hlike.chain
  · rw [hm]
    exact hlike.network
  · rw [hm]
    exact hlike.past ec hec

theorem pendingSum_held {t : Balances}
    (hw : Written env (batch.withFinality "processed") db db' addrMap pre st kept vs)
    (hlike : PromotesLike env promo batch db.balanceEvents.rows db.tokens.rows t) (a : Account) :
    pendingSum promo db' b a = (st.eventModels.map (BalanceEvent.holds b a)).sum := by
  obtain ⟨new, hrows, hrel⟩ := rows_inserted hw hlike
  have hold : (pendingBook promo b).total db.balanceEvents.rows a = 0 := by
    refine sumWhere_eq_zero fun r hr hp => ?_
    simp only [pendingBook, Bool.and_eq_true] at hp
    rw [hlike.settled r hr] at hp
    exact absurd hp.1.1 Bool.false_ne_true
  have hnew : (pendingBook promo b).total new a =
      (vs.map fun v => v.event.holds b a).sum := by
    unfold Ledger.Book.total sumWhere
    congr 1
    symm
    refine Related.map_eq hrel ?_
    rintro v r ⟨hv, rows, rfl⟩
    unfold BalanceEvent.holds
    rw [hv.number]
    simp only [pendingBook, isPending_fresh rows hv.chain hv.network hv.past]
    rfl
  rw [pendingSum_eq_total, hrows, Ledger.total_append, hold, hnew, Int.zero_add, ← hw.models,
    List.map_map]
  rfl

theorem postable_held {t : Balances}
    (hin : IngestedBy env (batch.withFinality "processed") db db' addrMap pre prefetched st)
    (hw : Written env (batch.withFinality "processed") db db' addrMap pre st kept vs)
    (hlike : PromotesLike env promo batch db.balanceEvents.rows db.tokens.rows t) (a : Account) :
    Postable (pendingFor promo db' b a) := by
  obtain ⟨new, hrows, hrel⟩ := rows_inserted hw hlike
  have hold : db.balanceEvents.rows.filter (fun r => (r.isPending promo &&
      b.counts r.activityType) && decide (b.book.account r = a)) = [] := by
    refine List.filter_eq_nil_iff.mpr fun r hr => ?_
    rw [hlike.settled r hr]
    simp
  -- two held values of one account are zero, and so are their rows
  have hvs : vs.Pairwise fun v w =>
      (!v.event.balanceApplied && decide (v.event.finalityState ≠ "")) = true →
      (!w.event.balanceApplied && decide (w.event.finalityState ≠ "")) = true →
      v.event.account = w.event.account →
      deltaValue v.event.delta = 0 ∧ deltaValue w.event.delta = 0 := by
    refine hw.pairwise hlike.single ?_
    intro ec ec' v w hv hw hsin hheld hheld' hacc
    obtain ⟨hadd, hcon⟩ := hv.same_contract hin.tokens hw hacc
    obtain ⟨_, _, _, _, _, hm⟩ := hv
    obtain ⟨_, _, _, _, _, hm'⟩ := hw
    rw [hm] at hheld ⊢
    rw [hm'] at hheld' ⊢
    exact hsin hheld hheld' hadd hcon
  unfold pendingFor Ledger.Book.entries
  rw [hrows, List.filter_append, hold, List.nil_append]
  refine postable_of_pairwise (List.pairwise_filter.mpr (Related.pairwise hrel hvs ?_))
  rintro v w r s ⟨hv, rows, rfl⟩ ⟨hw, rows', rfl⟩ hzero hr hs
  simp only [Bool.and_eq_true, decide_eq_true_eq] at hr hs
  have hrp := isPending_fresh rows hv.chain hv.network hv.past
  have hsp := isPending_fresh rows' hw.chain hw.network hw.past
  have hboth := hzero (hrp.symm.trans hr.1.1) (hsp.symm.trans hs.1.1) (hr.2.trans hs.2.symm)
  rw [hv.number, hw.number] at hboth
  exact hboth

end Held

section Later
variable {blockRepo : Bool} {c : RowChoice BulkAdjustItem} {env : IngestEnv}
variable {promo : FinalityPromotion} {batch : NormalizedBatch} {db u d₁ d₂ d₃ : Db}

theorem PromotesLike.backed_prefetched {addrMap : Option (List WatchedAddress)} {pre : Prefetched}
    {prefetched : Tokens} {st : BuildState}
    (hlike : PromotesLike env promo batch u.balanceEvents.rows u.tokens.rows u.balances)
    (hin : IngestedBy env (batch.withFinality "processed") u d₁ addrMap pre prefetched st) :
    Backed batch pre u.balances := by
  intro ec hec tokenID htok hne
  obtain ⟨tok, hmem, hkey, hsto⟩ := hlike.backed ec hec hne
  have hid : tok.id = tokenID :=
    bulkUpsertTokensTx_id collectEvents_tokenModels hin.tokens htok hmem hkey
  rw [hid] at hsto
  unfold prefetchedBalance
  cases hf : KeyedTable.find? u.balances ⟨batch.chain, batch.network, ec.be.address, tokenID, ""⟩ with
  | none =>
    rw [hf] at hsto
    cases hsto
  | some r => rfl

theorem ingested_related {addrMap addrMap' : Option (List WatchedAddress)} {pre pre' : Prefetched}
    {prefetched prefetched' : Tokens} {st st' : BuildState}
    (hlike : PromotesLike env promo batch u.balanceEvents.rows u.tokens.rows u.balances)
    (hin : IngestedBy env (batch.withFinality "processed") u d₁ addrMap pre prefetched st)
    (hin' : IngestedBy env (batch.withFinality "finalized") u d₃ addrMap' pre' prefetched' st') :
    List.Forall₂ SameModel st.eventModels st'.eventModels := by
  have haddr : addrMap' = addrMap := Except.ok.inj (hin'.addresses.symm.trans hin.addresses)
  have hpre : pre' = pre := by
    have h := hin.prefetch
    have h' := hin'.prefetch
    rw [prefetchBulkData_withFinality] at h h'
    exact congrArg Prod.fst (Except.ok.inj (h'.symm.trans h))
  subst haddr
  subst hpre
  refine buildEventModels_related (hlike.backed_prefetched hin) ?_ ?_ hin.build hin'.build
  · rfl
  · rfl

theorem promote_after_ingest
    (hlike : PromotesLike env promo batch u.balanceEvents.rows u.tokens.rows u.balances)
    (h₁ : ingestBatch env (batch.withFinality "processed") u = .ok d₁)
    (h₂ : handleFinalityPromotion blockRepo c promo d₁ = .ok d₂)
    (h₃ : ingestBatch env (batch.withFinality "finalized") u = .ok d₃) (b : BalanceKind)
    (a : Account) : amountOf d₂.balances (a.key b) = amountOf d₃.balances (a.key b) := by
  obtain ⟨_, _, _, st, hin⟩ := ingestBatch_ok h₁
  obtain ⟨_, _, _, st', hin'⟩ := ingestBatch_ok h₃
  obtain ⟨kept, vs, hw⟩ := hin.written
  obtain ⟨kept', vs', hw'⟩ := hin'.written
  have hrel := ingested_related hlike hin hin'
  have howner : OneOwner b st'.eventModels := hw'.oneOwner hin' hlike.owner
  obtain ⟨t, ht, rfl⟩ := handleFinalityPromotion_iff.mp h₂
  have hposts := appliedDelta_posts (c := c) (by decide) (.of_eq (listedFor_promoteItems b a))
    (fun _ => postable_held hin hw hlike a) ((bulkAdjust_ok_iff.mp ⟨t, ht⟩).2 _)
  show amountOf t (a.key b) = _
  rw [bulkAdjust_amount ht, hposts, Int.one_mul, hw.amount hin (oneOwner_related hrel howner),
    hw'.amount hin' howner, sum_adds_related hrel, ← pendingSum_held hw hlike, add_assoc]
  rfl

theorem promote_settled_amount (hset : ∀ r ∈ u.balanceEvents.rows, r.isPending promo = false)
    (h : handleFinalityPromotion blockRepo c promo u = .ok d₂) (b : BalanceKind) (a : Account) :
    amountOf d₂.balances (a.key b) = amountOf u.balances (a.key b) := by
  obtain ⟨t, ht, rfl⟩ := handleFinalityPromotion_iff.mp h
  refine amountOf_congr (bulkAdjust_frame ht ?_)
  rw [listedFor_promoteItems, List.map_eq_nil_iff]
  refine List.filter_eq_nil_iff.mpr fun r hr => ?_
  simp [hset r hr]

/-- The rows that a batch finds: those that its own rollback leaves. -/
def survivingRows (batch : NormalizedBatch) (db : Db) : List BalanceEventRow :=
  if rollsBack batch then db.balanceEvents.rows.filter fun r => !r.rolledBack batch
  else db.balanceEvents.rows

/-- A batch may be taken in early and promoted later. -/
def PromotesLater (env : IngestEnv) (promo : FinalityPromotion) (batch : NormalizedBatch)
    (db : Db) : Prop :=
  PromotesLike env promo (canonicalizeCursors batch)
    (survivingRows (canonicalizeCursors batch) db) db.tokens.rows db.balances

theorem promote_after_process (hlater : PromotesLater env promo batch db)
    (h₁ : processBatch env (batch.withFinality "processed") db = .ok d₁)
    (h₂ : handleFinalityPromotion blockRepo c promo d₁ = .ok d₂)
    (h₃ : processBatch env (batch.withFinality "finalized") db = .ok d₃) (b : BalanceKind)
    (a : Account) : amountOf d₂.balances (a.key b) = amountOf d₃.balances (a.key b) := by
  obtain ⟨u, hu, hrest⟩ := processBatch_withFinality h₁ h₃
  have hlike : PromotesLike env promo (canonicalizeCursors batch) u.balanceEvents.rows
      u.tokens.rows u.balances := by
    unfold PromotesLater survivingRows at hlater
    rcases hu with ⟨hback, rfl⟩ | ⟨hback, hdrift⟩
    · rw [hback] at hlater
      exact hlater
    · rw [if_pos hback] at hlater
      rw [hdrift.balanceEvents, hdrift.tokens]
      refine { hlater with backed := fun ec hec hne => ?_ }
      -- the rollback keeps the stored balances
      obtain ⟨tok, hmem, hkey, hsto⟩ := hlater.backed ec hec hne
      exact ⟨tok, hmem, hkey, (bulkAdjust_isSome hdrift.balances _).mpr (.inl hsto)⟩
  rcases hrest with ⟨hin, hin'⟩ | ⟨rfl, rfl⟩
  · exact promote_after_ingest hlike hin h₂ hin' b a
  · exact promote_settled_amount hlike.settled h₂ b a

end Later

/-- A promotion applies every pending delta exactly when the database is promotable; repeating it
changes nothing; and a batch that may be promoted later leaves the balances of the final one. -/
theorem handleFinalityPromotion_applies_iff (blockRepo : Bool) (promo : FinalityPromotion)
    (db : Db) :
    ((∀ c, ∃ db', handleFinalityPromotion blockRepo c promo db = .ok db' ∧
        ∀ b a, amountOf db'.balances (a.key b) =
          amountOf db.balances (a.key b) + pendingSum promo db b a) ↔ Promotable promo db) ∧
    (∀ c c' db' upToBlock, handleFinalityPromotion blockRepo c promo db = .ok db' →
      upToBlock ≤ promo.newFinalizedBlock →
      handleFinalityPromotion blockRepo c' { promo with newFinalizedBlock := upToBlock } db' =
        .ok db') ∧
    (∀ env batch c d₁ d₂ d₃, PromotesLater env promo batch db →
      processBatch env (batch.withFinality "processed") db = .ok d₁ →
      handleFinalityPromotion blockRepo c promo d₁ = .ok d₂ →
      processBatch env (batch.withFinality "finalized") db = .ok d₃ →
      ∀ (b : BalanceKind) (a : Account),
        amountOf d₂.balances (a.key b) = amountOf d₃.balances (a.key b)) :=
  ⟨promotes_iff, fun _ _ _ _ h hle => promotion_again h hle,
    fun _ _ _ _ _ _ hlater h₁ h₂ h₃ b a => promote_after_process hlater h₁ h₂ h₃ b a⟩

def pendingRow (id : UUID) (hid : 0 < id) (eventID : String) (delta blockCursor : Int) :
    BalanceEventRow :=
  { depositRow id hid eventID delta blockCursor with
    balanceApplied := false
    finalityState := "processed" }

def onePending : Db where
  balanceEvents := ⟨[pendingRow 1 Nat.one_pos "e1" 5 10], by decide⟩
  balances := ⟨[{ key := depositAccount.key .liquid, amount := 10 }], by decide⟩

def twoPending : Db where
  balanceEvents := ⟨[pendingRow 1 Nat.one_pos "e1" 5 10, pendingRow 2 Nat.two_pos "e2" 7 11],
    by decide⟩
  balances := ⟨[{ key := depositAccount.key .liquid, amount := 10 }], by decide⟩

theorem promotable_onePending : Promotable ⟨.ethereum, .mainnet, 10⟩ onePending := by
  have hlen : ∀ b a, (pendingFor ⟨.ethereum, .mainnet, 10⟩ onePending b a).length ≤ 1 :=
    fun b a => List.length_filter_le _ _
  refine ⟨fun b a hlt => absurd hlt (Nat.not_lt.mpr (hlen b a)), fun b a r hr => ?_⟩
  obtain ⟨hmem, hcond⟩ := List.mem_filter.mp hr
  have hrow : r = pendingRow 1 Nat.one_pos "e1" 5 10 := List.mem_singleton.mp hmem
  subst hrow
  simp only [Bool.and_eq_true, decide_eq_true_eq] at hcond
  obtain ⟨_, rfl⟩ := hcond
  cases b with
  | liquid => decide
  | staked => decide

theorem promotesLater_deposit :
    PromotesLater {} ⟨.ethereum, .mainnet, 10⟩ (depositBatch "finalized") {} := by
  refine ⟨rfl, rfl, by decide, by decide, ?_, ?_, by decide, by decide, ?_⟩
  · exact fun _ _ _ r hr => absurd hr List.not_mem_nil
  · exact fun r hr => absurd hr List.not_mem_nil
  · exact fun _ _ _ _ _ _ _ _ _ _ => ⟨rfl, rfl⟩

/-- One pending deposit is promoted, and a deposit may be promoted later. -/
theorem handleFinalityPromotion_applies_one :
    (∃ db', handleFinalityPromotion true RowChoice.first ⟨.ethereum, .mainnet, 10⟩ onePending =
        .ok db' ∧
      amountOf db'.balances (depositAccount.key .liquid) = 15 ∧
      handleFinalityPromotion true RowChoice.first ⟨.ethereum, .mainnet, 10⟩ db' = .ok db') ∧
    ∃ d₁ d₂ d₃, processBatch {} ((depositBatch "finalized").withFinality "processed") {} = .ok d₁ ∧
      handleFinalityPromotion true RowChoice.first ⟨.ethereum, .mainnet, 10⟩ d₁ = .ok d₂ ∧
      processBatch {} ((depositBatch "finalized").withFinality "finalized") {} = .ok d₃ ∧
      ∀ (b : BalanceKind) (a : Account),
        amountOf d₂.balances (a.key b) = amountOf d₃.balances (a.key b) := by
  have hone := handleFinalityPromotion_applies_iff true ⟨.ethereum, .mainnet, 10⟩ onePending
  have hempty := handleFinalityPromotion_applies_iff true ⟨.ethereum, .mainnet, 10⟩ {}
  constructor
  · obtain ⟨db', hok, hadds⟩ := hone.1.mpr promotable_onePending RowChoice.first
    refine ⟨db', hok, (hadds .liquid depositAccount).trans (by decide), ?_⟩
    exact hone.2.1 _ _ db' 10 hok (by decide)
  · obtain ⟨d₁, h₁, d₂, h₂, d₃, h₃, _⟩ :
        ∃ d₁, processBatch {} ((depositBatch "finalized").withFinality "processed") {} = .ok d₁ ∧
        ∃ d₂, handleFinalityPromotion true RowChoice.first ⟨.ethereum, .mainnet, 10⟩ d₁ = .ok d₂ ∧
        ∃ d₃, processBatch {} ((depositBatch "finalized").withFinality "finalized") {} = .ok d₃ ∧
          True := by decide
    exact ⟨d₁, d₂, d₃, h₁, h₂, h₃, hempty.2.2 {} (depositBatch "finalized") RowChoice.first
      d₁ d₂ d₃ promotesLater_deposit h₁ h₂ h₃⟩

/-- Two pending deposits to one stored balance: the promotion applies both events and adds one. -/
theorem handleFinalityPromotion_drops_second :
    pendingSum ⟨.ethereum, .mainnet, 11⟩ twoPending .liquid depositAccount = 12 ∧
    ((handleFinalityPromotion true RowChoice.first ⟨.ethereum, .mainnet, 11⟩
        twoPending).toOption.map fun db' =>
          (db'.balanceEvents.rows.map BalanceEventRow.balanceApplied,
            amountOf db'.balances (depositAccount.key .liquid))) = some ([true, true], 15) := by
  decide

end MultichainIndexer
