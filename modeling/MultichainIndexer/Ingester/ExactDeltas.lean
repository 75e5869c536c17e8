import MultichainIndexer.Lib.Related
import MultichainIndexer.Ingester.AdjustTotals
import MultichainIndexer.Ingester.BatchFacts
import MultichainIndexer.Ingester.Kept
import MultichainIndexer.Store.BulkAdds

/-!
# When a batch moves every balance by its deltas

The deltas of the kept events are added up by address, token and owner, and one
statement adds them to the balances, which have no owner in their key. So the
events of one balance that resolve to two owners reach the statement as two
items: a new balance then fails the batch, and of a stored one only one item is
applied. `ExactlyPostable` says when this does not happen and every number fits
its column; on batches of new events it is exactly the condition for a batch to
succeed and to move every balance by the deltas of its kept events.
-/

namespace MultichainIndexer

open Relational Text SumWhere

/-- New events: their ids are not stored and not repeated, and their deltas are integers. -/
structure NewEvents (batch : NormalizedBatch) (db : Db) : Prop where
  distinct : (batchEvents batch).Pairwise fun ec ec' =>
    ec.be.eventID ≠ "" → ec.be.eventID ≠ ec'.be.eventID
  unstored : ∀ ec ∈ batchEvents batch, ec.be.eventID ≠ "" →
    ∀ r ∈ db.balanceEvents.rows, r.eventID ≠ ec.be.eventID
  integers : ∀ ec ∈ batchEvents batch, ∃ d, parseInt ec.be.delta = some d

/-- Every balance moves by the deltas of the kept events that are posted to it. -/
def MovesByDeltas (env : IngestEnv) (batch : NormalizedBatch) (db db' : Db) : Prop :=
  ∀ (b : BalanceKind) (a : Account), amountOf db'.balances (a.key b) =
    amountOf db.balances (a.key b) + ((keptEvents env batch db).map (KeptEvent.adds batch b a)).sum

section Condition
variable (env : IngestEnv) (addrMap : Option (List WatchedAddress)) (batch : NormalizedBatch)

def ownerSum (b : BalanceKind) (ks : List KeptEvent) (k : KeptEvent) : Int :=
  sumWhere (fun k' => k'.posts batch b && decide (k'.account batch = k.account batch ∧
    k'.owner env addrMap batch = k.owner env addrMap batch)) (fun k' => b.signed k'.value) ks

/-- The events of one balance have one owner, or nothing is left of the deltas of any owner and
the balance is stored. -/
def OwnersSettle (b : BalanceKind) (ks : List KeptEvent) (t : Balances) : Prop :=
  ∀ k ∈ ks, ∀ k' ∈ ks, k.posts batch b = true → k'.posts batch b = true →
    k.account batch = k'.account batch → k.owner env addrMap batch ≠ k'.owner env addrMap batch →
    (KeyedTable.find? t ((k.account batch).key b)).isSome = true ∧
      ownerSum env addrMap batch b ks k = 0

structure ExactlyPostable (db : Db) : Prop where
  fees : FeesNumeric batch
  values : ∀ k ∈ keptEvents env batch db, FitsNumeric k.value ∧ FitsNumeric k.after ∧
    (k.applied batch = true → FitsNumeric k.before)
  owners : ∀ b, OwnersSettle env addrMap batch b (keptEvents env batch db) db.balances
  sums : ∀ b, ∀ k ∈ keptEvents env batch db, k.posts batch b = true →
    FitsNumeric (amountOf db.balances ((k.account batch).key b) +
      ownerSum env addrMap batch b (keptEvents env batch db) k)

end Condition

section Posted
variable {env : IngestEnv} {addrMap : Option (List WatchedAddress)} {batch : NormalizedBatch}
variable {ks : List KeptEvent} {ms : List BalanceEvent}
variable {agg : List (AdjustmentKey × AdjustmentAccum)}

/-- The models of the kept events and what is aggregated of them. -/
structure Posted (env : IngestEnv) (addrMap : Option (List WatchedAddress))
    (batch : NormalizedBatch) (ks : List KeptEvent) (ms : List BalanceEvent)
    (agg : List (AdjustmentKey × AdjustmentAccum)) : Prop where
  models : List.Forall₂ (fun k m => ∃ txID, m = KeptEvent.model env addrMap batch txID k) ks ms
  aggregated : Aggregated ms agg
  keys : ∀ ak, ak ∈ agg.map Prod.fst ↔ ak ∈ (ms.flatMap BalanceEvent.postings).map Prod.fst

def KeptEvent.adjustmentKey (env : IngestEnv) (addrMap : Option (List WatchedAddress))
    (batch : NormalizedBatch) (b : BalanceKind) (k : KeptEvent) : AdjustmentKey :=
  ⟨k.ec.be.address, k.tokenID, b.balanceType, (k.owner env addrMap batch).1,
    (k.owner env addrMap batch).2⟩

theorem KeptEvent.adjustmentKey_inj {b b' : BalanceKind} {k k' : KeptEvent} :
    k.adjustmentKey env addrMap batch b = k'.adjustmentKey env addrMap batch b' ↔
      (k.account batch = k'.account batch ∧ k.owner env addrMap batch = k'.owner env addrMap batch) ∧
        b = b' := by
  have hkind : b.balanceType = b'.balanceType ↔ b = b' := ⟨BalanceKind.balanceType_inj, congrArg _⟩
  simp only [adjustmentKey, AdjustmentKey.mk.injEq, account, Account.mk.injEq, true_and,
    Prod.ext_iff, hkind]
  tauto

namespace Posted

theorem chain_network (h : Posted env addrMap batch ks ms agg) :
    ∀ m ∈ ms, m.chain = batch.chain ∧ m.network = batch.network := by
  intro m hm
  obtain ⟨k, _, txID, rfl⟩ := Related.exists_left h.models m hm
  exact ⟨rfl, rfl⟩

theorem adds (h : Posted env addrMap batch ks ms agg) (b : BalanceKind) (a : Account) :
    ms.map (BalanceEvent.adds b a) = ks.map (KeptEvent.adds batch b a) := by
  symm
  apply Related.map_eq h.models
  rintro k m ⟨txID, rfl⟩
  rfl

theorem sum_postings (h : Posted env addrMap batch ks ms agg) (b : BalanceKind) (k : KeptEvent) :
    sumWhere (fun e => decide (e.1 = k.adjustmentKey env addrMap batch b)) (fun e => e.2)
      (ms.flatMap BalanceEvent.postings) = ownerSum env addrMap batch b ks k := by
  have hone : ∀ (txID : UUID) (k' : KeptEvent),
      sumWhere (fun e => decide (e.1 = k.adjustmentKey env addrMap batch b)) (fun e => e.2)
        (KeptEvent.model env addrMap batch txID k').postings =
      if k'.posts batch b && decide (k'.account batch = k.account batch ∧
        k'.owner env addrMap batch = k.owner env addrMap batch) then b.signed k'.value else 0 := by
    intro txID k'
    have hkey : ∀ b', decide ((posting b' (KeptEvent.model env addrMap batch txID k')).1 =
        k.adjustmentKey env addrMap batch b) =
        (decide (k'.account batch = k.account batch ∧
          k'.owner env addrMap batch = k.owner env addrMap batch) && decide (b' = b)) := by
      intro b'
      rw [← Bool.decide_and]
      exact decide_eq_decide.mpr KeptEvent.adjustmentKey_inj
    have hposts : ∀ b', (KeptEvent.model env addrMap batch txID k').posts b' =
      k'.posts batch b' := fun _ => rfl
    have hval : ∀ b', (posting b' (KeptEvent.model env addrMap batch txID k')).2 =
      b'.signed k'.value := fun _ => rfl
    unfold BalanceEvent.postings
    rw [sumWhere_map]
    simp only [hkey, hval, hposts]
    cases hl : k'.posts batch .liquid <;> cases hs : k'.posts batch .staked <;> cases b <;>
      simp [hl, hs]
  rw [sumWhere_flatMap, ownerSum, sumWhere]
  congr 1
  symm
  apply Related.map_eq h.models
  rintro k' m ⟨txID, rfl⟩
  exact (hone txID k').symm

variable {e : AdjustmentKey × AdjustmentAccum} {b : BalanceKind} {k : KeptEvent}

theorem exists_kept (h : Posted env addrMap batch ks ms agg) (he : e ∈ agg) :
    ∃ b, ∃ k ∈ ks, k.posts batch b = true ∧ e.1 = k.adjustmentKey env addrMap batch b := by
  obtain ⟨x, hx, hxe⟩ := List.mem_map.mp ((h.keys e.1).mp (List.mem_map_of_mem he))
  obtain ⟨m, hm, hpost⟩ := List.mem_flatMap.mp hx
  obtain ⟨b, hb, rfl⟩ := mem_postings.mp hpost
  obtain ⟨k, hk, txID, rfl⟩ := Related.exists_left h.models m hm
  exact ⟨b, k, hk, hb, hxe.symm⟩

theorem exists_entry (h : Posted env addrMap batch ks ms agg) (hk : k ∈ ks)
    (hpost : k.posts batch b = true) : ∃ e ∈ agg, e.1 = k.adjustmentKey env addrMap batch b := by
  obtain ⟨m, hm, txID, rfl⟩ := Related.exists_right h.models k hk
  have hmem : k.adjustmentKey env addrMap batch b ∈ agg.map Prod.fst := by
    refine (h.keys _).mpr (List.mem_map.mpr ⟨posting b (k.model env addrMap batch txID), ?_, rfl⟩)
    exact List.mem_flatMap.mpr ⟨_, hm, mem_postings.mpr ⟨b, hpost, rfl⟩⟩
  obtain ⟨e, he, hkey⟩ := List.mem_map.mp hmem
  exact ⟨e, he, hkey⟩

theorem entry_delta (h : Posted env addrMap batch ks ms agg) (he : e ∈ agg)
    (hkey : e.1 = k.adjustmentKey env addrMap batch b) :
    e.2.delta = ownerSum env addrMap batch b ks k := by
  rw [← h.sum_postings, ← h.aggregated.sum fun ak => decide (ak = k.adjustmentKey env addrMap batch b)]
  exact (Accumulate.sumWhere_key h.aggregated.nodup he hkey).symm

theorem entry_key (hkey : e.1 = k.adjustmentKey env addrMap batch b) :
    e.1.key batch.chain batch.network = (k.account batch).key b := by
  rw [hkey]
  rfl

theorem exists_kept_of_key (h : Posted env addrMap batch ks ms agg) (he : e ∈ agg) {a : Account}
    (hkey : e.1.key batch.chain batch.network = a.key b) :
    ∃ k ∈ ks, k.posts batch b = true ∧ k.account batch = a ∧
      e.1 = k.adjustmentKey env addrMap batch b := by
  obtain ⟨b', k, hk, hpost, hek⟩ := h.exists_kept he
  rw [entry_key hek, account_key_inj] at hkey
  obtain ⟨hacc, rfl⟩ := hkey
  exact ⟨k, hk, hpost, hacc, hek⟩

theorem listedFor_eq (k : BalanceKey) :
    listedFor batch.chain batch.network (adjustItems agg) k =
      adjustItems (agg.filter fun e => decide (e.1.key batch.chain batch.network = k)) := by
  unfold listedFor listed adjustItems
  rw [List.filter_map]
  rfl

theorem exists_entry_of_item (batch : NormalizedBatch) {i : BulkAdjustItem}
    (hi : i ∈ adjustItems agg) : ∃ e ∈ agg, i.delta = e.2.delta ∧
      i.key batch.chain batch.network = e.1.key batch.chain batch.network := by
  obtain ⟨e, he, rfl⟩ := List.mem_map.mp hi
  exact ⟨e, he, rfl, rfl⟩

theorem exists_item_of_entry (batch : NormalizedBatch) (he : e ∈ agg) :
    ∃ i ∈ adjustItems agg, i.delta = e.2.delta ∧
      i.key batch.chain batch.network = e.1.key batch.chain batch.network :=
  ⟨_, List.mem_map_of_mem he, rfl, rfl⟩

/-- What it takes for the statement to add up the aggregated deltas, said of the kept events. -/
theorem addable_iff (h : Posted env addrMap batch ks ms agg) (t : Balances) :
    BulkAddable batch.chain batch.network (adjustItems agg) t ↔
      (∀ b, OwnersSettle env addrMap batch b ks t) ∧
      ∀ b, ∀ k ∈ ks, k.posts batch b = true →
        FitsNumeric (amountOf t ((k.account batch).key b) +
          ownerSum env addrMap batch b ks k) := by
  constructor
  · intro hadd
    refine ⟨fun b k hk k' hk' hpost hpost' hacc howner => ?_, fun b k hk hpost => ?_⟩
    · obtain ⟨e, he, hkey⟩ := h.exists_entry hk hpost
      obtain ⟨e', he', hkey'⟩ := h.exists_entry hk' hpost'
      have hne : e ≠ e' := by
        rintro rfl
        exact howner (KeptEvent.adjustmentKey_inj.mp (hkey.symm.trans hkey')).1.2
      have hmem : ∀ x ∈ agg, x.1.key batch.chain batch.network = (k.account batch).key b →
          x ∈ agg.filter fun e => decide (e.1.key batch.chain batch.network =
            (k.account batch).key b) :=
        fun x hx hxk => List.mem_filter.mpr ⟨hx, by simpa using hxk⟩
      have hek := hmem e he (entry_key hkey)
      have hek' := hmem e' he' (by rw [entry_key hkey', hacc])
      have hlen : 1 < (listedFor batch.chain batch.network (adjustItems agg)
          ((k.account batch).key b)).length := by
        rw [listedFor_eq, adjustItems, List.length_map]
        generalize agg.filter (fun e => decide (e.1.key batch.chain batch.network =
          (k.account batch).key b)) = l at hek hek'
        match l with
        | [] => cases hek
        | [x] =>
          rw [List.mem_singleton] at hek hek'
          exact absurd (hek.trans hek'.symm) hne
        | _ :: _ :: _ => simp
      obtain ⟨hsto, hzero⟩ := hadd.repeated _ hlen
      obtain ⟨i, hi, hdelta, hikey⟩ := exists_item_of_entry batch he
      refine ⟨hsto, ?_⟩
      rw [← h.entry_delta he hkey, ← hdelta]
      exact hzero i (mem_listedFor.mpr ⟨hi, hikey.trans (entry_key hkey)⟩)
    · obtain ⟨e, he, hkey⟩ := h.exists_entry hk hpost
      obtain ⟨i, hi, hdelta, hikey⟩ := exists_item_of_entry batch he
      rw [← h.entry_delta he hkey, ← entry_key hkey, ← hdelta, ← hikey]
      exact hadd.fits i hi
  · rintro ⟨hown, hsums⟩
    constructor
    · intro key hlen
      -- two entries of one balance are of two owners
      obtain ⟨e, he, e', he', hk, hk', hne⟩ : ∃ e ∈ agg, ∃ e' ∈ agg,
          e.1.key batch.chain batch.network = key ∧ e'.1.key batch.chain batch.network = key ∧
            e.1 ≠ e'.1 := by
        by_contra hnone
        have hle := Accumulate.length_filter_le_one
          (p := fun ak => decide (ak.key batch.chain batch.network = key)) h.aggregated.nodup (by
            intro e he e' he' hk hk'
            rw [decide_eq_true_eq] at hk hk'
            by_contra hne
            exact hnone ⟨e, he, e', he', hk, hk', hne⟩)
        rw [listedFor_eq, adjustItems, List.length_map] at hlen
        omega
      obtain ⟨b, k, hkept, hpost, hkey⟩ := h.exists_kept he
      have hbal : key = (k.account batch).key b := hk.symm.trans (entry_key hkey)
      subst hbal
      obtain ⟨k', hkept', hpost', hacc', hkey'⟩ := h.exists_kept_of_key he' hk'
      have howner : k.owner env addrMap batch ≠ k'.owner env addrMap batch := by
        intro heq
        rw [hkey, hkey'] at hne
        exact hne (KeptEvent.adjustmentKey_inj.mpr ⟨⟨hacc'.symm, heq⟩, rfl⟩)
      refine ⟨(hown b k hkept k' hkept' hpost hpost' hacc'.symm howner).1, ?_⟩
      intro i hi
      obtain ⟨hi, hik⟩ := mem_listedFor.mp hi
      obtain ⟨x, hx, hdelta, hikey⟩ := exists_entry_of_item batch hi
      obtain ⟨k₂, hkept₂, hpost₂, hacc₂, hkey₂⟩ := h.exists_kept_of_key hx (hikey.symm.trans hik)
      rw [hdelta, h.entry_delta hx hkey₂]
      -- the owner of the third entry differs from one of the two
      by_cases hsame : k₂.owner env addrMap batch = k.owner env addrMap batch
      · exact (hown b k₂ hkept₂ k' hkept' hpost₂ hpost' (hacc₂.trans hacc'.symm)
          (hsame ▸ howner)).2
      · exact (hown b k₂ hkept₂ k hkept hpost₂ hpost hacc₂ hsame).2
    · intro i hi
      obtain ⟨e, he, hdelta, hikey⟩ := exists_entry_of_item batch hi
      obtain ⟨b, k, hk, hpost, hkey⟩ := h.exists_kept he
      rw [hdelta, hikey, entry_key hkey, h.entry_delta he hkey]
      exact hsums b k hk hpost

end Posted

end Posted

section Batch
variable {env : IngestEnv} {addrMap : Option (List WatchedAddress)} {batch : NormalizedBatch}
variable {db : Db} {pre : Prefetched} {st : BuildState}

theorem PrefetchedFor.readable (h : PrefetchedFor env batch db pre) (hnew : NewEvents batch db) :
    ∀ ec ∈ batchEvents batch, ec.Readable pre :=
  fun ec hec => ⟨h.token ec hec, h.tx ec hec, hnew.integers ec hec⟩

variable {u : Db}

theorem PrefetchedFor.kept (h : PrefetchedFor env batch db pre) (hu : u.balances = db.balances) :
    keepEvents batch pre.tokenIDMap (BuildState.start batch pre u).cachedDenied
      (BuildState.start batch pre u).inMemoryBalances (batchEvents batch) =
        keptEvents env batch db := by
  rw [keptEvents, ← h.tokenIDs, ← hu]
  exact keepEvents_congr h.denied

variable {agg : List (AdjustmentKey × AdjustmentAccum)} {ms : List BalanceEvent}

theorem PrefetchedFor.build_posted (h : PrefetchedFor env batch db pre) (hnew : NewEvents batch db)
    (hu : u.balances = db.balances)
    (hbuild : buildEventModels env addrMap batch pre (batchEvents batch) u = .ok st) :
    (∀ k ∈ keptEvents env batch db, FitsNumeric k.after) ∧
      Posted env addrMap batch (keptEvents env batch db) st.eventModels st.aggregatedDeltas := by
  obtain ⟨_, _, _, hagg⟩ := buildEventModels_spec hbuild
  rw [buildEventModels_eq] at hbuild
  obtain ⟨ms, hrel, hmod, hkeys⟩ := build_kept (h.readable hnew) hbuild
  obtain rfl : st.eventModels = ms := hmod
  rw [h.kept hu] at hrel
  refine ⟨fun k hk => ?_, hrel.imp fun _ _ hkm => hkm.2, hagg, fun ak => ?_⟩
  · obtain ⟨m, _, hfits, _⟩ := Related.exists_right hrel k hk
    exact hfits
  · rw [hkeys]
    simp [BuildState.start]

theorem PrefetchedFor.build_isOk (h : PrefetchedFor env batch db pre) (hnew : NewEvents batch db)
    (hu : u.balances = db.balances) (hfits : ∀ k ∈ keptEvents env batch db, FitsNumeric k.after) :
    ∃ st, buildEventModels env addrMap batch pre (batchEvents batch) u = .ok st := by
  rw [buildEventModels_eq]
  apply build_ok (h.readable hnew)
  rw [h.kept hu]
  exact hfits

theorem numericText_ok_iff {s : String} {d : Int} (hd : parseInt s = some d) :
    (∃ x, numericText s = .ok x) ↔ FitsNumeric d := by
  unfold numericText
  rw [trimBy_of_parseInt (fun _ => isSpace_of_isAsciiSpace) hd, hd]
  by_cases hfit : FitsNumeric d
  · simp [hfit]
  · simp [hfit]

theorem eventValues_ok_iff {now : Int} {k : KeptEvent} {d : Int}
    (hd : parseInt k.ec.be.delta = some d) (txID : UUID) :
    (∃ v, eventValues now (k.model env addrMap batch txID) = .ok v) ↔
      FitsNumeric k.value ∧
        (k.applied batch = true → FitsNumeric k.before ∧ FitsNumeric k.after) := by
  have hvalue : k.value = d := by
    rw [KeptEvent.value, deltaValue, trimSpace_of_parseInt hd, hd]
    rfl
  have hdelta : (k.model env addrMap batch txID).delta = k.ec.be.delta := rfl
  have hbef : (k.model env addrMap batch txID).balanceBefore =
    if k.applied batch then some k.before else none := rfl
  have hafter : (k.model env addrMap batch txID).balanceAfter =
    if k.applied batch then some k.after else none := rfl
  unfold eventValues
  rw [hdelta, hbef, hafter, hvalue, ← numericText_ok_iff hd]
  cases hnum : numericText k.ec.be.delta with
  | error e => simp
  | ok x =>
    cases k.applied batch with
    | false => simp [fitsNumeric?]
    | true =>
      by_cases hfits : FitsNumeric k.before ∧ FitsNumeric k.after
      · simp [fitsNumeric?, hfits]
      · simp only [fitsNumeric?, if_true, Option.all_some, ← Bool.decide_and, hfits,
          decide_false, Bool.false_eq_true, if_false]
        simp

theorem Posted.distinct (h : Posted env addrMap batch (keptEvents env batch db) ms agg)
    (hnew : NewEvents batch db) : DistinctIDs ms := by
  have hkept : (keptEvents env batch db).Pairwise fun k k' =>
      k.ec.be.eventID ≠ "" → k.ec.be.eventID ≠ k'.ec.be.eventID :=
    List.pairwise_map.mp (hnew.distinct.sublist (keepEvents_sublist _ _ _))
  refine Related.pairwise h.models hkept ?_
  rintro k k' m m' ⟨_, rfl⟩ ⟨_, rfl⟩ hne
  exact hne

theorem Posted.values_ok_iff (h : Posted env addrMap batch (keptEvents env batch db) ms agg)
    (hnew : NewEvents batch db) (now : Int) :
    (∀ m ∈ ms, ∃ v, eventValues now m = .ok v) ↔
      ∀ k ∈ keptEvents env batch db, FitsNumeric k.value ∧
        (k.applied batch = true → FitsNumeric k.before ∧ FitsNumeric k.after) := by
  have hint : ∀ k ∈ keptEvents env batch db, ∃ d, parseInt k.ec.be.delta = some d :=
    fun k hk => hnew.integers k.ec
      ((keepEvents_sublist _ _ _).subset (List.mem_map_of_mem hk))
  constructor
  · intro hms k hk
    obtain ⟨m, hm, txID, rfl⟩ := Related.exists_right h.models k hk
    obtain ⟨d, hd⟩ := hint k hk
    exact (eventValues_ok_iff hd txID).mp (hms _ hm)
  · intro hks m hm
    obtain ⟨k, hk, txID, rfl⟩ := Related.exists_left h.models m hm
    obtain ⟨d, hd⟩ := hint k hk
    exact (eventValues_ok_iff hd txID).mpr (hks k hk)

theorem Posted.adds_all {ks : List KeptEvent} (h : Posted env addrMap batch ks ms agg)
    {c : RowChoice BulkAdjustItem} {t t' : Balances}
    (hok : bulkAdjustBalanceTx batch.chain batch.network c (adjustItems agg) t = .ok t')
    (hmoves : ∀ (b : BalanceKind) (a : Account), amountOf t' (a.key b) =
      amountOf t (a.key b) + (ks.map (KeptEvent.adds batch b a)).sum) (k : BalanceKey) :
    amountOf t' k = amountOf t k + listedSum batch.chain batch.network (adjustItems agg) k := by
  by_cases hlis : listedFor batch.chain batch.network (adjustItems agg) k = []
  · rw [amountOf_congr (bulkAdjust_frame hok hlis), listedSum_eq, hlis]
    simp
  · obtain ⟨i, hi⟩ := List.exists_mem_of_ne_nil _ hlis
    obtain ⟨hi, hik⟩ := mem_listedFor.mp hi
    obtain ⟨e, he, _, hikey⟩ := Posted.exists_entry_of_item batch hi
    obtain ⟨b, kept, _, _, hkey⟩ := h.exists_kept he
    rw [← hik, hikey, Posted.entry_key hkey, hmoves,
      listedSum_adjustItems h.aggregated h.chain_network, h.adds]

theorem buildEventModels_choice (c : RowChoice BulkAdjustItem) (allEvents : List EventContext)
    (u : Db) : buildEventModels { env with choice := c } addrMap batch pre allEvents u =
      buildEventModels env addrMap batch pre allEvents u := by
  have howner : ∀ be, resolveOwner { env with choice := c } addrMap batch be =
      resolveOwner env addrMap batch be := by
    intro be
    unfold resolveOwner lookupAddress
    rfl
  have hstep : buildEvent { env with choice := c } addrMap batch pre =
      buildEvent env addrMap batch pre := by
    funext st ec
    unfold buildEvent
    rw [howner]
  unfold buildEventModels buildEventModelsFrom
  rw [hstep]

theorem ingestBatch_eq {c : RowChoice BulkAdjustItem}
    (haddr : blockScanAddresses env batch = .ok addrMap)
    (hpre : prefetchBulkData env batch (collectEvents batch) db = .ok (pre, u))
    (hbuild : buildEventModels env addrMap batch pre (batchEvents batch) u = .ok st) :
    ingestBatch { env with choice := c } batch db =
      writeBulkAndCommit { env with choice := c } batch st u := by
  have haddr' : blockScanAddresses { env with choice := c } batch = .ok addrMap := haddr
  have hpre' : prefetchBulkData { env with choice := c } batch (collectEvents batch) db =
    .ok (pre, u) := hpre
  unfold ingestBatch
  rw [haddr']
  simp only [bind, Except.bind, hpre', collectEvents_allEvents, buildEventModels_choice, hbuild]

theorem ingestBatch_exact_iff (haddr : blockScanAddresses env batch = .ok addrMap)
    (hnew : NewEvents batch db) :
    (∀ c, ∃ db', ingestBatch { env with choice := c } batch db = .ok db' ∧
      MovesByDeltas env batch db db') ↔ ExactlyPostable env addrMap batch db := by
  constructor
  · intro hall
    obtain ⟨db₀, hok₀, _⟩ := hall RowChoice.first
    obtain ⟨addrMap', pre, tokens, st, hin⟩ := ingestBatch_ok hok₀
    have haddr' : blockScanAddresses env batch = .ok addrMap' := hin.addresses
    rw [haddr] at haddr'
    cases haddr'
    have hpref : prefetchBulkData env batch (collectEvents batch) db =
      .ok (pre, { db with transactions := db₀.transactions, tokens := tokens }) := hin.prefetch
    have hbuild := hin.build
    rw [buildEventModels_choice] at hbuild
    obtain ⟨hfees, hpre⟩ := prefetchBulkData_for hpref
    obtain ⟨hfits, hpos⟩ := hpre.build_posted hnew
      (u := { db with transactions := db₀.transactions, tokens := tokens }) rfl hbuild
    obtain ⟨res, hres⟩ := hin.balanceEvents
    have hval := (hpos.values_ok_iff hnew env.now).mp
      ((bulkUpsertEventsTx_ok_iff (hpos.distinct hnew) db.balanceEvents).mp ⟨_, hres⟩)
    have hadds : ∀ c, ∃ t', bulkAdjustBalanceTx batch.chain batch.network c
        (adjustItems st.aggregatedDeltas) db.balances = .ok t' ∧ ∀ k, amountOf t' k =
          amountOf db.balances k +
            listedSum batch.chain batch.network (adjustItems st.aggregatedDeltas) k := by
      intro c
      obtain ⟨db', hok, hmoves⟩ := hall c
      rw [ingestBatch_eq haddr hpref hbuild] at hok
      have hbal := (writeBulkAndCommit_ok hok).2.1
      exact ⟨db'.balances, hbal, hpos.adds_all hbal hmoves⟩
    obtain ⟨hown, hsums⟩ := (hpos.addable_iff db.balances).mp (bulkAdjust_adds_iff.mp hadds)
    exact ⟨hfees, fun k hk => ⟨(hval k hk).1, hfits k hk, fun happ => ((hval k hk).2 happ).1⟩,
      hown, hsums⟩
  · intro hcond c
    obtain ⟨⟨pre, u⟩, hpref⟩ : ∃ res, prefetchBulkData env batch (collectEvents batch) db =
      .ok res := prefetchBulkData_ok_iff.mpr hcond.fees
    obtain ⟨_, hpre⟩ := prefetchBulkData_for hpref
    have hu : u = { db with transactions := u.transactions, tokens := u.tokens } :=
      (prefetchBulkData_ok hpref).2.2
    have hubal : u.balances = db.balances := by rw [hu]
    have huevents : u.balanceEvents = db.balanceEvents := by rw [hu]
    obtain ⟨st, hbuild⟩ : ∃ st, buildEventModels env addrMap batch pre (batchEvents batch) u =
      .ok st := hpre.build_isOk hnew hubal fun k hk => (hcond.values k hk).2.1
    obtain ⟨_, hpos⟩ := hpre.build_posted hnew hubal hbuild
    have hadd := (hpos.addable_iff db.balances).mpr ⟨hcond.owners, hcond.sums⟩
    have heve : ∃ res, bulkUpsertEventsTx env.now st.eventModels u.balanceEvents = .ok res := by
      rw [bulkUpsertEventsTx_ok_iff (hpos.distinct hnew), hpos.values_ok_iff hnew]
      intro k hk
      obtain ⟨hvalue, hafter, hbef⟩ := hcond.values k hk
      exact ⟨hvalue, fun happ => ⟨hbef happ, hafter⟩⟩
    have hbala := hadd.bulk_ok c
    rw [← hubal] at hbala
    obtain ⟨db', hok⟩ : ∃ db', writeBulkAndCommit { env with choice := c } batch st u = .ok db' :=
      writeBulkAndCommit_isOk heve hbala
    refine ⟨db', ?_, fun b a => ?_⟩
    · rw [ingestBatch_eq haddr hpref hbuild]
      exact hok
    · have hbal := (writeBulkAndCommit_ok hok).2.1
      rw [hubal] at hbal
      rw [bulkAdjust_adds hbal (hadd.separable _),
        listedSum_adjustItems hpos.aggregated hpos.chain_network, hpos.adds]

end Batch

section Cursors
variable (env : IngestEnv) (batch : NormalizedBatch) (db : Db)

theorem keptEvents_canonicalizeCursors :
    keptEvents env (canonicalizeCursors batch) db = keptEvents env batch db := by
  have hchain : (canonicalizeCursors batch).chain = batch.chain := rfl
  unfold keptEvents
  rw [keepEvents_of_chain hchain]
  rfl

theorem owner_canonicalizeCursors (addrMap : Option (List WatchedAddress)) (k : KeptEvent) :
    k.owner env addrMap (canonicalizeCursors batch) = k.owner env addrMap batch := by
  unfold KeptEvent.owner resolveOwner lookupAddress
  rfl

theorem exactlyPostable_canonicalizeCursors (addrMap : Option (List WatchedAddress)) :
    ExactlyPostable env addrMap (canonicalizeCursors batch) db ↔
      ExactlyPostable env addrMap batch db := by
  have hposts : ∀ b (k : KeptEvent), k.posts (canonicalizeCursors batch) b = k.posts batch b :=
    fun _ _ => rfl
  have hacc : ∀ k : KeptEvent, k.account (canonicalizeCursors batch) = k.account batch :=
    fun _ => rfl
  have hsum : ∀ b ks k, ownerSum env addrMap (canonicalizeCursors batch) b ks k =
      ownerSum env addrMap batch b ks k := by
    intro b ks k
    unfold ownerSum
    simp only [hposts, hacc, owner_canonicalizeCursors]
  have howne : ∀ b ks t, OwnersSettle env addrMap (canonicalizeCursors batch) b ks t ↔
      OwnersSettle env addrMap batch b ks t := by
    intro b ks t
    unfold OwnersSettle
    simp only [hposts, hacc, hsum, owner_canonicalizeCursors]
  constructor
  · rintro ⟨hfees, hval, hown, hsums⟩
    simp only [keptEvents_canonicalizeCursors, howne, hposts, hacc, hsum] at hval hown hsums
    exact ⟨hfees, hval, hown, hsums⟩
  · rintro ⟨hfees, hval, hown, hsums⟩
    refine ⟨hfees, ?_, ?_, ?_⟩
    · rw [keptEvents_canonicalizeCursors]
      exact hval
    · simp only [keptEvents_canonicalizeCursors, howne]
      exact hown
    · simp only [keptEvents_canonicalizeCursors, hposts, hacc, hsum]
      exact hsums

end Cursors

/-- On a batch of new events whose deltas are integers, whatever rows the database joins, the
batch succeeds and moves every balance by its deltas exactly if they are exactly postable. -/
theorem processBatch_exact_iff (env : IngestEnv) (addrMap : Option (List WatchedAddress))
    (batch : NormalizedBatch) (db : Db) (hprev : batch.previousCursorValue = none)
    (haddr : blockScanAddresses env batch = .ok addrMap) (hnew : NewEvents batch db) :
    (∀ c, ∃ db', processBatch { env with choice := c } batch db = .ok db' ∧
      MovesByDeltas env batch db db') ↔ ExactlyPostable env addrMap batch db := by
  have hmoves : ∀ db', MovesByDeltas env (canonicalizeCursors batch) db db' ↔
      MovesByDeltas env batch db db' := by
    intro db'
    have hadds : ∀ b a (k : KeptEvent), k.adds (canonicalizeCursors batch) b a = k.adds batch b a :=
      fun _ _ _ => rfl
    unfold MovesByDeltas
    simp only [keptEvents_canonicalizeCursors, funext (hadds _ _)]
  have hcanon : NewEvents (canonicalizeCursors batch) db := ⟨hnew.1, hnew.2, hnew.3⟩
  have haddr' : blockScanAddresses env (canonicalizeCursors batch) = .ok addrMap := haddr
  rw [← exactlyPostable_canonicalizeCursors, ← ingestBatch_exact_iff haddr' hcanon]
  simp only [processBatch_of_no_previous _ _ hprev, hmoves]

def depositFrom (eventID counterparty delta : String) : NormalizedBalanceEvent where
  activityType := .deposit
  contractAddress := "0xt"
  address := "0xa"
  counterpartyAddress := counterparty
  delta := delta
  tokenType := .fungible
  eventID := eventID
  finalityState := "finalized"

def walletDeposits : NormalizedBatch where
  chain := .ethereum
  network := .mainnet
  blockScanMode := true
  transactions := [{
    txHash := "0xaa"
    blockCursor := 10
    feeAmount := "0"
    balanceEvents := [depositFrom "e1" "0xb" "5", depositFrom "e2" "0xc" "7"] }]
  newCursorSequence := 10

def walletsOf (wallet wallet' : String) : List WatchedAddress :=
  [{ address := "0xb", walletID := some wallet }, { address := "0xc", walletID := some wallet' }]

def walletEnv (wallet wallet' : String) : IngestEnv where
  watchedAddrRepo := some (.ok (walletsOf wallet wallet'))

def storedTen : Db where
  tokens := ⟨[{ id := 1, chain := .ethereum, network := .mainnet, contractAddress := "0xt" }],
    by decide⟩
  balances := ⟨[{ key := ⟨.ethereum, .mainnet, "0xa", 1, ""⟩, amount := 10 }], by decide⟩

theorem newEvents_walletDeposits {db : Db} (hdb : db.balanceEvents.rows = []) :
    NewEvents walletDeposits db := by
  refine ⟨by decide, ?_, ?_⟩
  · intro ec _ _ r hr
    rw [hdb] at hr
    cases hr
  · intro ec hec
    have hdelta : ec.be.delta = "5" ∨ ec.be.delta = "7" := by
      simp [batchEvents, walletDeposits, eventsOf, isFeeOnly] at hec
      rcases hec with rfl | rfl
      · exact .inl rfl
      · exact .inr rfl
    rcases hdelta with h | h
    · exact ⟨5, by rw [h]; decide +kernel⟩
    · exact ⟨7, by rw [h]; decide +kernel⟩

/-- Both counterparties are of one wallet: the batch succeeds and adds 12. -/
theorem processBatch_exact_one_wallet : NewEvents walletDeposits {} ∧
    ∀ c, ∃ db', processBatch { walletEnv "w" "w" with choice := c } walletDeposits {} = .ok db' ∧
      MovesByDeltas (walletEnv "w" "w") walletDeposits {} db' := by
  have howner : ∀ k ∈ keptEvents (walletEnv "w" "w") walletDeposits {},
      k.owner (walletEnv "w" "w") (some (walletsOf "w" "w")) walletDeposits = ("w", "") := by
    decide +kernel
  have hnew : NewEvents walletDeposits {} := newEvents_walletDeposits rfl
  refine ⟨hnew, (processBatch_exact_iff (walletEnv "w" "w") (some (walletsOf "w" "w"))
    walletDeposits {} rfl rfl hnew).mpr ⟨?_, ?_, ?_, ?_⟩⟩
  · intro x hx
    exact ⟨some 0, by revert x; decide +kernel⟩
  · decide +kernel
  · intro b k hk k' hk' _ _ _ hne
    exact absurd ((howner k hk).trans (howner k' hk').symm) hne
  · intro b
    cases b with
    | liquid => decide +kernel
    | staked => decide +kernel

/-- The counterparties are of two wallets: without a stored balance the batch fails, and a stored
balance of 10 moves by 5 where the deltas sum to 12. -/
theorem processBatch_two_wallets :
    NewEvents walletDeposits {} ∧ (processBatch (walletEnv "w" "v") walletDeposits {}).isOk = false ∧
    NewEvents walletDeposits storedTen ∧
    ((processBatch (walletEnv "w" "v") walletDeposits storedTen).toOption.map fun db' =>
      amountOf db'.balances ⟨.ethereum, .mainnet, "0xa", 1, ""⟩) = some 15 ∧
    ((keptEvents (walletEnv "w" "v") walletDeposits storedTen).map
      (KeptEvent.adds walletDeposits .liquid ⟨.ethereum, .mainnet, "0xa", 1⟩)).sum = 12 := by
  refine ⟨newEvents_walletDeposits rfl, ?_, newEvents_walletDeposits rfl, ?_, ?_⟩
  · decide +kernel
  · decide +kernel
  · decide +kernel

end MultichainIndexer
