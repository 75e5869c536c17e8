import MultichainIndexer.Lib.Related
import MultichainIndexer.Ingester.AdjustTotals
import MultichainIndexer.Ingester.BatchFacts
import MultichainIndexer.Ingester.EventTotals
import MultichainIndexer.Ingester.Prefetch

/-!
# The events that a batch writes

A batch keeps some of its events, in order, and writes the values of their
models. `Written` collects what is known of them. The balance of an account then
moves by what its models add, provided that each balance has one owner.
-/

namespace MultichainIndexer

open Relational SumWhere

/-- The applied events of one address and contract resolve to one owner. -/
def OwnersAgree (env : IngestEnv) (batch : NormalizedBatch) : Prop :=
  ∀ addrMap, blockScanAddresses env batch = .ok addrMap →
    ∀ ec ∈ batchEvents batch, ∀ ec' ∈ batchEvents batch,
      ec.applies batch = true → ec'.applies batch = true →
      ec.be.address = ec'.be.address → ec.be.contractAddress = ec'.be.contractAddress →
      derefStr (resolveOwner env addrMap batch ec.be).walletID =
          derefStr (resolveOwner env addrMap batch ec'.be).walletID ∧
        derefStr (resolveOwner env addrMap batch ec.be).orgID =
          derefStr (resolveOwner env addrMap batch ec'.be).orgID

structure Written (env : IngestEnv) (batch : NormalizedBatch) (db db' : Db)
    (addrMap : Option (List WatchedAddress)) (pre : Prefetched) (st : BuildState)
    (kept : List EventContext) (vs : List EventValues) : Prop where
  sublist : kept.Sublist (batchEvents batch)
  models : vs.map EventValues.event = st.eventModels
  built : List.Forall₂ (fun ec v => BuiltFrom env addrMap batch pre ec v.event) kept vs
  numbers : ∀ v ∈ vs, numericText v.event.delta = .ok v.delta
  wrote : eventUpsert.WroteAll db.balanceEvents vs db'.balanceEvents
  aggregated : Aggregated st.eventModels st.aggregatedDeltas

theorem numericText_value {s : String} {d : Int} (h : numericText s = .ok d) : deltaValue s = d := by
  unfold numericText at h
  split at h
  · cases h
  · rename_i x hx
    split at h
    · cases h
      rw [deltaValue, Text.parseInt_trimSpace hx]
      rfl
    · cases h

section Written
variable {b : BalanceKind} {env : IngestEnv} {batch : NormalizedBatch} {db db' : Db}
variable {addrMap : Option (List WatchedAddress)} {pre : Prefetched} {prefetched : Tokens}
variable {st : BuildState} {kept : List EventContext} {vs : List EventValues}

theorem IngestedBy.written (h : IngestedBy env batch db db' addrMap pre prefetched st) :
    ∃ kept vs, Written env batch db db' addrMap pre st kept vs := by
  obtain ⟨kept, hsub, hbuilt, hagg⟩ := buildEventModels_spec h.build
  obtain ⟨res, hup⟩ := h.balanceEvents
  obtain ⟨vs, hvs, hnum, hwrote⟩ := bulkUpsertEventsTx_wrote hup
  rw [← hvs] at hbuilt
  exact ⟨kept, vs, hsub, hvs, List.forall₂_map_right_iff.mp hbuilt, hnum, hwrote, hagg⟩

theorem BuiltFrom.eventID {ec : EventContext} {m : BalanceEvent}
    (h : BuiltFrom env addrMap batch pre ec m) : m.eventID = ec.be.eventID := by
  obtain ⟨_, _, _, _, _, rfl⟩ := h
  rfl

theorem BuiltFrom.placed {ec : EventContext} {m : BalanceEvent}
    (h : BuiltFrom env addrMap batch pre ec m) :
    m.blockCursor = ec.ntx.blockCursor ∧ m.finalityState = ec.be.finalityState := by
  obtain ⟨_, _, _, _, _, rfl⟩ := h
  exact ⟨rfl, rfl⟩

theorem BuiltFrom.same_contract {ec ec' : EventContext} {m m' : BalanceEvent}
    (htoke : bulkUpsertTokensTx (collectEvents batch).tokenModels db.tokens =
      .ok (prefetched, pre.tokenIDMap))
    (h : BuiltFrom env addrMap batch pre ec m) (h' : BuiltFrom env addrMap batch pre ec' m')
    (hacc : m.account = m'.account) :
    ec.be.address = ec'.be.address ∧ ec.be.contractAddress = ec'.be.contractAddress := by
  obtain ⟨txID, tokenID, before, after, htok, rfl⟩ := h
  obtain ⟨txID', tokenID', before', after', htok', rfl⟩ := h'
  have htokID : tokenID = tokenID' := congrArg Account.tokenID hacc
  refine ⟨congrArg Account.address hacc, ?_⟩
  obtain ⟨_, hids⟩ := bulkUpsertTokensTx_ok collectEvents_tokenModels htoke
  obtain ⟨tok, hmem, hkey, hid⟩ := hids _ _ htok
  obtain ⟨tok', hmem', hkey', hid'⟩ := hids _ _ htok'
  have htoks : tok = tok' :=
    IndexedTable.eq_of_ident_eq hmem hmem' (hid.trans (htokID.trans hid'.symm))
  rw [htoks, hkey'] at hkey
  exact (congrArg (fun k => k.2.2) (Option.some.inj hkey)).symm

namespace Written

theorem exists_event (h : Written env batch db db' addrMap pre st kept vs) :
    ∀ v ∈ vs, ∃ ec ∈ batchEvents batch, BuiltFrom env addrMap batch pre ec v.event := by
  intro v hv
  obtain ⟨ec, hec, hb⟩ := Related.exists_left h.built v hv
  exact ⟨ec, h.sublist.subset hec, hb⟩

theorem exists_model (h : Written env batch db db' addrMap pre st kept vs) :
    ∀ m ∈ st.eventModels, ∃ ec ∈ batchEvents batch, BuiltFrom env addrMap batch pre ec m := by
  intro m hm
  rw [← h.models] at hm
  obtain ⟨v, hv, rfl⟩ := List.mem_map.mp hm
  exact h.exists_event v hv

theorem pairwise (h : Written env batch db db' addrMap pre st kept vs)
    {P : EventContext → EventContext → Prop} {Q : EventValues → EventValues → Prop}
    (hP : (batchEvents batch).Pairwise P)
    (hPQ : ∀ ec ec' v w, BuiltFrom env addrMap batch pre ec v.event →
      BuiltFrom env addrMap batch pre ec' w.event → P ec ec' → Q v w) : vs.Pairwise Q :=
  Related.pairwise h.built (hP.sublist h.sublist) hPQ

theorem distinct (h : Written env batch db db' addrMap pre st kept vs)
    (hdis : (batchEvents batch).Pairwise fun ec ec' =>
      ec.be.eventID ≠ "" → ec.be.eventID ≠ ec'.be.eventID) :
    vs.Pairwise fun v w => ∀ k, v.eventKey = some k → w.eventKey ≠ some k := by
  refine h.pairwise hdis ?_
  intro ec ec' v w hv hw hne k hk hk'
  rw [EventValues.eventKey_eq_some, hv.eventID] at hk
  rw [EventValues.eventKey_eq_some, hw.eventID] at hk'
  exact hne hk.1 (hk.2.trans hk'.2.symm)

theorem chain_network (h : Written env batch db db' addrMap pre st kept vs) :
    ∀ m ∈ st.eventModels, m.chain = batch.chain ∧ m.network = batch.network := by
  intro m hm
  obtain ⟨_, _, _, _, _, _, _, rfl⟩ := h.exists_model m hm
  exact ⟨rfl, rfl⟩

theorem oneOwner (h : Written env batch db db' addrMap pre st kept vs)
    (hin : IngestedBy env batch db db' addrMap pre prefetched st)
    (howner : OwnersAgree env batch) : OneOwner b st.eventModels := by
  intro m hm m' hm' hpost hpost' hacc
  obtain ⟨ec, hec, hb⟩ := h.exists_model m hm
  obtain ⟨ec', hec', hb'⟩ := h.exists_model m' hm'
  obtain ⟨hadd, hcon⟩ := hb.same_contract hin.tokens hb' hacc
  obtain ⟨_, _, _, _, _, rfl⟩ := hb
  obtain ⟨_, _, _, _, _, rfl⟩ := hb'
  exact howner addrMap hin.addresses ec hec ec' hec' (Bool.and_eq_true _ _ ▸ hpost).1
    (Bool.and_eq_true _ _ ▸ hpost').1 hadd hcon

theorem amount (h : Written env batch db db' addrMap pre st kept vs)
    (hin : IngestedBy env batch db db' addrMap pre prefetched st)
    (howner : OneOwner b st.eventModels) (a : Account) :
    amountOf db'.balances (a.key b) =
      amountOf db.balances (a.key b) + (st.eventModels.map (BalanceEvent.adds b a)).sum := by
  rw [bulkAdjust_adds hin.balances (separable_adjustItems h.aggregated h.chain_network howner a),
    listedSum_adjustItems h.aggregated h.chain_network]

theorem adds_models (h : Written env batch db db' addrMap pre st kept vs) (b : BalanceKind)
    (a : Account) : vs.map (EventValues.adds b a) = st.eventModels.map (BalanceEvent.adds b a) := by
  rw [← h.models, List.map_map]
  refine List.map_congr_left fun v hv => ?_
  unfold EventValues.adds Function.comp BalanceEvent.adds
  rw [numericText_value (h.numbers v hv)]

end Written

end Written

end MultichainIndexer
