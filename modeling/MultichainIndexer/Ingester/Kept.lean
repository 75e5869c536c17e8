import MultichainIndexer.Ingester.BuildFacts
import MultichainIndexer.Ingester.Prefetch

/-!
# The events that a batch keeps

`keepEvents` walks over the events as the build does, without building models:
it skips the events of denied contracts, denies a contract from a scam on, and
carries the balances that applied events have reached. What it keeps is what
the build makes models of, and the build fails only where the balance after a
kept event does not fit its column.
-/

namespace MultichainIndexer

open Relational Text

structure KeptEvent where
  ec : EventContext
  tokenID : UUID
  before : Int

namespace KeptEvent

def value (k : KeptEvent) : Int := deltaValue k.ec.be.delta

def after (k : KeptEvent) : Int := k.before + k.value

def applied (batch : NormalizedBatch) (k : KeptEvent) : Bool :=
  meetsBalanceThreshold batch.chain k.ec.be.finalityState k.ec.be.tokenType k.ec.be.delta

def posts (batch : NormalizedBatch) (b : BalanceKind) (k : KeptEvent) : Bool :=
  k.applied batch && b.counts k.ec.be.activityType

def account (batch : NormalizedBatch) (k : KeptEvent) : Account :=
  ⟨batch.chain, batch.network, k.ec.be.address, k.tokenID⟩

def adds (batch : NormalizedBatch) (b : BalanceKind) (a : Account) (k : KeptEvent) : Int :=
  if k.posts batch b && decide (k.account batch = a) then b.signed k.value else 0

def owner (env : IngestEnv) (addrMap : Option (List WatchedAddress)) (batch : NormalizedBatch)
    (k : KeptEvent) : String × String :=
  (derefStr (resolveOwner env addrMap batch k.ec.be).walletID,
    derefStr (resolveOwner env addrMap batch k.ec.be).orgID)

def model (env : IngestEnv) (addrMap : Option (List WatchedAddress)) (batch : NormalizedBatch)
    (txID : UUID) (k : KeptEvent) : BalanceEvent :=
  eventModel batch k.ec (resolveOwner env addrMap batch k.ec.be) txID k.tokenID k.before k.after

end KeptEvent

/-- The walk, from the contracts denied so far and the balances reached so far. -/
def keepEvents (batch : NormalizedBatch) (ids : String → Option UUID) (denied : String → Bool)
    (balances : String × UUID → BalanceAccum) : List EventContext → List KeptEvent
  | [] => []
  | ec :: rest =>
    match ids ec.be.contractAddress with
    | none => keepEvents batch ids denied balances rest
    | some tokenID =>
      if denied ec.be.contractAddress then keepEvents batch ids denied balances rest
      else if detectScamSignal batch.chain ec.be
          (balances (ec.be.address, tokenID)).present ≠ "" then
        keepEvents batch ids
          (fun c => if c = ec.be.contractAddress then true else denied c) balances rest
      else
        let k : KeptEvent := ⟨ec, tokenID, (balances (ec.be.address, tokenID)).amount⟩
        k :: keepEvents batch ids denied
          (if k.applied batch then fun key =>
            if key = (ec.be.address, tokenID) then ⟨k.after, true⟩ else balances key
          else balances) rest

def keptEvents (env : IngestEnv) (batch : NormalizedBatch) (db : Db) : List KeptEvent :=
  keepEvents batch (tokenIDs batch db) (deniedBefore env batch db)
    (prefetchedBalance batch db.balances) (batchEvents batch)

section Walk
variable {batch : NormalizedBatch} {ids : String → Option UUID}

theorem keepEvents_congr {denied denied' : String → Bool}
    {balances : String × UUID → BalanceAccum} {l : List EventContext}
    (h : ∀ ec ∈ l, denied ec.be.contractAddress = denied' ec.be.contractAddress) :
    keepEvents batch ids denied balances l = keepEvents batch ids denied' balances l := by
  induction l generalizing denied denied' balances with
  | nil => rfl
  | cons ec l ih =>
    have hrest : ∀ ec ∈ l, denied ec.be.contractAddress = denied' ec.be.contractAddress :=
      (List.forall_mem_cons.mp h).2
    unfold keepEvents
    rw [h ec List.mem_cons_self]
    split
    · exact ih hrest
    · split
      · exact ih hrest
      · split
        · apply ih
          intro ec' hec'
          simp only [hrest ec' hec']
        · simp only
          rw [ih hrest]

theorem keepEvents_of_chain {batch' : NormalizedBatch} (h : batch'.chain = batch.chain)
    (denied : String → Bool) (balances : String × UUID → BalanceAccum) (l : List EventContext) :
    keepEvents batch' ids denied balances l = keepEvents batch ids denied balances l := by
  have happ : ∀ k : KeptEvent, k.applied batch' = k.applied batch := by
    intro k
    rw [KeptEvent.applied, KeptEvent.applied, h]
  induction l generalizing denied balances with
  | nil => rfl
  | cons ec l ih =>
    unfold keepEvents
    split
    · exact ih denied balances
    · rw [h]
      split
      · exact ih denied balances
      · split
        · exact ih _ balances
        · simp only
          rw [happ, ih]

theorem keepEvents_sublist (denied : String → Bool) (balances : String × UUID → BalanceAccum)
    (l : List EventContext) : ((keepEvents batch ids denied balances l).map KeptEvent.ec).Sublist l := by
  induction l generalizing denied balances with
  | nil => exact List.Sublist.refl _
  | cons ec l ih =>
    unfold keepEvents
    split
    · exact (ih denied balances).cons ec
    · split
      · exact (ih denied balances).cons ec
      · split
        · exact (ih _ balances).cons ec
        · exact (ih denied _).cons_cons ec

end Walk

section Build
variable {env : IngestEnv} {addrMap : Option (List WatchedAddress)} {batch : NormalizedBatch}
variable {pre : Prefetched}

/-- An event whose token and transaction have ids, and whose delta is a number. -/
def EventContext.Readable (pre : Prefetched) (ec : EventContext) : Prop :=
  (∃ tokenID, pre.tokenIDMap ec.be.contractAddress = some tokenID) ∧
    (∃ txID, pre.txIDMap ec.canonicalTxHash = some txID) ∧ ∃ d, parseInt ec.be.delta = some d

/-- The build makes models of the kept events, in order, and posts them all. -/
theorem build_kept {l : List EventContext} {st st' : BuildState}
    (hread : ∀ ec ∈ l, ec.Readable pre)
    (h : l.foldlM (buildEvent env addrMap batch pre) st = .ok st') :
    ∃ ms, List.Forall₂ (fun k m => FitsNumeric k.after ∧
        ∃ txID, m = KeptEvent.model env addrMap batch txID k)
        (keepEvents batch pre.tokenIDMap st.cachedDenied st.inMemoryBalances l) ms ∧
      st'.eventModels = st.eventModels ++ ms ∧
      ∀ ak, ak ∈ st'.aggregatedDeltas.map Prod.fst ↔ ak ∈ st.aggregatedDeltas.map Prod.fst ∨
        ak ∈ (ms.flatMap BalanceEvent.postings).map Prod.fst := by
  induction l generalizing st with
  | nil =>
    cases h
    exact ⟨[], .nil, by simp, by simp⟩
  | cons ec l ih =>
    obtain ⟨u, hu, hrest⟩ := Result.bind_ok h
    obtain ⟨rfl, htake⟩ := buildEvent_follow hu
    obtain ⟨⟨tokenID, htok⟩, ⟨txID, htx⟩, -⟩ := hread ec List.mem_cons_self
    obtain ⟨ms, hrel, hmod, hkeys⟩ :=
      ih (List.forall_mem_cons.mp hread).2 hrest
    rw [verdict_known htok htx] at hrel hmod hkeys htake
    unfold keepEvents
    simp only [htok]
    by_cases hden : st.cachedDenied ec.be.contractAddress = true
    · rw [if_pos hden] at hrel hmod hkeys ⊢
      exact ⟨ms, hrel, hmod, hkeys⟩
    · rw [if_neg hden] at hrel hmod hkeys htake ⊢
      by_cases hsig : detectScamSignal batch.chain ec.be
          (st.inMemoryBalances (ec.be.address, tokenID)).present ≠ ""
      · rw [if_pos hsig] at hrel hmod hkeys ⊢
        exact ⟨ms, hrel, hmod, hkeys⟩
      · rw [if_neg hsig] at hrel hmod hkeys htake ⊢
        obtain ⟨-, hfits⟩ := htake tokenID txID rfl
        refine ⟨st.model env addrMap batch ec tokenID txID :: ms, .cons ⟨hfits, txID, rfl⟩ hrel, ?_,
          fun ak => ?_⟩
        · rw [hmod, BuildState.follow, ← List.append_cons]
        · rw [hkeys, BuildState.follow, (postAll_spec ..).2.2, List.flatMap_cons, List.map_append,
            List.mem_append, or_assoc]

/-- The build fails only where the balance after a kept event does not fit. -/
theorem build_ok {l : List EventContext} {st : BuildState} (hread : ∀ ec ∈ l, ec.Readable pre)
    (hfits : ∀ k ∈ keepEvents batch pre.tokenIDMap st.cachedDenied st.inMemoryBalances l,
      FitsNumeric k.after) :
    ∃ st', l.foldlM (buildEvent env addrMap batch pre) st = .ok st' := by
  induction l generalizing st with
  | nil => exact ⟨st, rfl⟩
  | cons ec l ih =>
    obtain ⟨⟨tokenID, htok⟩, ⟨txID, htx⟩, d, hd⟩ := hread ec List.mem_cons_self
    unfold keepEvents at hfits
    simp only [htok] at hfits
    obtain ⟨u, hu⟩ : ∃ u, buildEvent env addrMap batch pre st ec = .ok u := by
      refine buildEvent_ok hd fun tokenID' txID' htake => ?_
      rw [verdict_known htok htx] at htake
      split_ifs at htake with hden hsig
      cases htake
      rw [if_neg hden, if_neg hsig] at hfits
      exact hfits _ List.mem_cons_self
    obtain ⟨rfl, -⟩ := buildEvent_follow hu
    rw [List.foldlM_cons, hu]
    apply ih (List.forall_mem_cons.mp hread).2
    rw [verdict_known htok htx]
    by_cases hden : st.cachedDenied ec.be.contractAddress = true
    · rw [if_pos hden] at hfits ⊢
      exact hfits
    · rw [if_neg hden] at hfits ⊢
      by_cases hsig : detectScamSignal batch.chain ec.be
          (st.inMemoryBalances (ec.be.address, tokenID)).present ≠ ""
      · rw [if_pos hsig] at hfits ⊢
        exact hfits
      · rw [if_neg hsig] at hfits ⊢
        exact (List.forall_mem_cons.mp hfits).2

end Build

end MultichainIndexer
