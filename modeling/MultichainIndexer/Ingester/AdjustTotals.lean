import MultichainIndexer.Ingester.BuildFacts

/-!
# What a batch adds to the balances

The bulk items of a batch hold, for each balance, the sum of what its applied
models post there. One key may still get several items: the deltas are added up
by owner as well, and the statement joins them by address and token only.
`OneOwner` rules that out, and then the statement adds the whole sum.
-/

namespace MultichainIndexer

open Relational SumWhere

def AdjustmentKey.key (chain : Chain) (network : Network) (ak : AdjustmentKey) : BalanceKey :=
  ⟨chain, network, ak.address, ak.tokenID, ak.balanceType⟩

def BalanceEvent.adds (b : BalanceKind) (a : Account) (m : BalanceEvent) : Int :=
  if m.posts b && decide (m.account = a) then b.signed (deltaValue m.delta) else 0

/-- The models that move one balance have one owner. -/
def OneOwner (b : BalanceKind) (ms : List BalanceEvent) : Prop :=
  ∀ m ∈ ms, ∀ m' ∈ ms, m.posts b = true → m'.posts b = true → m.account = m'.account →
    derefStr m.walletID = derefStr m'.walletID ∧
      derefStr m.organizationID = derefStr m'.organizationID

section Postings
variable {chain : Chain} {network : Network}

theorem posting_key {m : BalanceEvent} (hc : m.chain = chain) (hn : m.network = network)
    (b : BalanceKind) : (posting b m).1.key chain network = m.account.key b := by
  subst hc
  subst hn
  rfl

theorem mem_postings {m : BalanceEvent} {e : AdjustmentKey × Int} :
    e ∈ m.postings ↔ ∃ b, m.posts b = true ∧ e = posting b m := by
  unfold BalanceEvent.postings
  simp only [List.mem_map, List.mem_filter]
  constructor
  · rintro ⟨b, ⟨_, hb⟩, rfl⟩
    exact ⟨b, hb, rfl⟩
  · rintro ⟨b, hb, rfl⟩
    exact ⟨b, ⟨by cases b <;> simp, hb⟩, rfl⟩

theorem sum_postings {m : BalanceEvent} (hc : m.chain = chain) (hn : m.network = network)
    (b : BalanceKind) (a : Account) :
    sumWhere (fun e => decide (e.1.key chain network = a.key b)) (fun e => e.2) m.postings =
      m.adds b a := by
  unfold BalanceEvent.postings BalanceEvent.adds
  have hkey : ∀ b', decide ((posting b' m).1.key chain network = a.key b) =
      decide (m.account = a ∧ b' = b) := by
    intro b'
    rw [posting_key hc hn]
    simp only [account_key_inj]
  have hval : ∀ b', (posting b' m).2 = b'.signed (deltaValue m.delta) := fun _ => rfl
  rw [sumWhere_map]
  simp only [hkey, hval]
  cases hl : m.posts .liquid <;> cases hs : m.posts .staked <;> cases b <;> simp [hl, hs]

variable {ms : List BalanceEvent} {agg : List (AdjustmentKey × AdjustmentAccum)}

theorem listedSum_adjustItems (hagg : Aggregated ms agg)
    (hms : ∀ m ∈ ms, m.chain = chain ∧ m.network = network) (b : BalanceKind) (a : Account) :
    listedSum chain network (adjustItems agg) (a.key b) = (ms.map (BalanceEvent.adds b a)).sum := by
  calc listedSum chain network (adjustItems agg) (a.key b)
      = sumWhere (fun e => decide (e.1.key chain network = a.key b)) (fun e => e.2.delta) agg :=
        sumWhere_map _ _ _ _
    _ = sumWhere (fun e => decide (e.1.key chain network = a.key b)) (fun e => e.2)
          (ms.flatMap BalanceEvent.postings) :=
        hagg.sum fun ak => decide (ak.key chain network = a.key b)
    _ = (ms.map fun m => sumWhere (fun e => decide (e.1.key chain network = a.key b))
          (fun e => e.2) m.postings).sum := sumWhere_flatMap _ _ _ _
    _ = (ms.map (BalanceEvent.adds b a)).sum := by
        congr 1
        exact List.map_congr_left fun m hm => sum_postings (hms m hm).1 (hms m hm).2 b a

theorem aggregated_key (hagg : Aggregated ms agg)
    (hms : ∀ m ∈ ms, m.chain = chain ∧ m.network = network) {b : BalanceKind} {a : Account}
    {e : AdjustmentKey × AdjustmentAccum} (he : e ∈ agg)
    (hkey : e.1.key chain network = a.key b) :
    ∃ m ∈ ms, m.posts b = true ∧ m.account = a ∧ e.1 = adjustmentKey m b.balanceType := by
  obtain ⟨x, hx, hxe⟩ := List.mem_map.mp (hagg.keys e.1 (List.mem_map_of_mem he))
  obtain ⟨m, hm, hpost⟩ := List.mem_flatMap.mp hx
  obtain ⟨b', hb', rfl⟩ := mem_postings.mp hpost
  rw [← hxe, posting_key (hms m hm).1 (hms m hm).2, account_key_inj] at hkey
  obtain ⟨hacc, rfl⟩ := hkey
  exact ⟨m, hm, hb', hacc, hxe.symm⟩

theorem separable_adjustItems (hagg : Aggregated ms agg)
    (hms : ∀ m ∈ ms, m.chain = chain ∧ m.network = network) {b : BalanceKind}
    (howner : OneOwner b ms) (a : Account) :
    Separable (listedFor chain network (adjustItems agg) (a.key b)) := by
  refine .inl ?_
  have hlen : (listedFor chain network (adjustItems agg) (a.key b)).length =
      (agg.filter fun e => decide (e.1.key chain network = a.key b)).length := by
    unfold listedFor listed adjustItems
    rw [List.filter_map, List.length_map]
    rfl
  rw [hlen]
  refine Accumulate.length_filter_le_one (p := fun ak => decide (ak.key chain network = a.key b))
    hagg.nodup fun e he e' he' hk hk' => ?_
  rw [decide_eq_true_eq] at hk hk'
  obtain ⟨m, hm, hpost, hacc, hkey⟩ := aggregated_key hagg hms he hk
  obtain ⟨m', hm', hpost', hacc', hkey'⟩ := aggregated_key hagg hms he' hk'
  obtain ⟨hwal, horg⟩ := howner m hm m' hm' hpost hpost' (hacc.trans hacc'.symm)
  have haddr : m.address = m'.address := congrArg Account.address (hacc.trans hacc'.symm)
  have htok : m.tokenID = m'.tokenID := congrArg Account.tokenID (hacc.trans hacc'.symm)
  rw [hkey, hkey', adjustmentKey, adjustmentKey, hwal, horg, haddr, htok]

end Postings

end MultichainIndexer
