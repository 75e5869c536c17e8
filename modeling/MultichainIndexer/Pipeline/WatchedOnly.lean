import Mathlib.Data.List.Dedup
import MultichainIndexer.Fetcher.BlockScan
import MultichainIndexer.Ingester.Ingested
import MultichainIndexer.Normalizer.Canonical

/-!
# Entries of watched addresses

A block-scan batch goes through the normalizer and then the ingester. What the
normalizer makes of an answer are events of watched addresses only. The ingester
adds an event of its own: a failed transaction that comes without events is
charged its fee, to whoever paid it. `ChargedAlone` says when that happens, and
the batch writes entries of watched addresses only if every such payer is watched.
-/

namespace MultichainIndexer

open Relational Text Normalizer

/-- An address that is, in canonical form, one of the watched addresses of the batch. -/
def Watched (raw : RawBatch) (address : String) : Prop :=
  ∃ w ∈ raw.watchedAddresses,
    canonicalizeAddressIdentity raw.chain w = canonicalizeAddressIdentity raw.chain address

/-- The rows that are new in the events, and the balances that differ, are of watched addresses. -/
def WritesWatched (raw : RawBatch) (db db' : Db) : Prop :=
  (∀ r ∈ db'.balanceEvents.rows,
    (∃ s ∈ db.balanceEvents.rows, s.id = r.id) ∨ Watched raw r.address) ∧
  ∀ k, KeyedTable.find? db'.balances k ≠ KeyedTable.find? db.balances k → Watched raw k.address

/-- A failed transaction with a fee that is left without events: all are dropped on an EVM chain,
and elsewhere none is of a watched address. -/
def ChargedAlone (raw : RawBatch) (result : TransactionResult) : Prop :=
  result.status = "FAILED" ∧ result.feeAmount ≠ "" ∧ result.feeAmount ≠ "0" ∧
    result.feePayer ≠ "" ∧ (∃ fee, parseInt (trimSpace result.feeAmount) = some fee ∧ 0 ≤ fee) ∧
    (isEVMChain raw.chain = true ∨
      ∀ be ∈ result.balanceEvents, be.address ∉ resolveWatchedAddressSet raw)

section Watched
variable {raw : RawBatch}

theorem Watched.canonical {address : String} (h : Watched raw address) :
    Watched raw (canonicalizeAddressIdentity raw.chain address) := by
  obtain ⟨w, hw, heq⟩ := h
  refine ⟨w, hw, ?_⟩
  rw [heq, canonicalizeAddressIdentity_eq, canonicalizeAddressIdentity_eq,
    canonicalAddressIdentity_idem]

theorem watched_of_mem_set (haddr : raw.address = "") {a : String}
    (h : a ∈ resolveWatchedAddressSet raw) : Watched raw a := by
  unfold resolveWatchedAddressSet at h
  split at h
  · obtain ⟨w, hw, rfl⟩ := List.mem_map.mp (List.mem_filter.mp (List.mem_dedup.mp h)).1
    simp only
    split
    · exact ⟨w, hw, rfl⟩
    · exact Watched.canonical ⟨w, hw, rfl⟩
  · rw [haddr] at h
    cases h

end Watched

section Normalized
variable {hash : String → String} {env : NormalizerEnv} {raw : RawBatch} {nb : NormalizedBatch}

theorem isFeeOnly_iff {ntx : NormalizedTransaction} :
    isFeeOnly ntx = true ↔ ntx.status = .failed ∧ ntx.balanceEvents = [] ∧ ntx.feeAmount ≠ "" ∧
      ntx.feeAmount ≠ "0" ∧ ntx.feePayer ≠ "" ∧
      ∃ fee, parseInt (trimSpace ntx.feeAmount) = some fee ∧ 0 ≤ fee := by
  unfold isFeeOnly
  cases parseInt (trimSpace ntx.feeAmount) with
  | none => simp
  | some fee => simp [and_assoc]

theorem txStatus_eq_failed {status : String} : Normalizer.txStatus status = .failed ↔
    status = "FAILED" := by
  unfold Normalizer.txStatus
  split
  · simp
  · simp
  · rename_i hne
    simpa using hne

theorem eventsOf_takenTx_watched_iff (hbuild : env.buildCanonicalBalanceEvents =
      canonicalBalanceEvents hash) (haddr : raw.address = "")
    (taken : TransactionResult × Option Int) :
    (∀ be ∈ eventsOf raw.chain (takenTx env raw taken), Watched raw be.address) ↔
      (ChargedAlone raw taken.1 → Watched raw taken.1.feePayer) := by
  set W := resolveWatchedAddressSet raw with hW
  have heve : ∀ be ∈ (takenTx env raw taken).balanceEvents, Watched raw be.address := by
    intro be hbe
    simp only [takenTx, normalizedTxFromResult, hbuild] at hbe
    obtain ⟨a, ha, heq⟩ := canonicalBalanceEvents_address hbe
    rw [heq]
    exact (watched_of_mem_set haddr ha).canonical
  have hfee : taken.1.feePayer ∉ W →
      (isFeeOnly (takenTx env raw taken) = true ↔ ChargedAlone raw taken.1) := by
    intro hpayer
    rw [isFeeOnly_iff]
    simp only [takenTx, normalizedTxFromResult, hbuild, txStatus_eq_failed, ChargedAlone]
    constructor
    · rintro ⟨hsta, hnil, h1, h2, h3, h4⟩
      exact ⟨hsta, h1, h2, h3, h4, (canonicalBalanceEvents_eq_nil hsta hpayer).mp hnil⟩
    · rintro ⟨hsta, h1, h2, h3, h4, hnone⟩
      exact ⟨hsta, (canonicalBalanceEvents_eq_nil hsta hpayer).mpr hnone, h1, h2, h3, h4⟩
  unfold eventsOf
  constructor
  · intro h hcha
    by_cases hpayer : taken.1.feePayer ∈ W
    · exact watched_of_mem_set haddr hpayer
    · apply h (buildFeeOnlyEvent (takenTx env raw taken) raw.chain)
      rw [if_pos ((hfee hpayer).mpr hcha)]
      exact List.mem_append_right _ (List.mem_singleton_self _)
  · intro h be hbe
    rcases List.mem_append.mp hbe with hbe | hbe
    · exact heve be hbe
    · split at hbe
      · rename_i honly
        rw [List.mem_singleton.mp hbe]
        show Watched raw taken.1.feePayer
        by_cases hpayer : taken.1.feePayer ∈ W
        · exact watched_of_mem_set haddr hpayer
        · exact h ((hfee hpayer).mp honly)
      · cases hbe

end Normalized

section Ingested
variable {raw : RawBatch} {batch : NormalizedBatch} {ienv : IngestEnv} {db db' : Db}

theorem ingestBatch_writesWatched (heve : ∀ ec ∈ batchEvents batch, Watched raw ec.be.address)
    (h : ingestBatch ienv batch db = .ok db') : WritesWatched raw db db' := by
  obtain ⟨addrMap, pre, tokens, st, hin⟩ := ingestBatch_ok h
  obtain ⟨kept, vs, hwri⟩ := hin.written
  have hmod : ∀ m ∈ st.eventModels, Watched raw m.address := by
    intro m hm
    obtain ⟨ec, hec, _, _, _, _, _, rfl⟩ := hwri.exists_model m hm
    exact heve ec hec
  constructor
  · refine hwri.wrote.forall_rows (fun r hr => .inl ⟨r, hr, rfl⟩) ?_ ?_
    · intro v hv rows
      refine .inr (hmod v.event ?_)
      rw [← hwri.models]
      exact List.mem_map_of_mem hv
    · intro v _ r k _ _ hr
      exact hr
  · intro k hk
    by_contra hnot
    apply hk
    refine bulkAdjust_frame hin.balances (List.filter_eq_nil_iff.mpr ?_)
    intro i hi hkey
    obtain ⟨e, he, rfl⟩ := List.mem_map.mp hi
    obtain ⟨x, hx, hxe⟩ := List.mem_map.mp (hwri.aggregated.keys e.1 (List.mem_map_of_mem he))
    obtain ⟨m, hm, hpost⟩ := List.mem_flatMap.mp hx
    obtain ⟨b, _, rfl⟩ := mem_postings.mp hpost
    apply hnot
    have hadd : k.address = m.address := by
      rw [← of_decide_eq_true hkey]
      exact congrArg AdjustmentKey.address hxe.symm
    rw [hadd]
    exact hmod m hm

end Ingested

/-- A block-scan batch leads to events and entries of watched addresses only if and only if every
payer who is charged a fee alone is watched. -/
theorem blockScan_writesWatched_iff (hash : String → String) (nenv : NormalizerEnv)
    (fenv : FetcherEnv) (job : FetchJob) (raw : RawBatch) (nb : NormalizedBatch)
    (hbuild : nenv.buildCanonicalBalanceEvents = canonicalBalanceEvents hash)
    (hraw : raw ∈ (processBlockScanJob fenv job).1)
    (hnorm : Normalizer.processBatch nenv raw = .ok nb) :
    ((∀ ec ∈ batchEvents nb, Watched raw ec.be.address) ∧
      ∀ ienv db db', processBatch ienv nb db = .ok db' → WritesWatched raw db db') ↔
    ∀ taken ∈ takenResults nenv raw, ChargedAlone raw taken.1 → Watched raw taken.1.feePayer := by
  obtain ⟨_, haddr, hprev⟩ := processBlockScanJob_mem hraw
  obtain ⟨hchain, _, hcur⟩ := processBatch_frame hnorm
  have heve : (∀ ec ∈ batchEvents nb, Watched raw ec.be.address) ↔
      ∀ taken ∈ takenResults nenv raw, ChargedAlone raw taken.1 → Watched raw taken.1.feePayer := by
    rw [forall_batchEvents (P := fun be => Watched raw be.address), hchain,
      processBatch_transactions hnorm, List.forall_mem_map]
    exact forall₂_congr fun taken _ => eventsOf_takenTx_watched_iff hbuild haddr taken
  rw [← heve, and_iff_left_iff_imp]
  intro hwat ienv db db' hproc
  have hnone : nb.previousCursorValue = none := by
    rw [hcur, hprev]
    rfl
  rw [processBatch_of_no_previous ienv db hnone] at hproc
  rw [← batchEvents_canonicalizeCursors] at hwat
  exact ingestBatch_writesWatched hwat hproc

def watchedJob : FetchJob where
  chain := .ethereum
  network := .mainnet
  blockScanMode := true
  startBlock := 10
  endBlock := 10
  watchedAddresses := ["0xaa"]

def findsOne : FetcherEnv where
  scanBlocks := some fun _ _ _ => .ok [{ hash := "0x01", sequence := 10 }]
  fetchTransactions := fun hashes => .ok (hashes.map fun _ => "tx")

def scannedBatch : RawBatch where
  chain := .ethereum
  network := .mainnet
  rawTransactions := ["tx"]
  signatures := [{ hash := "0x01", sequence := 10 }]
  newCursorValue := some "0x01"
  newCursorSequence := 10
  blockScanMode := true
  watchedAddresses := ["0xaa"]

theorem scannedBatch_sent : (processBlockScanJob findsOne watchedJob).1 = [scannedBatch] := rfl

def revertedSidecar (feePayer : String) : NormalizerEnv where
  decode _ _ := .ok {
    results := [{ txHash := "0x01", blockCursor := 10, status := "FAILED", feeAmount := "21"
                  feePayer := feePayer }] }
  isTransient _ := false
  buildCanonicalBalanceEvents := canonicalBalanceEvents id

/-- The payer is watched under another spelling, so the fee that it is charged alone is its own. -/
theorem blockScan_writesWatched_spelling :
    ∃ nb, Normalizer.processBatch (revertedSidecar "0xAA") scannedBatch = .ok nb ∧
      (∀ ec ∈ batchEvents nb, Watched scannedBatch ec.be.address) ∧
      ∀ ienv db db', processBatch ienv nb db = .ok db' → WritesWatched scannedBatch db db' := by
  obtain ⟨nb, hnorm, hpay⟩ :
      ∃ nb, Normalizer.processBatch (revertedSidecar "0xAA") scannedBatch = .ok nb ∧
        ∀ taken ∈ takenResults (revertedSidecar "0xAA") scannedBatch, taken.1.feePayer = "0xAA" := by
    decide +kernel
  refine ⟨nb, hnorm, (blockScan_writesWatched_iff id (revertedSidecar "0xAA") findsOne watchedJob
    scannedBatch nb rfl (by rw [scannedBatch_sent]; exact List.mem_singleton_self _) hnorm).mpr ?_⟩
  intro taken htaken _
  rw [hpay taken htaken]
  exact ⟨"0xaa", List.mem_singleton_self _, by decide +kernel⟩

/-- A reverted transaction of an address that is not watched: its fee becomes a row of the events
and a balance of that address. -/
theorem blockScan_writes_unwatched :
    scannedBatch ∈ (processBlockScanJob findsOne watchedJob).1 ∧
      ¬ Watched scannedBatch "0xbb" ∧
      ∃ nb db', Normalizer.processBatch (revertedSidecar "0xbb") scannedBatch = .ok nb ∧
        processBatch {} nb {} = .ok db' ∧
        db'.balanceEvents.rows.map BalanceEventRow.address = ["0xbb"] ∧
        db'.balances.rows.map (fun r => (r.key.address, r.amount)) = [("0xbb", -21)] := by
  refine ⟨by rw [scannedBatch_sent]; exact List.mem_singleton_self _, ?_, ?_⟩
  · rintro ⟨w, hw, heq⟩
    rw [List.mem_singleton.mp hw] at heq
    revert heq
    decide +kernel
  · obtain ⟨nb, hnorm, db', hproc, hrows⟩ :
        ∃ nb, Normalizer.processBatch (revertedSidecar "0xbb") scannedBatch = .ok nb ∧
        ∃ db', processBatch {} nb {} = .ok db' ∧
          db'.balanceEvents.rows.map BalanceEventRow.address = ["0xbb"] ∧
          db'.balances.rows.map (fun r => (r.key.address, r.amount)) = [("0xbb", -21)] := by
      decide +kernel
    exact ⟨nb, db', hnorm, hproc, hrows⟩

end MultichainIndexer
