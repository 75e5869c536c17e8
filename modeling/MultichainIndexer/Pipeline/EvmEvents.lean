import MultichainIndexer.Normalizer.EvmFeeOrder
import MultichainIndexer.Sidecar.Evm

/-!
# What the EVM decoder hands to the normalizer

The decoder picks, among the sides of all transfers of a transaction, those of
watched addresses. Each of them carries the components of the fee and a path of
its own, so the fee takes its path from the one that ranks first and its
components from any.
-/

namespace MultichainIndexer

open Text BestOf Normalizer

namespace Sidecar

section Sides
variable (isWatched : String → Bool)

theorem side_filter {a : String} {be : BalanceEventInfo} (h : be.address = a) :
    (if a ≠ "" && isWatched a then [be] else []) =
      (if a ≠ "" && true then [be] else []).filter fun be => isWatched be.address := by
  subst h
  by_cases hempty : be.address = ""
  · simp [hempty]
  · cases hwat : isWatched be.address with
    | true => simp [hempty, hwat]
    | false => simp [hempty, hwat]

theorem EvmLog.events_filter (log : EvmLog) (txIndex : Int) (feeMetadata : Metadata) :
    log.events txIndex feeMetadata isWatched =
      (log.events txIndex feeMetadata fun _ => true).filter fun be => isWatched be.address := by
  unfold EvmLog.events
  simp only
  generalize log.eventFrom = eventFrom
  generalize log.eventTo = eventTo
  split
  · rfl
  · split
    · exact side_filter isWatched rfl
    · split
      · exact side_filter isWatched rfl
      · rw [List.filter_append]
        exact congrArg₂ _ (side_filter isWatched rfl) (side_filter isWatched rfl)

namespace BaseEnvelope
variable (envelope : BaseEnvelope)

def transfers : List BalanceEventInfo := envelope.balanceEvents fun _ => true

theorem balanceEvents_eq : envelope.balanceEvents isWatched =
    envelope.transfers.filter fun be => isWatched be.address := by
  have hnat : envelope.nativeEvents isWatched =
      (envelope.nativeEvents fun _ => true).filter fun be => isWatched be.address := by
    unfold nativeEvents
    simp only
    generalize envelope.sender = sender
    generalize envelope.recipient = recipient
    split
    · rw [List.filter_append]
      exact congrArg₂ _ (side_filter isWatched rfl) (side_filter isWatched rfl)
    · rfl
  unfold transfers balanceEvents
  rw [List.filter_append, ← hnat, List.filter_flatMap]
  refine congrArg _ (List.flatMap_congr fun log _ => ?_)
  exact log.events_filter isWatched _ _

def watchedTransfers (watchedAddresses : List String) : List BalanceEventInfo :=
  if envelope.reverted then []
  else envelope.transfers.filter fun be => be.address ∈ normalizedWatched watchedAddresses

def tellsDataFee : Bool := envelope.evmLayer.getD "" ≠ "l1" && decide (0 < envelope.dataFee)

def feeComponents : Metadata :=
  (if envelope.evmLayer.getD "" = "l1" then
    [("gas_used", toString envelope.gasUsed),
      ("effective_gas_price", toString envelope.effectiveGasPrice)]
  else
    [("fee_execution_l2", toString envelope.executionFee),
      ("base_gas_used", toString envelope.gasUsed),
      ("base_effective_gas_price", toString envelope.effectiveGasPrice)]) ++
  if envelope.tellsDataFee then [("fee_data_l1", toString envelope.dataFee)] else []

end BaseEnvelope

theorem decode_balanceEvents (payload : BasePayload) (signature : String)
    (watchedAddresses : List String) :
    (decodeBaseTransaction payload signature watchedAddresses).balanceEvents =
      (normalizeEnvelope payload).watchedTransfers watchedAddresses := by
  unfold decodeBaseTransaction BaseEnvelope.watchedTransfers
  simp only
  rw [BaseEnvelope.balanceEvents_eq]

end Sides

section Spread
variable {metadata entries : Metadata} {key : String}

theorem metaGet_spread_of_not_mem (h : key ∉ entries.map Prod.fst) :
    metaGet (spread metadata entries) key = metaGet metadata key := by
  have hown : entries.lookup key = none := List.lookup_eq_none_iff.mpr fun entry hentry => by
    rw [bne_iff_ne]
    rintro rfl
    exact h (List.mem_map_of_mem hentry)
  have hkeep := lookup_filter_key (fun key => decide (key ∉ entries.map Prod.fst)) metadata key
  rw [decide_eq_true h, if_pos rfl] at hkeep
  rw [metaGet, spread, List.lookup_append, hown, Option.none_or, hkeep, metaGet]

theorem metaGet_spread_of_lookup {value : String} (h : entries.lookup key = some value) :
    metaGet (spread metadata entries) key = value := by
  rw [metaGet, spread, List.lookup_append, h]
  rfl

end Spread

/-- An event whose metadata is the one of the fee with a path. -/
structure Carries (envelope : BaseEnvelope) (path : String) (be : BalanceEventInfo) : Prop where
  plain : PlainPath path
  metadata : ∃ entries, be.metadata = spread envelope.feeMetadata entries ∧
    (∀ key ∈ entries.map Prod.fst, key ∈ baseFeePathMetadataKeys) ∧
      entries.lookup "event_path" = some path

section Fee
variable {envelope : BaseEnvelope} {path : String} {be : BalanceEventInfo}

theorem metaGet_feeMetadata {key : String} (h : key ≠ "event_path") :
    metaGet envelope.feeMetadata key = metaGet envelope.feeComponents key := by
  have hindex : (if envelope.receiptPart.transactionIndex.truthy = true then
      [("event_path", "tx:" ++ Js.numberText (hexToNumber envelope.receiptPart.transactionIndex 0))]
      else []).lookup key = none := by
    split
    · have hne : (key == "event_path") = false := beq_false_of_ne h
      rw [List.lookup_cons, hne]
      rfl
    · rfl
  unfold BaseEnvelope.feeMetadata buildFeeMetadata BaseEnvelope.feeComponents
    BaseEnvelope.tellsDataFee
  simp only [Bool.and_eq_true, decide_eq_true_eq]
  rw [metaGet, metaGet, List.lookup_append, hindex, Option.or_none]

theorem Carries.metaGet_eq (h : Carries envelope path be) (key : String)
    (hkey : key ∉ baseFeePathMetadataKeys) :
    metaGet be.metadata key = metaGet envelope.feeComponents key := by
  obtain ⟨entries, hmeta, hkeys, -⟩ := h.metadata
  rw [hmeta, metaGet_spread_of_not_mem fun hmem => hkey (hkeys key hmem), metaGet_feeMetadata]
  rintro rfl
  exact hkey (by decide)

theorem Carries.execution (h : Carries envelope path be) :
    deriveBaseExecutionFeeFromMetadata be.metadata = some (envelope.executionFee.natAbs : Int) := by
  have hgas := parseBigInt_toString envelope.gasUsed
  have hprice := parseBigInt_toString envelope.effectiveGasPrice
  have hfee := parseBigInt_toString envelope.executionFee
  have hmul : (envelope.gasUsed.natAbs : Int) * envelope.effectiveGasPrice.natAbs =
      envelope.executionFee.natAbs := by
    rw [BaseEnvelope.executionFee, Int.natAbs_mul, Int.natCast_mul]
  generalize (envelope.gasUsed.natAbs : Int) = g at hgas hmul
  generalize (envelope.effectiveGasPrice.natAbs : Int) = p at hprice hmul
  generalize (envelope.executionFee.natAbs : Int) = e at hfee hmul ⊢
  have hget := fun key hkey => h.metaGet_eq key hkey
  unfold BaseEnvelope.feeComponents at hget
  generalize toString envelope.gasUsed = gas at hget hgas
  generalize toString envelope.effectiveGasPrice = price at hget hprice
  generalize toString envelope.executionFee = fee at hget hfee
  generalize toString envelope.dataFee = data at hget
  unfold deriveBaseExecutionFeeFromMetadata
  rw [hget "fee_execution_l2" (by decide), hget "gas_used" (by decide),
    hget "effective_gas_price" (by decide), hget "base_gas_used" (by decide),
    hget "base_effective_gas_price" (by decide)]
  by_cases hlayer : envelope.evmLayer.getD "" = "l1"
  · have hdata : envelope.tellsDataFee = false := by
      rw [BaseEnvelope.tellsDataFee, hlayer]
      rfl
    simp [metaGet, List.lookup_cons, hlayer, hdata, hgas, hprice, parseBigInt_empty, hmul]
  · simp [metaGet, hlayer, hfee]

theorem Carries.data (h : Carries envelope path be) :
    deriveBaseDataFee be.metadata =
      if envelope.tellsDataFee then some (envelope.dataFee.natAbs : Int) else none := by
  have hdata := parseBigInt_toString envelope.dataFee
  have hget := fun key hkey => h.metaGet_eq key hkey
  unfold BaseEnvelope.feeComponents at hget
  generalize toString envelope.dataFee = data at hget hdata
  unfold deriveBaseDataFee
  simp only [List.findSome?_cons, List.findSome?_nil]
  rw [hget "fee_data_l1" (by decide), hget "data_fee_l1" (by decide),
    hget "l1_data_fee" (by decide), hget "l1_fee" (by decide)]
  cases envelope.tellsDataFee with
  | true =>
    by_cases hlayer : envelope.evmLayer.getD "" = "l1"
    · simp [metaGet, List.lookup_cons, hlayer, hdata]
    · simp [metaGet, List.lookup_cons, hlayer, hdata]
  | false =>
    by_cases hlayer : envelope.evmLayer.getD "" = "l1"
    · simp [metaGet, List.lookup_cons, hlayer, parseBigInt_empty]
    · simp [metaGet, List.lookup_cons, hlayer, parseBigInt_empty]

theorem Carries.resolve (h : Carries envelope path be) :
    resolveBaseMetadataEventPath be.metadata = path := by
  obtain ⟨entries, hmeta, -, hpath⟩ := h.metadata
  unfold resolveBaseMetadataEventPath
  rw [hmeta, metaGet_spread_of_lookup hpath, if_pos h.plain.1]

theorem Carries.not_isEmpty (h : Carries envelope path be) : (!be.metadata.isEmpty) = true := by
  obtain ⟨entries, hmeta, -, hpath⟩ := h.metadata
  cases entries with
  | nil => cases hpath
  | cons entry entries =>
    rw [hmeta]
    rfl

end Fee

section Paths
variable (envelope : BaseEnvelope)

theorem plainPath_number (kind : String) (n : Int) (hkind : PlainPath kind) :
    PlainPath (kind ++ Js.numberText n) := by
  refine ⟨fun hempty => hkind.1 ?_, fun c hc => ?_⟩
  · have hlist := congrArg String.toList hempty
    rw [String.toList_append] at hlist
    rw [← String.toList_inj, (List.append_eq_nil_iff.mp hlist).1]
    rfl
  · rw [String.toList_append] at hc
    rcases List.mem_append.mp hc with hc | hc
    · exact hkind.2 c hc
    · exact Js.numberText_chars n c hc

theorem EvmLog.plain_eventPath (log : EvmLog) : PlainPath log.eventPath :=
  plainPath_number "log:" log.index ⟨by decide, Text.forall_mem_of_all (by decide)⟩

theorem BaseEnvelope.plain_transferPath : PlainPath envelope.transferPath := by
  unfold BaseEnvelope.transferPath
  split
  · exact plainPath_number "tx:" envelope.txIndex ⟨by decide, Text.forall_mem_of_all (by decide)⟩
  · exact ⟨by decide, Text.forall_mem_of_all (by decide)⟩

structure EvmLog.Side (log : EvmLog) (feeMetadata : Metadata) (be : BalanceEventInfo) : Prop where
  transfer : log.isTransfer = true
  metadata : be.metadata = log.eventMetadata feeMetadata
  category : be.eventCategory ∉ ["FEE", "fee_execution_l2", "fee_data_l1"]
  tokenType : be.tokenType = "FUNGIBLE"

theorem EvmLog.side_of_mem {log : EvmLog} {txIndex : Int} {feeMetadata : Metadata}
    {isWatched : String → Bool} {be : BalanceEventInfo}
    (h : be ∈ log.events txIndex feeMetadata isWatched) : log.Side feeMetadata be := by
  have hone : ∀ {c : Bool} {side : BalanceEventInfo}, be ∈ (if c then [side] else []) → be = side := by
    intro c side hmem
    cases c with
    | true => exact List.mem_singleton.mp hmem
    | false => cases hmem
  have hplain : ∀ category ∈ ["TRANSFER", "MINT", "BURN"],
      category ∉ ["FEE", "fee_execution_l2", "fee_data_l1"] := by decide
  unfold EvmLog.events at h
  simp only at h
  split at h
  · cases h
  · rename_i htra
    rw [Bool.not_eq_true', Bool.not_eq_false] at htra
    split at h
    · rw [hone h]
      exact ⟨htra, rfl, hplain "MINT" (by decide), rfl⟩
    · split at h
      · rw [hone h]
        exact ⟨htra, rfl, hplain "BURN" (by decide), rfl⟩
      · rcases List.mem_append.mp h with h | h
        · rw [hone h]
          exact ⟨htra, rfl, hplain "TRANSFER" (by decide), rfl⟩
        · rw [hone h]
          exact ⟨htra, rfl, hplain "TRANSFER" (by decide), rfl⟩

structure BaseEnvelope.NativeSide (be : BalanceEventInfo) : Prop where
  metadata : be.metadata = spread envelope.feeMetadata [("event_path", envelope.transferPath)]
  category : be.eventCategory = "TRANSFER"
  contractAddress : be.contractAddress = "ETH"
  tokenType : be.tokenType = "NATIVE"

variable {envelope} {be : BalanceEventInfo}

theorem BaseEnvelope.nativeSide_of_mem {isWatched : String → Bool}
    (h : be ∈ envelope.nativeEvents isWatched) : envelope.NativeSide be := by
  unfold BaseEnvelope.nativeEvents at h
  simp only at h
  split at h
  · rcases List.mem_append.mp h with h | h
    · split at h
      · rw [List.mem_singleton.mp h]
        exact ⟨rfl, rfl, rfl, rfl⟩
      · cases h
    · split at h
      · rw [List.mem_singleton.mp h]
        exact ⟨rfl, rfl, rfl, rfl⟩
      · cases h
  · cases h

theorem EvmLog.Side.carries {log : EvmLog} (h : log.Side envelope.feeMetadata be) :
    Carries envelope log.eventPath be where
  plain := log.plain_eventPath
  metadata := ⟨_, h.metadata,
    show ∀ key ∈ ["event_path", "log_index", "base_log_index", "base_event_path"],
      key ∈ baseFeePathMetadataKeys by decide, rfl⟩

theorem BaseEnvelope.NativeSide.carries (h : envelope.NativeSide be) :
    Carries envelope envelope.transferPath be where
  plain := envelope.plain_transferPath
  metadata := ⟨_, h.metadata,
    show ∀ key ∈ ["event_path"], key ∈ baseFeePathMetadataKeys by decide, rfl⟩

theorem BaseEnvelope.mem_transfers (h : be ∈ envelope.transfers) :
    envelope.NativeSide be ∨ ∃ log ∈ envelope.receiptPart.logs, log.Side envelope.feeMetadata be := by
  rcases List.mem_append.mp h with h | h
  · exact .inl (nativeSide_of_mem h)
  · obtain ⟨log, hlog, h⟩ := List.mem_flatMap.mp h
    exact .inr ⟨log, hlog, EvmLog.side_of_mem h⟩

theorem BaseEnvelope.transfer_carries (h : be ∈ envelope.transfers) :
    ∃ path, Carries envelope path be := by
  rcases mem_transfers h with hside | ⟨log, -, hside⟩
  · exact ⟨_, hside.carries⟩
  · exact ⟨_, hside.carries⟩

theorem BaseEnvelope.transfer_category (h : be ∈ envelope.transfers) :
    be.eventCategory ∉ ["FEE", "fee_execution_l2", "fee_data_l1"] := by
  rcases mem_transfers h with hside | ⟨log, -, hside⟩
  · rw [hside.category]
    decide
  · exact hside.category

theorem BaseEnvelope.mem_watchedTransfers {watchedAddresses : List String}
    (h : be ∈ envelope.watchedTransfers watchedAddresses) : be ∈ envelope.transfers := by
  unfold watchedTransfers at h
  split at h
  · cases h
  · exact List.mem_of_mem_filter h

end Paths

section Facts
variable {envelope : BaseEnvelope} {events : List BalanceEventInfo}

def leadPath (events : List BalanceEventInfo) : String :=
  ((best shouldPreferBaseFeeMetadataCandidate events).map givenPath).getD "log:0"

variable (h : ∀ be ∈ events, be ∈ envelope.transfers)
include h

theorem pickBest_all {test : BalanceEventInfo → Bool} (htest : ∀ be ∈ events, test be = true) :
    bestCandidate events test = best shouldPreferBaseFeeMetadataCandidate events := by
  have hall : feeCandidates events = events := by
    refine List.filter_eq_self.mpr fun be hbe => ?_
    obtain ⟨path, hcar⟩ := BaseEnvelope.transfer_carries (h be hbe)
    exact hcar.not_isEmpty
  rw [pickBest_eq_best, hall, List.filter_eq_self.mpr htest]

theorem givesExecution_all : ∀ be ∈ events, givesExecution be = true := by
  intro be hbe
  obtain ⟨path, hcar⟩ := BaseEnvelope.transfer_carries (h be hbe)
  rw [givesExecution, hcar.execution]
  rfl

theorem givesData_all : ∀ be ∈ events, givesData be = envelope.tellsDataFee := by
  intro be hbe
  obtain ⟨path, hcar⟩ := BaseEnvelope.transfer_carries (h be hbe)
  rw [givesData, hcar.data]
  cases envelope.tellsDataFee with
  | true => rfl
  | false => rfl

theorem givesBoth_all : ∀ be ∈ events, givesBoth be = envelope.tellsDataFee := by
  intro be hbe
  rw [givesBoth, givesExecution_all h be hbe, givesData_all h be hbe, Bool.true_and]

theorem source_all {test : BalanceEventInfo → Bool} (tests : List (BalanceEventInfo → Bool))
    (htest : ∀ be ∈ events, test be = true) :
    source (givesBoth :: test :: tests) events = best shouldPreferBaseFeeMetadataCandidate events := by
  cases hbest : best shouldPreferBaseFeeMetadataCandidate events with
  | none =>
    rw [best_eq_none.mp hbest]
    exact source_eq_none.mpr fun _ _ _ hbe => absurd hbe List.not_mem_nil
  | some be =>
    rw [source_cons, source_cons, pickBest_all h htest, hbest, Option.some_or]
    cases hdata : envelope.tellsDataFee with
    | true =>
      rw [pickBest_all h fun be hbe => (givesBoth_all h be hbe).trans hdata, hbest]
      rfl
    | false =>
      rw [pickBest_eq_none.mpr fun be hbe =>
        (givesBoth_all h be (List.mem_of_mem_filter hbe)).trans hdata]
      rfl

theorem feePathText_all : feePathText (collectBaseMetadata events) = leadPath events := by
  rw [feePathText_collect, pathSource, selectionTests, source_all h _ (givesExecution_all h), leadPath]
  cases hbest : best shouldPreferBaseFeeMetadataCandidate events with
  | none =>
    rw [best_eq_none.mp hbest]
    decide
  | some be =>
    obtain ⟨path, hcar⟩ := BaseEnvelope.transfer_carries (h be (best_mem hbest))
    have hres : resolveBaseMetadataEventPath be.metadata ≠ "" := by
      rw [hcar.resolve]
      exact hcar.plain.1
    rw [Option.map_some, if_neg hres]
    simp only [Option.map_some, Option.getD_some]

theorem executionFee_all :
    (deriveBaseExecutionFee (toString envelope.totalFee) (collectBaseMetadata events)).natAbs =
      if events = [] then envelope.totalFee.natAbs else envelope.executionFee.natAbs := by
  rw [executionFee_collect, executionSource, source_all h _ (givesExecution_all h)]
  cases hbest : best shouldPreferBaseFeeMetadataCandidate events with
  | none =>
    have hnil := best_eq_none.mp hbest
    subst hnil
    rw [if_pos rfl, Option.map_none, Option.getD_none, gasFee, parseBigInt_toString]
    rfl
  | some be =>
    obtain ⟨path, hcar⟩ := BaseEnvelope.transfer_carries (h be (best_mem hbest))
    have hne : events ≠ [] := List.ne_nil_of_mem (best_mem hbest)
    rw [if_neg hne, Option.map_some, Option.getD_some, executionOf, hcar.execution]
    rfl

theorem dataFee_all : (deriveBaseDataFee (collectBaseMetadata events)).map Int.natAbs =
    if events ≠ [] ∧ envelope.tellsDataFee = true then some envelope.dataFee.natAbs else none := by
  rw [dataFee_collect]
  cases hdata : envelope.tellsDataFee with
  | false =>
    have hnone : dataSource events = none := dataSource_eq_none.mpr fun be hbe => by
      rw [givesData_all h be (List.mem_of_mem_filter hbe), hdata]
    rw [hnone, if_neg (fun hand => nomatch hand.2)]
    rfl
  | true =>
    rw [dataSource, source_all h _ fun be hbe => (givesData_all h be hbe).trans hdata]
    cases hbest : best shouldPreferBaseFeeMetadataCandidate events with
    | none =>
      rw [if_neg fun hand => hand.1 (best_eq_none.mp hbest)]
      rfl
    | some be =>
      obtain ⟨path, hcar⟩ := BaseEnvelope.transfer_carries (h be (best_mem hbest))
      have hne : events ≠ [] := List.ne_nil_of_mem (best_mem hbest)
      rw [if_pos ⟨hne, rfl⟩, Option.map_some, dataOf, hcar.data, hdata]
      rfl

end Facts

end Sidecar

namespace Normalizer
open Sidecar

def evmTxHash (chain : Chain) (payload : BasePayload) (signature : String) : String :=
  let txHash := (decodeBaseTransaction payload signature []).txHash
  if canonicalSignatureIdentity chain txHash = "" then txHash
  else canonicalSignatureIdentity chain txHash

def evmRawEvents (chain : Chain) (payload : BasePayload) (signature : String)
    (watchedAddresses : List String) : List NormalizedBalanceEvent :=
  let result := decodeBaseTransaction payload signature watchedAddresses
  baseBalanceEvents chain result.status result.feePayer result.feeAmount result.balanceEvents
    watchedAddresses

def evmEvents (hash : String → String) (chain : Chain) (network : Network) (payload : BasePayload)
    (signature : String) (watchedAddresses : List String) : List NormalizedBalanceEvent :=
  let result := decodeBaseTransaction payload signature watchedAddresses
  buildCanonicalBaseBalanceEventsMulti hash chain network (evmTxHash chain payload signature)
    result.status result.feePayer result.feeAmount (resolveResultFinalityState chain result)
    result.balanceEvents watchedAddresses

section Due
variable (payload : BasePayload) (signature : String) (watchedAddresses : List String)

theorem decode_status :
    (decodeBaseTransaction payload signature watchedAddresses).status =
      if (normalizeEnvelope payload).reverted then "FAILED" else "SUCCESS" := rfl

theorem decode_feeDue :
    feeDue (decodeBaseTransaction payload signature watchedAddresses).status
      (decodeBaseTransaction payload signature watchedAddresses).feePayer
      (decodeBaseTransaction payload signature watchedAddresses).feeAmount watchedAddresses =
    (decide ((normalizeEnvelope payload).sender ∈ watchedAddresses) &&
      (decide (trimSpace (normalizeEnvelope payload).sender ≠ "") &&
        decide ((normalizeEnvelope payload).totalFee ≠ 0))) := by
  have heli : isFeeEligibleStatus
      (decodeBaseTransaction payload signature watchedAddresses).status = true := by
    rw [decode_status]
    cases (normalizeEnvelope payload).reverted with
    | true => decide
    | false => decide
  have hamo : (decodeBaseTransaction payload signature watchedAddresses).feeAmount =
      toString (normalizeEnvelope payload).totalFee := rfl
  have hpayer : (decodeBaseTransaction payload signature watchedAddresses).feePayer =
      (normalizeEnvelope payload).sender := rfl
  rw [feeDue, shouldEmitSolanaFeeEvent, heli, hamo, hpayer, parseBigInt_toString]
  simp only [Bool.true_and, ne_eq, Int.natCast_eq_zero, Int.natAbs_eq_zero]

end Due

end Normalizer

end MultichainIndexer
