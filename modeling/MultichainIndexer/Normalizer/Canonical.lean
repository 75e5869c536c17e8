import MultichainIndexer.Normalizer.Btc
import MultichainIndexer.Normalizer.Cursor
import MultichainIndexer.Normalizer.Evm
import MultichainIndexer.Normalizer.Solana

/-!
# From answers to canonical events

The chain decides which rules make the canonical events of an answer. Whatever
the rules are, an event is that of a watched address, and an answer that has a
watched event keeps one. `takenResults` are the answers that a batch goes on with:
its transactions are what becomes of them, in order.
-/

namespace MultichainIndexer

open Text BestOf

namespace Normalizer

/-- The part of `normalizedTxFromResult` that builds the balance events. -/
def canonicalBalanceEvents (hash : String → String) (batch : RawBatch) (txHash : String)
    (result : TransactionResult) (watchedAddrs : List String) : List NormalizedBalanceEvent :=
  let finalityState := resolveResultFinalityState batch.chain result
  if isEVMChain batch.chain then
    buildCanonicalBaseBalanceEventsMulti hash batch.chain batch.network txHash result.status
      result.feePayer result.feeAmount finalityState result.balanceEvents watchedAddrs
  else if batch.chain = .btc then
    buildCanonicalBTCBalanceEventsMulti hash batch.chain batch.network txHash result.status
      result.feePayer result.feeAmount finalityState result.balanceEvents watchedAddrs
  else
    buildCanonicalSolanaBalanceEventsMulti hash batch.chain batch.network txHash result.status
      result.feePayer result.feeAmount finalityState result.balanceEvents watchedAddrs

section Addresses
variable {hash : String → String} {chain : Chain} {network : Network}
variable {txHash txStatus feePayer feeAmount finalityState : String}
variable {rawEvents : List BalanceEventInfo} {watched : List String}

variable {events : List NormalizedBalanceEvent} {be : NormalizedBalanceEvent}

theorem mem_sortByEventID {e : NormalizedBalanceEvent} : e ∈ sortByEventID events ↔ e ∈ events :=
  (List.perm_insertionSort _ events).mem_iff

theorem insertionSort_eq_nil {α : Type} {r : α → α → Prop} [DecidableRel r] {l : List α} :
    l.insertionSort r = [] ↔ l = [] := by
  rw [← List.length_eq_zero_iff, List.length_insertionSort, List.length_eq_zero_iff]

theorem sortByEventID_eq_nil : sortByEventID events = [] ↔ events = [] :=
  insertionSort_eq_nil

theorem mem_buildRawBalanceEventsMulti {handleSelfTransfer : Bool}
    (h : be ∈ buildRawBalanceEventsMulti rawEvents watched handleSelfTransfer) :
    be.address ∈ watched := by
  obtain ⟨raw, hraw, rfl⟩ := List.mem_map.mp h
  have hwat : raw.address ∈ watched := by simpa using (List.mem_filter.mp hraw).2
  unfold normalizeRaw
  split
  · exact hwat
  · exact hwat

theorem buildRawBalanceEventsMulti_eq_nil {handleSelfTransfer : Bool} :
    buildRawBalanceEventsMulti rawEvents watched handleSelfTransfer = [] ↔
      ∀ be ∈ rawEvents, be.address ∉ watched := by
  simp [buildRawBalanceEventsMulti, List.filter_eq_nil_iff]

theorem baseBalanceEvents_address
    (h : be ∈ baseBalanceEvents chain txStatus feePayer feeAmount rawEvents watched) :
    be.address ∈ watched := by
  unfold baseBalanceEvents at h
  rcases List.mem_append.mp h with h | h
  · split at h
    · cases h
    · exact mem_buildRawBalanceEventsMulti h
  · split at h
    · rename_i hfee
      rw [baseFeeEvents_address h]
      simp only [Bool.and_eq_true, decide_eq_true_eq] at hfee
      exact hfee.1
    · cases h

theorem mem_append_fee {fee : NormalizedBalanceEvent} {due : Bool}
    (heve : ∀ e ∈ events, e.address ∈ watched) (hfee : due = true → fee.address ∈ watched)
    (h : be ∈ if due then events ++ [fee] else events) : be.address ∈ watched := by
  split at h
  · rename_i hdue
    rcases List.mem_append.mp h with h | h
    · exact heve be h
    · rw [List.mem_singleton.mp h]
      exact hfee hdue
  · exact heve be h

theorem btcBalanceEvents_address
    (h : be ∈ btcBalanceEvents txStatus feePayer feeAmount rawEvents watched) :
    be.address ∈ watched := by
  refine mem_append_fee (fun e he => mem_buildRawBalanceEventsMulti he) ?_ h
  intro hdue
  simp only [Bool.and_eq_true, decide_eq_true_eq] at hdue
  exact hdue.1.1

theorem solanaBalanceEvents_address
    (h : be ∈ solanaBalanceEvents txStatus feePayer feeAmount rawEvents watched) :
    be.address ∈ watched := by
  refine mem_append_fee (fun e he => mem_buildRawBalanceEventsMulti he) ?_ h
  intro hdue
  simp only [Bool.and_eq_true, decide_eq_true_eq] at hdue
  exact hdue.1.1

end Addresses

section Answer
variable {hash : String → String} {batch : RawBatch} {txHash : String}
variable {result : TransactionResult} {watched : List String}

theorem canonicalBalanceEvents_address {e : NormalizedBalanceEvent}
    (h : e ∈ canonicalBalanceEvents hash batch txHash result watched) :
    ∃ a ∈ watched, e.address = canonicalizeAddressIdentity batch.chain a := by
  unfold canonicalBalanceEvents at h
  simp only at h
  split at h
  · obtain ⟨be, hbe, rfl⟩ := List.mem_map.mp (mem_of_mem_keep (mem_sortByEventID.mp h))
    exact ⟨be.address, baseBalanceEvents_address hbe, canonicalBaseEvent_address _ _ _ _ _ _⟩
  · split at h
    · obtain ⟨be, hbe, rfl⟩ := List.mem_map.mp (mem_of_mem_keep (mem_sortByEventID.mp h))
      exact ⟨be.address, btcBalanceEvents_address hbe, canonicalBTCEvent_address _ _ _ _ _ _⟩
    · obtain ⟨pair, hpair, rfl⟩ := List.mem_map.mp (mem_sortByEventID.mp h)
      obtain ⟨be, hbe, rfl⟩ := List.mem_map.mp (mem_of_mem_keep hpair)
      obtain ⟨raw, hraw, rfl⟩ := List.mem_map.mp
        ((List.perm_insertionSort _ _).mem_iff.mp hbe)
      refine ⟨raw.address, solanaBalanceEvents_address hraw, ?_⟩
      rw [canonicalSolanaEvent_address, placeSolanaEvent_address]

/-- A failed transaction whose payer is not watched is left without events if its events are
dropped, as those of a reverted transaction are, or none of them is of a watched address. -/
theorem canonicalBalanceEvents_eq_nil (hsta : result.status = "FAILED")
    (hpayer : result.feePayer ∉ watched) :
    canonicalBalanceEvents hash batch txHash result watched = [] ↔
      isEVMChain batch.chain = true ∨ ∀ be ∈ result.balanceEvents, be.address ∉ watched := by
  unfold canonicalBalanceEvents
  simp only
  by_cases hevm : isEVMChain batch.chain = true
  · rw [if_pos hevm, buildCanonicalBaseBalanceEventsMulti, canonicalizeBaseBalanceEvents,
      sortByEventID_eq_nil, keep_eq_nil, List.map_eq_nil_iff]
    have hfold : equalFold result.status "FAILED" = true := by
      rw [hsta]
      decide
    simp [baseBalanceEvents, hfold, hpayer, hevm]
  · rw [if_neg hevm]
    by_cases hbtc : batch.chain = .btc
    · rw [if_pos hbtc, buildCanonicalBTCBalanceEventsMulti, canonicalizeBTCBalanceEvents,
        sortByEventID_eq_nil, keep_eq_nil, List.map_eq_nil_iff]
      simp [btcBalanceEvents, hpayer, hevm, buildRawBalanceEventsMulti_eq_nil]
    · rw [if_neg hbtc, buildCanonicalSolanaBalanceEventsMulti, canonicalizeSolanaBalanceEvents,
        sortByEventID_eq_nil, List.map_eq_nil_iff, keep_eq_nil, List.map_eq_nil_iff,
        insertionSort_eq_nil, List.map_eq_nil_iff]
      simp [solanaBalanceEvents, hpayer, hevm, buildRawBalanceEventsMulti_eq_nil]

end Answer

section Taken
variable (env : NormalizerEnv) (batch : RawBatch) (terminal : List (String × String))
variable (ans : Answers) (single : Bool)

/-- The answer that a signature is decoded with, past the coverage floor. -/
def takenResult (st : Decoded) (sig : SignatureInfo) : Option TransactionResult :=
  let signatureKey := canonicalSignatureIdentity batch.chain (trimSpace sig.hash)
  if signatureKey = "" then none
  else
    match terminal.lookup signatureKey with
    | some _ => none
    | none => (resultFor ans single st signatureKey).map
        (reconcileCoverageRegressionFlap env.coverageFloor batch signatureKey)

def takenFrom : Decoded → List SignatureInfo → List (TransactionResult × Option Int)
  | _, [] => []
  | st, sig :: rest =>
    (takenResult env batch terminal ans single st sig).toList.map (·, sig.time) ++
      takenFrom (decodeSignature env batch terminal ans single st sig) rest

def takenResults : List (TransactionResult × Option Int) :=
  match env.decode ((batch.signatures.map SignatureInfo.hash).zip batch.rawTransactions)
      (requestedAddresses batch) with
  | .error _ => []
  | .ok resp =>
    let sigs := canonicalizeBatchSignatures batch.chain batch.signatures
    let ans := collectAnswers batch.chain (expectedSignatures batch.chain sigs) resp.results
    takenFrom env batch (classifyDecodeErrors env batch.chain resp.errors).1 ans (sigs.length = 1)
      (startDecoded batch ans) sigs

def takenTx (taken : TransactionResult × Option Int) : NormalizedTransaction :=
  normalizedTxFromResult env batch taken.1 taken.2 (resolveWatchedAddressSet batch)

variable {env batch terminal ans single}

theorem decodeSignature_transactions (st : Decoded) (sig : SignatureInfo) :
    (decodeSignature env batch terminal ans single st sig).transactions = st.transactions ++
      ((takenResult env batch terminal ans single st sig).toList.map (·, sig.time)).map
        (takenTx env batch) := by
  unfold decodeSignature takenResult
  simp only
  by_cases hkey : canonicalSignatureIdentity batch.chain (trimSpace sig.hash) = ""
  · simp [hkey, Decoded.fail]
  · rw [if_neg hkey, if_neg hkey]
    cases terminal.lookup (canonicalSignatureIdentity batch.chain (trimSpace sig.hash)) with
    | some errMsg => simp [Decoded.fail]
    | none =>
      simp only
      cases resultFor ans single st (canonicalSignatureIdentity batch.chain (trimSpace sig.hash)) with
      | none => simp [Decoded.fail]
      | some result => simp [takenTx]

theorem foldl_decodeSignature_transactions (sigs : List SignatureInfo) (st : Decoded) :
    (sigs.foldl (decodeSignature env batch terminal ans single) st).transactions =
      st.transactions ++ (takenFrom env batch terminal ans single st sigs).map
        (takenTx env batch) := by
  induction sigs generalizing st with
  | nil => simp [takenFrom]
  | cons sig rest ih =>
    rw [List.foldl_cons, ih, decodeSignature_transactions, takenFrom, List.map_append,
      List.append_assoc]

theorem processBatch_transactions {nb : NormalizedBatch} (h : processBatch env batch = .ok nb) :
    nb.transactions = (takenResults env batch).map (takenTx env batch) := by
  rcases processBatch_ok h with ⟨hnil, rfl⟩ | ⟨resp, st, hresp, rfl, rfl⟩
  · unfold takenResults
    rw [hnil]
    split
    · rfl
    · rfl
  · unfold takenResults
    rw [hresp]
    exact (foldl_decodeSignature_transactions _ _).trans
      (by rw [startDecoded_transactions, List.nil_append])

end Taken

end Normalizer

end MultichainIndexer
