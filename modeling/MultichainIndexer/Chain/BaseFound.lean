import MultichainIndexer.Chain.BaseScan

/-!
# What the EVM scan finds

A transaction of the range is in the result exactly if its sender or recipient is
watched and its block was answered, or one of its logs came back, or a trace shows
it. The scan is complete if that is so for every transaction that mentions a
watched address.
-/

namespace MultichainIndexer

open Text IntRange

namespace Base

def ScanState.Has (s : ScanState) (hash : String) : Prop := hash ∈ s.candidates.map Prod.fst

def touchesParty (addrs : List String) (tx : Transaction) : Bool :=
  watchedParty addrs tx.fromAddress || watchedParty addrs tx.toAddress

def InBatch (client : Client) (fromBlock toBlock b : Int) : Prop :=
  ∃ blocks, client.getBlocksByNumber (between fromBlock toBlock) = .ok blocks ∧
    ∃ block, blocks[(b - fromBlock).toNat]? = some (some block)

def batchStartOf (startBlock b : Int) : Int :=
  startBlock + blockFetchBatchSize * ((b - startBlock) / blockFetchBatchSize)

def BlockAnswered (client : Client) (startBlock endBlock b : Int) : Prop :=
  InBatch client (batchStartOf startBlock b) (batchEnd (batchStartOf startBlock b) endBlock) b

/-- A trace of the block has an internal transfer of a watched address in the transaction. -/
def TracedIn (client : Client) (addrs : List String) (hash : String) (b : Int) : Prop :=
  ∃ traces, client.traceBlockByNumber b = .ok traces ∧ ∃ trace, some trace ∈ traces ∧
    hasInternalTransferToWatched addrs trace.result = true ∧ trace.txHash = hash

/-- Every block of the range was traced, one of them to the transaction. -/
def Traced (client : Client) (startBlock endBlock : Int) (addrs : List String) (hash : String) :
    Prop :=
  (∀ b ∈ between startBlock endBlock, ∃ traces, client.traceBlockByNumber b = .ok traces) ∧
    ∃ b ∈ between startBlock endBlock, TracedIn client addrs hash b

section Candidates
variable {addrs : List String}

theorem has_upsertCandidate (s : ScanState) (hash : String) (new : Candidate) (k : String) :
    (s.upsertCandidate hash new).Has k ↔ s.Has k ∨ (trimSpace hash ≠ "" ∧ hash = k) := by
  unfold ScanState.upsertCandidate
  split
  · rename_i hblank
    simp [hblank]
  · rename_i hblank
    rw [ScanState.Has, Accumulate.mem_keys_bump, ScanState.Has, or_comm]
    simp [hblank, eq_comm]

theorem has_scanTransaction (b : Int) (time : Option Int) (s : ScanState)
    (entry : Option Transaction) (k : String) :
    (scanTransaction addrs b time s entry).Has k ↔ s.Has k ∨
      ∃ tx, entry = some tx ∧ trimSpace tx.hash ≠ "" ∧ touchesParty addrs tx = true ∧ tx.hash = k := by
  cases entry with
  | none => simp [scanTransaction]
  | some tx =>
    rw [scanTransaction]
    split
    · simp_all
    · rename_i hblank
      split
      · simp_all [touchesParty]
      · rename_i hparty
        have htouch : touchesParty addrs tx = true := by
          cases hf : watchedParty addrs tx.fromAddress <;>
            cases ht : watchedParty addrs tx.toAddress <;> simp_all [touchesParty]
        rw [has_upsertCandidate]
        simp [hblank, htouch]

theorem has_scanBlock (s : ScanState) (entry : Int × Option Block) (k : String) :
    (scanBlock addrs s entry).Has k ↔ s.Has k ∨ ∃ block, entry.2 = some block ∧
      ∃ tx, some tx ∈ block.transactions ∧ trimSpace tx.hash ≠ "" ∧ touchesParty addrs tx = true ∧
        tx.hash = k := by
  obtain ⟨b, _ | block⟩ := entry
  · simp [scanBlock]
  · rw [scanBlock, Gains.foldl_holds fun i _ t k => has_scanTransaction b _ t i k]
    refine or_congr Iff.rfl ?_
    constructor
    · rintro ⟨_, hmem, tx, rfl, hrest⟩
      exact ⟨block, rfl, tx, hmem, hrest⟩
    · rintro ⟨block', hblock, tx, hmem, hrest⟩
      cases hblock
      exact ⟨_, hmem, tx, rfl, hrest⟩

end Candidates

section Blocks
variable {ledger : Ledger} {client : Client} {addrs : List String} {lo hi b : Int}

theorem BlockTells.mem_transactions {block : Block} (h : BlockTells ledger b block)
    {tx : Transaction} : some tx ∈ block.transactions ↔ ∃ m ∈ ledger.mined b, m.tx = tx := by
  have hmem : tx ∈ block.transactions.filterMap id ↔ tx ∈ (ledger.mined b).map Mined.tx := by
    rw [h]
  simpa using hmem

theorem has_scanBatch (ht : client.Truthful ledger) {s s' : ScanState}
    (h : scanBatch client addrs lo hi s = .ok s') (k : String) :
    s'.Has k ↔ s.Has k ∨ ∃ b m, lo ≤ b ∧ b ≤ hi ∧ InBatch client lo hi b ∧ m ∈ ledger.mined b ∧
      touchesParty addrs m.tx = true ∧ m.tx.hash = k := by
  unfold scanBatch at h
  split at h
  · cases h
  · rename_i blocks hblo
    obtain ⟨-, htells⟩ := ht.blocks hblo
    cases h
    rw [Gains.foldl_holds fun i _ t k => has_scanBlock t i k]
    refine or_congr Iff.rfl ?_
    constructor
    · rintro ⟨⟨b, _⟩, hmem, block, rfl, tx, htx, -, hparty, hhash⟩
      obtain ⟨hb, hblock⟩ := mem_between_zip.mp hmem
      obtain ⟨m, hm, rfl⟩ := (htells _ b block hb hblock).mem_transactions.mp htx
      have hplace := between_getElem?.mp hb
      exact ⟨b, m, by omega, by omega, ⟨blocks, hblo, block, hblock⟩, hm, hparty, hhash⟩
    · rintro ⟨b, m, hlo, hhi, ⟨blocks', hblo', block, hblock⟩, hm, hparty, hhash⟩
      rw [hblo] at hblo'
      cases hblo'
      have hb : (between lo hi)[(b - lo).toNat]? = some b := between_getElem?.mpr (by omega)
      refine ⟨(b, some block), ?_, block, rfl, m.tx, ?_, ledger.hash_ne_blank hm, hparty, hhash⟩
      · exact mem_between_zip.mpr ⟨hb, hblock⟩
      · exact (htells _ b block hb hblock).mem_transactions.mpr ⟨m, hm, rfl⟩

theorem batchStartOf_first (hlo : lo ≤ b) (hb : b < lo + blockFetchBatchSize) :
    batchStartOf lo b = lo := by
  unfold batchStartOf blockFetchBatchSize at *
  omega

theorem batchStartOf_next : batchStartOf (lo + blockFetchBatchSize) b = batchStartOf lo b := by
  unfold batchStartOf blockFetchBatchSize
  omega

theorem batchEnd_bounds (h : lo ≤ hi) : lo ≤ batchEnd lo hi ∧ batchEnd lo hi ≤ hi ∧
    batchEnd lo hi < lo + blockFetchBatchSize ∧
    (b ≤ hi → b < lo + blockFetchBatchSize → b ≤ batchEnd lo hi) := by
  unfold batchEnd blockFetchBatchSize
  split <;> omega

theorem has_scanBatches (ht : client.Truthful ledger) {s s' : ScanState}
    (h : scanBatches client addrs lo hi s = .ok s') (k : String) :
    s'.Has k ↔ s.Has k ∨ ∃ b m, lo ≤ b ∧ b ≤ hi ∧ BlockAnswered client lo hi b ∧
      m ∈ ledger.mined b ∧ touchesParty addrs m.tx = true ∧ m.tx.hash = k := by
  fun_induction scanBatches client addrs lo hi s with
  | case1 lo s hle ih =>
    obtain ⟨t, hbatch, hrest⟩ := Result.bind_ok h
    rw [ih t hrest, has_scanBatch ht hbatch, or_assoc]
    refine or_congr Iff.rfl ?_
    have hend := fun b => batchEnd_bounds (b := b) hle
    constructor
    · rintro (⟨b, m, hlo, hhi, hin, hm⟩ | ⟨b, m, hlo, hhi, hin, hm⟩)
      · refine ⟨b, m, hlo, by have := hend b; omega, ?_, hm⟩
        rw [BlockAnswered, batchStartOf_first hlo (by have := hend b; omega)]
        exact hin
      · refine ⟨b, m, by unfold blockFetchBatchSize at hlo; omega, hhi, ?_, hm⟩
        rw [BlockAnswered, batchStartOf_next] at hin
        exact hin
    · rintro ⟨b, m, hlo, hhi, hin, hm⟩
      by_cases hb : b < lo + blockFetchBatchSize
      · rw [BlockAnswered, batchStartOf_first hlo hb] at hin
        exact Or.inl ⟨b, m, hlo, (hend b).2.2.2 hhi hb, hin, hm⟩
      · refine Or.inr ⟨b, m, by omega, hhi, ?_, hm⟩
        rw [BlockAnswered, batchStartOf_next]
        exact hin
  | case2 lo s hgt =>
    cases h
    constructor
    · exact Or.inl
    · rintro (hk | ⟨b, m, hlo, hhi, -⟩)
      · exact hk
      · omega

end Blocks

section Logs
variable {ledger : Ledger} {addrs topics : List String} {lo hi b : Int}

def LogReturned (client : Stage → Client) (lo hi : Int) (topics : List String) (b : Int)
    (m : Mined) : Prop :=
  topics ≠ [] ∧ ∃ position < 3, ∃ l ∈ m.logs,
    Returned (client (.logs position)) (topicFilter topics position) lo hi b m.tx.hash l

theorem has_scanLog (s : ScanState) (entry : Log) (k : String) :
    (scanLog s entry).Has k ↔ s.Has k ∨ (trimSpace entry.transactionHash ≠ "" ∧
      (parseHexInt64 entry.blockNumber).isSome = true ∧ entry.transactionHash = k) := by
  unfold scanLog
  split
  · simp_all
  · rename_i hblank
    split
    · simp_all
    · rename_i hnum
      rw [has_upsertCandidate]
      simp [hblank, hnum]

theorem has_scanLogs {client : Client} (ht : client.Truthful ledger) {filter : List Topic}
    {s s' : ScanState} (h : scanLogs client lo hi filter s = .ok s') (k : String) :
    s'.Has k ↔ s.Has k ∨ ∃ b m, lo ≤ b ∧ b ≤ hi ∧ m ∈ ledger.mined b ∧
      (∃ l ∈ m.logs, Returned client filter lo hi b m.tx.hash l) ∧ m.tx.hash = k := by
  unfold scanLogs at h
  split at h
  · cases h
  · rename_i logs hlogs
    cases h
    rw [Gains.foldl_holds fun i _ t k => has_scanLog t i k]
    refine or_congr Iff.rfl ?_
    constructor
    · rintro ⟨l, hl, -, -, hhash⟩
      obtain ⟨b, m, hlo, hhi, hm, hlm, hret⟩ := (mem_fetchLogs ht hlogs l).mp hl
      refine ⟨b, m, hlo, hhi, hm, ⟨l, hlm, hret⟩, ?_⟩
      rw [← ledger.log_hash hm hlm]
      exact hhash
    · rintro ⟨b, m, hlo, hhi, hm, ⟨l, hlm, hret⟩, hhash⟩
      have hl := (mem_fetchLogs ht hlogs l).mpr ⟨b, m, hlo, hhi, hm, hlm, hret⟩
      refine ⟨l, hl, ?_, ?_, ?_⟩
      · rw [ledger.log_hash hm hlm]
        exact ledger.hash_ne_blank hm
      · rw [ledger.log_block hm hlm]
        rfl
      · rw [ledger.log_hash hm hlm]
        exact hhash

theorem has_scanTopics {client : Stage → Client} (ht : ∀ stage, (client stage).Truthful ledger)
    {s s' : ScanState} (h : scanTopics client lo hi topics s = .ok s') (k : String) :
    s'.Has k ↔ s.Has k ∨ ∃ b m, lo ≤ b ∧ b ≤ hi ∧ m ∈ ledger.mined b ∧
      LogReturned client lo hi topics b m ∧ m.tx.hash = k := by
  unfold scanTopics at h
  split at h
  · rename_i hnil
    cases h
    simp [LogReturned, hnil]
  · rename_i hne
    have hloop := (Gains.foldlM_holds (fun _ => True) ScanState.Has
      (fun position _ t t' _ hstep => ⟨trivial, has_scanLogs (ht _) hstep⟩) trivial h).2 k
    rw [hloop]
    refine or_congr Iff.rfl ?_
    constructor
    · rintro ⟨position, hpos, b, m, hlo, hhi, hm, hret, hhash⟩
      refine ⟨b, m, hlo, hhi, hm, ⟨hne, position, ?_, hret⟩, hhash⟩
      simp only [List.mem_cons, List.not_mem_nil, or_false] at hpos
      omega
    · rintro ⟨b, m, hlo, hhi, hm, ⟨-, position, hpos, hret⟩, hhash⟩
      refine ⟨position, ?_, b, m, hlo, hhi, hm, hret, hhash⟩
      simp only [List.mem_cons, List.not_mem_nil, or_false]
      omega

end Logs

section Traces
variable {client : Client} {addrs : List String} {lo hi : Int}

theorem traceBlock_ok_iff (addrs : List String) {b : Int} :
    (∃ found, traceBlock client addrs b = .ok found) ↔
      ∃ traces, client.traceBlockByNumber b = .ok traces := by
  unfold traceBlock
  split <;> simp_all

theorem mem_traceBlock {b : Int} {found : List (String × Int)}
    (h : traceBlock client addrs b = .ok found) (k : String) :
    (∃ b, (k, b) ∈ found) ↔ TracedIn client addrs k b := by
  unfold traceBlock at h
  split at h
  · cases h
  · rename_i traces htra
    cases h
    rw [TracedIn, htra]
    simp [and_assoc]

theorem scanInternalTransfers_ok_iff :
    (∃ found, scanInternalTransfers client lo hi addrs = .ok found) ↔
      ∀ b ∈ between lo hi, ∃ traces, client.traceBlockByNumber b = .ok traces := by
  apply Result.foldlM_ok_iff
  intro b _ s
  rw [← traceBlock_ok_iff addrs]
  cases traceBlock client addrs b <;> simp [Except.map]

theorem mem_scanInternalTransfers {found : List (String × Int)}
    (h : scanInternalTransfers client lo hi addrs = .ok found) (k : String) :
    (∃ b, (k, b) ∈ found) ↔ Traced client lo hi addrs k := by
  have hstep : ∀ b ∈ between lo hi, ∀ s s' : List (String × Int), True →
      ((traceBlock client addrs b).map fun found => s ++ found) = .ok s' → True ∧
        ∀ k, (∃ b, (k, b) ∈ s') ↔ (∃ b, (k, b) ∈ s) ∨ TracedIn client addrs k b := by
    intro b _ s s' _ hs
    obtain ⟨block, hblock, rfl⟩ := Result.map_ok hs
    refine ⟨trivial, fun k => ?_⟩
    rw [← mem_traceBlock hblock]
    simp only [List.mem_append, exists_or]
  have hloop := (Gains.foldlM_holds (fun _ => True) _ hstep trivial h).2 k
  rw [hloop, Traced, and_iff_right (scanInternalTransfers_ok_iff.mp ⟨found, h⟩)]
  simp only [List.not_mem_nil, exists_false, false_or]

theorem not_traced_of_error {err : String}
    (h : scanInternalTransfers client lo hi addrs = .error err) (k : String) :
    ¬ Traced client lo hi addrs k := by
  rintro ⟨hall, -⟩
  obtain ⟨found, hfound⟩ := scanInternalTransfers_ok_iff.mpr hall
  rw [h] at hfound
  cases hfound

theorem has_upsertTrace (s : ScanState) (entry : String × Int) (k : String) :
    (upsertTrace s entry).Has k ↔ s.Has k ∨ (trimSpace entry.1 ≠ "" ∧ entry.1 = k) :=
  has_upsertCandidate s entry.1 _ k

theorem has_scanTraces (traceEnabled : Bool) (s : ScanState) (k : String) :
    (scanTraces traceEnabled client lo hi addrs s).Has k ↔ s.Has k ∨
      (traceEnabled = true ∧ trimSpace k ≠ "" ∧ Traced client lo hi addrs k) := by
  unfold scanTraces
  split
  · rename_i htrace
    split
    · rename_i herr
      simp [not_traced_of_error herr k]
    · rename_i found hfound
      rw [Gains.foldl_holds fun i _ t k => has_upsertTrace t i k,
        ← mem_scanInternalTransfers hfound k]
      refine or_congr Iff.rfl ?_
      constructor
      · rintro ⟨⟨hash, b⟩, hmem, hblank, rfl⟩
        exact ⟨htrace, hblank, b, hmem⟩
      · rintro ⟨-, hblank, b, hmem⟩
        exact ⟨(k, b), hmem, hblank, rfl⟩
  · rename_i htrace
    simp [htrace]

end Traces

section Scan
variable {ledger : Ledger} {traceEnabled : Bool} {client : Stage → Client} {lo hi b : Int}
  {watched : List String}

/-- How the scan comes to a transaction. -/
inductive Found (traceEnabled : Bool) (client : Stage → Client) (lo hi : Int)
    (watched : List String) (b : Int) (m : Mined) : Prop
  | party (hanswered : BlockAnswered (client .blocks) lo hi b)
      (hparty : touchesParty (addrSet watched) m.tx = true)
  | log (hlog : LogReturned client lo hi (addrTopics (addrSet watched)) b m)
  | trace (henabled : traceEnabled = true)
      (htrace : Traced (client .traces) lo hi (addrSet watched) m.tx.hash)

def Mentions (watched : List String) (m : Mined) : Prop :=
  touchesParty (addrSet watched) m.tx = true ∨
    ∃ l ∈ m.logs, ∃ got ∈ l.topics, ∃ topic ∈ addrTopics (addrSet watched), sameTopic got topic = true

def ScanComplete (ledger : Ledger) (lo hi : Int) (watched : List String)
    (sigs : List SignatureInfo) : Prop :=
  ∀ b m, lo ≤ b → b ≤ hi → m ∈ ledger.mined b → Mentions watched m →
    ∃ sig ∈ sigs, sig.hash = m.tx.hash

theorem mem_signatures (s : ScanState) (k : String) :
    (∃ sig ∈ s.signatures, sig.hash = k) ↔ s.Has k := by
  simp [ScanState.signatures, ScanState.Has, List.mem_insertionSort]

theorem not_mentions_nil (m : Mined) : ¬ Mentions [] m := by
  rintro (hparty | ⟨l, -, got, -, topic, htopic, -⟩)
  · cases hparty
  · cases htopic

theorem mem_scanBlocks (ht : ∀ stage, (client stage).Truthful ledger) {sigs : List SignatureInfo}
    (h : scanBlocks traceEnabled client lo hi watched = .ok sigs) (hw : watched ≠ []) (hlo : lo ≤ b)
    (hhi : b ≤ hi) {m : Mined} (hm : m ∈ ledger.mined b) :
    (∃ sig ∈ sigs, sig.hash = m.tx.hash) ↔ Found traceEnabled client lo hi watched b m := by
  have hgo : ¬ (lo > hi ∨ watched = []) := by
    rintro (hgt | hnil)
    · omega
    · exact hw hnil
  rw [scanBlocks, if_neg hgo] at h
  obtain ⟨s, hs, h⟩ := Result.bind_ok h
  obtain ⟨t, ht', h⟩ := Result.bind_ok h
  cases h
  rw [mem_signatures, has_scanTraces, has_scanTopics ht ht', has_scanBatches (ht .blocks) hs]
  constructor
  · rintro (((hnil | ⟨b', m', -, -, hans, hm', hparty, hhash⟩) |
      ⟨b', m', -, -, hm', hlog, hhash⟩) | ⟨hena, -, htrace⟩)
    · cases hnil
    · obtain ⟨rfl, rfl⟩ := ledger.hash_inj hm' hm hhash
      exact .party hans hparty
    · obtain ⟨rfl, rfl⟩ := ledger.hash_inj hm' hm hhash
      exact .log hlog
    · exact .trace hena htrace
  · rintro (⟨hans, hparty⟩ | hlog | ⟨hena, htrace⟩)
    · exact Or.inl (Or.inl (Or.inr ⟨b, m, hlo, hhi, hans, hm, hparty, rfl⟩))
    · exact Or.inl (Or.inr ⟨b, m, hlo, hhi, hm, hlog, rfl⟩)
    · exact Or.inr ⟨hena, ledger.hash_ne_blank hm, htrace⟩

theorem scanComplete_iff (ht : ∀ stage, (client stage).Truthful ledger) {sigs : List SignatureInfo}
    (h : scanBlocks traceEnabled client lo hi watched = .ok sigs) :
    ScanComplete ledger lo hi watched sigs ↔
      ∀ b m, lo ≤ b → b ≤ hi → m ∈ ledger.mined b → Mentions watched m →
        Found traceEnabled client lo hi watched b m := by
  refine forall₅_congr fun b m hlo hhi hm => forall_congr' fun hmen => ?_
  refine mem_scanBlocks ht h ?_ hlo hhi hm
  rintro rfl
  exact not_mentions_nil m hmen

end Scan

end Base
end MultichainIndexer
