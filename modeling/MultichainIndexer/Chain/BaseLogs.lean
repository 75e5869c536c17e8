import MultichainIndexer.Chain.BaseRpc
import MultichainIndexer.Lib.Result

/-!
# The log query with its fallbacks

`fetchLogsWithFallback` halves a range that the node finds too large, and reads
the receipts of a single block that the node does not answer for. The receipt scan
returns the logs of the transactions with a known receipt that pass
`logMatchesTopics`.
-/

namespace MultichainIndexer

open Text

namespace Base

def rangeLimitPatterns : List String :=
  ["10000", "10,000", "query returned more than", "too many results", "response size exceeded",
    "exceeds max results", "block range is too wide", "limit exceeded", "-32005"]

def isLikelyLogRangeLimitError (err : String) : Bool :=
  rangeLimitPatterns.any fun pattern => containsText (toLower err) pattern

/-- The receipt scan compares a position that is one topic, and passes over any other. -/
def Topic.passes : Topic → Option String → Bool
  | .one expected, some got => sameTopic got expected
  | .one _, none => false
  | _, _ => true

def logMatchesTopics (topics : List Topic) (log : Log) : Bool :=
  positionsAccept Topic.passes topics log

def Topic.listed : Topic → Option String → Bool
  | .anyOf expected, some got => expected.any (sameTopic got)
  | .anyOf _, none => false
  | _, _ => true

def listsMatch (topics : List Topic) (log : Log) : Bool :=
  positionsAccept Topic.listed topics log

def blockTxHashes (block : Block) : List String :=
  (block.transactions.filterMap id).filterMap fun tx =>
    if trimSpace tx.hash = "" then none else some tx.hash

def singleReceipt (client : Client) (hash : String) : Option TransactionReceipt :=
  match client.getTransactionReceipt hash with
  | .ok receipt => receipt
  | .error _ => none

/-- A short batch answer, padded and then filled by single queries. -/
def completeReceipts (client : Client) (hashes : List String)
    (receipts : List (Option TransactionReceipt)) : List (Option TransactionReceipt) :=
  List.zipWith (fun entry hash => entry.or (singleReceipt client hash))
    (receipts ++ List.replicate (hashes.length - receipts.length) none) hashes

def blockReceipts (client : Client) (hashes : List String) : List (Option TransactionReceipt) :=
  match client.getTransactionReceiptsByHash hashes with
  | .error _ => hashes.map (singleReceipt client)
  | .ok receipts =>
    -- only a short answer is completed; a null in a full one stays
    if receipts.length < hashes.length then completeReceipts client hashes receipts
    else receipts

def filteredLogs (topics : List Topic) (receipts : List (Option TransactionReceipt)) : List Log :=
  (receipts.filterMap id).flatMap fun receipt =>
    ((receipt.logs.filterMap id).filter (logMatchesTopics topics)).map (fillLog receipt)

def scanBlockReceiptsForTopics (client : Client) (blockNum : Int) (topics : List Topic) :
    Except String (List Log) :=
  match client.getBlockByNumber blockNum with
  | .error err => .error ("get block " ++ toString blockNum ++ " for receipt fallback: " ++ err)
  | .ok none => .ok []
  | .ok (some block) =>
    if blockTxHashes block = [] then .ok []
    else .ok (filteredLogs topics (blockReceipts client (blockTxHashes block)))

/-- Heights are `int64` in the source; nothing overflows between two of them. -/
def middle (fromBlock toBlock : Int) : Int := fromBlock + (toBlock - fromBlock) / 2

theorem middle_bounds {lo hi : Int} (h : lo < hi) : lo ≤ middle lo hi ∧ middle lo hi < hi := by
  unfold middle
  omega

def fetchLogsWithFallback (client : Client) (fromBlock toBlock : Int) (topics : List Topic) :
    Except String (List Log) :=
  if fromBlock > toBlock then .ok []
  else
    match client.getLogs fromBlock toBlock topics with
    | .ok logs => .ok logs
    | .error err =>
      if _hlimit : fromBlock < toBlock ∧ isLikelyLogRangeLimitError err = true then do
        let left ← fetchLogsWithFallback client fromBlock (middle fromBlock toBlock) topics
        let right ← fetchLogsWithFallback client (middle fromBlock toBlock + 1) toBlock topics
        return left ++ right
      else if fromBlock = toBlock then
        match scanBlockReceiptsForTopics client fromBlock topics with
        | .ok receiptLogs => .ok receiptLogs
        | .error fallbackErr =>
          .error ("eth_getLogs block " ++ toString fromBlock ++ " failed (" ++ err ++
            "), and receipt fallback failed: " ++ fallbackErr)
      else .error err
  termination_by (toBlock - fromBlock).toNat
  decreasing_by
    · have hmid := middle_bounds _hlimit.1
      omega
    · have hmid := middle_bounds _hlimit.1
      omega

/-- The node gave the receipt at this index of the hashes, in the batch or on its own. -/
def ReceiptKnown (client : Client) (hashes : List String) (i : Nat) (hash : String) : Prop :=
  match client.getTransactionReceiptsByHash hashes with
  | .error _ => ∃ receipt, client.getTransactionReceipt hash = .ok (some receipt)
  | .ok receipts => (∃ receipt, receipts[i]? = some (some receipt)) ∨
    receipts.length < hashes.length ∧ ∃ receipt, client.getTransactionReceipt hash = .ok (some receipt)

/-- The node gave the block, and the receipt of the transaction. -/
def ReceiptAnswered (client : Client) (b : Int) (hash : String) : Prop :=
  ∃ block, client.getBlockByNumber b = .ok (some block) ∧
    ∃ i, (blockTxHashes block)[i]? = some hash ∧ ReceiptKnown client (blockTxHashes block) i hash

section Positions

theorem positionsAccept_and {p q r : Topic → Option String → Bool}
    (h : ∀ t got, r t got = (p t got && q t got)) (topics : List Topic) (l : Log) :
    positionsAccept r topics l = (positionsAccept p topics l && positionsAccept q topics l) := by
  unfold positionsAccept
  induction topics.zipIdx with
  | nil => rfl
  | cons position rest ih =>
    rw [List.all_cons, List.all_cons, List.all_cons, ih, h]
    cases p position.1 l.topics[position.2]? <;> cases q position.1 l.topics[position.2]? <;> simp

theorem accepts_eq (t : Topic) (got : Option String) :
    t.accepts got = (t.passes got && t.listed got) := by
  cases t <;> cases got <;> simp [Topic.accepts, Topic.passes, Topic.listed]

theorem matchesFilter_eq (topics : List Topic) (l : Log) :
    matchesFilter topics l = (logMatchesTopics topics l && listsMatch topics l) :=
  positionsAccept_and accepts_eq topics l

end Positions

section Receipts
variable {ledger : Ledger} {client : Client} {topics : List Topic}

theorem logMatchesTopics_fillLog (receipt : TransactionReceipt) (entry : Log) :
    logMatchesTopics topics (fillLog receipt entry) = logMatchesTopics topics entry := rfl

variable {receipts : List (Option TransactionReceipt)} {hash : String}
variable {receipt : TransactionReceipt} {hashes : List String} {i : Nat}

theorem mem_filteredLogs {l : Log} :
    l ∈ filteredLogs topics receipts ↔
      ∃ receipt, some receipt ∈ receipts ∧ l ∈ filledLogs receipt ∧ logMatchesTopics topics l = true := by
  simp only [filteredLogs, List.mem_flatMap, List.mem_filterMap, List.mem_map, List.mem_filter,
    mem_filledLogs, id]
  constructor
  · rintro ⟨receipt, ⟨_, hmem, rfl⟩, entry, ⟨⟨_, hentry, rfl⟩, hpass⟩, rfl⟩
    exact ⟨receipt, hmem, ⟨entry, hentry, rfl⟩, (logMatchesTopics_fillLog receipt entry).trans hpass⟩
  · rintro ⟨receipt, hmem, ⟨entry, hentry, rfl⟩, hpass⟩
    rw [logMatchesTopics_fillLog] at hpass
    exact ⟨receipt, ⟨_, hmem, rfl⟩, entry, ⟨⟨_, hentry, rfl⟩, hpass⟩, rfl⟩

theorem singleReceipt_eq_some :
    singleReceipt client hash = some receipt ↔
      client.getTransactionReceipt hash = .ok (some receipt) := by
  unfold singleReceipt
  split <;> simp_all

theorem completeReceipts_getElem? (hi : hashes[i]? = some hash) :
    (completeReceipts client hashes receipts)[i]? =
      some ((receipts[i]?.join).or (singleReceipt client hash)) := by
  obtain ⟨hlt, -⟩ := List.getElem?_eq_some_iff.mp hi
  have hentry : (receipts ++ List.replicate (hashes.length - receipts.length) none)[i]? =
      some (receipts[i]?.join) := by
    rw [List.getElem?_append]
    split
    · rename_i hin
      rw [List.getElem?_eq_getElem hin]
      rfl
    · rename_i hout
      rw [List.getElem?_replicate, if_pos (by omega), List.getElem?_eq_none (by omega)]
      rfl
  rw [completeReceipts, List.getElem?_zipWith, hentry, hi]

theorem completeReceipts_eq_some (hi : hashes[i]? = some hash)
    (h : (completeReceipts client hashes receipts)[i]? = some (some receipt)) :
    receipts[i]? = some (some receipt) ∨
      client.getTransactionReceipt hash = .ok (some receipt) := by
  rw [completeReceipts_getElem? hi, Option.some_inj, Option.or_eq_some_iff] at h
  rcases h with h | ⟨-, h⟩
  · exact Or.inl (Option.join_eq_some_iff.mp h)
  · exact Or.inr (singleReceipt_eq_some.mp h)

theorem blockReceipts_known (hi : hashes[i]? = some hash) :
    ReceiptKnown client hashes i hash ↔
      ∃ receipt, (blockReceipts client hashes)[i]? = some (some receipt) := by
  unfold ReceiptKnown blockReceipts
  split
  · rw [List.getElem?_map, hi]
    simp [singleReceipt_eq_some]
  · rename_i receipts _
    split
    · rename_i hshort
      constructor
      · intro hknown
        rw [completeReceipts_getElem? hi]
        rcases hknown with ⟨receipt, hr⟩ | ⟨-, receipt, hr⟩
        · exact ⟨receipt, by rw [hr]; rfl⟩
        · rw [singleReceipt_eq_some.mpr hr]
          cases receipts[i]?.join with
          | none => exact ⟨receipt, rfl⟩
          | some own => exact ⟨own, rfl⟩
      · rintro ⟨receipt, hr⟩
        rcases completeReceipts_eq_some hi hr with hr | hr
        · exact Or.inl ⟨receipt, hr⟩
        · exact Or.inr ⟨hshort, receipt, hr⟩
    · rename_i hfull
      constructor
      · rintro (hr | ⟨hshort, -⟩)
        · exact hr
        · exact absurd hshort hfull
      · exact Or.inl

theorem blockReceipts_tells (ht : client.Truthful ledger) (hi : hashes[i]? = some hash)
    (hr : (blockReceipts client hashes)[i]? = some (some receipt)) :
    ReceiptTells ledger hash receipt := by
  unfold blockReceipts at hr
  split at hr
  · rw [List.getElem?_map, hi, Option.map_some, Option.some_inj, singleReceipt_eq_some] at hr
    exact ht.receipt hr
  · rename_i receipts hbatch
    split at hr
    · rcases completeReceipts_eq_some hi hr with hr | hr
      · exact (ht.receipts hbatch).2 i hash receipt hi hr
      · exact ht.receipt hr
    · exact (ht.receipts hbatch).2 i hash receipt hi hr

theorem blockReceipts_length (ht : client.Truthful ledger) (hashes : List String) :
    (blockReceipts client hashes).length ≤ hashes.length := by
  unfold blockReceipts
  split
  · simp
  · rename_i receipts hbatch
    split
    · rw [completeReceipts, List.length_zipWith]
      exact Nat.min_le_right _ _
    · exact (ht.receipts hbatch).1

theorem blockTxHashes_eq {b : Int} {block : Block} (h : BlockTells ledger b block) :
    blockTxHashes block = (ledger.mined b).map fun m => m.tx.hash := by
  unfold blockTxHashes
  rw [h, List.filterMap_map, ← List.filterMap_eq_map]
  apply List.filterMap_congr
  intro m hm
  exact if_neg (ledger.hash_ne_blank hm)

theorem mem_scanBlockReceipts (ht : client.Truthful ledger) {b : Int} {logs : List Log}
    (h : scanBlockReceiptsForTopics client b topics = .ok logs) {l : Log} :
    l ∈ logs ↔ ∃ m ∈ ledger.mined b, ReceiptAnswered client b m.tx.hash ∧ l ∈ m.logs ∧
      logMatchesTopics topics l = true := by
  unfold scanBlockReceiptsForTopics at h
  split at h
  · cases h
  · rename_i hblock
    cases h
    constructor
    · intro hl
      cases hl
    · rintro ⟨m, -, ⟨block, hsome, -⟩, -⟩
      rw [hblock] at hsome
      cases hsome
  · rename_i block hblock
    have hhas := blockTxHashes_eq (ht.block hblock)
    have hlogs : logs = filteredLogs topics (blockReceipts client (blockTxHashes block)) := by
      split at h
      · rename_i hnil
        have hempty : blockReceipts client (blockTxHashes block) = [] := by
          rw [← List.length_eq_zero_iff]
          have hle := blockReceipts_length ht (blockTxHashes block)
          rw [hnil, List.length_nil] at hle
          rw [hnil]
          omega
        rw [hempty]
        exact (Except.ok.inj h).symm
      · exact (Except.ok.inj h).symm
    rw [hlogs, mem_filteredLogs]
    constructor
    · rintro ⟨receipt, hmem, hl, hpass⟩
      obtain ⟨i, hi⟩ := List.mem_iff_getElem?.mp hmem
      obtain ⟨hlt, -⟩ := List.getElem?_eq_some_iff.mp hi
      have hin : i < (blockTxHashes block).length :=
        lt_of_lt_of_le hlt (blockReceipts_length ht _)
      rw [hhas, List.length_map] at hin
      have hm : (blockTxHashes block)[i]? = some ((ledger.mined b)[i].tx.hash) := by
        rw [hhas, List.getElem?_map, List.getElem?_eq_getElem hin]
        rfl
      have hmined := List.getElem_mem hin
      rw [blockReceipts_tells ht hm hi b _ hmined rfl] at hl
      exact ⟨_, hmined, ⟨block, hblock, i, hm, (blockReceipts_known hm).mpr ⟨receipt, hi⟩⟩, hl, hpass⟩
    · rintro ⟨m, hm, ⟨block', hblock', i, hi, hknown⟩, hl, hpass⟩
      rw [hblock] at hblock'
      cases hblock'
      obtain ⟨receipt, hr⟩ := (blockReceipts_known hi).mp hknown
      refine ⟨receipt, List.mem_of_getElem? hr, ?_, hpass⟩
      rw [blockReceipts_tells ht hi hr b m hm rfl]
      exact hl

end Receipts

end Base
end MultichainIndexer
