import MultichainIndexer.Chain.BaseLogs

/-!
# Which logs the query returns

Said for each block of the range: the logs that the filter asks for where
`eth_getLogs` answered, and in a block read from receipts those that the receipt
scan finds. From that, when the query returns exactly the matching logs.
-/

namespace MultichainIndexer

open Text

namespace Base

/-- The block is read from its receipts: the node answered its own query with an error, and each
query of the halvings that lead to it with a range limit. -/
inductive ReceiptScanned (client : Client) (topics : List Topic) : Int → Int → Int → Prop
  | block {b : Int} {err : String} (herr : client.getLogs b b topics = .error err) :
      ReceiptScanned client topics b b b
  | left {lo hi b : Int} {err : String} (hlt : lo < hi)
      (herr : client.getLogs lo hi topics = .error err)
      (hlimit : isLikelyLogRangeLimitError err = true)
      (hleft : ReceiptScanned client topics lo (middle lo hi) b) :
      ReceiptScanned client topics lo hi b
  | right {lo hi b : Int} {err : String} (hlt : lo < hi)
      (herr : client.getLogs lo hi topics = .error err)
      (hlimit : isLikelyLogRangeLimitError err = true)
      (hright : ReceiptScanned client topics (middle lo hi + 1) hi b) :
      ReceiptScanned client topics lo hi b

def Returned (client : Client) (topics : List Topic) (lo hi b : Int) (hash : String) (l : Log) :
    Prop :=
  ReceiptScanned client topics lo hi b ∧ ReceiptAnswered client b hash ∧
      logMatchesTopics topics l = true ∨
    ¬ ReceiptScanned client topics lo hi b ∧ matchesFilter topics l = true

section Query
variable {ledger : Ledger} {client : Client} {topics : List Topic} {lo hi b : Int}

theorem ReceiptScanned.bounds (h : ReceiptScanned client topics lo hi b) : lo ≤ b ∧ b ≤ hi := by
  induction h with
  | block herr => omega
  | left hlt herr hlimit hleft ih =>
    have hmid := middle_bounds hlt
    omega
  | right hlt herr hlimit hright ih =>
    have hmid := middle_bounds hlt
    omega

theorem not_receiptScanned_of_ok {logs : List Log} (h : client.getLogs lo hi topics = .ok logs) :
    ¬ ReceiptScanned client topics lo hi b := by
  intro hscan
  cases hscan with
  | block herr => cases h.symm.trans herr
  | left _ herr => cases h.symm.trans herr
  | right _ herr => cases h.symm.trans herr

theorem receiptScanned_halves {err : String} (hlt : lo < hi)
    (herr : client.getLogs lo hi topics = .error err)
    (hlimit : isLikelyLogRangeLimitError err = true) :
    ReceiptScanned client topics lo hi b ↔
      ReceiptScanned client topics lo (middle lo hi) b ∨
        ReceiptScanned client topics (middle lo hi + 1) hi b := by
  constructor
  · intro h
    cases h with
    | block => omega
    | left _ _ _ hleft => exact Or.inl hleft
    | right _ _ _ hright => exact Or.inr hright
  · rintro (h | h)
    · exact .left hlt herr hlimit h
    · exact .right hlt herr hlimit h

theorem returned_halves {err : String} (hlt : lo < hi)
    (herr : client.getLogs lo hi topics = .error err)
    (hlimit : isLikelyLogRangeLimitError err = true) (hash : String) (l : Log) :
    Returned client topics lo hi b hash l ↔
      if b ≤ middle lo hi then Returned client topics lo (middle lo hi) b hash l
      else Returned client topics (middle lo hi + 1) hi b hash l := by
  unfold Returned
  rw [receiptScanned_halves hlt herr hlimit]
  split_ifs with hb
  · rw [or_iff_left fun h : ReceiptScanned client topics (middle lo hi + 1) hi b => by
      have := h.bounds
      omega]
  · rw [or_iff_right fun h : ReceiptScanned client topics lo (middle lo hi) b => hb h.bounds.2]

theorem mem_fetchLogs (ht : client.Truthful ledger) {logs : List Log}
    (h : fetchLogsWithFallback client lo hi topics = .ok logs) (l : Log) :
    l ∈ logs ↔ ∃ b m, lo ≤ b ∧ b ≤ hi ∧ m ∈ ledger.mined b ∧ l ∈ m.logs ∧
      Returned client topics lo hi b m.tx.hash l := by
  -- the induction follows the halvings of the query
  fun_induction fetchLogsWithFallback client lo hi topics generalizing logs with
  | case1 lo hi hgt =>
    cases h
    constructor
    · intro hl
      cases hl
    · rintro ⟨b, m, hlo, hhi, -⟩
      omega
  | case2 lo hi hle answer hok =>
    cases h
    rw [ht.logs hok l]
    have hscan : ∀ b, ¬ ReceiptScanned client topics lo hi b := fun b => not_receiptScanned_of_ok hok
    constructor
    · rintro ⟨⟨b, m, hlo, hhi, hm, hl⟩, hmatch⟩
      exact ⟨b, m, hlo, hhi, hm, hl, Or.inr ⟨hscan b, hmatch⟩⟩
    · rintro ⟨b, m, hlo, hhi, hm, hl, ⟨hs, -⟩ | ⟨-, hmatch⟩⟩
      · exact absurd hs (hscan b)
      · exact ⟨⟨b, m, hlo, hhi, hm, hl⟩, hmatch⟩
  | case3 lo hi hle err herr hlimit ihleft ihright =>
    obtain ⟨left, hleft, h⟩ := Result.bind_ok h
    obtain ⟨right, hright, h⟩ := Result.bind_ok h
    cases h
    have hmid := middle_bounds hlimit.1
    rw [List.mem_append, ihleft hleft, ihright hright]
    constructor
    · rintro (⟨b, m, hlo, hhi, hm, hl, hret⟩ | ⟨b, m, hlo, hhi, hm, hl, hret⟩)
      · refine ⟨b, m, hlo, by omega, hm, hl, ?_⟩
        rwa [returned_halves hlimit.1 herr hlimit.2, if_pos hhi]
      · refine ⟨b, m, by omega, hhi, hm, hl, ?_⟩
        rwa [returned_halves hlimit.1 herr hlimit.2, if_neg (by omega)]
    · rintro ⟨b, m, hlo, hhi, hm, hl, hret⟩
      rw [returned_halves hlimit.1 herr hlimit.2] at hret
      split_ifs at hret with hb
      · exact Or.inl ⟨b, m, hlo, hb, hm, hl, hret⟩
      · exact Or.inr ⟨b, m, by omega, hhi, hm, hl, hret⟩
  | case4 lo err receiptLogs hle herr hlimit hscan =>
    cases h
    rw [mem_scanBlockReceipts ht hscan]
    constructor
    · rintro ⟨m, hm, hans, hl, hpass⟩
      exact ⟨lo, m, Int.le_refl lo, Int.le_refl lo, hm, hl, Or.inl ⟨.block herr, hans, hpass⟩⟩
    · rintro ⟨b, m, hlo, hhi, hm, hl, hret⟩
      obtain rfl : b = lo := Int.le_antisymm hhi hlo
      rcases hret with ⟨-, hans, hpass⟩ | ⟨hno, -⟩
      · exact ⟨m, hm, hans, hl, hpass⟩
      · exact absurd (.block herr) hno
  | case5 => cases h
  | case6 => cases h

/-- What a block read from its receipts must satisfy: a matching log has a known receipt, and no
log with a known receipt owes its place to a list position that the receipt scan passes over. -/
structure ScanExact (ledger : Ledger) (client : Client) (topics : List Topic) (b : Int) : Prop where
  known : ∀ m ∈ ledger.mined b, ∀ l ∈ m.logs, matchesFilter topics l = true →
    ReceiptAnswered client b m.tx.hash
  listed : ∀ m ∈ ledger.mined b, ReceiptAnswered client b m.tx.hash → ∀ l ∈ m.logs,
    logMatchesTopics topics l = true → listsMatch topics l = true

/-- A query that does not fail returns exactly the matching logs of its range if and only if the
blocks that it read from receipts had what their matching logs need, and nothing that only the
list positions of the filter refuse. -/
theorem fetchLogsWithFallback_exact_iff (ht : client.Truthful ledger) {logs : List Log}
    (h : fetchLogsWithFallback client lo hi topics = .ok logs) :
    ExactLogs ledger lo hi topics logs ↔
      ∀ b, ReceiptScanned client topics lo hi b → ScanExact ledger client topics b := by
  constructor
  · intro hexact b hscan
    have hb := hscan.bounds
    refine ⟨?_, ?_⟩
    · intro m hm l hl hmatch
      have hmem := (hexact l).mpr ⟨⟨b, m, hb.1, hb.2, hm, hl⟩, hmatch⟩
      obtain ⟨b', m', -, -, hm', hl', hret⟩ := (mem_fetchLogs ht h l).mp hmem
      obtain ⟨rfl, rfl⟩ := ledger.log_home hm hm' hl hl'
      rcases hret with ⟨-, hans, -⟩ | ⟨hno, -⟩
      · exact hans
      · exact absurd hscan hno
    · intro m hm hans l hl hpass
      have hmem := (mem_fetchLogs ht h l).mpr
        ⟨b, m, hb.1, hb.2, hm, hl, Or.inl ⟨hscan, hans, hpass⟩⟩
      have hmatch := ((hexact l).mp hmem).2
      rw [matchesFilter_eq, Bool.and_eq_true] at hmatch
      exact hmatch.2
  · intro hblo l
    rw [mem_fetchLogs ht h l]
    constructor
    · rintro ⟨b, m, hlo, hhi, hm, hl, hret⟩
      refine ⟨⟨b, m, hlo, hhi, hm, hl⟩, ?_⟩
      rcases hret with ⟨hscan, hans, hpass⟩ | ⟨-, hmatch⟩
      · rw [matchesFilter_eq, hpass, (hblo b hscan).listed m hm hans l hl hpass]
        rfl
      · exact hmatch
    · rintro ⟨⟨b, m, hlo, hhi, hm, hl⟩, hmatch⟩
      refine ⟨b, m, hlo, hhi, hm, hl, ?_⟩
      by_cases hscan : ReceiptScanned client topics lo hi b
      · have hpass := hmatch
        rw [matchesFilter_eq, Bool.and_eq_true] at hpass
        exact Or.inl ⟨hscan, (hblo b hscan).known m hm l hl hmatch, hpass.1⟩
      · exact Or.inr ⟨hscan, hmatch⟩

end Query

section Sample

def sampleLog (hash topic : String) : Log :=
  { address := "0xc0", topics := ["0xddf2", topic], data := "0x01", blockNumber := "0x5",
    transactionHash := hash, transactionIndex := "0x0", logIndex := "0x0", removed := false }

def sampleMined (hash topic : String) : Mined :=
  { tx := { hash := hash, transactionIndex := "0x0", fromAddress := "0x1", toAddress := "0xc0" },
    logs := [sampleLog hash topic] }

def sampleBlocks (b : Int) : List Mined :=
  if b = 5 then [sampleMined "0xaa" "0x11", sampleMined "0xbb" "0x22"] else []

theorem mem_sampleBlocks {b : Int} {m : Mined} (h : m ∈ sampleBlocks b) :
    b = 5 ∧ (m = sampleMined "0xaa" "0x11" ∨ m = sampleMined "0xbb" "0x22") := by
  unfold sampleBlocks at h
  split at h
  · simp only [List.mem_cons, List.not_mem_nil, or_false] at h
    exact ⟨by assumption, h⟩
  · cases h

def sampleLedger : Ledger where
  mined := sampleBlocks
  hash_ne_blank hm := by
    rcases (mem_sampleBlocks hm).2 with rfl | rfl <;> decide
  hash_inj hm hm' := by
    obtain ⟨rfl, hcases⟩ := mem_sampleBlocks hm
    obtain ⟨rfl, hcases'⟩ := mem_sampleBlocks hm'
    intro hhash
    refine ⟨rfl, ?_⟩
    rcases hcases with rfl | rfl <;> rcases hcases' with rfl | rfl
    · rfl
    · exact absurd hhash (by decide)
    · exact absurd hhash (by decide)
    · rfl
  log_hash hm hl := by
    rcases (mem_sampleBlocks hm).2 with rfl | rfl <;> cases List.mem_singleton.mp hl <;> rfl
  log_block hm hl := by
    obtain ⟨rfl, rfl | rfl⟩ := mem_sampleBlocks hm <;> cases List.mem_singleton.mp hl <;>
      decide +kernel

def sampleBlock : Block :=
  { timestamp := "0x1", transactions := (sampleBlocks 5).map fun m => some m.tx }

def sampleReceipt (m : Mined) : TransactionReceipt :=
  { transactionHash := m.tx.hash, blockNumber := "0x5", transactionIndex := "0x0",
    logs := m.logs.map some }

def sampleClient (known : List Mined) : Client where
  getBlockByNumber b := .ok (if b = 5 then some sampleBlock else none)
  getBlocksByNumber _ := .error "timeout"
  getTransactionReceipt hash :=
    match known.find? fun m => m.tx.hash = hash with
    | some m => .ok (some (sampleReceipt m))
    | none => .error "timeout"
  getTransactionReceiptsByHash _ := .error "timeout"
  getLogs _ _ _ := .error "query returned more than 10000 results"
  traceBlockByNumber _ := .error "timeout"

theorem sampleReceipt_tells {b : Int} {m : Mined} (hm : m ∈ sampleBlocks b) :
    ReceiptTells sampleLedger m.tx.hash (sampleReceipt m) := by
  intro b' m' hm' hhash
  rw [(sampleLedger.hash_inj hm' hm hhash).2]
  rcases (mem_sampleBlocks hm).2 with rfl | rfl <;> decide +kernel

theorem sampleClient_truthful {known : List Mined} (h : ∀ m ∈ known, m ∈ sampleBlocks 5) :
    (sampleClient known).Truthful sampleLedger where
  block {b block} hb := by
    have hsome := Except.ok.inj hb
    split at hsome
    · rename_i hfive
      subst hfive
      cases hsome
      rfl
    · cases hsome
  blocks hb := nomatch hb
  receipt {hash receipt} hr := by
    unfold sampleClient at hr
    simp only at hr
    split at hr
    · rename_i m hfind
      cases hr
      have hhash := List.find?_some hfind
      rw [decide_eq_true_eq] at hhash
      subst hhash
      exact sampleReceipt_tells (h m (List.mem_of_find?_eq_some hfind))
    · cases hr
  receipts hr := nomatch hr
  logs hl := nomatch hl

theorem fetchLogs_sample (known : List Mined) (topics : List Topic) :
    fetchLogsWithFallback (sampleClient known) 5 5 topics =
      .ok (filteredLogs topics (["0xaa", "0xbb"].map (singleReceipt (sampleClient known)))) := by
  rw [fetchLogsWithFallback]
  rfl

/-- A list position lets any log through, and a receipt that was not fetched takes its log with
it: for a filter that asks for the second log, the query returns the first. -/
theorem fetchLogs_list_misread :
    (sampleClient [sampleMined "0xaa" "0x11"]).Truthful sampleLedger ∧
      fetchLogsWithFallback (sampleClient [sampleMined "0xaa" "0x11"]) 5 5
        [.null, .anyOf ["0x22"]] = .ok [sampleLog "0xaa" "0x11"] ∧
      matchesFilter [.null, .anyOf ["0x22"]] (sampleLog "0xaa" "0x11") = false ∧
      matchesFilter [.null, .anyOf ["0x22"]] (sampleLog "0xbb" "0x22") = true ∧
      ¬ ExactLogs sampleLedger 5 5 [.null, .anyOf ["0x22"]] [sampleLog "0xaa" "0x11"] := by
  have hstray : matchesFilter [.null, .anyOf ["0x22"]] (sampleLog "0xaa" "0x11") = false := by
    decide
  refine ⟨sampleClient_truthful ?_, ?_, hstray, by decide, ?_⟩
  · intro m hm
    rw [List.mem_singleton.mp hm]
    exact List.mem_cons_self
  · rw [fetchLogs_sample]
    congr 1
  · intro hexact
    have hmatch := ((hexact _).mp List.mem_cons_self).2
    rw [hstray] at hmatch
    cases hmatch

/-- With one topic at the position and both receipts at hand the fallback is exact. -/
theorem fetchLogs_exact_oneTopic :
    fetchLogsWithFallback (sampleClient (sampleBlocks 5)) 5 5 [.null, .one "0x22"] =
        .ok [sampleLog "0xbb" "0x22"] ∧
      ExactLogs sampleLedger 5 5 [.null, .one "0x22"] [sampleLog "0xbb" "0x22"] := by
  have hquery : fetchLogsWithFallback (sampleClient (sampleBlocks 5)) 5 5 [.null, .one "0x22"] =
      .ok [sampleLog "0xbb" "0x22"] := by
    rw [fetchLogs_sample]
    congr 1
  refine ⟨hquery, (fetchLogsWithFallback_exact_iff
    (sampleClient_truthful fun _ hm => hm) hquery).mpr ?_⟩
  intro b hscan
  obtain rfl : b = 5 := by
    have hb := hscan.bounds
    omega
  refine ⟨?_, ?_⟩
  · intro m hm l hl hmatch
    refine ⟨sampleBlock, rfl, ?_⟩
    have hcases : m ∈ sampleBlocks 5 := hm
    rcases (mem_sampleBlocks hcases).2 with rfl | rfl
    · exact ⟨0, rfl, _, rfl⟩
    · exact ⟨1, rfl, _, rfl⟩
  · intro m hm hans l hl hpass
    rfl

end Sample

end Base
end MultichainIndexer
