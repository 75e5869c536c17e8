import MultichainIndexer.Chain.BaseScan
import Mathlib.Data.Int.ConditionallyCompleteOrder
import Mathlib.Data.Prod.Lex
import Mathlib.Data.String.Basic
import Mathlib.Order.ConditionallyCompleteLattice.Basic

/-!
# The order of the sightings

A block scan of the EVM adapter sees a transaction several times: in its block, in
its logs, in a trace. A sighting has a place, the block and the index there, with
an unknown index after all known ones. The candidate of a hash stays at the least
place where it was seen, and the scan returns the candidates by place and hash, so
the order of the sightings is nothing to it.
-/

namespace MultichainIndexer

open Text Accumulate IntRange

namespace Base

abbrev Place := ℤ ×ₗ WithTop ℤ

def indexKey (txIndex : Int) : WithTop ℤ := if txIndex < 0 then ⊤ else (txIndex : WithTop ℤ)

def Candidate.place (c : Candidate) : Place := toLex (c.blockNum, indexKey c.txIndex)

def mergeSightings (sightings : List (String × Candidate)) : ScanState :=
  sightings.foldl (fun s x => s.upsertCandidate x.1 x.2) {}

def hashAndSequence (sigs : List SignatureInfo) : List (String × Int) :=
  sigs.map fun sig => (sig.hash, sig.sequence)

section Places

theorem compareTxIndex_neg_iff (a b : Int) : compareTxIndex a b < 0 ↔ indexKey a < indexKey b := by
  unfold compareTxIndex indexKey
  split_ifs <;> simp <;> omega

theorem compareTxIndex_eq_zero_iff (a b : Int) :
    compareTxIndex a b = 0 ↔ indexKey a = indexKey b := by
  unfold compareTxIndex indexKey
  split_ifs <;> simp <;> omega

theorem compareTxIndex_pos_iff (a b : Int) : compareTxIndex a b > 0 ↔ indexKey b < indexKey a := by
  unfold compareTxIndex indexKey
  split_ifs <;> simp <;> omega

theorem place_earlier (existing new : Candidate) :
    (existing.earlier new).place = min existing.place new.place := by
  have hlt : (existing.blockNum > new.blockNum ∨ existing.blockNum = new.blockNum ∧
      compareTxIndex existing.txIndex new.txIndex > 0) ↔ new.place < existing.place := by
    rw [compareTxIndex_pos_iff, Candidate.place, Candidate.place, Prod.Lex.toLex_lt_toLex]
    simp only [eq_comm, gt_iff_lt]
  unfold Candidate.earlier
  by_cases h : new.place < existing.place
  · rw [if_pos (hlt.mpr h), min_eq_right h.le]
    rfl
  · rw [if_neg (mt hlt.mp h), min_eq_left (not_lt.mp h)]
    rfl

def sortKey (entry : String × Candidate) : Place ×ₗ String := toLex (entry.2.place, entry.1)

theorem candidateBefore_iff (a b : String × Candidate) :
    candidateBefore a b ↔ sortKey a ≤ sortKey b := by
  rw [candidateBefore, compareTxIndex_neg_iff, compareTxIndex_eq_zero_iff, sortKey, sortKey,
    Prod.Lex.toLex_le_toLex, Candidate.place, Candidate.place, Prod.Lex.toLex_lt_toLex,
    toLex_inj, Prod.mk.injEq]
  tauto

end Places

section Merge
variable {sightings : List (String × Candidate)}

def seenOf (sightings : List (String × Candidate)) (hash : String) : List Candidate :=
  (sightings.filter fun x => trimSpace x.1 ≠ "" ∧ x.1 = hash).map Prod.snd

variable {hash : String}

theorem mem_seenOf {c : Candidate} :
    c ∈ seenOf sightings hash ↔ trimSpace hash ≠ "" ∧ (hash, c) ∈ sightings := by
  simp only [seenOf, List.mem_map, List.mem_filter, decide_eq_true_eq, Prod.exists,
    exists_eq_right]
  constructor
  · rintro ⟨_, hmem, hblank, rfl⟩
    exact ⟨hblank, hmem⟩
  · rintro ⟨hblank, hmem⟩
    exact ⟨hash, hmem, hblank, rfl⟩

theorem lookup_merge (hash : String) : (mergeSightings sightings).candidates.lookup hash =
    (seenOf sightings hash).foldl (gather Candidate.earlier) none := by
  induction sightings using List.reverseRecOn with
  | nil => rfl
  | append_singleton sightings x ih =>
    have hmerge : mergeSightings (sightings ++ [x]) =
        (mergeSightings sightings).upsertCandidate x.1 x.2 := List.foldl_append
    rw [hmerge, seenOf, List.filter_append, List.map_append, List.foldl_append,
      ← seenOf, ← ih, ScanState.upsertCandidate]
    by_cases hblank : trimSpace x.1 = ""
    · simp [hblank]
    · rw [if_neg hblank]
      rw [lookup_bump]
      by_cases hhash : x.1 = hash
      · subst hhash
        simp [hblank, gather]
      · simp [hhash, Ne.symm hhash]

theorem nodup_merge : ((mergeSightings sightings).candidates.map Prod.fst).Nodup := by
  induction sightings using List.reverseRecOn with
  | nil => exact List.nodup_nil
  | append_singleton sightings x ih =>
    rw [mergeSightings, List.foldl_concat, ← mergeSightings,
      ScanState.upsertCandidate]
    split
    · exact ih
    · exact nodup_keys_bump ih

def mergedKeys (sightings : List (String × Candidate)) : List (Place ×ₗ String) :=
  ((mergeSightings sightings).candidates.map sortKey).insertionSort (· ≤ ·)

theorem mem_mergedKeys {place : Place} :
    toLex (place, hash) ∈ mergedKeys sightings ↔
      ((mergeSightings sightings).candidates.lookup hash).map Candidate.place = some place := by
  rw [mergedKeys, List.mem_insertionSort, List.mem_map, Option.map_eq_some_iff]
  simp only [lookup_eq_some_iff nodup_merge]
  constructor
  · rintro ⟨⟨hash', c⟩, hmem, heq⟩
    obtain ⟨rfl, rfl⟩ := Prod.mk.inj (toLex_inj.mp heq)
    exact ⟨c, hmem, rfl⟩
  · rintro ⟨c, hmem, rfl⟩
    exact ⟨(hash, c), hmem, rfl⟩

theorem pairwise_mergedKeys : (mergedKeys sightings).Pairwise (· ≤ ·) :=
  List.pairwise_insertionSort (· ≤ ·) _

theorem nodup_mergedKeys : ((mergedKeys sightings).map fun k => (ofLex k).2).Nodup := by
  have hperm := ((mergeSightings sightings).candidates.map sortKey).perm_insertionSort (· ≤ ·)
  rw [mergedKeys, (hperm.map _).nodup_iff, List.map_map]
  exact nodup_merge

theorem hashAndSequence_merge : hashAndSequence (mergeSightings sightings).signatures =
    (mergedKeys sightings).map fun k => ((ofLex k).2, (ofLex (ofLex k).1).1) := by
  have hsort := List.map_insertionSort candidateBefore (· ≤ ·) sortKey
    (mergeSightings sightings).candidates fun a _ b _ => candidateBefore_iff a b
  rw [mergedKeys, ← hsort, hashAndSequence, ScanState.signatures, List.map_map, List.map_map]
  rfl

theorem mergedKeys_hash (hash : String) :
    (∃ place, toLex (place, hash) ∈ mergedKeys sightings) ↔
      trimSpace hash ≠ "" ∧ ∃ c, (hash, c) ∈ sightings := by
  simp only [mem_mergedKeys, lookup_merge, ← exists_and_left, ← mem_seenOf]
  rw [← Option.isSome_iff_exists, Option.isSome_map, Option.isSome_iff_ne_none, Ne,
    gather_eq_none, List.eq_nil_iff_forall_not_mem, not_forall_not]

def placesOf (sightings : List (String × Candidate)) (hash : String) : Set Place :=
  {p | ∃ c, (hash, c) ∈ sightings ∧ c.place = p}

theorem isLeast_mergedKeys {place : Place} (h : toLex (place, hash) ∈ mergedKeys sightings) :
    IsLeast (placesOf sightings hash) place := by
  have hblank := ((mergedKeys_hash hash).mp ⟨place, h⟩).1
  rw [mem_mergedKeys, lookup_merge, Option.map_eq_some_iff] at h
  obtain ⟨c, hc, rfl⟩ := h
  have hleast := isLeast_gather place_earlier hc
  simpa only [placesOf, mem_seenOf, and_iff_right hblank] using hleast

theorem mem_mergedKeys_iff {place : Place} : toLex (place, hash) ∈ mergedKeys sightings ↔
    trimSpace hash ≠ "" ∧ IsLeast (placesOf sightings hash) place := by
  constructor
  · intro h
    exact ⟨((mergedKeys_hash hash).mp ⟨place, h⟩).1, isLeast_mergedKeys h⟩
  · rintro ⟨hblank, hleast⟩
    obtain ⟨c, hc, _⟩ := hleast.1
    obtain ⟨place', hmem⟩ := (mergedKeys_hash hash).mpr ⟨hblank, c, hc⟩
    rw [hleast.unique (isLeast_mergedKeys hmem)]
    exact hmem

/-- The same sightings in another order give the same places and hashes, in the one order there
is. -/
theorem mergedKeys_congr {sightings' : List (String × Candidate)}
    (h : ∀ x, x ∈ sightings ↔ x ∈ sightings') : mergedKeys sightings = mergedKeys sightings' := by
  have hperm : (mergedKeys sightings).Perm (mergedKeys sightings') := by
    rw [List.perm_ext_iff_of_nodup (List.Nodup.of_map _ nodup_mergedKeys)
      (List.Nodup.of_map _ nodup_mergedKeys)]
    intro k
    have hkey : k = toLex ((ofLex k).1, (ofLex k).2) := rfl
    rw [hkey, mem_mergedKeys_iff, mem_mergedKeys_iff]
    simp only [placesOf, h]
  exact hperm.eq_of_pairwise' pairwise_mergedKeys pairwise_mergedKeys

theorem lt_mergedKeys : (mergedKeys sightings).Pairwise (· < ·) := by
  have hnodup : (mergedKeys sightings).Nodup := List.Nodup.of_map _ nodup_mergedKeys
  apply (pairwise_mergedKeys.and hnodup).imp
  intro a b h
  exact lt_of_le_of_ne h.1 h.2

end Merge

section Scan
variable {addrs : List String}

def ScanState.merge (s : ScanState) (sightings : List (String × Candidate)) : ScanState :=
  sightings.foldl (fun s x => s.upsertCandidate x.1 x.2) s

theorem merge_append (s : ScanState) (l l' : List (String × Candidate)) :
    s.merge (l ++ l') = (s.merge l).merge l' := List.foldl_append

theorem merge_times (s : ScanState) (l : List (String × Candidate)) :
    (s.merge l).blockTimeByNum = s.blockTimeByNum := by
  induction l generalizing s with
  | nil => rfl
  | cons x l ih =>
    rw [ScanState.merge, List.foldl_cons, ← ScanState.merge, ih, ScanState.upsertCandidate]
    split
    · rfl
    · rfl

variable {s t : ScanState} {hi lo : Int}

theorem merge_candidates (h : s.candidates = t.candidates) (l : List (String × Candidate)) :
    (s.merge l).candidates = (t.merge l).candidates := by
  induction l generalizing s t with
  | nil => exact h
  | cons x l ih =>
    rw [ScanState.merge, ScanState.merge, List.foldl_cons, List.foldl_cons]
    apply ih
    unfold ScanState.upsertCandidate
    split
    · exact h
    · rw [h]

theorem signatures_of_candidates (h : s.candidates = t.candidates) :
    s.signatures = t.signatures := by
  rw [ScanState.signatures, ScanState.signatures, h]

def transactionSightings (addrs : List String) (blockNum : Int) (blockTime : Option Int) :
    Option Transaction → List (String × Candidate)
  | none => []
  | some tx =>
    if trimSpace tx.hash = "" then []
    else if !watchedParty addrs tx.fromAddress && !watchedParty addrs tx.toAddress then []
    else [(tx.hash,
      { blockNum := blockNum, txIndex := (parseHexInt64 tx.transactionIndex).getD (-1),
        blockTime := blockTime })]

def blockSightings (addrs : List String) : Int × Option Block → List (String × Candidate)
  | (_, none) => []
  | (blockNum, some block) =>
    block.transactions.flatMap (transactionSightings addrs blockNum (blockTimeOf block))

def logSightings (s : ScanState) (entry : Log) : List (String × Candidate) :=
  if trimSpace entry.transactionHash = "" then []
  else
    match parseHexInt64 entry.blockNumber with
    | none => []
    | some blockNum => [(entry.transactionHash,
      { blockNum := blockNum, txIndex := (parseHexInt64 entry.transactionIndex).getD (-1),
        blockTime := s.timeOf blockNum })]

def traceSighting (s : ScanState) (entry : String × Int) : String × Candidate :=
  (entry.1, { blockNum := entry.2, txIndex := -1, blockTime := s.timeOf entry.2 })

/-- What the node told a scan: blocks by number, logs, and traced transfers. -/
structure Gathered where
  blocks : List (Int × Option Block) := []
  logs : List Log := []
  traces : List (String × Int) := []

def gatherBlocks (client : Client) (batchStart endBlock : Int) :
    Option (List (Int × Option Block)) :=
  if batchStart ≤ endBlock then do
    let numbers := between batchStart (batchEnd batchStart endBlock)
    let blocks ← (client.getBlocksByNumber numbers).toOption
    let rest ← gatherBlocks client (batchStart + blockFetchBatchSize) endBlock
    return numbers.zip blocks ++ rest
  else some []
  termination_by (endBlock - batchStart + 1).toNat
  decreasing_by
    unfold blockFetchBatchSize
    omega

def logsAt (client : Stage → Client) (startBlock endBlock : Int) (topics : List String)
    (position : Nat) : Option (List Log) :=
  (fetchLogsWithFallback (client (.logs position)) startBlock endBlock
    (topicFilter topics position)).toOption

def gatherLogs (client : Stage → Client) (startBlock endBlock : Int) (topics : List String) :
    Option (List Log) :=
  if topics = [] then some []
  else ([0, 1, 2].mapM (logsAt client startBlock endBlock topics)).map List.flatten

def gatherTraces (traceEnabled : Bool) (client : Client) (startBlock endBlock : Int)
    (addrs : List String) : List (String × Int) :=
  if traceEnabled = true then
    (scanInternalTransfers client startBlock endBlock addrs).toOption.getD []
  else []

def gatherAnswers (traceEnabled : Bool) (client : Stage → Client) (startBlock endBlock : Int)
    (watchedAddresses : List String) : Option Gathered :=
  if startBlock > endBlock ∨ watchedAddresses = [] then some {}
  else do
    let blocks ← gatherBlocks (client .blocks) startBlock endBlock
    let logs ← gatherLogs client startBlock endBlock (addrTopics (addrSet watchedAddresses))
    let traces := gatherTraces traceEnabled (client .traces) startBlock endBlock
      (addrSet watchedAddresses)
    return { blocks := blocks, logs := logs, traces := traces }

/-- The state after the blocks, with the times that the later sightings take. -/
def Gathered.scanned (addrs : List String) (g : Gathered) : ScanState :=
  g.blocks.foldl (scanBlock addrs) {}

def Gathered.sightings (addrs : List String) (g : Gathered) : List (String × Candidate) :=
  g.blocks.flatMap (blockSightings addrs) ++
    (g.logs.flatMap (logSightings (g.scanned addrs)) ++
      g.traces.map (traceSighting (g.scanned addrs)))

theorem scanTransaction_eq (b : Int) (time : Option Int) (s : ScanState)
    (entry : Option Transaction) :
    scanTransaction addrs b time s entry = s.merge (transactionSightings addrs b time entry) := by
  cases entry with
  | none => rfl
  | some tx =>
    rw [scanTransaction, transactionSightings]
    split
    · rfl
    · split
      · rfl
      · rfl

theorem foldl_merge {ι : Type} {step : ScanState → ι → ScanState}
    {sighted : ι → List (String × Candidate)} {l : List ι}
    (h : ∀ t : ScanState, t.blockTimeByNum = s.blockTimeByNum → ∀ i ∈ l,
      step t i = t.merge (sighted i)) : l.foldl step s = s.merge (l.flatMap sighted) := by
  induction l using List.reverseRecOn with
  | nil => rfl
  | append_singleton l i ih =>
    have hprev := ih fun t ht j hj => h t ht j (List.mem_append_left _ hj)
    rw [List.foldl_concat, hprev, List.flatMap_append,
      merge_append, h _ (merge_times s _) i (List.mem_append_right _ (List.mem_singleton_self i)),
      List.flatMap_singleton]

theorem scanBlocks_candidates (blocks : List (Int × Option Block)) (s : ScanState) :
    (blocks.foldl (scanBlock addrs) s).candidates =
      (s.merge (blocks.flatMap (blockSightings addrs))).candidates := by
  induction blocks generalizing s with
  | nil => rfl
  | cons entry blocks ih =>
    rw [List.foldl_cons, ih, List.flatMap_cons, merge_append]
    apply merge_candidates
    obtain ⟨b, _ | block⟩ := entry
    · rfl
    · rw [scanBlock, foldl_merge fun t _ i _ => scanTransaction_eq b _ t i, blockSightings]
      apply merge_candidates
      rfl

theorem scanLog_eq (h : t.blockTimeByNum = s.blockTimeByNum) (entry : Log) :
    scanLog t entry = t.merge (logSightings s entry) := by
  unfold scanLog logSightings ScanState.timeOf
  rw [h]
  split
  · rfl
  · cases parseHexInt64 entry.blockNumber with
    | none => rfl
    | some blockNum => rfl

theorem upsertTrace_eq (h : t.blockTimeByNum = s.blockTimeByNum) (entry : String × Int) :
    upsertTrace t entry = t.merge [traceSighting s entry] := by
  unfold upsertTrace traceSighting ScanState.timeOf
  rw [h]
  rfl

theorem scanBatches_gathers (client : Client) (lo hi : Int) (s : ScanState) :
    (scanBatches client addrs lo hi s).toOption =
      (gatherBlocks client lo hi).map fun blocks => blocks.foldl (scanBlock addrs) s := by
  fun_induction scanBatches client addrs lo hi s with
  | case1 lo s hle ih =>
    rw [gatherBlocks, if_pos hle, Result.toOption_bind, scanBatch]
    dsimp only
    cases client.getBlocksByNumber (between lo (batchEnd lo hi)) with
    | error err => rfl
    | ok blocks =>
      refine (ih _).trans ?_
      cases gatherBlocks client (lo + blockFetchBatchSize) hi with
      | none => rfl
      | some rest => exact congrArg some List.foldl_append.symm
  | case2 lo s hgt =>
    rw [gatherBlocks, if_neg hgt]
    rfl

theorem scanTopics_gathers (client : Stage → Client) (topics : List String) (s : ScanState) :
    (scanTopics client lo hi topics s).toOption =
      (gatherLogs client lo hi topics).map fun logs => logs.foldl scanLog s := by
  unfold scanTopics gatherLogs
  split
  · rfl
  · generalize [0, 1, 2] = positions
    induction positions generalizing s with
    | nil => rfl
    | cons position positions ih =>
      rw [List.foldlM_cons, Result.toOption_bind, List.mapM_cons, scanLogs, logsAt]
      cases fetchLogsWithFallback (client (.logs position)) lo hi (topicFilter topics position) with
      | error err => rfl
      | ok logs =>
        refine (ih _).trans ?_
        cases positions.mapM (logsAt client lo hi topics) with
        | none => rfl
        | some rest => exact congrArg some List.foldl_append.symm

theorem scanTraces_gathers (traceEnabled : Bool) (client : Client) (s : ScanState) :
    scanTraces traceEnabled client lo hi addrs s =
      (gatherTraces traceEnabled client lo hi addrs).foldl upsertTrace s := by
  unfold scanTraces gatherTraces
  split
  · cases scanInternalTransfers client lo hi addrs with
    | error err => rfl
    | ok found => rfl
  · rfl

theorem Gathered.merged (g : Gathered) :
    (g.traces.foldl upsertTrace (g.logs.foldl scanLog (g.scanned addrs))).signatures =
      (mergeSightings (g.sightings addrs)).signatures := by
  apply signatures_of_candidates
  rw [foldl_merge fun t ht i _ => scanLog_eq ht i,
    foldl_merge fun t ht i _ => upsertTrace_eq (ht.trans (merge_times _ _)) i, ← merge_append,
    scanned, merge_candidates (scanBlocks_candidates g.blocks {}), ← merge_append, sightings,
    List.map_eq_flatMap]
  rfl

/-- A scan is the merge of the sightings in what the node told it. -/
theorem scanBlocks_gathers (traceEnabled : Bool) (client : Stage → Client) (lo hi : Int)
    (watched : List String) :
    (scanBlocks traceEnabled client lo hi watched).toOption =
      (gatherAnswers traceEnabled client lo hi watched).map fun g =>
        (mergeSightings (g.sightings (addrSet watched))).signatures := by
  unfold scanBlocks gatherAnswers
  split
  · rfl
  · rw [Result.toOption_bind, scanBatches_gathers]
    cases gatherBlocks (client .blocks) lo hi with
    | none => rfl
    | some blocks =>
      dsimp only [Option.map_some, Option.bind_some, Option.bind_eq_bind]
      rw [Result.toOption_bind, scanTopics_gathers]
      cases gatherLogs client lo hi (addrTopics (addrSet watched)) with
      | none => rfl
      | some logs =>
        dsimp only [Option.map_some, Option.bind_some]
        rw [scanTraces_gathers]
        exact congrArg some (Gathered.merged ⟨blocks, logs, _⟩)

theorem exists_gathered {traceEnabled : Bool} {client : Stage → Client} {watched : List String}
    {sigs : List SignatureInfo} (h : scanBlocks traceEnabled client lo hi watched = .ok sigs) :
    ∃ g, gatherAnswers traceEnabled client lo hi watched = some g ∧
      hashAndSequence sigs = (mergedKeys (g.sightings (addrSet watched))).map fun k =>
        ((ofLex k).2, (ofLex (ofLex k).1).1) := by
  have hall := scanBlocks_gathers traceEnabled client lo hi watched
  rw [h] at hall
  obtain ⟨g, hg, hsigs⟩ := Option.map_eq_some_iff.mp hall.symm
  exact ⟨g, hg, by rw [← hsigs, hashAndSequence_merge]⟩

end Scan

/-- A scan returns one entry for each hash that its node's answers show, at the least of its places
and sorted by place and hash; the same sightings in another order, merged or told to another scan,
give the same list. -/
theorem scanBlocks_order_free (traceEnabled : Bool) (client : Stage → Client)
    (startBlock endBlock : Int) (watchedAddresses : List String) (sigs : List SignatureInfo)
    (h : scanBlocks traceEnabled client startBlock endBlock watchedAddresses = .ok sigs) :
    ∃ g, gatherAnswers traceEnabled client startBlock endBlock watchedAddresses = some g ∧
      (∃ found : List (Place ×ₗ String),
        hashAndSequence sigs = found.map (fun k => ((ofLex k).2, (ofLex (ofLex k).1).1)) ∧
        (found.map fun k => (ofLex k).2).Nodup ∧ found.Pairwise (· < ·) ∧
        (∀ hash, (∃ place, toLex (place, hash) ∈ found) ↔
          trimSpace hash ≠ "" ∧ ∃ c, (hash, c) ∈ g.sightings (addrSet watchedAddresses)) ∧
        ∀ place hash, toLex (place, hash) ∈ found →
          IsLeast (placesOf (g.sightings (addrSet watchedAddresses)) hash) place) ∧
      (∀ sightings', (∀ x, x ∈ g.sightings (addrSet watchedAddresses) ↔ x ∈ sightings') →
        hashAndSequence (mergeSightings sightings').signatures = hashAndSequence sigs) ∧
      ∀ traceEnabled' client' startBlock' endBlock' watchedAddresses' sigs' g',
        scanBlocks traceEnabled' client' startBlock' endBlock' watchedAddresses' = .ok sigs' →
        gatherAnswers traceEnabled' client' startBlock' endBlock' watchedAddresses' = some g' →
        (∀ x, x ∈ g.sightings (addrSet watchedAddresses) ↔
          x ∈ g'.sightings (addrSet watchedAddresses')) →
        hashAndSequence sigs' = hashAndSequence sigs := by
  obtain ⟨g, hg, hsigs⟩ := exists_gathered h
  refine ⟨g, hg, ⟨_, hsigs, nodup_mergedKeys, lt_mergedKeys, mergedKeys_hash,
    fun _ _ => isLeast_mergedKeys⟩, ?_, ?_⟩
  · intro sightings' hsame
    rw [hsigs, hashAndSequence_merge, mergedKeys_congr hsame]
  · intro _ _ _ _ _ sigs' g' h' hg' hsame
    obtain ⟨_, hg'', hsigs'⟩ := exists_gathered h'
    cases hg'.symm.trans hg''
    rw [hsigs, hsigs', mergedKeys_congr hsame]

section Sample

def watchedOne : String := "0x00000000000000000000000000000000000000aa"

/-- A node that shows transactions in a block, and again by logs without an index. -/
def tellingClient (seen : List (String × String)) : Client :=
  { sampleClient [] with
    getBlocksByNumber := fun bs => .ok (bs.map fun _ => some
      { timestamp := "0x1", transactions := seen.map fun x => some
          { hash := x.1, transactionIndex := x.2, fromAddress := watchedOne, toAddress := "" } })
    getLogs := fun _ _ _ => .ok (seen.map fun x => { sampleLog x.1 "" with transactionIndex := "" }) }

/-- Two transactions of block 5, each shown twice: a node that tells them in the other order leads
to the same list. -/
theorem scanBlocks_reversed :
    ∃ sigs sigs',
      scanBlocks false (fun _ => tellingClient [("0xbb", "0x1"), ("0xaa", "0x0")]) 5 5
        [watchedOne] = .ok sigs ∧
      scanBlocks false (fun _ => tellingClient [("0xaa", "0x0"), ("0xbb", "0x1")]) 5 5
        [watchedOne] = .ok sigs' ∧
      hashAndSequence sigs = [("0xaa", 5), ("0xbb", 5)] ∧
      hashAndSequence sigs' = hashAndSequence sigs := by
  obtain ⟨sigs, h, sigs', h', heval⟩ :
      ∃ sigs, scanBlocks false (fun _ => tellingClient [("0xbb", "0x1"), ("0xaa", "0x0")]) 5 5
        [watchedOne] = .ok sigs ∧
      ∃ sigs', scanBlocks false (fun _ => tellingClient [("0xaa", "0x0"), ("0xbb", "0x1")]) 5 5
        [watchedOne] = .ok sigs' ∧ hashAndSequence sigs = [("0xaa", 5), ("0xbb", 5)] := by
    decide +kernel
  obtain ⟨g, hg, g', hg', hperm⟩ :
      ∃ g, gatherAnswers false (fun _ => tellingClient [("0xbb", "0x1"), ("0xaa", "0x0")]) 5 5
        [watchedOne] = some g ∧
      ∃ g', gatherAnswers false (fun _ => tellingClient [("0xaa", "0x0"), ("0xbb", "0x1")]) 5 5
        [watchedOne] = some g' ∧
        (g.sightings (addrSet [watchedOne])).Perm (g'.sightings (addrSet [watchedOne])) := by
    decide +kernel
  obtain ⟨_, hg₀, _, _, hother⟩ := scanBlocks_order_free _ _ _ _ _ _ h
  cases hg.symm.trans hg₀
  exact ⟨sigs, sigs', h, h', heval, hother _ _ _ _ _ _ _ h' hg' fun _ => hperm.mem_iff⟩

end Sample

end Base
end MultichainIndexer
