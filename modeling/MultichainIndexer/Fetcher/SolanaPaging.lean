import MultichainIndexer.Lib.Run
import MultichainIndexer.Chain.SolanaSignatures
import MultichainIndexer.Fetcher.AddressBatch

/-!
# Runs of per-address jobs on Solana

Each job asks for what is newer than the cursor of the batch that was sent last.
The adapter returns the newest of that, so a job that finds more new signatures
than it asked for leaves out the oldest ones, and its cursor passes them. A
signature is also passed when the ones at the cursor's slot are displaced by later
ones, or when a batch ends within a slot: the order inside a slot is that of the
hashes, not that of the history. Without these three nothing is passed.
-/

namespace MultichainIndexer

open Retry Solana

namespace AddressJob

def newSignatures (job : FetchJob) (history : History) : List SignatureInfo :=
  (since job.canonicalCursor history.entries).filter
    (accepts job.fetchCutoffSeq)

/-- What a job selects, if it has found them all and displaces none. -/
def inTurn (job : FetchJob) (history : History) (requestedBatch : Int) : List SignatureInfo :=
  ((newSignatures job history).insertionSort SignatureInfo.before).take requestedBatch.toNat

/-- The answer that the calls for signatures come to is one of the adapter about a history. A cutoff
that is not positive is not passed on. -/
def OnHistory (settings : Settings) (env : Env) (job : FetchJob) (requestedBatch : Int)
    (history : History) : Prop :=
  ∀ size response, Succeeds settings (signatureCalls env job) response 1
      (signatureBatch settings job requestedBatch) size →
    ∃ client maxPageSize fuel, Truthful client history ∧
      fetchNewSignaturesWithCutoff client maxPageSize fuel
        job.canonicalCursor size (max job.fetchCutoffSeq 0) =
        some (.ok response)

/-- The three ways of passing a signature are excluded. -/
structure Catches (settings : Settings) (env : Env) (job : FetchJob) (requestedBatch : Int)
    (history : History) : Prop where
  /-- No more new signatures than the successful call asked for. -/
  asked : ∀ size response, Succeeds settings (signatureCalls env job) response 1
      (signatureBatch settings job requestedBatch) size →
    ((newSignatures job history).length : Int) ≤ size
  /-- Those at the cursor's slot are not displaced by later ones. -/
  room : 0 < job.cursorSequence →
    (∀ sig ∈ newSignatures job history, sig.sequence ≠ job.cursorSequence) ∨
    (∀ sig ∈ newSignatures job history, ¬ job.cursorSequence < sig.sequence) ∨
    ((newSignatures job history).length : Int) ≤ requestedBatch
  /-- What is left out of the last slot of the batch is newer than its last signature. -/
  cut : ∀ count rawTxs newest,
    Succeeds settings (transactionCalls env (inTurn job history requestedBatch))
      ((inTurn job history requestedBatch).take count.toNat, rawTxs) 1
      (inTurn job history requestedBatch).length count →
    ((inTurn job history requestedBatch).take count.toNat).getLast? = some newest →
    ∀ sig ∈ newSignatures job history, sig.sequence = newest.sequence →
      sig ∉ (inTurn job history requestedBatch).take count.toNat →
      sig ∈ newerThan newest.hash history.entries

section Select
variable {job : FetchJob} {history : History} {requestedBatch : Int}

theorem canonicalSignatureIdentity_solana {hash : String} (h : Text.trimSpace hash = hash) :
    canonicalSignatureIdentity .solana hash = hash := by
  unfold canonicalSignatureIdentity
  simp only [h]
  by_cases hempty : hash = ""
  · rw [if_pos hempty, hempty]
  · rw [if_neg hempty, if_neg (by decide), if_pos (by decide)]

theorem newSignatures_eq (job : FetchJob) (history : History) :
    (since job.canonicalCursor history.entries).filter
      (accepts (max job.fetchCutoffSeq 0)) = newSignatures job history := by
  refine List.filter_congr fun sig _ => ?_
  rw [accepts, accepts, Bool.not_inj_iff, ← Bool.decide_and, ← Bool.decide_and, decide_eq_decide]
  omega

theorem newSignatures_sublist (job : FetchJob) (history : History) :
    (newSignatures job history).Sublist history.entries :=
  List.filter_sublist.trans (since_begins _ _).sublist

theorem filterAndCanonicalizeSignatures_new (hchain : job.chain = .solana)
    (hcur : ∀ hash, job.canonicalCursor = some hash →
      Text.trimSpace hash = hash) :
    filterAndCanonicalizeSignatures job.chain (newSignatures job history).reverse job.fetchCutoffSeq
      job.canonicalCursor =
        (newSignatures job history).insertionSort SignatureInfo.before := by
  have hsub := newSignatures_sublist job history
  have hself : ∀ sig ∈ newSignatures job history,
      sig.hash ≠ "" ∧ canonicalSignatureIdentity job.chain sig.hash = sig.hash := by
    intro sig hsig
    obtain ⟨hne, htrim⟩ := history.named sig (hsub.subset hsig)
    rw [hchain]
    exact ⟨hne, canonicalSignatureIdentity_solana htrim⟩
  have hpass : ∀ sig ∈ (newSignatures job history).reverse, passes job.chain job.fetchCutoffSeq
      job.canonicalCursor sig = true := by
    intro sig hsig
    rw [List.mem_reverse] at hsig
    have hid := (hself sig hsig).2
    obtain ⟨hsince, hacc⟩ := List.mem_filter.mp hsig
    refine Bool.and_eq_true_iff.mpr ⟨hacc, ?_⟩
    cases hvalue : job.canonicalCursor with
    | none => rfl
    | some hash =>
      rw [hvalue] at hsince
      have hne := ne_of_mem_newerThan hsince
      have hcano : canonicalSignatureIdentity job.chain hash = hash := by
        rw [hchain]
        exact canonicalSignatureIdentity_solana (hcur hash hvalue)
      simp [hid, hcano, hne]
  have hcan : (newSignatures job history).reverse.filterMap
      (SignatureInfo.candidate job.chain) = (newSignatures job history).reverse := by
    rw [List.filterMap_congr (g := some), List.filterMap_some]
    intro sig hsig
    rw [List.mem_reverse] at hsig
    obtain ⟨hne, hid⟩ := hself sig hsig
    refine candidate_eq_some.mpr ⟨?_, ?_⟩
    · rw [hid]
      exact hne
    · rw [hid]
  have hnodup : ((newSignatures job history).map SignatureInfo.hash).Nodup :=
    history.distinct.sublist (hsub.map _)
  unfold filterAndCanonicalizeSignatures canonicalSignatures
  rw [List.filter_eq_self.mpr hpass, hcan, BestOf.keep_of_nodup]
  · refine eq_of_perm_of_before ?_ ?_ (List.pairwise_insertionSort _ _)
      (List.pairwise_insertionSort _ _)
    · exact (List.perm_insertionSort _ _).trans
        ((List.reverse_perm _).trans (List.perm_insertionSort _ _).symm)
    · refine ((List.perm_insertionSort _ _).map _).nodup_iff.mpr ?_
      exact ((List.reverse_perm _).map _).nodup_iff.mpr hnodup
  · exact ((List.reverse_perm _).map _).nodup_iff.mpr hnodup

theorem hits_append_misses {sigs : List SignatureInfo} (h : InOrder sigs) {cursorSequence : Int}
    (hge : ∀ sig ∈ sigs, cursorSequence ≤ sig.sequence) :
    (sigs.filter fun sig => sig.sequence = cursorSequence) ++
      (sigs.filter fun sig => cursorSequence < sig.sequence) = sigs := by
  have hmis : (sigs.filter fun sig => decide (cursorSequence < sig.sequence)) =
      sigs.filter fun sig => !decide (sig.sequence = cursorSequence) := by
    refine List.filter_congr fun sig hsig => ?_
    have := hge sig hsig
    rw [← decide_not, decide_eq_decide]
    omega
  have hperm : ((sigs.filter fun sig => sig.sequence = cursorSequence) ++
      (sigs.filter fun sig => cursorSequence < sig.sequence)).Perm sigs := by
    rw [hmis]
    exact List.filter_append_perm _ sigs
  refine eq_of_perm_of_before hperm ((hperm.map _).nodup_iff.mpr h.distinct) ?_ h.sorted
  refine List.pairwise_append.mpr ⟨h.sorted.filter _, h.sorted.filter _, ?_⟩
  intro a ha b hb
  have ha := of_decide_eq_true (List.mem_filter.mp ha).2
  have hb := of_decide_eq_true (List.mem_filter.mp hb).2
  exact .inl (by omega)

/-- Nothing is displaced: what is taken are the first signatures. -/
theorem suppressPreCursorSequenceCarryover_take {sigs out : List SignatureInfo} (h : InOrder sigs)
    {cursorSequence : Int} (hpos : 0 < requestedBatch)
    (hge : 0 < cursorSequence → ∀ sig ∈ sigs, cursorSequence ≤ sig.sequence)
    (hroom : 0 < cursorSequence → (∀ sig ∈ sigs, sig.sequence ≠ cursorSequence) ∨
      (∀ sig ∈ sigs, ¬ cursorSequence < sig.sequence) ∨ (sigs.length : Int) ≤ requestedBatch)
    (hout : suppressPreCursorSequenceCarryover sigs cursorSequence requestedBatch = some out) :
    out.take requestedBatch.toNat = sigs.take requestedBatch.toNat := by
  unfold suppressPreCursorSequenceCarryover at hout
  simp only [h.sorted.insertionSort_eq, if_neg (not_le.mpr hpos)] at hout
  split_ifs at hout with hsmall
  · cases hout
    rfl
  · cases hout
    rfl
  · rw [not_or, not_le] at hsmall
    have hparts := hits_append_misses h (hge hsmall.2)
    have hlen := congrArg List.length hparts
    rw [List.length_append] at hlen
    have hnoh : (∀ sig ∈ sigs, sig.sequence ≠ cursorSequence) →
        (sigs.filter fun sig => decide (sig.sequence = cursorSequence)) = [] :=
      fun hnot => List.filter_eq_nil_iff.mpr (by simpa using hnot)
    have hnom : (∀ sig ∈ sigs, ¬ cursorSequence < sig.sequence) →
        (sigs.filter fun sig => decide (cursorSequence < sig.sequence)) = [] :=
      fun hnot => List.filter_eq_nil_iff.mpr (by simpa using hnot)
    have hroom := hroom hsmall.2
    unfold carryover at hout
    split_ifs at hout with hmany hall hnone
    · -- the misses alone fill the batch, so there are no hits
      cases hout
      have hhits : (sigs.filter fun sig => decide (sig.sequence = cursorSequence)) = [] := by
        rcases hroom with hnot | hnot | hle
        · exact hnoh hnot
        · rw [hnom hnot, List.length_nil] at hmany
          omega
        · exact List.eq_nil_of_length_eq_zero (by omega)
      rw [hhits, List.nil_append] at hparts
      rw [hparts, List.take_take, Nat.min_self]
    · cases hout
      rw [hparts]
    · exfalso
      rcases hroom with hnot | hnot | hle
      · rw [hnoh hnot, List.length_nil] at hall
        omega
      · exact hnone (hnom hnot)
      · omega

end Select

section Job
variable {settings : Settings} {env : Env} {job : FetchJob} {stored : Option Int}
variable {history : History} {b : RawBatch}

def StartsFrom (job : FetchJob) (history : History) : Prop :=
  job.chain = .solana ∧
    ((job.cursorValue = none ∧ job.cursorSequence = 0) ∨
      ∃ cursor ∈ history.entries, job.cursorValue = some cursor.hash ∧
        job.cursorSequence = cursor.sequence)

theorem StartsFrom.cursorValue (h : StartsFrom job history) :
    job.canonicalCursor = job.cursorValue := by
  obtain ⟨hchain, ⟨hnone, _⟩ | ⟨cursor, hmem, hvalue, _⟩⟩ := h
  · rw [FetchJob.canonicalCursor, hnone]
    rfl
  · obtain ⟨hne, htrim⟩ := history.named cursor hmem
    have hid := canonicalSignatureIdentity_solana htrim
    rw [FetchJob.canonicalCursor, hvalue, hchain, canonicalizeCursorValue]
    simp only [hid, if_neg hne]

theorem sequence_le_of_not_newer {sig newest : SignatureInfo} (hsig : sig ∈ history.entries)
    (hnew : newest ∈ history.entries) (hnot : sig ∉ newerThan newest.hash history.entries) :
    sig.sequence ≤ newest.sequence := by
  obtain ⟨older, hsplit, hhead⟩ := newerThan_append_rest newest.hash history.entries
  have hmem : sig ∈ older := by
    rw [hsplit] at hsig
    exact (List.mem_append.mp hsig).resolve_left hnot
  cases older with
  | nil => cases hmem
  | cons first older =>
    have hfirst : first = newest := by
      refine List.inj_on_of_nodup_map history.distinct ?_ hnew (hhead first rfl)
      rw [hsplit]
      simp
    rw [hfirst] at hsplit hmem
    have hpair := history.newestFirst
    rw [hsplit] at hpair
    rcases List.mem_cons.mp hmem with rfl | hmem
    · exact Int.le_refl _
    · exact (List.pairwise_cons.mp (List.pairwise_append.mp hpair).2.1).1 sig hmem

theorem cursorSequence_le_new (h : StartsFrom job history) (hpos : 0 < job.cursorSequence) :
    ∀ sig ∈ newSignatures job history, job.cursorSequence ≤ sig.sequence := by
  intro sig hsig
  have hcur := h.cursorValue
  obtain ⟨_, ⟨_, hzero⟩ | ⟨cursor, hmem, hvalue, hseq⟩⟩ := h
  · omega
  · have hsince := (List.mem_filter.mp hsig).1
    rw [hcur, hvalue] at hsince
    obtain ⟨older, hsplit, _⟩ := newerThan_append_rest cursor.hash history.entries
    have holder : cursor ∈ older := by
      rw [hsplit] at hmem
      refine (List.mem_append.mp hmem).resolve_left fun hnewer => ?_
      exact ne_of_mem_newerThan hnewer rfl
    have hpair := history.newestFirst
    rw [hsplit] at hpair
    rw [hseq]
    exact (List.pairwise_append.mp hpair).2.2 sig hsince cursor holder

theorem selectSignatures_inTurn {requestedBatch : Int} (hpos : 0 < requestedBatch)
    (hstart : StartsFrom job history) (hcat : Catches settings env job requestedBatch history)
    {selected : List SignatureInfo}
    (h : selectSignatures job requestedBatch (newSignatures job history).reverse = some selected) :
    selected = inTurn job history requestedBatch := by
  have hcur : ∀ hash, job.canonicalCursor = some hash →
      Text.trimSpace hash = hash := by
    intro hash hvalue
    rw [hstart.cursorValue] at hvalue
    obtain ⟨_, ⟨hnone, _⟩ | ⟨cursor, hmem, hvalue', _⟩⟩ := hstart
    · rw [hnone] at hvalue
      cases hvalue
    · rw [hvalue'] at hvalue
      cases hvalue
      exact (history.named cursor hmem).2
  unfold selectSignatures at h
  rw [filterAndCanonicalizeSignatures_new hstart.1 hcur] at h
  obtain ⟨out, hout, rfl⟩ := Option.map_eq_some_iff.mp h
  have hperm := List.perm_insertionSort SignatureInfo.before (newSignatures job history)
  have horder : InOrder ((newSignatures job history).insertionSort SignatureInfo.before) := by
    refine ⟨List.pairwise_insertionSort _ _, (hperm.map _).nodup_iff.mpr ?_⟩
    exact history.distinct.sublist ((newSignatures_sublist job history).map _)
  refine suppressPreCursorSequenceCarryover_take horder hpos ?_ ?_ hout
  · intro hseq sig hsig
    exact cursorSequence_le_new hstart hseq sig (hperm.mem_iff.mp hsig)
  · intro hseq
    rw [hperm.length_eq]
    have hmem := fun sig => (hperm.mem_iff (a := sig)).mp
    refine (hcat.room hseq).imp (fun hnot sig hsig => hnot sig (hmem sig hsig)) ?_
    exact Or.imp_left fun hnot sig hsig => hnot sig (hmem sig hsig)

/-- The last signature of a batch is a new one, and the batch holds every new signature that is not
newer. -/
theorem processJob_catches (hstart : StartsFrom job history)
    (hhis : OnHistory settings env job (resolveBatchSize settings stored job.batchSize) history)
    (hcat : Catches settings env job (resolveBatchSize settings stored job.batchSize) history)
    (h : (processJob settings env job stored).sent = some b) :
    ∃ newest ∈ newSignatures job history, b.newCursorValue = some newest.hash ∧
      b.newCursorSequence = newest.sequence ∧
      ∀ sig ∈ newSignatures job history, sig ∉ newerThan newest.hash history.entries →
        sig ∈ b.signatures := by
  have hpos := resolveBatchSize_pos settings stored job.batchSize
  obtain ⟨size, response, selected, recorded, hsign, hsel, hemit⟩ := processJob_sent h
  obtain ⟨client, maxPageSize, fuel, htrue, hfetch⟩ := hhis size response hsign
  have hcur : job.canonicalCursor ≠ some "" := by
    intro hempty
    unfold FetchJob.canonicalCursor canonicalizeCursorValue at hempty
    split at hempty
    · cases hempty
    · simp only at hempty
      split_ifs at hempty with hne
      exact hne (Option.some.inj hempty)
  have hres := fetchNewSignaturesWithCutoff_all htrue hcur
    (by rw [newSignatures_eq]; exact hcat.asked size response hsign) hfetch
  rw [newSignatures_eq] at hres
  subst hres
  obtain rfl := selectSignatures_inTurn hpos hstart hcat hsel
  obtain ⟨count, rawTxs, newest, htra, hlast, rfl⟩ := emitBatch_sent hemit
  have hperm := List.perm_insertionSort SignatureInfo.before (newSignatures job history)
  have hnewe := List.mem_of_getLast? hlast
  have hnew : newest ∈ newSignatures job history :=
    hperm.mem_iff.mp (List.mem_of_mem_take (List.mem_of_mem_take hnewe))
  have hsub := newSignatures_sublist job history
  refine ⟨newest, hnew, rfl, rfl, fun sig hsig hnot => ?_⟩
  by_contra hleft
  -- what is left out stands behind the last signature of the batch, so it is not in a lower slot
  have hbeh : newest.before sig := by
    have hmem : sig ∈ (newSignatures job history).insertionSort SignatureInfo.before :=
      hperm.mem_iff.mpr hsig
    have hpair : ((newSignatures job history).insertionSort SignatureInfo.before).Pairwise
        SignatureInfo.before := List.pairwise_insertionSort _ _
    rw [← List.take_append_drop (min count.toNat
      (resolveBatchSize settings stored job.batchSize).toNat)
      ((newSignatures job history).insertionSort SignatureInfo.before)] at hmem hpair
    rw [inTurn, List.take_take] at hnewe
    refine (List.pairwise_append.mp hpair).2.2 newest hnewe sig ?_
    refine (List.mem_append.mp hmem).resolve_left fun hin => hleft ?_
    show sig ∈ (inTurn job history _).take count.toNat
    rw [inTurn, List.take_take]
    exact hin
  have hle := sequence_le_of_not_newer (hsub.subset hsig) (hsub.subset hnew) hnot
  have hseq : sig.sequence = newest.sequence := by
    rcases hbeh with hlt | ⟨heq, _⟩
    · omega
    · exact heq.symm
  exact hnot (hcat.cut count rawTxs newest htra hlast sig hsig hseq hleft)

end Job

/-- The history of an address, the cursor of the batch that was sent last, and the batches that
were sent. -/
structure Paging where
  history : History
  cursorValue : Option String
  cursorSequence : Int
  sent : List RawBatch

/-- A job, what it meets, and the history at the call that answers it. -/
structure PageTurn where
  env : Env
  job : FetchJob
  stored : Option Int
  history : History

def PageTurn.requested (settings : Settings) (turn : PageTurn) : Int :=
  resolveBatchSize settings turn.stored turn.job.batchSize

def PageTurn.outcome (settings : Settings) (turn : PageTurn) : Outcome :=
  processJob settings turn.env turn.job turn.stored

def Paging.after (settings : Settings) (s : Paging) (turn : PageTurn) : Paging :=
  match (turn.outcome settings).sent with
  | none => { s with history := turn.history }
  | some b =>
    { history := turn.history, cursorValue := b.newCursorValue,
      cursorSequence := b.newCursorSequence, sent := s.sent ++ [b] }

/-- The history has grown by newer signatures, the job starts from the cursor and its adapter tells
the truth. -/
structure Paging.Step (settings : Settings) (s : Paging) (turn : PageTurn) (s' : Paging) : Prop where
  grown : ∃ newer, turn.history.entries = newer ++ s.history.entries
  chain : turn.job.chain = .solana
  cursorValue : turn.job.cursorValue = s.cursorValue
  cursorSequence : turn.job.cursorSequence = s.cursorSequence
  truthful : OnHistory settings turn.env turn.job (turn.requested settings) turn.history
  after : s' = s.after settings turn

/-- Nothing has been sent, and the cursor is none or a signature of the history. -/
structure Paging.Initial (s : Paging) : Prop where
  sent : s.sent = []
  cursor : (s.cursorValue = none ∧ s.cursorSequence = 0) ∨
    ∃ cursor ∈ s.history.entries, s.cursorValue = some cursor.hash ∧
      s.cursorSequence = cursor.sequence

def PageTurn.Catching (settings : Settings) (turn : PageTurn) : Prop :=
  ∀ b, (turn.outcome settings).sent = some b →
    Catches settings turn.env turn.job (turn.requested settings) turn.history

/-- What holds along a run from a cursor: it is known, and nothing between the two cursors is
missing. -/
structure Paging.NothingPassed (initial : Option String) (s : Paging) : Prop where
  cursor : (s.cursorValue = none ∧ s.cursorSequence = 0) ∨
    ∃ cursor ∈ s.history.entries, s.cursorValue = some cursor.hash ∧
      s.cursorSequence = cursor.sequence
  known : ∀ hash, initial = some hash → ∃ cursor ∈ s.history.entries, cursor.hash = hash
  caught : ∀ hash, s.cursorValue = some hash → ∀ sig ∈ since initial s.history.entries,
    sig ∉ newerThan hash s.history.entries → ∃ b ∈ s.sent, sig.hash ∈ b.signatures.map SignatureInfo.hash

section Run
variable {settings : Settings} {initial : Option String} {s s' : Paging} {turn : PageTurn}

variable {history : History} {sig : SignatureInfo}

theorem newerThan_grown {history' : History} {newer : List SignatureInfo}
    (hgrown : history'.entries = newer ++ history.entries) (hsig : sig ∈ history.entries) :
    newerThan sig.hash history'.entries = newer ++ newerThan sig.hash history.entries := by
  have hne : ∀ other ∈ newer, other.hash ≠ sig.hash := by
    intro other hother heq
    have hdis := history'.distinct
    rw [hgrown, List.map_append] at hdis
    exact (List.nodup_append.mp hdis).2.2 _ (List.mem_map_of_mem hother) _
      (List.mem_map_of_mem hsig) heq
  rw [hgrown]
  unfold newerThan
  rw [List.takeWhile_append_of_pos (by simpa using hne)]

theorem Paging.NothingPassed.grown (hs : s.NothingPassed initial) {newer : List SignatureInfo}
    (hgrown : history.entries = newer ++ s.history.entries) {hash : String}
    (hvalue : s.cursorValue = some hash) (hsig : sig ∈ since initial history.entries)
    (hnot : sig ∉ newerThan hash history.entries) :
    ∃ b ∈ s.sent, sig.hash ∈ b.signatures.map SignatureInfo.hash := by
  have hsince : since initial history.entries = newer ++ since initial s.history.entries := by
    cases initial with
    | none => exact hgrown
    | some first =>
      obtain ⟨cursor, hmem, rfl⟩ := hs.known first rfl
      exact newerThan_grown hgrown hmem
  have hnewer : newerThan hash history.entries = newer ++ newerThan hash s.history.entries := by
    obtain ⟨hnone, _⟩ | ⟨cursor, hmem, hvalue', _⟩ := hs.cursor
    · rw [hnone] at hvalue
      cases hvalue
    · rw [hvalue'] at hvalue
      cases hvalue
      exact newerThan_grown hgrown hmem
  rw [hsince] at hsig
  rw [hnewer, List.mem_append, not_or] at hnot
  exact hs.caught hash hvalue sig ((List.mem_append.mp hsig).resolve_left hnot.1) hnot.2

theorem mem_newSignatures {job : FetchJob} {newest : SignatureInfo}
    (hsig : sig ∈ since job.canonicalCursor history.entries)
    (hnew : newest ∈ newSignatures job history)
    (hnot : sig ∉ newerThan newest.hash history.entries) : sig ∈ newSignatures job history := by
  have hle := sequence_le_of_not_newer ((since_begins _ _).subset hsig)
    ((newSignatures_sublist job history).subset hnew) hnot
  refine List.mem_filter.mpr ⟨hsig, ?_⟩
  have hacc := (List.mem_filter.mp hnew).2
  simp only [accepts, Bool.not_eq_true', Bool.and_eq_false_iff, decide_eq_false_iff_not]
    at hacc ⊢
  omega

theorem step_nothingPassed (hs : s.NothingPassed initial) (hcat : turn.Catching settings)
    (hstep : s.Step settings turn s') : s'.NothingPassed initial := by
  obtain ⟨newer, hgrown⟩ := hstep.grown
  have hsub : ∀ sig ∈ s.history.entries, sig ∈ turn.history.entries := by
    intro sig hsig
    rw [hgrown]
    exact List.mem_append_right newer hsig
  have hknown : ∀ hash, initial = some hash → ∃ cursor ∈ turn.history.entries,
      cursor.hash = hash := by
    intro hash hini
    obtain ⟨cursor, hmem, heq⟩ := hs.known hash hini
    exact ⟨cursor, hsub cursor hmem, heq⟩
  have hcur := hs.cursor.imp_right fun ⟨cursor, hmem, hvalue⟩ =>
    (⟨cursor, hsub cursor hmem, hvalue⟩ : ∃ cursor ∈ turn.history.entries,
      s.cursorValue = some cursor.hash ∧ s.cursorSequence = cursor.sequence)
  rw [hstep.after, Paging.after]
  split
  · exact ⟨hcur, hknown, fun hash hvalue sig hsig hnot => hs.grown hgrown hvalue hsig hnot⟩
  · rename_i b hsent
    have hstart : StartsFrom turn.job turn.history := by
      refine ⟨hstep.chain, ?_⟩
      rw [hstep.cursorValue, hstep.cursorSequence]
      exact hcur
    obtain ⟨newest, hnew, hvalue, hseq, hcau⟩ :=
      processJob_catches hstart hstep.truthful (hcat b hsent) hsent
    refine ⟨.inr ⟨newest, (newSignatures_sublist _ _).subset hnew, hvalue, hseq⟩, hknown, ?_⟩
    intro hash hhash sig hsig hnot
    obtain rfl : newest.hash = hash := by
      rw [hvalue] at hhash
      exact Option.some.inj hhash
    by_cases hafter : sig ∈ since s.cursorValue turn.history.entries
    · rw [← hstep.cursorValue, ← hstart.cursorValue] at hafter
      have hmem := hcau sig (mem_newSignatures hafter hnew hnot) hnot
      exact ⟨b, List.mem_append_right _ (List.mem_singleton.mpr rfl), List.mem_map_of_mem hmem⟩
    · -- not after the cursor before: an earlier batch has it
      cases hold : s.cursorValue with
      | none =>
        rw [hold] at hafter
        exact absurd ((since_begins _ _).subset hsig) hafter
      | some old =>
        rw [hold] at hafter
        obtain ⟨b', hb', hmem⟩ := hs.grown hgrown hold hsig hafter
        exact ⟨b', List.mem_append_left _ hb', hmem⟩

/-- Over every run of jobs that catch what they have to find, every signature that is newer than the
initial cursor and not newer than the last one is in a batch that was sent. -/
theorem run_nothing_passed (settings : Settings) (s s' : Paging) (turns : List PageTurn)
    (hinitial : s.Initial)
    (hrun : Runs.Run (Paging.Step settings) (fun _ turn => turn.Catching settings) s turns s') :
    ∀ hash, s'.cursorValue = some hash → ∀ sig ∈ since s.cursorValue s'.history.entries,
      sig ∉ newerThan hash s'.history.entries →
      ∃ b ∈ s'.sent, sig.hash ∈ b.signatures.map SignatureInfo.hash := by
  have hstart : s.NothingPassed s.cursorValue := by
    refine ⟨hinitial.cursor, ?_, ?_⟩
    · intro hash hvalue
      obtain ⟨hnone, _⟩ | ⟨cursor, hmem, hvalue', _⟩ := hinitial.cursor
      · rw [hnone] at hvalue
        cases hvalue
      · rw [hvalue'] at hvalue
        exact ⟨cursor, hmem, Option.some.inj hvalue⟩
    · intro hash hvalue sig hsig hnot
      rw [hvalue] at hsig
      exact absurd hsig hnot
  exact (hrun.invariant hstart fun _ _ _ hs hcat hstep =>
    step_nothingPassed hs hcat hstep).caught

end Run

section Sample

def resting (history : History) : Client := fun _ opts => .ok (listed history.entries opts)

def answer (history : History) (cursor : Option String) (size cutoffSeq : Int) :
    Except Err (List SignatureInfo) :=
  (fetchNewSignaturesWithCutoff (resting history) 1000 (history.entries.length + 1) cursor size
    cutoffSeq).getD (.error ⟨"pages", [{}]⟩)

def answering (history : History) : Env where
  fetchNewSignatures _ _ cursor size := answer history cursor size 0
  fetchNewSignaturesWithCutoff := some fun _ _ cursor size cutoffSeq =>
    answer history cursor size cutoffSeq
  fetchTransactions _ hashes := .ok hashes

theorem answering_onHistory (settings : Settings) (history : History) (job : FetchJob)
    (requestedBatch : Int) :
    OnHistory settings (answering history) job requestedBatch history := by
  intro size response hsuc
  obtain ⟨attempt, hcall⟩ := hsuc.call
  have hans : answer history job.canonicalCursor size
      (max job.fetchCutoffSeq 0) = .ok response := by
    simp only [signatureCalls, fetchNewSignatures, answering] at hcall
    split_ifs at hcall with hcut
    · rw [max_eq_left hcut.le]
      exact hcall
    · rw [max_eq_right (not_lt.mp hcut)]
      exact hcall
  refine ⟨resting history, 1000, history.entries.length + 1, ?_, ?_⟩
  · exact fun _ _ sigs hsigs => ⟨[], (Except.ok.inj hsigs).symm, fun _ => rfl, nofun⟩
  · unfold answer at hans
    revert hans
    cases fetchNewSignaturesWithCutoff (resting history) 1000 (history.entries.length + 1)
        job.canonicalCursor size (max job.fetchCutoffSeq 0) with
    | none => nofun
    | some result => exact congrArg some

def threeSignatures : History where
  entries := [⟨"s3", 3, none⟩, ⟨"s2", 2, none⟩, ⟨"s1", 1, none⟩]
  distinct := by decide
  newestFirst := by decide
  named := by decide +kernel

def firstJob (batchSize : Int) : PageTurn where
  env := answering threeSignatures
  job := { chain := .solana, network := .mainnet, address := "a", batchSize }
  stored := none
  history := threeSignatures

def untouched : Paging := ⟨threeSignatures, none, 0, []⟩

theorem untouched_initial : untouched.Initial := ⟨rfl, .inl ⟨rfl, rfl⟩⟩

theorem firstJob_step (batchSize : Int) : untouched.Step {} (firstJob batchSize)
    (untouched.after {} (firstJob batchSize)) :=
  ⟨⟨[], rfl⟩, rfl, rfl, rfl, answering_onHistory _ _ _ _, rfl⟩

theorem firstJob_catching : (firstJob 5).Catching {} := by
  intro b _
  have hnew : newSignatures (firstJob 5).job threeSignatures = threeSignatures.entries := by
    decide +kernel
  have hturn : inTurn (firstJob 5).job threeSignatures 5 = threeSignatures.entries.reverse := by
    decide +kernel
  refine ⟨?_, ?_, ?_⟩
  · intro size response hsuc
    have hcall : (signatureCalls (firstJob 5).env (firstJob 5).job).call 1 5 =
        .ok threeSignatures.entries.reverse := rfl
    have hsize : size = 5 := hsuc.of_call hcall
    rw [hsize]
    decide +kernel
  · intro hpos
    cases hpos
  · intro count rawTxs newest hsuc _ sig hsig _ hleft
    have hreq : (firstJob 5).requested {} = 5 := rfl
    rw [hreq] at hsuc hleft
    have hcall : (transactionCalls (firstJob 5).env (inTurn (firstJob 5).job threeSignatures 5)).call
        1 (inTurn (firstJob 5).job threeSignatures 5).length =
        .ok (threeSignatures.entries.reverse, ["s1", "s2", "s3"]) := by
      rw [hturn]
      rfl
    have hcount : count = (inTurn (firstJob 5).job threeSignatures 5).length :=
      hsuc.of_call hcall
    refine absurd ?_ hleft
    rw [hcount, Int.toNat_natCast]
    show sig ∈ (inTurn (firstJob 5).job threeSignatures 5).take _
    rw [List.take_length, hturn, List.mem_reverse, ← hnew]
    exact hsig

theorem run_nothing_passed_three :
    Runs.Run (Paging.Step {}) (fun _ turn => turn.Catching {}) untouched [firstJob 5]
      (untouched.after {} (firstJob 5)) ∧
    ∀ sig ∈ since none (untouched.after {} (firstJob 5)).history.entries,
      sig ∉ newerThan "s3" (untouched.after {} (firstJob 5)).history.entries →
      ∃ b ∈ (untouched.after {} (firstJob 5)).sent,
        sig.hash ∈ b.signatures.map SignatureInfo.hash := by
  have hrun : Runs.Run (Paging.Step {}) (fun _ turn => turn.Catching {}) untouched [firstJob 5]
      (untouched.after {} (firstJob 5)) := .next .start firstJob_catching (firstJob_step 5)
  exact ⟨hrun, run_nothing_passed {} _ _ _ untouched_initial hrun "s3" (by decide +kernel)⟩

/-- Two signatures are asked for and three are new: the oldest one is passed. -/
theorem run_passes_oldest :
    Runs.Run (Paging.Step {}) (fun _ _ => True) untouched [firstJob 2]
      (untouched.after {} (firstJob 2)) ∧
    (untouched.after {} (firstJob 2)).cursorValue = some "s3" ∧
    ⟨"s1", 1, none⟩ ∈ since none (untouched.after {} (firstJob 2)).history.entries ∧
    ⟨"s1", 1, none⟩ ∉ newerThan "s3" (untouched.after {} (firstJob 2)).history.entries ∧
    ¬ ∃ b ∈ (untouched.after {} (firstJob 2)).sent, "s1" ∈ b.signatures.map SignatureInfo.hash := by
  refine ⟨.next .start trivial (firstJob_step 2), by decide +kernel⟩

end Sample

end AddressJob

end MultichainIndexer
