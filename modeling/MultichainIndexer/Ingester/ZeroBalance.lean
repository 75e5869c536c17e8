import MultichainIndexer.Ingester.DeniedCache
import MultichainIndexer.Normalizer.Canonical

/-!
# Withdrawals without a balance

A withdrawal of a token from an address for which no balance is known denies the
token. Known is a balance that is stored, or one that an applied event before
the withdrawal has reached. Before is meant in the order in which the ingester
walks over the events: transactions by sequence and hash, the events of a
transaction by their ids. A batch denies nothing and stores all its events
exactly when, in that order, every withdrawal finds its balance.
-/

namespace MultichainIndexer

open Relational Text

def NormalizedBalanceEvent.signalled (be : NormalizedBalanceEvent) : Bool :=
  ((be.chainData.getD []).lookup "scam_signal").getD "" ≠ ""

/-- A negative delta of a token other than the native one. -/
def NormalizedBalanceEvent.withdraws (be : NormalizedBalanceEvent) : Bool :=
  be.tokenType ≠ .native &&
    match (trimSpace be.delta).toList with
    | '-' :: c :: rest => c :: rest ≠ ['0']
    | _ => false

theorem detectScamSignal_iff {chain : Chain} {be : NormalizedBalanceEvent} (hchain : chain ≠ .btc)
    (hsig : be.signalled = false) (known : Bool) :
    detectScamSignal chain be known = "" ↔ (be.withdraws = true → known = true) := by
  have hnone : ((be.chainData.getD []).lookup "scam_signal").getD "" = "" := by
    simpa [NormalizedBalanceEvent.signalled] using hsig
  unfold detectScamSignal NormalizedBalanceEvent.withdraws
  by_cases hnat : be.tokenType = .native
  · simp [hnat]
  · simp only [if_neg hchain, hnone, ne_eq, not_true_eq_false, if_false, hnat,
      not_false_eq_true, decide_true, Bool.true_and]
    generalize (trimSpace be.delta).toList = delta
    split
    · cases known with
      | true => simp
      | false => simp
    · simp

/-- In the order of the walk, every withdrawal of a contract that is not denied finds a balance. -/
def WithdrawalsKnown (batch : NormalizedBatch) (db : Db) : Prop :=
  ∀ earlier ec rest, batchEvents batch = earlier ++ ec :: rest →
    isDeniedTx batch.chain batch.network ec.be.contractAddress db.tokens = false →
    ec.be.withdraws = true → balanceKnown batch db earlier ec = true

theorem forall_split_iff {α : Type} {l : List α} {P : List α → α → Prop} :
    (∀ i : Fin l.length, P (l.take i) (l.get i)) ↔
      ∀ earlier a rest, l = earlier ++ a :: rest → P earlier a := by
  constructor
  · rintro h earlier a rest rfl
    have hi := h ⟨earlier.length, by simp⟩
    simpa using hi
  · intro h i
    refine h (l.take i) (l.get i) (l.drop (i + 1)) ?_
    rw [List.get_eq_getElem, List.getElem_cons_drop, List.take_append_drop]

instance (batch : NormalizedBatch) (db : Db) : Decidable (WithdrawalsKnown batch db) :=
  decidable_of_iff _ (forall_split_iff (l := batchEvents batch) (P := fun earlier ec =>
    isDeniedTx batch.chain batch.network ec.be.contractAddress db.tokens = false →
      ec.be.withdraws = true → balanceKnown batch db earlier ec = true))

theorem deniesNothing_iff_withdrawalsKnown {batch : NormalizedBatch} (db : Db)
    (hchain : batch.chain ≠ .btc)
    (hsig : ∀ ec ∈ batchEvents batch, ec.be.signalled = false) :
    DeniesNothing batch db ↔ WithdrawalsKnown batch db := by
  unfold DeniesNothing WithdrawalsKnown
  refine forall₄_congr fun earlier ec rest hsplit => forall_congr' fun _ => ?_
  refine detectScamSignal_iff hchain (hsig ec ?_) _
  rw [hsplit]
  exact List.mem_append_cons_self

section Build
variable {env : IngestEnv} {addrMap : Option (List WatchedAddress)} {batch : NormalizedBatch}
variable {pre : Prefetched} {db : Db}

/-- A balance that the build knows is stored, or an applied event before has reached it. -/
def ReachedOnly (batch : NormalizedBatch) (pre : Prefetched) (db : Db)
    (earlier : List EventContext) (st : BuildState) : Prop :=
  ∀ key, (st.inMemoryBalances key).present = true →
    (prefetchedBalance batch db.balances key).present = true ∨
      ∃ e ∈ earlier, e.applies batch = true ∧ e.be.address = key.1 ∧
        pre.tokenIDMap e.be.contractAddress = some key.2

/-- The ids of the tokens tell the contracts of the batch apart. -/
def ContractsApart (batch : NormalizedBatch) (pre : Prefetched) : Prop :=
  ∀ ec ∈ batchEvents batch, ∀ e ∈ batchEvents batch, ∀ id,
    pre.tokenIDMap ec.be.contractAddress = some id →
    pre.tokenIDMap e.be.contractAddress = some id → e.be.contractAddress = ec.be.contractAddress

variable {earlier : List EventContext} {ec : EventContext} {st st' : BuildState} {tokenID : UUID}

theorem ReachedOnly.known (h : ReachedOnly batch pre db earlier st)
    (hids : pre.tokenIDMap = tokenIDs batch db) (hapart : ContractsApart batch pre)
    (hear : ∀ e ∈ earlier, e ∈ batchEvents batch) (hec : ec ∈ batchEvents batch)
    (htok : pre.tokenIDMap ec.be.contractAddress = some tokenID)
    (hpre : (st.inMemoryBalances (ec.be.address, tokenID)).present = true) :
    balanceKnown batch db earlier ec = true := by
  rw [balanceKnown, Bool.or_eq_true, ← hids, htok]
  rcases h _ hpre with hsto | ⟨e, he, happ, haddr, hid⟩
  · exact .inl hsto
  · refine .inr (List.any_eq_true.mpr ⟨e, he, ?_⟩)
    have hcon := hapart ec hec e (hear e he) tokenID htok hid
    simp [haddr, hcon, happ]

theorem ReachedOnly.append (h : ReachedOnly batch pre db earlier st) (ec : EventContext) :
    ReachedOnly batch pre db (earlier ++ [ec]) st := by
  intro key hkey
  refine (h key hkey).imp_right ?_
  rintro ⟨e, he, hfacts⟩
  exact ⟨e, List.mem_append_left _ he, hfacts⟩

theorem ReachedOnly.next (h : ReachedOnly batch pre db earlier st)
    (htok : pre.tokenIDMap ec.be.contractAddress = some tokenID) {txID : UUID} :
    ReachedOnly batch pre db (earlier ++ [ec])
      (st.follow env addrMap batch ec (.take tokenID txID)) := by
  intro key hkey
  rw [follow_present, Bool.or_eq_true, Bool.and_eq_true, decide_eq_true_eq] at hkey
  rcases hkey with hkey | ⟨rfl, happ⟩
  · exact h.append ec key hkey
  · exact .inr ⟨ec, List.mem_append_right _ (List.mem_singleton_self _), happ, rfl, htok⟩

theorem build_denied_mono {l : List EventContext} (hknown : ∀ ec ∈ l, ec.Known pre)
    (htoke : ∀ ec ∈ l, HasToken batch.chain batch.network ec.be.contractAddress st.tokens)
    (h : l.foldlM (buildEvent env addrMap batch pre) st = .ok st') (contract : String)
    (hden : isDeniedTx batch.chain batch.network contract st.tokens = true) :
    isDeniedTx batch.chain batch.network contract st'.tokens = true := by
  induction l generalizing st with
  | nil =>
    cases h
    exact hden
  | cons ec l ih =>
    obtain ⟨u, hu, hrest⟩ := Result.bind_ok h
    obtain ⟨htok, htx⟩ := hknown ec List.mem_cons_self
    obtain ⟨tokenID, htok⟩ := Option.isSome_iff_exists.mp htok
    have hknown' := (List.forall_mem_cons.mp hknown).2
    have htok' := (List.forall_mem_cons.mp htoke).2
    rcases buildEvent_known htok htx hu with ⟨_, rfl⟩ | ⟨_, signal, _, _, rfl⟩ | ⟨_, _, _, rfl⟩
    · exact ih hknown' htok' hrest hden
    · refine ih hknown' (fun ec' hec' => (htok' ec' hec').denyTokenTx _ _ _) hrest ?_
      rw [BuildState.follow, isDeniedTx_denyTokenTx (htoke ec List.mem_cons_self)]
      split
      · rfl
      · exact hden
    · exact ih hknown' (by exact htok') hrest (by exact hden)

theorem signals_of_build {rest : List EventContext} (hund : Undenied batch pre db earlier st)
    (hrea : ReachedOnly batch pre db earlier st) (hids : pre.tokenIDMap = tokenIDs batch db)
    (hapart : ContractsApart batch pre) (hknown : ∀ ec ∈ rest, ec.Known pre)
    (htoke : ∀ ec ∈ rest, HasToken batch.chain batch.network ec.be.contractAddress st.tokens)
    (hsplit : batchEvents batch = earlier ++ rest)
    (h : rest.foldlM (buildEvent env addrMap batch pre) st = .ok st')
    (hden : ∀ contract, isDeniedTx batch.chain batch.network contract st'.tokens = true →
      isDeniedTx batch.chain batch.network contract db.tokens = true) :
    ∀ before ec after, rest = before ++ ec :: after →
      isDeniedTx batch.chain batch.network ec.be.contractAddress db.tokens = false →
      detectScamSignal batch.chain ec.be (balanceKnown batch db (earlier ++ before) ec) = "" := by
  induction rest generalizing earlier st with
  | nil =>
    intro before ec after hnil
    exact absurd hnil.symm (by simp)
  | cons ec rest ih =>
    obtain ⟨u, hu, hrest⟩ := Result.bind_ok h
    obtain ⟨htok, htx⟩ := hknown ec List.mem_cons_self
    obtain ⟨tokenID, htok⟩ := Option.isSome_iff_exists.mp htok
    have hknown' := (List.forall_mem_cons.mp hknown).2
    have htok' := (List.forall_mem_cons.mp htoke).2
    have hmem : ec ∈ batchEvents batch := hsplit ▸ List.mem_append_cons_self
    have hear : ∀ e ∈ earlier, e ∈ batchEvents batch := by
      intro e he
      rw [hsplit]
      exact List.mem_append_left _ he
    have hsplit' : batchEvents batch = (earlier ++ [ec]) ++ rest := by
      rw [hsplit, ← List.append_cons]
    -- the signal of this event, and the state after it
    obtain ⟨hsign, hund', hrea', htoks⟩ :
        (isDeniedTx batch.chain batch.network ec.be.contractAddress db.tokens = false →
          detectScamSignal batch.chain ec.be (balanceKnown batch db earlier ec) = "") ∧
        Undenied batch pre db (earlier ++ [ec]) u ∧
        ReachedOnly batch pre db (earlier ++ [ec]) u ∧ u.tokens = st.tokens := by
      rcases buildEvent_known htok htx hu with ⟨hyes, rfl⟩ | ⟨hno, signal, _, _, rfl⟩ |
        ⟨hno, hsig, _, rfl⟩
      · rw [hund.denied ec hmem] at hyes
        exact ⟨fun hno => absurd (hyes.symm.trans hno) (by decide), hund.skipped hyes,
          hrea.append ec, rfl⟩
      · -- a contract that was denied on the way is denied at the end
        have hend := build_denied_mono hknown' (fun ec' hec' => (htok' ec' hec').denyTokenTx _ _ _)
          hrest ec.be.contractAddress (by
            rw [BuildState.follow, isDeniedTx_denyTokenTx (htoke ec List.mem_cons_self), if_pos rfl])
        rw [hund.denied ec hmem, hden _ hend] at hno
        cases hno
      · exact ⟨fun _ => detectScamSignal_mono hsig
          (hrea.known hids hapart hear hmem htok), hund.taken htok, hrea.next htok, rfl⟩
    rw [← htoks] at htok'
    intro before ec' after heq
    cases before with
    | nil =>
      obtain ⟨rfl, rfl⟩ := List.cons.inj heq
      rw [List.append_nil]
      exact hsign
    | cons b before =>
      obtain ⟨rfl, hrest'⟩ := List.cons.inj heq
      have := ih hund' hrea' hknown' htok' hsplit' hrest before ec' after hrest'
      rw [← List.append_cons] at this
      exact this

/-- The build makes models of the events whose contract is not denied, and of no others. -/
theorem models_of_build {rest : List EventContext} (hund : Undenied batch pre db earlier st)
    (hnot : DeniesNothing batch db) (hids : pre.tokenIDMap = tokenIDs batch db)
    (hknown : ∀ ec ∈ rest, ec.Known pre) (hsplit : batchEvents batch = earlier ++ rest)
    (h : rest.foldlM (buildEvent env addrMap batch pre) st = .ok st') :
    st'.tokens = st.tokens ∧ ∃ ms, st'.eventModels = st.eventModels ++ ms ∧
      List.Forall₂ (BuiltFrom env addrMap batch pre) (rest.filter fun ec =>
        !isDeniedTx batch.chain batch.network ec.be.contractAddress db.tokens) ms := by
  induction rest generalizing earlier st with
  | nil =>
    cases h
    exact ⟨rfl, [], (List.append_nil _).symm, .nil⟩
  | cons ec rest ih =>
    obtain ⟨u, hu, hrest⟩ := Result.bind_ok h
    have hec := hknown ec List.mem_cons_self
    obtain ⟨hnext, hsame, htoks⟩ := hund.next hnot hids hec hsplit hu
    obtain ⟨htoke, ms, hms, hbuilt⟩ := ih hnext
      (List.forall_mem_cons.mp hknown).2
      (hsplit.trans (List.append_cons ..)) hrest
    refine ⟨htoke.trans htoks, ?_⟩
    have hden := hund.denied ec (hsplit ▸ List.mem_append_cons_self)
    obtain ⟨htok, htx⟩ := hec
    obtain ⟨tokenID, htok⟩ := Option.isSome_iff_exists.mp htok
    rcases buildEvent_known htok htx hu with ⟨hcac, rfl⟩ | ⟨hcac, _, _, _, rfl⟩ |
      ⟨hcac, _, txID, rfl⟩
    · refine ⟨ms, hms, ?_⟩
      rw [List.filter_cons_of_neg (by simp [← hden, hcac])]
      exact hbuilt
    · exact absurd hsame (by simp [BuildState.follow, hcac])
    · refine ⟨st.model env addrMap batch ec tokenID txID :: ms, ?_, ?_⟩
      · rw [hms, BuildState.follow, ← List.append_cons]
      · rw [List.filter_cons_of_pos (by simp [← hden, hcac])]
        exact .cons ⟨txID, tokenID, _, _, htok, rfl⟩ hbuilt

end Build

def HasRow (db : Db) (ec : EventContext) : Prop :=
  ∃ r ∈ db.balanceEvents.rows, r.eventID = ec.be.eventID

section Ingest
variable {env : IngestEnv} {batch : NormalizedBatch} {db db' : Db}

theorem optionalKey_inj {a b : String} :
    (if a = "" then none else some a) = (if b = "" then none else some b) ↔ a = b := by
  by_cases ha : a = ""
  · by_cases hb : b = ""
    · simp [ha, hb]
    · simp [ha, hb, Ne.symm hb]
  · by_cases hb : b = ""
    · simp [ha, hb]
    · simp [ha, hb]

theorem eventID_eq_of_row {r s : BalanceEventRow} (h : r.eventKey = s.eventKey) :
    r.eventID = s.eventID :=
  optionalKey_inj.mp h

theorem eventID_eq_of_values {r : BalanceEventRow} {v : EventValues} (h : r.eventKey = v.eventKey) :
    r.eventID = v.event.eventID :=
  optionalKey_inj.mp h

theorem contractsApart {pre : Prefetched} {u : Db}
    (h : prefetchBulkData env batch (collectEvents batch) db = .ok (pre, u)) :
    ContractsApart batch pre := by
  obtain ⟨_, htok, _⟩ := prefetchBulkData_ok h
  obtain ⟨_, hids⟩ := bulkUpsertTokensTx_ok collectEvents_tokenModels htok
  intro ec _ e _ id hec he
  obtain ⟨tok, hmem, hkey, hid⟩ := hids _ _ hec
  obtain ⟨tok', hmem', hkey', hid'⟩ := hids _ _ he
  rw [IndexedTable.eq_of_ident_eq hmem hmem' (hid.trans hid'.symm), hkey'] at hkey
  exact congrArg (fun k => k.2.2) (Option.some.inj hkey)

/-- A batch that is taken in denies no token and leaves a row of each of its events exactly when it
denies nothing and each event of a denied contract has its row from before, or shares it with an
event of another contract. -/
theorem ingestBatch_denies_iff (htruth : Truthful env.deniedCache db.tokens)
    (h : ingestBatch env batch db = .ok db') :
    ((∀ chain network contract, isDeniedTx chain network contract db'.tokens =
        isDeniedTx chain network contract db.tokens) ∧
      ∀ ec ∈ batchEvents batch, HasRow db' ec) ↔
    DeniesNothing batch db ∧ ∀ ec ∈ batchEvents batch,
      isDeniedTx batch.chain batch.network ec.be.contractAddress db.tokens = true →
        HasRow db ec ∨ ∃ e ∈ batchEvents batch, e.be.eventID = ec.be.eventID ∧
          isDeniedTx batch.chain batch.network e.be.contractAddress db.tokens = false := by
  unfold ingestBatch at h
  obtain ⟨addrMap, _, h⟩ := Result.bind_ok h
  obtain ⟨⟨pre, u⟩, hpre, h⟩ := Result.bind_ok h
  obtain ⟨st, hst, hwrite⟩ := Result.bind_ok h
  obtain ⟨hknown, htok, hsta, hund⟩ := prefetchBulkData_cached htruth hpre
  obtain ⟨_, _, hu⟩ := prefetchBulkData_ok hpre
  have hids := (prefetchBulkData_for hpre).2.tokenIDs
  obtain ⟨⟨res, hup⟩, _⟩ := writeBulkAndCommit_ok hwrite
  obtain ⟨vs, hvs, _, hwrote⟩ := bulkUpsertEventsTx_wrote hup
  have hrows : u.balanceEvents = db.balanceEvents := by rw [hu]
  rw [hrows] at hwrote
  rw [collectEvents_allEvents, buildEventModels_eq] at hst
  have hmod := fun hnot => models_of_build hund hnot hids hknown rfl hst
  rw [writeBulkAndCommit_tokens hwrite]
  constructor
  · rintro ⟨hsame, hsto⟩
    have hstart : ReachedOnly batch pre db [] (.start batch pre u) := by
      intro key hkey
      have hbal : u.balances = db.balances := by rw [hu]
      rw [BuildState.start, hbal] at hkey
      exact .inl hkey
    have hsign := signals_of_build hund hstart hids (contractsApart hpre) hknown htok rfl hst
      fun contract hden => by rw [← hsame]; exact hden
    have hnot : DeniesNothing batch db := by
      intro earlier ec rest hsplit hno
      have hsig := hsign earlier ec rest hsplit hno
      rw [List.nil_append] at hsig
      exact hsig
    refine ⟨hnot, fun ec hec _ => ?_⟩
    obtain ⟨r, hr, hid⟩ := hsto ec hec
    rcases hwrote.key_from r hr with ⟨s, hs, hkey⟩ | ⟨v, hv, hkey⟩
    · exact .inl ⟨s, hs, (eventID_eq_of_row hkey).trans hid⟩
    · obtain ⟨_, ms, hms, hbuilt⟩ := hmod hnot
      have hmem : v.event ∈ ms := by
        have : v.event ∈ st.eventModels := by
          rw [← hvs]
          exact List.mem_map_of_mem hv
        rw [hms] at this
        exact this
      obtain ⟨e, he, hfrom⟩ := Related.exists_left hbuilt v.event hmem
      obtain ⟨he, hno⟩ := List.mem_filter.mp he
      refine .inr ⟨e, he, ?_, by simpa using hno⟩
      rw [← hfrom.eventID, ← eventID_eq_of_values hkey.symm, hid]
  · rintro ⟨hnot, hdeni⟩
    obtain ⟨htoks, ms, hms, hbuilt⟩ := hmod hnot
    have hrow : ∀ e ∈ batchEvents batch,
        isDeniedTx batch.chain batch.network e.be.contractAddress db.tokens = false →
        HasRow db' e := by
      intro e he hno
      obtain ⟨m, hm, hfrom⟩ := Related.exists_right hbuilt e
        (List.mem_filter.mpr ⟨he, by simp [hno]⟩)
      obtain ⟨v, hv, hev⟩ : ∃ v ∈ vs, v.event = m := by
        have : m ∈ vs.map EventValues.event := by
          rw [hvs, hms]
          exact hm
        exact List.mem_map.mp this
      obtain ⟨r, hr, hkey⟩ := hwrote.exists_key hv
      refine ⟨r, hr, ?_⟩
      rw [eventID_eq_of_values hkey, hev, hfrom.eventID]
    refine ⟨fun chain network contract => ?_, fun ec hec => ?_⟩
    · rw [htoks]
      exact hsta chain network contract
    · cases hden : isDeniedTx batch.chain batch.network ec.be.contractAddress db.tokens with
      | false => exact hrow ec hec hden
      | true =>
        rcases hdeni ec hec hden with ⟨s, hs, hid⟩ | ⟨e, he, hid, hno⟩
        · obtain ⟨r, hr, hkey⟩ := hwrote.keeps_key hs
          exact ⟨r, hr, (eventID_eq_of_row hkey).trans hid⟩
        · obtain ⟨r, hr, hrid⟩ := hrow e he hno
          exact ⟨r, hr, hrid.trans hid⟩

end Ingest

/-- An EVM batch without a signal of the decoder, taken in behind a cache that agrees with the
database, denies no token and leaves a row of each of its events exactly when every withdrawal finds
its balance in the order of the walk, and each event of a contract that was denied before has its
row from before or shares it. -/
theorem processBatch_denies_no_token_iff (env : IngestEnv) (batch : NormalizedBatch) (db db' : Db)
    (hevm : isEVMChain batch.chain = true)
    (hsignal : ∀ ec ∈ batchEvents batch, ec.be.signalled = false)
    (htruth : Truthful env.deniedCache db.tokens)
    (hback : rollsBack (canonicalizeCursors batch) = false)
    (h : processBatch env batch db = .ok db') :
    ((∀ chain network contract, isDeniedTx chain network contract db'.tokens =
        isDeniedTx chain network contract db.tokens) ∧
      ∀ ec ∈ batchEvents batch, HasRow db' ec) ↔
    WithdrawalsKnown batch db ∧ ∀ ec ∈ batchEvents batch,
      isDeniedTx batch.chain batch.network ec.be.contractAddress db.tokens = true →
        HasRow db ec ∨ ∃ e ∈ batchEvents batch, e.be.eventID = ec.be.eventID ∧
          isDeniedTx batch.chain batch.network e.be.contractAddress db.tokens = false := by
  have hbtc : batch.chain ≠ .btc := by
    intro heq
    rw [heq] at hevm
    cases hevm
  have hin : ingestBatch env (canonicalizeCursors batch) db = .ok db' := by
    rcases processBatch_cases h with ⟨_, hin⟩ | ⟨_, hyes, _⟩
    · exact hin
    · rw [hback] at hyes
      cases hyes
  have hiff := ingestBatch_denies_iff htruth hin
  have hwalk : DeniesNothing (canonicalizeCursors batch) db ↔
      WithdrawalsKnown (canonicalizeCursors batch) db :=
    deniesNothing_iff_withdrawalsKnown db hbtc hsignal
  rw [hwalk] at hiff
  exact hiff

section Chain
variable (txIndex : String → Nat) (logIndex : NormalizedBalanceEvent → Nat)

/-- The order of the chain: by block, place in the block, place in the log. -/
def ChainBefore (e ec : EventContext) : Prop :=
  e.ntx.blockCursor < ec.ntx.blockCursor ∨ e.ntx.blockCursor = ec.ntx.blockCursor ∧
    (txIndex e.canonicalTxHash < txIndex ec.canonicalTxHash ∨
      txIndex e.canonicalTxHash = txIndex ec.canonicalTxHash ∧ logIndex e.be < logIndex ec.be)

instance (e ec : EventContext) : Decidable (ChainBefore txIndex logIndex e ec) := by
  unfold ChainBefore
  infer_instance

/-- In the order of the chain, a negative delta of a fungible token comes after a positive one of
the same address and token, or finds a stored balance. -/
def CoveredInChain (batch : NormalizedBatch) (db : Db) : Prop :=
  ∀ ec ∈ batchEvents batch, ec.be.tokenType = .fungible → deltaValue ec.be.delta < 0 →
    balanceKnown batch db [] ec = true ∨ ∃ e ∈ batchEvents batch,
      e.be.address = ec.be.address ∧ e.be.contractAddress = ec.be.contractAddress ∧
        0 < deltaValue e.be.delta ∧ ChainBefore txIndex logIndex e ec

instance (batch : NormalizedBatch) (db : Db) : Decidable (CoveredInChain txIndex logIndex batch db) := by
  unfold CoveredInChain
  infer_instance

end Chain

def inAndOut (deposit withdrawal : String) : NormalizerEnv where
  decode _ _ := .ok {
    results := [transfer deposit "5", transfer withdrawal "-5"] }
  isTransient _ := false
  buildCanonicalBalanceEvents := Normalizer.canonicalBalanceEvents id
where
  transfer (txHash delta : String) : TransactionResult :=
    { txHash := txHash, blockCursor := 10, status := "SUCCESS"
      feeAmount := "21", feePayer := "0xcc"
      balanceEvents := [{ eventCategory := "TRANSFER", eventAction := "erc20_transfer"
                          address := "0xaa", contractAddress := "0x70", delta := delta
                          counterpartyAddress := "0xbb", tokenType := "FUNGIBLE"
                          metadata := [("log_index", "0"), ("finality_state", "finalized")] }] }

def inAndOutBatch (deposit withdrawal : String) : RawBatch where
  chain := .ethereum
  network := .mainnet
  rawTransactions := ["in", "out"]
  signatures := [{ hash := deposit, sequence := 10 }, { hash := withdrawal, sequence := 10 }]
  newCursorValue := some withdrawal
  newCursorSequence := 10
  blockScanMode := true
  watchedAddresses := ["0xaa"]

/-- The hash of the deposit is the smaller one: nothing is denied and both events are stored. -/
theorem inAndOut_stored :
    ∃ nb db', Normalizer.processBatch (inAndOut "0x0a" "0x0b") (inAndOutBatch "0x0a" "0x0b") = .ok nb ∧
      processBatch {} nb {} = .ok db' ∧
      (∀ chain network contract, isDeniedTx chain network contract db'.tokens =
        isDeniedTx chain network contract ({} : Db).tokens) ∧
      ∀ ec ∈ batchEvents nb, HasRow db' ec := by
  obtain ⟨nb, hnorm, db', hproc, hevm, hsig, hback, hknown, hnone⟩ :
      ∃ nb, Normalizer.processBatch (inAndOut "0x0a" "0x0b") (inAndOutBatch "0x0a" "0x0b") = .ok nb ∧
      ∃ db', processBatch {} nb {} = .ok db' ∧ isEVMChain nb.chain = true ∧
        (∀ ec ∈ batchEvents nb, ec.be.signalled = false) ∧
        rollsBack (canonicalizeCursors nb) = false ∧ WithdrawalsKnown nb {} ∧
        ∀ ec ∈ batchEvents nb, isDeniedTx nb.chain nb.network ec.be.contractAddress
          ({} : Db).tokens = false := by decide +kernel
  refine ⟨nb, db', hnorm, hproc, (processBatch_denies_no_token_iff {} nb {} db' hevm hsig
    (fun _ _ _ hcache => nomatch hcache) hback hproc).mpr ⟨hknown, fun ec hec hden => ?_⟩⟩
  rw [hnone ec hec] at hden
  cases hden

/-- The same with the hashes exchanged. The deposit is still first on the chain, and the withdrawal
is walked over first: the token is denied and no event is stored. -/
theorem inAndOut_denied :
    ∃ nb db', Normalizer.processBatch (inAndOut "0x0b" "0x0a") (inAndOutBatch "0x0b" "0x0a") = .ok nb ∧
      (∀ ec ∈ batchEvents nb, ec.be.signalled = false) ∧
      CoveredInChain (fun txHash => if txHash = "0x0b" then 0 else 1) (fun _ => 0) nb {} ∧
      processBatch {} nb {} = .ok db' ∧
      isDeniedTx .ethereum .mainnet "0x70" ({} : Db).tokens = false ∧
      isDeniedTx .ethereum .mainnet "0x70" db'.tokens = true ∧
      (batchEvents nb).length = 2 ∧ db'.balanceEvents.rows.length = 0 := by
  simp only [exists_and_left]
  decide +kernel

end MultichainIndexer
