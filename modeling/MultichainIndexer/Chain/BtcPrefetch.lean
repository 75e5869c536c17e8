import MultichainIndexer.Chain.BtcResolve

/-!
# Where previous outputs come from

What the node knows about previous transactions is one thing, however it is told:
along with an input, in the prefetch, or in an answer of its own. That is what
decides each output, so neither the prefetch nor what the node sends along can be
seen in the envelopes.
-/

namespace MultichainIndexer

open Text

namespace BtcFetch

open Btc (canonicalTxID)

/-- What a node knows: the outputs of the transactions, with distinct indices. A transaction that
it finds under some spelling of the identity is the one of the canonical spelling. -/
structure Source where
  outputs : String → Option (List Vout)
  distinct : ∀ {txid vouts}, outputs txid = some vouts → (vouts.map Vout.n).Nodup
  spelled : ∀ {txid vouts}, outputs txid = some vouts → outputs (canonicalTxID txid) = some vouts

def Source.prevout (source : Source) : Known := fun txid n =>
  (source.outputs txid).bind fun vouts => outputAt vouts n

/-- An input that names an output and comes with one comes with that one. -/
def InlineAgrees (source : Source) (vin : Vin) : Prop :=
  ∀ prevout, vin.prevout = some prevout → vin.names = true →
    source.prevout (canonicalTxID vin.txid) vin.vout =
      some (resolvedPrevout prevout.value prevout.scriptPubKey)

/-- Each answer about a transaction agrees with what the node knows. The prefetch may leave out
transactions. -/
structure Client.Agrees (client : Client) (source : Source) : Prop where
  single : ∀ {txid n tx}, client.getRawTransactionVerbose txid n = .ok tx →
    tx.map (fun tx => tx.vout.filterMap id) = source.outputs txid
  batch : ∀ {txids txs}, client.getPreviousTransactions txids = .ok txs →
    ∀ entry ∈ txids.zip txs, ∀ tx, entry.2 = some tx →
      source.outputs entry.1 = some (tx.vout.filterMap id)
  inline : ∀ {txids txs}, client.getRawTransactionsVerbose txids = .ok txs →
    ∀ tx ∈ txs.filterMap id, ∀ vin ∈ tx.vin.filterMap id, InlineAgrees source vin

section Agrees
variable {source : Source} {client : Client}

theorem outputAt_of_mem {vouts : List Vout} (hdis : (vouts.map Vout.n).Nodup) {vout : Vout}
    (hmem : vout ∈ vouts) :
    outputAt vouts vout.n = some (resolvedPrevout vout.value vout.scriptPubKey) := by
  have hfind : vouts.find? (fun other => other.n = vout.n) = some vout := by
    obtain ⟨found, hfound⟩ := Option.isSome_iff_exists.mp (List.find?_isSome.mpr
      ⟨vout, hmem, by simp⟩ : (vouts.find? fun other => other.n = vout.n).isSome = true)
    have hn := List.find?_some hfound
    rw [decide_eq_true_eq] at hn
    rw [hfound, List.inj_on_of_nodup_map hdis (List.mem_of_find?_eq_some hfound) hmem hn]
  rw [outputAt, hfind]
  rfl

theorem fetchPrevout_agrees (hagr : client.Agrees source) {vin : Vin}
    (hinl : InlineAgrees source vin) (hnames : vin.names = true) {resolved : Option Resolved}
    (h : fetchPrevout client vin = .ok resolved) :
    resolved = source.prevout (canonicalTxID vin.txid) vin.vout := by
  unfold fetchPrevout at h
  split at h
  · rename_i prevout hpre
    cases h
    exact (hinl prevout hpre hnames).symm
  · split at h
    · cases h
    · rename_i hcli
      cases h
      have hout := hagr.single hcli
      rw [Source.prevout, ← hout]
      rfl
    · rename_i prevTx hcli
      cases h
      have hout := hagr.single hcli
      rw [Source.prevout, ← hout]
      rfl

theorem prefetchPrevouts_tells (hagr : client.Agrees source)
    (txs : List (Option Transaction)) :
    Tells source.prevout (prefetchPrevouts client txs []) := by
  intro txid n resolved hloo
  rw [prefetchPrevouts_eq] at hloo
  obtain ⟨pre, post, hsplit, _⟩ := List.lookup_eq_some_iff.mp hloo
  have hmem : (outpoint txid n, resolved) ∈ (batchOutputs client txs).reverse.map cacheEntry := by
    rw [hsplit]
    simp
  obtain ⟨⟨txid', vout⟩, hout, heq⟩ := List.mem_map.mp hmem
  obtain ⟨hkey, rfl⟩ := Prod.mk.inj heq
  obtain ⟨rfl, rfl⟩ := Btc.outpoint_inj hkey
  rw [List.mem_reverse, batchOutputs] at hout
  split at hout
  · cases hout
  · rename_i prevTxs hpre
    obtain ⟨entry, hentry, hout⟩ := List.mem_flatMap.mp hout
    unfold outputsOf at hout
    split at hout
    · cases hout
    · rename_i prevTx hpreT
      obtain ⟨vout', hvout, hpair⟩ := List.mem_map.mp hout
      obtain ⟨rfl, rfl⟩ := Prod.mk.inj hpair
      have houtp := hagr.batch hpre entry hentry prevTx hpreT
      rw [Source.prevout, source.spelled houtp]
      exact (outputAt_of_mem (source.distinct houtp) hvout).symm

theorem Client.Agrees.decides (hagr : client.Agrees source) {txids txids' : List String}
    {txs : List (Option Transaction)} (htxs : client.getRawTransactionsVerbose txids = .ok txs) :
    Decides client source.prevout ((entries txids' txs).flatMap Entry.naming)
      (prefetchPrevouts client txs []) := by
  refine ⟨prefetchPrevouts_tells hagr txs, fun vin hfirst _ resolved hfetch => ?_⟩
  obtain ⟨tx, htx, hvin, hnames⟩ := mem_entries_naming (List.mem_of_find?_eq_some hfirst)
  exact fetchPrevout_agrees hagr (hagr.inline htxs tx htx vin hvin) hnames hfetch

end Agrees

def Transaction.bare (tx : Transaction) : Transaction :=
  { tx with vin := tx.vin.map (Option.map fun vin => { vin with prevout := none }) }

def Entry.bare (entry : Entry) : Entry := { entry with tx := entry.tx.map Transaction.bare }

/-- Clients that answer alike but for previous outputs: which ones they send along, and which
transactions the prefetch brings. -/
structure Client.Alike (client client' : Client) : Prop where
  transactions : ∀ {txids txs txs'}, client.getRawTransactionsVerbose txids = .ok txs →
    client'.getRawTransactionsVerbose txids = .ok txs' →
    txs.map (Option.map Transaction.bare) = txs'.map (Option.map Transaction.bare)
  blocks : client'.getBlocks = client.getBlocks
  block : client'.getBlock = client.getBlock

section Alike
variable {known : Known} {client client' : Client}

theorem inputsBy_bare (known : Known) (vins : List (Option Vin)) :
    inputsBy known (vins.map (Option.map fun vin => { vin with prevout := none })).zipIdx =
      inputsBy known vins.zipIdx := by
  unfold inputsBy
  rw [List.zipIdx_map, List.filterMap_map]
  refine List.filterMap_congr fun entry _ => ?_
  obtain ⟨vin?, index⟩ := entry
  cases vin? with
  | none => rfl
  | some vin => rfl

theorem envelopesBy_bare (found : List Entry) (blocks : BlockCache) :
    envelopesBy known client (found.map Entry.bare) blocks =
      envelopesBy known client found blocks := by
  induction found generalizing blocks with
  | nil => rfl
  | cons entry found ih =>
    obtain ⟨index, txid, tx?⟩ := entry
    cases tx? with
    | none => rfl
    | some tx =>
      rw [List.map_cons, envelopesBy, envelopesBy]
      simp only [Entry.bare, Option.map_some, Transaction.bare, inputsBy_bare, ih]
      rfl

theorem entries_bare (txids : List String) (txs : List (Option Transaction)) :
    (entries txids txs).map Entry.bare = entries txids (txs.map (Option.map Transaction.bare)) := by
  unfold entries
  rw [List.zip_map_right, List.zipIdx_map, List.map_map, List.map_map]
  rfl

theorem prefetchBlocks_bare (hblo : client'.getBlocks = client.getBlocks)
    {txs txs' : List (Option Transaction)}
    (htxs : txs.map (Option.map Transaction.bare) = txs'.map (Option.map Transaction.bare)) :
    prefetchBlocks client txs = prefetchBlocks client' txs' := by
  have hhas : ∀ txs : List (Option Transaction),
      ((txs.filterMap id).map fun tx => canonicalTxID tx.blockhash) =
        ((txs.map (Option.map Transaction.bare)).filterMap id).map fun tx =>
          canonicalTxID tx.blockhash := by
    intro txs
    induction txs with
    | nil => rfl
    | cons tx txs ih =>
      cases tx with
      | none => exact ih
      | some tx => exact congrArg (canonicalTxID tx.blockhash :: ·) ih
  unfold prefetchBlocks
  rw [hhas txs, hhas txs', htxs, hblo]

theorem envelopesBy_block (hblock : client'.getBlock = client.getBlock) (found : List Entry)
    (blocks : BlockCache) :
    envelopesBy known client' found blocks = envelopesBy known client found blocks := by
  have hhei : blockHeight client' = blockHeight client := by
    funext index txid blockHash blocks
    unfold blockHeight
    rw [hblock]
  induction found generalizing blocks with
  | nil => rfl
  | cons entry found ih =>
    rw [envelopesBy, envelopesBy]
    simp only [hhei, ih]

/-- Whatever the node sends along with the inputs and whatever the prefetch brings, calls that
succeed return the same envelopes. -/
theorem fetchTransactions_prefetch_invisible (source : Source) (client client' : Client)
    (hagrees : client.Agrees source) (hagrees' : client'.Agrees source)
    (halike : client.Alike client') (signatures : List String) (envs envs' : List Envelope)
    (h : fetchTransactions client signatures = .ok envs)
    (h' : fetchTransactions client' signatures = .ok envs') : envs = envs' := by
  by_cases hne : signatures = []
  · rw [fetchTransactions, if_pos hne] at h h'
    cases h
    cases h'
    rfl
  · obtain ⟨txs, htxs, hby⟩ := fetchTransactions_decides hne h
    obtain ⟨txs', htxs', hby'⟩ := fetchTransactions_decides hne h'
    have henvs := hby _ (hagrees.decides htxs)
    have henvs' := hby' _ (hagrees'.decides htxs')
    have hbare := halike.transactions htxs htxs'
    rw [envelopesBy_block halike.block, ← envelopesBy_bare, entries_bare, ← hbare, ← entries_bare,
      envelopesBy_bare, ← prefetchBlocks_bare halike.blocks hbare, henvs] at henvs'
    exact Except.ok.inj henvs'

end Alike

section Sample

def twoOutputs : Source where
  outputs _ := some [⟨"1.0", 0, ⟨"bc1qpayer", []⟩⟩, ⟨"0.000000001", 1, ⟨"bc1qpayer", []⟩⟩]
  distinct := by
    intro txid vouts h
    cases h
    decide
  spelled h := h

def previous : Transaction where
  txid := "aa"
  vin := []
  vout := [some ⟨"1.0", 0, ⟨"bc1qpayer", []⟩⟩, some ⟨"0.000000001", 1, ⟨"bc1qpayer", []⟩⟩]

def nodeOf (vins : List Vin) (prefetch : Bool) : Client where
  getRawTransactionsVerbose _ := .ok [some { txid := "cc", vin := vins.map some, vout :=
    [some ⟨"0.4", 0, ⟨"bc1qshop", []⟩⟩] }]
  getPreviousTransactions txids := if prefetch then .ok (txids.map fun _ => some previous)
    else .error "unavailable"
  getRawTransactionVerbose _ _ := .ok (some previous)
  getBlocks _ := .ok []
  getBlock _ _ := .ok none

theorem nodeOf_agrees (vins : List Vin) (prefetch : Bool)
    (hinl : ∀ vin ∈ vins, InlineAgrees twoOutputs vin) :
    (nodeOf vins prefetch).Agrees twoOutputs := by
  refine ⟨?_, ?_, ?_⟩
  · intro txid n tx h
    cases h
    rfl
  · intro txids txs h entry hentry tx htx
    cases prefetch with
    | false => cases h
    | true =>
      cases h
      obtain ⟨_, hmem⟩ := List.of_mem_zip hentry
      obtain ⟨txid, _, hpre⟩ := List.mem_map.mp hmem
      rw [← hpre] at htx
      cases htx
      rfl
  · intro txids txs h tx htx vin hvin
    cases h
    obtain rfl := List.mem_singleton.mp htx
    refine hinl vin ?_
    simpa using hvin

def bareVin : Vin := { txid := "aa", vout := 0 }

def inlineVin : Vin := { bareVin with prevout := some ⟨"1.0", ⟨"bc1qpayer", []⟩⟩ }

theorem inlineVin_agrees : InlineAgrees twoOutputs inlineVin := by
  intro prevout hpre _
  cases hpre
  rfl

theorem fetchTransactions_prefetch_invisible_sample :
    (fetchTransactions (nodeOf [inlineVin] false) ["cc"]).toOption.isSome = true ∧
    (fetchTransactions (nodeOf [bareVin] true) ["cc"]).toOption.isSome = true ∧
    ∀ envs envs', fetchTransactions (nodeOf [inlineVin] false) ["cc"] = .ok envs →
      fetchTransactions (nodeOf [bareVin] true) ["cc"] = .ok envs' → envs = envs' := by
  have hinl : (nodeOf [inlineVin] false).Agrees twoOutputs := by
    refine nodeOf_agrees _ _ fun vin hvin => ?_
    rw [List.mem_singleton.mp hvin]
    exact inlineVin_agrees
  have hbare : (nodeOf [bareVin] true).Agrees twoOutputs := by
    refine nodeOf_agrees _ _ fun vin hvin prevout hpre => ?_
    rw [List.mem_singleton.mp hvin] at hpre
    cases hpre
  have halike : (nodeOf [inlineVin] false).Alike (nodeOf [bareVin] true) := by
    refine ⟨?_, rfl, rfl⟩
    intro txids txs txs' htxs htxs'
    cases htxs
    cases htxs'
    rfl
  exact ⟨by decide +kernel, by decide +kernel, fun envs envs' h h' =>
    fetchTransactions_prefetch_invisible twoOutputs _ _ hinl hbare halike ["cc"] envs envs' h h'⟩

end Sample

end BtcFetch

end MultichainIndexer
