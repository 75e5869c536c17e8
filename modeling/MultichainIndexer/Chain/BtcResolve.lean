import MultichainIndexer.Chain.BtcFetch
import MultichainIndexer.Chain.BtcFound

/-!
# What decides a previous output

The cache is shared by all inputs of a call. An output that is in it is decided; any
other is decided by what the node says at the first input that names it. The
envelopes are those that come from looking each output up in what was decided.
-/

namespace MultichainIndexer

open Text

namespace BtcFetch

open Btc (canonicalTxID)

abbrev Known := String → Int → Option Resolved

section Known
variable (known : Known)

def spentBy (vin : Vin) : Option Resolved :=
  if canonicalTxID vin.txid = "" ∨ vin.vout < 0 then none
  else known (canonicalTxID vin.txid) vin.vout

def inputBy (index : Nat) (vin : Vin) : Input where
  index := index
  txid := canonicalTxID vin.txid
  vout := vin.vout
  coinbase := trimSpace vin.coinbase ≠ ""
  prevout := if trimSpace vin.coinbase ≠ "" then none else spentBy known vin

def inputsBy (vins : List (Option Vin × Nat)) : List Input :=
  vins.filterMap fun entry => entry.1.map (inputBy known entry.2)

def envelopesBy (client : Client) : List Entry → BlockCache → Except String (List Envelope)
  | [], _ => .ok []
  | entry :: rest, blocks =>
    match entry.tx with
    | none => .error ("transaction " ++ entry.txid ++ " not found")
    | some tx => do
      let (height, blocks) ← blockHeight client entry.index entry.txid (canonicalTxID tx.blockhash)
        blocks
      let env ← envelope entry.txid tx height (inputsBy known tx.vin.zipIdx)
      let envs ← envelopesBy client rest blocks
      return env :: envs

end Known

def Tells (known : Known) (cache : PrevoutCache) : Prop :=
  ∀ txid n resolved, cache.lookup (outpoint txid n) = some resolved → resolved = known txid n

def Vin.outpoint (vin : Vin) : String := BtcFetch.outpoint (canonicalTxID vin.txid) vin.vout

def Vin.names (vin : Vin) : Bool :=
  trimSpace vin.coinbase = "" && canonicalTxID vin.txid ≠ "" && 0 ≤ vin.vout

def naming (vins : List (Option Vin)) : List Vin := (vins.filterMap id).filter Vin.names

def Entry.naming (entry : Entry) : List Vin :=
  match entry.tx with
  | none => []
  | some tx => BtcFetch.naming tx.vin

/-- The cache holds what is known, and so does what the node says at the first input of an output
that is not in the cache. -/
structure Decides (client : Client) (known : Known) (vins : List Vin) (cache : PrevoutCache) :
    Prop where
  cached : Tells known cache
  first : ∀ vin, vins.find? (fun other => other.outpoint = vin.outpoint) = some vin →
    cache.lookup vin.outpoint = none → ∀ resolved, fetchPrevout client vin = .ok resolved →
    resolved = known (canonicalTxID vin.txid) vin.vout

section Cache
variable {known : Known} {client : Client} {cache : PrevoutCache} {vins : List Vin} {vin : Vin}

theorem Tells.cons (h : Tells known cache) {txid : String} {n : Int} {resolved : Option Resolved}
    (hnew : resolved = known txid n) : Tells known ((outpoint txid n, resolved) :: cache) := by
  intro txid' n' resolved' hloo
  rw [List.lookup_cons] at hloo
  split at hloo
  · rename_i hkey
    obtain ⟨rfl, rfl⟩ := Btc.outpoint_inj (eq_of_beq hkey)
    cases hloo
    exact hnew
  · exact h txid' n' resolved' hloo

theorem find?_outpoint_cons {other : Vin} (hne : vin.outpoint ≠ other.outpoint)
    (h : vins.find? (fun v => v.outpoint = other.outpoint) = some other) :
    (vin :: vins).find? (fun v => v.outpoint = other.outpoint) = some other := by
  rw [List.find?_cons_of_neg (by simpa using hne), h]

theorem resolveInputPrevout_decides (hdec : Decides client known (vin :: vins) cache)
    (hname : canonicalTxID vin.txid ≠ "" ∧ 0 ≤ vin.vout) {resolved : Option Resolved}
    {cache' : PrevoutCache} (h : resolveInputPrevout client vin cache = .ok (resolved, cache')) :
    resolved = known (canonicalTxID vin.txid) vin.vout ∧ Decides client known vins cache' := by
  rw [resolveInputPrevout, if_neg (not_or.mpr ⟨hname.1, not_lt.mpr hname.2⟩)] at h
  split at h
  · rename_i cached hloo
    cases h
    refine ⟨hdec.cached _ _ _ hloo, hdec.cached, fun other hfirst hnone => ?_⟩
    refine hdec.first other (find?_outpoint_cons ?_ hfirst) hnone
    intro heq
    rw [← heq, Vin.outpoint, hloo] at hnone
    cases hnone
  · rename_i hloo
    obtain ⟨found, hfound, heq⟩ := Result.map_ok h
    cases heq
    have hhead : (vin :: vins).find? (fun other => other.outpoint = vin.outpoint) = some vin :=
      List.find?_cons_of_pos (by simp)
    have hknown := hdec.first vin hhead hloo resolved hfound
    refine ⟨hknown, hdec.cached.cons hknown, fun other hfirst hnone => ?_⟩
    rw [List.lookup_cons] at hnone
    split at hnone
    · cases hnone
    · rename_i hkey
      refine hdec.first other (find?_outpoint_cons ?_ hfirst) hnone
      intro heq
      rw [← heq, Vin.outpoint, beq_self_eq_true] at hkey
      cases hkey

end Cache

section Fetch
variable {known : Known} {client : Client}

theorem resolveInput_decides {txid : String} {vin : Vin} {index : Nat} {more : List Vin}
    {cache cache' : PrevoutCache} {input : Input}
    (hdec : Decides client known (naming [some vin] ++ more) cache)
    (h : resolveInput client txid vin index cache = .ok (input, cache')) :
    input = inputBy known index vin ∧ Decides client known more cache' := by
  unfold resolveInput at h
  unfold inputBy
  split_ifs at h with hcoi
  · have hnone : naming [some vin] = [] := by simp [naming, Vin.names, hcoi]
    cases h
    rw [hnone] at hdec
    rw [if_pos hcoi, decide_eq_true hcoi]
    exact ⟨rfl, hdec⟩
  · rw [if_neg hcoi, decide_eq_false hcoi]
    rw [not_not] at hcoi
    split at h
    · cases h
    · rename_i prevout cache₁ hres
      cases h
      by_cases hname : canonicalTxID vin.txid = "" ∨ vin.vout < 0
      · have hnone : naming [some vin] = [] := by
          rcases hname with hname | hname
          · simp [naming, Vin.names, hname]
          · simp [naming, Vin.names, not_le.mpr hname]
        rw [resolveInputPrevout, if_pos hname] at hres
        cases hres
        rw [hnone] at hdec
        rw [spentBy, if_pos hname]
        exact ⟨rfl, hdec⟩
      · have hnames : canonicalTxID vin.txid ≠ "" ∧ 0 ≤ vin.vout := by
          rw [not_or, not_lt] at hname
          exact hname
        have hone : naming [some vin] = [vin] := by
          simp [naming, Vin.names, hcoi, hnames.1, hnames.2]
        rw [hone] at hdec
        obtain ⟨hpre, hrest⟩ := resolveInputPrevout_decides hdec hnames hres
        rw [spentBy, if_neg hname, hpre]
        exact ⟨rfl, hrest⟩

theorem naming_cons (vin? : Option Vin) (vins : List (Option Vin)) :
    naming (vin? :: vins) = naming [vin?] ++ naming vins := by
  rw [naming, ← List.singleton_append, List.filterMap_append, List.filter_append]
  rfl

theorem resolveInputs_decides {txid : String} {vins : List (Option Vin × Nat)} {more : List Vin}
    {cache cache' : PrevoutCache} {inputs : List Input}
    (hdec : Decides client known (naming (vins.map Prod.fst) ++ more) cache)
    (h : resolveInputs client txid vins cache = .ok (inputs, cache')) :
    inputs = inputsBy known vins ∧ Decides client known more cache' := by
  induction vins generalizing cache inputs with
  | nil =>
    cases h
    exact ⟨rfl, hdec⟩
  | cons entry vins ih =>
    obtain ⟨vin?, index⟩ := entry
    rw [List.map_cons, naming_cons, List.append_assoc] at hdec
    cases vin? with
    | none => exact ih hdec h
    | some vin =>
      rw [resolveInputs] at h
      obtain ⟨⟨input, cache₁⟩, hinput, hoth⟩ := Result.bind_ok h
      obtain ⟨⟨inputs₁, cache₂⟩, hinp, heq⟩ := Result.bind_ok hoth
      cases heq
      obtain ⟨hfirst, hdecides₁⟩ := resolveInput_decides hdec hinput
      obtain ⟨hall, hdecides₂⟩ := ih hdecides₁ hinp
      refine ⟨?_, hdecides₂⟩
      rw [hfirst, hall]
      rfl

theorem fetchEntries_decides {found : List Entry} {prevouts : PrevoutCache} {blocks : BlockCache}
    {envs : List Envelope}
    (hdec : Decides client known (found.flatMap Entry.naming) prevouts)
    (h : fetchEntries client found prevouts blocks = .ok envs) :
    envelopesBy known client found blocks = .ok envs := by
  induction found generalizing prevouts blocks envs with
  | nil => exact h
  | cons entry found ih =>
    rw [fetchEntries] at h
    rw [envelopesBy]
    cases htx : entry.tx with
    | none =>
      rw [htx] at h
      cases h
    | some tx =>
      rw [htx] at h
      obtain ⟨⟨height, blocks'⟩, hhei, hafter⟩ := Result.bind_ok h
      obtain ⟨⟨inputs, prevouts'⟩, hinp, hbuilt⟩ := Result.bind_ok hafter
      obtain ⟨env, henv, hoth⟩ := Result.bind_ok hbuilt
      obtain ⟨envs', henvs, hall⟩ := Result.bind_ok hoth
      have hnam : entry.naming = naming (tx.vin.zipIdx.map Prod.fst) := by
        simp [Entry.naming, htx]
      rw [List.flatMap_cons, hnam] at hdec
      obtain ⟨rfl, hrest⟩ := resolveInputs_decides hdec hinp
      dsimp only
      rw [hhei]
      show (envelope _ _ _ _ >>= _) = _
      rw [henv]
      rw [ih hrest henvs]
      exact hall

/-- A call that succeeds returns the envelopes from what was decided. -/
theorem fetchTransactions_decides {signatures : List String} {envs : List Envelope}
    (hne : signatures ≠ []) (h : fetchTransactions client signatures = .ok envs) :
    ∃ txs, client.getRawTransactionsVerbose (signatures.map canonicalTxID) = .ok txs ∧
      ∀ known, Decides client known
        ((entries (signatures.map canonicalTxID) txs).flatMap Entry.naming)
        (prefetchPrevouts client txs []) →
      envelopesBy known client (entries (signatures.map canonicalTxID) txs)
        (prefetchBlocks client txs) = .ok envs := by
  unfold fetchTransactions at h
  rw [if_neg hne] at h
  split at h
  · cases h
  · split at h
    · cases h
    · rename_i txs htxs
      exact ⟨txs, htxs, fun known hdec => fetchEntries_decides hdec h⟩

theorem mem_entries_naming {txids : List String} {txs : List (Option Transaction)} {vin : Vin}
    (h : vin ∈ (entries txids txs).flatMap Entry.naming) :
    ∃ tx ∈ txs.filterMap id, vin ∈ tx.vin.filterMap id ∧ vin.names = true := by
  obtain ⟨entry, hentry, hvin⟩ := List.mem_flatMap.mp h
  obtain ⟨pair, hpair, rfl⟩ := List.mem_map.mp hentry
  unfold Entry.naming at hvin
  split at hvin
  · cases hvin
  · rename_i tx htx
    obtain ⟨hmem, hnames⟩ := List.mem_filter.mp hvin
    refine ⟨tx, List.mem_filterMap.mpr ⟨some tx, ?_, rfl⟩, hmem, hnames⟩
    rw [← htx]
    exact (List.of_mem_zip (List.fst_mem_of_mem_zipIdx hpair)).2

end Fetch

/-! ## The outputs of the prefetch -/

def outputsOf (entry : String × Option Transaction) : List (String × Vout) :=
  match entry.2 with
  | none => []
  | some prevTx => (prevTx.vout.filterMap id).map fun vout => (canonicalTxID entry.1, vout)

def batchOutputs (client : Client) (txs : List (Option Transaction)) : List (String × Vout) :=
  match client.getPreviousTransactions (missingTxIDs txs []) with
  | .error _ => []
  | .ok prevTxs => ((missingTxIDs txs []).zip prevTxs).flatMap outputsOf

def cacheEntry (output : String × Vout) : String × Option Resolved :=
  (outpoint output.1 output.2.n, some (resolvedPrevout output.2.value output.2.scriptPubKey))

theorem cacheOutputs_eq (cache : PrevoutCache) (entry : String × Option Transaction) :
    cacheOutputs cache entry = (outputsOf entry).reverse.map cacheEntry ++ cache := by
  obtain ⟨txid, tx?⟩ := entry
  cases tx? with
  | none => rfl
  | some prevTx =>
    simp only [cacheOutputs, outputsOf]
    generalize prevTx.vout.filterMap id = vouts
    induction vouts generalizing cache with
    | nil => rfl
    | cons vout vouts ih =>
      rw [List.foldl_cons, ih]
      simp [cacheEntry]

theorem foldl_cacheOutputs_eq (found : List (String × Option Transaction)) (cache : PrevoutCache) :
    found.foldl cacheOutputs cache = (found.flatMap outputsOf).reverse.map cacheEntry ++ cache := by
  induction found generalizing cache with
  | nil => rfl
  | cons entry found ih =>
    rw [List.foldl_cons, ih, cacheOutputs_eq, List.flatMap_cons, List.reverse_append,
      List.map_append, List.append_assoc]

theorem prefetchPrevouts_eq (client : Client) (txs : List (Option Transaction)) :
    prefetchPrevouts client txs [] = (batchOutputs client txs).reverse.map cacheEntry := by
  unfold prefetchPrevouts batchOutputs
  split_ifs with hnone
  · rw [hnone]
    cases client.getPreviousTransactions [] with
    | error e => rfl
    | ok prevTxs => rfl
  · cases client.getPreviousTransactions (missingTxIDs txs []) with
    | error e => rfl
    | ok prevTxs => exact (foldl_cacheOutputs_eq _ _).trans (List.append_nil _)

end BtcFetch

end MultichainIndexer
