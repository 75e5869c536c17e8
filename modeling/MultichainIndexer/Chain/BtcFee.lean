import MultichainIndexer.Chain.BtcResolve
import Mathlib.Algebra.Ring.Int.Defs

/-!
# Fees of Bitcoin envelopes

The fee of an envelope is what the resolved inputs leave over. An input that was
not found adds nothing and one whose amount cannot be read adds zero, but the fee
is withheld only if the inputs do not cover the outputs. So the fee of a transaction
with an unknown input is too small as soon as the known ones cover the outputs and
more. The answers of the node about one output may differ; which one counts is
`told`.
-/

namespace MultichainIndexer

open Text

namespace BtcFetch

open Btc (canonicalTxID)

/-- What the node says about an output at an input that names it. -/
def toldAt (client : Client) (vin : Vin) : Option Prevout :=
  match vin.prevout with
  | some prevout => some prevout
  | none =>
    match client.getRawTransactionVerbose (canonicalTxID vin.txid) vin.vout with
    | .ok (some prevTx) => ((prevTx.vout.filterMap id).find? fun vout => vout.n = vin.vout).map
        fun vout => ⟨vout.value, vout.scriptPubKey⟩
    | _ => none

/-- The answer that counts for an output: the last one of the prefetch, or else the one at the first
input that names the output. -/
def told (client : Client) (txs : List (Option Transaction)) (vins : List Vin) (txid : String)
    (n : Int) : Option Prevout :=
  match (batchOutputs client txs).reverse.find? (fun output => outpoint output.1 output.2.n =
      outpoint txid n) with
  | some output => some ⟨output.2.value, output.2.scriptPubKey⟩
  | none => (vins.find? fun vin => vin.outpoint = outpoint txid n).bind (toldAt client)

def toldKnown (client : Client) (txs : List (Option Transaction)) (vins : List Vin) : Known :=
  fun txid n => (told client txs vins txid n).map fun prevout =>
    resolvedPrevout prevout.value prevout.scriptPubKey

def amount (value : String) : Option Int :=
  if trimSpace value = "" then none else (parseBTCValueToSatoshi value).toOption

def Transaction.spends (tx : Transaction) : List Vin :=
  (tx.vin.filterMap id).filter fun vin => trimSpace vin.coinbase = ""

def Transaction.out (tx : Transaction) : Int :=
  ((tx.vout.filterMap id).map fun vout => satOrZero vout.value).sum

/-- The true values of outputs, in satoshis. -/
abbrev Truth := String → Int → Nat

def Truth.of (truth : Truth) (vin : Vin) : Int := truth (canonicalTxID vin.txid) vin.vout

def Truth.trueIn (truth : Truth) (tx : Transaction) : Int := (tx.spends.map truth.of).sum

/-- A fee comes only with inputs that are all resolved with their true value, and is the difference
of the sums. -/
def FeeKnown (truth : Truth) (tx : Transaction) (env : Envelope) : Prop :=
  env.feeSat ≠ "0" →
    (∀ (i : Nat) vin, tx.vin[i]? = some (some vin) → trimSpace vin.coinbase = "" →
      ∃ input ∈ env.vin, input.index = i ∧ input.valueSat = toString (truth.of vin)) ∧
    env.feeSat = toString (truth.trueIn tx - tx.out)

section Sums

theorem wrap64_add_wrap64 (a b : Int) : wrap64 (wrap64 a + b) = wrap64 (a + b) := by
  unfold wrap64
  omega

theorem total_eq {values : List Int} (h : IsInt64 values.sum) : total values = values.sum := by
  have hfold : ∀ (values : List Int) (start : Int),
      values.foldl (fun sum value => wrap64 (sum + value)) (wrap64 start) =
        wrap64 (start + values.sum) := by
    intro values
    induction values with
    | nil => simp
    | cons value values ih =>
      intro start
      rw [List.foldl_cons, wrap64_add_wrap64, ih, List.sum_cons, Int.add_assoc]
  have hzero : wrap64 0 = 0 := by decide
  have hsum := hfold values 0
  rw [hzero, Int.zero_add, wrap64_of_isInt64 h] at hsum
  exact hsum

theorem feeSat_eq {totalIn totalOut : Int} (hin : IsInt64 totalIn) (hout : 0 ≤ totalOut) :
    feeSat totalIn totalOut =
      if 0 < totalIn ∧ totalOut ≤ totalIn then totalIn - totalOut else 0 := by
  unfold feeSat
  split_ifs with hcover
  · refine wrap64_of_isInt64 ?_
    unfold IsInt64 at hin ⊢
    omega
  · rfl

end Sums

section Told
variable {client : Client} {txs : List (Option Transaction)} {vins : List Vin}

theorem fetchPrevout_toldAt {vin : Vin} {resolved : Option Resolved}
    (h : fetchPrevout client vin = .ok resolved) :
    resolved = (toldAt client vin).map fun prevout =>
      resolvedPrevout prevout.value prevout.scriptPubKey := by
  unfold fetchPrevout at h
  unfold toldAt
  cases hpre : vin.prevout with
  | some prevout =>
    rw [hpre] at h
    cases h
    rfl
  | none =>
    rw [hpre] at h
    cases hcli : client.getRawTransactionVerbose (canonicalTxID vin.txid) vin.vout with
    | error e =>
      rw [hcli] at h
      cases h
    | ok tx? =>
      rw [hcli] at h
      cases tx? with
      | none =>
        cases h
        rfl
      | some prevTx =>
        cases h
        simp only [outputAt, Option.map_map]
        rfl

theorem lookup_cacheEntry (outputs : List (String × Vout)) (key : String) :
    (outputs.map cacheEntry).lookup key =
      (outputs.find? fun output => outpoint output.1 output.2.n = key).map fun output =>
        some (resolvedPrevout output.2.value output.2.scriptPubKey) := by
  induction outputs with
  | nil => rfl
  | cons output outputs ih =>
    rw [List.map_cons, cacheEntry, List.lookup_cons]
    by_cases hkey : outpoint output.1 output.2.n = key
    · rw [List.find?_cons_of_pos (by simpa using hkey), hkey, beq_self_eq_true]
      rfl
    · have hbeq : (key == outpoint output.1 output.2.n) = false :=
        beq_false_of_ne fun heq => hkey heq.symm
      rw [List.find?_cons_of_neg (by simpa using hkey), hbeq]
      exact ih

theorem toldKnown_decides (client : Client) (txs : List (Option Transaction)) (vins : List Vin) :
    Decides client (toldKnown client txs vins) vins (prefetchPrevouts client txs []) := by
  rw [prefetchPrevouts_eq]
  refine ⟨fun txid n resolved hloo => ?_, fun vin hfirst hnone resolved hfetch => ?_⟩
  · rw [lookup_cacheEntry] at hloo
    obtain ⟨output, hfind, rfl⟩ := Option.map_eq_some_iff.mp hloo
    rw [toldKnown, told, hfind]
    rfl
  · rw [lookup_cacheEntry, Option.map_eq_none_iff] at hnone
    rw [fetchPrevout_toldAt hfetch, toldKnown, told]
    rw [Vin.outpoint] at hnone hfirst
    rw [hnone]
    simp only [hfirst, Option.bind_some]

end Told

def toldFor (client : Client) (txs : List (Option Transaction)) (vins : List Vin) (vin : Vin) :
    Option Prevout :=
  if canonicalTxID vin.txid = "" ∨ vin.vout < 0 then none
  else told client txs vins (canonicalTxID vin.txid) vin.vout

/-- Every amount that can be read is true. -/
structure Client.Honest (client : Client) (truth : Truth) : Prop where
  inline : ∀ {txids txs}, client.getRawTransactionsVerbose txids = .ok txs →
    ∀ tx ∈ txs.filterMap id, ∀ vin ∈ tx.vin.filterMap id, ∀ prevout, vin.prevout = some prevout →
      ∀ value, amount prevout.value = some value → value = truth.of vin
  batch : ∀ {txids txs}, client.getPreviousTransactions txids = .ok txs →
    ∀ entry ∈ txids.zip txs, ∀ tx, entry.2 = some tx → ∀ vout ∈ tx.vout.filterMap id,
      ∀ value, amount vout.value = some value → value = truth (canonicalTxID entry.1) vout.n
  single : ∀ {txid n tx}, client.getRawTransactionVerbose txid n = .ok (some tx) →
    ∀ vout ∈ tx.vout.filterMap id, ∀ value, amount vout.value = some value →
      value = truth txid vout.n

section Honest
variable {client : Client} {truth : Truth} {txs : List (Option Transaction)} {txids : List String}

theorem told_honest (hhon : client.Honest truth)
    (htxs : client.getRawTransactionsVerbose txids = .ok txs) {txids' : List String}
    {txid : String} {n : Int} {prevout : Prevout}
    (h : told client txs ((entries txids' txs).flatMap Entry.naming) txid n = some prevout)
    {value : Int} (hvalue : amount prevout.value = some value) : value = truth txid n := by
  unfold told at h
  split at h
  · rename_i output hfind
    cases h
    have hkey := List.find?_some hfind
    rw [decide_eq_true_eq] at hkey
    obtain ⟨rfl, rfl⟩ := Btc.outpoint_inj hkey
    have hmem := List.mem_of_find?_eq_some hfind
    rw [List.mem_reverse, batchOutputs] at hmem
    split at hmem
    · cases hmem
    · rename_i prevTxs hpre
      obtain ⟨entry, hentry, hout⟩ := List.mem_flatMap.mp hmem
      unfold outputsOf at hout
      split at hout
      · cases hout
      · rename_i prevTx hpreT
        obtain ⟨vout, hvout, rfl⟩ := List.mem_map.mp hout
        exact hhon.batch hpre entry hentry prevTx hpreT vout hvout value hvalue
  · obtain ⟨vin, hfind, htold⟩ := Option.bind_eq_some_iff.mp h
    have hkey := List.find?_some hfind
    rw [decide_eq_true_eq] at hkey
    obtain ⟨rfl, rfl⟩ := Btc.outpoint_inj hkey
    obtain ⟨tx, htx, hvin, _⟩ := mem_entries_naming (List.mem_of_find?_eq_some hfind)
    unfold toldAt at htold
    split at htold
    · rename_i inline hinl
      cases htold
      exact hhon.inline htxs tx htx vin hvin prevout hinl value hvalue
    · split at htold
      · rename_i prevTx hsin
        obtain ⟨vout, hvout, rfl⟩ := Option.map_eq_some_iff.mp htold
        have hn := List.find?_some hvout
        rw [decide_eq_true_eq] at hn
        rw [hhon.single hsin vout (List.mem_of_find?_eq_some hvout) value hvalue, hn]
      · cases htold

end Honest

section Fee
variable {truth : Truth} {tx : Transaction} {env : Envelope} (tells : Vin → Option Prevout)

def readableIn (tx : Transaction) : Int :=
  (tx.spends.map fun vin => ((tells vin).bind fun prevout => amount prevout.value).getD 0).sum

/-- Every input comes with an amount that can be read, or is worth nothing; or those that can be
read do not exceed the outputs. -/
def Covered (truth : Truth) (tx : Transaction) : Prop :=
  (∀ vin ∈ tx.spends, ∃ prevout, tells vin = some prevout ∧
    (amount prevout.value ≠ none ∨ truth.of vin = 0)) ∨
  ¬ (0 < readableIn tells tx ∧ tx.out < readableIn tells tx)

def TellsTrue (truth : Truth) (tx : Transaction) : Prop :=
  ∀ vin ∈ tx.spends, ∀ prevout, tells vin = some prevout → ∀ value,
    amount prevout.value = some value → value = truth.of vin

variable {tells}

theorem satOrZero_eq (value : String) : satOrZero value = (amount value).getD 0 := by
  unfold satOrZero amount
  split_ifs with hempty
  · rw [parseBTCValueToSatoshi]
    simp only [hempty, if_true]
    rfl
  · rfl

theorem readable_cases (htrue : TellsTrue tells truth tx) {vin : Vin} (hvin : vin ∈ tx.spends) :
    ((tells vin).bind fun prevout => amount prevout.value) = none ∨
      ((tells vin).bind fun prevout => amount prevout.value) = some (truth.of vin) := by
  cases htold : tells vin with
  | none => exact .inl rfl
  | some prevout =>
    rw [Option.bind_some]
    cases hamo : amount prevout.value with
    | none => exact .inl rfl
    | some value => exact .inr (congrArg some (htrue vin hvin prevout htold value hamo))

theorem readableIn_bounds (htrue : TellsTrue tells truth tx) :
    0 ≤ readableIn tells tx ∧ readableIn tells tx ≤ truth.trueIn tx := by
  have hall : ∀ vins : List Vin, (∀ vin ∈ vins, vin ∈ tx.spends) →
      0 ≤ (vins.map fun vin => ((tells vin).bind fun prevout =>
        amount prevout.value).getD 0).sum ∧
      (vins.map fun vin => ((tells vin).bind fun prevout => amount prevout.value).getD 0).sum ≤
        (vins.map truth.of).sum := by
    intro vins
    induction vins with
    | nil => exact fun _ => ⟨Int.le_refl 0, Int.le_refl 0⟩
    | cons vin vins ih =>
      intro hsub
      obtain ⟨hlo, hhi⟩ := ih (List.forall_mem_cons.mp hsub).2
      have hpos : 0 ≤ truth.of vin := Int.natCast_nonneg _
      simp only [List.map_cons, List.sum_cons]
      rcases readable_cases htrue (hsub vin List.mem_cons_self) with hnone | hsome
      · rw [hnone, Option.getD_none]
        omega
      · rw [hsome, Option.getD_some]
        omega
  exact hall tx.spends fun _ hvin => hvin

theorem readableIn_eq (htrue : TellsTrue tells truth tx)
    (hall : ∀ vin ∈ tx.spends, ∃ prevout, tells vin = some prevout ∧
      (amount prevout.value ≠ none ∨ truth.of vin = 0)) :
    readableIn tells tx = truth.trueIn tx := by
  refine congrArg List.sum (List.map_congr_left fun vin hvin => ?_)
  obtain ⟨prevout, htold, hvalue⟩ := hall vin hvin
  rcases readable_cases htrue hvin with hnone | hsome
  · rw [hnone, Option.getD_none]
    rw [htold, Option.bind_some] at hnone
    exact (hvalue.resolve_left (not_not.mpr hnone)).symm
  · rw [hsome, Option.getD_some]

end Fee

section Envelope
variable {known : Known} {tells : Vin → Option Prevout} {truth : Truth} {tx : Transaction}
variable {env : Envelope}

def ComesFrom (known : Known) (tells : Vin → Option Prevout) : Prop :=
  ∀ vin, spentBy known vin = (tells vin).map fun prevout =>
    resolvedPrevout prevout.value prevout.scriptPubKey

theorem ComesFrom.value (h : ComesFrom known tells) (vin : Vin) :
    ((spentBy known vin).map Resolved.valueSat).getD 0 =
      ((tells vin).bind fun prevout => amount prevout.value).getD 0 := by
  rw [h vin]
  cases tells vin with
  | none => rfl
  | some prevout => exact satOrZero_eq prevout.value

theorem inputValues_sum (h : ComesFrom known tells) (tx : Transaction) :
    (inputValues (inputsBy known tx.vin.zipIdx)).sum = readableIn tells tx := by
  have hall : ∀ (vins : List (Option Vin)) (start : Nat),
      (inputValues (inputsBy known (vins.zipIdx start))).sum =
        (((vins.filterMap id).filter fun vin => trimSpace vin.coinbase = "").map fun vin =>
          ((tells vin).bind fun prevout => amount prevout.value).getD 0).sum := by
    intro vins
    induction vins with
    | nil => exact fun _ => rfl
    | cons vin? vins ih =>
      intro start
      cases vin? with
      | none => exact ih (start + 1)
      | some vin =>
        have hinp : inputsBy known ((some vin :: vins).zipIdx start) =
            inputBy known start vin :: inputsBy known (vins.zipIdx (start + 1)) := rfl
        have hsome : ((some vin :: vins).filterMap id : List Vin) = vin :: vins.filterMap id := rfl
        rw [hinp, hsome]
        by_cases hcoi : trimSpace vin.coinbase = ""
        · have hpre : (inputBy known start vin).prevout = spentBy known vin :=
            if_neg (not_not.mpr hcoi)
          rw [List.filter_cons_of_pos (by simpa using hcoi), List.map_cons, List.sum_cons,
            ← ih (start + 1), ← h.value vin]
          cases hspent : spentBy known vin with
          | none =>
            rw [hspent] at hpre
            simp [inputValues, hpre]
          | some resolved =>
            rw [hspent] at hpre
            simp [inputValues, hpre]
        · have hpre : (inputBy known start vin).prevout = none := if_pos hcoi
          rw [List.filter_cons_of_neg (by simpa using hcoi), ← ih (start + 1)]
          simp [inputValues, hpre]
  exact hall tx.vin 0

theorem mem_inputsBy {i : Nat} {input : Input} :
    input ∈ inputsBy known tx.vin.zipIdx ∧ input.index = i ↔
      ∃ vin, tx.vin[i]? = some (some vin) ∧ input = inputBy known i vin := by
  constructor
  · rintro ⟨hmem, rfl⟩
    obtain ⟨⟨vin?, index⟩, hentry, hinput⟩ := List.mem_filterMap.mp hmem
    obtain ⟨vin, rfl, rfl⟩ := Option.map_eq_some_iff.mp hinput
    exact ⟨vin, List.mem_zipIdx_iff_getElem?.mp hentry, rfl⟩
  · rintro ⟨vin, hvin, rfl⟩
    refine ⟨List.mem_filterMap.mpr ⟨(some vin, i), ?_, rfl⟩, rfl⟩
    exact List.mem_zipIdx_iff_getElem?.mpr hvin

/-- An input is shown with its true value exactly if it was told with it. -/
theorem shown_iff (h : ComesFrom known tells) (htrue : TellsTrue tells truth tx) {i : Nat} {vin : Vin}
    (hvin : tx.vin[i]? = some (some vin)) (hspe : trimSpace vin.coinbase = "") :
    (∃ input ∈ (inputsBy known tx.vin.zipIdx).map Input.envelopeIn, input.index = i ∧
      input.valueSat = toString (truth.of vin)) ↔
    ∃ prevout, tells vin = some prevout ∧ (amount prevout.value ≠ none ∨ truth.of vin = 0) := by
  have hmem : vin ∈ tx.spends := by
    refine List.mem_filter.mpr ⟨List.mem_filterMap.mpr ⟨some vin, ?_, rfl⟩, by simpa using hspe⟩
    exact List.mem_of_getElem? hvin
  have hpre : (inputBy known i vin).prevout = (tells vin).map fun prevout =>
      resolvedPrevout prevout.value prevout.scriptPubKey := by
    rw [← h vin]
    exact if_neg (not_not.mpr hspe)
  constructor
  · rintro ⟨shown, hshown, hindex, hvalue⟩
    obtain ⟨input, hinput, rfl⟩ := List.mem_map.mp hshown
    obtain ⟨vin', hvin', rfl⟩ := mem_inputsBy.mp ⟨hinput, hindex⟩
    rw [hvin] at hvin'
    cases hvin'
    simp only [Input.envelopeIn, hpre] at hvalue
    cases htold : tells vin with
    | none =>
      rw [htold] at hvalue
      exact absurd hvalue.symm (toString_ne_empty _)
    | some prevout =>
      rw [htold] at hvalue
      have hsat : satOrZero prevout.value = truth.of vin := toString_injective hvalue
      refine ⟨prevout, rfl, ?_⟩
      by_contra hnei
      rw [not_or, not_not] at hnei
      rw [satOrZero_eq, hnei.1, Option.getD_none] at hsat
      exact hnei.2 hsat.symm
  · rintro ⟨prevout, htold, hvalue⟩
    refine ⟨(inputBy known i vin).envelopeIn,
      List.mem_map_of_mem (mem_inputsBy.mpr ⟨vin, hvin, rfl⟩).1, rfl, ?_⟩
    have hsat : satOrZero prevout.value = truth.of vin := by
      rw [satOrZero_eq]
      cases hamo : amount prevout.value with
      | none => exact (hvalue.resolve_left (not_not.mpr hamo)).symm
      | some value => exact htrue vin hmem prevout htold value hamo
    rw [htold] at hpre
    simp only [Input.envelopeIn, hpre]
    exact congrArg toString hsat

theorem outputValues_eq {txid : String} {vouts : List Vout} {values : List Int}
    (h : vouts.mapM (outputValue txid) = .ok values) :
    values = vouts.map fun vout => satOrZero vout.value := by
  refine Result.mapM_eq_map ?_ h
  intro vout _ value hvalue
  have hparse := Result.mapError_ok hvalue
  rw [satOrZero, hparse]
  rfl

def readableFee (tells : Vin → Option Prevout) (tx : Transaction) : Int :=
  if 0 < readableIn tells tx ∧ tx.out ≤ readableIn tells tx then readableIn tells tx - tx.out else 0

theorem envelope_fee (hfrom : ComesFrom known tells) (htrue : TellsTrue tells truth tx)
    {txid : String} {height : Int}
    (h : envelope txid tx height (inputsBy known tx.vin.zipIdx) = .ok env)
    (hin : truth.trueIn tx < 2 ^ 63) (hout : 0 ≤ tx.out) (hout' : tx.out < 2 ^ 63) :
    env.feeSat = toString (readableFee tells tx) ∧
      (FeeKnown truth tx env ↔ Covered tells truth tx) := by
  obtain ⟨values, hval, rfl⟩ := Result.map_ok h
  obtain ⟨hlo, hhi⟩ := readableIn_bounds htrue
  have hin64 : IsInt64 (readableIn tells tx) := by
    unfold IsInt64
    omega
  have htotI : total (inputValues (inputsBy known tx.vin.zipIdx)) = readableIn tells tx := by
    rw [← inputValues_sum hfrom] at hin64 ⊢
    exact total_eq hin64
  have htotO : total values = tx.out := by
    rw [outputValues_eq hval]
    refine total_eq ?_
    show IsInt64 tx.out
    unfold IsInt64
    omega
  have hfee : feeSat (total (inputValues (inputsBy known tx.vin.zipIdx))) (total values) =
      readableFee tells tx := by
    rw [htotI, htotO, feeSat_eq hin64 hout]
    rfl
  refine ⟨congrArg toString hfee, ?_⟩
  have hnon : toString (readableFee tells tx) ≠ "0" ↔
      0 < readableIn tells tx ∧ tx.out < readableIn tells tx := by
    have hzero : toString (readableFee tells tx) = "0" ↔ readableFee tells tx = 0 :=
      ⟨fun heq => toString_injective heq, fun heq => heq ▸ rfl⟩
    rw [ne_eq, hzero]
    unfold readableFee
    split_ifs <;> omega
  unfold FeeKnown
  simp only [hfee, hnon]
  have hspe : (∀ (i : Nat) vin, tx.vin[i]? = some (some vin) → trimSpace vin.coinbase = "" →
      ∃ input ∈ (inputsBy known tx.vin.zipIdx).map Input.envelopeIn, input.index = i ∧
        input.valueSat = toString (truth.of vin)) ↔
      ∀ vin ∈ tx.spends, ∃ prevout, tells vin = some prevout ∧
        (amount prevout.value ≠ none ∨ truth.of vin = 0) := by
    constructor
    · intro hshown vin hvin
      obtain ⟨hmem, hcoi⟩ := List.mem_filter.mp hvin
      obtain ⟨vin?, hmem, rfl⟩ := List.mem_filterMap.mp hmem
      obtain ⟨i, hi⟩ := List.mem_iff_getElem?.mp hmem
      have hcoi := of_decide_eq_true hcoi
      exact (shown_iff hfrom htrue hi hcoi).mp (hshown i vin hi hcoi)
    · intro hall i vin hi hcoi
      refine (shown_iff hfrom htrue hi hcoi).mpr (hall vin ?_)
      refine List.mem_filter.mpr ⟨List.mem_filterMap.mpr ⟨some vin, ?_, rfl⟩, by simpa using hcoi⟩
      exact List.mem_of_getElem? hi
  rw [hspe]
  constructor
  · intro hknown
    by_cases hpos : 0 < readableIn tells tx ∧ tx.out < readableIn tells tx
    · exact .inl (hknown hpos).1
    · exact .inr hpos
  · intro hcov hpos
    have hall := hcov.resolve_right (not_not.mpr hpos)
    refine ⟨hall, ?_⟩
    rw [readableFee, if_pos ⟨hpos.1, hpos.2.le⟩, readableIn_eq htrue hall]

end Envelope

section Call
variable {client : Client} {truth : Truth}

theorem envelopesBy_getElem? {known : Known} {found : List Entry} {blocks : BlockCache}
    {envs : List Envelope} (h : envelopesBy known client found blocks = .ok envs) {i : Nat}
    {env : Envelope} (henv : envs[i]? = some env) :
    ∃ entry tx height, found[i]? = some entry ∧ entry.tx = some tx ∧
      envelope entry.txid tx height (inputsBy known tx.vin.zipIdx) = .ok env := by
  induction found generalizing blocks envs i with
  | nil =>
    cases h
    cases henv
  | cons entry found ih =>
    rw [envelopesBy] at h
    split at h
    · cases h
    · rename_i tx htx
      obtain ⟨⟨height, blocks'⟩, _, hafter⟩ := Result.bind_ok h
      obtain ⟨first, hfirst, hoth⟩ := Result.bind_ok hafter
      obtain ⟨envs', henvs, hall⟩ := Result.bind_ok hoth
      cases hall
      cases i with
      | zero =>
        cases henv
        exact ⟨entry, tx, height, rfl, htx, hfirst⟩
      | succ i => exact ih henvs henv

def toldIn (client : Client) (txids : List String) (txs : List (Option Transaction)) :
    Vin → Option Prevout :=
  toldFor client txs ((entries txids txs).flatMap Entry.naming)

/-- The fee of an envelope is what the amounts that can be read leave over. It is the true fee, with
every input resolved, exactly if every input comes with an amount that can be read. -/
theorem fetchTransactions_fee (client : Client) (truth : Truth) (hhonest : client.Honest truth)
    (signatures : List String) (envs : List Envelope)
    (h : fetchTransactions client signatures = .ok envs) (txs : List (Option Transaction))
    (htxs : client.getRawTransactionsVerbose (signatures.map canonicalTxID) = .ok txs) (i : Nat)
    (env : Envelope) (henv : envs[i]? = some env) :
    ∃ tx, txs[i]? = some (some tx) ∧
      (truth.trueIn tx < 2 ^ 63 → 0 ≤ tx.out → tx.out < 2 ^ 63 →
        env.feeSat =
          toString (readableFee (toldIn client (signatures.map canonicalTxID) txs) tx) ∧
        (FeeKnown truth tx env ↔
          Covered (toldIn client (signatures.map canonicalTxID) txs) truth tx)) := by
  have hne : signatures ≠ [] := by
    rintro rfl
    cases h
    cases henv
  obtain ⟨txs', htxs', hby⟩ := fetchTransactions_decides hne h
  rw [htxs] at htxs'
  cases htxs'
  obtain ⟨entry, tx, height, hentry, htx, henve⟩ :=
    envelopesBy_getElem? (hby _ (toldKnown_decides client txs _)) henv
  have hplace : txs[i]? = some (some tx) := by
    rw [entries, List.getElem?_map] at hentry
    obtain ⟨pair, hpair, rfl⟩ := Option.map_eq_some_iff.mp hentry
    rw [List.getElem?_zipIdx] at hpair
    obtain ⟨both, hboth, rfl⟩ := Option.map_eq_some_iff.mp hpair
    rw [← htx]
    exact (List.getElem?_zip_eq_some.mp hboth).2
  refine ⟨tx, hplace, fun hin hout hout' => ?_⟩
  refine envelope_fee (fun vin => ?_) ?_ henve hin hout hout'
  · unfold spentBy toldIn toldFor toldKnown
    split_ifs
    · rfl
    · rfl
  · intro vin _ prevout htold value hvalue
    unfold toldIn toldFor at htold
    split_ifs at htold
    exact told_honest hhonest htxs htold hvalue

end Call

section Sample

def payment : Transaction where
  txid := "cc"
  vin := [some { txid := "aa", vout := 0 }, some { txid := "bb", vout := 0 }]
  vout := [some ⟨"0.4", 0, ⟨"bc1qshop", []⟩⟩]

def coinOf (both : Bool) (txid : String) : Option Transaction :=
  if txid = "aa" ∨ both = true then
    some { txid, vin := [], vout := [some ⟨"1.0", 0, ⟨"bc1qpayer", []⟩⟩] }
  else none

def paymentNode (both : Bool) : Client where
  getRawTransactionsVerbose _ := .ok [some payment]
  getPreviousTransactions txids := .ok (txids.map (coinOf both))
  getRawTransactionVerbose txid _ := .ok (coinOf both txid)
  getBlocks _ := .ok []
  getBlock _ _ := .ok none

def oneCoin : Truth := fun _ _ => 100000000

theorem coinOf_amount {both : Bool} {txid : String} {tx : Transaction}
    (h : coinOf both txid = some tx) {vout : Vout} (hvout : vout ∈ tx.vout.filterMap id) {value : Int}
    (hvalue : amount vout.value = some value) : value = 100000000 := by
  unfold coinOf at h
  split_ifs at h
  cases h
  obtain rfl := List.mem_singleton.mp hvout
  have hamo : amount "1.0" = some 100000000 := by decide +kernel
  exact Option.some.inj (hvalue.symm.trans hamo)

theorem paymentNode_honest (both : Bool) : (paymentNode both).Honest oneCoin := by
  refine ⟨?_, ?_, ?_⟩
  · intro txids txs h tx htx vin hvin prevout hpre
    cases h
    obtain rfl := List.mem_singleton.mp htx
    rcases List.mem_cons.mp hvin with rfl | hvin
    · cases hpre
    · obtain rfl := List.mem_singleton.mp hvin
      cases hpre
  · intro txids txs h entry hentry tx htx vout hvout value hvalue
    cases h
    obtain ⟨txid, _, hcoin⟩ := List.mem_map.mp (List.of_mem_zip hentry).2
    exact coinOf_amount (hcoin.trans htx) hvout hvalue
  · intro txid n tx h vout hvout value hvalue
    exact coinOf_amount (Except.ok.inj h) hvout hvalue

theorem exists_envelope {client : Client} {signatures : List String} {fee : String}
    (h : (fetchTransactions client signatures).toOption.map (List.map Envelope.feeSat) =
      some [fee]) :
    ∃ env, fetchTransactions client signatures = .ok [env] ∧ env.feeSat = fee := by
  cases hfetch : fetchTransactions client signatures with
  | error e =>
    rw [hfetch] at h
    cases h
  | ok envs =>
    rw [hfetch] at h
    obtain ⟨env, rest, rfl, hfee, hrest⟩ := List.map_eq_cons_iff.mp (Option.some.inj h)
    rw [List.map_eq_nil_iff.mp hrest]
    exact ⟨env, rfl, hfee⟩

/-- With both previous transactions the fee is the true one. -/
theorem fetchTransactions_fee_both :
    ∃ env, fetchTransactions (paymentNode true) ["cc"] = .ok [env] ∧
      env.feeSat = "160000000" ∧ ∃ tx, [some payment][0]? = some (some tx) ∧
      (FeeKnown oneCoin tx env ↔
        Covered (toldIn (paymentNode true) (["cc"].map canonicalTxID) [some payment]) oneCoin
          tx) := by
  obtain ⟨env, h, hfee⟩ : ∃ env, fetchTransactions (paymentNode true) ["cc"] = .ok [env] ∧
      env.feeSat = "160000000" := exists_envelope (by decide +kernel)
  obtain ⟨tx, hplace, hiff⟩ := fetchTransactions_fee (paymentNode true) oneCoin
    (paymentNode_honest true) ["cc"] [env] h [some payment] rfl 0 env rfl
  refine ⟨env, h, hfee, tx, hplace, ?_⟩
  cases hplace
  exact (hiff (by decide +kernel) (by decide +kernel) (by decide +kernel)).2

/-- The second previous transaction is not known: the fee is one coin too small. -/
theorem fetchTransactions_fee_missing :
    ∃ env, fetchTransactions (paymentNode false) ["cc"] = .ok [env] ∧
      (paymentNode false).Honest oneCoin ∧ env.feeSat = "60000000" ∧
      oneCoin.trueIn payment - payment.out = 160000000 ∧ ¬ FeeKnown oneCoin payment env := by
  obtain ⟨env, h, hfee⟩ : ∃ env, fetchTransactions (paymentNode false) ["cc"] = .ok [env] ∧
      env.feeSat = "60000000" := exists_envelope (by decide +kernel)
  have htrue : oneCoin.trueIn payment - payment.out = 160000000 := by decide +kernel
  refine ⟨env, h, paymentNode_honest false, hfee, htrue, fun hknown => ?_⟩
  have heq := (hknown (by rw [hfee]; decide)).2
  rw [hfee, htrue] at heq
  exact absurd heq (by decide +kernel)

end Sample

end BtcFetch

end MultichainIndexer
