import MultichainIndexer.Lib.Result
import MultichainIndexer.Store.Db

/-!
# Transactions and tokens

Both repositories upsert by a natural key and leave a stored row as it is: the
upsert only returns the id, the stored one or a new one.
-/

namespace MultichainIndexer

open Relational

def transactionUpsert : Upsert Transaction.id Transaction.hashKey Transaction where
  itemKey := Transaction.hashKey
  fresh rows t := { t with id := freshID Transaction.id rows }
  apply r _ := r
  admits _ _ := true
  key_fresh _ _ := rfl
  key_apply _ _ := rfl
  ident_apply _ _ := rfl

def tokenUpsert : Upsert Token.id Token.contractKey Token where
  itemKey := Token.contractKey
  fresh rows t := { t with id := freshID Token.id rows }
  apply r _ := r
  admits _ _ := true
  key_fresh _ _ := rfl
  key_apply _ _ := rfl
  ident_apply _ _ := rfl

/-- The map from hashes to ids that a bulk upsert returns; the fee is a number of its column. -/
def bulkUpsertTransactionsTx (txns : List Transaction) (t : Transactions) :
    Except String (Transactions × (String → Option UUID)) :=
  if txns.isEmpty then .ok (t, fun _ => none)
  else wrapSql "bulk upsert transactions" do
    let _ ← txns.mapM fun x => numericIn x.feeAmount
    match transactionUpsert.run t txns with
    | none => .error .affectsRowTwice
    | some (t', returned) =>
      .ok (t', fun hash => (returned.find? fun x => x.1.txHash = hash).map fun x => x.1.id)

def bulkUpsertTokensTx (tokens : List Token) (t : Tokens) :
    Except String (Tokens × (String → Option UUID)) :=
  if tokens.isEmpty then .ok (t, fun _ => none)
  else wrapSql "bulk upsert tokens" <|
    match tokenUpsert.run t tokens with
    | none => .error .affectsRowTwice
    | some (t', returned) =>
      .ok (t', fun contract =>
        (returned.find? fun x => x.1.contractAddress = contract).map fun x => x.1.id)

/-- `BulkIsDeniedTx`: a contract without a token is not denied. -/
def isDeniedTx (chain : Chain) (network : Network) (contract : String) (t : Tokens) : Bool :=
  match t.findKey (chain, network, contract) with
  | none => false
  | some tok => tok.isDenied

/-- `DenyTokenTx`: the token of a contract is marked as denied. -/
def denyTokenTx (chain : Chain) (network : Network) (contract reason source : String)
    (score : Int) (signals : List String) (t : Tokens) : Tokens :=
  t.update
    (fun tok => if tok.contractKey = some (chain, network, contract) then
      { tok with
        isDenied := true
        deniedReason := reason
        scamScore := score
        scamSignals := signals
        deniedSource := source } else tok)
    (by
      have hkey : ∀ tok : Token, (if tok.contractKey = some (chain, network, contract) then
          { tok with
            isDenied := true
            deniedReason := reason
            scamScore := score
            scamSignals := signals
            deniedSource := source } else tok).contractKey = tok.contractKey := by
        intro tok
        split
        · rfl
        · rfl
      have hid : ∀ tok : Token, (if tok.contractKey = some (chain, network, contract) then
          { tok with
            isDenied := true
            deniedReason := reason
            scamScore := score
            scamSignals := signals
            deniedSource := source } else tok).id = tok.id := by
        intro tok
        split
        · rfl
        · rfl
      intro a b h
      simpa only [clashOn, hkey, hid] using h)

variable {ids : String → Option UUID} {t t' : Tokens} {tokens : List Token}

theorem bulkUpsertTokensTx_ok {chain : Chain} {network : Network}
    (htoke : ∀ tok ∈ tokens, tok.chain = chain ∧ tok.network = network)
    (h : bulkUpsertTokensTx tokens t = .ok (t', ids)) :
    (∀ tok ∈ t.rows, tok ∈ t'.rows) ∧
      ∀ contract id, ids contract = some id → ∃ tok ∈ t'.rows,
        tok.contractKey = some (chain, network, contract) ∧ tok.id = id := by
  unfold bulkUpsertTokensTx at h
  split at h
  · cases h
    exact ⟨fun tok htok => htok, by simp⟩
  · have h := Result.mapError_ok h
    split at h
    · cases h
    · rename_i u returned hrun
      cases h
      obtain ⟨hrows, hret, hkeys⟩ := Upsert.run_keep (fun _ _ => rfl) (fun _ _ => rfl) hrun
      refine ⟨hrows, fun contract id hid => ?_⟩
      obtain ⟨x, hx, rfl⟩ := Option.map_eq_some_iff.mp hid
      have hmem := List.mem_of_find?_eq_some hx
      have hcon : x.1.contractAddress = contract := by simpa using List.find?_some hx
      have hxkey : x.1.contractKey ∈ tokens.map tokenUpsert.itemKey := by
        rw [← hkeys]
        exact List.mem_map_of_mem hmem
      obtain ⟨tok, htok, htk⟩ := List.mem_map.mp hxkey
      obtain ⟨hc, hn⟩ := htoke tok htok
      refine ⟨x.1, hret x hmem, ?_, rfl⟩
      have hkey : tok.contractKey = x.1.contractKey := htk
      simp only [Token.contractKey, Option.some.injEq, Prod.mk.injEq] at hkey ⊢
      exact ⟨hkey.1 ▸ hc, hkey.2.1 ▸ hn, hcon⟩

theorem bulkUpsertTokensTx_id {chain : Chain} {network : Network}
    (htoke : ∀ tok ∈ tokens, tok.chain = chain ∧ tok.network = network)
    (h : bulkUpsertTokensTx tokens t = .ok (t', ids)) {contract : String} {id : UUID}
    (hid : ids contract = some id) {tok : Token} (htok : tok ∈ t.rows)
    (hkey : tok.contractKey = some (chain, network, contract)) : tok.id = id := by
  obtain ⟨hrows, hids⟩ := bulkUpsertTokensTx_ok htoke h
  obtain ⟨tok', htok', hkey', rfl⟩ := hids contract id hid
  rw [IndexedTable.eq_of_key_eq (hrows tok htok) htok' hkey hkey']

theorem bulkUpsertTransactionsTx_ok_iff {txns : List Transaction} {t : Transactions}
    (hdis : (txns.map Transaction.hashKey).Nodup) :
    (∃ res, bulkUpsertTransactionsTx txns t = .ok res) ↔
      ∀ x ∈ txns, ∃ fee, numericIn x.feeAmount = .ok fee := by
  have hkeys : txns.Pairwise transactionUpsert.Apart :=
    (List.pairwise_map.mp hdis).imp fun h k hi hj => h (hi.trans hj.symm)
  unfold bulkUpsertTransactionsTx
  split
  · rename_i hnil
    rw [List.isEmpty_iff.mp hnil]
    exact ⟨fun _ => by simp, fun _ => ⟨_, rfl⟩⟩
  · rw [← Result.mapM_ok_iff]
    constructor
    · rintro ⟨res, h⟩
      obtain ⟨fees, hfees, _⟩ := Result.bind_ok (Result.mapError_ok h)
      exact ⟨fees, hfees⟩
    · rintro ⟨fees, hfees⟩
      obtain ⟨res, hrun⟩ := Upsert.run_isSome (U := transactionUpsert) (t := t)
        (fun rows _ _ r hr => (ident_lt_freshID hr).ne) hkeys
      rw [hfees]
      simp only [hrun]
      exact ⟨_, rfl⟩

theorem bulkUpsertTransactionsTx_total {txns : List Transaction} {t t' : Transactions}
    (h : bulkUpsertTransactionsTx txns t = .ok (t', ids)) {x : Transaction} (hx : x ∈ txns) :
    ∃ id, ids x.txHash = some id := by
  unfold bulkUpsertTransactionsTx at h
  split at h
  · rename_i hnil
    rw [List.isEmpty_iff.mp hnil] at hx
    cases hx
  · obtain ⟨_, _, h⟩ := Result.bind_ok (Result.mapError_ok h)
    split at h
    · cases h
    · rename_i u returned hrun
      cases h
      obtain ⟨_, _, hkeys⟩ := Upsert.run_keep (fun _ _ => rfl) (fun _ _ => rfl) hrun
      obtain ⟨y, hy⟩ := Upsert.exists_find?_returned (U := transactionUpsert)
        (f := Transaction.txHash) (n := x.txHash) hkeys hx
        fun r hr => congrArg (fun k => k.2.2) (Option.some.inj hr)
      exact ⟨y.1.id, Option.map_eq_some_iff.mpr ⟨y, hy, rfl⟩⟩

theorem bulkUpsertTokensTx_total (hdis : (tokens.map Token.contractKey).Nodup) :
    ∃ t' ids, bulkUpsertTokensTx tokens t = .ok (t', ids) ∧
      ∀ x ∈ tokens, ∃ id, ids x.contractAddress = some id := by
  have hkeys : tokens.Pairwise tokenUpsert.Apart :=
    (List.pairwise_map.mp hdis).imp fun h k hi hj => h (hi.trans hj.symm)
  unfold bulkUpsertTokensTx
  split
  · rename_i hnil
    rw [List.isEmpty_iff.mp hnil]
    exact ⟨t, _, rfl, by simp⟩
  · obtain ⟨⟨t', returned⟩, hrun⟩ := Upsert.run_isSome (U := tokenUpsert) (t := t)
      (fun rows _ _ r hr => (ident_lt_freshID hr).ne) hkeys
    rw [hrun]
    refine ⟨t', _, rfl, fun x hx => ?_⟩
    obtain ⟨_, _, hret⟩ := Upsert.run_keep (fun _ _ => rfl) (fun _ _ => rfl) hrun
    obtain ⟨y, hy⟩ := Upsert.exists_find?_returned (U := tokenUpsert)
      (f := Token.contractAddress) (n := x.contractAddress) hret hx
      fun r hr => congrArg (fun k => k.2.2) (Option.some.inj hr)
    exact ⟨y.1.id, Option.map_eq_some_iff.mpr ⟨y, hy, rfl⟩⟩

theorem bulkUpsertTokensTx_denied (h : bulkUpsertTokensTx tokens t = .ok (t', ids))
    (hnew : ∀ tok ∈ tokens, tok.isDenied = false) (chain : Chain) (network : Network)
    (contract : String) :
    isDeniedTx chain network contract t' = isDeniedTx chain network contract t := by
  have hrows : (∀ r ∈ t.rows, r ∈ t'.rows) ∧ ∀ r ∈ t'.rows, r ∈ t.rows ∨ r.isDenied = false := by
    unfold bulkUpsertTokensTx at h
    split at h
    · cases h
      exact ⟨fun r hr => hr, fun r hr => .inl hr⟩
    · have h := Result.mapError_ok h
      split at h
      · cases h
      · rename_i u returned hrun
        cases h
        refine ⟨(Upsert.run_keep (fun _ _ => rfl) (fun _ _ => rfl) hrun).1, ?_⟩
        exact (Upsert.run_wroteAll hrun).forall_rows
          (Q := fun r => r ∈ t.rows ∨ r.isDenied = false) (fun r hr => .inl hr)
          (fun tok htok rows => .inr (hnew tok htok)) fun _ _ _ _ _ _ hr => hr
  unfold isDeniedTx
  cases hfind : t'.findKey (chain, network, contract) with
  | none =>
    have hnone : t.findKey (chain, network, contract) = none := by
      rw [IndexedTable.findKey_eq_none_iff] at hfind ⊢
      exact fun r hr => hfind r (hrows.1 r hr)
    rw [hnone]
  | some tok =>
    obtain ⟨htok, hkey⟩ := IndexedTable.findKey_eq_some_iff.mp hfind
    cases hold : t.findKey (chain, network, contract) with
    | none =>
      rcases hrows.2 tok htok with hmem | hden
      · exact absurd hkey (IndexedTable.findKey_eq_none_iff.mp hold tok hmem)
      · exact hden
    | some tok' =>
      obtain ⟨htok', hkey'⟩ := IndexedTable.findKey_eq_some_iff.mp hold
      rw [IndexedTable.eq_of_key_eq htok (hrows.1 tok' htok') hkey hkey']

section Deny
variable {chain : Chain} {network : Network} {contract reason source : String} {score : Int}
variable {signals : List String} {t : Tokens}

def HasToken (chain : Chain) (network : Network) (contract : String) (t : Tokens) : Prop :=
  ∃ tok ∈ t.rows, tok.contractKey = some (chain, network, contract)

theorem HasToken.denyTokenTx (h : HasToken chain network contract t) (chain' : Chain)
    (network' : Network) (contract' : String) : HasToken chain network contract
      (denyTokenTx chain' network' contract' reason source score signals t) := by
  obtain ⟨tok, htok, hkey⟩ := h
  refine ⟨_, List.mem_map_of_mem htok, ?_⟩
  split
  · exact hkey
  · exact hkey

theorem isDeniedTx_denyTokenTx (h : HasToken chain network contract t) (chain' : Chain)
    (network' : Network) (contract' : String) :
    isDeniedTx chain' network' contract'
        (denyTokenTx chain network contract reason source score signals t) =
      if (chain, network, contract) = (chain', network', contract') then true
      else isDeniedTx chain' network' contract' t := by
  unfold isDeniedTx denyTokenTx
  rw [IndexedTable.findKey_update]
  · by_cases heq : (chain, network, contract) = (chain', network', contract')
    · cases heq
      obtain ⟨tok, htok, hkey⟩ := h
      have hfind : t.findKey (chain, network, contract) = some tok :=
        IndexedTable.findKey_eq_some_iff.mpr ⟨htok, hkey⟩
      rw [hfind, if_pos rfl]
      simp only [Option.map_some, if_pos hkey]
    · rw [if_neg heq]
      cases hfind : t.findKey (chain', network', contract') with
      | none => rfl
      | some tok =>
        have hkey := (IndexedTable.findKey_eq_some_iff.mp hfind).2
        have hother : tok.contractKey ≠ some (chain, network, contract) := by
          rw [hkey]
          exact fun h => heq (Option.some.inj h).symm
        simp only [Option.map_some, if_neg hother]
  · intro tok
    split
    · rfl
    · rfl

end Deny

end MultichainIndexer
