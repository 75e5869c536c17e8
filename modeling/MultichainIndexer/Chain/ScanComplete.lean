import MultichainIndexer.Chain.BaseFound
import MultichainIndexer.Chain.BtcFound

/-!
# Completeness of the block scans

When a scan that returns without an error has every transaction of its range that
mentions a watched address, for both adapters; and a node of each kind whose null
answer hides one.
-/

namespace MultichainIndexer

open Text IntRange

/-- For the EVM and the Bitcoin adapter, a scan that returns without an error is complete if and
only if each transaction that mentions a watched address is found by one of the ways that the scan
looks for it. -/
theorem scanBlocks_complete_iff (lo hi : Int) (watched : List String) (sigs : List SignatureInfo) :
    (∀ (ledger : Base.Ledger) (traceEnabled : Bool) (client : Base.Stage → Base.Client),
      (∀ stage, (client stage).Truthful ledger) →
      Base.scanBlocks traceEnabled client lo hi watched = .ok sigs →
      (Base.ScanComplete ledger lo hi watched sigs ↔
        ∀ b m, lo ≤ b → b ≤ hi → m ∈ ledger.mined b → Base.Mentions watched m →
          Base.Found traceEnabled client lo hi watched b m)) ∧
    (∀ (ledger : Btc.Ledger) (inlined : Nat → Btc.Spend → Bool) (client : Btc.Client)
      (known : Btc.Verbosity3), client.Truthful ledger inlined →
      Btc.scanBlocks client known lo hi watched = .ok sigs →
      (Btc.ScanComplete ledger lo hi watched sigs ↔
        ∀ b m, lo ≤ b → b ≤ hi → m ∈ ledger.mined b → Btc.Mentions watched m →
          Btc.Found client inlined known lo hi watched b m)) := by
  constructor
  · intro ledger traceEnabled client ht h
    exact Base.scanComplete_iff ht h
  · intro ledger inlined client known ht h
    exact Btc.scanComplete_iff ht h

namespace Base

def batchClient (block : Option Block) : Client :=
  { sampleClient [] with
    getBlocksByNumber := fun bs => .ok (bs.map fun b => if b = 5 then block else none) }

theorem batchClient_truthful {block : Option Block}
    (h : ∀ given, block = some given → given = sampleBlock) :
    (batchClient block).Truthful sampleLedger :=
  have hrest := @sampleClient_truthful [] nofun
  { hrest with
    blocks := by
      intro bs blocks hblo
      cases hblo
      refine ⟨Nat.le_of_eq (List.length_map _), ?_⟩
      intro i b given hb hgiven
      rw [List.getElem?_map, hb, Option.map_some] at hgiven
      have hsome := Option.some.inj hgiven
      split at hsome
      · rename_i hfive
        subst hfive
        rw [h given hsome]
        exact hrest.block rfl
      · cases hsome }

theorem scanBatches_one (client : Client) (addrs : List String) (b : Int) (s : ScanState) :
    scanBatches client addrs b b s = scanBatch client addrs b b s := by
  rw [scanBatches, if_pos (Int.le_refl b)]
  have hend : batchEnd b b = b := by
    unfold batchEnd blockFetchBatchSize
    split <;> omega
  rw [hend]
  cases scanBatch client addrs b b s with
  | error err => rfl
  | ok t =>
    change scanBatches client addrs (b + blockFetchBatchSize) b t = .ok t
    rw [scanBatches, if_neg]
    unfold blockFetchBatchSize
    omega

theorem scanBlocks_null_block : (batchClient none).Truthful sampleLedger ∧
    scanBlocks false (fun _ => batchClient none) 5 5 ["0x1"] = .ok [] ∧
    ¬ ScanComplete sampleLedger 5 5 ["0x1"] [] := by
  refine ⟨batchClient_truthful nofun, ?_, ?_⟩
  · rw [scanBlocks, if_neg (by decide), scanBatches_one]
    rfl
  · intro hcom
    have hmen : Mentions ["0x1"] (sampleMined "0xaa" "0x11") := Or.inl (by decide)
    obtain ⟨sig, hsig, -⟩ := hcom 5 (sampleMined "0xaa" "0x11") (Int.le_refl 5) (Int.le_refl 5)
      List.mem_cons_self hmen
    cases hsig

end Base

namespace Btc

def sampleScript : ScriptPubKey := { address := "alice", addresses := [] }

def sampleMined : Mined :=
  { txid := "b1", spends := [{ txid := "a0", vout := 0, coinbase := "", script := sampleScript }],
    outputs := [] }

def sampleBlocks (b : Int) : List Mined := if b = 7 then [sampleMined] else []

theorem mem_sampleBlocks {b : Int} {m : Mined} (h : m ∈ sampleBlocks b) : b = 7 ∧ m = sampleMined := by
  unfold sampleBlocks at h
  split at h
  · exact ⟨by assumption, List.mem_singleton.mp h⟩
  · cases h

def sampleLedger : Ledger where
  mined := sampleBlocks
  blockHash b := if b = 7 then some "h7" else none
  blockHash_ne_empty {b} h := by
    split at h
    · exact absurd h (by decide)
    · cases h
  blockHash_inj {b b' h} hb hb' := by
    split at hb
    · split at hb'
      · omega
      · cases hb'
    · cases hb
  txid_ne_empty hm := by
    rw [(mem_sampleBlocks hm).2]
    decide
  txid_inj hm hm' _ := by
    obtain ⟨rfl, rfl⟩ := mem_sampleBlocks hm
    obtain ⟨rfl, rfl⟩ := mem_sampleBlocks hm'
    exact ⟨rfl, rfl⟩
  spend_named hm hs _ := by
    rw [(mem_sampleBlocks hm).2] at hs
    rw [List.mem_singleton.mp hs]
    decide
  spend_once hm hm' hs hs' _ _ _ _ := by
    rw [(mem_sampleBlocks hm).2] at hs
    rw [(mem_sampleBlocks hm').2] at hs'
    rw [List.mem_singleton.mp hs, List.mem_singleton.mp hs']

def sampleTransaction : Transaction :=
  { txid := "b1", blocktime := 0, time := 0,
    vin := [some { txid := "a0", vout := 0, coinbase := "", prevout := none }], vout := [] }

def samplePrevious : Transaction :=
  { txid := "a0", blocktime := 0, time := 0, vin := [],
    vout := [some { n := 0, scriptPubKey := sampleScript }] }

def sampleClient (previous : Option Transaction) : Client where
  getBlockHashes bs := .ok (bs.map fun b => if b = 7 then "h7" else "")
  getBlock h _ := .ok (if h = "h7" then some { height := 7, time := 0, tx := [some sampleTransaction] }
    else none)
  getRawTransactionVerbose _ _ := .ok previous

theorem sampleClient_truthful {previous : Option Transaction}
    (h : ∀ tx, previous = some tx → tx = samplePrevious) :
    (sampleClient previous).Truthful sampleLedger (fun _ _ => false) where
  hashes {bs hashes} hh := by
    cases hh
    refine ⟨Nat.le_of_eq (List.length_map _), ?_⟩
    intro i b h hb hi
    rw [List.getElem?_map, hb, Option.map_some] at hi
    have hsome := Option.some.inj hi
    split at hsome
    · rename_i hseven
      subst hseven
      rw [← hsome]
      exact Or.inr rfl
    · exact Or.inl hsome.symm
  block {h v block} hb := by
    have hsome := Except.ok.inj hb
    split at hsome
    · rename_i hh
      subst hh
      cases hsome
      refine ⟨7, rfl, ?_⟩
      exact .cons ⟨rfl, rfl, rfl⟩ .nil
    · cases hsome
  transaction {txid n tx} htx b m s hm hs _ _ hn := by
    rw [h tx (Except.ok.inj htx)]
    rw [(mem_sampleBlocks hm).2] at hs
    obtain rfl := List.mem_singleton.mp hs
    subst hn
    exact ⟨_, rfl, rfl⟩

theorem scanBlocks_null_prevout : (sampleClient none).Truthful sampleLedger (fun _ _ => false) ∧
    scanBlocks (sampleClient none) .unknown 7 7 ["alice"] = .ok [] ∧
    ¬ ScanComplete sampleLedger 7 7 ["alice"] [] := by
  refine ⟨sampleClient_truthful nofun, rfl, ?_⟩
  intro hcom
  have hmen : Mentions ["alice"] sampleMined :=
    Or.inr ⟨_, List.mem_singleton_self _, by decide, by decide⟩
  obtain ⟨sig, hsig, -⟩ := hcom 7 sampleMined (Int.le_refl 7) (Int.le_refl 7)
    List.mem_cons_self hmen
  cases hsig

end Btc

/-- Null answers hide a transaction of a watched sender, and a spend of a watched output. -/
theorem scanBlocks_null_answers :
    ((Base.batchClient none).Truthful Base.sampleLedger ∧
      Base.scanBlocks false (fun _ => Base.batchClient none) 5 5 ["0x1"] = .ok [] ∧
      ¬ Base.ScanComplete Base.sampleLedger 5 5 ["0x1"] []) ∧
    (Btc.sampleClient none).Truthful Btc.sampleLedger (fun _ _ => false) ∧
      Btc.scanBlocks (Btc.sampleClient none) .unknown 7 7 ["alice"] = .ok [] ∧
      ¬ Btc.ScanComplete Btc.sampleLedger 7 7 ["alice"] [] :=
  ⟨Base.scanBlocks_null_block, Btc.scanBlocks_null_prevout⟩

/-- With the answers at hand both scans are complete. -/
theorem scanBlocks_complete_answered :
    Base.ScanComplete Base.sampleLedger 5 5 ["0x1"]
      [{ hash := "0xaa", sequence := 5, time := some 1 }, { hash := "0xbb", sequence := 5, time := some 1 }] ∧
    Btc.ScanComplete Btc.sampleLedger 7 7 ["alice"] [{ hash := "b1", sequence := 7 }] := by
  constructor
  · refine ((scanBlocks_complete_iff 5 5 ["0x1"] _).1 Base.sampleLedger false
      (fun _ => Base.batchClient (some Base.sampleBlock))
      (fun _ => Base.batchClient_truthful fun _ h => (Option.some.inj h).symm) ?_).mpr ?_
    · rw [Base.scanBlocks, if_neg (by decide), Base.scanBatches_one]
      decide +kernel
    · intro b m hlo hhi hm _
      obtain rfl : b = 5 := by omega
      refine .party ⟨_, rfl, Base.sampleBlock, rfl⟩ ?_
      have hm' : m ∈ Base.sampleBlocks 5 := hm
      rcases (Base.mem_sampleBlocks hm').2 with rfl | rfl <;> decide
  · refine ((scanBlocks_complete_iff 7 7 ["alice"] _).2 Btc.sampleLedger (fun _ _ => false)
      (Btc.sampleClient (some Btc.samplePrevious)) .unknown
      (Btc.sampleClient_truthful fun _ h => (Option.some.inj h).symm) ?_).mpr ?_
    · rfl
    · intro b m hlo hhi hm _
      obtain rfl : b = 7 := by omega
      have hm' : m ∈ Btc.sampleBlocks 7 := hm
      obtain ⟨-, rfl⟩ := Btc.mem_sampleBlocks hm'
      refine ⟨_, "h7", rfl, rfl, ⟨_, rfl⟩, Or.inr ⟨_, List.mem_singleton_self _, by decide, by decide, ?_⟩⟩
      exact Or.inr ⟨_, rfl⟩

end MultichainIndexer
