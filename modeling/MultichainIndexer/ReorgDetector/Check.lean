import Mathlib.Data.List.Find
import MultichainIndexer.Lib.Run
import MultichainIndexer.Domain.Event
import MultichainIndexer.Store.Rollback

/-!
# The reorg detector

A check reads the unfinalized blocks, looks for a break in their own chain of
parent hashes and then asks the node for their hashes. It asks for the first
block of the list always, and for another one only where the hash that the last
check verified is not the stored one. The list is in ascending order up to the
check depth and in descending order beyond it, so that the first block is the
oldest in the one case and the newest in the other. Alerts are left out.
-/

namespace MultichainIndexer

structure Detector where
  chain : Chain
  network : Network
  maxCheckDepth : Nat := 256
  depth_pos : 0 < maxCheckDepth := by decide
  lastVerified : Int → Option String := fun _ => none

/-- What a check gets from outside: the node's answer for a block, with its hash and parent hash,
the failure of the query, and whether the reorg channel takes an event in time. -/
structure CheckReads where
  getBlockHash : Int → Except String (String × String)
  queryError : Option String := none
  sent : Bool := true

structure CheckResult where
  detector : Detector
  event : Option ReorgEvent := none
  error : Option String := none

section Check
variable (d : Detector) (reads : CheckReads)

/-- The blocks of a check: all unfinalized ones, or the newest up to the depth, newest first. -/
def Detector.checkedBlocks (db : Db) : List IndexedBlock :=
  let unfinalizedBlocks := getUnfinalized d.chain d.network db
  if d.maxCheckDepth < unfinalizedBlocks.length then
    (Ordered.descending IndexedBlock.blockNumber unfinalizedBlocks).take d.maxCheckDepth
  else unfinalizedBlocks

/-- The hash of a block number; a later entry overwrites an earlier one. -/
def hashByNumber (blocks : List IndexedBlock) (n : Int) : Option String :=
  (blocks.reverse.find? fun b => b.blockNumber = n).map IndexedBlock.blockHash

def breaksParentHash (blocks : List IndexedBlock) (block : IndexedBlock) : Bool :=
  block.parentHash ≠ "" &&
    (hashByNumber blocks (wrap64 (block.blockNumber - 1))).any (block.parentHash ≠ ·)

def verifyParentHashChain (blocks : List IndexedBlock) : Option IndexedBlock :=
  if blocks.length < 2 then none else blocks.find? (breaksParentHash blocks)

/-- Whether a block matches the node's answer, and the hash that the node has. -/
def verifyBlock (block : IndexedBlock) : Except String (Bool × String) :=
  match reads.getBlockHash block.blockNumber with
  | .error e => .error e
  | .ok (onchainHash, onchainParentHash) =>
    if onchainHash ≠ block.blockHash then .ok (false, onchainHash)
    else if block.parentHash ≠ "" && onchainParentHash ≠ "" &&
        block.parentHash ≠ onchainParentHash then .ok (false, onchainHash)
    else .ok (true, onchainHash)

def emitReorg (block : IndexedBlock) (actualHash : String) : CheckResult where
  detector := { d with lastVerified := fun _ => none }
  event :=
    if reads.sent then
      some { chain := d.chain
             network := d.network
             forkBlockNumber := block.blockNumber
             expectedHash := block.blockHash
             actualHash := actualHash }
    else none
  error := if reads.sent then none else some "context canceled"

def recordHash (verified : Int → Option String) (n : Int) (hash : String) : Int → Option String :=
  fun m => if m = n then some hash else verified m

def scanRest (newVerified : Int → Option String) : List IndexedBlock → CheckResult
  | [] => { detector := { d with lastVerified := newVerified } }
  | block :: rest =>
    if d.lastVerified block.blockNumber = some block.blockHash then
      scanRest (recordHash newVerified block.blockNumber block.blockHash) rest
    else
      match verifyBlock reads block with
      | .error _ => scanRest newVerified rest
      | .ok (false, onchainHash) => emitReorg d reads block onchainHash
      | .ok (true, onchainHash) =>
        scanRest (recordHash newVerified block.blockNumber onchainHash) rest

def checkBlocks : List IndexedBlock → CheckResult
  | [] => { detector := { d with lastVerified := fun _ => none } }
  | tipBlock :: rest =>
    match verifyParentHashChain (tipBlock :: rest) with
    | some reorgBlock => emitReorg d reads reorgBlock reorgBlock.blockHash
    | none =>
      match verifyBlock reads tipBlock with
      | .error _ => scanRest d reads (fun _ => none) rest
      | .ok (false, tipHash) => emitReorg d reads tipBlock tipHash
      | .ok (true, tipHash) =>
        scanRest d reads (recordHash (fun _ => none) tipBlock.blockNumber tipHash) rest

def Detector.check (db : Db) : CheckResult :=
  match reads.queryError with
  | some e => { detector := d, error := some ("get unfinalized blocks: " ++ e) }
  | none => checkBlocks d reads (d.checkedBlocks db)

end Check

section Alarms
variable (d : Detector) (reads : CheckReads) (blocks : List IndexedBlock)

def verifyFails (block : IndexedBlock) : Bool :=
  match verifyBlock reads block with
  | .ok (false, _) => true
  | _ => false

def Orphaned (block : IndexedBlock) : Prop :=
  ∃ hash parent, reads.getBlockHash block.blockNumber = .ok (hash, parent) ∧
    hash ≠ block.blockHash

/-- A block that the check does not ask for: not the first, and verified as it is stored. -/
def Detector.skips (block : IndexedBlock) : Bool :=
  blocks.head?.all (fun b => b.blockNumber ≠ block.blockNumber) &&
    d.lastVerified block.blockNumber = some block.blockHash

/-- A block that makes the check emit an event: it breaks the chain of parent hashes, or where none
does it is asked for and fails. -/
def Detector.alarms (block : IndexedBlock) : Bool :=
  if blocks.any (breaksParentHash blocks) then breaksParentHash blocks block
  else verifyFails reads block && !d.skips blocks block

end Alarms

section Facts
variable {d : Detector} {reads : CheckReads} {blocks : List IndexedBlock}

def CheckResult.fork (res : CheckResult) : Option Int := res.event.map ReorgEvent.forkBlockNumber

theorem emitReorg_fork (block : IndexedBlock) (hash : String) :
    (emitReorg d reads block hash).fork = if reads.sent then some block.blockNumber else none := by
  unfold emitReorg CheckResult.fork
  cases reads.sent with
  | false => rfl
  | true => rfl

theorem scanRest_fork (newVerified : Int → Option String) (rest : List IndexedBlock) :
    (scanRest d reads newVerified rest).fork = if reads.sent then
      (rest.find? fun b => verifyFails reads b &&
        !decide (d.lastVerified b.blockNumber = some b.blockHash)).map IndexedBlock.blockNumber
      else none := by
  induction rest generalizing newVerified with
  | nil => cases reads.sent <;> rfl
  | cons block rest ih =>
    unfold scanRest
    rw [List.find?_cons]
    split
    · rename_i hcac
      rw [ih, hcac]
      simp
    · rename_i hcac
      split
      · rename_i hver
        rw [ih]
        simp [verifyFails, hver]
      · rename_i hver
        rw [emitReorg_fork]
        simp [verifyFails, hver, hcac]
      · rename_i hver
        rw [ih]
        simp [verifyFails, hver]

theorem skips_head (tip : IndexedBlock) (rest : List IndexedBlock) :
    d.skips (tip :: rest) tip = false := by
  simp [Detector.skips]

theorem skips_of_ne {tip block : IndexedBlock} (rest : List IndexedBlock)
    (hne : tip.blockNumber ≠ block.blockNumber) : d.skips (tip :: rest) block =
      decide (d.lastVerified block.blockNumber = some block.blockHash) := by
  simp [Detector.skips, hne]

theorem verifyParentHashChain_eq :
    verifyParentHashChain blocks = blocks.find? (breaksParentHash blocks) := by
  unfold verifyParentHashChain
  split
  · rename_i hlen
    cases blocks with
    | nil => rfl
    | cons b rest =>
      have hrest : rest = [] := by
        apply List.eq_nil_of_length_eq_zero
        rw [List.length_cons] at hlen
        omega
      have hpar : b.blockNumber ≠ wrap64 (b.blockNumber - 1) := by
        unfold wrap64
        omega
      subst hrest
      simp [breaksParentHash, hashByNumber, hpar]
  · rfl

/-- A check of blocks emits for the first one that alarms. -/
theorem checkBlocks_fork (hne : blocks.Pairwise fun a b => a.blockNumber ≠ b.blockNumber) :
    (checkBlocks d reads blocks).fork = if reads.sent then
      (blocks.find? (d.alarms reads blocks)).map IndexedBlock.blockNumber else none := by
  cases blocks with
  | nil => cases reads.sent <;> rfl
  | cons tip rest =>
    obtain ⟨htip, _⟩ := List.pairwise_cons.mp hne
    simp only [checkBlocks, verifyParentHashChain_eq]
    cases hbreak : (tip :: rest).find? (breaksParentHash (tip :: rest)) with
    | some block =>
      have hany : (tip :: rest).any (breaksParentHash (tip :: rest)) = true :=
        List.any_eq_true.mpr ⟨block, List.mem_of_find?_eq_some hbreak, List.find?_some hbreak⟩
      have hsame : d.alarms reads (tip :: rest) = breaksParentHash (tip :: rest) := by
        funext b
        exact if_pos hany
      rw [hsame, hbreak]
      exact emitReorg_fork block block.blockHash
    | none =>
      have hany : ¬ (tip :: rest).any (breaksParentHash (tip :: rest)) = true := by
        intro h
        obtain ⟨b, hb, hp⟩ := List.any_eq_true.mp h
        exact List.find?_eq_none.mp hbreak b hb hp
      have hala : ∀ b, d.alarms reads (tip :: rest) b =
          (verifyFails reads b && !d.skips (tip :: rest) b) := fun b => if_neg hany
      have hrest : rest.find? (d.alarms reads (tip :: rest)) = rest.find? fun b =>
          verifyFails reads b && !decide (d.lastVerified b.blockNumber = some b.blockHash) := by
        apply List.find?_congr
        intro b hb
        rw [hala b, skips_of_ne rest (htip b hb)]
      rw [List.find?_cons, hala tip, skips_head, hrest]
      simp only
      split
      · rename_i hver
        rw [scanRest_fork]
        simp [verifyFails, hver]
      · rename_i hver
        rw [emitReorg_fork]
        simp [verifyFails, hver]
      · rename_i hver
        rw [scanRest_fork]
        simp [verifyFails, hver]

end Facts

end MultichainIndexer
