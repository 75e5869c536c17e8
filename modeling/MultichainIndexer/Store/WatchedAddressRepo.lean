import MultichainIndexer.Lib.Ordered
import MultichainIndexer.Store.Db

/-!
# The watched addresses

One row for each chain, network and address text, as it was given. The rows
stand in the order of their creation. `backfillFromBlock` is the flag of a
pending backfill; labels, sources and row times are left out.
-/

namespace MultichainIndexer

open Relational

structure WatchedAddressRow extends WatchedAddress where
  chain : Chain
  network : Network
  isActive : Bool := true

def WatchedAddressRow.key (r : WatchedAddressRow) : Chain × Network × String :=
  (r.chain, r.network, r.address)

abbrev WatchedAddresses := KeyedTable WatchedAddressRow.key

def WatchedAddressRow.isActiveOf (chain : Chain) (network : Network) (r : WatchedAddressRow) : Bool :=
  r.chain = chain && r.network = network && r.isActive

section Repo
variable (chain : Chain) (network : Network)

/-- `GetActive`. -/
def getActive (t : WatchedAddresses) : List WatchedAddress :=
  (t.rows.filter (WatchedAddressRow.isActiveOf chain network)).map
    WatchedAddressRow.toWatchedAddress

/-- `FindByAddress`: the row of the text, active or not. -/
def findByAddress (address : String) (t : WatchedAddresses) : Option WatchedAddress :=
  (KeyedTable.find? t (chain, network, address)).map WatchedAddressRow.toWatchedAddress

/-- `GetPendingBackfill`: the flagged active addresses, the lowest block first. -/
def getPendingBackfill (t : WatchedAddresses) : List WatchedAddress :=
  (Ordered.ascending (fun r => r.backfillFromBlock.getD 0) (t.rows.filter fun r =>
    r.isActiveOf chain network && r.backfillFromBlock.isSome)).map
      WatchedAddressRow.toWatchedAddress

/-- `ClearBackfill`: every flag of the chain and network is taken back. -/
def clearBackfill (t : WatchedAddresses) : WatchedAddresses :=
  t.update (fun r => if r.chain = chain ∧ r.network = network ∧ r.backfillFromBlock.isSome = true
      then { r with backfillFromBlock := none } else r) (by
    have hkey : ∀ r : WatchedAddressRow, (if r.chain = chain ∧ r.network = network ∧
        r.backfillFromBlock.isSome = true then { r with backfillFromBlock := none } else r).key =
        r.key := by
      intro r
      split
      · rfl
      · rfl
    intro a b h
    rwa [hkey, hkey] at h)

/-- `SetBackfillFromBlock`: the flags of the given active addresses are overwritten. -/
def setBackfillFromBlock (addresses : List String) (fromBlock : Int) (t : WatchedAddresses) :
    WatchedAddresses :=
  t.update (fun r => if r.isActiveOf chain network && decide (r.address ∈ addresses)
      then { r with backfillFromBlock := some fromBlock } else r) (by
    have hkey : ∀ r : WatchedAddressRow, (if r.isActiveOf chain network &&
        decide (r.address ∈ addresses) then { r with backfillFromBlock := some fromBlock } else
        r).key = r.key := by
      intro r
      split
      · rfl
      · rfl
    intro a b h
    rwa [hkey, hkey] at h)

end Repo

/-- `Upsert`: a stored address only changes between active and not. -/
def upsertWatchedAddress (addr : WatchedAddressRow) (t : WatchedAddresses) : WatchedAddresses :=
  upsertFrom (fun (r i : WatchedAddressRow) => { r with isActive := i.isActive })
    WatchedAddressRow.key (fun i => { i with backfillFromBlock := none }) (fun _ _ => rfl)
    (fun _ => rfl) addr t

def backfillFlag (t : WatchedAddresses) (k : Chain × Network × String) : Option Int :=
  (KeyedTable.find? t k).bind fun r => r.backfillFromBlock

section Flags
variable {chain : Chain} {network : Network} {t : WatchedAddresses}
variable {k : Chain × Network × String}

def flaggedBy (chain : Chain) (network : Network) (addresses : List String)
    (t : WatchedAddresses) : List (Chain × Network × String) :=
  (t.rows.filter fun r => r.isActiveOf chain network && decide (r.address ∈ addresses)).map
    WatchedAddressRow.key

theorem backfillFlag_set (addresses : List String) (fromBlock : Int) :
    backfillFlag (setBackfillFromBlock chain network addresses fromBlock t) k =
      if k ∈ flaggedBy chain network addresses t then some fromBlock else backfillFlag t k := by
  unfold backfillFlag setBackfillFromBlock
  rw [KeyedTable.find?_update (by intro r; split <;> rfl)]
  cases hfind : KeyedTable.find? t k with
  | none =>
    have hnot : k ∉ flaggedBy chain network addresses t := by
      intro hk
      obtain ⟨r, hr, hkey⟩ := List.mem_map.mp hk
      exact KeyedTable.find?_eq_none_iff.mp hfind r (List.mem_of_mem_filter hr) hkey
    rw [if_neg hnot]
    rfl
  | some r =>
    obtain ⟨hr, hkey⟩ := KeyedTable.find?_eq_some_iff.mp hfind
    have hiff : k ∈ flaggedBy chain network addresses t ↔
        (r.isActiveOf chain network && decide (r.address ∈ addresses)) = true := by
      constructor
      · intro hk
        obtain ⟨s, hs, hskey⟩ := List.mem_map.mp hk
        obtain ⟨hs, hcond⟩ := List.mem_filter.mp hs
        rw [KeyedTable.eq_of_key_eq hr hs (hkey.trans hskey.symm)]
        exact hcond
      · intro hcond
        exact List.mem_map.mpr ⟨r, List.mem_filter.mpr ⟨hr, hcond⟩, hkey⟩
    simp only [Option.map_some, Option.bind_some, hiff]
    split
    · rfl
    · rfl

theorem backfillFlag_clear :
    backfillFlag (clearBackfill chain network t) k =
      if k.1 = chain ∧ k.2.1 = network then none else backfillFlag t k := by
  unfold backfillFlag clearBackfill
  rw [KeyedTable.find?_update (by intro r; split <;> rfl)]
  cases hfind : KeyedTable.find? t k with
  | none =>
    split
    · rfl
    · rfl
  | some r =>
    obtain ⟨_, rfl⟩ := KeyedTable.find?_eq_some_iff.mp hfind
    simp only [Option.map_some, Option.bind_some]
    by_cases hown : r.key.1 = chain ∧ r.key.2.1 = network
    · rw [if_pos hown]
      split
      · rfl
      · rename_i hnot
        by_contra hsome
        exact hnot ⟨hown.1, hown.2, Option.isSome_iff_ne_none.mpr hsome⟩
    · rw [if_neg hown]
      split
      · rename_i h
        exact absurd ⟨h.1, h.2.1⟩ hown
      · rfl

end Flags

end MultichainIndexer
