import MultichainIndexer.Lib.Ring
import MultichainIndexer.Lib.Text
import Mathlib.Algebra.Order.Floor.Semiring
import Mathlib.Data.List.Sort
import Mathlib.Data.Rat.Floor
import Mathlib.Logic.Function.Basic

/-!
# The signals of the auto-tuner

For each chain and network a registry keeps the latest RPC results and commit
latencies in rings. The RPC ring counts its errors as they come and go; the latency
ring is sorted when it is read. What a snapshot reports is the error rate and the
95th percentile over the latest samples of its key.
-/

namespace MultichainIndexer

open Text

namespace Signals

def autoTuneSignalRPCWindowSize : Nat := 64

def autoTuneSignalCommitWindowSize : Nat := 64

structure RpcErrorRateSeries extends Ring.Buffer UInt8 where
  samples := List.replicate autoTuneSignalRPCWindowSize 0
  errorCount : Int := 0

def RpcErrorRateSeries.record (s : RpcErrorRateSeries) (isError : Bool) : RpcErrorRateSeries :=
  let old := s.samples.getD s.nextIndex 0
  let errorCount :=
    if s.sampleCount < autoTuneSignalRPCWindowSize then s.errorCount
    else if old = 1 then s.errorCount - 1
    else s.errorCount
  { toBuffer := s.toBuffer.record autoTuneSignalRPCWindowSize (if isError then 1 else 0)
    errorCount := if isError then errorCount + 1 else errorCount }

def RpcErrorRateSeries.errorRateBps (s : RpcErrorRateSeries) : Int :=
  if s.sampleCount = 0 then 0 else (s.errorCount * 10000).tdiv s.sampleCount

structure CommitLatencySeries extends Ring.Buffer Int where
  samples := List.replicate autoTuneSignalCommitWindowSize 0

def CommitLatencySeries.record (s : CommitLatencySeries) (latencyMs : Int) : CommitLatencySeries :=
  if latencyMs < 0 then s
  else { toBuffer := s.toBuffer.record autoTuneSignalCommitWindowSize latencyMs }

def CommitLatencySeries.p95Ms (s : CommitLatencySeries) : Int :=
  if s.sampleCount = 0 then 0
  else
    let samples := (s.samples.take s.sampleCount).insertionSort (· ≤ ·)
    let idx := (samples.length * 95 + 99) / 100
    let idx := if idx > 0 then idx - 1 else idx
    let idx := if idx ≥ samples.length then samples.length - 1 else idx
    samples.getD idx 0

structure SignalSeries where
  rpcRate : RpcErrorRateSeries := {}
  dbCommitLatency : CommitLatencySeries := {}

structure AutoTuneRuntimeSignals where
  rpcErrorRateBps : Int := 0
  dbCommitLatencyP95Ms : Int := 0

structure RuntimeSignalRegistry where
  byKey : String → Option SignalSeries := fun _ => none

def autoTuneSignalKey (chain network : String) : String :=
  toLower (trimSpace chain) ++ "/" ++ toLower (trimSpace network)

namespace RuntimeSignalRegistry

def stateFor (r : RuntimeSignalRegistry) (key : String) : SignalSeries := (r.byKey key).getD {}

def snapshot (r : RuntimeSignalRegistry) (chain network : String) : AutoTuneRuntimeSignals :=
  match r.byKey (autoTuneSignalKey chain network) with
  | none => {}
  | some state => ⟨state.rpcRate.errorRateBps, state.dbCommitLatency.p95Ms⟩

def recordRPCResult (r : RuntimeSignalRegistry) (chain network : String) (isError : Bool) :
    RuntimeSignalRegistry :=
  let key := autoTuneSignalKey chain network
  let state := r.stateFor key
  ⟨Function.update r.byKey key (some { state with rpcRate := state.rpcRate.record isError })⟩

def recordDBCommitLatencyMs (r : RuntimeSignalRegistry) (chain network : String)
    (latencyMs : Int) : RuntimeSignalRegistry :=
  if latencyMs < 0 then r
  else
    let key := autoTuneSignalKey chain network
    let state := r.stateFor key
    ⟨Function.update r.byKey key
      (some { state with dbCommitLatency := state.dbCommitLatency.record latencyMs })⟩

end RuntimeSignalRegistry

inductive Sample
  | rpcResult (isError : Bool)
  | commitLatency (latencyMs : Int)

structure Recorded where
  chain : String
  network : String
  sample : Sample

def RuntimeSignalRegistry.step (r : RuntimeSignalRegistry) (rec : Recorded) :
    RuntimeSignalRegistry :=
  match rec.sample with
  | .rpcResult isError => r.recordRPCResult rec.chain rec.network isError
  | .commitLatency latencyMs => r.recordDBCommitLatencyMs rec.chain rec.network latencyMs

def run (records : List Recorded) : RuntimeSignalRegistry :=
  records.foldl RuntimeSignalRegistry.step {}

def rpcResults (key : String) (records : List Recorded) : List Bool :=
  records.filterMap fun rec =>
    if autoTuneSignalKey rec.chain rec.network = key then
      match rec.sample with
      | .rpcResult isError => some isError
      | .commitLatency _ => none
    else none

/-- The latencies that are recorded for a key, in order; a negative one is not. -/
def commitLatencies (key : String) (records : List Recorded) : List Int :=
  records.filterMap fun rec =>
    if autoTuneSignalKey rec.chain rec.network = key then
      match rec.sample with
      | .rpcResult _ => none
      | .commitLatency latencyMs => if 0 ≤ latencyMs then some latencyMs else none
    else none

section Series

def mark (isError : Bool) : UInt8 := if isError then 1 else 0

structure RpcHolds (s : RpcErrorRateSeries) (window : List Bool) : Prop where
  ring : Ring.Holds autoTuneSignalRPCWindowSize s.toBuffer (window.map mark)
  errors : s.errorCount = window.count true

theorem RpcHolds.record {s : RpcErrorRateSeries} {window : List Bool} (h : RpcHolds s window)
    (isError : Bool) :
    RpcHolds (s.record isError) (Ring.slide autoTuneSignalRPCWindowSize window isError) := by
  have hmap : (Ring.slide autoTuneSignalRPCWindowSize window isError).map mark =
      Ring.slide autoTuneSignalRPCWindowSize (window.map mark) (mark isError) := by
    unfold Ring.slide
    rw [List.length_map]
    split
    · simp
    · simp [List.map_tail]
  refine ⟨hmap ▸ h.ring.record (mark isError), ?_⟩
  have hcount := h.ring.count
  have hbou := h.ring.bounded
  rw [List.length_map] at hcount hbou
  unfold RpcErrorRateSeries.record Ring.slide
  dsimp only
  rw [hcount, h.errors]
  by_cases hlt : window.length < autoTuneSignalRPCWindowSize
  · rw [if_pos hlt, if_pos hlt]
    cases isError <;> simp
  · have hfull : (window.map mark).length = autoTuneSignalRPCWindowSize := by
      rw [List.length_map]
      omega
    rw [if_neg hlt, if_neg hlt, List.getD_eq_getElem?_getD, h.ring.oldest hfull]
    cases window with
    | nil => cases hfull
    | cons first window => cases first <;> cases isError <;> simp [mark]

theorem rpc_window (results : List Bool) : RpcHolds (results.foldl RpcErrorRateSeries.record {})
    (results.rtake autoTuneSignalRPCWindowSize) := by
  induction results using List.reverseRecOn with
  | nil => exact ⟨Ring.holds_empty (by decide) 0, rfl⟩
  | append_singleton results isError ih =>
    rw [List.foldl_append, ← Ring.slide_rtake results isError (by decide)]
    exact ih.record isError

theorem errorRateBps_eq {s : RpcErrorRateSeries} {window : List Bool} (h : RpcHolds s window) :
    s.errorRateBps = ((10000 * window.count true / window.length : Nat) : Int) := by
  have hcount := h.ring.count
  rw [List.length_map] at hcount
  unfold RpcErrorRateSeries.errorRateBps
  rw [hcount, h.errors]
  split
  · rename_i hnil
    simp [hnil]
  · rw [Int.mul_comm]
    exact Int.natCast_div _ _

theorem latency_window (latencies : List Int) (hpos : ∀ l ∈ latencies, 0 ≤ l) :
    Ring.Holds autoTuneSignalCommitWindowSize
      (latencies.foldl CommitLatencySeries.record {}).toBuffer
      (latencies.rtake autoTuneSignalCommitWindowSize) := by
  induction latencies using List.reverseRecOn with
  | nil => exact Ring.holds_empty (by decide) 0
  | append_singleton latencies l ih =>
    have hl := hpos l (List.mem_append_right _ (List.mem_singleton_self l))
    rw [List.foldl_append, ← Ring.slide_rtake latencies l (by decide), List.foldl_cons,
      List.foldl_nil, CommitLatencySeries.record, if_neg (Int.not_lt.mpr hl)]
    exact (ih fun l' hl' => hpos l' (List.mem_append_left _ hl')).record l

/-- The rank that the code computes in whole numbers. -/
theorem rank_eq (n : Nat) : (n * 95 + 99) / 100 = ⌈(95 / 100 : ℚ) * n⌉₊ := by
  generalize hq : (n * 95 + 99) / 100 = q
  apply le_antisymm
  · cases q with
    | zero => exact Nat.zero_le _
    | succ k =>
      have hk : 100 * k < 95 * n := by omega
      have hk' : (100 * k : ℚ) < 95 * n := by exact_mod_cast hk
      apply Nat.succ_le_of_lt
      rw [Nat.lt_ceil]
      linarith
  · have hle : 95 * n ≤ 100 * q := by omega
    have hle' : (95 * n : ℚ) ≤ 100 * q := by exact_mod_cast hle
    rw [Nat.ceil_le]
    linarith

/-- The percentile is read at the nearest rank of the sorted window. -/
theorem p95Ms_eq {s : CommitLatencySeries} {window : List Int}
    (h : Ring.Holds autoTuneSignalCommitWindowSize s.toBuffer window) :
    (window = [] → s.p95Ms = 0) ∧ (window ≠ [] →
      (window.insertionSort (· ≤ ·))[⌈(95 / 100 : ℚ) * window.length⌉₊ - 1]? = some s.p95Ms) := by
  have hsort : (s.samples.take s.sampleCount).insertionSort (· ≤ ·) =
      window.insertionSort (· ≤ ·) := by
    have hperm := ((s.samples.take s.sampleCount).perm_insertionSort (· ≤ ·)).trans
      (h.perm.trans (window.perm_insertionSort (· ≤ ·)).symm)
    exact hperm.eq_of_pairwise' (List.pairwise_insertionSort _ _)
      (List.pairwise_insertionSort _ _)
  unfold CommitLatencySeries.p95Ms
  rw [hsort, h.count]
  constructor
  · rintro rfl
    rfl
  · intro hne
    have hpos := List.length_pos_of_ne_nil hne
    dsimp only
    rw [if_neg hpos.ne', ← rank_eq, List.length_insertionSort,
      if_pos (show (window.length * 95 + 99) / 100 > 0 by omega), if_neg (by omega),
      List.getD_eq_getElem?_getD]
    have hidx : (window.length * 95 + 99) / 100 - 1 <
        (window.insertionSort (· ≤ ·)).length := by
      rw [List.length_insertionSort]
      omega
    rw [List.getElem?_eq_getElem hidx]
    rfl

end Series

section Registry

theorem rpcResults_concat (key : String) (records : List Recorded) (rec : Recorded) :
    rpcResults key (records ++ [rec]) = rpcResults key records ++ rpcResults key [rec] :=
  List.filterMap_append

theorem commitLatencies_concat (key : String) (records : List Recorded) (rec : Recorded) :
    commitLatencies key (records ++ [rec]) =
      commitLatencies key records ++ commitLatencies key [rec] :=
  List.filterMap_append

theorem commitLatencies_nonneg (key : String) (records : List Recorded) :
    ∀ l ∈ commitLatencies key records, 0 ≤ l := by
  intro l hl
  obtain ⟨rec, -, hrec⟩ := List.mem_filterMap.mp hl
  split at hrec
  · split at hrec
    · cases hrec
    · split at hrec
      · cases hrec
        assumption
      · cases hrec
  · cases hrec

theorem stateFor_step (r : RuntimeSignalRegistry) (rec : Recorded) (key : String) :
    (r.step rec).stateFor key =
      ⟨(rpcResults key [rec]).foldl RpcErrorRateSeries.record (r.stateFor key).rpcRate,
        (commitLatencies key [rec]).foldl CommitLatencySeries.record
          (r.stateFor key).dbCommitLatency⟩ := by
  obtain ⟨chain, network, sample⟩ := rec
  by_cases hkey : autoTuneSignalKey chain network = key
  · subst hkey
    cases sample with
    | rpcResult isError =>
      simp [RuntimeSignalRegistry.step, RuntimeSignalRegistry.recordRPCResult,
        RuntimeSignalRegistry.stateFor, rpcResults, commitLatencies]
    | commitLatency latencyMs =>
      by_cases hneg : latencyMs < 0
      · simp [RuntimeSignalRegistry.step, RuntimeSignalRegistry.recordDBCommitLatencyMs,
          RuntimeSignalRegistry.stateFor, rpcResults, commitLatencies, hneg, Int.not_le.mpr hneg]
      · simp [RuntimeSignalRegistry.step, RuntimeSignalRegistry.recordDBCommitLatencyMs,
          RuntimeSignalRegistry.stateFor, rpcResults, commitLatencies, hneg, Int.not_lt.mp hneg]
  · have hkey' : ¬ key = autoTuneSignalKey chain network := fun h => hkey h.symm
    cases sample with
    | rpcResult isError =>
      simp [RuntimeSignalRegistry.step, RuntimeSignalRegistry.recordRPCResult,
        RuntimeSignalRegistry.stateFor, rpcResults, commitLatencies, hkey, hkey']
    | commitLatency latencyMs =>
      by_cases hneg : latencyMs < 0
      · simp [RuntimeSignalRegistry.step, RuntimeSignalRegistry.recordDBCommitLatencyMs,
          rpcResults, commitLatencies, hneg, hkey]
      · simp [RuntimeSignalRegistry.step, RuntimeSignalRegistry.recordDBCommitLatencyMs,
          RuntimeSignalRegistry.stateFor, rpcResults, commitLatencies, hneg, hkey, hkey']

theorem stateFor_run (records : List Recorded) (key : String) :
    (run records).stateFor key =
      ⟨(rpcResults key records).foldl RpcErrorRateSeries.record {},
        (commitLatencies key records).foldl CommitLatencySeries.record {}⟩ := by
  induction records using List.reverseRecOn with
  | nil => rfl
  | append_singleton records rec ih =>
    rw [run, List.foldl_concat, ← run, stateFor_step, ih,
      rpcResults_concat, commitLatencies_concat, List.foldl_append, List.foldl_append]

theorem snapshot_eq (r : RuntimeSignalRegistry) (chain network : String) :
    r.snapshot chain network =
      ⟨(r.stateFor (autoTuneSignalKey chain network)).rpcRate.errorRateBps,
        (r.stateFor (autoTuneSignalKey chain network)).dbCommitLatency.p95Ms⟩ := by
  unfold RuntimeSignalRegistry.snapshot RuntimeSignalRegistry.stateFor
  cases r.byKey (autoTuneSignalKey chain network) with
  | none => rfl
  | some state => rfl

end Registry

/-- Whatever was recorded, a snapshot reports the error rate of the last results of its key and the
95th percentile of the last latencies that are not negative. -/
theorem snapshot_windows (records : List Recorded) (chain network : String) :
    let key := autoTuneSignalKey chain network
    let results := (rpcResults key records).rtake autoTuneSignalRPCWindowSize
    let latencies := (commitLatencies key records).rtake autoTuneSignalCommitWindowSize
    let signals := (run records).snapshot chain network
    results.length = min autoTuneSignalRPCWindowSize (rpcResults key records).length ∧
    signals.rpcErrorRateBps = ((10000 * results.count true / results.length : Nat) : Int) ∧
    latencies.length = min autoTuneSignalCommitWindowSize (commitLatencies key records).length ∧
    (latencies = [] → signals.dbCommitLatencyP95Ms = 0) ∧
    (latencies ≠ [] →
      (latencies.insertionSort (· ≤ ·))[⌈(95 / 100 : ℚ) * latencies.length⌉₊ - 1]? =
        some signals.dbCommitLatencyP95Ms) := by
  intro key results latencies signals
  have hlen : ∀ {β : Type} (l : List β) (n : Nat), (l.rtake n).length = min n l.length := by
    intro β l n
    rw [List.rtake, List.length_drop]
    omega
  have hsig : signals = _ := snapshot_eq (run records) chain network
  rw [stateFor_run] at hsig
  rw [hsig]
  refine ⟨hlen _ _, errorRateBps_eq (rpc_window _), hlen _ _, ?_⟩
  exact p95Ms_eq (latency_window _ (commitLatencies_nonneg key records))

end Signals

end MultichainIndexer
