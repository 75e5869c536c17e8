import MultichainIndexer.Domain.Model
import MultichainIndexer.Lib.Text

/-!
# Policy manifest digests

A digest is a text of tokens between bars, and a token may carry a number under
a key: the sequences of a rollback or of a snapshot, the epochs of a rollback
fence, and the fields that order two owners of a release window. The predicates
are the ones by which the controller tells the digests of one epoch apart.
-/

namespace MultichainIndexer

open Text

namespace AutoTune

def defaultAutoTunePolicyVersion : String := "policy-v1"

def defaultAutoTunePolicyManifestDigest : String := "manifest-v1"

/-- Lower case without outer blanks, or the default where nothing is left. -/
@[irreducible]
def normalizeOr (default text : String) : String :=
  let trimmed := trimSpace (toLower text)
  if trimmed = "" then default else trimmed

def normalizePolicyVersion (version : String) : String :=
  normalizeOr defaultAutoTunePolicyVersion version

def normalizePolicyManifestDigest (digest : String) : String :=
  normalizeOr defaultAutoTunePolicyManifestDigest digest

@[irreducible]
def tokens (digest : String) : List String := (split '|' digest).map trimSpace

/-- A number that is not negative, as `strconv.ParseInt` reads it into 64 bits. -/
def parseSeq (value : String) : Option Int :=
  (parseInt value).filter fun n => IsInt64 n ∧ 0 ≤ n

def keyValue (token key : String) : String := trimSpace (trimPrefix token key)

/-- The value that the last token under the key gives it. A token is under the first of the keys
that it starts with. -/
def lastValue (keys : List String) (key digest : String) : String :=
  (tokens digest).foldl (fun value token =>
    if keys.find? (hasPrefix token ·) = some key then keyValue token key else value) ""

def parseRollbackLineage (digest : String) : Option (Int × Int × Int) := do
  let keys := ["rollback-from-seq=", "rollback-to-seq=", "rollback-forward-seq="]
  let fromSeq ← parseSeq (lastValue keys "rollback-from-seq=" digest)
  let toSeq ← parseSeq (lastValue keys "rollback-to-seq=" digest)
  let forwardSeq ← parseSeq (lastValue keys "rollback-forward-seq=" digest)
  return (fromSeq, toSeq, forwardSeq)

def parseSnapshotCutoverLineage (digest : String) : Option (Int × Int) := do
  let keys := ["snapshot-base-seq=", "snapshot-tail-seq="]
  let baseSeq ← parseSeq (lastValue keys "snapshot-base-seq=" digest)
  let tailSeq ← parseSeq (lastValue keys "snapshot-tail-seq=" digest)
  return (baseSeq, tailSeq)

def parseSingleKey (digest keyPrefix : String) : Option Int :=
  ((tokens digest).find? (hasPrefix · keyPrefix)).bind fun token => parseSeq (keyValue token keyPrefix)

def parseRollbackFenceTombstoneExpiryEpoch (digest : String) : Option Int :=
  parseSingleKey digest "rollback-fence-tombstone-expiry-epoch="

def parseRollbackFenceLateMarkerHoldEpoch (digest : String) : Option Int :=
  parseSingleKey digest "rollback-fence-late-marker-hold-epoch="

def parseRollbackFenceLateMarkerReleaseEpoch (digest : String) : Option Int :=
  parseSingleKey digest "rollback-fence-late-marker-release-epoch="

def hasRollbackFenceEpochCompactionTombstone (digest : String) : Bool :=
  (tokens digest).any fun token =>
    token = "rollback-fence-tombstone" ||
      hasPrefix token "rollback-fence-tombstone=" &&
        keyValue token "rollback-fence-tombstone=" ∈ ["1", "true", "yes", "on"]

/-! ### The lineage of a rollback -/

/-- The lineage goes back to the epoch from a later one, and forward to that one at least. -/
def anchored (epoch : Int) (lineage : Int × Int × Int) : Bool :=
  lineage.2.1 = epoch && lineage.2.1 < lineage.1 && lineage.1 ≤ lineage.2.2

def validateRollbackLineage (epoch : Int) (normalized : String) : Bool :=
  (parseRollbackLineage normalized).any (anchored epoch)

def validateLineagePair (epoch : Int) (sourceNormalized targetNormalized : String) : Bool :=
  match parseRollbackLineage sourceNormalized, parseRollbackLineage targetNormalized with
  | some source, some target => source = target && anchored epoch source && anchored epoch target
  | _, _ => false

def isRollbackFenceTransition (epoch : Int) (digest : String) : Bool :=
  0 ≤ epoch && (parseRollbackLineage (normalizePolicyManifestDigest digest)).any fun lineage =>
    lineage.2.1 = epoch && lineage.2.1 < lineage.1

def isRollbackFenceDigestAnchoredToEpoch (epoch : Int) (digest : String) : Bool :=
  0 ≤ epoch && validateRollbackLineage epoch (normalizePolicyManifestDigest digest)

def isDeterministicRollbackLineage (previousEpoch incomingEpoch : Int) (incomingDigest : String) :
    Bool :=
  incomingEpoch < previousEpoch && (parseRollbackLineage incomingDigest).any fun lineage =>
    lineage.1 = previousEpoch && lineage.2.1 = incomingEpoch && lineage.2.1 < lineage.1 &&
      lineage.1 ≤ lineage.2.2

def isDeterministicSnapshotCutover (previousEpoch incomingEpoch : Int) (incomingDigest : String) :
    Bool :=
  wrap64 (previousEpoch + 1) < incomingEpoch &&
    (parseSnapshotCutoverLineage incomingDigest).any fun lineage =>
      lineage.1 = previousEpoch && lineage.2 = incomingEpoch && lineage.1 < lineage.2

/-! ### The digests of a rollback fence -/

def isRollbackFenceEpochCompactionDigest (epoch : Int) (digest : String) : Bool :=
  let normalized := normalizePolicyManifestDigest digest
  0 ≤ epoch && hasRollbackFenceEpochCompactionTombstone normalized &&
    validateRollbackLineage epoch normalized

def isRollbackFenceTombstoneExpiryDigest (epoch : Int) (digest : String) : Bool :=
  let normalized := normalizePolicyManifestDigest digest
  0 ≤ epoch && !hasRollbackFenceEpochCompactionTombstone normalized &&
    (parseRollbackFenceLateMarkerHoldEpoch normalized).isNone &&
    (parseRollbackFenceLateMarkerReleaseEpoch normalized).isNone &&
    match parseRollbackFenceTombstoneExpiryEpoch normalized with
    | some expiryEpoch => validateRollbackLineage epoch normalized && epoch < expiryEpoch
    | none => false

def isRollbackFencePostExpiryLateMarkerQuarantineDigest (epoch : Int) (digest : String) : Bool :=
  let normalized := normalizePolicyManifestDigest digest
  0 ≤ epoch && !hasRollbackFenceEpochCompactionTombstone normalized &&
    (parseRollbackFenceLateMarkerReleaseEpoch normalized).isNone &&
    match parseRollbackFenceTombstoneExpiryEpoch normalized,
      parseRollbackFenceLateMarkerHoldEpoch normalized with
    | some expiryEpoch, some holdEpoch =>
      validateRollbackLineage epoch normalized && epoch < expiryEpoch && expiryEpoch < holdEpoch
    | _, _ => false

def isRollbackFencePostExpiryLateMarkerReleaseDigest (epoch : Int) (digest : String) : Bool :=
  let normalized := normalizePolicyManifestDigest digest
  0 ≤ epoch && !hasRollbackFenceEpochCompactionTombstone normalized &&
    match parseRollbackFenceTombstoneExpiryEpoch normalized,
      parseRollbackFenceLateMarkerHoldEpoch normalized,
      parseRollbackFenceLateMarkerReleaseEpoch normalized with
    | some expiryEpoch, some holdEpoch, some releaseEpoch =>
      validateRollbackLineage epoch normalized && epoch < expiryEpoch && expiryEpoch < holdEpoch &&
        holdEpoch < releaseEpoch
    | _, _, _ => false

/-! ### The epoch markers of a release window -/

/-- The stages of the resurrection cycles; each marker from the seventh on is named by one more. -/
def cycleStages : List String :=
  ["reintegration", "seal", "drift", "reanchor", "compaction", "expiry", "quarantine",
    "reintegration", "seal", "drift", "reanchor", "compaction", "expiry", "quarantine",
    "reintegration", "seal", "drift"]

def cycleKeys (stages : Nat) : List String :=
  let name := "-".intercalate (cycleStages.take stages) ++ "-epoch="
  ["rollback-fence-resurrection-" ++ name, "rollback-fence-late-resurrection-" ++ name,
    "rollback-fence-post-late-resurrection-" ++ name,
    "rollback-fence-post-marker-expiry-late-resurrection-" ++ name, "rollback-fence-post-" ++ name]

/-- The keys that carry each of the 22 markers. -/
def epochMarkers : List (List String) :=
  [["rollback-fence-seal-drift-epoch=", "rollback-fence-steady-seal-drift-epoch=",
      "rollback-fence-post-steady-seal-drift-epoch="],
    ["rollback-fence-drift-reanchor-epoch=", "rollback-fence-post-drift-reanchor-epoch=",
      "rollback-fence-post-steady-drift-reanchor-epoch="],
    ["rollback-fence-reanchor-compaction-epoch=", "rollback-fence-post-reanchor-compaction-epoch=",
      "rollback-fence-post-drift-reanchor-compaction-epoch="],
    ["rollback-fence-compaction-expiry-epoch=", "rollback-fence-lineage-compaction-expiry-epoch=",
      "rollback-fence-post-lineage-compaction-expiry-epoch="],
    ["rollback-fence-resurrection-quarantine-epoch=",
      "rollback-fence-late-resurrection-quarantine-epoch=",
      "rollback-fence-post-expiry-late-resurrection-quarantine-epoch=",
      "rollback-fence-post-marker-expiry-late-resurrection-quarantine-epoch="],
    ["rollback-fence-resurrection-reintegration-epoch=",
      "rollback-fence-late-resurrection-reintegration-epoch=",
      "rollback-fence-post-late-resurrection-quarantine-reintegration-epoch=",
      "rollback-fence-post-marker-expiry-late-resurrection-reintegration-epoch="],
    cycleKeys 2, cycleKeys 3, cycleKeys 4, cycleKeys 5, cycleKeys 6, cycleKeys 7, cycleKeys 8,
    cycleKeys 9, cycleKeys 10, cycleKeys 11, cycleKeys 12, cycleKeys 13, cycleKeys 14,
    cycleKeys 15, cycleKeys 16, cycleKeys 17]

/-- The number under the keys, where all tokens under one of them agree on it. -/
def parseEpochMarker (digest : String) (keys : List String) : Option Int :=
  ((tokens digest).foldlM (fun seen token =>
    let value := ((keys.find? (hasPrefix token ·)).map (keyValue token)).getD ""
    if value = "" then some seen
    else (parseSeq value).bind fun parsedEpoch =>
      match seen with
      | none => some (some parsedEpoch)
      | some epoch => if epoch = parsedEpoch then some seen else none) (none : Option Int)).join

/-! ### The order of the owners of a release window -/

inductive OwnershipField
  | releaseEpoch | bridgeSequence | releaseWatermark | drainWatermark | liveHead
  | steadyStateWatermark | steadyGeneration | generationFloor | floorLiftEpoch
  | settleWindowEpoch | spilloverEpoch | spilloverRejoinEpoch | rejoinSealEpoch
  deriving DecidableEq

namespace OwnershipField

def all : List OwnershipField :=
  [releaseEpoch, bridgeSequence, releaseWatermark, drainWatermark, liveHead, steadyStateWatermark,
    steadyGeneration, generationFloor, floorLiftEpoch, settleWindowEpoch, spilloverEpoch,
    spilloverRejoinEpoch, rejoinSealEpoch]

def keys : OwnershipField → List String
  | releaseEpoch => ["rollback-fence-late-marker-release-epoch"]
  | bridgeSequence => ["rollback-fence-late-bridge-sequence", "rollback-fence-late-bridge-seq"]
  | releaseWatermark =>
    ["rollback-fence-late-bridge-release-watermark", "rollback-fence-release-watermark"]
  | drainWatermark =>
    ["rollback-fence-late-bridge-drain-watermark", "rollback-fence-backlog-drain-watermark",
      "rollback-fence-drain-watermark"]
  | liveHead =>
    ["rollback-fence-live-head", "rollback-fence-live-catchup-head", "rollback-fence-live-watermark"]
  | steadyStateWatermark =>
    ["rollback-fence-steady-state-watermark", "rollback-fence-steady-watermark",
      "rollback-fence-rebaseline-watermark"]
  | steadyGeneration => ["rollback-fence-steady-generation", "rollback-fence-baseline-generation"]
  | generationFloor =>
    ["rollback-fence-generation-retention-floor", "rollback-fence-retention-floor"]
  | floorLiftEpoch =>
    ["rollback-fence-floor-lift-epoch", "rollback-fence-retention-floor-lift-epoch"]
  | settleWindowEpoch =>
    ["rollback-fence-settle-window-epoch", "rollback-fence-floor-lift-settle-window-epoch"]
  | spilloverEpoch =>
    ["rollback-fence-spillover-epoch", "rollback-fence-late-spillover-epoch",
      "rollback-fence-settle-window-spillover-epoch"]
  | spilloverRejoinEpoch =>
    ["rollback-fence-spillover-rejoin-epoch", "rollback-fence-rejoin-window-epoch",
      "rollback-fence-late-spillover-rejoin-epoch"]
  | rejoinSealEpoch =>
    ["rollback-fence-rejoin-seal-epoch", "rollback-fence-steady-seal-epoch",
      "rollback-fence-post-rejoin-seal-epoch"]

/-- Which field needs which other one. -/
def needs : List (OwnershipField × OwnershipField) :=
  [(drainWatermark, bridgeSequence), (liveHead, bridgeSequence), (liveHead, drainWatermark),
    (steadyStateWatermark, liveHead), (steadyGeneration, steadyStateWatermark),
    (generationFloor, steadyGeneration), (floorLiftEpoch, generationFloor),
    (settleWindowEpoch, floorLiftEpoch), (spilloverEpoch, settleWindowEpoch),
    (spilloverRejoinEpoch, spilloverEpoch), (rejoinSealEpoch, spilloverRejoinEpoch)]

end OwnershipField

abbrev OwnershipPrefixFields := OwnershipField → Option Int

/-- The first value of a field stays; a value that is no number fails. -/
def setOwnershipPrefixField (fields : OwnershipPrefixFields) (field : OwnershipField)
    (value : String) : Option OwnershipPrefixFields :=
  if (fields field).isSome then some fields
  else (parseSeq value).map fun parsed f => if f = field then some parsed else fields f

def parseRollbackFenceOwnershipPrefixFields (digest : String) : Option OwnershipPrefixFields :=
  (tokens digest).foldlM (fun fields token =>
    match cut '=' token with
    | none => some fields
    | some (key, value) =>
      match OwnershipField.all.find? (key ∈ ·.keys) with
      | none => some fields
      | some field => setOwnershipPrefixField fields field (trimSpace value)) fun _ => none

/-- The fields by which two owners are compared, where they are complete and in order. -/
def parseRollbackFenceOwnershipOrdering (epoch : Int) (digest : String) : Option (List Int) := do
  let normalized := normalizePolicyManifestDigest digest
  guard (0 ≤ epoch ∧ isRollbackFencePostExpiryLateMarkerReleaseDigest epoch normalized)
  let fields ← parseRollbackFenceOwnershipPrefixFields normalized
  let releaseEpoch ← fields .releaseEpoch
  let em := epochMarkers.map (parseEpochMarker normalized)
  guard ((fields .bridgeSequence).isSome = (fields .releaseWatermark).isSome)
  guard (OwnershipField.needs.all fun (field, needed) =>
    !(fields field).isSome || (fields needed).isSome)
  -- each marker needs the one before it, and the first the seal of the rejoin
  guard ((em.zip (fields .rejoinSealEpoch :: em)).all fun (marker, needed) =>
    !marker.isSome || needed.isSome)
  let bridgeSequence := (fields .bridgeSequence).getD 0
  let releaseWatermark :=
    if (fields .bridgeSequence).isSome then (fields .releaseWatermark).getD 0 else releaseEpoch
  guard (releaseEpoch ≤ releaseWatermark)
  let drainWatermark := (fields .drainWatermark).getD releaseWatermark
  guard (releaseWatermark ≤ drainWatermark)
  let liveHead := (fields .liveHead).getD drainWatermark
  guard (drainWatermark ≤ liveHead)
  let steadyStateWatermark := (fields .steadyStateWatermark).getD liveHead
  guard (liveHead ≤ steadyStateWatermark)
  let steadyGeneration := (fields .steadyGeneration).getD 0
  let generationFloor := (fields .generationFloor).getD 0
  let markerValues := em.map (·.getD 0)
  -- from the fifth marker on the epochs rise
  guard (((em.zip (0 :: markerValues)).drop 4).all fun (marker, before) =>
    !marker.isSome || before < marker.getD 0)
  guard (generationFloor ≤ steadyGeneration)
  return [epoch, bridgeSequence, drainWatermark, liveHead, steadyStateWatermark, steadyGeneration,
    generationFloor, (fields .floorLiftEpoch).getD 0, (fields .settleWindowEpoch).getD 0,
    (fields .spilloverEpoch).getD 0, (fields .spilloverRejoinEpoch).getD 0,
    (fields .rejoinSealEpoch).getD 0] ++ markerValues

def compareRollbackFenceOwnershipOrdering : List Int → List Int → Int
  | l :: left, r :: right =>
    if l < r then -1 else if r < l then 1 else compareRollbackFenceOwnershipOrdering left right
  | _, _ => 0

def stageProgressionMarkers : List Nat := [13, 14, 15, 16, 18, 12, 19, 20, 21]

def hasMarker (digest : String) (idx : Nat) : Bool :=
  (parseEpochMarker digest (epochMarkers.getD idx [])).isSome

/-- The first marker that only one of the two has decides for the one that has it. -/
def stageProgression (source target : String) : List Nat → Option Bool
  | [] => none
  | idx :: rest =>
    if !hasMarker source idx && hasMarker target idx then some true
    else if hasMarker source idx && !hasMarker target idx then some false
    else stageProgression source target rest

/-! ### The transitions of one epoch -/

def isDeterministicRollbackFenceEpochCompactionTransition (epoch : Int)
    (sourceDigest targetDigest : String) : Bool :=
  let source := normalizePolicyManifestDigest sourceDigest
  let target := normalizePolicyManifestDigest targetDigest
  0 ≤ epoch && hasRollbackFenceEpochCompactionTombstone target &&
    validateLineagePair epoch source target

def isDeterministicRollbackFenceTombstoneExpiryTransition (epoch : Int)
    (sourceDigest targetDigest : String) : Bool :=
  let source := normalizePolicyManifestDigest sourceDigest
  let target := normalizePolicyManifestDigest targetDigest
  0 ≤ epoch && isRollbackFenceEpochCompactionDigest epoch source &&
    isRollbackFenceTombstoneExpiryDigest epoch target && validateLineagePair epoch source target

def agree (parse : String → Option Int) (source target : String) : Bool :=
  (parse source).isSome && parse source = parse target

def isDeterministicRollbackFencePostExpiryLateMarkerQuarantineTransition (epoch : Int)
    (sourceDigest targetDigest : String) : Bool :=
  let source := normalizePolicyManifestDigest sourceDigest
  let target := normalizePolicyManifestDigest targetDigest
  0 ≤ epoch && isRollbackFenceTombstoneExpiryDigest epoch source &&
    isRollbackFencePostExpiryLateMarkerQuarantineDigest epoch target &&
    validateLineagePair epoch source target &&
    agree parseRollbackFenceTombstoneExpiryEpoch source target

def isDeterministicRollbackFencePostExpiryLateMarkerReleaseTransition (epoch : Int)
    (sourceDigest targetDigest : String) : Bool :=
  let source := normalizePolicyManifestDigest sourceDigest
  let target := normalizePolicyManifestDigest targetDigest
  0 ≤ epoch && isRollbackFencePostExpiryLateMarkerQuarantineDigest epoch source &&
    isRollbackFencePostExpiryLateMarkerReleaseDigest epoch target &&
    validateLineagePair epoch source target &&
    agree parseRollbackFenceTombstoneExpiryEpoch source target &&
    agree parseRollbackFenceLateMarkerHoldEpoch source target &&
    match parseRollbackFenceLateMarkerReleaseEpoch target,
      parseRollbackFenceLateMarkerHoldEpoch target with
    | some releaseEpoch, some holdEpoch => holdEpoch < releaseEpoch
    | _, _ => false

def isDeterministicRollbackFencePostExpiryLateMarkerReleaseWindowTransition (epoch : Int)
    (sourceDigest targetDigest : String) : Bool :=
  let source := normalizePolicyManifestDigest sourceDigest
  let target := normalizePolicyManifestDigest targetDigest
  0 ≤ epoch && isRollbackFencePostExpiryLateMarkerReleaseDigest epoch source &&
    isRollbackFencePostExpiryLateMarkerReleaseDigest epoch target &&
    validateLineagePair epoch source target &&
    agree parseRollbackFenceTombstoneExpiryEpoch source target &&
    agree parseRollbackFenceLateMarkerHoldEpoch source target &&
    match parseRollbackFenceOwnershipOrdering epoch source,
      parseRollbackFenceOwnershipOrdering epoch target with
    | some sourceOwnership, some targetOwnership =>
      match stageProgression source target stageProgressionMarkers with
      | some decided => decided
      | none => compareRollbackFenceOwnershipOrdering sourceOwnership targetOwnership < 0
    | _, _ => false

def isDeterministicRollbackFencePostReleaseWindowEpochRolloverStaleTransition
    (previousEpoch incomingEpoch : Int) (previousDigest incomingDigest : String) : Bool :=
  0 ≤ previousEpoch && incomingEpoch = wrap64 (previousEpoch + 1) &&
    isRollbackFencePostExpiryLateMarkerReleaseDigest previousEpoch
      (normalizePolicyManifestDigest previousDigest) &&
    isRollbackFenceDigestAnchoredToEpoch previousEpoch incomingDigest

structure SameEpochPolicyLineageRule where
  applies : Int → String → String → Bool
  adoptIncoming : Bool

/-- The rules in the order in which they are tried; the second half are the mirrored ones. -/
def sameEpochPolicyLineageRules : List SameEpochPolicyLineageRule :=
  [⟨isDeterministicRollbackFenceEpochCompactionTransition, true⟩,
    ⟨isDeterministicRollbackFenceTombstoneExpiryTransition, true⟩,
    ⟨isDeterministicRollbackFencePostExpiryLateMarkerQuarantineTransition, true⟩,
    ⟨isDeterministicRollbackFencePostExpiryLateMarkerReleaseTransition, true⟩,
    ⟨isDeterministicRollbackFencePostExpiryLateMarkerReleaseWindowTransition, true⟩,
    ⟨fun epoch previous incoming =>
      isDeterministicRollbackFencePostExpiryLateMarkerReleaseWindowTransition epoch incoming
        previous, false⟩,
    ⟨fun epoch previous incoming =>
      isDeterministicRollbackFencePostExpiryLateMarkerReleaseTransition epoch incoming previous,
      false⟩,
    ⟨fun epoch previous incoming =>
      isDeterministicRollbackFencePostExpiryLateMarkerQuarantineTransition epoch incoming previous,
      false⟩,
    ⟨fun epoch previous incoming =>
      isDeterministicRollbackFenceTombstoneExpiryTransition epoch incoming previous, false⟩,
    ⟨fun epoch previous incoming =>
      isDeterministicRollbackFenceEpochCompactionTransition epoch incoming previous, false⟩]

/-- Whether the first rule that applies adopts the incoming digest, where one applies. -/
def resolveSameEpochPolicyLineage (epoch : Int) (previousDigest incomingDigest : String) :
    Option Bool :=
  (sameEpochPolicyLineageRules.find? (·.applies epoch previousDigest incomingDigest)).map
    (·.adoptIncoming)

/-! ### Normal forms -/

theorem normalizeOr_blank {default text : String} (h : trimSpace (toLower text) = "") :
    normalizeOr default text = default := by
  simp only [normalizeOr, h, if_true]

theorem normalizeOr_text {default text : String} (h : trimSpace (toLower text) ≠ "") :
    normalizeOr default text = trimSpace (toLower text) := by
  simp only [normalizeOr, h, if_false]

theorem normalizeOr_idem {default : String} (hdef : normalizeOr default default = default)
    (text : String) : normalizeOr default (normalizeOr default text) = normalizeOr default text := by
  by_cases hempty : trimSpace (toLower text) = ""
  · rw [normalizeOr_blank hempty, hdef]
  · have hagain : trimSpace (toLower (trimSpace (toLower text))) = trimSpace (toLower text) := by
      rw [toLower_trimSpace, toLower_toLower, trimSpace_trimSpace]
    rw [normalizeOr_text hempty, normalizeOr_text (by rw [hagain]; exact hempty), hagain]

@[simp] theorem normalizePolicyVersion_idem (version : String) :
    normalizePolicyVersion (normalizePolicyVersion version) = normalizePolicyVersion version :=
  normalizeOr_idem (by decide +kernel) version

@[simp] theorem normalizePolicyManifestDigest_idem (digest : String) :
    normalizePolicyManifestDigest (normalizePolicyManifestDigest digest) =
      normalizePolicyManifestDigest digest :=
  normalizeOr_idem (by decide +kernel) digest

/-! ### Digests given by their characters -/

theorem tokens_ofList (l : List Char) :
    tokens (String.ofList l) = (l.splitOn '|').map fun token =>
      String.ofList (trimList isSpace token) := by
  rw [tokens, split, String.toList_ofList, List.map_map]
  refine List.map_congr_left fun token _ => ?_
  rw [Function.comp_apply, trimSpace, trimBy, String.toList_ofList]

theorem normalizeOr_ofList {default : String} {l : List Char} (hne : l ≠ [])
    (hlower : l.map lowerChar = l) (htrim : trimList isSpace l = l) :
    normalizeOr default (String.ofList l) = String.ofList l := by
  have htext : trimSpace (toLower (String.ofList l)) = String.ofList l := by
    rw [toLower, String.toList_ofList, hlower, trimSpace, trimBy, String.toList_ofList, htrim]
  have hsome : String.ofList l ≠ "" := by
    intro hempty
    apply hne
    rw [← String.toList_ofList (l := l), hempty]
    rfl
  rw [normalizeOr_text (by rw [htext]; exact hsome), htext]

end AutoTune

end MultichainIndexer
