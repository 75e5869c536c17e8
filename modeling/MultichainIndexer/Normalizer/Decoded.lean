import MultichainIndexer.Normalizer.Balance

/-!
# Paths and fingerprints of decoded events

An event says in its metadata where in the transaction it happened. Each chain
family has its own keys for that; where none of them is set the path is made of
the instruction indices. The fingerprint of an event is its path with the
canonical address, asset and delta. An instruction path is read back from the
text that is written for it.
-/

namespace MultichainIndexer

open Text

namespace Normalizer

/-- `parsePathIndexPart`: the integer after the key and a colon or an equals sign. -/
def parsePathIndexPart (part key : String) : Option Int :=
  if hasPrefix part (key ++ ":") then atoi (trimPrefix part (key ++ ":"))
  else if hasPrefix part (key ++ "=") then atoi (trimPrefix part (key ++ "="))
  else none
where
  /-- `strconv.Atoi` -/
  atoi (s : String) : Option Int := (parseInt s).filter fun n => IsInt64 n

def parseSolanaInstructionPath (path : String) : Option (Int × Int) :=
  let compact := (toLower (trimSpace path)).toList.filter (· ≠ ' ')
  match compact.splitOn '|' with
  | [first, second] => do
    let outer ← parsePathIndexPart (String.ofList first) "outer"
    let inner ← parsePathIndexPart (String.ofList second) "inner"
    return (outer, inner)
  | _ => none

/-- The first of the keys whose value is an instruction path. -/
def solanaInstructionPath (metadata : Metadata) : Option (Int × Int) :=
  ["event_path", "instruction_path", "solana_event_path"].findSome? fun key =>
    parseSolanaInstructionPath (metaGet metadata key)

section RoundTrip

/-- A character that trimming, lower case and the split leave alone. -/
def PathChar (c : Char) : Prop := isSpace c = false ∧ lowerChar c = c ∧ c ≠ '|'

instance : DecidablePred PathChar := fun _ => inferInstanceAs (Decidable (_ ∧ _))

theorem pathChar_index (key : String) (hkey : key.toList.all (decide <| PathChar ·) = true)
    (n : Int) : ∀ c ∈ key.toList ++ (toString n).toList, PathChar c := by
  intro c hc
  rcases List.mem_append.mp hc with hc | hc
  · exact forall_mem_of_all hkey c hc
  · obtain ⟨hspace, hbar⟩ := toString_chars n c hc
    exact ⟨hspace, lowerChar_number (parseInt_chars (parseInt_toString n) c hc), hbar⟩

theorem compact_eq {path : String} (h : ∀ c ∈ path.toList, isSpace c = false ∧ lowerChar c = c) :
    (toLower (trimSpace path)).toList.filter (· ≠ ' ') = path.toList := by
  rw [trimSpace_of_forall fun c hc => (h c hc).1, toLower, String.toList_ofList]
  have hlower : path.toList.map lowerChar = path.toList := by
    rw [List.map_congr_left fun c hc => (h c hc).2]
    exact List.map_id _
  rw [hlower]
  apply List.filter_eq_self.mpr
  intro c hc
  have hspace := (h c hc).1
  rw [decide_eq_true_eq]
  rintro rfl
  cases hspace

theorem parsePathIndexPart_index (key : String) {n : Int} (hn : IsInt64 n) :
    parsePathIndexPart (String.ofList ((key ++ ":").toList ++ (toString n).toList)) key =
      some n := by
  have hpre : hasPrefix (String.ofList ((key ++ ":").toList ++ (toString n).toList))
      (key ++ ":") = true := by
    unfold hasPrefix
    rw [String.toList_ofList, List.isPrefixOf_iff_prefix]
    exact List.prefix_append _ _
  unfold parsePathIndexPart
  rw [if_pos hpre, trimPrefix, if_pos hpre, String.toList_ofList, List.drop_left,
    String.ofList_toList]
  unfold parsePathIndexPart.atoi
  rw [parseInt_toString, Option.filter_some, if_pos (decide_eq_true hn)]

theorem int32_isInt64 (n : Int32) : IsInt64 n.toInt := by
  have hlo := n.le_toInt
  have hhi := n.toInt_lt
  constructor
  · omega
  · omega

theorem parseSolanaInstructionPath_path (outer inner : Int32) :
    parseSolanaInstructionPath (balanceEventPath outer.toInt inner.toInt) =
      some (outer.toInt, inner.toInt) := by
  have hlist : (balanceEventPath outer.toInt inner.toInt).toList =
      ("outer:".toList ++ (toString outer.toInt).toList) ++
        '|' :: ("inner:".toList ++ (toString inner.toInt).toList) := by
    unfold balanceEventPath
    rw [String.toList_append, String.toList_append, String.toList_append, List.append_assoc]
    rfl
  have houter := pathChar_index "outer:" (by decide) outer.toInt
  have hinner := pathChar_index "inner:" (by decide) inner.toInt
  have hchars : ∀ c ∈ (balanceEventPath outer.toInt inner.toInt).toList,
      isSpace c = false ∧ lowerChar c = c := by
    intro c hc
    rw [hlist, List.mem_append, List.mem_cons] at hc
    rcases hc with hc | rfl | hc
    · exact ⟨(houter c hc).1, (houter c hc).2.1⟩
    · decide
    · exact ⟨(hinner c hc).1, (hinner c hc).2.1⟩
  unfold parseSolanaInstructionPath
  rw [compact_eq hchars, hlist]
  dsimp only
  rw [List.splitOn_append_cons_self_of_not_mem fun hbar => (houter _ hbar).2.2 rfl,
    List.splitOn_eq_singleton fun hbar => (hinner _ hbar).2.2 rfl]
  have hfirst := parsePathIndexPart_index "outer" (int32_isInt64 outer)
  have hsec := parsePathIndexPart_index "inner" (int32_isInt64 inner)
  exact Option.bind_eq_some_iff.mpr ⟨_, hfirst, Option.bind_eq_some_iff.mpr ⟨_, hsec, rfl⟩⟩

/-- The path of an instruction is read back as it was written, so it tells the instruction. -/
theorem instruction_path_round_trip (outer inner : Int32) :
    parseSolanaInstructionPath (balanceEventPath outer.toInt inner.toInt) =
        some (outer.toInt, inner.toInt) ∧
      ∀ outer' inner' : Int32, balanceEventPath outer.toInt inner.toInt =
        balanceEventPath outer'.toInt inner'.toInt → outer = outer' ∧ inner = inner' := by
  refine ⟨parseSolanaInstructionPath_path outer inner, ?_⟩
  intro outer' inner' hpath
  have hread := parseSolanaInstructionPath_path outer' inner'
  rw [← hpath, parseSolanaInstructionPath_path] at hread
  obtain ⟨houter, hinner⟩ := Prod.mk.inj (Option.some.inj hread)
  exact ⟨Int32.toInt_inj.mp houter, Int32.toInt_inj.mp hinner⟩

end RoundTrip

def hasSolanaInstructionPathHint (metadata : Metadata) : Bool :=
  (solanaInstructionPath metadata).isSome

def resolveBaseMetadataEventPath (metadata : Metadata) : String :=
  if metaGet metadata "event_path" ≠ "" then metaGet metadata "event_path"
  else if metaGet metadata "log_path" ≠ "" then metaGet metadata "log_path"
  else if metaGet metadata "log_index" ≠ "" then "log:" ++ metaGet metadata "log_index"
  else if metaGet metadata "base_log_index" ≠ "" then "log:" ++ metaGet metadata "base_log_index"
  else metaGet metadata "base_event_path"

def decodedEventPath (chainID : Chain) (be : BalanceEventInfo) : String :=
  if isEVMChain chainID then
    let metadataPath := resolveBaseMetadataEventPath be.metadata
    if metadataPath ≠ "" then metadataPath
    else balanceEventPath be.outerInstructionIndex be.innerInstructionIndex
  else
    match solanaInstructionPath be.metadata with
    | some (outer, inner) => balanceEventPath (toInt32 outer) (toInt32 inner)
    | none => balanceEventPath be.outerInstructionIndex be.innerInstructionIndex

def isFeeCategory (category : String) : Bool :=
  equalFold category "FEE" || equalFold category "fee_execution_l2" ||
    equalFold category "fee_data_l1"

def decodedEventFingerprint (chainID : Chain) (be : BalanceEventInfo) : String :=
  let address := canonicalizeAddressIdentity chainID be.address
  let identity := canonicalizeAddressIdentity chainID be.contractAddress
  let assetID := if identity = "" then trimSpace be.contractAddress else identity
  let category := toUpper (trimSpace be.eventCategory)
  let delta := trimSpace be.delta
  decodedEventPath chainID be ++ "|" ++ address ++ "|" ++ assetID ++ "|" ++
    if isFeeCategory category then canonicalFeeDelta delta else delta

end Normalizer

end MultichainIndexer
