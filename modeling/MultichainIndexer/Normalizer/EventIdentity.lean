import MultichainIndexer.SignatureIdentity
import MultichainIndexer.Normalizer.EventText

/-!
# What the id of an event tells

The fields under an id are joined by bars and nothing is escaped. Chain, network
and transaction are read from the left; activity, asset and actor from the right.
The path stands between them and may contain bars itself.
-/

namespace MultichainIndexer

open Text

variable {s : String} {c : Char}

theorem bar_not_mem_toLower (h : '|' ∉ s.toList) : '|' ∉ (toLower s).toList := by
  rw [toLower, String.toList_ofList]
  intro hmem
  obtain ⟨c, hc, hlow⟩ := List.mem_map.mp hmem
  rcases lowerChar_cases c with ⟨hsame, _⟩ | ⟨hcode, _⟩
  · rw [hsame] at hlow
    rw [hlow] at hc
    exact h hc
  · rw [hlow] at hcode
    exact absurd hcode (by decide)

theorem mem_of_mem_trimSpace (h : c ∈ (trimSpace s).toList) : c ∈ s.toList := by
  obtain ⟨pre, post, hs, _, _⟩ := exists_trimList (q := isSpace) s.toList
  rw [trimSpace, trimBy, String.toList_ofList] at h
  rw [hs]
  exact List.mem_append_left _ (List.mem_append_right _ h)

theorem mem_of_mem_trimPrefix {pre : String} (h : c ∈ (trimPrefix s pre).toList) :
    c ∈ s.toList := by
  unfold trimPrefix at h
  split at h
  · rw [String.toList_ofList] at h
    exact List.mem_of_mem_drop h
  · exact h

theorem mem_of_mem_withoutHexPrefix (h : c ∈ (withoutHexPrefix s).toList) : c ∈ s.toList :=
  mem_of_mem_trimPrefix (mem_of_mem_trimPrefix h)

theorem bar_not_mem_identity (chainID : Chain) {hash : String} (h : '|' ∉ hash.toList) :
    '|' ∉ (canonicalSignatureIdentity chainID hash).toList := by
  have htrim : '|' ∉ (trimSpace hash).toList := fun hc => h (mem_of_mem_trimSpace hc)
  have hrest : '|' ∉ (toLower (withoutHexPrefix (trimSpace hash))).toList :=
    bar_not_mem_toLower fun hc => htrim (mem_of_mem_withoutHexPrefix hc)
  by_cases hevm : isEVMChain chainID = true
  · rw [canonicalSignatureIdentity_evm hevm]
    split
    · simp
    · rcases canonicalHex_cases (trimSpace hash) (withoutHexPrefix (trimSpace hash)) with hform | hform
      · rw [hform, String.toList_append]
        intro hc
        rcases List.mem_append.mp hc with hc | hc
        · exact absurd hc (by decide)
        · exact hrest hc
      · rw [hform]
        exact htrim
  · rw [Bool.not_eq_true] at hevm
    by_cases hbtc : chainID = .btc
    · rw [hbtc, canonicalSignatureIdentity_btc]
      exact hrest
    · rw [canonicalSignatureIdentity_plain hevm hbtc]
      exact htrim

theorem Chain.bar_not_mem (chain : Chain) : '|' ∉ "chain=".toList ++ chain.text.toList := by
  cases chain
  all_goals decide

theorem Network.bar_not_mem (network : Network) :
    '|' ∉ "network=".toList ++ network.text.toList := by
  cases network
  all_goals decide

namespace Normalizer

theorem bar_not_mem_canonicalTxHash (chain : Chain) {txHash : String} (h : '|' ∉ txHash.toList) :
    '|' ∉ (canonicalTxHash chain txHash).toList := by
  unfold canonicalTxHash identityOr
  extract_lets identity
  split
  · exact fun hc => h (mem_of_mem_trimSpace hc)
  · exact bar_not_mem_identity chain h

theorem bar_not_mem_label {label : List Char} (hlabel : '|' ∉ label) (hs : '|' ∉ s.toList) :
    '|' ∉ label ++ s.toList := by
  intro hc
  rcases List.mem_append.mp hc with hc | hc
  · exact hlabel hc
  · exact hs hc

theorem bar_not_mem_headFields (chain : Chain) (network : Network) {txHash : String}
    (htx : '|' ∉ txHash.toList) : ∀ field ∈ headFields chain network txHash, '|' ∉ field := by
  simp only [headFields, List.forall_mem_cons, List.not_mem_nil, false_implies, implies_true,
    and_true]
  exact ⟨Chain.bar_not_mem chain, Network.bar_not_mem network,
    bar_not_mem_label (by decide) (bar_not_mem_canonicalTxHash chain htx)⟩

theorem bar_not_mem_tailFields {actor asset : String} (activity : ActivityType)
    (hactor : '|' ∉ actor.toList) (hasset : '|' ∉ asset.toList) :
    ∀ field ∈ tailFields actor asset activity, '|' ∉ field := by
  simp only [tailFields, List.forall_mem_cons, List.not_mem_nil, false_implies, implies_true,
    and_true]
  exact ⟨bar_not_mem_label (by decide) hactor, bar_not_mem_label (by decide) hasset,
    ActivityType.bar_not_mem activity⟩

section Fields
variable {chain chain' : Chain} {network network' : Network}
variable {txHash txHash' path path' actor actor' asset asset' : String}
variable {activity activity' : ActivityType}

/-- Ids separate events: two calls with the same id agree on every field under it. -/
theorem buildCanonicalEventID_separates {hash : String → String}
    (hhash : CollisionFree hash
      [canonicalEventText chain network txHash path actor asset activity,
        canonicalEventText chain' network' txHash' path' actor' asset' activity'])
    (htx : '|' ∉ txHash.toList) (htx' : '|' ∉ txHash'.toList)
    (hactor : '|' ∉ actor.toList) (hactor' : '|' ∉ actor'.toList)
    (hasset : '|' ∉ asset.toList) (hasset' : '|' ∉ asset'.toList)
    (h : buildCanonicalEventID hash chain network txHash path actor asset activity =
      buildCanonicalEventID hash chain' network' txHash' path' actor' asset' activity') :
    chain = chain' ∧ network = network' ∧
      canonicalTxHash chain txHash = canonicalTxHash chain' txHash' ∧ path = path' ∧
      actor = actor' ∧ asset = asset' ∧ activity = activity' := by
  have htext := hhash _ List.mem_cons_self _ (List.mem_cons_of_mem _ List.mem_cons_self) h
  have hlist := congrArg String.toList htext
  rw [canonicalEventText_fields, canonicalEventText_fields] at hlist
  have hheads : (headFields chain network txHash).length =
      (headFields chain' network' txHash').length := by simp [headFields]
  have htails : (tailFields actor asset activity).length =
      (tailFields actor' asset' activity').length := by simp [tailFields]
  obtain ⟨hleft, hrest⟩ := headed_inj hheads (bar_not_mem_headFields chain network htx)
    (bar_not_mem_headFields chain' network' htx') hlist
  obtain ⟨hpath, hright⟩ := tailed_inj htails (bar_not_mem_tailFields activity hactor hasset)
    (bar_not_mem_tailFields activity' hactor' hasset') hrest
  simp only [headFields, tailFields, List.cons.injEq, and_true] at hleft hright
  obtain ⟨hchain, hnet, hhas⟩ := hleft
  obtain ⟨hactE, hassE, hact⟩ := hright
  exact ⟨Chain.text_inj (label_append_inj hchain), Network.text_inj (label_append_inj hnet),
    label_append_inj hhas, label_append_inj hpath, label_append_inj hactE,
    label_append_inj hassE, ActivityType.text_injective (label_append_inj hact)⟩

end Fields

/-- Two spellings of a hash with one id, on a path that contains a bar. -/
theorem buildCanonicalEventID_separates_spelled :
    canonicalTxHash .base "0xAB" = canonicalTxHash .base "ab" :=
  (@buildCanonicalEventID_separates .base .base .mainnet .mainnet "0xAB" "ab" "outer:0|inner:1"
    "outer:0|inner:1" "0xaa" "0xaa" "ETH" "ETH" .deposit .deposit id (fun _ _ _ _ h => h)
    (by decide) (by decide) (by decide) (by decide) (by decide) (by decide)
    (by decide +kernel)).2.2.1

end Normalizer

end MultichainIndexer
