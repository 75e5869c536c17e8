import MultichainIndexer.Signatures

/-!
# The sidecar's answer

What the sidecar says about a batch of transactions: for each of them its balance
events, or an error. An address in it is compared by its canonical form.
-/

namespace MultichainIndexer

open Text

structure BalanceEventInfo where
  outerInstructionIndex : Int := 0
  innerInstructionIndex : Int := 0
  eventCategory : String := ""
  eventAction : String := ""
  programId : String := ""
  address : String := ""
  contractAddress : String := ""
  delta : String := ""
  counterpartyAddress : String := ""
  tokenSymbol : String := ""
  tokenName : String := ""
  tokenDecimals : Int := 0
  tokenType : String := ""
  metadata : Metadata := []

/-- The sidecar's answer for a transaction. It has no field for the hash of the block. -/
structure TransactionResult where
  txHash : String
  blockCursor : Int
  blockTime : Int := 0
  feeAmount : String := ""
  feePayer : String := ""
  status : String := ""
  error : Option String := none
  balanceEvents : List BalanceEventInfo := []

structure DecodeError where
  signature : String
  error : String

structure DecodeResponse where
  results : List TransactionResult := []
  errors : List DecodeError := []

namespace Normalizer

def canonicalizeAddressIdentity (chainID : Chain) (value : String) : String :=
  let trimmed := trimSpace value
  if trimmed = "" then ""
  else if !isEVMChain chainID then trimmed
  else identityOr chainID trimmed trimmed

theorem canonicalizeAddressIdentity_eq (chainID : Chain) (value : String) :
    canonicalizeAddressIdentity chainID value = canonicalAddressIdentity chainID value := by
  unfold canonicalizeAddressIdentity canonicalAddressIdentity identityOr
  simp only [canonicalSignatureIdentity, trimSpace_trimSpace]
  split
  · rfl
  · split
    · rfl
    · rename_i hne hevm
      have hbtc : chainID ≠ .btc := by
        rintro rfl
        exact hevm rfl
      rw [if_neg hbtc]
      by_cases hrest : withoutHexPrefix (trimSpace value) = ""
      · rw [if_pos hrest, if_pos hrest, if_pos rfl]
      · rw [if_neg hrest, if_neg hrest, if_neg (canonicalHex_ne_empty hne _)]

end Normalizer

end MultichainIndexer
