import MultichainIndexer.Normalizer.Coverage

/-!
# The normalizer

A raw batch is decoded by the sidecar and becomes a normalized batch. The answers
are matched to the signatures of the batch by their identity; a signature without
an answer, or with a terminal error, is left out. The cursor starts from the
batch's own and moves up to every signature that is decoded.

What lies outside this file is a field of the environment: the sidecar, the
classification of an error text as transient, what the coverage floor remembers
of earlier answers, and the canonical balance events of an answer.
-/

namespace MultichainIndexer

open Text Accumulate

structure NormalizerEnv where
  circuitBreaker : Option String := none
  decode : List (String × String) → List String → Except String DecodeResponse
  isTransient : String → Bool
  coverageFloor : String → Option TransactionResult := fun _ => none
  buildCanonicalBalanceEvents : RawBatch → String → TransactionResult → List String →
    List NormalizedBalanceEvent

namespace Normalizer

def decodeStage : String := "normalizer.decode_batch"

def shouldAdvanceCanonicalCursor (currentSequence : Int) (currentValue : Option String)
    (candidateSequence : Int) (candidateValue : String) : Bool :=
  if currentSequence < candidateSequence then true
  else if candidateSequence < currentSequence then false
  else
    let candidate := trimSpace candidateValue
    if candidate = "" then false
    else
      match currentValue with
      | none => true
      | some value =>
        let current := trimSpace value
        if current = "" then true else current < candidate

def resolveWatchedAddressSet (batch : RawBatch) : List String :=
  if batch.blockScanMode && !batch.watchedAddresses.isEmpty then
    ((batch.watchedAddresses.map fun addr =>
      let canonical := canonicalizeAddressIdentity batch.chain addr
      if canonical = "" then addr else canonical).filter (· ≠ "")).dedup
  else if batch.address ≠ "" then [batch.address]
  else []

def txStatus : String → TxStatus
  | "SUCCESS" => .success
  | "FAILED" => .failed
  | text => .other text

def normalizedTxFromResult (env : NormalizerEnv) (batch : RawBatch) (result : TransactionResult)
    (sigTime : Option Int) (watchedAddrs : List String) : NormalizedTransaction :=
  let txHash := identityOr batch.chain result.txHash result.txHash
  { txHash := txHash
    blockCursor := result.blockCursor
    blockTime := if result.blockTime ≠ 0 then some result.blockTime else sigTime
    feeAmount := result.feeAmount
    feePayer := result.feePayer
    status := txStatus result.status
    err := result.error
    chainData := some []
    balanceEvents := env.buildCanonicalBalanceEvents batch txHash result watchedAddrs }

/-- `%03d`. -/
def padThree (n : Nat) : String :=
  let digits := toString n
  String.ofList (List.replicate (3 - digits.length) '0') ++ digits

/-- The reasons by signature, terminal and transient; of several reasons the least stays. -/
def classifyDecodeErrors (env : NormalizerEnv) (chainID : Chain) (decodeErrors : List DecodeError) :
    List (String × String) × List (String × String) :=
  decodeErrors.zipIdx.foldl (fun (terminal, transient) (decErr, idx) =>
    let identity := canonicalSignatureIdentity chainID decErr.signature
    let signatureKey := if identity = "" then "<unknown:" ++ padThree idx ++ ">" else identity
    let trimmed := trimSpace decErr.error
    let reason := if trimmed = "" then "decode failed" else trimmed
    let least := fun existing => if reason < existing then reason else existing
    if env.isTransient ("sidecar decode error: " ++ reason) then
      (terminal.filter (·.1 ≠ signatureKey), bump signatureKey reason least transient)
    else if transient.any (·.1 = signatureKey) then (terminal, transient)
    else (bump signatureKey reason least terminal, transient)) ([], [])

def formatDecodeDiagnostics (errorBySignature : List (String × String)) : String :=
  if errorBySignature.isEmpty then "<none>"
  else String.intercalate "," ((errorBySignature.insertionSort fun a b => a.1 ≤ b.1).map fun e =>
    e.1 ++ "=" ++ e.2)

structure Answers where
  expected : List (String × TransactionResult) := []
  unexpected : List (String × TransactionResult) := []
  unexpectedKeys : List String := []

def Answers.add (chainID : Chain) (expectedSignatures : List String) (ans : Answers)
    (result : TransactionResult) : Answers :=
  let signatureKey := canonicalSignatureIdentity chainID result.txHash
  let merge := fun existing => reconcileDecodedResultCoverage chainID (some existing) result
  if signatureKey = "" then { ans with unexpectedKeys := "<empty>" :: ans.unexpectedKeys }
  else if signatureKey ∉ expectedSignatures then
    { ans with
      unexpectedKeys := signatureKey :: ans.unexpectedKeys
      unexpected := bump signatureKey result merge ans.unexpected }
  else { ans with expected := bump signatureKey result merge ans.expected }

def collectAnswers (chainID : Chain) (expectedSignatures : List String)
    (results : List TransactionResult) : Answers :=
  results.foldl (Answers.add chainID expectedSignatures) {}

def sortedSignatureKeys (keys : List String) : List String :=
  keys.dedup.insertionSort (· ≤ ·)

structure Decoded where
  transactions : List NormalizedTransaction := []
  newCursorValue : Option String
  newCursorSequence : Int
  resultBySignature : List (String × TransactionResult)
  decodeFailures : List (String × String) := []
  processed : Nat := 0

def Decoded.fail (st : Decoded) (signature reason : String) : Decoded :=
  { st with decodeFailures := st.decodeFailures ++ [(signature, reason)] }

section Loop
variable (env : NormalizerEnv) (batch : RawBatch) (terminal : List (String × String))
variable (ans : Answers) (single : Bool)

/-- The answer for a signature. A batch of one signature takes the only answer there is. -/
def resultFor (st : Decoded) (signatureKey : String) : Option TransactionResult :=
  match st.resultBySignature.lookup signatureKey with
  | some result => some result
  | none =>
    match single, ans.unexpected with
    | true, [(_, result)] => some result
    | _, _ => none

def decodeSignature (st : Decoded) (sig : SignatureInfo) : Decoded :=
  let signature := trimSpace sig.hash
  let signatureKey := canonicalSignatureIdentity batch.chain signature
  if signatureKey = "" then st.fail "<empty>" "empty signature"
  else
    match terminal.lookup signatureKey with
    | some errMsg => st.fail signature (if errMsg = "" then "decode failed" else errMsg)
    | none =>
      match resultFor ans single st signatureKey with
      | none => st.fail signature (
          if ans.unexpectedKeys.isEmpty then "missing decode result"
          else "missing decode result (unexpected=" ++
            String.intercalate "|" (sortedSignatureKeys ans.unexpectedKeys) ++ ")")
      | some result =>
        let result := reconcileCoverageRegressionFlap env.coverageFloor batch signatureKey result
        let advances := shouldAdvanceCanonicalCursor st.newCursorSequence st.newCursorValue
          sig.sequence signatureKey
        { st with
          transactions := st.transactions ++
            [normalizedTxFromResult env batch result sig.time (resolveWatchedAddressSet batch)]
          newCursorValue := if advances then some signatureKey else st.newCursorValue
          newCursorSequence := if advances then sig.sequence else st.newCursorSequence
          resultBySignature := st.resultBySignature.filter (·.1 ≠ signatureKey)
          processed := st.processed + 1 }

end Loop

def normalizedBatch (batch : RawBatch) (newCursorValue : Option String) (newCursorSequence : Int)
    (transactions : List NormalizedTransaction) : NormalizedBatch where
  chain := batch.chain
  network := batch.network
  address := batch.address
  walletID := batch.walletID
  orgID := batch.orgID
  previousCursorValue := canonicalizeCursorValue batch.chain batch.previousCursorValue
  previousCursorSequence := batch.previousCursorSequence
  transactions := transactions
  newCursorValue := newCursorValue
  newCursorSequence := newCursorSequence
  blockScanMode := batch.blockScanMode
  watchedAddresses := batch.watchedAddresses

/-- The state that the loop starts from: the cursor is the previous one, or without it the new. -/
def startDecoded (batch : RawBatch) (ans : Answers) : Decoded :=
  match canonicalizeCursorValue batch.chain batch.previousCursorValue with
  | some value =>
    { newCursorValue := some value
      newCursorSequence := batch.previousCursorSequence
      resultBySignature := ans.expected }
  | none =>
    { newCursorValue := canonicalizeCursorValue batch.chain batch.newCursorValue
      newCursorSequence := batch.newCursorSequence
      resultBySignature := ans.expected }

def requestedAddresses (batch : RawBatch) : List String :=
  if batch.blockScanMode && !batch.watchedAddresses.isEmpty then batch.watchedAddresses
  else [batch.address]

def expectedSignatures (chainID : Chain) (sigs : List SignatureInfo) : List String :=
  (sigs.map fun sig => canonicalSignatureIdentity chainID sig.hash).filter (· ≠ "")

def decodeSignatures (env : NormalizerEnv) (batch : RawBatch) (terminal : List (String × String))
    (results : List TransactionResult) (sigs : List SignatureInfo) : Decoded :=
  let ans := collectAnswers batch.chain (expectedSignatures batch.chain sigs) results
  sigs.foldl (decodeSignature env batch terminal ans (sigs.length = 1)) (startDecoded batch ans)

def processBatch (env : NormalizerEnv) (batch : RawBatch) : Except String NormalizedBatch :=
  if batch.rawTransactions.isEmpty && batch.signatures.isEmpty then
    .ok (normalizedBatch batch (canonicalizeCursorValue batch.chain batch.newCursorValue)
      batch.newCursorSequence [])
  else if batch.rawTransactions.length ≠ batch.signatures.length then
    .error ("raw/signature length mismatch: raw=" ++ toString batch.rawTransactions.length ++
      " signatures=" ++ toString batch.signatures.length)
  else
    let sigs := canonicalizeBatchSignatures batch.chain batch.signatures
    if sigs.isEmpty && !batch.signatures.isEmpty then
      .error ("decode collapse stage=" ++ decodeStage ++ " no canonical signatures in batch")
    else
      match env.circuitBreaker with
      | some cbErr => .error ("sidecar circuit breaker open: " ++ cbErr)
      | none =>
        match env.decode ((batch.signatures.map SignatureInfo.hash).zip batch.rawTransactions)
            (requestedAddresses batch) with
        | .error e => .error ("sidecar decode: " ++ e)
        | .ok resp =>
          let errors := classifyDecodeErrors env batch.chain resp.errors
          if !errors.2.isEmpty then
            .error ("decode transient stage=" ++ decodeStage ++ " signatures=" ++
              toString errors.2.length ++ " diagnostics=" ++ formatDecodeDiagnostics errors.2)
          else
            let st := decodeSignatures env batch errors.1 resp.results sigs
            if st.processed = 0 && !sigs.isEmpty then
              .error ("decode collapse stage=" ++ decodeStage ++
                " no decodable transactions in batch (diagnostics=" ++
                (if st.decodeFailures.isEmpty then "<unknown>=missing decode result"
                  else String.intercalate "," (st.decodeFailures.map fun f => f.1 ++ "=" ++ f.2)) ++
                ")")
            else .ok (normalizedBatch batch st.newCursorValue st.newCursorSequence st.transactions)

end Normalizer

end MultichainIndexer
