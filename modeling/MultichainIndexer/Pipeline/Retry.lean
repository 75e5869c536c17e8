import MultichainIndexer.Lib.Text

/-!
# Transient and terminal errors

An error is the chain of the errors that it wraps, each with what the classifier
can find out about it. An explicit mark comes first, then the kinds of errors that
the classifier knows, and last the text. Wrapping adds a text in front and keeps
the rest of the chain.
-/

namespace MultichainIndexer

open Text

namespace Retry

inductive Class
  | terminal
  | transient
  deriving DecidableEq

structure Decision where
  cls : Class
  reason : String

def Decision.isTransient (d : Decision) : Bool := d.cls = .transient

inductive GrpcCode
  | ok | canceled | unknown | invalidArgument | deadlineExceeded | notFound | alreadyExists
  | permissionDenied | resourceExhausted | failedPrecondition | aborted | outOfRange
  | unimplemented | internal | unavailable | dataLoss | unauthenticated
  deriving DecidableEq

def GrpcCode.text : GrpcCode → String
  | .ok => "OK"
  | .canceled => "Canceled"
  | .unknown => "Unknown"
  | .invalidArgument => "InvalidArgument"
  | .deadlineExceeded => "DeadlineExceeded"
  | .notFound => "NotFound"
  | .alreadyExists => "AlreadyExists"
  | .permissionDenied => "PermissionDenied"
  | .resourceExhausted => "ResourceExhausted"
  | .failedPrecondition => "FailedPrecondition"
  | .aborted => "Aborted"
  | .outOfRange => "OutOfRange"
  | .unimplemented => "Unimplemented"
  | .internal => "Internal"
  | .unavailable => "Unavailable"
  | .dataLoss => "DataLoss"
  | .unauthenticated => "Unauthenticated"

/-- One error of a chain. `netTimeout` is the `Timeout` of a network error. -/
structure Link where
  marked : Option Decision := none
  isCanceled : Bool := false
  isDeadlineExceeded : Bool := false
  grpcStatus : Option GrpcCode := none
  netTimeout : Option Bool := none
  solanaCode : Option Int := none
  baseCode : Option Int := none

/-- An error: its text, and the chain of the errors that `Unwrap` leads to. -/
structure Err where
  text : String
  chain : List Link := [{}]

/-- `fmt.Errorf` with the error at the end of the format. -/
def Err.wrap (pre : String) (e : Err) : Err := ⟨pre ++ e.text, {} :: e.chain⟩

def transient (e : Err) : Err :=
  ⟨e.text, { marked := some ⟨.transient, "explicit_transient"⟩ } :: e.chain⟩

def terminal (e : Err) : Err :=
  ⟨e.text, { marked := some ⟨.terminal, "explicit_terminal"⟩ } :: e.chain⟩

def classifyJSONRPCCode (code : Int) : Decision :=
  if code = -32603 ∨ code = -32005 then ⟨.transient, "jsonrpc_server_transient"⟩
  else if code ≤ -32000 ∧ -32099 ≤ code then ⟨.transient, "jsonrpc_server_range"⟩
  else ⟨.terminal, "jsonrpc_terminal"⟩

def classifyGrpcCode (code : GrpcCode) : Decision :=
  match code with
  | .canceled => ⟨.terminal, "grpc_canceled"⟩
  | .unavailable | .deadlineExceeded | .resourceExhausted | .aborted | .internal =>
    ⟨.transient, "grpc_" ++ toLower code.text⟩
  | _ => ⟨.terminal, "grpc_" ++ toLower code.text⟩

def transientMessageTokens : List String :=
  ["timeout", "timed out", "temporar", "temporary", "unavailable", "connection reset",
    "connection refused", "broken pipe", "econnreset", "econnrefused", "too many requests",
    "rate limit", "payload too large", "http status 429", "http status 502", "http status 503",
    "http status 504", "server closed idle connection"]

def terminalMessageTokens : List String :=
  ["decode blocked", "length mismatch", "no decodable transactions", "invalid argument",
    "invalid params", "method not found", "parse error", "schema mismatch", "execution reverted",
    "insufficient funds", "not found", "constraint violation"]

def containsAny (msg : String) (tokens : List String) : Bool := tokens.any (containsText msg)

/-- What the errors of a chain say, without the text. -/
def classifyChain (chain : List Link) : Option Decision :=
  match chain.findSome? Link.marked with
  | some d => some d
  | none =>
    if chain.any Link.isCanceled then some ⟨.terminal, "context_canceled"⟩
    else if chain.any Link.isDeadlineExceeded then some ⟨.transient, "context_deadline_exceeded"⟩
    else
      match chain.findSome? Link.grpcStatus with
      | some code => some (classifyGrpcCode code)
      | none =>
        if chain.findSome? Link.netTimeout = some true then some ⟨.transient, "net_timeout"⟩
        else
          match chain.findSome? Link.solanaCode with
          | some code => some (classifyJSONRPCCode code)
          | none => (chain.findSome? Link.baseCode).map classifyJSONRPCCode

def classifyText (text : String) : Decision :=
  let lower := toLower text
  if containsAny lower terminalMessageTokens then ⟨.terminal, "message_terminal"⟩
  else if containsAny lower transientMessageTokens then ⟨.transient, "message_transient"⟩
  else ⟨.terminal, "unknown_terminal_default"⟩

def classify (e : Err) : Decision := (classifyChain e.chain).getD (classifyText e.text)

section Wrap
variable {e : Err} {pre : String}

theorem classify_wrap (pre : String) (e : Err) :
    classify (e.wrap pre) = (classifyChain e.chain).getD (classifyText (pre ++ e.text)) := rfl

theorem classify_terminal (e : Err) : (classify (terminal e)).isTransient = false := rfl

theorem containsAny_append (pre msg : String) {tokens : List String}
    (h : containsAny msg tokens = true) : containsAny (pre ++ msg) tokens = true := by
  obtain ⟨token, hmem, htoken⟩ := List.any_eq_true.mp h
  exact List.any_eq_true.mpr ⟨token, hmem, containsText_append htoken⟩

theorem containsAny_append_apart {msg : String} {tokens : List String}
    (hapart : ∀ token ∈ tokens, apart pre.toList token.toList = true) :
    containsAny (pre ++ msg) tokens = containsAny msg tokens := by
  unfold containsAny
  induction tokens with
  | nil => rfl
  | cons token tokens ih =>
    rw [List.any_cons, List.any_cons, ih (List.forall_mem_cons.mp hapart).2,
      containsText_append_apart (hapart token List.mem_cons_self)]

/-- A prefix in lower case that has no part of a transient token does not make an error
transient. -/
theorem classify_wrap_terminal (pre : String) (hlower : toLower pre = pre)
    (hapart : ∀ token ∈ transientMessageTokens, apart pre.toList token.toList = true)
    (h : (classify e).isTransient = false) : (classify (e.wrap pre)).isTransient = false := by
  rw [classify_wrap]
  unfold classify at h
  cases hchain : classifyChain e.chain with
  | some d =>
    rw [hchain, Option.getD_some] at h
    rw [Option.getD_some]
    exact h
  | none =>
    rw [hchain] at h
    simp only [Option.getD_none, classifyText] at h ⊢
    rw [toLower_append, hlower]
    by_cases hter : containsAny (toLower e.text) terminalMessageTokens = true
    · rw [if_pos (containsAny_append pre _ hter)]
      rfl
    · rw [if_neg hter] at h
      by_cases htra : containsAny (toLower e.text) transientMessageTokens = true
      · rw [if_pos htra] at h
        cases h
      · rw [containsAny_append_apart hapart, if_neg htra]
        split_ifs
        · rfl
        · rfl

theorem commit_apart :
    ∀ token ∈ transientMessageTokens, apart "commit: ".toList token.toList = true := by
  decide +kernel

theorem classify_wrap_commit (h : (classify e).isTransient = false) :
    (classify (e.wrap "commit: ")).isTransient = false := by
  have hlower : toLower "commit: " = "commit: " := by decide +kernel
  exact classify_wrap_terminal "commit: " hlower commit_apart h

end Wrap

end Retry

end MultichainIndexer
