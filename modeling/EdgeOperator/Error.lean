import EdgeOperator.Http
import EdgeOperator.Text.Quoted

set_option autoImplicit false

/-! # What can go wrong

A call to the API server fails with a `CallError`; a pass of the operator fails with an
`OperatorError`, which may carry one. Each has a text, and the failure class says how the operator
treats it: transient failures and conflicts are expected to clear up and are retried soon, all
others late. -/

namespace EdgeOperator

/-- The answer of an API server that refuses a call. -/
structure ApiStatus where
  status : String
  message : String
  reason : String
  code : Nat
deriving DecidableEq, Repr

/-- Why a call to the API server failed. -/
inductive CallError where
  /-- The server refused the call. -/
  | api (status : ApiStatus)
  /-- The transport did not carry the call. -/
  | service (text : String)
  /-- The connection broke. -/
  | connection (text : String)
  /-- The answer is not what was asked for. -/
  | undecodable
  /-- The answer is no text. -/
  | notText (fault : Text.Utf8Fault)
  /-- A line of an event stream has no end. -/
  | unendedLine
  /-- An event stream broke. -/
  | eventStream (text : String)
  /-- The server has to be reached over TLS, which is not available. -/
  | tlsRequired
  /-- The path of the call cannot be sent. -/
  | badAddress (fault : Http.Target.Fault)
deriving DecidableEq, Repr

/-- Why the operator could not do what it set out to do. -/
inductive OperatorError where
  /-- A call to the API server failed. -/
  | call (error : CallError)
  /-- An object lacks what it needs to be served. -/
  | invalidConfig (text : String)
  /-- The definition of a custom resource could not be found. -/
  | missingDefinition (error : CallError)
  /-- A call was not answered in time. -/
  | timeout (seconds : Nat)
  /-- No anchor lives in the namespace. -/
  | missingAnchor (namespaceName : String)
  /-- The routing ingress changed in between, in each of the attempts. -/
  | routeConflict (key : String) (attempts : Nat)
  /-- An object is marked as deleted but still there. -/
  | teardownPending (kind : String) (key : String)
deriving DecidableEq, Repr

/-- How a failure has to be treated. -/
inductive Failure where
  | notFound
  | alreadyExists
  | conflict
  | transient
  | fatal
deriving DecidableEq, Repr

/-! ## Texts -/

/-- A refusal with its reason and all its parts. -/
def ApiStatus.display (s : ApiStatus) : String :=
  "ApiError: " ++ s.message ++ ": " ++ s.reason ++ " (ErrorResponse \x7b status: " ++
    Text.quoted s.status ++ ", message: " ++ Text.quoted s.message ++ ", reason: " ++
    Text.quoted s.reason ++ ", code: " ++ toString s.code ++ " \x7d)"

/-- The failure of a call in words. -/
def CallError.message : CallError → String
  | .api status => status.display
  | .service text => "ServiceError: " ++ text
  | .connection text => "HyperError: " ++ text
  | .undecodable => "Error deserializing response"
  | .notText fault => "UTF-8 Error: " ++ fault.message
  | .unendedLine => "Error finding newline character"
  | .eventStream text => "Error reading events stream: " ++ text
  | .tlsRequired => "TLS required but no TLS stack selected"
  | .badAddress fault => "Failed to build request: failed to build request: " ++ fault.message

/-- A time span of whole seconds. -/
def secondsText (seconds : Nat) : String :=
  if seconds = 0 then "0ns" else toString seconds ++ "s"

/-- The failure of the operator in words. -/
def OperatorError.message : OperatorError → String
  | .call error => "kube error: " ++ error.message
  | .invalidConfig text => "invalid configuration: \x60" ++ text ++ "\x60"
  | .missingDefinition error =>
    "error querying custom resource definitions: \x60" ++ error.message ++
      "\x60; are the CRDs installed?"
  | .timeout seconds => "object store call did not complete within " ++ secondsText seconds
  | .missingAnchor namespaceName =>
    "no SandOpsIngress found in namespace \x60" ++ namespaceName ++
      "\x60 to anchor the routing object"
  | .routeConflict key attempts =>
    "routing object \x60" ++ key ++ "\x60 still conflicting after " ++ toString attempts ++
      " attempts"
  | .teardownPending kind key => kind ++ " \x60" ++ key ++ "\x60 is still being deleted"

/-! ## Treatment -/

/-- The class of a refusal, by its code; of the conflicts, that with an object which is there
already has a class of its own. -/
def ApiStatus.failure (s : ApiStatus) : Failure :=
  match s.code with
  | 404 => .notFound
  | 409 => if s.reason = "AlreadyExists" then .alreadyExists else .conflict
  | 429 | 500 | 502 | 503 | 504 => .transient
  | _ => .fatal

/-- The class of a failed call. -/
def CallError.failure : CallError → Failure
  | .api status => status.failure
  | .service _ | .connection _ => .transient
  | _ => .fatal

/-- The class of a failure of the operator. -/
def OperatorError.failure : OperatorError → Failure
  | .call error => error.failure
  | .missingAnchor _ | .routeConflict _ _ | .teardownPending _ _ => .transient
  | .invalidConfig _ | .missingDefinition _ | .timeout _ => .fatal

/-- Whether failures of a class are expected to clear up on their own. -/
def Failure.isTransient : Failure → Bool
  | .transient | .conflict => true
  | .notFound | .alreadyExists | .fatal => false

/-- Whether a failure is expected to clear up on its own. -/
def OperatorError.isTransient (e : OperatorError) : Bool :=
  e.failure.isTransient

end EdgeOperator
