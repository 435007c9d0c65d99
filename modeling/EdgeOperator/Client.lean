import EdgeOperator.Client.Response

set_option autoImplicit false

/-! # Calls over HTTP

How a call to the API becomes an HTTP request, and what a response means for the call. Every call
has to be answered in time.

`serve` answers calls by way of a server that is given as a function, so it says nothing about how
requests travel. -/

namespace EdgeOperator

namespace Client

/-! ## Understanding replies -/

/-- What a reply says, before it is read as an answer to a call; `none` if it never comes. -/
def replyText? : Http.Reply → Option (Except CallError String)
  | .silence => none
  | .refusal text => some (.error (.service text))
  | .broken =>
    some (.error (.connection "error reading a body from connection: user body write aborted"))
  | .response status payload =>
    match payload.toText with
    | .error fault => some (.error (.notText fault))
    | .ok text =>
      if Http.isFailure status then some (.error (.api (.ofResponse status text)))
      else some (.ok text)

/-- What a response means for a call. A look-up that is refused for want of the object finds
nothing; the refusal's reason decides. -/
def answer : (request : Request) → Except CallError String → Except CallError request.Answer
  | .get kind _, .ok text => (readObject kind text).map some
  | .get _ _, .error (.api status) =>
    if status.reason = "NotFound" then .ok none else .error (.api status)
  | .list kind _, .ok text => readList kind text
  | .create kind _, .ok text => readObject kind text
  | .replace kind _, .ok text => readObject kind text
  | .delete kind _, .ok text => readDeleted kind text
  | _, .error e => .error e

/-! ## Writing requests -/

/-- The path of the objects of a kind on the server; a namespace counts only for kinds that live in
one. -/
def collection (kind : Kind) (namespaceName? : Option String) : String :=
  kind.path (if kind.isClusterScoped then none else namespaceName?)

/-- The path of an object on the server. -/
def location (kind : Kind) (key : ObjectKey) : String :=
  collection kind key.namespaceName? ++ "/" ++ key.name

/-- The body of a request to delete an object: what it owns is deleted later. -/
def deletionText : String :=
  Json.compact (.obj [("propagationPolicy", .str "Background")])

/-- A request before its target was looked at. -/
structure Draft where
  method : Http.Method
  target : String
  body? : Option String := none

/-- The request for a call. -/
def draft : Request → Draft
  | .get kind key => { method := .get, target := location kind key }
  | .list kind namespaceName? => { method := .get, target := collection kind namespaceName? ++ "?" }
  | .create kind object =>
    { method := .post
      target := collection kind object.metadata.namespaceName? ++ "?"
      body? := some object.sentText }
  | .replace kind object =>
    { method := .put
      target := location kind object.key ++ "?"
      body? := some object.sentText }
  | .delete kind key =>
    { method := .delete
      target := location kind key ++ "?"
      body? := some deletionText }

/-- The request of a draft, if its target can be written down. -/
def Draft.request (draft : Draft) : Except CallError Http.Request :=
  match Http.Target.ofText draft.target with
  | .ok target => .ok ⟨draft.method, target, draft.body?⟩
  | .error fault => .error (.badAddress fault)

/-! ## Answering calls -/

variable {σ : Type}

/-- Answers a call by way of a server. A call whose target cannot be written down fails without a
request, and so does a call that has no time at all. -/
def serve (timeoutSeconds : Nat) (send : Http.Request → σ → Http.Reply × σ) (request : Request)
    (server : σ) : Except OperatorError request.Answer × σ :=
  match (draft request).request with
  | .error e => (.error (.call e), server)
  | .ok httpRequest =>
    if timeoutSeconds = 0 then (.error (.timeout timeoutSeconds), server)
    else
      let (reply, server) := send httpRequest server
      match replyText? reply with
      | none => (.error (.timeout timeoutSeconds), server)
      | some said => ((answer request said).mapError .call, server)

/-- Looks whether the server knows a kind, by asking for a list with at most one object of it. This
is done without a limit of time: `none` if no answer ever comes. -/
def checkDefinition (kind : Kind) (send : Http.Request → σ → Http.Reply × σ) (server : σ) :
    Option (Except OperatorError Unit) × σ :=
  let target : Http.Target := ⟨collection kind none, some "&limit=1"⟩
  let (reply, server) := send ⟨.get, target, none⟩ server
  let checked := (replyText? reply).map fun said =>
    match said.bind (readList kind) with
    | .ok _ => .ok ()
    | .error e => .error (.missingDefinition e)
  (checked, server)

end Client

end EdgeOperator
