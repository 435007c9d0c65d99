import EdgeOperator.Http
import EdgeOperator.Json.Printer

set_option autoImplicit false

/-! # A server that follows a script

A server for tests. It takes requests and answers each by the first rule that fits and was not used
up. Without such a rule it behaves like a server that has no objects and keeps none: look-ups find
nothing, deletions succeed, and what is written is handed back. -/

namespace EdgeOperator

/-- What a rule does with a request. -/
inductive ScriptedReply where
  /-- It gives a fixed reply. -/
  | fixed (reply : Http.Reply)
  /-- It hands back the body of the request. -/
  | echo (status : Nat)
deriving DecidableEq, Repr

/-- A rule: which requests it fits, how often it may be used, and what it does. -/
structure ScriptRule where
  method? : Option String
  path? : Option String
  remaining : Nat
  reply : ScriptedReply
deriving DecidableEq, Repr

/-- A server with its rules and the requests it took, in order. -/
structure ScriptedServer where
  rules : List ScriptRule
  requests : List Http.Request := []

namespace ScriptRule

/-- Whether a rule fits a request. -/
def fits (rule : ScriptRule) (request : Http.Request) : Bool :=
  0 < rule.remaining &&
    rule.method?.all (fun method => method = request.method.name) &&
    rule.path?.all (fun path => path = request.target.path)

/-- The first rule that fits a request, and the rules with one use of it gone. -/
def choose (request : Http.Request) : List ScriptRule → Option ScriptRule × List ScriptRule
  | [] => (none, [])
  | rule :: rest =>
    if rule.fits request then (some rule, { rule with remaining := rule.remaining - 1 } :: rest)
    else
      let (chosen?, rest) := choose request rest
      (chosen?, rule :: rest)

end ScriptRule

namespace ScriptedServer

/-- The body of a request as the content of a response. -/
def handedBack (request : Http.Request) : Http.Payload :=
  .text (request.body?.getD "")

/-- The report that there is no such object. -/
def absence : Json :=
  .obj [
    ("apiVersion", .str "v1"),
    ("code", .int 404),
    ("kind", .str "Status"),
    ("message", .str "scripted NotFound"),
    ("metadata", .obj []),
    ("reason", .str "NotFound"),
    ("status", .str "Failure")]

/-- The report that a deletion succeeded. -/
def success : Json :=
  .obj [
    ("apiVersion", .str "v1"),
    ("kind", .str "Status"),
    ("metadata", .obj []),
    ("status", .str "Success")]

/-- The reply to a request that no rule fits. -/
def unscripted (request : Http.Request) : Http.Reply :=
  match request.method with
  | .get => .response 404 (.text absence.compact)
  | .delete => .response 200 (.text success.compact)
  | .post | .put => .response 200 (handedBack request)

/-- The reply that a rule gives to a request. -/
def replyBy (request : Http.Request) : ScriptedReply → Http.Reply
  | .fixed reply => reply
  | .echo status => .response status (handedBack request)

/-- Takes a request. -/
def send (request : Http.Request) (server : ScriptedServer) : Http.Reply × ScriptedServer :=
  let (rule?, rules) := ScriptRule.choose request server.rules
  let reply :=
    match rule? with
    | some rule => replyBy request rule.reply
    | none => unscripted request
  (reply, { server with rules := rules, requests := server.requests ++ [request] })

end ScriptedServer

end EdgeOperator
