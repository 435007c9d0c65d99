import EdgeOperator.Http
import EdgeOperator.Json.Parser
import EdgeOperator.Program

set_option autoImplicit false

/-! # What responses say

The text of a response is a refusal, an object, a list of objects or a report on a deletion. All are
read from JSON as it is written, so that what nobody asks for need not be readable. -/

namespace EdgeOperator

open Json (Source Written)

variable {σ : Type} [Source σ]

namespace ApiStatus

/-- The members of a refusal, in the order in which an array holds them. -/
def keys : List String :=
  ["status", "message", "reason", "code"]

/-- The refusal a record stands for. -/
def ofJson? (source : σ) : Option ApiStatus := do
  let members ← Source.record? keys source
  return {
    status := ← Source.required? Source.text? members "status"
    message := ← Source.withDefault? Source.text? "" members "message"
    reason := ← Source.withDefault? Source.text? "" members "reason"
    code := ← Source.required? (Source.natBelow? 65536) members "code" }

/-- The refusal that a failed response stands for. If the response does not say, its status does,
and its whole text is the message. -/
def ofResponse (status : Nat) (text : String) : ApiStatus :=
  ((Written.parse? text).bind ofJson?).getD
    ⟨Http.statusText status, Text.quoted text, "Failed to parse error data", status⟩

end ApiStatus

namespace Client

/-! ## Objects -/

/-- What the text of a response stands for, as `read` has it. -/
def readText {α : Type} (read : Written → Option α) (text : String) : Except CallError α :=
  match (Written.parse? text).bind read with
  | some value => .ok value
  | none => .error .undecodable

/-- The object of a kind that the text of a response holds. -/
def readObject (kind : Kind) (text : String) : Except CallError (Resource kind) :=
  readText (Resource.ofJson? kind) text

/-! ## Lists -/

/-- Accepts the metadata of a list. -/
def acceptListMetadata? (source : σ) : Option Unit := do
  let members ← Source.members? source
  let _ ← Source.optional? Source.text? members "continue"
  let _ ← Source.optional? Source.int64? members "remainingItemCount"
  let _ ← Source.optional? Source.text? members "resourceVersion"
  let _ ← Source.optional? Source.text? members "selfLink"
  return ()

/-- The objects that a list holds; `null` is an empty list. A list is a record that cannot be an
array, and all it has besides its metadata and items has to be readable. -/
def listItems? (kind : Kind) (source : σ) : Option (List (Resource kind)) := do
  let keys := ["metadata", "items"]
  let members ← (Source.members? source).bind fun _ => Source.record? keys source
  let _ ← Source.required? acceptListMetadata? members "metadata"
  let _ ← (members.filter fun m => !keys.contains m.1).mapM fun m => Source.value? m.2
  let items? ← Source.required? (Source.nullOr? (Source.listOf? (Resource.ofJson? kind)))
    members "items"
  return items?.getD []

/-- The objects that the text of a response lists. -/
def readList (kind : Kind) (text : String) : Except CallError (List (Resource kind)) :=
  readText (listItems? kind) text

/-! ## Reports on deletions -/

/-- Accepts a cause in the details of a report. -/
def acceptCause? (source : σ) : Option Unit := do
  let members ← Source.record? ["reason", "message", "field"] source
  let _ ← Source.withDefault? Source.text? "" members "reason"
  let _ ← Source.withDefault? Source.text? "" members "message"
  let _ ← Source.withDefault? Source.text? "" members "field"
  return ()

/-- Accepts the details of a report. -/
def acceptDetails? (source : σ) : Option Unit := do
  let keys := ["name", "group", "kind", "uid", "causes", "retryAfterSeconds"]
  let members ← Source.record? keys source
  let _ ← Source.withDefault? Source.text? "" members "name"
  let _ ← Source.withDefault? Source.text? "" members "group"
  let _ ← Source.withDefault? Source.text? "" members "kind"
  let _ ← Source.withDefault? Source.text? "" members "uid"
  let _ ← Source.withDefault? (Source.listOf? acceptCause?) [] members "causes"
  let _ ← Source.withDefault? (Source.natBelow? 4294967296) 0 members "retryAfterSeconds"
  return ()

/-- Accepts the summary of a report: its name, or an object whose only member is that name with
`null`. -/
def acceptSummary? (source : σ) : Option Unit :=
  let isName (name : String) : Bool := name = "Success" || name = "Failure"
  match Source.text? source, Source.members? source with
  | some name, _ => if isName name then some () else none
  | none, some [(name, value)] => if isName name && Source.isNull value then some () else none
  | none, _ => none

/-- Accepts a report on what became of a call. -/
def acceptReport? (source : σ) : Option Unit := do
  let members ← Source.record? ["status", "code", "message", "reason", "details"] source
  let _ ← Source.optional? acceptSummary? members "status"
  let _ ← Source.withDefault? (Source.natBelow? 65536) 0 members "code"
  let _ ← Source.withDefault? Source.text? "" members "message"
  let _ ← Source.withDefault? Source.text? "" members "reason"
  let _ ← Source.optional? acceptDetails? members "details"
  return ()

/-- Accepts what is given back for a deleted object: all of it has to be readable, and it is either
a report, if it calls itself a status, or the object. -/
def acceptDeleted? (kind : Kind) (source : σ) : Option Unit := do
  let value ← Source.value? source
  if (value.member "kind").text? = some "Status" then acceptReport? source
  else (Resource.ofJson? kind source).map fun _ => ()

/-- Whether the text of a response says that an object was deleted. -/
def readDeleted (kind : Kind) (text : String) : Except CallError Unit :=
  readText (acceptDeleted? kind) text

end Client

end EdgeOperator
