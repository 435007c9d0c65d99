import EdgeOperator.Content
import EdgeOperator.Json.Printer
import EdgeOperator.Metadata

set_option autoImplicit false

/-! # Objects of the cluster

An object has metadata and the content of its kind.

Reading an object of a built-in kind demands that its `apiVersion` and `kind`, where they are there,
are those of the kind. Reading a custom resource does not look at them, but demands its metadata and
specification, and takes an array of its members too. Writing puts `apiVersion` and `kind` in
anew. -/

namespace EdgeOperator

open Json (Source)

/-- An object of a kind. -/
structure Resource (kind : Kind) where
  metadata : Metadata
  content : Content kind

/-- An object of some kind. -/
structure AnyResource where
  kind : Kind
  resource : Resource kind

namespace Resource

variable {kind : Kind} {σ : Type} [Source σ]

/-! ## JSON form -/

/-- The members of a custom resource: a record that as an array has to be complete. -/
def customMembers? (source : σ) : Option (List (String × σ)) :=
  let keys := ["metadata", "spec", "status"]
  (Source.record? keys source).filter fun members =>
    (Source.items? source).isNone || members.length = keys.length

/-- Whether a member is the given text wherever it is there. -/
def agrees (members : List (String × σ)) (key text : String) : Bool :=
  members.all fun m => m.1 ≠ key || Source.text? m.2 = some text

/-- The members of an object of a kind. -/
def membersOf? (kind : Kind) (source : σ) : Option (List (String × σ)) :=
  match kind with
  | .frontend | .anchor => customMembers? source
  | .plain _ | .ingress => (Source.members? source).filter fun members =>
      agrees members "apiVersion" kind.apiVersion && agrees members "kind" kind.name

/-- The metadata that the members of an object of a kind hold. -/
def metadataOf? (kind : Kind) (members : List (String × σ)) : Option Metadata :=
  match kind with
  | .frontend | .anchor => Source.required? Metadata.ofJson? members "metadata"
  | .plain _ | .ingress => (Source.optional? Metadata.ofJson? members "metadata").map (·.getD {})

/-- The object of a kind that JSON stands for. -/
def ofJson? (kind : Kind) (source : σ) : Option (Resource kind) := do
  let members ← membersOf? kind source
  let metadata ← metadataOf? kind members
  let content ← Content.ofMembers? kind members
  return ⟨metadata, content⟩

/-- The members of an object besides its `apiVersion` and `kind`. -/
def ownMembers (r : Resource kind) : StringMap Json :=
  StringMap.set (r.content.members kind) "metadata" r.metadata.toJson

/-- The object as JSON. -/
def toJson (r : Resource kind) : Json :=
  .obj (StringMap.set (StringMap.set r.ownMembers "kind" (.str kind.name)) "apiVersion"
    (.str kind.apiVersion))

/-- The text of a frontend's specification as it is sent: its members in the order in which an
array would hold them. -/
def specText (spec : Json) : String :=
  Json.objectText <| FrontendSpec.keys.filterMap fun key =>
    (spec.members?.bind (·.get? key)).map fun value => (key, value.compact)

/-- The text of an object as it is sent to the API server: `apiVersion` and `kind` come first. -/
def sentText (r : Resource kind) : String :=
  Json.objectText <|
    [("apiVersion", Json.quote kind.apiVersion), ("kind", Json.quote kind.name)] ++
      r.ownMembers.map fun m =>
        (m.1, if kind = .frontend ∧ m.1 = "spec" then specText m.2 else m.2.compact)

/-! ## Views -/

/-- The key an object is stored under. -/
def key (r : Resource kind) : ObjectKey :=
  r.metadata.key

/-- The path an object is stored under. -/
def path (r : Resource kind) : String :=
  r.key.path kind

/-- The object as it is kept once it was written: without the fractions of seconds. -/
def wholeSeconds (r : Resource kind) : Resource kind :=
  { r with metadata := r.metadata.wholeSeconds }

/-- The object after a merge patch of its JSON form, if that stands for an object of the kind. -/
def patch? (r : Resource kind) (patch : Json) : Option (Resource kind) :=
  ofJson? kind (r.toJson.mergePatch patch)

end Resource

namespace AnyResource

/-- The object as JSON. -/
def toJson (r : AnyResource) : Json :=
  r.resource.toJson

/-- The object, if it is of the given kind. -/
def ofKind? (r : AnyResource) (kind : Kind) : Option (Resource kind) :=
  if h : r.kind = kind then some (h ▸ r.resource) else none

end AnyResource

end EdgeOperator
