import EdgeOperator.Ingress
import EdgeOperator.Ingress.Status
import EdgeOperator.Kind

set_option autoImplicit false

/-! # The content of objects

What an object holds besides its metadata: typed data for ingresses, frontends and anchors, and for
a plain kind the members that its objects may have, each as JSON of the right sort. Members that a
kind does not have are left out. -/

namespace EdgeOperator

open Json (Source)

variable {σ : Type} [Source σ]

/-- What a frontend holds besides its metadata. Its status is reserved: only whether there is one
is known. -/
structure FrontendContent where
  spec : FrontendSpec
  hasStatus : Bool := false
deriving DecidableEq, Repr

/-- What an anchor holds besides its metadata: its specification has no members, and its status is
reserved. -/
structure AnchorContent where
  hasStatus : Bool := false
deriving DecidableEq, Repr

/-- What an ingress holds besides its metadata. -/
structure IngressContent where
  spec? : Option IngressSpec := none
  status? : Option IngressStatus := none
deriving DecidableEq, Repr

/-- What an object of a kind holds besides its metadata. -/
@[reducible] def Content : Kind → Type
  | .plain _ => StringMap Json
  | .ingress => IngressContent
  | .frontend => FrontendContent
  | .anchor => AnchorContent

namespace PlainKind

/-- A flag, as a value. -/
def flag? (source : σ) : Option Json :=
  (Source.bool? source).map .bool

/-- A map of texts, as a value. -/
def texts? (source : σ) : Option Json :=
  (Source.mapOf? Source.text? source).map Json.ofTexts

/-- An object, as a value. -/
def object? (source : σ) : Option Json :=
  (Source.members? source).bind fun _ => Source.value? source

/-- A list of objects, as a value. -/
def objects? (source : σ) : Option Json :=
  (Source.listOf? object? source).map .arr

/-- The members that hold the content of objects of a plain kind, in key order, and how each of them
is read. -/
def members : PlainKind → List (String × (σ → Option Json))
  | .nameSpace | .service | .deployment | .job => [("spec", object?), ("status", object?)]
  | .serviceAccount => [
      ("automountServiceAccountToken", flag?),
      ("imagePullSecrets", objects?),
      ("secrets", objects?)]
  | .role => [("rules", objects?)]
  | .clusterRole => [("aggregationRule", object?), ("rules", objects?)]
  | .roleBinding | .clusterRoleBinding => [("roleRef", object?), ("subjects", objects?)]
  | .configMap => [("binaryData", texts?), ("data", texts?), ("immutable", flag?)]
  | .ingressClass => [("spec", object?)]
  | .webhookConfiguration => [("webhooks", objects?)]

/-- Members that objects of a plain kind have even if nothing was set: a binding always refers to
a role. -/
def fixedMembers : PlainKind → StringMap Json
  | .roleBinding | .clusterRoleBinding =>
    [("roleRef", .obj [("apiGroup", .str ""), ("kind", .str ""), ("name", .str "")])]
  | _ => []

/-- The content of an object of a plain kind, from the members of the object. -/
def contentOf? (kind : PlainKind) (members : List (String × σ)) : Option (StringMap Json) := do
  let own ← kind.members.mapM fun m => (Source.optional? m.2 members m.1).map (m.1, ·)
  let present := own.filterMap fun m => m.2.map (m.1, ·)
  return kind.fixedMembers.foldl
    (fun acc m => if acc.contains m.1 then acc else acc.set m.1 m.2) present

end PlainKind

namespace Content

/-- A specification or status without members of its own. -/
def emptyRecord? (source : σ) : Option Unit :=
  (Source.record? [] source).map fun _ => ()

/-- A status that is reserved: whether there is one. -/
def reservedStatus? (members : List (String × σ)) : Option Bool :=
  (Source.optional? emptyRecord? members "status").map Option.isSome

/-- The content that the members of an object stand for. -/
def ofMembers? (kind : Kind) (members : List (String × σ)) : Option (Content kind) :=
  match kind with
  | .plain kind => kind.contentOf? members
  | .ingress => do
    return {
      spec? := ← Source.optional? IngressSpec.ofJson? members "spec"
      status? := ← Source.optional? IngressStatus.ofJson? members "status" }
  | .frontend => do
    return {
      spec := ← Source.required? FrontendSpec.ofJson? members "spec"
      hasStatus := ← reservedStatus? members }
  | .anchor => do
    let _ ← Source.required? emptyRecord? members "spec"
    return { hasStatus := ← reservedStatus? members }

/-- The members of an object that hold its content. -/
def members (kind : Kind) (content : Content kind) : StringMap Json :=
  match kind, content with
  | .plain _, members => members
  | .ingress, content =>
    [("spec", content.spec?.map IngressSpec.toJson),
      ("status", content.status?.map IngressStatus.toJson)].filterMap fun m => m.2.map (m.1, ·)
  | .frontend, content =>
    ("spec", content.spec.toJson) :: if content.hasStatus then [("status", .obj [])] else []
  | .anchor, content =>
    ("spec", .obj []) :: if content.hasStatus then [("status", .obj [])] else []

end Content

end EdgeOperator
