import EdgeOperator.Kind
import EdgeOperator.Schema
import EdgeOperator.Yaml

set_option autoImplicit false

/-! # Definitions of the custom resources

The API server learns about the two custom resources from a definition for each: its names, its
version and the schema of its objects. The definitions are written as JSON, and both together as a
stream of YAML documents. -/

namespace EdgeOperator

/-- A kind that is a custom resource. -/
inductive CustomKind where
  | frontend
  | anchor
deriving DecidableEq, Repr

namespace CustomKind

/-- The custom resource as one of all kinds. -/
def kind : CustomKind → Kind
  | .frontend => .frontend
  | .anchor => .anchor

/-- Both custom resources. -/
def all : List CustomKind := [.frontend, .anchor]

/-- The name of a single object, in small letters. -/
def singular (custom : CustomKind) : String :=
  custom.kind.name.toLower

/-! ## Schemas -/

/-- The schema of a variable of a frontend. -/
def variableSchema : Schema :=
  .record [
    ("name", .withDefault (.str "") .text),
    ("value", .withDefault (.str "") .text)]

/-- The schema of a specification. -/
def specSchema : CustomKind → Schema
  | .frontend =>
    .described ("A single frontend workload, exposed through a service and a path on the shared " ++
      "routing object of its namespace.") <|
      .record [
        ("environmentVariables", .nullable (.list variableSchema)),
        ("imageName", .text),
        ("isHost", .withDefault (.bool false)
          (.described "Host frontends own the catch-all route." .boolean)),
        ("nodeName",
          .described "Pins the workload to the node with this hostname." (.nullable .text)),
        ("port", .integer32),
        ("replicas", .nullable .integer32)]
  | .anchor =>
    .described ("Anchors an ingress-nginx installation scoped to \x60<name>-ns\x60 and owns the " ++
      "routing object of its namespace.") (.record [])

/-- The schema of an object. -/
def schema (custom : CustomKind) : Schema :=
  .described ("Auto-generated derived type for " ++ custom.kind.name ++
    "Spec via \x60CustomResource\x60") <|
    .record [("spec", custom.specSchema), ("status", .nullable (.record []))]

/-! ## Written form -/

/-- The only version of a custom resource. -/
def version (custom : CustomKind) : Json :=
  .obj [
    ("additionalPrinterColumns", .arr []),
    ("name", .str "v1"),
    ("schema", .obj [
      ("openAPIV3Schema",
        .obj (StringMap.set custom.schema.members "title" (.str custom.kind.name)))]),
    ("served", .bool true),
    ("storage", .bool true),
    ("subresources", .obj [("status", .obj [])])]

/-- The names of a custom resource. -/
def names (custom : CustomKind) : Json :=
  .obj [
    ("categories", .arr []),
    ("kind", .str custom.kind.name),
    ("plural", .str custom.kind.plural),
    ("shortNames", .arr []),
    ("singular", .str custom.singular)]

/-- The definition of a custom resource. -/
def definition (custom : CustomKind) : Json :=
  .obj [
    ("apiVersion", .str "apiextensions.k8s.io/v1"),
    ("kind", .str "CustomResourceDefinition"),
    ("metadata", .obj [("name", .str (custom.kind.plural ++ "." ++ custom.kind.group))]),
    ("spec", .obj [
      ("group", .str custom.kind.group),
      ("names", custom.names),
      ("scope", .str "Namespaced"),
      ("versions", .arr [custom.version])])]

/-- Both definitions as a stream of YAML documents. -/
def manifests : String :=
  "---\n".intercalate (all.map fun custom => custom.definition.toYaml)

/-- What is reported when the definitions cannot be written to a file. -/
def writeFailure (path : String) : String :=
  "Failed to write \x60" ++ path ++ "\x60"

end CustomKind

end EdgeOperator
