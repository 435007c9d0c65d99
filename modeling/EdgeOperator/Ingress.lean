import EdgeOperator.Frontend

set_option autoImplicit false

/-! # Ingresses

An ingress sends requests to backends by host and path. Its rules come in groups, one for each
host, and each group has a list of paths. -/

namespace EdgeOperator

open Json (Source)

variable {σ : Type} [Source σ]

/-- A port of a service, by name or number. -/
structure BackendPort where
  name? : Option String := none
  number? : Option Int32 := none
deriving DecidableEq, Repr

/-- A service as a backend. -/
structure ServiceBackend where
  name : String
  port? : Option BackendPort := none
deriving DecidableEq, Repr

/-- A backend that is another object of the namespace. -/
structure ResourceBackend where
  apiGroup? : Option String := none
  kind : String
  name : String
deriving DecidableEq, Repr

/-- Where requests are sent to. -/
structure Backend where
  resource? : Option ResourceBackend := none
  service? : Option ServiceBackend := none
deriving DecidableEq, Repr

/-- A path of an ingress and the backend of requests to it. -/
structure IngressPath where
  backend : Backend
  path? : Option String
  pathType : String
deriving DecidableEq, Repr

/-- The paths of one host. A group without paths differs from one with an empty list of them. -/
structure IngressRule where
  host? : Option String := none
  paths? : Option (List IngressPath) := none
deriving DecidableEq, Repr

/-- The hosts whose requests are encrypted with the certificate in a secret. -/
structure IngressTls where
  hosts? : Option (List String) := none
  secretName? : Option String := none
deriving DecidableEq, Repr

/-- What an ingress asks for. -/
structure IngressSpec where
  defaultBackend? : Option Backend := none
  ingressClassName? : Option String := none
  rules? : Option (List IngressRule) := none
  tls? : Option (List IngressTls) := none
deriving DecidableEq, Repr

/-! ## JSON form -/

namespace BackendPort

/-- The port an object stands for. -/
def ofJson? (source : σ) : Option BackendPort := do
  let members ← Source.members? source
  return {
    name? := ← Source.optional? Source.text? members "name"
    number? := ← Source.optional? Source.int32? members "number" }

/-- The port as an object. -/
def toJson (port : BackendPort) : Json :=
  .ofPresent [("name", port.name?.map .str), ("number", port.number?.map .ofInt32)]

end BackendPort

namespace ServiceBackend

/-- The service an object stands for. -/
def ofJson? (source : σ) : Option ServiceBackend := do
  let members ← Source.members? source
  return {
    name := ← Source.textOrEmpty? members "name"
    port? := ← Source.optional? BackendPort.ofJson? members "port" }

/-- The service as an object. -/
def toJson (service : ServiceBackend) : Json :=
  .ofPresent [("name", some (.str service.name)), ("port", service.port?.map BackendPort.toJson)]

end ServiceBackend

namespace ResourceBackend

/-- The object another object stands for. -/
def ofJson? (source : σ) : Option ResourceBackend := do
  let members ← Source.members? source
  return {
    apiGroup? := ← Source.optional? Source.text? members "apiGroup"
    kind := ← Source.textOrEmpty? members "kind"
    name := ← Source.textOrEmpty? members "name" }

/-- The reference as an object. -/
def toJson (resource : ResourceBackend) : Json :=
  .ofPresent [
    ("apiGroup", resource.apiGroup?.map .str),
    ("kind", some (.str resource.kind)),
    ("name", some (.str resource.name))]

end ResourceBackend

namespace Backend

/-- The backend an object stands for. -/
def ofJson? (source : σ) : Option Backend := do
  let members ← Source.members? source
  return {
    resource? := ← Source.optional? ResourceBackend.ofJson? members "resource"
    service? := ← Source.optional? ServiceBackend.ofJson? members "service" }

/-- The backend as an object. -/
def toJson (backend : Backend) : Json :=
  .ofPresent [
    ("resource", backend.resource?.map ResourceBackend.toJson),
    ("service", backend.service?.map ServiceBackend.toJson)]

end Backend

namespace IngressPath

/-- The path an object stands for. -/
def ofJson? (source : σ) : Option IngressPath := do
  let members ← Source.members? source
  return {
    backend := (← Source.optional? Backend.ofJson? members "backend").getD {}
    path? := ← Source.optional? Source.text? members "path"
    pathType := ← Source.textOrEmpty? members "pathType" }

/-- The path as an object. -/
def toJson (path : IngressPath) : Json :=
  .ofPresent [
    ("backend", some path.backend.toJson),
    ("path", path.path?.map .str),
    ("pathType", some (.str path.pathType))]

end IngressPath

namespace IngressRule

/-- The paths of a group, read from the member that holds them. -/
def pathsOfJson? (source : σ) : Option (List IngressPath) := do
  let members ← Source.members? source
  return (← Source.optional? (Source.listOf? IngressPath.ofJson?) members "paths").getD []

/-- The group an object stands for. -/
def ofJson? (source : σ) : Option IngressRule := do
  let members ← Source.members? source
  return {
    host? := ← Source.optional? Source.text? members "host"
    paths? := ← Source.optional? pathsOfJson? members "http" }

/-- The group as an object. -/
def toJson (rule : IngressRule) : Json :=
  .ofPresent [
    ("host", rule.host?.map .str),
    ("http", rule.paths?.map fun paths => .obj [("paths", .arr (paths.map IngressPath.toJson))])]

end IngressRule

namespace IngressTls

/-- The entry an object stands for. -/
def ofJson? (source : σ) : Option IngressTls := do
  let members ← Source.members? source
  return {
    hosts? := ← Source.optional? (Source.listOf? Source.text?) members "hosts"
    secretName? := ← Source.optional? Source.text? members "secretName" }

/-- The entry as an object. -/
def toJson (tls : IngressTls) : Json :=
  .ofPresent [
    ("hosts", tls.hosts?.map Json.ofTextList), ("secretName", tls.secretName?.map .str)]

end IngressTls

namespace IngressSpec

/-- The specification an object stands for. -/
def ofJson? (source : σ) : Option IngressSpec := do
  let members ← Source.members? source
  return {
    defaultBackend? := ← Source.optional? Backend.ofJson? members "defaultBackend"
    ingressClassName? := ← Source.optional? Source.text? members "ingressClassName"
    rules? := ← Source.optional? (Source.listOf? IngressRule.ofJson?) members "rules"
    tls? := ← Source.optional? (Source.listOf? IngressTls.ofJson?) members "tls" }

/-- The specification as an object. -/
def toJson (spec : IngressSpec) : Json :=
  .ofPresent [
    ("defaultBackend", spec.defaultBackend?.map Backend.toJson),
    ("ingressClassName", spec.ingressClassName?.map .str),
    ("rules", spec.rules?.map fun rules => .arr (rules.map IngressRule.toJson)),
    ("tls", spec.tls?.map fun entries => .arr (entries.map IngressTls.toJson))]

end IngressSpec

end EdgeOperator
