import EdgeOperator.Ingress
import EdgeOperator.Owner

set_option autoImplicit false

/-! # Routes

All frontends of a namespace share one ingress, the routing ingress. Each owns one path pattern on
it. Routes are only ever added at the end or given another backend in place, so those of other
frontends stay as they are. -/

namespace EdgeOperator

/-! ## Merging a route -/

/-- The backend that is a port of a service. -/
def Backend.ofService (service : String) (port : Int32) : Backend where
  service? := some { name := service, port? := some { number? := some port } }

/-- The route from a pattern to a backend. -/
def IngressPath.route (pattern : String) (backend : Backend) : IngressPath where
  path? := some pattern
  pathType := "ImplementationSpecific"
  backend := backend

/-- Paths after a merge, and whether they are others than before. -/
structure MergedPaths where
  paths : List IngressPath
  changed : Bool
deriving DecidableEq, Repr

/-- Sends a pattern to a backend: the first path with that pattern gets the backend, and if there is
none a route is added at the end. -/
def mergePath (paths : List IngressPath) (pattern : String) (backend : Backend) : MergedPaths :=
  match paths with
  | [] => ⟨[.route pattern backend], true⟩
  | path :: rest =>
    if path.path? = some pattern then
      if path.backend = backend then ⟨path :: rest, false⟩
      else ⟨{ path with backend := backend } :: rest, true⟩
    else
      let merged := mergePath rest pattern backend
      ⟨path :: merged.paths, merged.changed⟩

/-! ## The paths that carry routes -/

namespace IngressContent

/-- The paths of the first rule group, none if there is no such group. -/
def routes (content : IngressContent) : List IngressPath :=
  match content.spec?.bind (·.rules?) with
  | some (rule :: _) => rule.paths?.getD []
  | _ => []

/-- The first rule group with other paths. -/
def firstRule (rules : List IngressRule) (paths : List IngressPath) : List IngressRule :=
  match rules with
  | [] => [{ paths? := some paths }]
  | rule :: rest => { rule with paths? := some paths } :: rest

/-- The content with other paths in the first rule group, which is put there if it is missing. -/
def withRoutes (content : IngressContent) (paths : List IngressPath) : IngressContent :=
  let spec := content.spec?.getD {}
  { content with
    spec? := some { spec with rules? := some (firstRule (spec.rules?.getD []) paths) } }

theorem routes_withRoutes (content : IngressContent) (paths : List IngressPath) :
    (content.withRoutes paths).routes = paths := by
  simp only [withRoutes, routes]
  cases (content.spec?.getD {}).rules?.getD [] <;> rfl

end IngressContent

/-! ## The routing ingress -/

/-- The annotations by which the controller reads paths as patterns and passes on what they
match. -/
def routingAnnotations : StringMap String :=
  [("nginx.ingress.kubernetes.io/proxy-body-size", "8m"),
    ("nginx.ingress.kubernetes.io/rewrite-target", "/$1"),
    ("nginx.ingress.kubernetes.io/use-regex", "true")]

/-- The routing ingress of the namespace of an anchor, with its first route. -/
def routingIngress (anchor : Owner) (first : IngressPath) : Resource .ingress where
  metadata :=
    { anchor.objectMeta (Names.routingIngress anchor.namespaceName) (some anchor.namespaceName) []
      with annotations? := some routingAnnotations }
  content := {
    spec? := some {
      ingressClassName? := some (Names.ingressClass (Names.scope anchor.name))
      rules? := some [{ paths? := some [first] }] } }

end EdgeOperator
