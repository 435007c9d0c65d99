set_option autoImplicit false

/-! # The kinds of objects

The operator reads and writes objects of fifteen kinds. Twelve are plain: it writes their objects
whole and never looks into them again. The other three it also reads: the two custom resources it
serves, frontends and anchors, and the ingresses that carry the routes.

Every kind belongs to a group of the API and has a plural, and the two make up the path under which
the API server keeps its objects. -/

namespace EdgeOperator

/-- A kind whose objects are written whole and not looked into. -/
inductive PlainKind where
  | nameSpace
  | serviceAccount
  | role
  | clusterRole
  | roleBinding
  | clusterRoleBinding
  | configMap
  | service
  | deployment
  | job
  | ingressClass
  | webhookConfiguration
deriving DecidableEq, Repr

/-- The kind of an object. -/
inductive Kind where
  | plain (kind : PlainKind)
  | ingress
  | frontend
  | anchor
deriving DecidableEq, Repr

instance : Coe PlainKind Kind := ⟨.plain⟩

namespace PlainKind

/-- Every plain kind. -/
def all : List PlainKind :=
  [.nameSpace, .serviceAccount, .role, .clusterRole, .roleBinding, .clusterRoleBinding, .configMap,
    .service, .deployment, .job, .ingressClass, .webhookConfiguration]

/-- The name of a plain kind in the API. -/
def name : PlainKind → String
  | .nameSpace => "Namespace"
  | .serviceAccount => "ServiceAccount"
  | .role => "Role"
  | .clusterRole => "ClusterRole"
  | .roleBinding => "RoleBinding"
  | .clusterRoleBinding => "ClusterRoleBinding"
  | .configMap => "ConfigMap"
  | .service => "Service"
  | .deployment => "Deployment"
  | .job => "Job"
  | .ingressClass => "IngressClass"
  | .webhookConfiguration => "ValidatingWebhookConfiguration"

/-- The group of the API a plain kind belongs to; the core group has no name. -/
def group : PlainKind → String
  | .nameSpace | .serviceAccount | .configMap | .service => ""
  | .role | .clusterRole | .roleBinding | .clusterRoleBinding => "rbac.authorization.k8s.io"
  | .deployment => "apps"
  | .job => "batch"
  | .ingressClass => "networking.k8s.io"
  | .webhookConfiguration => "admissionregistration.k8s.io"

/-- The plural of a plain kind. -/
def plural : PlainKind → String
  | .nameSpace => "namespaces"
  | .serviceAccount => "serviceaccounts"
  | .role => "roles"
  | .clusterRole => "clusterroles"
  | .roleBinding => "rolebindings"
  | .clusterRoleBinding => "clusterrolebindings"
  | .configMap => "configmaps"
  | .service => "services"
  | .deployment => "deployments"
  | .job => "jobs"
  | .ingressClass => "ingressclasses"
  | .webhookConfiguration => "validatingwebhookconfigurations"

/-- Whether objects of a plain kind live outside of namespaces. -/
def isClusterScoped : PlainKind → Bool
  | .nameSpace | .clusterRole | .clusterRoleBinding | .ingressClass | .webhookConfiguration => true
  | _ => false

end PlainKind

namespace Kind

/-- Every kind. -/
def all : List Kind :=
  PlainKind.all.map .plain ++ [.ingress, .frontend, .anchor]

/-- The name of a kind in the API. -/
def name : Kind → String
  | .plain kind => kind.name
  | .ingress => "Ingress"
  | .frontend => "FrontendDeploy"
  | .anchor => "SandOpsIngress"

/-- The kind with a given name. -/
def ofName? (name : String) : Option Kind :=
  all.find? fun kind => kind.name = name

/-- The group of the API a kind belongs to; the core group has no name. -/
def group : Kind → String
  | .plain kind => kind.group
  | .ingress => "networking.k8s.io"
  | .frontend => "frontends.sandtech.io"
  | .anchor => "aasdev.sandtech.io"

/-- The group and version of the API, as objects carry them; every kind is of version one. -/
def apiVersion (kind : Kind) : String :=
  if kind.group = "" then "v1" else kind.group ++ "/v1"

/-- The plural of a kind, as it stands in paths. -/
def plural : Kind → String
  | .plain kind => kind.plural
  | .ingress => "ingresses"
  | .frontend => "frontenddeploys"
  | .anchor => "sandopsingresses"

/-- Whether objects of a kind live outside of namespaces. -/
def isClusterScoped : Kind → Bool
  | .plain kind => kind.isClusterScoped
  | _ => false

/-- The root of the paths of a group of the API. -/
def apiRoot (kind : Kind) : String :=
  if kind.group = "" then "/api/v1/" else "/apis/" ++ kind.apiVersion ++ "/"

/-- The path of the objects of a kind, in one namespace or everywhere. -/
def path (kind : Kind) (namespaceName? : Option String) : String :=
  match namespaceName? with
  | some scope => kind.apiRoot ++ "namespaces/" ++ scope ++ "/" ++ kind.plural
  | none => kind.apiRoot ++ kind.plural

end Kind

end EdgeOperator
