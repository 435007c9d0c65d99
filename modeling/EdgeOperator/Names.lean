import EdgeOperator.StringMap

set_option autoImplicit false

/-! # Names and labels

The names and labels of every object the operator writes follow from the names of the custom
resource it belongs to. An anchor called `edge` has a stack of its own in the namespace `edge-ns`,
its *scope*; objects outside of namespaces carry the scope in their names. -/

namespace EdgeOperator

/-! ## Fixed names -/

namespace Names

/-- The mark on an anchor while its stack may exist. -/
def anchorFinalizer : String := "k8s.io/ingress-finalizer"

/-- The mark on a frontend while its workload may exist. -/
def frontendFinalizer : String := "frontends.sandtech.io/finalizer"

/-- The name shared by the controller's account, roles and bindings. -/
def ingressNginx : String := "ingress-nginx"

/-- The name shared by the admission jobs' account, roles, bindings and certificate. -/
def admission : String := "ingress-nginx-admission"

/-- The name of the controller's deployment, service and settings. -/
def controller : String := "ingress-nginx-controller"

/-- The name of the service that the admission webhook calls. -/
def controllerAdmission : String := "ingress-nginx-controller-admission"

/-- The job that makes the certificate of the webhook. -/
def admissionCreateJob : String := "ingress-nginx-admission-create"

/-- The job that puts the certificate into the webhook. -/
def admissionPatchJob : String := "ingress-nginx-admission-patch"

/-! ## Derived names -/

/-- The service of a frontend. -/
def frontendService (frontend : String) : String :=
  frontend ++ "-frontend-svc"

/-- The namespace that holds the stack of an anchor. -/
def scope (anchor : String) : String :=
  anchor ++ "-ns"

/-- The ingress that carries the routes of a namespace. -/
def routingIngress (namespaceName : String) : String :=
  namespaceName ++ "-ingress-service"

/-- The ingress class of a scope. -/
def ingressClass (scope : String) : String :=
  "nginx-" ++ scope

/-- The controller that the ingress class of a scope names. -/
def ingressClassController (scope : String) : String :=
  "k8s.io/ingress-nginx-" ++ scope

/-- The cluster role binding of the controller of a scope. -/
def clusterRoleBinding (scope : String) : String :=
  ingressNginx ++ "-" ++ scope

/-- The cluster role binding of the admission jobs of a scope. -/
def admissionClusterRoleBinding (scope : String) : String :=
  admission ++ "-" ++ scope

/-- The admission webhook of a scope. -/
def admissionWebhook (scope : String) : String :=
  admission ++ "-" ++ scope

/-- The settings for forwarded ports that the controller of an anchor looks for. -/
def tcpServicesConfigMap (anchor : String) : String :=
  scope anchor ++ "/" ++ scope anchor ++ "-tcp-service-cm"

end Names

/-! ## Labels -/

namespace Labels

/-- The namespace of the custom resource an object belongs to, on every object written for one. -/
def ownerNamespace : String := "sandtech.io/owner-namespace"

/-- The node a pod may be tied to. -/
def hostname : String := "kubernetes.io/hostname"

/-- The component of objects that serve the controller. -/
def controllerComponent : String := "controller"

/-- The component of objects that serve the admission webhook. -/
def admissionComponent : String := "admission-webhook"

/-- The labels of a frontend's objects. -/
def frontend (name : String) : StringMap String :=
  [("app", name)]

/-- The labels that select the pods of a component. -/
def selector (component : String) : StringMap String :=
  [("app.kubernetes.io/component", component),
    ("app.kubernetes.io/instance", Names.ingressNginx),
    ("app.kubernetes.io/name", Names.ingressNginx)]

/-- The labels of the objects of a component. -/
def ingress (component : String) : StringMap String :=
  ((selector component).set "app.kubernetes.io/part-of" Names.ingressNginx).set
    "app.kubernetes.io/version" "1.11.2"

/-- The labels of the namespace of a scope. -/
def scopeNamespace (scope : String) : StringMap String :=
  [("app.kubernetes.io/instance", Names.ingressNginx),
    ("app.kubernetes.io/name", Names.ingressNginx),
    ("namespace", scope)]

end Labels

/-! ## Rules for a frontend's wishes -/

/-- The path pattern a frontend owns on the routing ingress: the host frontend has the one that
takes everything, every other frontend one of its own name. -/
def routePattern (frontend : String) (isHost : Bool) : String :=
  if isHost then "/?(.*)" else "/" ++ frontend ++ "/?(.*)"

/-- The number of copies that run: the one asked for, but no fewer than the default. -/
def replicasOrDefault (replicas? : Option Int32) (default : Int32) : Int32 :=
  match replicas? with
  | some replicas => if replicas ≤ default then default else replicas
  | none => default

/-- The labels of the nodes a frontend may run on; an empty name ties it to none. -/
def nodeSelector (node? : Option String) : Option (StringMap String) :=
  match node? with
  | some node => if node = "" then none else some [(Labels.hostname, node)]
  | none => none

end EdgeOperator
