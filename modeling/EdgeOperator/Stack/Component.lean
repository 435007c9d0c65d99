import EdgeOperator.Owner

set_option autoImplicit false

/-! # The components of an anchor's stack

An anchor is served by an ingress controller of its own, installed into the namespace that is the
scope of the anchor. The installation has nineteen components. Each is an object of its own kind and
key, and they are created in a fixed order, the namespace first, since most others live in it.

The two cluster roles carry the same names in every installation; every other component that lives
outside of namespaces has the scope in its name. -/

namespace EdgeOperator

/-- A component of the stack. -/
inductive Component where
  | nameSpace
  | serviceAccount
  | admissionServiceAccount
  | role
  | admissionRole
  | clusterRole
  | admissionClusterRole
  | roleBinding
  | admissionRoleBinding
  | clusterRoleBinding
  | admissionClusterRoleBinding
  | configMap
  | controllerService
  | admissionService
  | controllerDeployment
  | admissionCreateJob
  | admissionPatchJob
  | ingressClass
  | admissionWebhook
deriving DecidableEq, Repr

namespace Component

/-- Every component, in the order of creation. -/
def creationOrder : List Component :=
  [.nameSpace, .serviceAccount, .admissionServiceAccount, .role, .admissionRole, .clusterRole,
    .admissionClusterRole, .roleBinding, .admissionRoleBinding, .clusterRoleBinding,
    .admissionClusterRoleBinding, .configMap, .controllerService, .admissionService,
    .controllerDeployment, .admissionCreateJob, .admissionPatchJob, .ingressClass,
    .admissionWebhook]

/-- What a component is called. -/
def name : Component → String
  | .nameSpace => "Namespace"
  | .serviceAccount => "ServiceAccount"
  | .admissionServiceAccount => "AdmissionServiceAccount"
  | .role => "Role"
  | .admissionRole => "AdmissionRole"
  | .clusterRole => "ClusterRole"
  | .admissionClusterRole => "AdmissionClusterRole"
  | .roleBinding => "RoleBinding"
  | .admissionRoleBinding => "AdmissionRoleBinding"
  | .clusterRoleBinding => "ClusterRoleBinding"
  | .admissionClusterRoleBinding => "AdmissionClusterRoleBinding"
  | .configMap => "ConfigMap"
  | .controllerService => "ControllerService"
  | .admissionService => "AdmissionService"
  | .controllerDeployment => "ControllerDeployment"
  | .admissionCreateJob => "AdmissionCreateJob"
  | .admissionPatchJob => "AdmissionPatchJob"
  | .ingressClass => "IngressClass"
  | .admissionWebhook => "AdmissionWebhook"

/-- The component of a given name. -/
def ofName? (name : String) : Option Component :=
  creationOrder.find? fun component => component.name = name

/-- The kind of a component's object. -/
def kind : Component → PlainKind
  | .nameSpace => .nameSpace
  | .serviceAccount | .admissionServiceAccount => .serviceAccount
  | .role | .admissionRole => .role
  | .clusterRole | .admissionClusterRole => .clusterRole
  | .roleBinding | .admissionRoleBinding => .roleBinding
  | .clusterRoleBinding | .admissionClusterRoleBinding => .clusterRoleBinding
  | .configMap => .configMap
  | .controllerService | .admissionService => .service
  | .controllerDeployment => .deployment
  | .admissionCreateJob | .admissionPatchJob => .job
  | .ingressClass => .ingressClass
  | .admissionWebhook => .webhookConfiguration

/-- The key of a component's object in the installation of an anchor. -/
def key (component : Component) (owner : Owner) : ObjectKey :=
  let scope := Names.scope owner.name
  match component with
  | .nameSpace => .clusterWide scope
  | .serviceAccount | .role | .roleBinding => .inNamespace scope Names.ingressNginx
  | .admissionServiceAccount | .admissionRole | .admissionRoleBinding =>
    .inNamespace scope Names.admission
  | .clusterRole => .clusterWide Names.ingressNginx
  | .admissionClusterRole => .clusterWide Names.admission
  | .clusterRoleBinding => .clusterWide (Names.clusterRoleBinding scope)
  | .admissionClusterRoleBinding => .clusterWide (Names.admissionClusterRoleBinding scope)
  | .configMap | .controllerService | .controllerDeployment =>
    .inNamespace scope Names.controller
  | .admissionService => .inNamespace scope Names.controllerAdmission
  | .admissionCreateJob => .inNamespace scope Names.admissionCreateJob
  | .admissionPatchJob => .inNamespace scope Names.admissionPatchJob
  | .ingressClass => .clusterWide (Names.ingressClass scope)
  | .admissionWebhook => .clusterWide (Names.admissionWebhook scope)

end Component

end EdgeOperator
