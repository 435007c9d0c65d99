import EdgeOperator.Stack.Admission
import EdgeOperator.Stack.Component

set_option autoImplicit false

/-! # The stack of an anchor

What the operator writes for each component of the stack. -/

namespace EdgeOperator

/-- The blueprint of a component for the installation of an anchor. -/
def Component.blueprint (component : Component) (owner : Owner) : Blueprint component.kind :=
  match component with
  | .nameSpace => Stack.scopeNamespace owner
  | .serviceAccount => Stack.serviceAccount owner .controller
  | .admissionServiceAccount => Stack.serviceAccount owner .admission
  | .role => Stack.role owner .controller
  | .admissionRole => Stack.role owner .admission
  | .clusterRole => Stack.clusterRole owner .controller
  | .admissionClusterRole => Stack.clusterRole owner .admission
  | .roleBinding => Stack.roleBinding owner .controller
  | .admissionRoleBinding => Stack.roleBinding owner .admission
  | .clusterRoleBinding => Stack.clusterRoleBinding owner .controller
  | .admissionClusterRoleBinding => Stack.clusterRoleBinding owner .admission
  | .configMap => Stack.configMap owner
  | .controllerService => Stack.controllerService owner
  | .admissionService => Stack.admissionService owner
  | .controllerDeployment => Stack.controllerDeployment owner
  | .admissionCreateJob => Stack.admissionCreateJob owner
  | .admissionPatchJob => Stack.admissionPatchJob owner
  | .ingressClass => Stack.ingressClass owner
  | .admissionWebhook => Stack.admissionWebhook owner

end EdgeOperator
