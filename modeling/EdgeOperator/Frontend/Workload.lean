import EdgeOperator.Blueprint
import EdgeOperator.Owner

set_option autoImplicit false

/-! # The workload of a frontend

A frontend runs as a deployment of its own name, and a service of a derived name leads to its pods.
Both live in the namespace of the frontend. -/

namespace EdgeOperator

namespace Workload

/-- The key of the service of a frontend. -/
def serviceKey (owner : Owner) : ObjectKey :=
  .inNamespace owner.namespaceName (Names.frontendService owner.name)

/-- The key of the deployment of a frontend. -/
def deploymentKey (owner : Owner) : ObjectKey :=
  .inNamespace owner.namespaceName owner.name

/-- The service of a frontend offers the port the frontend listens on. -/
def service (owner : Owner) (spec : FrontendSpec) : Blueprint .service where
  metadata := owner.objectMeta (Names.frontendService owner.name) (some owner.namespaceName)
    (Labels.frontend owner.name)
  plan := {
    type := "ClusterIP"
    selector := Labels.frontend owner.name
    ports := [{ port := spec.port, targetPort := .numbered spec.port, protocol := "TCP" }] }

/-- The one container of a frontend's pods. -/
def container (spec : FrontendSpec) : Container where
  name := "container-1"
  image := spec.imageName
  environment := (spec.environmentVariables?.getD []).map fun v => ⟨v.name, .value v.value⟩
  ports? := some [{ port := spec.port }]
  requests? := some [("cpu", "500m")]
  limits? := some [("cpu", "2")]

/-- The deployment of a frontend runs at least one copy, on the node that was asked for. -/
def deployment (owner : Owner) (spec : FrontendSpec) : Blueprint .deployment where
  metadata := owner.objectMeta owner.name (some owner.namespaceName) (Labels.frontend owner.name)
  plan := {
    replicas? := some (replicasOrDefault spec.replicas? 1)
    selector := Labels.frontend owner.name
    template := {
      labels := Labels.frontend owner.name
      spec := {
        containers := [container spec]
        nodeSelector? := nodeSelector spec.nodeName? } } }

end Workload

end EdgeOperator
