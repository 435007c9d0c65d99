import EdgeOperator.Stack.Access

set_option autoImplicit false

/-! # The controller of the stack

The namespace of the stack, the deployment that runs the controller, its settings, the service that
receives the traffic, and the ingress class by which ingresses ask for this controller. -/

namespace EdgeOperator

namespace Stack

/-! ## Namespace, settings and class -/

/-- The labels of the objects that serve the controller. -/
def controllerLabels : StringMap String :=
  Labels.ingress Labels.controllerComponent

/-- The namespace the stack lives in. -/
def scopeNamespace (owner : Owner) : Blueprint .nameSpace where
  metadata := owner.objectMeta (Names.scope owner.name) none
    (Labels.scopeNamespace (Names.scope owner.name))
  plan := ()

/-- The settings of the controller. -/
def configMap (owner : Owner) : Blueprint .configMap where
  metadata := owner.objectMeta Names.controller (some (Names.scope owner.name)) controllerLabels
  plan := [("allow-snippet-annotations", "true")]

/-- The ingress class that the controller serves. -/
def ingressClass (owner : Owner) : Blueprint .ingressClass where
  metadata := owner.objectMeta (Names.ingressClass (Names.scope owner.name)) none controllerLabels
  plan := Names.ingressClassController (Names.scope owner.name)

/-! ## Services -/

/-- A port that leads to a named port of the controller. -/
def servicePort (name : String) (port : Int32) (target appProtocol : String) : ServicePort where
  name? := some name
  port := port
  protocol := "TCP"
  targetPort := .named target
  appProtocol? := some appProtocol

/-- A service in front of the controller. -/
def serviceSpec (type : String) (ports : List ServicePort) : ServiceSpec where
  type := type
  selector := Labels.selector Labels.controllerComponent
  ports := ports
  ipFamilies? := some ["IPv4"]
  ipFamilyPolicy? := some "SingleStack"

/-- The service that receives the traffic. -/
def controllerService (owner : Owner) : Blueprint .service where
  metadata := owner.objectMeta Names.controller (some (Names.scope owner.name)) controllerLabels
  plan := serviceSpec "LoadBalancer"
    [servicePort "http" 80 "http" "http", servicePort "https" 443 "https" "https"]

/-- The service under which the API server reaches the admission webhook. -/
def admissionService (owner : Owner) : Blueprint .service where
  metadata := owner.objectMeta Names.controllerAdmission (some (Names.scope owner.name))
    controllerLabels
  plan := serviceSpec "ClusterIP" [servicePort "https-webhook" 443 "webhook" "https"]

/-! ## Deployment -/

/-- The image of the controller. -/
def controllerImage : String :=
  "registry.k8s.io/ingress-nginx/controller:v1.8.1@sha256:" ++
    "e5c4824e7375fcf2a393e1c03c293b69759af37a9ca6abdb91b13d78a93da8bd"

/-- The secret that holds the certificate of the admission webhook. -/
def certificateSecret : String := Names.admission

/-- The volume that holds the certificate of the admission webhook. -/
def certificateVolume : String := "webhook-cert"

/-- Where the controller finds the certificate of the admission webhook. -/
def certificatePath : String := "/usr/local/certificates/"

/-- The nodes that pods of the stack may run on. -/
def linuxNodes : StringMap String := [("kubernetes.io/os", "linux")]

/-- The command line of the controller. -/
def controllerArgs (owner : Owner) : List String :=
  let scope := Names.scope owner.name
  ["/nginx-ingress-controller",
    "--election-id=" ++ leaderLock,
    "--controller-class=" ++ Names.ingressClassController scope,
    "--ingress-class=" ++ Names.ingressClass scope,
    "--configmap=$(POD_NAMESPACE)/" ++ Names.controller,
    "--validating-webhook=:8443",
    "--validating-webhook-certificate=" ++ certificatePath ++ "cert",
    "--validating-webhook-key=" ++ certificatePath ++ "key",
    "--tcp-services-configmap=" ++ Names.tcpServicesConfigMap owner.name]

/-- The check whether the controller is well. -/
def healthProbe (failureThreshold : Int32) : Probe where
  failureThreshold := failureThreshold
  path := "/healthz"
  port := 10254
  scheme := "HTTP"
  initialDelaySeconds := 10
  periodSeconds := 10
  successThreshold := 1
  timeoutSeconds := 1

/-- A port the controller listens on. -/
def controllerPort (name : String) (port : Int32) : ContainerPort :=
  ⟨port, some name, some "TCP"⟩

/-- The container of the controller. -/
def controllerContainer (owner : Owner) : Container where
  name := Labels.controllerComponent
  image := controllerImage
  imagePullPolicy? := some "IfNotPresent"
  args? := some (controllerArgs owner)
  environment := [
    ⟨"POD_NAME", .field "metadata.name"⟩,
    ⟨"POD_NAMESPACE", .field "metadata.namespace"⟩,
    ⟨"LD_PRELOAD", .value "/usr/local/lib/libmimalloc.so"⟩]
  stopCommand? := some ["/wait-shutdown"]
  livenessProbe? := some (healthProbe 5)
  readinessProbe? := some (healthProbe 3)
  ports? := some
    [controllerPort "http" 80, controllerPort "https" 443, controllerPort "webhook" 8443]
  requests? := some [("cpu", "100m"), ("memory", "90Mi")]
  securityContext? := some {
    allowPrivilegeEscalation := true
    addedCapabilities? := some ["NET_BIND_SERVICE"]
    droppedCapabilities := ["ALL"]
    runAsUser := 101 }
  volumeMounts? := some [⟨certificateVolume, certificatePath, true⟩]

/-- The deployment that runs the controller. -/
def controllerDeployment (owner : Owner) : Blueprint .deployment where
  metadata := owner.objectMeta Names.controller (some (Names.scope owner.name)) controllerLabels
  plan := {
    minReadySeconds? := some 0
    revisionHistoryLimit? := some 10
    selector := Labels.selector Labels.controllerComponent
    template := {
      labels := controllerLabels
      spec := {
        containers := [controllerContainer owner]
        automountServiceAccountToken? := some true
        dnsPolicy? := some "ClusterFirst"
        nodeSelector? := some linuxNodes
        serviceAccountName? := some Account.controller.name
        terminationGracePeriodSeconds? := some 300
        volumes? := some [⟨certificateVolume, certificateSecret⟩] } } }

end Stack

end EdgeOperator
