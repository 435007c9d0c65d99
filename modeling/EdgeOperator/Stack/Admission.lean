import EdgeOperator.Stack.Controller

set_option autoImplicit false

/-! # The admission webhook of the stack

The API server asks the controller about every ingress before it is stored. One job makes the
certificate for these calls and keeps it in a secret, another puts it into the webhook. -/

namespace EdgeOperator

namespace Stack

/-- The labels of the objects that serve the admission webhook. -/
def admissionLabels : StringMap String :=
  Labels.ingress Labels.admissionComponent

/-! ## Certificate jobs -/

/-- The image of the certificate jobs. -/
def certificateImage : String :=
  "registry.k8s.io/ingress-nginx/kube-webhook-certgen:v1.4.3@sha256:" ++
    "a320a50cc91bd15fd2d6fa6de58bd98c1bd64b9a6f926ce23a600d87043455a3"

/-- The container of a certificate job. -/
def certificateContainer (name : String) (args : List String) : Container where
  name := name
  image := certificateImage
  imagePullPolicy? := some "IfNotPresent"
  args? := some args
  environment := [⟨"POD_NAMESPACE", .field "metadata.namespace"⟩]
  securityContext? := some {
    allowPrivilegeEscalation := false
    droppedCapabilities := ["ALL"]
    readOnlyRootFilesystem? := some true
    runAsNonRoot? := some true
    runAsUser := 65532
    seccompProfile? := some "RuntimeDefault" }

/-- A certificate job; it runs under the account of the admission jobs. -/
def certificateJob (owner : Owner) (name : String) (container : Container) : Blueprint .job where
  metadata := owner.objectMeta name (some (Names.scope owner.name)) admissionLabels
  plan := {
    name? := some name
    labels := admissionLabels
    spec := {
      containers := [container]
      nodeSelector? := some linuxNodes
      restartPolicy? := some "OnFailure"
      serviceAccountName? := some Account.admission.name } }

/-- The command line of the job that makes the certificate: the names the webhook is called by, and
the secret that takes the certificate. -/
def createArgs : List String :=
  ["create",
    "--host=" ++ Names.controllerAdmission ++ "," ++ Names.controllerAdmission ++
      ".$(POD_NAMESPACE).svc",
    "--namespace=$(POD_NAMESPACE)",
    "--secret-name=" ++ certificateSecret]

/-- The command line of the job that puts the certificate into the webhook. -/
def patchArgs : List String :=
  ["patch",
    "--webhook-name=" ++ Names.admission,
    "--namespace=$(POD_NAMESPACE)",
    "--patch-mutating=false",
    "--secret-name=" ++ certificateSecret,
    "--patch-failure-policy=Fail"]

/-- The job that makes the certificate. -/
def admissionCreateJob (owner : Owner) : Blueprint .job :=
  certificateJob owner Names.admissionCreateJob (certificateContainer "create" createArgs)

/-- The job that puts the certificate into the webhook. -/
def admissionPatchJob (owner : Owner) : Blueprint .job :=
  certificateJob owner Names.admissionPatchJob (certificateContainer "patch" patchArgs)

/-! ## Webhook -/

/-- The webhook that sends new and changed ingresses to the controller of the scope. -/
def webhook (owner : Owner) : Webhook where
  name := "validate.nginx.ingress.kubernetes.io"
  serviceName := Names.controllerAdmission
  serviceNamespace := Names.scope owner.name
  path := "/networking/v1/ingresses"
  failurePolicy := "Fail"
  matchPolicy := "Equivalent"
  operations := ["CREATE", "UPDATE"]
  apiGroups := [Kind.ingress.group]
  apiVersions := ["v1"]
  resources := [Kind.ingress.plural]
  sideEffects := "None"
  reviewVersions := ["v1"]

/-- The object that announces the webhook to the API server. -/
def admissionWebhook (owner : Owner) : Blueprint .webhookConfiguration where
  metadata := owner.objectMeta (Names.admissionWebhook (Names.scope owner.name)) none
    admissionLabels
  plan := [webhook owner]

end Stack

end EdgeOperator
