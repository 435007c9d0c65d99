import EdgeOperator.Blueprint.Pod
import EdgeOperator.Resource

set_option autoImplicit false

/-! # Blueprints

What the operator itself writes into objects of the plain kinds, as typed data. A blueprint is such
a content with the metadata of the object, and becomes an object of the cluster by being written
down as JSON. -/

namespace EdgeOperator

/-! ## Contents -/

/-- A port of a service and the port of the pods it leads to. -/
structure ServicePort where
  port : Int32
  targetPort : PortReference
  protocol : String
  name? : Option String := none
  appProtocol? : Option String := none
deriving DecidableEq, Repr

/-- A service: the pods it stands for and the ports it offers. -/
structure ServiceSpec where
  type : String
  selector : StringMap String
  ports : List ServicePort
  ipFamilies? : Option (List String) := none
  ipFamilyPolicy? : Option String := none
deriving DecidableEq, Repr

/-- A deployment: the pods it keeps running. -/
structure DeploymentSpec where
  selector : StringMap String
  template : PodTemplate
  replicas? : Option Int32 := none
  minReadySeconds? : Option Int32 := none
  revisionHistoryLimit? : Option Int32 := none
deriving DecidableEq, Repr

/-- What a role allows on the resources of a group of the API. -/
structure PolicyRule where
  apiGroup : String
  resources : List String
  verbs : List String
  resourceNames? : Option (List String) := none
deriving DecidableEq, Repr

/-- A role, and the service account that has it. -/
structure Binding where
  roleGroup : String
  roleKind : String
  roleName : String
  accountName : String
  accountNamespace : String
deriving DecidableEq, Repr

/-- A webhook that is asked before objects are written. -/
structure Webhook where
  name : String
  serviceName : String
  serviceNamespace : String
  path : String
  failurePolicy : String
  matchPolicy : String
  operations : List String
  apiGroups : List String
  apiVersions : List String
  resources : List String
  sideEffects : String
  reviewVersions : List String
deriving DecidableEq, Repr

/-- What the operator writes into an object of a plain kind. -/
@[reducible] def Plan : PlainKind → Type
  | .nameSpace => Unit
  -- whether pods get the token of the account
  | .serviceAccount => Bool
  | .role | .clusterRole => List PolicyRule
  | .roleBinding | .clusterRoleBinding => Binding
  | .configMap => StringMap String
  | .service => ServiceSpec
  | .deployment => DeploymentSpec
  | .job => PodTemplate
  -- the controller of the class
  | .ingressClass => String
  | .webhookConfiguration => List Webhook

/-! ## JSON form -/

/-- A port of a service as an object. -/
def ServicePort.toJson (p : ServicePort) : Json :=
  .ofPresent [
    ("appProtocol", p.appProtocol?.map .str),
    ("name", p.name?.map .str),
    ("port", some (.ofInt32 p.port)),
    ("protocol", some (.str p.protocol)),
    ("targetPort", some p.targetPort.toJson)]

/-- A service as an object. -/
def ServiceSpec.toJson (s : ServiceSpec) : Json :=
  .ofPresent [
    ("ipFamilies", s.ipFamilies?.map Json.ofTextList),
    ("ipFamilyPolicy", s.ipFamilyPolicy?.map .str),
    ("ports", some (.arr (s.ports.map ServicePort.toJson))),
    ("selector", some (Json.ofTexts s.selector)),
    ("type", some (.str s.type))]

/-- A deployment as an object. -/
def DeploymentSpec.toJson (d : DeploymentSpec) : Json :=
  .ofPresent [
    ("minReadySeconds", d.minReadySeconds?.map .ofInt32),
    ("replicas", d.replicas?.map .ofInt32),
    ("revisionHistoryLimit", d.revisionHistoryLimit?.map .ofInt32),
    ("selector", some (.obj [("matchLabels", Json.ofTexts d.selector)])),
    ("template", some d.template.toJson)]

/-- A rule of a role as an object. -/
def PolicyRule.toJson (r : PolicyRule) : Json :=
  .ofPresent [
    ("apiGroups", some (Json.ofTextList [r.apiGroup])),
    ("resourceNames", r.resourceNames?.map Json.ofTextList),
    ("resources", some (Json.ofTextList r.resources)),
    ("verbs", some (Json.ofTextList r.verbs))]

/-- The role of a binding as an object. -/
def Binding.roleJson (b : Binding) : Json :=
  .obj [("apiGroup", .str b.roleGroup), ("kind", .str b.roleKind), ("name", .str b.roleName)]

/-- The account of a binding as an object. -/
def Binding.accountJson (b : Binding) : Json :=
  .obj [
    ("kind", .str PlainKind.serviceAccount.name),
    ("name", .str b.accountName),
    ("namespace", .str b.accountNamespace)]

/-- A webhook as an object. -/
def Webhook.toJson (w : Webhook) : Json :=
  .obj [
    ("admissionReviewVersions", Json.ofTextList w.reviewVersions),
    ("clientConfig", .obj [("service", .obj [
      ("name", .str w.serviceName),
      ("namespace", .str w.serviceNamespace),
      ("path", .str w.path)])]),
    ("failurePolicy", .str w.failurePolicy),
    ("matchPolicy", .str w.matchPolicy),
    ("name", .str w.name),
    ("rules", .arr [.obj [
      ("apiGroups", Json.ofTextList w.apiGroups),
      ("apiVersions", Json.ofTextList w.apiVersions),
      ("operations", Json.ofTextList w.operations),
      ("resources", Json.ofTextList w.resources)]]),
    ("sideEffects", .str w.sideEffects)]

/-- The members of an object of a plain kind that hold what was planned for it. -/
def Plan.members (kind : PlainKind) (plan : Plan kind) : StringMap Json :=
  match kind, plan with
  | .nameSpace, _ => []
  | .serviceAccount, automount => [("automountServiceAccountToken", .bool automount)]
  | .role, rules | .clusterRole, rules => [("rules", .arr (rules.map PolicyRule.toJson))]
  | .roleBinding, binding | .clusterRoleBinding, binding =>
    [("roleRef", binding.roleJson), ("subjects", .arr [binding.accountJson])]
  | .configMap, settings => [("data", Json.ofTexts settings)]
  | .service, spec => [("spec", spec.toJson)]
  | .deployment, spec => [("spec", spec.toJson)]
  | .job, template => [("spec", .obj [("template", template.toJson)])]
  | .ingressClass, controller => [("spec", .obj [("controller", .str controller)])]
  | .webhookConfiguration, webhooks => [("webhooks", .arr (webhooks.map Webhook.toJson))]

/-! ## Blueprints -/

/-- An object of a plain kind as the operator plans it. -/
structure Blueprint (kind : PlainKind) where
  metadata : Metadata
  plan : Plan kind

/-- The object a blueprint describes. -/
def Blueprint.toResource {kind : PlainKind} (b : Blueprint kind) : Resource (.plain kind) :=
  ⟨b.metadata, b.plan.members kind⟩

end EdgeOperator
