import EdgeOperator.Proofs.Stack.Arguments
import EdgeOperator.Proofs.Stack.Blueprints

set_option autoImplicit false

/-! # References between objects

Objects refer to each other by labels, by names and by ports, and each of them is written on its
own. For every owner, what is referred to is what is written for the same owner: for the stack of an
anchor, the references of its workload, its bindings, its webhook and its routing ingress
(`Stack.Resolves`), and for a frontend, those of its workload and its route
(`Workload.Resolves`). -/

namespace EdgeOperator

/-! ## Labels and ports -/

/-- Whether labels meet a selector. -/
def Selects (selector labels : StringMap String) : Prop :=
  ∀ key value, selector.get? key = some value → labels.get? key = some value

theorem Selects.refl (labels : StringMap String) : Selects labels labels :=
  fun _ _ h => h

/-- A label that is not asked for makes no difference. -/
theorem Selects.set {selector labels : StringMap String} (h : Selects selector labels)
    {key : String} (hkey : selector.get? key = none) (value : String) :
    Selects selector (labels.set key value) := by
  intro other wanted hother
  rw [StringMap.get?_set]
  split
  · next heq => simp [← heq, hkey] at hother
  · exact h other wanted hother

theorem selects_ingress (component : String) :
    Selects (Labels.selector component) (Labels.ingress component) :=
  ((Selects.refl _).set rfl _).set rfl _

/-- Whether a port of a container is the one that is meant. -/
def PortReference.Meets (reference : PortReference) (port : ContainerPort) : Prop :=
  match reference with
  | .numbered number => port.port = number
  | .named name => port.name? = some name

namespace Blueprint

/-- Whether a service leads to the pods of a deployment: they live in its namespace and meet its
selector, and one of their containers listens where each of its ports leads. -/
structure Reaches (service : Blueprint .service) (deployment : Blueprint .deployment)
    (container : Container) : Prop where
  namespace_eq : service.metadata.namespaceName? = deployment.metadata.namespaceName?
  selects : Selects service.plan.selector deployment.plan.template.labels
  runs : container ∈ deployment.plan.template.spec.containers
  listens : ∀ port ∈ service.plan.ports, ∃ listening ∈ container.ports?.getD [],
    port.targetPort.Meets listening ∧ listening.protocol?.getD "TCP" = port.protocol

/-- Whether a deployment finds its own pods, and these the volumes they mount. -/
structure IsClosed (deployment : Blueprint .deployment) : Prop where
  selects : Selects deployment.plan.selector deployment.plan.template.labels
  mounts : ∀ container ∈ deployment.plan.template.spec.containers,
    ∀ mount ∈ container.volumeMounts?.getD [],
      ∃ volume ∈ deployment.plan.template.spec.volumes?.getD [], volume.name = mount.name

/-- The account that the pods of a deployment run under. -/
def account? (deployment : Blueprint .deployment) : Option ObjectKey :=
  deployment.plan.template.spec.serviceAccountName?.map fun name =>
    ⟨name, deployment.metadata.namespaceName?⟩

end Blueprint

/-! ## Bindings, webhooks and routes -/

/-- Whether a binding, in a namespace or in none, ties one component to another: the role is the one
of its kind and name there, and the account is known by name and namespace. -/
structure Binding.Ties (binding : Binding) (scope? : Option String) (owner : Owner)
    (granted account : Component) : Prop where
  group_eq : granted.kind.group = binding.roleGroup
  kind_eq : granted.kind.name = binding.roleKind
  role_eq : granted.key owner = ⟨binding.roleName, scope?⟩
  account_kind_eq : account.kind = .serviceAccount
  account_eq : account.key owner = .inNamespace binding.accountNamespace binding.accountName

/-- The port on which a webhook is called: where none is given, that is 443. -/
def Webhook.servicePort (webhook : Webhook) : Int :=
  (((webhook.toJson.member "clientConfig").member "service").member "port").int?.getD 443

/-- Whether a webhook calls a service on a port that the service offers. -/
structure Webhook.Calls (webhook : Webhook) (service : Blueprint .service) : Prop where
  key_eq : service.toResource.key = .inNamespace webhook.serviceNamespace webhook.serviceName
  offered : ∃ port ∈ service.plan.ports, port.port.toInt = webhook.servicePort

/-- Whether a backend of an ingress in a namespace is a port that a service offers. -/
structure Backend.LeadsTo (backend : Backend) (scope : String) (service : Blueprint .service) :
    Prop where
  key_eq : backend.service?.map (fun named => .inNamespace scope named.name) =
    some service.toResource.key
  offered : ∃ port ∈ service.plan.ports,
    backend.service?.bind (·.port?) = some { number? := some port.port }

/-! ## Stacks -/

namespace Stack

/-- The component that is the account itself. -/
def Account.component : Account → Component
  | .controller => .serviceAccount
  | .admission => .admissionServiceAccount

/-- The component that is the role of an account within the scope. -/
def Account.role : Account → Component
  | .controller => .role
  | .admission => .admissionRole

/-- The component that is the role of an account in the whole cluster. -/
def Account.clusterRole : Account → Component
  | .controller => .clusterRole
  | .admission => .admissionClusterRole

/-- Whether the flags of the controller name objects of its own stack: its settings, whatever the
namespace is read for, and its class, as it is written, and as it is read if nothing in the name of
the anchor is taken for a reference. -/
structure FlagsResolve (owner : Owner) (read : String → String) : Prop where
  settings : (controllerContainer owner).values read "configmap" =
    [(Component.configMap.key owner).display]
  className : (controllerContainer owner).values id "ingress-class" =
    [(Component.ingressClass.key owner).name]
  controllerClass : (controllerContainer owner).values id "controller-class" =
    [(ingressClass owner).plan]
  className_read : '$' ∉ owner.name.toList →
    (controllerContainer owner).values read "ingress-class" =
      [(Component.ingressClass.key owner).name]
  controllerClass_read : '$' ∉ owner.name.toList →
    (controllerContainer owner).values read "controller-class" = [(ingressClass owner).plan]

/-- Whether what the objects of a stack refer to are objects of the same stack. -/
structure Resolves (owner : Owner) (read : String → String) : Prop where
  deployment : (controllerDeployment owner).IsClosed
  account : (controllerDeployment owner).account? = some (Component.serviceAccount.key owner)
  traffic : (controllerService owner).Reaches (controllerDeployment owner)
    (controllerContainer owner)
  admission : (admissionService owner).Reaches (controllerDeployment owner)
    (controllerContainer owner)
  flags : FlagsResolve owner read
  roleBinding : ∀ account, (Stack.roleBinding owner account).plan.Ties
    (Stack.roleBinding owner account).metadata.namespaceName? owner account.role account.component
  clusterRoleBinding : ∀ account, (Stack.clusterRoleBinding owner account).plan.Ties
    (Stack.clusterRoleBinding owner account).metadata.namespaceName? owner account.clusterRole
    account.component
  webhook : ∃ webhook, (admissionWebhook owner).plan = [webhook] ∧
    webhook.Calls (admissionService owner)
  routing : ∀ first, (routingIngress owner first).content.spec?.bind (·.ingressClassName?) =
    some (Component.ingressClass.key owner).name

variable {owner : Owner} {scope : String} {value? : String → Option String}
  {read : String → String}

theorem controllerDeployment_isClosed (owner : Owner) : (controllerDeployment owner).IsClosed where
  selects := selects_ingress _
  mounts := by simp [controllerDeployment, controllerContainer]

theorem exists_controllerPort {name : String} (h : name ∈ ["http", "https", "webhook"]) :
    ∃ port, controllerPort name port ∈ (controllerContainer owner).ports?.getD [] := by
  simp only [List.mem_cons, List.not_mem_nil, or_false] at h
  rcases h with rfl | rfl | rfl
  · exact ⟨80, by simp [controllerContainer]⟩
  · exact ⟨443, by simp [controllerContainer]⟩
  · exact ⟨8443, by simp [controllerContainer]⟩

/-- A service of the scope whose ports lead to ports that the controller has reaches it. -/
theorem reaches_controller {service : Blueprint .service} {type : String} {ports : List ServicePort}
    (hscope : service.metadata.namespaceName? = some (Names.scope owner.name))
    (hplan : service.plan = serviceSpec type ports)
    (hports : ∀ port ∈ ports, ∃ name number target protocol,
      port = servicePort name number target protocol ∧ target ∈ ["http", "https", "webhook"]) :
    service.Reaches (controllerDeployment owner) (controllerContainer owner) where
  namespace_eq := hscope
  selects := hplan ▸ selects_ingress _
  runs := List.mem_singleton_self _
  listens := by
    intro port hport
    rw [hplan] at hport
    obtain ⟨_, _, target, _, rfl, htarget⟩ := hports port hport
    obtain ⟨number, hmem⟩ := exists_controllerPort htarget
    exact ⟨_, hmem, rfl, rfl⟩

/-- The settings are in the namespace in which the controller runs. -/
theorem settings_value
    (h : (controllerContainer owner).Starts (Names.scope owner.name) value? read) :
    read ("$(POD_NAMESPACE)/" ++ Names.controller) = (Component.configMap.key owner).display := by
  have hsplit : "$(POD_NAMESPACE)/" ++ Names.controller =
      "$(" ++ "POD_NAMESPACE" ++ ")" ++ ("/" ++ Names.controller) := rfl
  rw [hsplit, h.read_reference _ _ _ (by decide) (h.namespace_eq _ rfl), h.read_eq (by decide)]
  exact (String.append_assoc ..).symm

theorem flagsResolve (h : (controllerContainer owner).Starts (Names.scope owner.name) value? read) :
    FlagsResolve owner read := by
  have hwritten {flag : String} (hflag : '=' ∉ flag.toList) :=
    @values_controllerContainer owner id rfl (fun _ _ _ => rfl) flag hflag
  have hread {flag : String} (hflag : '=' ∉ flag.toList) :=
    values_controllerContainer owner (h.read_eq (by decide))
      (fun _ value hplain => h.read_flagArgument hplain value) hflag
  have hplain {front : String} (hfront : '$' ∉ front.toList) (howner : '$' ∉ owner.name.toList) :
      read (front ++ Names.scope owner.name) = front ++ Names.scope owner.name := by
    refine h.read_eq ?_
    simp only [Names.scope, String.toList_append, List.mem_append, not_or]
    exact ⟨hfront, howner, by decide⟩
  constructor
  · rw [hread (by decide)]
    exact congrArg (fun text => [text]) (settings_value h)
  · exact hwritten (by decide)
  · exact hwritten (by decide)
  · intro howner
    rw [hread (by decide)]
    exact congrArg (fun text => [text]) (hplain (by decide) howner)
  · intro howner
    rw [hread (by decide)]
    exact congrArg (fun text => [text]) (hplain (by decide) howner)

theorem roleBinding_ties (owner : Owner) (account : Account) :
    (Stack.roleBinding owner account).plan.Ties
      (Stack.roleBinding owner account).metadata.namespaceName? owner account.role
      account.component := by
  cases account <;> exact ⟨rfl, rfl, rfl, rfl, rfl⟩

theorem clusterRoleBinding_ties (owner : Owner) (account : Account) :
    (Stack.clusterRoleBinding owner account).plan.Ties
      (Stack.clusterRoleBinding owner account).metadata.namespaceName? owner account.clusterRole
      account.component := by
  cases account <;> exact ⟨rfl, rfl, rfl, rfl, rfl⟩

theorem webhook_calls (owner : Owner) : (webhook owner).Calls (admissionService owner) where
  key_eq := rfl
  offered := ⟨_, List.mem_singleton_self _, rfl⟩

theorem resolves (h : (controllerContainer owner).Starts (Names.scope owner.name) value? read) :
    Resolves owner read where
  deployment := controllerDeployment_isClosed owner
  account := rfl
  traffic := by
    refine reaches_controller rfl rfl fun port hport => ?_
    rcases List.mem_pair.1 hport with rfl | rfl
    · exact ⟨_, _, _, _, rfl, by simp⟩
    · exact ⟨_, _, _, _, rfl, by simp⟩
  admission := by
    refine reaches_controller rfl rfl fun port hport => ?_
    obtain rfl := List.mem_singleton.1 hport
    exact ⟨_, _, _, _, rfl, by simp⟩
  flags := flagsResolve h
  roleBinding := roleBinding_ties owner
  clusterRoleBinding := clusterRoleBinding_ties owner
  webhook := ⟨_, rfl, webhook_calls owner⟩
  routing _ := rfl

end Stack

/-! ## Frontends -/

/-- Whether what the workload of a frontend and its route refer to is the workload of the same
frontend. -/
structure Workload.Resolves (owner : Owner) (spec : FrontendSpec) : Prop where
  deployment : (Workload.deployment owner spec).IsClosed
  selector_eq : (service owner spec).plan.selector = (Workload.deployment owner spec).plan.selector
  labels_eq : (service owner spec).plan.selector =
    (Workload.deployment owner spec).plan.template.labels
  reaches : (service owner spec).Reaches (Workload.deployment owner spec) (container spec)
  targets : (service owner spec).plan.ports.map (·.targetPort) =
    ((container spec).ports?.getD []).map fun port => .numbered port.port
  route : (spec.route owner).backend.LeadsTo owner.namespaceName (service owner spec)

theorem Workload.resolves (owner : Owner) (spec : FrontendSpec) : Resolves owner spec where
  deployment := ⟨Selects.refl _, by simp [deployment, container]⟩
  selector_eq := rfl
  labels_eq := rfl
  reaches := by
    refine ⟨rfl, Selects.refl _, List.mem_singleton_self _, fun port hport => ?_⟩
    obtain rfl := List.mem_singleton.1 hport
    exact ⟨_, List.mem_singleton_self _, rfl, rfl⟩
  targets := rfl
  route := ⟨rfl, _, List.mem_singleton_self _, rfl⟩

/-- The references between the objects of a stack resolve, in whatever way the API starts its
controller in the namespace of the deployment, and so do those between the objects of a frontend. -/
theorem references_resolve :
    (∀ (owner : Owner) (scope : String) (value? : String → Option String)
      (read : String → String),
      (Stack.controllerDeployment owner).metadata.namespaceName? = some scope →
      (Stack.controllerContainer owner).Starts scope value? read → Stack.Resolves owner read) ∧
    ∀ (owner : Owner) (spec : FrontendSpec), Workload.Resolves owner spec := by
  refine ⟨fun owner scope value? read hscope hstarts => ?_, Workload.resolves⟩
  obtain rfl : Names.scope owner.name = scope := Option.some.inj hscope
  exact Stack.resolves hstarts

/-- They do so where references to variables are expanded. -/
theorem team_references_resolve :
    Stack.Resolves (ownerOf .anchor "team" "gate")
      (expand ((Stack.controllerContainer (ownerOf .anchor "team" "gate")).valueIn "gate-0"
        "gate-ns")) ∧
    Workload.Resolves (ownerOf .frontend "team" "shop") { imageName := "shop:1", port := 80 } :=
  ⟨references_resolve.1 _ "gate-ns" _ _ rfl (Container.starts_expand _ "gate-0" "gate-ns"),
    references_resolve.2 _ _⟩

end EdgeOperator
