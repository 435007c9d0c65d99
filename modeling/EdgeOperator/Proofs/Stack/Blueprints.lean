import EdgeOperator.Proofs.Cluster.Amid
import EdgeOperator.Proofs.ObjectKey
import EdgeOperator.Proofs.Ownership.Install

set_option autoImplicit false

/-! # Keys and blueprints

Where an object is looked for, what is created there, and to whom it belongs are told by three
separate tables. They agree: what is created for an owner lies under the key that was looked up, and
its labels and owners lead back to the owner and to no one else (`keys_agree`).

For the routing ingress this takes an anchor that lives in the namespace it was found for. A list
goes by paths, so a namespace whose name has a slash may be given an anchor of another one, and so
may any namespace once another writer has moved an anchor (`anchors_found_elsewhere`). -/

namespace EdgeOperator

open Program Cluster

/-! ## Belonging -/

/-- Whether an object refers to an owner as its controller, and to no other. -/
structure Owner.Governs (owner : Owner) (m : Metadata) : Prop where
  controls : owner.controls m = true
  others : ∀ other : Owner, other.reference.uid ≠ owner.reference.uid → other.controls m = false

namespace Owner

variable {kind : Kind} {r : Resource kind} {owner : Owner} {name : String}
  {namespaceName? : Option String} {labels : StringMap String}

theorem governs_objectMeta (h : ofResource r = .ok owner) :
    owner.Governs (owner.objectMeta name namespaceName? labels) := by
  obtain ⟨_, _, uid, _, _, _, rfl⟩ := ofResource_eq_ok.1 h
  constructor
  · simp [controls, objectMeta, Metadata.ownerReferences]
  · intro other hne
    simpa [controls, objectMeta, Metadata.ownerReferences] using Ne.symm hne

/-- Only what belongs to an anchor leads back to one, and it leads to its own. -/
theorem owningAnchor?_objectMeta (h : ofResource r = .ok owner) :
    (owner.objectMeta name namespaceName? labels).owningAnchor? =
      if kind = .anchor then some (.inNamespace owner.namespaceName owner.name) else none := by
  obtain ⟨own, scope, uid, _, _, _, rfl⟩ := ofResource_eq_ok.1 h
  have hlabel : (objectMeta ⟨own, scope, ⟨kind.apiVersion, none, some true, kind.name, own, uid⟩⟩
      name namespaceName? labels).labels.get? Labels.ownerNamespace = some scope := by
    simp [objectMeta, Metadata.labels, StringMap.get?_set]
  have hname : (kind.name == Kind.anchor.name) = decide (kind = .anchor) := by
    cases kind with
    | plain plain => cases plain <;> decide
    | _ => decide
  have howner : (objectMeta ⟨own, scope, ⟨kind.apiVersion, none, some true, kind.name, own, uid⟩⟩
      name namespaceName? labels).ownerReferences =
      [⟨kind.apiVersion, none, some true, kind.name, own, uid⟩] := rfl
  simp only [Metadata.owningAnchor?, hlabel, howner, List.find?_cons, List.find?_nil, hname,
    BEq.rfl, Bool.true_and]
  split <;> simp_all

end Owner

/-! ## Stacks -/

namespace Component

variable {owner : Owner}

/-- What is written for a component has the metadata of the owner, with the name and the namespace
of the key. -/
theorem exists_metadata_blueprint (component : Component) (owner : Owner) :
    ∃ labels, (component.blueprint owner).metadata =
      owner.objectMeta (component.key owner).name (component.key owner).namespaceName? labels := by
  cases component <;> exact ⟨_, rfl⟩

/-- The calls for a component are of two forms. -/
theorem ensure_asks (component : Component) (owner : Owner) :
    (component.ensure owner).OnlyAsks fun request =>
      request = .get (.plain component.kind) (component.key owner) ∨
        request = .create (.plain component.kind) (component.blueprint owner).toResource :=
  (ensure_onlyAsks (Or.inl rfl) (Or.inr rfl)).bind fun _ => .done _

/-- Whether a component is looked for where it is created, in a namespace if its kind has them, and
belongs to its owner. -/
structure Agrees (component : Component) (owner : Owner) : Prop where
  asks : (component.ensure owner).OnlyAsks fun request =>
    request = .get (.plain component.kind) (component.key owner) ∨
      request = .create (.plain component.kind) (component.blueprint owner).toResource
  key_eq : (component.blueprint owner).toResource.key = component.key owner
  clusterScoped_iff : (component.key owner).namespaceName? = none ↔
    component.kind.isClusterScoped = true
  governed : owner.Governs (component.blueprint owner).toResource.metadata
  owningAnchor?_eq : (component.blueprint owner).toResource.metadata.owningAnchor? =
    some (.inNamespace owner.namespaceName owner.name)

theorem agrees (component : Component) {anchor : Resource .anchor}
    (h : Owner.ofResource anchor = .ok owner) : component.Agrees owner := by
  obtain ⟨labels, hmetadata⟩ := component.exists_metadata_blueprint owner
  replace hmetadata : (component.blueprint owner).toResource.metadata = _ := hmetadata
  refine ⟨component.ensure_asks owner, component.key_blueprint owner, ?_, ?_, ?_⟩
  · cases component <;> simp [key, Component.kind, PlainKind.isClusterScoped,
      ObjectKey.clusterWide, ObjectKey.inNamespace]
  · rw [hmetadata]
    exact Owner.governs_objectMeta h
  · rw [hmetadata, Owner.owningAnchor?_objectMeta h, if_pos rfl]

end Component

/-! ## Workloads -/

/-- Whether an object is looked for where it is created, and belongs to an owner that is no
anchor. -/
structure Workload.Agrees (owner : Owner) {kind : PlainKind} (key : ObjectKey)
    (blueprint : Blueprint kind) : Prop where
  asks : (ensure key blueprint.toResource).OnlyAsks fun request =>
    request = .get (.plain kind) key ∨ request = .create (.plain kind) blueprint.toResource
  key_eq : blueprint.toResource.key = key
  governed : owner.Governs blueprint.toResource.metadata
  owningAnchor?_eq : blueprint.toResource.metadata.owningAnchor? = none

theorem Workload.agrees {owner : Owner} {frontend : Resource .frontend}
    (h : Owner.ofResource frontend = .ok owner) {kind : PlainKind} {key : ObjectKey}
    {blueprint : Blueprint kind}
    (hmetadata : ∃ labels, blueprint.toResource.metadata =
      owner.objectMeta key.name key.namespaceName? labels) :
    Agrees owner key blueprint := by
  obtain ⟨labels, hmetadata⟩ := hmetadata
  refine ⟨ensure_onlyAsks (Or.inl rfl) (Or.inr rfl), ?_, ?_, ?_⟩
  · rw [Resource.key, hmetadata]
    rfl
  · rw [hmetadata]
    exact Owner.governs_objectMeta h
  · rw [hmetadata, Owner.owningAnchor?_objectMeta h, if_neg (by decide)]

/-! ## The routing ingress -/

/-- Whether the ingress that is created for an owner is the one that is looked for in a namespace,
and the first one to go with the owner. -/
structure RoutingAgrees (scope : String) (owner : Owner) (first : IngressPath) : Prop where
  looks : ∀ frontend spec attempts, frontend.namespaceName = scope →
    (ensureRoute frontend spec attempts).OnlyAsks fun request => ∀ kind key,
      request = .get kind key → kind = .ingress ∧ key = (routingIngress owner first).key
  step : owner.anchorTeardown.head? = some ⟨.ingress, (routingIngress owner first).key⟩

theorem key_routingIngress (owner : Owner) (first : IngressPath) :
    (routingIngress owner first).key = routingKey owner.namespaceName := rfl

theorem routingAgrees_of_namespaceName {scope : String} {owner : Owner}
    (h : owner.namespaceName = scope) (first : IngressPath) : RoutingAgrees scope owner first where
  looks := by
    rintro frontend spec attempts hscope
    refine retryRoute_onlyAsks ⟨?_, ?_, ?_, ?_⟩ spec attempts attempts
    · rintro kind key heq
      obtain ⟨rfl, rfl⟩ := Request.get.inj heq
      exact ⟨rfl, by rw [key_routingIngress, h, hscope]⟩
    all_goals simp
  step := rfl

/-- It is the one for the namespaces of their own anchors only. -/
theorem RoutingAgrees.namespaceName_eq {scope : String} {owner : Owner} {first : IngressPath}
    (h : RoutingAgrees scope owner first) : owner.namespaceName = scope := by
  let frontend : Owner := { owner with namespaceName := scope }
  have hlooks := h.looks frontend { imageName := "", port := 0 } 1 rfl
  cases hlooks with
  | call hrequest hnext =>
    have hkey := (hrequest _ _ rfl).2
    rw [key_routingIngress] at hkey
    exact (Option.some.inj (congrArg ObjectKey.namespaceName? hkey)).symm

/-- The anchor that is found for a namespace lives there. -/
theorem namespaceName?_of_found {cluster : Cluster} (h : cluster.Sound)
    {script : Nat → Arrangement} {scope : String} (hscope : '/' ∉ scope.toList)
    {anchor : Resource .anchor}
    (hfound : ((findAnchor scope).run (serveAmid script) cluster).1 = .ok anchor) :
    anchor.metadata.namespaceName? = some scope := by
  unfold findAnchor Program.list at hfound
  rw [run_perform_bind] at hfound
  obtain ⟨_, hlist⟩ := serveAmid_list script .anchor (some scope) cluster
  split at hfound
  · next anchors hanswer =>
    obtain rfl := hlist anchors hanswer
    cases hfirst : Anchor.first? (cluster.listed .anchor (some scope)) with
    | none =>
      rw [hfirst] at hfound
      cases hfound
    | some first =>
      rw [hfirst] at hfound
      obtain rfl : first = anchor := Except.ok.inj hfound
      exact namespaceName?_of_mem_listed h hscope rfl (Anchor.mem_of_first? hfirst).1
  · cases hfound

/-- What is created under a name in a namespace. -/
def named (kind : Kind) (content : Content kind) (scope name : String) : Resource kind where
  metadata := { name? := some name, namespaceName? := some scope, uid? := some ("uid-" ++ name) }
  content := content

/-- The owner that such an object is. -/
def ownerOf (kind : Kind) (scope name : String) : Owner :=
  ⟨name, scope, ⟨kind.apiVersion, none, some true, kind.name, name, "uid-" ++ name⟩⟩

/-- A cluster with nothing in it. -/
def emptyCluster : Cluster :=
  { now := ⟨2024, 5, 17, 8, 0, 0, 0⟩ }

/-- The cluster in which an anchor was created. -/
def clusterOf (scope name : String) : Cluster :=
  (emptyCluster.create (named .anchor {} scope name)).2

theorem clusterOf_reachable (scope name : String) : (clusterOf scope name).Reachable :=
  (Reachable.empty _).seed _

/-- Key, kind, blueprint, ownership and the way back agree for every component of an anchor's stack
and for the workload of a frontend, and so they do for the routing ingress of a namespace without a
slash. -/
theorem keys_agree :
    (∀ (anchor : Resource .anchor) (owner : Owner), Owner.ofResource anchor = .ok owner →
      ∀ component : Component, component.Agrees owner) ∧
    (∀ (frontend : Resource .frontend) (owner : Owner), Owner.ofResource frontend = .ok owner →
      ∀ spec : FrontendSpec,
        Workload.Agrees owner (Workload.serviceKey owner) (Workload.service owner spec) ∧
        Workload.Agrees owner (Workload.deploymentKey owner) (Workload.deployment owner spec)) ∧
    ∀ (cluster : Cluster) (script : Nat → Arrangement) (scope : String) (anchor : Resource .anchor)
      (owner : Owner), cluster.Reachable → '/' ∉ scope.toList →
      ((findAnchor scope).run (serveAmid script) cluster).1 = .ok anchor →
      Owner.ofResource anchor = .ok owner → ∀ first, RoutingAgrees scope owner first := by
  refine ⟨fun anchor owner howner component => component.agrees howner,
    fun frontend owner howner spec => ⟨Workload.agrees howner ⟨_, rfl⟩,
      Workload.agrees howner ⟨_, rfl⟩⟩, ?_⟩
  intro cluster script scope anchor owner hreachable hscope hfound howner first
  have hlives := namespaceName?_of_found hreachable.sound hscope hfound
  have hsame := (Owner.namespaceName?_of_ofResource howner).symm.trans hlives
  exact routingAgrees_of_namespaceName (Option.some.inj hsame) first

/-- They agree where a namespace has one anchor, for it and for a frontend there. -/
theorem team_keys_agree :
    Component.ingressClass.Agrees (ownerOf .anchor "team" "gate") ∧
    Workload.Agrees (ownerOf .frontend "team" "shop")
      (Workload.serviceKey (ownerOf .frontend "team" "shop"))
      (Workload.service (ownerOf .frontend "team" "shop") { imageName := "shop:1", port := 80 }) ∧
    RoutingAgrees "team" (ownerOf .anchor "team" "gate") (.route "/shop" {}) :=
  ⟨keys_agree.1 (named .anchor {} "team" "gate") _ rfl .ingressClass,
    (keys_agree.2.1
      (named .frontend { spec := { imageName := "shop:1", port := 80 } } "team" "shop") _ rfl _).1,
    keys_agree.2.2 (clusterOf "team" "gate") (fun _ => ⟨[], emptyCluster.now⟩) "team"
      (emptyCluster.created (named .anchor {} "team" "gate")) _ (clusterOf_reachable "team" "gate")
      (by decide) rfl rfl _⟩

/-! ## Anchors that are found where they do not live -/

/-- Moves an object into another namespace. -/
def moveEdit : Edit := fun _ object =>
  { object with metadata := { object.metadata with namespaceName? := some "yard" } }

/-- The cluster after another writer has moved the anchor, right before it was rewritten. -/
def movedCluster : Cluster :=
  let anchor := emptyCluster.created (named .anchor {} "team" "gate")
  (serve (.replace .anchor anchor) ((clusterOf "team" "gate").beforeReplace anchor.path moveEdit)).2

/-- What the search for an anchor comes to where no call fails. -/
def foundOwner (cluster : Cluster) (scope : String) : Except OperatorError Owner :=
  ((findAnchor scope).run (serveAmid fun _ => ⟨[], cluster.now⟩) cluster).1.bind Owner.ofResource

/-- A namespace whose name has a slash is given an anchor of another one, and so is a namespace
whose anchor was moved. The ingress that is then created is not the one that was looked for. -/
theorem anchors_found_elsewhere :
    (foundOwner (clusterOf "team" "sandopsingresses/gate") "team/sandopsingresses" =
        .ok (ownerOf .anchor "team" "sandopsingresses/gate") ∧
      ∀ first, ¬ RoutingAgrees "team/sandopsingresses"
        (ownerOf .anchor "team" "sandopsingresses/gate") first) ∧
    foundOwner movedCluster "team" = .ok (ownerOf .anchor "yard" "gate") ∧
      ∀ first, ¬ RoutingAgrees "team" (ownerOf .anchor "yard" "gate") first := by
  refine ⟨⟨rfl, fun first h => ?_⟩, rfl, fun first h => ?_⟩
  · exact absurd h.namespaceName_eq (by decide)
  · exact absurd h.namespaceName_eq (by decide)

end EdgeOperator
