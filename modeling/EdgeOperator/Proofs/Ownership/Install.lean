import EdgeOperator.Proofs.Ownership.Pass
import EdgeOperator.Proofs.Route.Upkeep

set_option autoImplicit false

/-! # Installations keep objects tended

Everything that an installation creates, the routing ingress aside, refers to the owner as its
controller and lies under a key of the owner's teardown plan (`Request.Plants`). So it has a tender
from the start: the resource that the pass has marked before. The routing ingress is written for an
anchor by the pass of a frontend; such calls (`Request.Routes`) touch no other kind. -/

namespace EdgeOperator

open Program

/-! ## The calls of an installation -/

/-- The calls that put an object in place which a plan names, for the owner that controls it. -/
inductive Request.Plants (owner : Owner) (plan : List TeardownStep) : Request → Prop where
  | look (kind : Kind) (key : ObjectKey) : Plants owner plan (.get kind key)
  | create {kind : PlainKind} {object : Resource (.plain kind)} {key : ObjectKey}
      (howned : object.metadata.ownerReferences = [owner.reference])
      (hpath : object.path = key.path (.plain kind)) (hstep : ⟨.plain kind, key⟩ ∈ plan) :
      Plants owner plan (.create (.plain kind) object)

/-- The calls that put a route in place. -/
inductive Request.Routes : Request → Prop where
  | look (kind : Kind) (key : ObjectKey) : Routes (.get kind key)
  | list (kind : Kind) (namespaceName? : Option String) : Routes (.list kind namespaceName?)
  | create (object : Resource .ingress) : Routes (.create .ingress object)
  | replace (object : Resource .ingress) : Routes (.replace .ingress object)

section Ensure

variable {kind : Kind} {sort : Request → Prop} {key : ObjectKey} {planned : Resource kind}

theorem ensure_onlyAsks (hlook : sort (.get kind key)) (hcreate : sort (.create kind planned)) :
    (ensure key planned).OnlyAsks sort := by
  have hget : (Program.get kind key).OnlyAsks sort := .perform hlook
  refine hget.bind fun found => ?_
  cases found with
  | some object => exact .done _
  | none =>
    refine (OnlyAsks.attempt hcreate).bind fun answer => ?_
    cases answer with
    | ok object => exact .done _
    | error e =>
      dsimp only
      split
      · refine hget.bind fun found => ?_
        cases found <;> exact .done _
      · exact .done _

end Ensure

/-! ## The stack of an anchor -/

namespace Component

theorem mem_creationOrder (component : Component) : component ∈ creationOrder := by
  cases component <;> decide

/-- A component is written under its own key. -/
theorem key_blueprint (component : Component) (owner : Owner) :
    (component.blueprint owner).toResource.key = component.key owner := by
  cases component <;> rfl

theorem ownerReferences_blueprint (component : Component) (owner : Owner) :
    (component.blueprint owner).toResource.metadata.ownerReferences = [owner.reference] := by
  cases component <;> rfl

theorem plants_create (component : Component) (owner : Owner) :
    Request.Plants owner owner.anchorTeardown
      (.create (.plain component.kind) (component.blueprint owner).toResource) := by
  refine .create (component.ownerReferences_blueprint owner)
    (congrArg (ObjectKey.path · (.plain component.kind)) (component.key_blueprint owner)) ?_
  exact List.mem_cons_of_mem _ (List.mem_map.2
    ⟨component, List.mem_reverse.2 component.mem_creationOrder, rfl⟩)

end Component

theorem ensureComponents_plants (owner : Owner) (components : List Component) :
    (ensureComponents owner components).OnlyAsks (Request.Plants owner owner.anchorTeardown) := by
  induction components with
  | nil => exact .done _
  | cons component rest ih =>
    have hensure : (component.ensure owner).OnlyAsks
        (Request.Plants owner owner.anchorTeardown) :=
      (ensure_onlyAsks (.look _ _) (component.plants_create owner)).bind fun _ => .done _
    exact hensure.bind fun _ => ih

/-! ## The workload of a frontend -/

namespace Workload

variable (owner : Owner) (spec : FrontendSpec)

theorem plants_service : Request.Plants owner owner.frontendTeardown
    (.create (.plain .service) (service owner spec).toResource) :=
  .create rfl rfl (List.mem_cons_of_mem _ (List.mem_singleton_self _))

theorem plants_deployment : Request.Plants owner owner.frontendTeardown
    (.create (.plain .deployment) (deployment owner spec).toResource) :=
  .create rfl rfl (List.mem_cons_self ..)

end Workload

theorem ensureService_plants (owner : Owner) (spec : FrontendSpec) :
    (ensure (Workload.serviceKey owner) (Workload.service owner spec).toResource).OnlyAsks
      (Request.Plants owner owner.frontendTeardown) :=
  ensure_onlyAsks (.look _ _) (Workload.plants_service owner spec)

theorem ensureDeployment_plants (owner : Owner) (spec : FrontendSpec) :
    (ensure (Workload.deploymentKey owner) (Workload.deployment owner spec).toResource).OnlyAsks
      (Request.Plants owner owner.frontendTeardown) :=
  ensure_onlyAsks (.look _ _) (Workload.plants_deployment owner spec)

/-! ## The route of a frontend -/

theorem RouteAttempt.ofWrite_onlyAsks {sort : Request → Prop} (outcome : Outcome)
    (answer : Except OperatorError (Resource .ingress)) :
    (ofWrite outcome answer).OnlyAsks sort := by
  cases answer with
  | ok stored => exact .done _
  | error e => rcases ofWrite_error outcome e with heq | heq <;> rw [heq] <;> exact .done _

/-- Whether the calls that put a route of a namespace in place are all of one sort. -/
structure Request.CoversRoutes (sort : Request → Prop) (scope : String) : Prop where
  get : sort (.get .ingress (routingKey scope))
  list : sort (.list .anchor (some scope))
  create : ∀ object, sort (.create .ingress object)
  replace : ∀ object, sort (.replace .ingress object)

section Routes

variable {sort : Request → Prop} {frontend : Owner}

theorem createRouting_onlyAsks (h : Request.CoversRoutes sort frontend.namespaceName)
    (spec : FrontendSpec) : (createRouting frontend spec).OnlyAsks sort := by
  have hfind : (findAnchor frontend.namespaceName).OnlyAsks sort := by
    refine (OnlyAsks.perform h.list).bind fun anchors => ?_
    cases Anchor.first? anchors <;> exact .done _
  refine hfind.bind fun anchor => ?_
  cases Owner.ofResource anchor with
  | error e => exact .done _
  | ok owner =>
    exact (OnlyAsks.attempt (h.create _)).bind fun answer => RouteAttempt.ofWrite_onlyAsks _ answer

theorem updateRouting_onlyAsks (h : Request.CoversRoutes sort frontend.namespaceName)
    (spec : FrontendSpec) (ingress : Resource .ingress) :
    (updateRouting frontend spec ingress).OnlyAsks sort := by
  unfold updateRouting
  dsimp only
  split
  · exact (OnlyAsks.attempt (h.replace _)).bind fun answer =>
      RouteAttempt.ofWrite_onlyAsks _ answer
  · exact .done _

theorem attemptRoute_onlyAsks (h : Request.CoversRoutes sort frontend.namespaceName)
    (spec : FrontendSpec) : (attemptRoute frontend spec).OnlyAsks sort := by
  refine (OnlyAsks.perform h.get).bind fun found => ?_
  cases found with
  | none => exact createRouting_onlyAsks h spec
  | some ingress => exact updateRouting_onlyAsks h spec ingress

theorem retryRoute_onlyAsks (h : Request.CoversRoutes sort frontend.namespaceName)
    (spec : FrontendSpec) (total left : Nat) :
    (retryRoute frontend spec total left).OnlyAsks sort := by
  induction left with
  | zero => exact .done _
  | succ left ih =>
    refine (attemptRoute_onlyAsks h spec).bind fun attempt => ?_
    cases attempt with
    | settled outcome => exact .done _
    | overtaken => exact ih

end Routes

theorem retryRoute_routes (frontend : Owner) (spec : FrontendSpec) (total left : Nat) :
    (retryRoute frontend spec total left).OnlyAsks Request.Routes :=
  retryRoute_onlyAsks ⟨.look _ _, .list _ _, .create, .replace⟩ spec total left

theorem Duty.frontend_install_onlyAsks (attempts : Nat) (owner : Owner)
    (read : Resource .frontend) :
    ((frontend attempts).install owner read).OnlyAsks fun request =>
      request.Plants owner owner.frontendTeardown ∨ request.Routes := by
  let spec : FrontendSpec := FrontendContent.spec read.content
  refine OnlyAsks.bind ((ensureService_plants owner spec).mono fun _ => Or.inl) fun _ => ?_
  refine OnlyAsks.bind ((ensureDeployment_plants owner spec).mono fun _ => Or.inl) fun _ => ?_
  refine OnlyAsks.bind ?_ fun _ => .done _
  exact (retryRoute_routes owner spec attempts attempts).mono fun _ => Or.inr

/-! ## What an installation keeps -/

namespace Cluster

variable {kind dependent : Kind} {duty : Duty kind} {owner : Owner} {cluster : Cluster}
  {request : Request}

/-- Whether the owner of an installation tends, and a kind is tended. -/
structure IsInstalling (cluster : Cluster) (duty : Duty kind) (owner : Owner)
    (dependent : Kind) : Prop where
  calm : cluster.IsCalm
  tending : cluster.IsTending duty owner
  tended : cluster.IsTended dependent

/-- What is planted has the owner as its tender. -/
theorem IsInstalling.plant (h : cluster.IsInstalling duty owner dependent)
    (hduty : duty.IsOperators) (hplants : request.Plants owner (duty.teardownPlan owner)) :
    (Cluster.serve request cluster).2.IsInstalling duty owner dependent := by
  cases hplants with
  | look other key =>
    have hspared := h.calm.spared_get other key
    exact ⟨hspared.calm, h.tending.of_keepsMarked hduty hspared.marked,
      h.tended.of_spared hspared⟩
  | @create plain object key howned hpath hstep =>
    -- a creation takes no mark off, so the owner still tends, and the new object is in its plan
    have hkeeps := h.calm.keepsMarked
      (show Request.SparesMarks cluster (.create (.plain plain) object) from trivial)
    refine ⟨h.calm.serve _, h.tending.of_keepsMarked hduty hkeeps, ?_⟩
    by_cases hkind : Kind.plain plain = dependent
    · subst hkind
      refine h.tended.create h.calm fun reference href _ => ?_
      rw [howned] at href
      obtain rfl := List.mem_singleton.1 href
      exact ⟨kind, duty, hduty, owner, h.tending, rfl, _, hstep, rfl, hpath.symm⟩
    · exact h.tended.of_frames hkeeps (h.calm.bringsNo hkind)

/-- To put a route in place touches no object of a plain kind and no mark. -/
theorem IsInstalling.route {plain : PlainKind}
    (h : cluster.IsInstalling duty owner (.plain plain)) (hduty : duty.IsOperators)
    (hroutes : request.Routes) :
    (Cluster.serve request cluster).2.IsInstalling duty owner (.plain plain) := by
  have hspares : request.SparesMarks cluster := by
    cases hroutes with
    -- the operator has no duty to ingresses
    | replace object => exact fun _ _ other hother => nomatch hother
    | _ => trivial
  have hbrings : request.BringsNo (.plain plain) cluster := by
    cases hroutes with
    | create object => exact Kind.noConfusion
    | replace object => exact Kind.noConfusion
    | _ => trivial
  have hkeeps := h.calm.keepsMarked hspares
  exact ⟨h.calm.serve _, h.tending.of_keepsMarked hduty hkeeps,
    h.tended.of_frames hkeeps (h.calm.bringsNo hbrings)⟩

end Cluster

namespace Duty

/-- The stack of an anchor is tended from the start. -/
theorem anchor_installsTended (dependent : Kind) : anchor.InstallsTended dependent := by
  intro owner read cluster hcalm htending htended
  have hplants := ensureComponents_plants owner Component.creationOrder
  have hkept := hplants.run_keeps
    (fun after : Cluster => after.IsInstalling anchor owner dependent)
    (fun _ _ hrequest hafter => hafter.plant .anchor hrequest) ⟨hcalm, htending, htended⟩
  exact ⟨hkept.calm, hkept.tended⟩

/-- So is the workload of a frontend. -/
theorem frontend_installsTended (attempts : Nat) (plain : PlainKind) :
    (frontend attempts).InstallsTended (.plain plain) := by
  intro owner read cluster hcalm htending htended
  have hkept := (frontend_install_onlyAsks attempts owner read).run_keeps
    (fun after : Cluster => after.IsInstalling (frontend attempts) owner (.plain plain))
    (fun _ _ hrequest hafter => hrequest.elim (hafter.plant (.frontend attempts))
      (hafter.route (.frontend attempts))) ⟨hcalm, htending, htended⟩
  exact ⟨hkept.calm, hkept.tended⟩

end Duty

end EdgeOperator
