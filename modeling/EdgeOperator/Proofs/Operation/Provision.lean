import EdgeOperator.Proofs.Operation.Routing
import EdgeOperator.Proofs.Recovery
import EdgeOperator.Proofs.Installation.Routing

set_option autoImplicit false

/-! # What a pass for a frontend provides

A pass for a frontend that says that all is in place has left the workload of the frontend there,
and its route merged into the ingress of the namespace as it was before. Every other pass has left
all ingresses alone (`Duty.frontend_pass_provides`). -/

namespace EdgeOperator

open Program Cluster

namespace Duty

variable {kind : Kind} {duty : Duty kind} {object : Resource kind} {key : ObjectKey}
  {cluster : Cluster} {server : Cluster.Server}

/-! ## Installations that go well -/

/-- To have an object in place leaves the objects of all other kinds. -/
theorem ensure_leaves (hserver : IsFaithful server) (hcalm : cluster.IsCalm)
    (planned : Resource kind) {other : Kind} (hother : kind ≠ other) :
    (ensure planned.key planned).Ends server cluster fun _ after =>
      after.IsCalm ∧ Leaves other cluster after :=
  hserver.run_leaves hcalm (ensure_onlyAsks (by simp [Request.writtenKind?])
    fun heq => hother (Option.some.inj heq))

/-- An installation for a frontend that goes well leaves the workload in place. -/
theorem frontend_install_stores (attempts : Nat) (owner : Owner) (read : Resource .frontend)
    (hserver : IsFaithful server) (hcalm : cluster.IsCalm) :
    ((frontend attempts).install owner read).Ends server cluster fun result after =>
      result = .ok () → ∀ chore ∈ Chore.ofWorkload owner (FrontendContent.spec read.content),
        after.find? (.plain chore.kind) chore.path ≠ none := by
  let spec : FrontendSpec := FrontendContent.spec read.content
  let service : Resource (.plain .service) := (Workload.service owner spec).toResource
  let deployment : Resource (.plain .deployment) := (Workload.deployment owner spec).toResource
  have hservice := (ensure_places hserver hcalm service).and
    (ensure_leaves hserver hcalm service (by simp : Kind.plain .service ≠ .ingress))
  refine Ends.bind hservice ?_ (by simp)
  rintro ensured second ⟨⟨_, hservice⟩, hsecond, _⟩
  have hdeployment := (ensure_places hserver hsecond deployment).and
    (ensure_leaves hserver hsecond deployment (by simp : Kind.plain .deployment ≠ .plain .service))
  refine Ends.bind hdeployment ?_ (by simp)
  rintro ensured' third ⟨⟨_, hdeployment⟩, hthird, hkept⟩
  have hroutes : ∀ plain, (ensureRoute owner spec attempts).OnlyAsks fun request =>
      request.writtenKind? ≠ some (.plain plain) := fun plain =>
    (retryRoute_routes owner spec attempts attempts).mono fun _ hroutes =>
      hroutes.writtenKind?_ne (by simp)
  refine Ends.bind ((hserver.run_leaves hthird (hroutes .service)).and
    (hserver.run_leaves hthird (hroutes .deployment))) ?_ (by simp)
  rintro outcome after ⟨⟨_, hservices⟩, _, hdeployments⟩
  refine ends_pure.2 fun _ => List.forall_mem_cons.2 ⟨?_, List.forall_mem_singleton.2 ?_⟩
  · exact fun hnone => hservice ensured rfl
      ((hkept.find?_eq _).symm.trans ((hservices.find?_eq _).symm.trans hnone))
  · exact fun hnone => hdeployment ensured' rfl ((hdeployments.find?_eq _).symm.trans hnone)

/-! ## From installations to passes -/

/-- A dismantling does not say that all is in place. -/
theorem dismantle_ne_reconciled (object : Resource kind) :
    (duty.dismantle object).Ends server cluster fun result _ => result ≠ .ok .reconciled := by
  unfold dismantle
  cases Owner.ofResource object with
  | error e => exact ends_fail.2 (by simp)
  | ok owner =>
    have hany : ∀ {α : Type} (program : Program α) (now : Cluster),
        program.Ends server now fun _ _ => True := fun _ _ => trivial
    refine (hany _ _).bind (fun _ middle _ => ?_) (by simp)
    exact (hany _ _).bind (fun _ after _ => ends_pure.2 (by simp)) (by simp)

/-- What an installation that goes well leaves, a pass leaves that says that all is in place. -/
theorem pass_of_install (hserver : IsFaithful server) (hcalm : cluster.IsCalm)
    (hfind : cluster.find? kind (key.path kind) = some object) {post : Owner → Cluster → Prop}
    (hinstall : ∀ owner (middle : Cluster), middle.IsCalm →
      (duty.install owner object).Ends server middle fun result after =>
        result = .ok () → post owner after) :
    (duty.pass key).Ends server cluster fun result after => result = .ok .reconciled →
      ∃ owner, Owner.ofResource object = .ok owner ∧ post owner after := by
  have hsettle : ∀ (stored : Resource kind) (middle : Cluster), middle.IsCalm →
      Owner.ofResource stored = Owner.ofResource object →
        (duty.settle stored object).Ends server middle fun result after =>
          result = .ok .reconciled →
            ∃ owner, Owner.ofResource object = .ok owner ∧ post owner after := by
    intro stored middle hmiddle hstored
    unfold settle
    rw [hstored]
    cases howner : Owner.ofResource object with
    | error e => exact ends_fail.2 (by simp)
    | ok owner =>
      refine (hinstall owner middle hmiddle).bind ?_ (by simp)
      exact fun _ after hpost => ends_pure.2 fun _ => ⟨owner, rfl, hpost rfl⟩
  refine ends_pass hserver hcalm (by simp) fun looked hlooked hobjects => ?_
  rw [hfind]
  dsimp only [serveFound]
  cases hstage : object.metadata.lifeStage duty.mark with
  | released => exact ends_pure.2 (by simp)
  | tearingDown =>
    exact (duty.dismantle_ne_reconciled object).mono fun _ _ hne heq => absurd heq hne
  | unmarked =>
    have hheld := hobjects ▸ find?_eq_some.1 hfind
    have hunderway : Underway kind (key.path kind) ⟨kind, object⟩ [] looked looked :=
      underway_of_objects hlooked hheld rfl
    refine (register_underway hserver hunderway hstage).bind ?_ (by simp)
    exact fun stored middle ⟨howner, _, _, hmiddle⟩ => hsettle stored middle hmiddle.calm howner
  | marked => exact hsettle object looked hlooked rfl

/-! ## The main result -/

/-- The task of having the route of a frontend in place. -/
def routeTask (attempts : Nat) (owner : Owner) (frontend : Resource .frontend) : RouteTask :=
  ⟨owner, FrontendContent.spec frontend.content, attempts⟩

/-- What a pass for a frontend leaves when it says that all is in place: the workload under its
paths, and the outlines of an installation without failures. -/
structure Provides (attempts : Nat) (key : ObjectKey) (before : Cluster)
    (read : Resource .frontend) (owner : Owner) (after : Cluster) : Prop where
  found : before.find? .frontend (key.path .frontend) = some read
  live : read.metadata.isDeleted = false
  owner_eq : Owner.ofResource read = .ok owner
  workload : ∀ chore ∈ Chore.ofWorkload owner (FrontendContent.spec read.content),
    after.find? (.plain chore.kind) chore.path ≠ none
  outline_eq : after.outline = (frontend attempts).settledOutline read (key.path .frontend)
    (Chore.ofWorkload owner (FrontendContent.spec read.content))
    (routeTask attempts owner read).routed before

/-- Before its first pass a resource that lives is on its way. -/
theorem livesOn_start (hcalm : cluster.IsCalm)
    (hfind : cluster.find? kind (key.path kind) = some object) (chores : List Chore) :
    duty.LivesOn object (key.path kind) chores cluster cluster :=
  ⟨object, underway_of_objects hcalm (find?_eq_some.1 hfind) rfl, Or.inl rfl⟩

/-- A pass for a frontend that is to go leaves all ingresses: its route stays behind. -/
theorem deleted_pass_leaves (attempts : Nat) {read : Resource .frontend} (hcalm : cluster.IsCalm)
    (hfind : cluster.find? .frontend (key.path .frontend) = some read)
    (hdeleted : read.metadata.isDeleted = true) :
    ((frontend attempts).pass key).Ends Cluster.serve cluster fun result after =>
      result ≠ .ok .reconciled ∧ Leaves .ingress cluster after := by
  refine ends_pass isFaithful_serve hcalm
    (fun e after _ hobjects => ⟨by simp, leaves_of_objects hobjects .ingress⟩) ?_
  intro looked hlooked hobjects
  have hleft := leaves_of_objects hobjects .ingress
  rw [hfind]
  dsimp only [serveFound]
  by_cases hmark : (frontend attempts).mark ∈ read.metadata.finalizers
  · rw [Metadata.lifeStage_eq_tearingDown.2 ⟨hdeleted, hmark⟩]
    have hdismantle : ((frontend attempts).dismantle read).OnlyAsks fun request =>
        request.writtenKind? ≠ some .ingress :=
      dismantle_onlyAsks (fun _ _ => by simp [Request.writtenKind?])
        (writtenKind?_ne_of_frontendTeardown (by simp)) (by simp [Request.writtenKind?])
    refine ((dismantle_ne_reconciled read).and
      (isFaithful_serve.run_leaves hlooked hdismantle)).mono ?_
    rintro result after ⟨hne, _, hrest⟩
    exact ⟨hne, hleft.trans hrest⟩
  · rw [Metadata.lifeStage_eq_released.2 ⟨hdeleted, hmark⟩]
    exact ends_pure.2 ⟨by simp, hleft⟩

/-- A pass for a frontend that lives and does not say that all is in place leaves all ingresses. -/
theorem live_pass_leaves (attempts : Nat) {read : Resource .frontend} (hcalm : cluster.IsCalm)
    (hfind : cluster.find? .frontend (key.path .frontend) = some read)
    (hlive : read.metadata.isDeleted = false) :
    ((frontend attempts).pass key).Ends Cluster.serve cluster fun result after =>
      result ≠ .ok .reconciled → Leaves .ingress cluster after := by
  obtain ⟨chores, finish, hinstalls⟩ := (IsOperators.frontend attempts).exists_installs read
  refine (pass_livesOn isFaithful_serve (.frontend attempts) hinstalls hlive
    (livesOn_start hcalm hfind chores)).mono ?_
  intro result after h hne
  cases result with
  | error e =>
    obtain ⟨_, hunderway, _⟩ := h
    exact hunderway.leaves .ingress (by simp) (by simp)
  | ok outcome =>
    obtain ⟨rfl, _⟩ := h
    exact absurd rfl hne

/-- A pass for a frontend that says that all is in place has provided for the frontend as it was
found; any other has left all ingresses. -/
theorem frontend_pass_provides (attempts : Nat) (key : ObjectKey) (hcalm : cluster.IsCalm) :
    ((frontend attempts).pass key).Ends Cluster.serve cluster fun result after =>
      (result = .ok .reconciled → ∃ read owner, Provides attempts key cluster read owner after) ∧
        (result ≠ .ok .reconciled → Leaves .ingress cluster after) := by
  cases hfind : cluster.find? .frontend (key.path .frontend) with
  | none =>
    refine ends_pass isFaithful_serve hcalm
      (fun e after _ hobjects => ⟨by simp, fun _ => leaves_of_objects hobjects .ingress⟩) ?_
    intro looked _ hobjects
    rw [hfind]
    exact ends_pure.2 ⟨by simp, fun _ => leaves_of_objects hobjects .ingress⟩
  | some read =>
    cases hlive : read.metadata.isDeleted with
    | true =>
      exact (deleted_pass_leaves attempts hcalm hfind hlive).mono fun _ _ ⟨hne, hleaves⟩ =>
        ⟨fun heq => absurd heq hne, fun _ => hleaves⟩
    | false =>
      have hworkload := pass_of_install isFaithful_serve hcalm hfind fun owner middle hmiddle =>
        frontend_install_stores attempts owner read isFaithful_serve hmiddle
      refine ⟨fun hok => ?_, live_pass_leaves attempts hcalm hfind hlive⟩
      obtain ⟨owner, howner, hstored⟩ := hworkload hok
      have hinstalls : ∀ other, Owner.ofResource read = .ok other → (frontend attempts).Installs
          other read (Chore.ofWorkload owner (FrontendContent.spec read.content))
          (routeTask attempts owner read).routed := by
        intro other heq
        obtain rfl := Except.ok.inj (howner.symm.trans heq)
        exact frontend_installs attempts owner read
      have hpass := pass_livesOn isFaithful_serve (.frontend attempts) hinstalls hlive
        (livesOn_start hcalm hfind _)
      unfold Ends at hpass
      rw [hok] at hpass
      exact ⟨read, owner, hfind, hlive, howner, hstored, hpass.2⟩

end Duty

/-! ## Where the route goes -/

/-- Different namespaces have different routing ingresses. -/
theorem routingPath_injective : Function.Injective routingPath := by
  intro scope other h
  have hlists : (routingPath scope).toList = (routingPath other).toList := congrArg String.toList h
  simp only [routingPath, routingKey, ObjectKey.inNamespace, ObjectKey.toList_path,
    Kind.toList_path_some, Names.routingIngress, String.toList_append, List.append_assoc,
    List.append_cancel_left_eq, List.cons_append, List.cons.injEq, true_and] at hlists
  have hlength : scope.toList.length = other.toList.length := by
    have hlengths := congrArg List.length hlists
    simp only [List.length_append, List.length_cons] at hlengths
    omega
  exact String.toList_inj.1 (List.append_inj_left hlists hlength)

/-- Whether an anchor that passes find for a namespace lives there. -/
def Cluster.FindsOwnAnchor (cluster : Cluster) (scope : String) : Prop :=
  ∀ anchor owner, Anchor.first? (cluster.listed .anchor (some scope)) = some anchor →
    Owner.ofResource anchor = .ok owner → owner.namespaceName = scope

/-- What is found for a namespace without a slash lives there. -/
theorem Cluster.findsOwnAnchor_of_slashless {cluster : Cluster} (h : cluster.Sound)
    {scope : String} (hscope : '/' ∉ scope.toList) : cluster.FindsOwnAnchor scope := by
  intro anchor owner hfirst howner
  have hlisted := (Anchor.mem_of_first? hfirst).1
  have hlives := namespaceName?_of_mem_listed h hscope rfl hlisted
  exact Option.some.inj ((Owner.namespaceName?_of_ofResource howner).symm.trans hlives)

/-- Whether passes for frontends of a namespace find an anchor that lives there. -/
structure Cluster.IsAnchored (cluster : Cluster) (scope : String) : Prop where
  own : cluster.FindsOwnAnchor scope
  found : ∃ anchor owner, Anchor.first? (cluster.listed .anchor (some scope)) = some anchor ∧
    Owner.ofResource anchor = .ok owner

/-- Whether the routing ingress of a namespace is not to go, if it is there. -/
def Cluster.RoutingLives (cluster : Cluster) (scope : String) : Prop :=
  ∀ ingress, cluster.find? .ingress (routingPath scope) = some ingress →
    ingress.metadata.isDeleted = false

namespace RouteTask

variable {task : RouteTask} {cluster : Cluster}

/-- A route is written into the ingress of the frontend's namespace. -/
theorem path_of_write? (hsound : cluster.Sound)
    (hanchor : cluster.FindsOwnAnchor task.frontend.namespaceName) {path : String}
    {written? : Option AnyResource} (h : task.write? cluster = some (path, written?)) :
    path = routingPath task.frontend.namespaceName := by
  rcases write?_cases h with ⟨read, hread, rfl, _⟩ | ⟨_, anchor, owner, hfirst, howner, rfl, _⟩
  · exact (hsound.kept (find?_eq_some.1 hread)).path_eq
  · rw [routingIngress_path, hanchor anchor owner hfirst howner]

theorem routed_of_ne (hsound : cluster.Sound)
    (hanchor : cluster.FindsOwnAnchor task.frontend.namespaceName) {path : String}
    (hne : path ≠ routingPath task.frontend.namespaceName)
    (outlines : String → Option AnyResource) : task.routed cluster outlines path = outlines path := by
  unfold routed
  cases hwrite : task.write? cluster with
  | none => rfl
  | some written =>
    obtain ⟨place, written?⟩ := written
    obtain rfl := path_of_write? hsound hanchor hwrite
    exact Function.update_of_ne hne ..

/-- Under the path of the routing ingress there is one then, with the route merged in. -/
theorem routes_of_routed (hsound : cluster.Sound)
    (hanchored : cluster.IsAnchored task.frontend.namespaceName)
    (hlives : cluster.RoutingLives task.frontend.namespaceName)
    {outlines : String → Option AnyResource}
    (houtlines : outlines (routingPath task.frontend.namespaceName) =
      cluster.outline (routingPath task.frontend.namespaceName)) :
    ∃ ingress : Resource .ingress,
      task.routed cluster outlines (routingPath task.frontend.namespaceName) =
          some ⟨.ingress, ingress⟩ ∧
        ingress.metadata.isDeleted = false ∧
        IngressContent.routes ingress.content =
          (mergePath (cluster.routesOf task.frontend.namespaceName) task.pattern
            task.backend).paths := by
  cases hfind : cluster.find? .ingress (routingPath task.frontend.namespaceName) with
  | some ingress =>
    have hlive := hlives ingress hfind
    have hpath : (task.update ingress).path = routingPath task.frontend.namespaceName :=
      (hsound.kept (find?_eq_some.1 hfind)).path_eq
    have hread : cluster.find? .ingress (task.key.path .ingress) = some ingress := hfind
    rw [routesOf_of_find? hfind]
    cases hchanged : (task.merged ingress).changed with
    | true =>
      have hlive' : (task.update ingress).metadata.isDeleted = false := hlive
      have hwritten : (task.update ingress).written? =
          some ⟨.ingress, (task.update ingress).wholeSeconds.outline⟩ := by
        rw [Resource.written?, hlive', Bool.false_and, if_neg Bool.false_ne_true]
      refine ⟨(task.update ingress).wholeSeconds.outline, ?_, ?_, ?_⟩
      · simp only [routed, write?, hread, hchanged, if_true]
        rw [hpath, Function.update_self, hwritten]
      · exact (Option.isSome_map ..).trans hlive
      · exact IngressContent.routes_withRoutes _ _
    | false =>
      refine ⟨ingress.outline, ?_, hlive, (paths_of_not_changed hchanged).symm⟩
      simp only [routed, write?, hread, hchanged, Bool.false_eq_true, if_false]
      rw [houtlines, outline_of_find? hfind]
  | none =>
    obtain ⟨anchor, owner, hfirst, howner⟩ := hanchored.found
    have hscope := hanchored.own anchor owner hfirst howner
    have hnone : cluster.find? .ingress (task.key.path .ingress) = none := hfind
    have hroutes : cluster.routesOf task.frontend.namespaceName = [] := by
      simp only [routesOf, hfind]
    refine ⟨(routingIngress owner (task.spec.route task.frontend)).wholeSeconds.outline, ?_, rfl,
      ?_⟩
    · simp only [routed, write?, hnone, hfirst, howner]
      rw [routingIngress_path, hscope, Function.update_self]
      rfl
    · rw [hroutes]
      rfl

end RouteTask

namespace Duty.Provides

variable {attempts : Nat} {key : ObjectKey} {before after : Cluster} {read : Resource .frontend}
  {owner : Owner} {path : String}

/-- Besides the frontend and the routing ingress, a pass has put in place what was missing of the
workload. -/
theorem outline_of_ne (h : Provides attempts key before read owner after) (hsound : before.Sound)
    (hanchor : before.FindsOwnAnchor owner.namespaceName) (hplace : path ≠ key.path .frontend)
    (hrouting : path ≠ routingPath owner.namespaceName) :
    after.outline path =
      before.furnished (Chore.ofWorkload owner (FrontendContent.spec read.content)) path := by
  let task := routeTask attempts owner read
  have hrouted := task.routed_of_ne hsound hanchor hrouting
  rw [h.outline_eq, settledOutline, hrouted, Function.update_of_ne hplace]

/-- The frontend itself is claimed, and no more than that. -/
theorem outline_frontend (h : Provides attempts key before read owner after)
    (hsound : before.Sound) (hanchor : before.FindsOwnAnchor owner.namespaceName) :
    after.outline (key.path .frontend) =
      some ⟨.frontend, ((frontend attempts).claimed read).outline⟩ := by
  let task := routeTask attempts owner read
  have hne := (routingPath_ne_frontend owner.namespaceName key).symm
  have hrouted := task.routed_of_ne hsound hanchor hne
  rw [h.outline_eq, settledOutline, hrouted, Function.update_self]

/-- No part of a workload is stored under the path of a routing ingress. -/
theorem furnished_routing (scope : String) :
    before.furnished (Chore.ofWorkload owner (FrontendContent.spec read.content))
      (routingPath scope) = before.outline (routingPath scope) := by
  have hchores : ∀ chore ∈ Chore.ofWorkload owner (FrontendContent.spec read.content),
      chore.path ≠ routingPath scope := by
    intro chore hmem heq
    have hgroup : (Kind.plain chore.kind).group = Kind.ingress.group :=
      ObjectKey.group_eq_of_path heq
    simp only [Chore.ofWorkload, List.mem_cons, List.not_mem_nil, or_false] at hmem
    rcases hmem with rfl | rfl <;> exact absurd hgroup (by simp [Kind.group, PlainKind.group])
  rw [furnished, Chore.fresh?_eq_none hchores, Option.or_none]

/-- The routes of other namespaces stay as they are. -/
theorem outline_other (h : Provides attempts key before read owner after) (hsound : before.Sound)
    (hanchor : before.FindsOwnAnchor owner.namespaceName) {scope : String}
    (hscope : scope ≠ owner.namespaceName) :
    after.outline (routingPath scope) = before.outline (routingPath scope) :=
  (h.outline_of_ne hsound hanchor (routingPath_ne_frontend scope key)
    fun heq => hscope (routingPath_injective heq)).trans (furnished_routing scope)

/-- The route is merged into what was there for the namespace. -/
theorem routes_eq (h : Provides attempts key before read owner after) (hsound : before.Sound)
    (hanchored : before.IsAnchored owner.namespaceName)
    (hlives : before.RoutingLives owner.namespaceName) :
    after.RoutingLives owner.namespaceName ∧
      after.routesOf owner.namespaceName =
        (mergePath (before.routesOf owner.namespaceName)
          (routePattern owner.name (FrontendContent.spec read.content).isHost)
          (.ofService (Names.frontendService owner.name)
            (FrontendContent.spec read.content).port)).paths := by
  let task := routeTask attempts owner read
  have houtlines : Function.update
      (before.furnished (Chore.ofWorkload owner (FrontendContent.spec read.content)))
        (key.path .frontend) (some ⟨.frontend, ((frontend attempts).claimed read).outline⟩)
        (routingPath owner.namespaceName) = before.outline (routingPath owner.namespaceName) :=
    (Function.update_of_ne (routingPath_ne_frontend _ key) ..).trans (furnished_routing _)
  obtain ⟨ingress, hrouted, hlive, hroutes⟩ :=
    task.routes_of_routed hsound hanchored hlives houtlines
  obtain ⟨stored, hfind, rfl⟩ := find?_of_outline
    ((congrFun h.outline_eq (routingPath owner.namespaceName)).trans hrouted)
  refine ⟨fun other hother => ?_, (routesOf_of_find? hfind).trans hroutes⟩
  obtain rfl := Option.some.inj (hfind.symm.trans hother)
  exact hlive

end Duty.Provides

end EdgeOperator
