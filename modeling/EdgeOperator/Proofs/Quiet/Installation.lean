import EdgeOperator.Proofs.Installation.Frontend
import EdgeOperator.Proofs.Quiet.Pass
import EdgeOperator.Proofs.Stack.Keys

set_option autoImplicit false

/-! # Installations on quiet clusters

The path of a component tells its kind (`Component.eq_of_path`), so no component takes the place of
another. On a quiet cluster nothing keeps a stack from being put up, then, unless an object of
another kind is in the place of a component (`ensureComponents_of_quiet`). The workload of a
frontend may meet such an object, and its route may miss an anchor; so there it is only said what
was asked for when all went well (`RouteTask.install_of_quiet`). -/

namespace EdgeOperator

open Program Cluster

variable {clock : Nat → Timestamp} {owner : Owner}

/-! ## Stacks -/

namespace Component

/-- The key of a component has no slash if the name of the anchor has none. -/
theorem isSlashless_key (component : Component) (hname : '/' ∉ owner.name.toList) :
    (component.key owner).IsSlashless := by
  have hscope : '/' ∉ (Names.scope owner.name).toList := by
    simp [Names.scope, hname]
  constructor
  · cases component <;>
      simp [key, ObjectKey.clusterWide, ObjectKey.inNamespace, Names.ingressNginx, Names.admission,
        Names.controller, Names.controllerAdmission, Names.admissionCreateJob,
        Names.admissionPatchJob, Names.clusterRoleBinding, Names.admissionClusterRoleBinding,
        Names.ingressClass, Names.admissionWebhook, hscope]
  · intro scope heq
    rw [namespaceName?_key] at heq
    split at heq
    · cases heq
    · exact Option.some.inj heq ▸ hscope

/-- No component has the path of an anchor. -/
theorem path_ne_anchor (component : Component) (owner : Owner) (key : ObjectKey) :
    component.path owner ≠ key.path .anchor := by
  intro heq
  have hgroup : (Kind.plain component.kind).group = Kind.anchor.group :=
    ObjectKey.group_eq_of_path heq
  revert hgroup
  cases component <;> decide

end Component

namespace Cluster

/-- Whether what is stored under the path of a component is of the component's kind. -/
def HasRoomFor (cluster : Cluster) (owner : Owner) : Prop :=
  ∀ (component : Component) (stored : AnyResource),
    cluster.objects.get? (component.path owner) = some stored → stored.kind = .plain component.kind

/-- Where no stored name has a slash, the paths tell the kinds. -/
theorem hasRoomFor_of_slashless {cluster : Cluster} (h : cluster.Sound)
    (hstored : ∀ path stored, cluster.objects.get? path = some stored →
      stored.resource.key.IsSlashless) (hname : '/' ∉ owner.name.toList) :
    cluster.HasRoomFor owner := by
  intro component stored hget
  have hpath : stored.resource.key.path stored.kind =
      (component.key owner).path (.plain component.kind) := (h.kept hget).path_eq
  exact ObjectKey.kind_eq_of_path (hstored _ _ hget) (component.isSlashless_key hname) hpath

/-- A component that comes in leaves room for the others. -/
theorem HasRoomFor.set {before after : Cluster} (h : before.HasRoomFor owner)
    {component : Component} {next : Resource (.plain component.kind)}
    (hobjects : after.objects =
      before.objects.set (component.path owner) ⟨.plain component.kind, next⟩) :
    after.HasRoomFor owner := by
  intro other stored hget
  rw [hobjects, StringMap.get?_set] at hget
  split at hget
  · next hpath =>
    obtain rfl := Option.some.inj hget
    exact congrArg Kind.plain (Component.eq_of_path hpath).1
  · exact h other stored hget

end Cluster

/-- Where there is room for it, a component is had in place, and it is asked for at most once. -/
theorem Component.ensure_of_room {cluster : Cluster} (h : cluster.IsQuiet)
    (hroom : cluster.HasRoomFor owner) (component : Component) :
    (component.ensure owner).Unfolds (serveAt clock) cluster fun exchanges result after =>
      (∃ outcome, result = .ok outcome) ∧
        creations exchanges = (made exchanges).map AnyResource.step ∧ after.HasRoomFor owner := by
  let planned := (component.blueprint owner).toResource
  have hpath : planned.path = component.path owner := component.path_ofComponent owner
  have hkind : ∀ stored, cluster.objects.get? planned.path = some stored →
      stored.kind = .plain component.kind :=
    fun stored hget => hroom component stored (hpath ▸ hget)
  have hensure : (EdgeOperator.ensure (component.key owner) planned).Unfolds (serveAt clock) cluster
      fun exchanges result after => (((∀ stored, cluster.objects.get? planned.path = some stored →
        stored.kind = .plain component.kind) → ∃ ensured, result = .ok ensured) ∧
          ∀ ensured, result = .ok ensured →
            creations exchanges = (made exchanges).map AnyResource.step) ∧
        Ensuring planned cluster exchanges result after :=
    component.key_blueprint owner ▸
      (ensure_of_quiet h clock planned).and (ensure_ensuring planned cluster)
  refine hensure.bind ?_ ?_
  · rintro exchanges ensured after ⟨⟨_, hcreations⟩, hensuring⟩
    refine unfolds_pure.2 ⟨⟨_, rfl⟩, ?_, ?_⟩
    · rw [List.append_nil]
      exact hcreations ensured rfl
    · cases hensuring with
      | found hmade hfind hobjects =>
        exact fun other stored hget => hroom other stored (hobjects ▸ hget)
      | created hmade hnone hobjects hnext => exact hroom.set (hpath ▸ hobjects)
  · rintro exchanges e after ⟨⟨hok, _⟩, _⟩
    obtain ⟨ensured, hfalse⟩ := hok hkind
    cases hfalse

/-- Where there is room for them, components are had in place, and each is asked for at most once. -/
theorem ensureComponents_of_quiet {cluster : Cluster} (h : cluster.IsQuiet)
    (hroom : cluster.HasRoomFor owner) (components : List Component) :
    (ensureComponents owner components).Unfolds (serveAt clock) cluster fun exchanges result _ =>
      result = .ok () ∧ creations exchanges = (made exchanges).map AnyResource.step := by
  induction components generalizing cluster with
  | nil => exact unfolds_pure.2 ⟨rfl, rfl⟩
  | cons component rest ih =>
    refine (h.keeping (component.ensure_of_room h hroom)).bind ?_ ?_
    · rintro exchanges outcome middle ⟨⟨_, hcreations, hmiddle⟩, hquiet⟩
      refine (ih hquiet hmiddle).mono fun later result after ⟨hok, hlater⟩ => ⟨hok, ?_⟩
      rw [creations_append, made_append, List.map_append, hcreations, hlater]
    · rintro exchanges e middle ⟨⟨⟨outcome, hfalse⟩, _⟩, _⟩
      cases hfalse

/-! ## Frontends -/

theorem kind_mem_writes {exchanges : List Exchange} {step : TeardownStep}
    (h : step ∈ creations exchanges) : step.kind ∈ writes exchanges := by
  obtain ⟨⟨request, answer⟩, hmem, hcreation⟩ := List.mem_filterMap.1 h
  refine List.mem_filterMap.2 ⟨⟨request, answer⟩, hmem, ?_⟩
  cases request with
  | create kind object =>
    exact congrArg some (congrArg TeardownStep.kind (Option.some.inj hcreation))
  | _ => cases hcreation

/-- A chore is done and has asked for its object at most once, if it goes well. -/
theorem Cluster.Furnished.ensure_of_quiet {place : String} {cell : AnyResource}
    {first now : Cluster} {done : List Chore} {chore : Chore} {exchanges : List Exchange}
    (h : Furnished place cell first done exchanges now) (hquiet : now.IsQuiet)
    (hdistinct : ∀ earlier ∈ done, earlier.kind = chore.kind → earlier.path ≠ chore.path) :
    (EdgeOperator.ensure chore.planned.key chore.planned).Unfolds (serveAt clock) now
      fun later result after => ∀ ensured, result = .ok ensured →
        Furnished place cell first (done ++ [chore]) (exchanges ++ later) after ∧ after.IsQuiet ∧
          creations later = (made later).map AnyResource.step := by
  have hchore : (EdgeOperator.ensure chore.planned.key chore.planned).Unfolds
      (serveAt clock) now _ := h.ensure hdistinct
  have hensure := (hquiet.keeping hchore).and
    (Cluster.ensure_of_quiet hquiet clock chore.planned)
  refine hensure.mono ?_
  rintro later result after ⟨⟨hresult, hafter⟩, _, hcreations⟩ ensured rfl
  exact ⟨hresult, hafter, hcreations ensured rfl⟩

namespace RouteTask

variable {task : RouteTask} {place : String} {cell : AnyResource} {first now : Cluster}
  {earlier : List Exchange}

theorem IsFair.of_quiet (h : now.IsQuiet) : task.IsFair now where
  reachable := h.reachable
  truthful := h.faultless.isTruthful
  waiting := h.allWaiting _

/-- An installation that goes well has the workload in place, asking for each object at most once,
and settles the route. -/
theorem install_of_quiet (hquiet : now.IsQuiet)
    (hscope : '/' ∉ task.frontend.namespaceName.toList) {object : Resource .frontend}
    (hspec : FrontendContent.spec object.content = task.spec)
    (h : Furnished place cell first [] earlier now) :
    ((Duty.frontend task.attempts).install task.frontend object).Unfolds (serveAt clock) now
      fun exchanges result after => result = .ok () → after.IsQuiet ∧ ∃ building routing equipped,
        Furnished place cell first task.chores building equipped ∧
        task.Settles equipped routing after ∧
        (creations exchanges).filter (fun step => step.kind ≠ .ingress) =
          (made building).map AnyResource.step := by
  have hscript : ∀ n, (⟨[], clock n⟩ : Arrangement).IsTruthful := fun _ _ hmem => nomatch hmem
  let service : Chore := ⟨.service, (Workload.service task.frontend task.spec).toResource⟩
  let deployment : Chore := ⟨.deployment, (Workload.deployment task.frontend task.spec).toResource⟩
  have hservice : ∀ chore ∈ ([] : List Chore), chore.kind = service.kind →
      chore.path ≠ service.path := by simp
  have hdeployment : ∀ chore ∈ [service], chore.kind = deployment.kind →
      chore.path ≠ deployment.path := by simp [service, deployment]
  have hplain : ∀ object ∈ (task.chores.filter first.lacks).map Chore.object,
      object.step.kind ≠ .ingress := by
    intro object hmem
    obtain ⟨chore, _, rfl⟩ := List.mem_map.1 hmem
    exact Kind.noConfusion
  unfold Duty.frontend
  dsimp only
  rw [hspec]
  refine Unfolds.bind (h.ensure_of_quiet hquiet hservice) ?_ fun _ _ _ _ hfalse => nomatch hfalse
  intro serving ensured second hsecond
  obtain ⟨hsecond, hquiet, hserving⟩ := hsecond ensured rfl
  refine Unfolds.bind (hsecond.ensure_of_quiet hquiet hdeployment) ?_
    fun _ _ _ _ hfalse => nomatch hfalse
  intro deploying ensured third hthird
  obtain ⟨hthird, hquiet, hdeploying⟩ := hthird ensured rfl
  -- the route comes last and writes ingresses only, so it adds nothing to the workload
  have hroute : (retryRoute task.frontend task.spec task.attempts task.attempts).Unfolds
      (serveAt clock) third _ :=
    retryRoute_unfolds hscript hscope task.attempts task.attempts (IsFair.of_quiet hquiet)
  refine Unfolds.bind (hquiet.keeping ((task.retryRoute_writes _ _).unfolds hroute)) ?_
    fun _ _ _ _ hfalse => nomatch hfalse
  rintro routing outcome after ⟨⟨hsettles, hwrites⟩, hafter⟩
  refine unfolds_pure.2 fun _ => ⟨hafter, _, routing, third, hthird, hsettles, ?_⟩
  have hrouting : (creations routing).filter (fun step => step.kind ≠ .ingress) = [] := by
    refine List.filter_eq_nil_iff.2 fun step hmem => ?_
    have hkind := List.eq_of_mem_replicate (hwrites.subset (kind_mem_writes hmem))
    simp [hkind]
  have hbuilding : creations serving ++ creations deploying =
      (made (earlier ++ serving ++ deploying)).map AnyResource.step := by
    have hearlier : made earlier = [] := h.made_eq
    rw [made_append, made_append, hearlier, List.nil_append, List.map_append, hserving, hdeploying]
  rw [List.append_nil, ← List.append_assoc, creations_append, creations_append, List.filter_append,
    hrouting, List.append_nil, hbuilding, hthird.made_eq]
  refine List.filter_eq_self.2 fun step hmem => ?_
  obtain ⟨object, hobject, rfl⟩ := List.mem_map.1 hmem
  exact decide_eq_true (hplain object hobject)

end RouteTask

end EdgeOperator
