import EdgeOperator.Proofs.Installation.Pass

set_option autoImplicit false

/-! # The stack of an anchor is put up in order

A pass for an anchor that lives creates the components that are missing, in the order of creation and
up to the call that fails. Everything else that was stored stays as it was; only the anchor itself
gets its mark (`Duty.stack_installed_in_order`). -/

namespace EdgeOperator

open Program Cluster

namespace Cluster

/-- Whether the object of a component is missing. -/
def misses (cluster : Cluster) (owner : Owner) (component : Component) : Bool :=
  (cluster.find? (.plain component.kind) (component.path owner)).isNone

/-- Whether some components were created that had been missing, one after the other in the order of
creation and each as it was planned, and nothing else has come in. -/
structure InstallsStack (owner : Owner) (first : Cluster) (exchanges : List Exchange)
    (result : Except OperatorError PassOutcome) (after : Cluster) (built : List Component) :
    Prop where
  in_order : built <+: Component.creationOrder.filter (first.misses owner)
  made_eq : made exchanges = built.map fun component =>
    ⟨.plain component.kind, (component.blueprint owner).toResource⟩
  stored : ∀ component ∈ built, ∃ object,
    after.find? (.plain component.kind) (component.path owner) = some object ∧
      object.outline = (component.blueprint owner).toResource.outline
  added : ∀ path object, first.objects.get? path = none → after.objects.get? path = some object →
    ∃ component ∈ built, component.path owner = path
  complete : result = .ok .reconciled → ∀ component : Component, ∃ object,
    after.find? (.plain component.kind) (component.path owner) = some object

variable {owner : Owner} {first after : Cluster} {exchanges : List Exchange} {place : String}
  {cell : AnyResource} {finished : List Component}

theorem lacks_ofComponent (cluster : Cluster) (owner : Owner) (component : Component) :
    cluster.lacks (Chore.ofComponent owner component) = cluster.misses owner component := by
  rw [lacks, Component.path_ofComponent]
  rfl

/-- The chores of a stack are its components. -/
theorem Furnished.installsStack
    (h : Furnished place cell first (finished.map (Chore.ofComponent owner)) exchanges after)
    {anchor : Resource .anchor} (hfind : first.find? .anchor place = some anchor)
    (hinitial : finished <+: Component.creationOrder)
    {result : Except OperatorError PassOutcome}
    (hall : result = .ok .reconciled → finished = Component.creationOrder) :
    InstallsStack owner first exchanges result after (finished.filter (first.misses owner)) := by
  have hfilter : (finished.map (Chore.ofComponent owner)).filter first.lacks =
      (finished.filter (first.misses owner)).map (Chore.ofComponent owner) := by
    rw [List.filter_map]
    exact congrArg _ (List.filter_congr fun component _ => lacks_ofComponent first owner component)
  refine ⟨hinitial.filter _, ?_, fun component hmem => ?_, fun path object hnone hget => ?_,
    fun hok component => ?_⟩
  · rw [h.made_eq, hfilter, List.map_map]
    rfl
  · obtain ⟨object, hobject⟩ := h.present_component hfind (List.mem_filter.1 hmem).1
    obtain ⟨stored, hget, houtline⟩ := h.built (Chore.ofComponent owner component)
      (hfilter ▸ List.mem_map_of_mem hmem)
    rw [Component.path_ofComponent] at hget
    obtain rfl := Option.some.inj (hget.symm.trans (find?_eq_some.1 hobject))
    rw [Component.outline_ofComponent] at houtline
    exact ⟨object, hobject, eq_of_heq (AnyResource.mk.inj houtline).2⟩
  · have hne : path ≠ place := by
      rintro rfl
      exact absurd (hnone.symm.trans (find?_eq_some.1 hfind)) (by simp)
    obtain ⟨chore, hmem, hpath, _⟩ := h.added hne hnone hget
    rw [hfilter] at hmem
    obtain ⟨component, hcomponent, rfl⟩ := List.mem_map.1 hmem
    exact ⟨component, hcomponent, (Component.path_ofComponent ..).symm.trans hpath⟩
  · exact h.present_component hfind (hall hok ▸ component.mem_creationOrder)

end Cluster

/-! ## The main result -/

namespace Duty

variable {object : Resource .anchor} {key : ObjectKey} {cluster : Cluster}

/-- A pass for an anchor that lives, from whatever is stored and whatever fails, changes no object
that was there but the anchor, and that only by its mark. The components that are missing are created
in order up to some point; without its mark or without an owner the anchor gets none. If the pass
reconciles, all nineteen are in place.

An anchor that could not be marked may have been edited by a writer who waited for that. -/
theorem stack_installed_in_order (hreachable : cluster.Reachable) (script : Nat → Arrangement)
    (hfind : cluster.find? .anchor (key.path .anchor) = some object)
    (hstage : object.metadata.lifeStage anchor.mark = .unmarked ∨
      object.metadata.lifeStage anchor.mark = .marked) :
    (anchor.pass key).Unfolds (serveAmid script) cluster fun exchanges result after =>
      (ComesToNothing object (key.path .anchor) cluster exchanges result after ∨
        ∃ current, after.find? .anchor (key.path .anchor) = some current ∧
          anchor.IsClaimOf object current) ∧
      (∀ path stored, path ≠ key.path .anchor → cluster.objects.get? path = some stored →
        after.objects.get? path = some stored) ∧
      (∀ owner, Owner.ofResource object = .ok owner →
        ∃ built, InstallsStack owner cluster exchanges result after built) ∧
      ∀ e, Owner.ofResource object = .error e → made exchanges = [] ∧ result ≠ .ok .reconciled ∧
        ∀ path, path ≠ key.path .anchor →
          after.objects.get? path = cluster.objects.get? path := by
  have hlive : object.metadata.isDeleted = false :=
    hstage.elim (fun h => (Metadata.lifeStage_eq_unmarked.1 h).1)
      fun h => (Metadata.lifeStage_eq_marked.1 h).1
  cases howner : Owner.ofResource object with
  | error e =>
    refine (unfolds_pass_of_no_owner hreachable script hfind hlive howner).mono ?_
    rintro exchanges result after ⟨hclaimed, hmade, hresult, hothers⟩
    exact ⟨hclaimed, fun path stored hne hget => (hothers path hne).trans hget,
      fun _ heq => (nomatch heq), fun _ _ => ⟨hmade, hresult, hothers⟩⟩
  | ok owner =>
    refine unfolds_pass (fun request _ h => h.serveAmid request) (fun _ h => h) hreachable hfind
      hlive ?_ ?_
    · intro exchanges result after hnothing
      refine ⟨Or.inl hnothing, fun path stored hne hget => (hnothing.others path hne).trans hget,
        fun owner _ => ⟨[], ⟨List.nil_prefix, hnothing.made_eq, by simp, ?_, ?_⟩⟩,
        fun _ heq => nomatch heq⟩
      · intro path stored hnone hget
        have hne : path ≠ key.path .anchor := by
          rintro rfl
          exact absurd (hnone.symm.trans (find?_eq_some.1 hfind)) (by simp)
        rw [hnothing.others path hne, hnone] at hget
        cases hget
      · exact fun hok => absurd hok hnothing.ne_reconciled
    · intro exchanges middle stored hmade _ _ hclaims hstored
      obtain ⟨current, hclaim, hfurnished⟩ := hclaims.furnished .anchor hmade
      refine settle_unfolds (hstored.trans howner) ?_
      have hstart : Furnished (key.path .anchor) ⟨.anchor, current⟩ cluster
          (([] : List Component).map (Chore.ofComponent owner)) exchanges middle := hfurnished
      refine (ensureComponents_furnished hstart Component.nodup_creationOrder).mono ?_
      rintro later result after ⟨finished, hinitial, hall, hafter⟩
      refine ⟨Or.inr ⟨current, find?_eq_some.2 hafter.held, hclaim⟩, fun _ _ hne => hafter.kept hne,
        fun other heq => ?_, fun _ heq => nomatch heq⟩
      obtain rfl := Except.ok.inj heq
      refine ⟨_, hafter.installsStack hfind hinitial fun hok => hall ?_⟩
      cases result with
      | ok _ => rfl
      | error e => cases hok

/-! ## An anchor whose namespace is there already

The namespace of the stack belongs to somebody else and stays as it is. The role is not created the
first time, and the two accounts before it are all that comes in. Where another writer waits for the
registration, that fails, and the anchor stays with what the other has written. -/

/-- The time at which all of it happens. -/
def settlingTime : Timestamp :=
  ⟨2024, 1, 1, 0, 0, 0, 0⟩

/-- An anchor that was not looked at yet. -/
def settlingAnchor : Resource .anchor where
  metadata :=
    { name? := some "edge"
      namespaceName? := some "team"
      uid? := some "uid-edge"
      creationTimestamp? := some settlingTime
      resourceVersion? := some "1" }
  content := {}

/-- The key of the anchor. -/
def settlingKey : ObjectKey :=
  .inNamespace "team" "edge"

/-- The anchor as an owner. -/
def settlingOwner : Owner :=
  ⟨"edge", "team", ⟨Kind.anchor.apiVersion, none, some true, Kind.anchor.name, "edge", "uid-edge"⟩⟩

/-- The namespace that somebody else has created. -/
def foreignScope : Resource (.plain .nameSpace) where
  metadata := { name? := some (Names.scope "edge") }
  content := []

/-- A cluster with the anchor and the namespace. -/
def settlingCluster : Cluster :=
  ((Cluster.create { now := settlingTime } settlingAnchor).2.create foreignScope).2

/-- A fault that strikes the creation of the role. -/
def roleFault : Arrangement where
  faults :=
    [⟨⟨.create, (ObjectKey.inNamespace (Names.scope "edge") Names.ingressNginx).path (.plain .role)⟩,
      500, "InternalError", 1⟩]
  now := settlingTime

/-- The cluster with a writer who waits to put a label on the anchor. -/
def contestedCluster : Cluster :=
  settlingCluster.beforeReplace (settlingKey.path .anchor) fun _ object =>
    { object with metadata := { object.metadata with labels? := some [("touched", "yes")] } }

theorem settlingCluster_reachable : settlingCluster.Reachable :=
  .seed _ (.seed _ (.empty _))

theorem settling_stack_installed_in_order :
    settlingCluster.Reachable ∧
      settlingCluster.find? .anchor (settlingKey.path .anchor) = some settlingAnchor ∧
      settlingAnchor.metadata.lifeStage anchor.mark = .unmarked ∧
      (anchor.pass settlingKey).Unfolds (serveAmid fun _ => roleFault) settlingCluster
        fun exchanges result after =>
          result = .error (refused 500 "InternalError") ∧
          after.find? (.plain .nameSpace) foreignScope.path =
            settlingCluster.find? (.plain .nameSpace) foreignScope.path ∧
          InstallsStack settlingOwner settlingCluster exchanges result after
            [.serviceAccount, .admissionServiceAccount] := by
  have hfind : settlingCluster.find? .anchor (settlingKey.path .anchor) = some settlingAnchor := rfl
  have hstage : settlingAnchor.metadata.lifeStage anchor.mark = .unmarked := by decide
  refine ⟨settlingCluster_reachable, hfind, hstage, ?_⟩
  obtain ⟨_, hkept, hstack, _⟩ := stack_installed_in_order settlingCluster_reachable
    (fun _ => roleFault) hfind (Or.inl hstage)
  obtain ⟨built, hbuilt⟩ := hstack settlingOwner rfl
  refine ⟨rfl, find?_congr (hkept foreignScope.path _ (by decide) rfl), ?_⟩
  have hinitial := hbuilt.in_order
  have hlength : built.length = 2 := by
    have hmade := congrArg List.length hbuilt.made_eq
    rw [List.length_map] at hmade
    exact hmade.symm
  rwa [List.prefix_iff_eq_take.1 hinitial, hlength] at hbuilt

/-- A pass may leave the anchor changed by more than its mark: another writer is let in by the
registration. -/
theorem contested_pass_leaves_label :
    contestedCluster.Reachable ∧
      contestedCluster.find? .anchor (settlingKey.path .anchor) = some settlingAnchor ∧
      settlingAnchor.metadata.lifeStage anchor.mark = .unmarked ∧
      ((anchor.pass settlingKey).run Cluster.serve contestedCluster).1 =
        .error (refused 409 "Conflict") ∧
      ∃ current, ((anchor.pass settlingKey).run Cluster.serve contestedCluster).2.find? .anchor
          (settlingKey.path .anchor) = some current ∧
        current.unversioned ≠ settlingAnchor.unversioned ∧
        current.unversioned ≠ (anchor.marked settlingAnchor).unversioned := by
  refine ⟨.beforeReplace _ (fun _ _ => rfl) settlingCluster_reachable, rfl, by decide, rfl, _, rfl,
    fun heq => ?_, fun heq => ?_⟩
  all_goals
    have hlabels : some [("touched", "yes")] = none :=
      congrArg (fun r : Resource .anchor => r.metadata.labels?) heq
    cases hlabels

end Duty

end EdgeOperator
