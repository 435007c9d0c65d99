import EdgeOperator.Proofs.Quiet.Installation
import EdgeOperator.Proofs.Quiet.Reversal

set_option autoImplicit false

/-! # A teardown takes an installation back

On a quiet cluster a resource is created and gets a pass, it is deleted and gets another pass. What
the first pass has created the second deletes, in the opposite order, and then the cluster holds what
it held before the resource was created (`Duty.teardown_restores`).

Of a frontend the routing ingress is excepted: its route stays behind. -/

namespace EdgeOperator

open Program Cluster

variable {kind : Kind} {clock : Nat → Timestamp} {owner : Owner}

/-! ## Creation and first pass -/

namespace Cluster

/-- Whether a resource is about to become an owner that has nothing yet: it is not stored, nothing
asks for its deletion or holds it, and its name and its namespace have no slash. -/
structure IsNew (cluster : Cluster) (object : Resource kind) (owner : Owner) : Prop where
  free : cluster.objects.get? object.path = none
  live : object.metadata.isDeleted = false
  unheld : object.metadata.finalizers = []
  owner_eq : Owner.ofResource (cluster.created object) = .ok owner
  nothing : cluster.HasNothingOf owner
  name : '/' ∉ owner.name.toList
  scope : '/' ∉ owner.namespaceName.toList

/-- Whether a cluster is as another one with a resource in its place, which lives and is not held. -/
structure Bears (owner : Owner) (place : String) (cluster : Cluster) (stored : Resource kind)
    (born : Cluster) : Prop where
  quiet : born.IsQuiet
  objects_eq : born.objects = cluster.objects.set place ⟨kind, stored⟩
  live : stored.metadata.isDeleted = false
  unheld : stored.metadata.finalizers = []
  owner_eq : Owner.ofResource stored = .ok owner

variable {cluster born middle : Cluster} {fresh stored : Resource kind} {place : String}

theorem IsNew.create (h : cluster.IsNew fresh owner) (hquiet : cluster.IsQuiet)
    {post : Cluster → Prop}
    (hpost : ∀ (stored : Resource kind) (born : Cluster),
      Bears owner fresh.path cluster stored born → post born) :
    Succeeds (serveAt clock) (.create kind fresh) cluster post := by
  obtain ⟨asked, born, hversion, hcreate, hborn, hobjects⟩ := hquiet.serve_create clock h.free
  refine ⟨_, born, hcreate, hpost _ born ⟨hborn, hobjects, ?_, h.unheld, ?_⟩⟩
  · rw [← h.live]
    exact Option.isSome_map
  · rw [← h.owner_eq]
    change Owner.ofResource (asked.created fresh) = _
    unfold created
    rw [hversion]
    rfl

/-- When a new resource is claimed, no chore is done yet, and only the mark holds the resource. -/
theorem Bears.attends {duty : Duty kind} (h : Bears owner place cluster stored born)
    (hduty : duty.IsOperators) (hfree : cluster.objects.get? place = none)
    (hclaims : duty.Claims stored place born middle) {exchanges : List Exchange}
    (hmade : made exchanges = []) :
    ∃ current, duty.Attends owner place cluster [] exchanges middle current := by
  obtain ⟨current, hclaim, hfurnished⟩ := hclaims.furnished hduty hmade
  have hborn : ∀ path, path ≠ place → born.objects.get? path = cluster.objects.get? path := by
    intro path hne
    rw [h.objects_eq, StringMap.get?_set, if_neg hne.symm]
  refine ⟨current, ⟨hfurnished.special, hfurnished.held, hfurnished.made_eq, ?_, ?_, by simp, ?_⟩,
    (Metadata.lifeStage_eq_marked.1 hclaim.lifeStage).1, ?_, hclaim.ofResource_eq.trans h.owner_eq⟩
  · exact fun hne hget => hfurnished.kept hne ((hborn _ hne).trans hget)
  · exact fun hne hnone hget => hfurnished.added hne ((hborn _ hne).trans hnone) hget
  · intro other hother hplain
    have hleaves : Leaves other cluster born :=
      leaves_of_set (Ne.symm hother) (find?_of_absent hfree) h.objects_eq
    exact hleaves.trans (hfurnished.leaves other hother hplain)
  · cases hclaim with
    | marked hstage =>
      have hmark := (Metadata.lifeStage_eq_marked.1 hstage).2
      rw [h.unheld] at hmark
      cases hmark
    | registered hstage version =>
      change stored.metadata.finalizers ++ [duty.mark] = [duty.mark]
      rw [h.unheld]
      rfl

end Cluster

namespace Duty

variable {cluster born : Cluster}

/-- The pass for an anchor that is new puts up its stack. -/
theorem anchor_installs_new {fresh stored : Resource .anchor} (hnew : cluster.IsNew fresh owner)
    (hroom : cluster.HasRoomFor owner) (hborn : Bears owner fresh.path cluster stored born) :
    (anchor.pass fresh.key).Unfolds (serveAt clock) born fun installing outcome installed =>
      outcome = .ok .reconciled ∧ installed.IsQuiet ∧
        creations installing = (made installing).map AnyResource.step ∧
        ∃ current, anchor.Attends owner fresh.path cluster
          (Component.creationOrder.map (Chore.ofComponent owner)) installing installed current := by
  have hfind : born.find? .anchor (fresh.key.path .anchor) = some stored :=
    (find?_of_set hborn.objects_eq ..).2 (Or.inl ⟨rfl, rfl⟩)
  refine unfolds_pass_of_live hborn.quiet hfind hborn.live ?_
  intro claiming middle settled hmade hcreations hmiddle hclaims hsettled
  obtain ⟨current, hattends⟩ := hborn.attends .anchor hnew.free hclaims hmade
  have hmiddleRoom : middle.HasRoomFor owner := by
    intro component object hget
    have hpath : component.path owner ≠ fresh.path := component.path_ne_anchor owner fresh.key
    rw [hclaims.others _ hpath, hborn.objects_eq, StringMap.get?_set, if_neg hpath.symm] at hget
    exact hroom component object hget
  have hstart : Furnished fresh.path ⟨.anchor, current⟩ cluster
      (([] : List Component).map (Chore.ofComponent owner)) claiming middle := hattends.furnished
  have hinstall : (ensureComponents owner Component.creationOrder).Unfolds
      (serveAt clock) middle _ := ensureComponents_furnished hstart Component.nodup_creationOrder
  refine settle_unfolds (hsettled.trans hborn.owner_eq) ?_
  have hbuilding : (ensureComponents owner Component.creationOrder).Unfolds
      (serveAt clock) middle _ := ensureComponents_of_quiet hmiddle hmiddleRoom _
  refine (hmiddle.keeping (hinstall.and hbuilding)).mono ?_
  rintro building result installed ⟨⟨⟨finished, _, hall, hfurnished⟩, hok, hbuilding⟩, hinstalled⟩
  obtain rfl := hall hok
  subst hok
  refine ⟨rfl, hinstalled, ?_, current, hfurnished, hattends.live, hattends.finalizers_eq,
    hattends.owner_eq⟩
  rw [creations_append, made_append, hcreations, hmade, hbuilding]
  rfl

/-- The pass for a frontend that is new, if it reconciles, has its workload in place and settles its
route. -/
theorem frontend_installs_new (attempts : Nat) {fresh stored : Resource .frontend}
    (hnew : cluster.IsNew fresh owner) (hborn : Bears owner fresh.path cluster stored born) :
    ((frontend attempts).pass fresh.key).Unfolds (serveAt clock) born
      fun installing outcome installed => outcome = .ok .reconciled → installed.IsQuiet ∧
        ∃ building equipped current,
          (frontend attempts).Attends owner fresh.path cluster
            (Chore.ofWorkload owner (FrontendContent.spec stored.content)) building equipped current ∧
          (∀ path, path ≠ routingPath owner.namespaceName →
            installed.objects.get? path = equipped.objects.get? path) ∧
          (creations installing).filter (fun step => step.kind ≠ .ingress) =
            (made building).map AnyResource.step := by
  have hfind : born.find? .frontend (fresh.key.path .frontend) = some stored :=
    (find?_of_set hborn.objects_eq ..).2 (Or.inl ⟨rfl, rfl⟩)
  refine unfolds_pass_of_live hborn.quiet hfind hborn.live ?_
  intro claiming middle settled hmade hcreations hmiddle hclaims hsettled
  obtain ⟨current, hattends⟩ := hborn.attends (.frontend attempts) hnew.free hclaims hmade
  let task : RouteTask := ⟨owner, FrontendContent.spec stored.content, attempts⟩
  have hinstall : ((frontend attempts).install owner stored).Unfolds (serveAt clock) middle _ :=
    task.install_of_quiet hmiddle hnew.scope rfl hattends.furnished
  refine settle_unfolds (hsettled.trans hborn.owner_eq) (hinstall.mono ?_)
  intro building result installed hresult hreconciled
  obtain ⟨hinstalled, equipping, routing, equipped, hfurnished, hsettles, hbuilding⟩ :=
    hresult (by cases result with | ok _ => rfl | error e => cases hreconciled)
  refine ⟨hinstalled, equipping, equipped, current, ⟨hfurnished, hattends.live,
    hattends.finalizers_eq, hattends.owner_eq⟩, hsettles.others, ?_⟩
  rw [creations_append, hcreations]
  exact hbuilding

/-! ## Anchors leave no trace -/

/-- Whether an anchor that comes gets its stack, and all is as it was before once it has gone. -/
def LeavesNoTrace (clock : Nat → Timestamp) (fresh : Resource .anchor) (cluster : Cluster) : Prop :=
  anchor.Arrives clock fresh cluster fun installing outcome installed =>
    outcome = .ok .reconciled ∧
    anchor.Departs clock fresh.key installed fun removing after =>
      after.objects = cluster.objects ∧
      deletions removing = (creations installing).reverse

theorem leavesNoTrace_of_room (hquiet : cluster.IsQuiet) (clock : Nat → Timestamp)
    {fresh : Resource .anchor} (hnew : cluster.IsNew fresh owner)
    (hroom : cluster.HasRoomFor owner) : LeavesNoTrace clock fresh cluster := by
  refine hnew.create hquiet fun stored born hborn => ?_
  refine (anchor_installs_new hnew hroom hborn).mono ?_
  rintro installing outcome installed ⟨hok, hinstalled, hcreations, current, hattends⟩
  -- of the plan the routing ingress is not the owner's, and the rest are the components
  have hrouting : ∀ step ∈ [(⟨.ingress, routingKey owner.namespaceName⟩ : TeardownStep)],
      installed.owns owner step = false := by
    intro step hmem
    obtain rfl := List.mem_singleton.1 hmem
    rw [owns_of_find? ((hattends.furnished.leaves .ingress (by simp) (by simp)).find?_eq _)]
    exact hnew.nothing.owns_eq_false _
  have htakes := anchor_takesBack hattends.owner_eq
  have hdeparts : anchor.Departs clock fresh.key installed _ :=
    htakes.undone .anchor hnew.free hnew.nothing hattends hinstalled
      List.not_mem_nil (fun _ _ => List.not_mem_nil) (fun _ _ => rfl) hrouting
  refine ⟨hok, hdeparts.mono ?_⟩
  rintro removing after ⟨hafter, hdeletions, hrestored, _⟩
  constructor
  · exact StringMap.IsSorted.ext hafter.reachable.sound.sorted hquiet.reachable.sound.sorted
      fun path => hrestored path List.not_mem_nil
  · rw [hdeletions, hcreations]

/-- Where no stored name has a slash, there is room for the stack of every anchor. -/
theorem leavesNoTrace_of_slashless (hquiet : cluster.IsQuiet) (clock : Nat → Timestamp)
    (hstored : ∀ path stored, cluster.objects.get? path = some stored →
      stored.resource.key.IsSlashless)
    {fresh : Resource .anchor} (hnew : cluster.IsNew fresh owner) :
    LeavesNoTrace clock fresh cluster :=
  leavesNoTrace_of_room hquiet clock hnew
    (hasRoomFor_of_slashless hquiet.reachable.sound hstored hnew.name)

/-! ## The main result -/

/-- On a quiet cluster an anchor that is new gets its stack, whatever objects of others are in the
places of its components already; when the anchor is deleted, the next pass deletes what was created
in the opposite order, and then all is as it was before the anchor came in. So it is with a frontend,
if its first pass reconciles, but for the routing ingress, which stays as the first pass has left it.

There is room for the stack wherever no stored name has a slash (`leavesNoTrace_of_slashless`): only
a namespace whose name spells the rest of a path could be in the place of another kind. -/
theorem teardown_restores (hquiet : cluster.IsQuiet) (clock : Nat → Timestamp) :
    (∀ (fresh : Resource .anchor) (owner : Owner), cluster.IsNew fresh owner →
      cluster.HasRoomFor owner →
      anchor.Arrives clock fresh cluster fun installing outcome installed =>
        outcome = .ok .reconciled ∧
        anchor.Departs clock fresh.key installed fun removing after =>
          after.objects = cluster.objects ∧
          deletions removing = (creations installing).reverse) ∧
    ∀ (attempts : Nat) (fresh : Resource .frontend) (owner : Owner), cluster.IsNew fresh owner →
      (frontend attempts).Arrives clock fresh cluster fun installing outcome installed =>
        outcome = .ok .reconciled →
        (frontend attempts).Departs clock fresh.key installed fun removing after =>
          (∀ path, path ≠ routingPath owner.namespaceName →
            after.objects.get? path = cluster.objects.get? path) ∧
          after.objects.get? (routingPath owner.namespaceName) =
            installed.objects.get? (routingPath owner.namespaceName) ∧
          deletions removing =
            ((creations installing).filter fun step => step.kind ≠ .ingress).reverse := by
  constructor
  · exact fun fresh owner hnew hroom => leavesNoTrace_of_room hquiet clock hnew hroom
  · intro attempts fresh owner hnew
    refine hnew.create hquiet fun stored born hborn => ?_
    refine (frontend_installs_new attempts hnew hborn).mono ?_
    intro installing outcome installed hinstalls hok
    obtain ⟨hinstalled, building, equipped, current, hattends, hothers, hcreations⟩ := hinstalls hok
    have htakes := frontend_takesBack hattends.owner_eq attempts (FrontendContent.spec stored.content)
    let task : RouteTask := ⟨owner, FrontendContent.spec stored.content, attempts⟩
    have hplace : fresh.path ≠ task.place := (routingPath_ne_frontend _ fresh.key).symm
    have hspared : ∀ {path : String}, path ≠ task.place → path ∉ [task.place] :=
      fun hne hmem => hne (List.mem_singleton.1 hmem)
    have hdeparts : (frontend attempts).Departs clock fresh.key installed _ :=
      htakes.undone (.frontend attempts) hnew.free hnew.nothing hattends hinstalled
        (hspared hplace) (fun _ hmem => hspared (task.path_ne_place hmem))
        (fun path hpath => hothers path fun heq => hpath (List.mem_singleton.2 heq)) (by simp)
    refine hdeparts.mono ?_
    rintro removing after ⟨_, hdeletions, hrestored, hkept⟩
    refine ⟨fun path hne => hrestored path (hspared hne), ?_, ?_⟩
    · exact hkept _ (List.mem_singleton_self _)
    · rw [hdeletions, hcreations]

/-! ## An anchor and a frontend that come and go

The namespace that the stack of the anchor would get belongs to somebody else. Another anchor is
there for the route of the frontend. -/

/-- The time at which all of it happens. -/
def visitingTime : Timestamp :=
  ⟨2024, 1, 1, 0, 0, 0, 0⟩

/-- The time of every call. -/
def visitingClock : Nat → Timestamp :=
  fun _ => visitingTime

/-- The namespace that is there already. -/
def hostingScope : Resource (.plain .nameSpace) where
  metadata := { name? := some (Names.scope "edge") }
  content := []

/-- The anchor that is there already. -/
def hostingAnchor : Resource .anchor where
  metadata := { name? := some "gate", namespaceName? := some "team" }
  content := {}

/-- The cluster with both of them. -/
def hostingCluster : Cluster :=
  ((Cluster.create { now := visitingTime } hostingScope).2.create hostingAnchor).2

/-- The anchor that comes and goes. -/
def visitingAnchor : Resource .anchor where
  metadata := { name? := some "edge", namespaceName? := some "team" }
  content := {}

/-- The frontend that comes and goes. -/
def visitingFrontend : Resource .frontend where
  metadata := { name? := some "shop", namespaceName? := some "team" }
  content := { spec := { imageName := "web", port := 80 } }

/-- A resource that comes as an owner. -/
def visitingOwner (kind : Kind) (name : String) : Owner :=
  ⟨name, "team", ⟨kind.apiVersion, none, some true, kind.name, name, "uid-3"⟩⟩

theorem hostingCluster_isQuiet : hostingCluster.IsQuiet where
  reachable := .seed _ (.seed _ (.empty _))
  faultless _ hmem := nomatch hmem
  undisturbed _ := rfl

/-- What holds of both objects holds of all that is stored. -/
theorem forall_hostingCluster {property : AnyResource → Prop}
    (hscope : property ⟨_, (Cluster.created { now := visitingTime } hostingScope).wholeSeconds⟩)
    (hanchor : property
      ⟨_, (Cluster.created { now := visitingTime, revision := 1 } hostingAnchor).wholeSeconds⟩) :
    ∀ path stored, hostingCluster.objects.get? path = some stored → property stored := by
  intro path stored hget
  have hsorted := hostingCluster_isQuiet.reachable.sound.sorted
  have hmem : (path, stored) ∈ hostingCluster.objects := (StringMap.mem_iff_get? hsorted).2 hget
  have hobjects : hostingCluster.objects.map Prod.snd =
      [⟨_, (Cluster.created { now := visitingTime } hostingScope).wholeSeconds⟩,
        ⟨_, (Cluster.created { now := visitingTime, revision := 1 } hostingAnchor).wholeSeconds⟩] :=
    rfl
  have hstored : stored ∈ hostingCluster.objects.map Prod.snd := List.mem_map.2 ⟨_, hmem, rfl⟩
  rw [hobjects] at hstored
  simp only [List.mem_cons, List.not_mem_nil, or_false] at hstored
  rcases hstored with rfl | rfl
  · exact hscope
  · exact hanchor

theorem hostingCluster_hasNothingOf (kind : Kind) (name : String) :
    hostingCluster.HasNothingOf (visitingOwner kind name) :=
  forall_hostingCluster rfl rfl

theorem hostingCluster_hasRoomFor : hostingCluster.HasRoomFor (visitingOwner .anchor "edge") := by
  refine hasRoomFor_of_slashless hostingCluster_isQuiet.reachable.sound
    (forall_hostingCluster ?_ ?_) (by decide)
  · exact ⟨by decide, fun scope heq => nomatch heq⟩
  · refine ⟨by decide, fun scope heq => ?_⟩
    obtain rfl := Option.some.inj heq
    decide

theorem visits_leave_no_trace :
    (hostingCluster.IsQuiet ∧ hostingCluster.IsNew visitingAnchor (visitingOwner .anchor "edge") ∧
      hostingCluster.HasRoomFor (visitingOwner .anchor "edge") ∧
      hostingCluster.IsNew visitingFrontend (visitingOwner .frontend "shop")) ∧
    (anchor.Arrives visitingClock visitingAnchor hostingCluster fun installing _ installed =>
      anchor.Departs visitingClock visitingAnchor.key installed fun removing after =>
        after.objects = hostingCluster.objects ∧
        deletions removing = (creations installing).reverse) ∧
    (frontend 5).Arrives visitingClock visitingFrontend hostingCluster fun _ outcome installed =>
      outcome = .ok .reconciled ∧
      (frontend 5).Departs visitingClock visitingFrontend.key installed fun _ after =>
        ∀ path, path ≠ routingPath "team" →
          after.objects.get? path = hostingCluster.objects.get? path := by
  have hanchor : hostingCluster.IsNew visitingAnchor (visitingOwner .anchor "edge") :=
    ⟨rfl, rfl, rfl, rfl, hostingCluster_hasNothingOf .anchor "edge", by decide, by decide⟩
  have hfrontend : hostingCluster.IsNew visitingFrontend (visitingOwner .frontend "shop") :=
    ⟨rfl, rfl, rfl, rfl, hostingCluster_hasNothingOf .frontend "shop", by decide, by decide⟩
  obtain ⟨hanchors, hfrontends⟩ := teardown_restores hostingCluster_isQuiet visitingClock
  refine ⟨⟨hostingCluster_isQuiet, hanchor, hostingCluster_hasRoomFor, hfrontend⟩, ?_, ?_⟩
  · obtain ⟨_, born, hcreate, _, hdeparts⟩ := hanchors _ _ hanchor hostingCluster_hasRoomFor
    exact ⟨_, born, hcreate, hdeparts⟩
  · obtain ⟨_, born, hcreate, hdeparts⟩ := hfrontends 5 _ _ hfrontend
    have hreconciled : (((frontend 5).pass visitingFrontend.key).run (serveAt visitingClock)
        born).1 = .ok .reconciled := by
      obtain rfl : (serveAt visitingClock (.create .frontend visitingFrontend) hostingCluster).2 =
        born := congrArg Prod.snd hcreate
      rfl
    exact ⟨_, born, hcreate, hreconciled, (hdeparts hreconciled).mono fun _ _ hrest => hrest.1⟩

end Duty

end EdgeOperator
