import EdgeOperator.Proofs.Operation
import EdgeOperator.Proofs.Quiet.Installation
import EdgeOperator.Proofs.Quiet.Reversal

set_option autoImplicit false

/-! # Passes among stacks

A cluster may hold nothing but anchors and components of their stacks (`Cluster.HostsStacks`). There
a pass for an anchor comes to one of three things (`Cluster.StackPass`): the stack of an anchor that
lives is put up, what an anchor that was deleted has of its stack is taken down, or all stacks stay
as they are. Each leaves a cluster of the same sort (`Cluster.HostsStacks.pass`), and so do the calls
of users who write anchors only (`Cluster.HostsStacks.call`), so a run of both does
(`Cluster.HostsStacks.after_events`). -/

namespace EdgeOperator

open Program Cluster

/-- Whether an object is as a component was made for an owner. -/
structure AnyResource.IsMadeFor (object : AnyResource) (owner : Owner) (component : Component) :
    Prop where
  kind_eq : object.kind = .plain component.kind
  live : object.metadata.isDeleted = false
  unheld : object.metadata.finalizers = []
  references_eq : object.metadata.ownerReferences = [owner.reference]

theorem AnyResource.isMadeFor_of_outline {object : AnyResource} {owner : Owner}
    {component : Component}
    (h : object.outline = (Chore.ofComponent owner component).outline) :
    object.IsMadeFor owner component := by
  obtain ⟨kind, object⟩ := object
  obtain rfl : kind = .plain component.kind := (AnyResource.mk.inj h).1
  have houtline : object.outline = (component.blueprint owner).toResource.wholeSeconds.outline :=
    eq_of_heq (AnyResource.mk.inj h).2
  have hmetadata := congrArg Resource.metadata houtline
  refine ⟨rfl, ?_, ?_, ?_⟩
  · change object.outline.metadata.isDeleted = false
    rw [hmetadata]
    cases component <;> rfl
  · change object.outline.metadata.finalizers = []
    rw [hmetadata]
    cases component <;> rfl
  · change object.outline.metadata.ownerReferences = _
    rw [hmetadata]
    exact component.ownerReferences_blueprint owner

theorem Kind.eq_anchor_of_group :
    ∀ kind ∈ Kind.all, kind.group = Kind.anchor.group → kind = .anchor := by
  decide

/-- Whether nobody has asked for the deletion. -/
def LifeStage.IsLive (stage : LifeStage) : Prop :=
  stage = .unmarked ∨ stage = .marked

theorem Metadata.isLive_lifeStage {m : Metadata} {mark : String} :
    (m.lifeStage mark).IsLive ↔ m.isDeleted = false := by
  unfold LifeStage.IsLive
  rw [lifeStage_eq_unmarked, lifeStage_eq_marked, ← and_or_left, and_iff_left (Classical.em _).symm]

/-- Whether an event is a pass for an anchor, a call that writes nothing but anchors, or the passing
of time. -/
def Event.IsOnAnchors : Event → Prop
  | .anchorPass _ | .clock _ => True
  | .call request => ∀ kind, request.writtenKind? = some kind → kind = .anchor
  | .frontendPass _ _ | .fail _ _ _ _ => False

namespace Cluster

variable {cluster before after : Cluster} {key : ObjectKey} {owner : Owner} {place : String}
  {stage : LifeStage}

/-- Whether the anchor with a key is an owner and at a stage of its life. -/
def HasAnchor (cluster : Cluster) (key : ObjectKey) (owner : Owner) (stage : LifeStage) : Prop :=
  ∃ anchor, cluster.find? .anchor (key.path .anchor) = some anchor ∧
    Owner.ofResource anchor = .ok owner ∧ anchor.metadata.lifeStage Duty.anchor.mark = stage

/-- Whether a component of an owner is stored. -/
def HasComponent (cluster : Cluster) (owner : Owner) (component : Component) : Prop :=
  ∃ object, cluster.find? (.plain component.kind) (component.path owner) = some object

/-- Whether a pass that is the next event has an outcome. -/
def PassesTo (cluster : Cluster) (event : Event) (outcome : PassOutcome) : Prop :=
  ∃ key, event = .anchorPass key ∧ ((Duty.anchor.pass key).run serve cluster).1 = .ok outcome

/-- Whether a cluster is quiet and all that is stored are anchors and what was made for them. -/
structure HostsStacks (cluster : Cluster) : Prop where
  quiet : cluster.IsQuiet
  stored : ∀ path object, cluster.objects.get? path = some object → object.kind = .anchor ∨
    ∃ (component : Component) (owner : Owner), component.path owner = path ∧
      object.IsMadeFor owner component

/-- Whether the objects of all kinds but anchors are the same. -/
def KeepsStacks (before after : Cluster) : Prop :=
  ∀ path (object : AnyResource), object.kind ≠ .anchor →
    (after.objects.get? path = some object ↔ before.objects.get? path = some object)

/-- Whether a cluster has come from another by a pass that has put up a stack for an anchor. -/
structure PutsUp (owner : Owner) (place : String) (before after : Cluster) : Prop where
  kept : ∀ path object, path ≠ place → before.objects.get? path = some object →
    after.objects.get? path = some object
  added : ∀ path object, path ≠ place → before.objects.get? path = none →
    after.objects.get? path = some object → ∃ component : Component,
      component.path owner = path ∧ object.IsMadeFor owner component
  present : ∀ component : Component, after.HasComponent owner component

/-- Whether a path is that of a component of an owner, and the owner controls what is there. -/
def ControlsAt (cluster : Cluster) (owner : Owner) (path : String) : Prop :=
  (∃ component : Component, component.path owner = path) ∧
    ∃ object, cluster.objects.get? path = some object ∧ owner.controls object.metadata = true

/-- Whether a cluster has come from another by a pass that has taken down what an anchor had of its
stack. -/
structure TakesDown (owner : Owner) (place : String) (before after : Cluster) : Prop where
  gone : ∀ path, before.ControlsAt owner path → after.objects.get? path = none
  kept : ∀ path, path ≠ place → ¬ before.ControlsAt owner path →
    after.objects.get? path = before.objects.get? path

/-! ## What is stored among stacks -/

/-- Under the path of an anchor there is nothing else. -/
theorem Sound.kind_eq_anchor (h : cluster.Sound) {object : AnyResource}
    (hget : cluster.objects.get? (key.path .anchor) = some object) : object.kind = .anchor := by
  have hpath : object.resource.key.path object.kind = key.path .anchor := (h.kept hget).path_eq
  exact Kind.eq_anchor_of_group _ object.kind.mem_all (ObjectKey.group_eq_of_path hpath)

theorem HasAnchor.of_find? (h : cluster.HasAnchor key owner stage) {anchor : Resource .anchor}
    (hfind : cluster.find? .anchor (key.path .anchor) = some anchor) :
    Owner.ofResource anchor = .ok owner ∧ anchor.metadata.lifeStage Duty.anchor.mark = stage := by
  obtain ⟨same, hsame, hrest⟩ := h
  obtain rfl := Option.some.inj (hsame.symm.trans hfind)
  exact hrest

theorem not_hasAnchor_of_error {anchor : Resource .anchor} {e : OperatorError}
    (hfind : cluster.find? .anchor (key.path .anchor) = some anchor)
    (howner : Owner.ofResource anchor = .error e) : ¬ cluster.HasAnchor key owner stage :=
  fun h => absurd ((h.of_find? hfind).1.symm.trans howner) (by simp)

theorem HasAnchor.unique {other : Owner} {later : LifeStage} (h : cluster.HasAnchor key owner stage)
    (hother : cluster.HasAnchor key other later) : owner = other ∧ stage = later := by
  obtain ⟨anchor, hfind, howner, hstage⟩ := h
  obtain ⟨hother, hlater⟩ := hother.of_find? hfind
  exact ⟨Except.ok.inj (howner.symm.trans hother), hstage.symm.trans hlater⟩

theorem keepsStacks_of_others (hbefore : before.Sound) (hafter : after.Sound)
    (h : ∀ path, path ≠ key.path .anchor →
      after.objects.get? path = before.objects.get? path) : KeepsStacks before after := by
  intro path object hkind
  by_cases hpath : path = key.path .anchor
  · subst hpath
    exact iff_of_false (fun hget => hkind (hafter.kind_eq_anchor hget))
      fun hget => hkind (hbefore.kind_eq_anchor hget)
  · rw [h path hpath]

theorem keepsStacks_of_objects (h : after.objects = before.objects) : KeepsStacks before after :=
  fun path object _ => by rw [h]

namespace HostsStacks

theorem hasRoomFor (h : cluster.HostsStacks) (owner : Owner) : cluster.HasRoomFor owner := by
  rintro component ⟨kind, object⟩ hget
  rcases h.stored _ _ hget with hkind | ⟨other, _, hpath, hmade⟩
  · obtain rfl : kind = .anchor := hkind
    have hplace : object.key.path .anchor = component.path owner :=
      (h.quiet.reachable.sound.kept hget).path_eq
    exact absurd hplace.symm (component.path_ne_anchor owner _)
  · rw [hmade.kind_eq, (Component.eq_of_path hpath).1]

theorem letsRemove (h : cluster.HostsStacks) (owner : Owner) {step : TeardownStep}
    (hstep : step.kind ≠ .anchor) : cluster.LetsRemove owner step := by
  intro current hfind _
  rcases h.stored _ _ (find?_eq_some.1 hfind) with hkind | ⟨_, _, _, hmade⟩
  · exact absurd hkind hstep
  · exact ⟨hmade.live, hmade.unheld⟩

theorem of_keepsStacks (h : before.HostsStacks) (hquiet : after.IsQuiet)
    (hkeeps : KeepsStacks before after) : after.HostsStacks where
  quiet := hquiet
  stored path object hget := by
    by_cases hkind : object.kind = .anchor
    · exact Or.inl hkind
    · exact h.stored path object ((hkeeps path object hkind).1 hget)

end HostsStacks

/-! ## What passes do to stacks -/

/-- When all components were seen to for an anchor, its stack is put up. -/
theorem Furnished.putsUp {current : Resource .anchor} {exchanges : List Exchange}
    (h : Furnished place ⟨.anchor, current⟩ before
      (Component.creationOrder.map (Chore.ofComponent owner)) exchanges after)
    {anchor : Resource .anchor} (hfind : before.find? .anchor place = some anchor) :
    PutsUp owner place before after where
  kept _ _ hne hget := h.kept hne hget
  added path object hne hnone hget := by
    obtain ⟨chore, hmem, hpath, houtline⟩ := h.added hne hnone hget
    obtain ⟨component, _, rfl⟩ := List.mem_map.1 (List.mem_filter.1 hmem).1
    exact ⟨component, (component.path_ofComponent owner).symm.trans hpath,
      AnyResource.isMadeFor_of_outline houtline⟩
  present component := h.present_component hfind component.mem_creationOrder

theorem PutsUp.hostsStacks (h : PutsUp owner (key.path .anchor) before after)
    (hbefore : before.HostsStacks) (hquiet : after.IsQuiet) : after.HostsStacks where
  quiet := hquiet
  stored path object hget := by
    by_cases hplace : path = key.path .anchor
    · subst hplace
      exact Or.inl (hquiet.reachable.sound.kind_eq_anchor hget)
    · cases hbeforeGet : before.objects.get? path with
      | some former =>
        obtain rfl := Option.some.inj ((h.kept path former hplace hbeforeGet).symm.trans hget)
        exact hbefore.stored path former hbeforeGet
      | none =>
        obtain ⟨component, hmade⟩ := h.added path object hplace hbeforeGet hget
        exact Or.inr ⟨component, owner, hmade⟩

/-- What is cleared of the plan of an anchor is what it has of its stack. -/
theorem Cleared.takesDown (hbefore : before.HostsStacks) {deleted : List TeardownStep}
    {cleared : Cluster} (h : Cleared owner owner.anchorTeardown before deleted cleared)
    (hafter : ∀ path, path ≠ key.path .anchor →
      after.objects.get? path = cleared.objects.get? path) :
    TakesDown owner (key.path .anchor) before after where
  gone path hcontrols := by
    obtain ⟨⟨component, rfl⟩, ⟨kind, object⟩, hget, hcontrols⟩ := hcontrols
    obtain rfl : kind = .plain component.kind := hbefore.hasRoomFor owner component _ hget
    have hstep : component.teardownStep owner ∈ owner.anchorTeardown :=
      List.mem_cons_of_mem _ (List.mem_map_of_mem (List.mem_reverse.2 component.mem_creationOrder))
    have howns : before.owns owner (component.teardownStep owner) = true :=
      owns_eq_true.2 ⟨object, find?_eq_some.2 hget, hcontrols⟩
    rw [hafter _ (component.path_ne_anchor owner key)]
    exact h.gone _ hstep howns
  kept path hne hfree := by
    rw [hafter path hne]
    refine h.kept path fun step hstep howns hpath => ?_
    obtain ⟨object, hfind, hcontrols⟩ := owns_eq_true.1 howns
    rcases List.mem_cons.1 hstep with rfl | hstep
    · -- there are no ingresses among stacks
      rcases hbefore.stored _ _ (find?_eq_some.1 hfind) with hkind | ⟨component, _, _, hmade⟩
      · cases hkind
      · cases hmade.kind_eq
    · obtain ⟨component, _, rfl⟩ := List.mem_map.1 hstep
      exact hfree ⟨⟨component, hpath⟩, ⟨_, object⟩, hpath ▸ find?_eq_some.1 hfind, hcontrols⟩

theorem TakesDown.hostsStacks (h : TakesDown owner (key.path .anchor) before after)
    (hbefore : before.HostsStacks) (hquiet : after.IsQuiet) : after.HostsStacks where
  quiet := hquiet
  stored path object hget := by
    by_cases hplace : path = key.path .anchor
    · subst hplace
      exact Or.inl (hquiet.reachable.sound.kind_eq_anchor hget)
    · by_cases hcontrols : before.ControlsAt owner path
      · rw [h.gone path hcontrols] at hget
        cases hget
      · rw [h.kept path hplace hcontrols] at hget
        exact hbefore.stored path object hget

/-- What a pass for an anchor comes to: the anchor lives and its stack is put up, or it was deleted
and its stack is taken down, or it is none of the operator's business and all stacks stay. -/
inductive StackPass (cluster : Cluster) (key : ObjectKey) :
    Except OperatorError PassOutcome → Cluster → Prop where
  | putsUp {owner : Owner} {stage : LifeStage} {after : Cluster} (hlive : stage.IsLive)
      (hanchor : cluster.HasAnchor key owner stage)
      (hputs : PutsUp owner (key.path .anchor) cluster after)
      (hmarked : after.HasAnchor key owner .marked) :
      StackPass cluster key (.ok .reconciled) after
  | takesDown {owner : Owner} {after : Cluster} (hanchor : cluster.HasAnchor key owner .tearingDown)
      (htakes : TakesDown owner (key.path .anchor) cluster after) :
      StackPass cluster key (.ok .tornDown) after
  | keeps {result : Except OperatorError PassOutcome} {after : Cluster}
      (hidle : ∀ owner stage, cluster.HasAnchor key owner stage → stage = .released)
      (hreconciled : result ≠ .ok .reconciled) (htornDown : result ≠ .ok .tornDown)
      (hkeeps : KeepsStacks cluster after) : StackPass cluster key result after

namespace HostsStacks

variable {clock : Nat → Timestamp} {anchor : Resource .anchor}

theorem pass_of_live (h : cluster.HostsStacks)
    (hfind : cluster.find? .anchor (key.path .anchor) = some anchor)
    (hlive : anchor.metadata.isDeleted = false) (howner : Owner.ofResource anchor = .ok owner) :
    (Duty.anchor.pass key).Unfolds (serveAt clock) cluster fun _ result after =>
      StackPass cluster key result after ∧ after.HostsStacks := by
  refine Duty.unfolds_pass_of_live h.quiet hfind hlive ?_
  intro claiming middle settled hmade _ hmiddle hclaims hsettled
  obtain ⟨current, hclaim, hfurnished⟩ := hclaims.furnished .anchor hmade
  have hroom : middle.HasRoomFor owner := by
    intro component object hget
    rw [hclaims.others _ (component.path_ne_anchor owner key)] at hget
    exact h.hasRoomFor owner component object hget
  have hstart : Furnished (key.path .anchor) ⟨.anchor, current⟩ cluster
      (([] : List Component).map (Chore.ofComponent owner)) claiming middle := hfurnished
  have hinstall : (ensureComponents owner Component.creationOrder).Unfolds
      (serveAt clock) middle _ := ensureComponents_furnished hstart Component.nodup_creationOrder
  have hbuilding : (ensureComponents owner Component.creationOrder).Unfolds
      (serveAt clock) middle _ := ensureComponents_of_quiet hmiddle hroom _
  refine Duty.settle_unfolds (hsettled.trans howner) ?_
  refine (hmiddle.keeping (hinstall.and hbuilding)).mono ?_
  rintro building result after ⟨⟨⟨finished, _, hall, hfurnished⟩, hok, _⟩, hafter⟩
  obtain rfl := hall hok
  subst hok
  have hputs := hfurnished.putsUp hfind
  have hmarked : after.HasAnchor key owner .marked :=
    ⟨current, find?_eq_some.2 hfurnished.held, hclaim.ofResource_eq.trans howner, hclaim.lifeStage⟩
  exact ⟨.putsUp (Metadata.isLive_lifeStage.2 hlive) ⟨anchor, hfind, howner, rfl⟩ hputs hmarked,
    hputs.hostsStacks h hafter⟩

theorem pass_of_deleted (h : cluster.HostsStacks)
    (hfind : cluster.find? .anchor (key.path .anchor) = some anchor)
    (hstage : anchor.metadata.lifeStage Duty.anchor.mark = .tearingDown)
    (howner : Owner.ofResource anchor = .ok owner) :
    (Duty.anchor.pass key).Unfolds (serveAt clock) cluster fun _ result after =>
      StackPass cluster key result after ∧ after.HostsStacks := by
  have hremovable : ∀ step ∈ Duty.anchor.teardownPlan owner, cluster.LetsRemove owner step :=
    fun step hstep => h.letsRemove owner (Duty.IsOperators.anchor.kind_ne owner step hstep)
  refine (Duty.pass_clears .anchor h.quiet hfind hstage howner
    (Duty.anchor_takesBack howner).distinct hremovable).mono ?_
  rintro removing result after ⟨rfl, cleared, hcleared, hafter, version, hobjects⟩
  have htakes : TakesDown owner (key.path .anchor) cluster after := by
    refine Cleared.takesDown h hcleared fun path hne => ?_
    rw [hobjects]
    split
    · rw [StringMap.get?_erase, if_neg hne.symm]
    · rw [StringMap.get?_set, if_neg hne.symm]
  exact ⟨.takesDown ⟨anchor, hfind, howner, hstage⟩ htakes, htakes.hostsStacks h hafter⟩

/-- An anchor that lives and is no owner gets no more than its mark. -/
theorem pass_of_no_owner (h : cluster.HostsStacks)
    (hfind : cluster.find? .anchor (key.path .anchor) = some anchor)
    (hlive : anchor.metadata.isDeleted = false) {e : OperatorError}
    (howner : Owner.ofResource anchor = .error e) :
    (Duty.anchor.pass key).Unfolds (serveAt clock) cluster fun _ result after =>
      StackPass cluster key result after ∧ after.HostsStacks := by
  refine Duty.unfolds_pass_of_live h.quiet hfind hlive ?_
  intro claiming middle settled _ _ hmiddle hclaims hsettled
  have hfail : Duty.anchor.settle settled anchor = Program.fail e := by
    unfold Duty.settle
    rw [hsettled, howner]
  rw [hfail]
  have hkeeps : KeepsStacks cluster middle :=
    keepsStacks_of_others h.quiet.reachable.sound hmiddle.reachable.sound hclaims.others
  have hidle : ∀ owner stage, cluster.HasAnchor key owner stage → stage = .released :=
    fun _ _ hanchor => absurd hanchor (not_hasAnchor_of_error hfind howner)
  exact unfolds_fail.2 ⟨.keeps hidle (by simp) (by simp) hkeeps, h.of_keepsStacks hmiddle hkeeps⟩

/-- A pass that ends when it has looked leaves all stacks. -/
theorem pass_of_done (h : cluster.HostsStacks) (result : Except OperatorError PassOutcome)
    (hserve : Duty.anchor.serveFound (cluster.find? .anchor (key.path .anchor)) = .done result)
    (hidle : ∀ owner stage, cluster.HasAnchor key owner stage → stage = .released)
    (hreconciled : result ≠ .ok .reconciled) (htornDown : result ≠ .ok .tornDown) :
    (Duty.anchor.pass key).Unfolds (serveAt clock) cluster fun _ result after =>
      StackPass cluster key result after ∧ after.HostsStacks := by
  obtain ⟨looked, hget, hlooked, hobjects⟩ := h.quiet.serve_get clock .anchor key
  rw [Duty.pass_eq]
  refine unfolds_bind.2 (unfolds_perform.2 ?_)
  rw [hget]
  dsimp only
  rw [hserve]
  have hkeeps := keepsStacks_of_objects hobjects
  exact ⟨.keeps hidle hreconciled htornDown hkeeps, h.of_keepsStacks hlooked hkeeps⟩

theorem unfolds_pass (h : cluster.HostsStacks) (key : ObjectKey) :
    (Duty.anchor.pass key).Unfolds (serveAt clock) cluster fun _ result after =>
      StackPass cluster key result after ∧ after.HostsStacks := by
  cases hfind : cluster.find? .anchor (key.path .anchor) with
  | none =>
    refine h.pass_of_done (.ok .removed) (by rw [hfind]; rfl) ?_ (by simp) (by simp)
    rintro owner stage ⟨anchor, hanchor, _⟩
    exact absurd (hfind.symm.trans hanchor) (by simp)
  | some anchor =>
    by_cases hlive : anchor.metadata.isDeleted = false
    · cases howner : Owner.ofResource anchor with
      | ok owner => exact h.pass_of_live hfind hlive howner
      | error e => exact h.pass_of_no_owner hfind hlive howner
    · cases hstage : anchor.metadata.lifeStage Duty.anchor.mark with
      | unmarked => exact absurd (Metadata.lifeStage_eq_unmarked.1 hstage).1 hlive
      | marked => exact absurd (Metadata.lifeStage_eq_marked.1 hstage).1 hlive
      | released =>
        refine h.pass_of_done (.ok .removed) ?_ ?_ (by simp) (by simp)
        · rw [hfind]
          simp only [Duty.serveFound, hstage]
          rfl
        · exact fun owner stage hanchor => (hanchor.of_find? hfind).2.symm.trans hstage
      | tearingDown =>
        cases howner : Owner.ofResource anchor with
        | ok owner => exact h.pass_of_deleted hfind hstage howner
        | error e =>
          refine h.pass_of_done (.error e) ?_ ?_ (by simp) (by simp)
          · rw [hfind]
            simp only [Duty.serveFound, hstage, Duty.dismantle, howner]
            rfl
          · exact fun _ _ hanchor => absurd hanchor (not_hasAnchor_of_error hfind howner)

/-- Every pass comes to one of these, and leaves a cluster of stacks. -/
theorem pass (h : cluster.HostsStacks) (key : ObjectKey) :
    StackPass cluster key ((Duty.anchor.pass key).run serve cluster).1
        (cluster.undergo (.anchorPass key)) ∧
      (cluster.undergo (.anchorPass key)).HostsStacks :=
  ((ends_of_unfolds_now (h.unfolds_pass key)).mono fun _ _ hpost => hpost.elim fun _ => id :
    (Duty.anchor.pass key).Ends serve cluster fun result after =>
      StackPass cluster key result after ∧ after.HostsStacks)

/-- A pass for an anchor that lives puts up its stack and leaves it marked. -/
theorem pass_putsUp (h : cluster.HostsStacks) (hanchor : cluster.HasAnchor key owner stage)
    (hlive : stage.IsLive) :
    cluster.PassesTo (.anchorPass key) .reconciled ∧
      PutsUp owner (key.path .anchor) cluster (cluster.undergo (.anchorPass key)) ∧
      (cluster.undergo (.anchorPass key)).HasAnchor key owner .marked := by
  obtain ⟨hpass, _⟩ := h.pass key
  generalize hresult : ((Duty.anchor.pass key).run serve cluster).1 = result at hpass
  cases hpass with
  | putsUp _ hother hputs hmarked =>
    obtain ⟨rfl, rfl⟩ := hanchor.unique hother
    exact ⟨⟨key, rfl, hresult⟩, hputs, hmarked⟩
  | takesDown hother _ =>
    obtain ⟨rfl, rfl⟩ := hanchor.unique hother
    exact absurd hlive (by simp [LifeStage.IsLive])
  | keeps hidle _ _ _ =>
    obtain rfl := hidle _ _ hanchor
    exact absurd hlive (by simp [LifeStage.IsLive])

/-- A pass for an anchor that was deleted takes down what the anchor has of its stack. -/
theorem pass_takesDown (h : cluster.HostsStacks)
    (hanchor : cluster.HasAnchor key owner .tearingDown) :
    cluster.PassesTo (.anchorPass key) .tornDown ∧
      TakesDown owner (key.path .anchor) cluster (cluster.undergo (.anchorPass key)) := by
  obtain ⟨hpass, _⟩ := h.pass key
  generalize hresult : ((Duty.anchor.pass key).run serve cluster).1 = result at hpass
  cases hpass with
  | putsUp hlive hother _ _ =>
    obtain ⟨rfl, rfl⟩ := hanchor.unique hother
    exact absurd hlive (by simp [LifeStage.IsLive])
  | takesDown hother htakes =>
    obtain ⟨rfl, _⟩ := hanchor.unique hother
    exact ⟨⟨key, rfl, hresult⟩, htakes⟩
  | keeps hidle _ _ _ => exact absurd (hidle _ _ hanchor) (by simp)

/-! ## Other events -/

/-- A call that writes nothing but anchors leaves all stacks. -/
theorem call (h : cluster.HostsStacks) {request : Request}
    (hrequest : ∀ kind, request.writtenKind? = some kind → kind = .anchor) :
    KeepsStacks cluster (Cluster.serve request cluster).2 ∧
      (Cluster.serve request cluster).2.HostsStacks := by
  have htarget : ∃ key : ObjectKey, ∀ path, path ≠ key.path .anchor →
      request.target? ≠ some path := by
    cases request with
    | get kind key => exact ⟨key, fun _ _ heq => nomatch heq⟩
    | list kind namespaceName? => exact ⟨⟨"", none⟩, fun _ _ heq => nomatch heq⟩
    | create kind object | replace kind object =>
      obtain rfl : kind = .anchor := hrequest kind rfl
      exact ⟨object.key, fun path hne heq => hne (Option.some.inj heq).symm⟩
    | delete kind key =>
      obtain rfl : kind = .anchor := hrequest kind rfl
      exact ⟨key, fun path hne heq => hne (Option.some.inj heq).symm⟩
  obtain ⟨key, htarget⟩ := htarget
  have hafter := h.quiet.serve request
  have hkeeps := keepsStacks_of_others h.quiet.reachable.sound hafter.reachable.sound
    fun path hne => get?_serve_of_ne (htarget path hne)
  exact ⟨hkeeps, h.of_keepsStacks hafter hkeeps⟩

theorem at_time (h : cluster.HostsStacks) (now : Timestamp) :
    HostsStacks { cluster with now := now } where
  quiet := ⟨h.quiet.reachable.clock now, h.quiet.faultless, h.quiet.undisturbed⟩
  stored := h.stored

theorem undergo (h : cluster.HostsStacks) {event : Event} (hevent : event.IsOnAnchors) :
    (cluster.undergo event).HostsStacks := by
  cases event with
  | anchorPass key => exact (h.pass key).2
  | call request => exact (h.call hevent).2
  | clock now => exact h.at_time now
  | frontendPass attempts key | fail call code reason times => exact hevent.elim

theorem after_events (h : cluster.HostsStacks) {events : List Event}
    (hevents : ∀ event ∈ events, event.IsOnAnchors) : (cluster.after events).HostsStacks := by
  induction events generalizing cluster with
  | nil => exact h
  | cons event rest ih =>
    exact ih (h.undergo (hevents event (List.mem_cons_self ..)))
      fun later hlater => hevents later (List.mem_cons_of_mem _ hlater)

end HostsStacks

theorem isQuiet_empty (now : Timestamp) : IsQuiet { now := now } where
  reachable := .empty now
  faultless := by simp [IsFaultless]
  undisturbed path := rfl

theorem hostsStacks_empty (now : Timestamp) : HostsStacks { now := now } where
  quiet := isQuiet_empty now
  stored _ _ hget := nomatch hget

end Cluster

end EdgeOperator
