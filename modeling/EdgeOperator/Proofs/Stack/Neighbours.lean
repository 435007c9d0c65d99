import EdgeOperator.Proofs.Stack.Passes

set_option autoImplicit false

/-! # Two stacks side by side

Two anchors have got their stacks, one of them is deleted, and its stack is taken down. A component of
the other anchor is kept if no component of the first is under the same path, or if it was made for
the other anchor, which is to say that the first pass was for that one
(`Cluster.HoldsPair.hasComponent_iff`). The scope of an anchor is named after the anchor alone, so
anchors of one name in two namespaces have a scope in common, and whoever came first takes it along
(`Cluster.neighbour_keeps_scope_iff`). -/

namespace EdgeOperator

open Cluster

/-! ## Visits -/

/-- The anchor that an event is a pass for. -/
def Event.visited? : Event → Option ObjectKey
  | .anchorPass key => some key
  | .frontendPass _ _ | .call _ | .fail _ _ _ _ | .clock _ => none

/-- Whether an event is a pass for one of some anchors, or the passing of time. -/
def Event.IsVisit (keys : List ObjectKey) : Event → Prop
  | .anchorPass key => key ∈ keys
  | .clock _ => True
  | .frontendPass _ _ | .call _ | .fail _ _ _ _ => False

theorem Event.IsVisit.isOnAnchors {keys : List ObjectKey} {event : Event} (h : event.IsVisit keys) :
    event.IsOnAnchors := by
  cases event with
  | anchorPass key | clock now => trivial
  | frontendPass attempts key | call request | fail call code reason times => exact h.elim

/-! ## Scopes -/

namespace Component

variable {owner other : Owner}

/-- Whether a component belongs to the scope of its anchor: it is the scope, or it lives there. -/
def IsOfScope (component : Component) : Prop :=
  component = .nameSpace ∨ component.kind.isClusterScoped = false

instance (component : Component) : Decidable component.IsOfScope :=
  inferInstanceAs (Decidable (_ ∨ _))

theorem IsOfScope.isShared_eq {component : Component} (h : component.IsOfScope) :
    component.isShared = false := by
  rcases h with rfl | hscope
  · rfl
  · cases component with
    | clusterRole | admissionClusterRole => exact absurd hscope (by decide)
    | _ => rfl

theorem IsOfScope.not_isTakenFor {component : Component} (h : component.IsOfScope)
    (another : Component) : ¬ component.IsTakenFor other another owner ∧
      ¬ another.IsTakenFor owner component other := by
  constructor <;> rintro ⟨hfirst, hsecond, _⟩ <;> subst hfirst hsecond <;>
    exact absurd h (by decide)

/-- The paths in a scope are those of another stack just if the names are the same. -/
theorem exists_path_eq_iff {component : Component} (h : component.IsOfScope) :
    (∃ own : Component, own.path owner = component.path other) ↔ owner.name = other.name := by
  constructor
  · rintro ⟨own, hpath⟩
    rcases (same_object_iff h.isShared_eq).1 (eq_of_path hpath.symm) with hsame | htaken | htaken
    · exact hsame.2.symm
    · exact absurd htaken (h.not_isTakenFor own).1
    · exact absurd htaken (h.not_isTakenFor own).2
  · intro hname
    exact ⟨component, by rw [path, path, component.key_congr hname]⟩

end Component

namespace Cluster

variable {cluster before middle after : Cluster} {key neighbour : ObjectKey} {owner other : Owner}
  {stage : LifeStage} {keys : List ObjectKey} {events : List Event}

/-- Whether the anchor with a key is an owner and lives. -/
def Lives (cluster : Cluster) (key : ObjectKey) (owner : Owner) : Prop :=
  ∃ stage : LifeStage, stage.IsLive ∧ cluster.HasAnchor key owner stage

/-- Whether all that is stored but anchors is still there, and anchors have at most got their
marks. -/
structure Extends (before after : Cluster) : Prop where
  kept : ∀ path (object : AnyResource), object.kind ≠ .anchor →
    before.objects.get? path = some object → after.objects.get? path = some object
  anchors : ∀ key owner stage, before.HasAnchor key owner stage →
    after.HasAnchor key owner stage ∨ stage = .unmarked ∧ after.HasAnchor key owner .marked

namespace Extends

theorem of_objects (h : after.objects = before.objects) : Extends before after where
  kept path object _ hget := h ▸ hget
  anchors key owner stage hanchor := by
    obtain ⟨anchor, hfind, hrest⟩ := hanchor
    have hsame := congrArg (StringMap.get? · (key.path .anchor)) h
    exact Or.inl ⟨anchor, (find?_congr hsame).trans hfind, hrest⟩

theorem trans (h : Extends before middle) (hlater : Extends middle after) : Extends before after where
  kept path object hkind hget := hlater.kept path object hkind (h.kept path object hkind hget)
  anchors key owner stage hanchor := by
    rcases h.anchors key owner stage hanchor with hsame | ⟨hunmarked, hmarked⟩
    · exact hlater.anchors key owner stage hsame
    · rcases hlater.anchors key owner .marked hmarked with hsame | ⟨hfalse, _⟩
      · exact Or.inr ⟨hunmarked, hsame⟩
      · cases hfalse

theorem lives (h : Extends before after) (hlives : before.Lives key owner) :
    after.Lives key owner := by
  obtain ⟨stage, hlive, hanchor⟩ := hlives
  rcases h.anchors key owner stage hanchor with hsame | ⟨_, hmarked⟩
  · exact ⟨stage, hlive, hsame⟩
  · exact ⟨.marked, Or.inr rfl, hmarked⟩

/-- Only an anchor without its mark changes. -/
theorem hasAnchor (h : Extends before after) (hanchor : before.HasAnchor key owner stage)
    (hstage : stage ≠ .unmarked) : after.HasAnchor key owner stage :=
  (h.anchors key owner stage hanchor).resolve_right fun hunmarked => hstage hunmarked.1

theorem hasComponent (h : Extends before after) {component : Component}
    (hcomponent : before.HasComponent owner component) : after.HasComponent owner component := by
  obtain ⟨object, hfind⟩ := hcomponent
  exact ⟨object, find?_eq_some.2 (h.kept _ _ (by simp) (find?_eq_some.1 hfind))⟩

end Extends

/-- Other anchors are left alone by a teardown. -/
theorem TakesDown.lives {place : String} (h : TakesDown owner place before after)
    (hlives : before.Lives neighbour other) (hne : neighbour.path .anchor ≠ place) :
    after.Lives neighbour other := by
  obtain ⟨stage, hlive, anchor, hfind, hrest⟩ := hlives
  have hfree : ¬ before.ControlsAt owner (neighbour.path .anchor) := by
    rintro ⟨⟨component, hpath⟩, _⟩
    exact component.path_ne_anchor owner neighbour hpath
  exact ⟨stage, hlive, anchor, (find?_congr (h.kept _ hne hfree)).trans hfind, hrest⟩

namespace HostsStacks

/-- A pass for an anchor that lives takes nothing away. -/
theorem extends_pass (h : cluster.HostsStacks) (hlives : cluster.Lives key owner) :
    Extends cluster (cluster.undergo (.anchorPass key)) := by
  obtain ⟨stage, hlive, hanchor⟩ := hlives
  obtain ⟨_, hputs, hmarked⟩ := h.pass_putsUp hanchor hlive
  refine ⟨fun path object hkind hget => ?_, fun other holder first hother => ?_⟩
  · refine hputs.kept path object ?_ hget
    rintro rfl
    exact hkind (h.quiet.reachable.sound.kind_eq_anchor hget)
  · by_cases hplace : other.path .anchor = key.path .anchor
    · -- it is the anchor itself, and it is marked now if it was not before
      have hsame : cluster.HasAnchor key holder first := by
        unfold HasAnchor at hother ⊢
        rwa [hplace] at hother
      obtain ⟨rfl, rfl⟩ := hanchor.unique hsame
      have hnow : (cluster.undergo (.anchorPass key)).HasAnchor other owner .marked := by
        unfold HasAnchor at hmarked ⊢
        rwa [hplace]
      rcases hlive with rfl | rfl
      · exact Or.inr ⟨rfl, hnow⟩
      · exact Or.inl hnow
    · obtain ⟨anchor, hfind, hrest⟩ := hother
      exact Or.inl ⟨anchor, find?_eq_some.2 (hputs.kept _ _ hplace (find?_eq_some.1 hfind)), hrest⟩

/-- Visits to anchors that live take nothing away. -/
theorem extends_visits (h : cluster.HostsStacks)
    (hlives : ∀ key ∈ keys, ∃ owner, cluster.Lives key owner)
    (hevents : ∀ event ∈ events, event.IsVisit keys) : Extends cluster (cluster.after events) := by
  induction events generalizing cluster with
  | nil => exact .of_objects rfl
  | cons event rest ih =>
    have hevent := hevents event (List.mem_cons_self ..)
    have hrest : ∀ later ∈ rest, later.IsVisit keys :=
      fun later hlater => hevents later (List.mem_cons_of_mem _ hlater)
    have hstep : Extends cluster (cluster.undergo event) := by
      cases event with
      | anchorPass key =>
        obtain ⟨owner, howner⟩ := hlives key hevent
        exact h.extends_pass howner
      | clock now => exact .of_objects rfl
      | frontendPass attempts key | call request | fail call code reason times =>
        exact hevent.elim
    have hstill : ∀ key ∈ keys, ∃ owner, (cluster.undergo event).Lives key owner :=
      fun key hkey => (hlives key hkey).imp fun _ => hstep.lives
    exact hstep.trans (ih (h.undergo hevent.isOnAnchors) hstill hrest)

/-- Whoever was visited has its stack and its mark. -/
theorem visited (h : cluster.HostsStacks)
    (hlives : ∀ key ∈ keys, ∃ owner, cluster.Lives key owner)
    (hevents : ∀ event ∈ events, event.IsVisit keys) (hvisit : .anchorPass key ∈ events)
    (howner : cluster.Lives key owner) :
    (cluster.after events).HasAnchor key owner .marked ∧
      ∀ component, (cluster.after events).HasComponent owner component := by
  obtain ⟨earlier, later, rfl⟩ := List.append_of_mem hvisit
  have hearlier : ∀ event ∈ earlier, event.IsVisit keys :=
    fun event hevent => hevents event (List.mem_append_left _ hevent)
  have hlater : ∀ event ∈ later, event.IsVisit keys := fun event hevent =>
    hevents event (List.mem_append_right _ (List.mem_cons_of_mem _ hevent))
  have hfirst := h.extends_visits hlives hearlier
  have hhosts := h.after_events fun event hevent => (hearlier event hevent).isOnAnchors
  obtain ⟨stage, hlive, hanchor⟩ := hfirst.lives howner
  obtain ⟨_, hputs, hmarked⟩ := hhosts.pass_putsUp hanchor hlive
  have hthen := hfirst.trans (hhosts.extends_pass (hfirst.lives howner))
  have hlast := (hhosts.pass key).2.extends_visits
    (fun key hkey => (hlives key hkey).imp fun _ => hthen.lives) hlater
  rw [after_append]
  exact ⟨hlast.hasAnchor hmarked (by simp), fun component =>
    hlast.hasComponent (hputs.present component)⟩

/-- All visits return that everything is in place. -/
theorem reconciled_visits (h : cluster.HostsStacks)
    (hlives : ∀ key ∈ keys, ∃ owner, cluster.Lives key owner)
    (hevents : ∀ event ∈ events, event.IsVisit keys) (earlier : List Event) (key : ObjectKey)
    (later : List Event) (hsplit : events = earlier ++ .anchorPass key :: later) :
    (cluster.after earlier).PassesTo (.anchorPass key) .reconciled := by
  subst hsplit
  have hearlier : ∀ event ∈ earlier, event.IsVisit keys :=
    fun event hevent => hevents event (List.mem_append_left _ hevent)
  have hkey : key ∈ keys :=
    hevents (.anchorPass key) (List.mem_append_right _ (List.mem_cons_self ..))
  obtain ⟨owner, howner⟩ := hlives key hkey
  obtain ⟨stage, hlive, hanchor⟩ := (h.extends_visits hlives hearlier).lives howner
  have hhosts := h.after_events fun event hevent => (hearlier event hevent).isOnAnchors
  exact (hhosts.pass_putsUp hanchor hlive).1

/-- By its deletion an anchor with its mark comes to be torn down. -/
theorem delete_anchor (h : cluster.HostsStacks) (hanchor : cluster.HasAnchor key owner .marked) :
    (cluster.undergo (.call (.delete .anchor key))).HasAnchor key owner .tearingDown := by
  obtain ⟨anchor, hfind, howner, hstage⟩ := hanchor
  obtain ⟨hlive, hmark⟩ := Metadata.lifeStage_eq_marked.1 hstage
  obtain ⟨asked, after, hserve, _, hobjects⟩ := h.quiet.serve_delete (fun _ => cluster.now) hfind
  rw [if_neg (by simp [List.ne_nil_of_mem hmark]), if_neg (by simp [hlive])] at hobjects
  have hafter : cluster.undergo (.call (.delete .anchor key)) = after :=
    congrArg Prod.snd ((serveAt_now _ cluster).symm.trans hserve)
  refine ⟨(asked.marked anchor).wholeSeconds, ?_, howner,
    Metadata.lifeStage_eq_tearingDown.2 ⟨rfl, hmark⟩⟩
  rw [hafter, find?_eq_some, hobjects, StringMap.get?_set, if_pos rfl]

end HostsStacks

/-! ## Two anchors -/

/-- Whether a quiet cluster holds two anchors that live and are owners, and nothing else. -/
structure HoldsPair (cluster : Cluster) (key neighbour : ObjectKey) (owner other : Owner) :
    Prop where
  quiet : cluster.IsQuiet
  first : cluster.Lives key owner
  second : cluster.Lives neighbour other
  apart : key.path .anchor ≠ neighbour.path .anchor
  alone : ∀ path object, cluster.objects.get? path = some object →
    path = key.path .anchor ∨ path = neighbour.path .anchor

/-- Whether events are passes for two anchors, in any order, so that each is visited. -/
structure IsSetup (key neighbour : ObjectKey) (setup : List Event) : Prop where
  visits : ∀ event ∈ setup, event.IsVisit [key, neighbour]
  first : .anchorPass key ∈ setup
  second : .anchorPass neighbour ∈ setup

/-- Some pass of the setup comes first. -/
theorem IsSetup.exists_leader {setup : List Event} (hsetup : IsSetup key neighbour setup) :
    ∃ leader ∈ [key, neighbour], setup.findSome? Event.visited? = some leader := by
  obtain ⟨leader, hleader⟩ : ∃ leader, setup.findSome? Event.visited? = some leader := by
    refine Option.isSome_iff_exists.1 (List.findSome?_isSome_iff.2 ?_)
    exact ⟨.anchorPass key, hsetup.first, rfl⟩
  obtain ⟨event, hevent, hvisited⟩ := List.exists_of_findSome?_eq_some hleader
  have hvisit := hsetup.visits event hevent
  cases event with
  | anchorPass visited =>
    obtain rfl : visited = leader := Option.some.inj hvisited
    exact ⟨visited, hvisit, hleader⟩
  | clock now => cases hvisited
  | frontendPass attempts key | call request | fail call code reason times => exact hvisit.elim

/-- The events until the stack of an anchor is taken down: the anchor and a neighbour have got their
stacks, the anchor is deleted, and there may be more visits to the neighbour. -/
def untilTeardown (key : ObjectKey) (setup waiting : List Event) : List Event :=
  setup ++ .call (.delete .anchor key) :: waiting

namespace HoldsPair

variable {setup waiting : List Event} {leader : ObjectKey} {maker : Owner}

theorem hostsStacks (h : cluster.HoldsPair key neighbour owner other) : cluster.HostsStacks where
  quiet := h.quiet
  stored path object hget := by
    rcases h.alone path object hget with rfl | rfl
    · exact Or.inl (h.quiet.reachable.sound.kind_eq_anchor hget)
    · exact Or.inl (h.quiet.reachable.sound.kind_eq_anchor hget)

theorem lives (h : cluster.HoldsPair key neighbour owner other) :
    ∀ visited ∈ [key, neighbour], ∃ holder, cluster.Lives visited holder := by
  simp only [List.forall_mem_cons, List.not_mem_nil, false_imp_iff, implies_true, and_true]
  exact ⟨⟨owner, h.first⟩, ⟨other, h.second⟩⟩

theorem at_time (h : cluster.HoldsPair key neighbour owner other) (now : Timestamp) :
    HoldsPair { cluster with now := now } key neighbour owner other where
  quiet := (h.hostsStacks.at_time now).quiet
  first := h.first
  second := h.second
  apart := h.apart
  alone := h.alone

/-- No component is there yet. -/
theorem absent (h : cluster.HoldsPair key neighbour owner other) (component : Component) :
    cluster.objects.get? (component.path maker) = none := by
  cases hget : cluster.objects.get? (component.path maker) with
  | none => rfl
  | some object =>
    rcases h.alone _ object hget with hpath | hpath
    · exact absurd hpath (component.path_ne_anchor maker key)
    · exact absurd hpath (component.path_ne_anchor maker neighbour)

/-- What the first pass has put up stays as it was made. -/
theorem made_by_first (h : cluster.HoldsPair key neighbour owner other)
    (hvisits : ∀ event ∈ setup, event.IsVisit [key, neighbour])
    (hfirst : setup.findSome? Event.visited? = some leader) (hmaker : cluster.Lives leader maker)
    (component : Component) :
    ∃ object, (cluster.after setup).objects.get? (component.path maker) = some object ∧
      object.metadata.ownerReferences = [maker.reference] := by
  induction setup generalizing cluster with
  | nil => cases hfirst
  | cons event rest ih =>
    have hrest : ∀ later ∈ rest, later.IsVisit [key, neighbour] :=
      fun later hlater => hvisits later (List.mem_cons_of_mem _ hlater)
    cases event with
    | clock now => exact ih (h.at_time now) hrest hfirst hmaker
    | frontendPass attempts key | call request | fail call code reason times =>
      exact (hvisits _ (List.mem_cons_self ..)).elim
    | anchorPass visited =>
      obtain rfl : visited = leader := Option.some.inj hfirst
      have hextends := h.hostsStacks.extends_pass hmaker
      obtain ⟨stage, hlive, hanchor⟩ := hmaker
      obtain ⟨_, hputs, _⟩ := h.hostsStacks.pass_putsUp hanchor hlive
      obtain ⟨object, hfind⟩ := hputs.present component
      obtain ⟨_, _, hmade⟩ := hputs.added _ _ (component.path_ne_anchor maker visited)
        (h.absent component) (find?_eq_some.1 hfind)
      have hlater := (h.hostsStacks.pass visited).2.extends_visits
        (fun key hkey => (h.lives key hkey).imp fun _ => hextends.lives) hrest
      exact ⟨_, hlater.kept _ _ (by simp) (find?_eq_some.1 hfind), hmade.references_eq⟩

/-- When the anchor is to be torn down, the neighbour and all that the setup has put up are still
there. -/
theorem until_teardown (h : cluster.HoldsPair key neighbour owner other)
    (hsetup : IsSetup key neighbour setup) (hwaiting : ∀ event ∈ waiting, event.IsVisit [neighbour]) :
    (cluster.after (untilTeardown key setup waiting)).HostsStacks ∧
      (cluster.after (untilTeardown key setup waiting)).HasAnchor key owner .tearingDown ∧
      (cluster.after (untilTeardown key setup waiting)).Lives neighbour other ∧
      ∀ path (object : AnyResource), object.kind ≠ .anchor →
        (cluster.after setup).objects.get? path = some object →
        (cluster.after (untilTeardown key setup waiting)).objects.get? path = some object := by
  have hhosts := h.hostsStacks.after_events fun event hevent =>
    (hsetup.visits event hevent).isOnAnchors
  obtain ⟨hmarked, _⟩ := h.hostsStacks.visited h.lives hsetup.visits hsetup.first h.first
  obtain ⟨hother, _⟩ := h.hostsStacks.visited h.lives hsetup.visits hsetup.second h.second
  let deletion := Request.delete .anchor key
  have hwritten : ∀ kind, deletion.writtenKind? = some kind → kind = .anchor :=
    fun kind hkind => (Option.some.inj hkind).symm
  have htarget : deletion.target? ≠ some (neighbour.path .anchor) :=
    fun heq => h.apart (Option.some.inj heq)
  obtain ⟨hkeeps, hdeleted⟩ := hhosts.call hwritten
  have hstill : ((cluster.after setup).undergo (.call deletion)).Lives neighbour other := by
    obtain ⟨anchor, hfind, hrest⟩ := hother
    exact ⟨.marked, Or.inr rfl, anchor, (find?_congr (get?_serve_of_ne htarget)).trans hfind, hrest⟩
  have hwaited := hdeleted.extends_visits
    (List.forall_mem_singleton.2 ⟨other, hstill⟩) hwaiting
  rw [untilTeardown, after_append]
  refine ⟨hdeleted.after_events fun event hevent => (hwaiting event hevent).isOnAnchors,
    hwaited.hasAnchor (hhosts.delete_anchor hmarked) (by simp), hwaited.lives hstill,
    fun path object hkind hget => ?_⟩
  exact hwaited.kept path object hkind ((hkeeps path object hkind).2 hget)

/-- What both anchors have a component for is controlled by the anchor that is torn down, unless the
other one came first. -/
theorem controls_shared_iff (h : cluster.HoldsPair key neighbour owner other)
    (hsetup : IsSetup key neighbour setup) {own component : Component}
    (hpath : own.path owner = component.path other) {object : AnyResource}
    (hget : (cluster.after setup).objects.get? (component.path other) = some object) :
    owner.controls object.metadata = true ↔
      ¬ (setup.findSome? Event.visited? = some neighbour ∧
        owner.reference.uid ≠ other.reference.uid) := by
  obtain ⟨leader, hmem, hleader⟩ := hsetup.exists_leader
  rw [hleader]
  rcases List.mem_pair.1 hmem with rfl | rfl
  · obtain ⟨_, _, anchor, _, howner, _⟩ := h.first
    obtain ⟨same, hsame, hreferences⟩ := h.made_by_first hsetup.visits hleader h.first own
    obtain rfl := Option.some.inj ((hpath ▸ hsame).symm.trans hget)
    refine iff_of_true (Owner.controls_of_ownerReferences howner hreferences) ?_
    rintro ⟨heq, _⟩
    exact h.apart (Option.some.inj heq ▸ rfl)
  · obtain ⟨_, _, anchor, _, hother, _⟩ := h.second
    obtain ⟨same, hsame, hreferences⟩ := h.made_by_first hsetup.visits hleader h.second component
    obtain rfl := Option.some.inj (hsame.symm.trans hget)
    rw [Owner.controls_iff_of_ownerReferences hother hreferences]
    simp

/-- A component of the neighbour is kept if it is under no path of the other stack, or if the
neighbour came first. -/
theorem hasComponent_iff (h : cluster.HoldsPair key neighbour owner other)
    (hsetup : IsSetup key neighbour setup) (hwaiting : ∀ event ∈ waiting, event.IsVisit [neighbour])
    (component : Component) :
    ((cluster.after (untilTeardown key setup waiting)).undergo (.anchorPass key)).HasComponent other
        component ↔
      (∀ own : Component, own.path owner ≠ component.path other) ∨
        setup.findSome? Event.visited? = some neighbour ∧
          owner.reference.uid ≠ other.reference.uid := by
  obtain ⟨hhosts, htearing, _, hkept⟩ := h.until_teardown hsetup hwaiting
  obtain ⟨_, htakes⟩ := hhosts.pass_takesDown htearing
  obtain ⟨_, hstack⟩ := h.hostsStacks.visited h.lives hsetup.visits hsetup.second h.second
  obtain ⟨object, hfind⟩ := hstack component
  have hget := find?_eq_some.1 hfind
  have hnow := hkept _ _ (by simp) hget
  have hne := component.path_ne_anchor other key
  have hcontrols : (cluster.after (untilTeardown key setup waiting)).ControlsAt owner
      (component.path other) ↔ ¬ ((∀ own : Component, own.path owner ≠ component.path other) ∨
        setup.findSome? Event.visited? = some neighbour ∧
          owner.reference.uid ≠ other.reference.uid) := by
    rw [not_or, not_forall_not]
    refine and_congr_right fun ⟨own, hpath⟩ => ?_
    rw [← h.controls_shared_iff hsetup hpath hget]
    constructor
    · rintro ⟨same, hsame, hcontrols⟩
      rwa [← Option.some.inj (hsame.symm.trans hnow)]
    · exact fun hcontrols => ⟨_, hnow, hcontrols⟩
  -- the component is there until the teardown, so it is gone just if the teardown takes it
  rw [← not_iff_not, ← hcontrols]
  constructor
  · intro hgone
    by_contra hfree
    exact hgone ⟨object, find?_eq_some.2 ((htakes.kept _ hne hfree).trans hnow)⟩
  · rintro hcontrolled ⟨still, hstill⟩
    exact absurd ((htakes.gone _ hcontrolled).symm.trans (find?_eq_some.1 hstill)) (by simp)

end HoldsPair

/-! ## The main result -/

/-- **The scope of a neighbour.** Two anchors that are alone in a cluster get their stacks, in any
order, and then one of them is deleted and torn down. All passes return what they should, and the
other anchor keeps what it has in its scope, and the scope, if the anchors have different names or
if it was visited first; if neither is so, all of that is gone. -/
theorem neighbour_keeps_scope_iff (h : cluster.HoldsPair key neighbour owner other)
    {setup waiting : List Event} (hsetup : IsSetup key neighbour setup)
    (hwaiting : ∀ event ∈ waiting, event.IsVisit [neighbour]) :
    (∀ earlier visited later, setup = earlier ++ .anchorPass visited :: later →
      (cluster.after earlier).PassesTo (.anchorPass visited) .reconciled) ∧
    (cluster.after (untilTeardown key setup waiting)).PassesTo (.anchorPass key) .tornDown ∧
    ∀ component : Component, component.IsOfScope →
      (((cluster.after (untilTeardown key setup waiting)).undergo (.anchorPass key)).HasComponent
          other component ↔
        owner.name ≠ other.name ∨ setup.findSome? Event.visited? = some neighbour ∧
          owner.reference.uid ≠ other.reference.uid) := by
  obtain ⟨hhosts, htearing, _⟩ := h.until_teardown hsetup hwaiting
  refine ⟨h.hostsStacks.reconciled_visits h.lives hsetup.visits,
    (hhosts.pass_takesDown htearing).1, fun component hscope => ?_⟩
  rw [h.hasComponent_iff hsetup hwaiting, ← not_exists, Component.exists_path_eq_iff hscope]

/-! ## Namesakes

An anchor `edge` in the namespace `east` and one in `west` both have the scope `edge-ns`. -/

/-- An anchor as a user creates it. -/
def anchorIn (scope name : String) : Resource .anchor where
  metadata :=
    { name? := some name, namespaceName? := some scope, uid? := some (scope ++ "-" ++ name) }
  content := {}

/-- The anchor as the owner of its stack. -/
def ownerIn (scope name : String) : Owner :=
  ⟨name, scope, ⟨Kind.anchor.apiVersion, none, some true, Kind.anchor.name, name,
    scope ++ "-" ++ name⟩⟩

/-- The creation of two anchors. -/
def openingOf (first second : Resource .anchor) : List Event :=
  [.call (.create .anchor first), .call (.create .anchor second)]

/-- The cluster in which two anchors were created. -/
def pairOf (first second : Resource .anchor) : Cluster :=
  Cluster.after { now := openingTime } (openingOf first second)

theorem after_openingOf (first second : Resource .anchor) (events : List Event) (event : Event) :
    Cluster.after { now := openingTime } (openingOf first second ++ (events ++ [event])) =
      ((pairOf first second).after events).undergo event := by
  rw [after_append, after_append]
  rfl

theorem isQuiet_pairOf (first second : Resource .anchor) : (pairOf first second).IsQuiet :=
  ((isQuiet_empty openingTime).serve _).serve _

theorem alone_of_paths {first second : String}
    (h : cluster.objects.map Prod.fst = [first, second]) (path : String) (object : AnyResource)
    (hget : cluster.objects.get? path = some object) : path = first ∨ path = second := by
  have hmem : path ∈ cluster.objects.map Prod.fst :=
    List.mem_map.2 ⟨_, StringMap.mem_of_get? hget, rfl⟩
  rw [h] at hmem
  exact List.mem_pair.1 hmem

/-- Both anchors of the name. -/
def namesakes : Cluster :=
  pairOf (anchorIn "east" "edge") (anchorIn "west" "edge")

def eastKey : ObjectKey :=
  .inNamespace "east" "edge"

def westKey : ObjectKey :=
  .inNamespace "west" "edge"

theorem holdsPair_namesakes :
    namesakes.HoldsPair eastKey westKey (ownerIn "east" "edge") (ownerIn "west" "edge") where
  quiet := isQuiet_pairOf ..
  first := ⟨.unmarked, Or.inl rfl, _, rfl, rfl, rfl⟩
  second := ⟨.unmarked, Or.inl rfl, _, rfl, rfl, rfl⟩
  apart := by decide
  alone := alone_of_paths rfl

theorem isSetup_pair (key neighbour : ObjectKey) :
    IsSetup key neighbour [.anchorPass key, .anchorPass neighbour] ∧
      IsSetup key neighbour [.anchorPass neighbour, .anchorPass key] := by
  constructor <;> constructor <;> simp [Event.IsVisit]

/-- When the western anchor was visited first, it keeps its scope. -/
theorem first_visited_keeps_scope :
    namesakes.HoldsPair eastKey westKey (ownerIn "east" "edge") (ownerIn "west" "edge") ∧
      IsSetup eastKey westKey [.anchorPass westKey, .anchorPass eastKey] ∧
      ∀ component : Component, component.IsOfScope →
        ((namesakes.after (untilTeardown eastKey [.anchorPass westKey, .anchorPass eastKey]
          [])).undergo (.anchorPass eastKey)).HasComponent (ownerIn "west" "edge") component := by
  have hsetup := (isSetup_pair eastKey westKey).2
  have hkeeps := (neighbour_keeps_scope_iff holdsPair_namesakes hsetup (List.forall_mem_nil _)).2.2
  exact ⟨holdsPair_namesakes, hsetup, fun component hscope =>
    (hkeeps component hscope).2 (Or.inr ⟨rfl, by decide⟩)⟩

/-- When the eastern anchor was visited first, the western one has nothing left of its scope. -/
theorem namesake_loses_scope :
    namesakes.HoldsPair eastKey westKey (ownerIn "east" "edge") (ownerIn "west" "edge") ∧
      (ownerIn "east" "edge").namespaceName ≠ (ownerIn "west" "edge").namespaceName ∧
      (ownerIn "east" "edge").reference.uid ≠ (ownerIn "west" "edge").reference.uid ∧
      '/' ∉ "edge".toList ∧
      namesakes.PassesTo (.anchorPass eastKey) .reconciled ∧
      (namesakes.after [.anchorPass eastKey]).PassesTo (.anchorPass westKey) .reconciled ∧
      (namesakes.after (untilTeardown eastKey [.anchorPass eastKey, .anchorPass westKey]
        [])).PassesTo (.anchorPass eastKey) .tornDown ∧
      ∀ component : Component, component.IsOfScope →
        ¬ ((namesakes.after (untilTeardown eastKey [.anchorPass eastKey, .anchorPass westKey]
          [])).undergo (.anchorPass eastKey)).HasComponent (ownerIn "west" "edge") component := by
  have h := holdsPair_namesakes
  have hsetup := (isSetup_pair eastKey westKey).1
  have hreconciled := h.hostsStacks.reconciled_visits h.lives hsetup.visits
  obtain ⟨hhosts, htearing, _⟩ := h.until_teardown hsetup (List.forall_mem_nil _)
  refine ⟨h, by decide, by decide, by decide, hreconciled [] eastKey _ rfl,
    hreconciled [.anchorPass eastKey] westKey [] rfl, (hhosts.pass_takesDown htearing).1,
    fun component hscope => ?_⟩
  rw [h.hasComponent_iff hsetup (List.forall_mem_nil _), ← not_exists,
    Component.exists_path_eq_iff hscope]
  rintro (hnames | ⟨hfirst, _⟩)
  · exact hnames rfl
  · exact absurd hfirst (by decide)

end Cluster

end EdgeOperator
