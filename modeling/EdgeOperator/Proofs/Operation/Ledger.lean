import EdgeOperator.Proofs.Operation.Provision

set_option autoImplicit false

/-! # Who holds the routes of a namespace

Where users write nothing but frontends and the operator does its passes for them, the routes of a
namespace change by one thing only: a pass that reconciles a frontend there merges in the route of
that frontend, as it was found (`Cluster.CarriesRoutes.undergo`). So after such a run each
pattern is held by the last frontend that was reconciled with it, and by no other
(`Cluster.mem_routesOf_iff_holds`). A frontend that asks for another pattern than before goes on
holding the old one, until another frontend takes it. -/

namespace EdgeOperator

open Cluster

/-! ## What a frontend asks for -/

namespace Resource

/-- Whether a frontend asks to be the host of its namespace. -/
def isHost (frontend : Resource .frontend) : Bool :=
  (FrontendContent.spec frontend.content).isHost

/-- The pattern that a frontend asks for. -/
def ownPattern (frontend : Resource .frontend) : String :=
  routePattern frontend.metadata.displayName frontend.isHost

/-- The name of the service of a frontend. -/
def ownService (frontend : Resource .frontend) : String :=
  Names.frontendService frontend.metadata.displayName

/-- The port that a frontend listens on. -/
def ownPort (frontend : Resource .frontend) : Int32 :=
  (FrontendContent.spec frontend.content).port

/-- Where the route of a frontend leads to. -/
def ownBackend (frontend : Resource .frontend) : Backend :=
  .ofService frontend.ownService frontend.ownPort

/-- The route that a frontend asks for. -/
def ownRoute (frontend : Resource .frontend) : IngressPath :=
  .route frontend.ownPattern frontend.ownBackend

end Resource

/-! ## Passes that reconcile -/

/-- Whether an event is on frontends: the passing of time, a pass for one, or a call that writes
nothing else. -/
def Event.IsOnFrontends : Event → Prop
  | .call request => ∀ kind, request.writtenKind? = some kind → kind = .frontend
  | .frontendPass _ _ | .clock _ => True
  | .anchorPass _ | .fail _ _ _ _ => False

theorem Event.isOnFrontends_create (frontend : Resource .frontend) :
    (Event.call (.create .frontend frontend)).IsOnFrontends :=
  fun _ hkind => (Option.some.inj hkind).symm

theorem Event.isOnFrontends_replace (frontend : Resource .frontend) :
    (Event.call (.replace .frontend frontend)).IsOnFrontends :=
  fun _ hkind => (Option.some.inj hkind).symm

namespace Cluster

variable {cluster start : Cluster} {scope : String} {frontend other : Resource .frontend}
  {event : Event}

/-- Whether an event is a pass that reconciles a frontend of a namespace, as it is found here. -/
inductive Reconciles (cluster : Cluster) (scope : String) (frontend : Resource .frontend) :
    Event → Prop where
  | pass {attempts : Nat} {key : ObjectKey}
      (hfind : cluster.find? .frontend (key.path .frontend) = some frontend)
      (hscope : frontend.metadata.namespaceName? = some scope)
      (hreconciled : (((Duty.frontend attempts).pass key).run serve cluster).1 = .ok .reconciled) :
      Reconciles cluster scope frontend (.frontendPass attempts key)

theorem Reconciles.unique (h : cluster.Reconciles scope frontend event)
    (h' : cluster.Reconciles scope other event) : frontend = other := by
  cases h with
  | pass hfind _ _ =>
    cases h' with
    | pass hfind' _ _ => exact Option.some.inj (hfind.symm.trans hfind')

/-- A run of events on frontends goes on with a pass. -/
theorem Reconciles.forall_isOnFrontends (h : cluster.Reconciles scope frontend event)
    {events : List Event} (hevents : ∀ event ∈ events, event.IsOnFrontends) :
    ∀ other ∈ events ++ [event], other.IsOnFrontends := by
  cases h
  exact List.forall_mem_append.2 ⟨hevents, List.forall_mem_singleton.2 trivial⟩

/-- What an event does to the routes of a namespace: it merges in the route of the frontend that it
reconciles there, if it does that. -/
structure StepsRoutes (cluster : Cluster) (scope : String) (event : Event) : Prop where
  merges : ∀ frontend, cluster.Reconciles scope frontend event →
    (cluster.undergo event).routesOf scope =
      (mergePath (cluster.routesOf scope) frontend.ownPattern frontend.ownBackend).paths
  keeps : (∀ frontend, ¬ cluster.Reconciles scope frontend event) →
    (cluster.undergo event).routesOf scope = cluster.routesOf scope

/-- Whether a cluster is one in which passes for frontends of a namespace can bring their routes in
place. -/
structure CarriesRoutes (cluster : Cluster) (scope : String) : Prop where
  calm : cluster.IsCalm
  anchored : cluster.IsAnchored scope
  lives : cluster.RoutingLives scope

/-- Whether a pass for a frontend writes no route into another namespace than that of the
frontend. -/
def RoutesAtHome (cluster : Cluster) (key : ObjectKey) : Prop :=
  ∀ frontend scope, cluster.find? .frontend (key.path .frontend) = some frontend →
    frontend.metadata.namespaceName? = some scope → cluster.FindsOwnAnchor scope

/-! ## One event -/

theorem FindsOwnAnchor.of_leaves {after : Cluster} (h : cluster.FindsOwnAnchor scope)
    (hleaves : Leaves .anchor cluster after) : after.FindsOwnAnchor scope := by
  unfold FindsOwnAnchor
  rw [hleaves.listed_eq]
  exact h

theorem IsAnchored.of_leaves {after : Cluster} (h : cluster.IsAnchored scope)
    (hleaves : Leaves .anchor cluster after) : after.IsAnchored scope where
  own := h.own.of_leaves hleaves
  found := by
    rw [hleaves.listed_eq]
    exact h.found

/-- An ingress with the outline that it had has the routes that it had. -/
theorem routes_of_outline {after : Cluster}
    (h : after.outline (routingPath scope) = cluster.outline (routingPath scope)) :
    after.routesOf scope = cluster.routesOf scope ∧
      (cluster.RoutingLives scope → after.RoutingLives scope) := by
  constructor
  · cases hfind : after.find? .ingress (routingPath scope) with
    | some ingress =>
      rw [outline_of_find? hfind] at h
      obtain ⟨former, hformer, houtline⟩ := find?_of_outline h.symm
      rw [routesOf_of_find? hfind, routesOf_of_find? hformer]
      have hcontent := congrArg Resource.content houtline
      exact congrArg IngressContent.routes hcontent.symm
    | none =>
      cases hformer : cluster.find? .ingress (routingPath scope) with
      | none => simp only [routesOf, hfind, hformer]
      | some former =>
        rw [outline_of_find? hformer] at h
        obtain ⟨_, hsome, _⟩ := find?_of_outline h
        exact absurd (hsome.symm.trans hfind) (by simp)
  · intro hlives ingress hfind
    rw [outline_of_find? hfind] at h
    obtain ⟨former, hformer, houtline⟩ := find?_of_outline h.symm
    have hdeletion := congrArg (fun r : Resource .ingress => r.metadata.deletionTimestamp?.isSome)
      houtline
    exact hdeletion.symm.trans (hlives former hformer)

theorem routes_of_leaves {after : Cluster} (h : Leaves .ingress cluster after) :
    after.routesOf scope = cluster.routesOf scope ∧
      (cluster.RoutingLives scope → after.RoutingLives scope) := by
  refine ⟨?_, fun hlives ingress hfind => hlives ingress ((h.find?_eq _).symm.trans hfind)⟩
  simp only [routesOf, h.find?_eq]

theorem leaves_clock (now : Timestamp) (kind : Kind) :
    Leaves kind cluster (cluster.undergo (.clock now)) := by
  have hobjects : (cluster.undergo (.clock now)).objects = cluster.objects := rfl
  exact leaves_of_objects hobjects kind

/-- Events on frontends leave the anchors. -/
theorem IsCalm.leaves_anchors (h : cluster.IsCalm) (hevent : event.IsOnFrontends) :
    (cluster.undergo event).IsCalm ∧ Leaves .anchor cluster (cluster.undergo event) := by
  cases event with
  | anchorPass key => exact hevent.elim
  | frontendPass attempts key => exact Duty.frontend_pass_leaves attempts key h
  | call request =>
    exact ⟨h.serve request, h.leaves fun hkind => absurd (hevent _ hkind) (by simp)⟩
  | fail call code reason times => exact hevent.elim
  | clock now => exact ⟨h.clock now, leaves_clock now .anchor⟩

/-- A pass that does not reconcile a frontend of the namespace leaves its routes. -/
theorem CarriesRoutes.pass_keeps (h : cluster.CarriesRoutes scope) (attempts : Nat)
    {key : ObjectKey} (hhome : cluster.RoutesAtHome key)
    (hother : ∀ frontend, ¬ cluster.Reconciles scope frontend (.frontendPass attempts key)) :
    (cluster.undergo (.frontendPass attempts key)).routesOf scope = cluster.routesOf scope ∧
      (cluster.undergo (.frontendPass attempts key)).RoutingLives scope := by
  obtain ⟨hprovides, hleaves⟩ := Duty.frontend_pass_provides attempts key h.calm
  by_cases hreconciled : (((Duty.frontend attempts).pass key).run serve cluster).1 = .ok .reconciled
  · obtain ⟨read, owner, hread⟩ := hprovides hreconciled
    have hspace := Owner.namespaceName?_of_ofResource hread.owner_eq
    have hne : scope ≠ owner.namespaceName := by
      rintro rfl
      exact hother read (.pass hread.found hspace hreconciled)
    obtain ⟨hroutes, hlives⟩ := routes_of_outline
      (hread.outline_other h.calm.sound (hhome read _ hread.found hspace) hne)
    exact ⟨hroutes, hlives h.lives⟩
  · obtain ⟨hroutes, hlives⟩ := routes_of_leaves (hleaves hreconciled)
    exact ⟨hroutes, hlives h.lives⟩

/-- A pass that reconciles a frontend has provided for it, as its owner. -/
theorem Reconciles.provides (h : cluster.Reconciles scope frontend event) (hcalm : cluster.IsCalm) :
    ∃ attempts key owner, event = .frontendPass attempts key ∧
      Duty.Provides attempts key cluster frontend owner (cluster.undergo event) ∧
      owner.name = frontend.metadata.displayName ∧ owner.namespaceName = scope := by
  obtain @⟨attempts, key, hfind, hscope, hreconciled⟩ := h
  obtain ⟨read, owner, hread⟩ := (Duty.frontend_pass_provides attempts key hcalm).1 hreconciled
  obtain rfl := Option.some.inj (hread.found.symm.trans hfind)
  have hspace := Owner.namespaceName?_of_ofResource hread.owner_eq
  exact ⟨attempts, key, owner, rfl, hread, Owner.name_of_ofResource hread.owner_eq,
    Option.some.inj (hspace.symm.trans hscope)⟩

/-- A pass that reconciles a frontend of the namespace merges in its route. -/
theorem CarriesRoutes.pass_merges (h : cluster.CarriesRoutes scope)
    (hreconciles : cluster.Reconciles scope frontend event) :
    (cluster.undergo event).routesOf scope =
        (mergePath (cluster.routesOf scope) frontend.ownPattern frontend.ownBackend).paths ∧
      (cluster.undergo event).RoutingLives scope := by
  obtain ⟨_, _, owner, _, hprovides, hname, rfl⟩ := hreconciles.provides h.calm
  obtain ⟨hlives, hroutes⟩ := hprovides.routes_eq h.calm.sound h.anchored h.lives
  refine ⟨?_, hlives⟩
  rw [Resource.ownPattern, Resource.ownBackend, Resource.ownService, ← hname]
  exact hroutes

/-- An event on frontends leaves a cluster in which further ones work, and has done to the routes
what it should. -/
theorem CarriesRoutes.undergo (h : cluster.CarriesRoutes scope) (hevent : event.IsOnFrontends)
    (hhome : ∀ attempts key, event = .frontendPass attempts key → cluster.RoutesAtHome key) :
    (cluster.undergo event).CarriesRoutes scope ∧ cluster.StepsRoutes scope event := by
  obtain ⟨hcalm, hanchors⟩ := h.calm.leaves_anchors hevent
  -- in each case: what becomes of the routes, and that the ingress lives on
  have hrest : cluster.StepsRoutes scope event ∧ (cluster.undergo event).RoutingLives scope := by
    have hidle : ∀ {after : Cluster}, cluster.undergo event = after →
        (∀ frontend, ¬ cluster.Reconciles scope frontend event) → Leaves .ingress cluster after →
          cluster.StepsRoutes scope event ∧ (cluster.undergo event).RoutingLives scope := by
      rintro _ rfl hother hleaves
      obtain ⟨hroutes, hlives⟩ := routes_of_leaves hleaves
      exact ⟨⟨fun frontend hpass => absurd hpass (hother frontend), fun _ => hroutes⟩,
        hlives h.lives⟩
    cases event with
    | anchorPass key => exact hevent.elim
    | fail call code reason times => exact hevent.elim
    | clock now => exact hidle rfl (fun _ hpass => nomatch hpass) (leaves_clock now .ingress)
    | call request =>
      exact hidle rfl (fun _ hpass => nomatch hpass)
        (h.calm.leaves fun hkind => absurd (hevent _ hkind) (by simp))
    | frontendPass attempts key =>
      by_cases hpass : ∃ frontend, cluster.Reconciles scope frontend (.frontendPass attempts key)
      · obtain ⟨frontend, hpass⟩ := hpass
        refine ⟨⟨fun other hother => (h.pass_merges hother).1, fun hnone => ?_⟩,
          (h.pass_merges hpass).2⟩
        exact absurd hpass (hnone frontend)
      · have hnone := not_exists.1 hpass
        obtain ⟨hroutes, hlives⟩ := h.pass_keeps attempts (hhome attempts key rfl) hnone
        exact ⟨⟨fun other hother => absurd hother (hnone other), fun _ => hroutes⟩, hlives⟩
  exact ⟨⟨hcalm, h.anchored.of_leaves hanchors, hrest.2⟩, hrest.1⟩

/-! ## Holders -/

/-- Whether a frontend, as it was found by a pass, is the last one that was reconciled with its
pattern in a run. -/
inductive Holds (start : Cluster) (scope : String) : List Event → Resource .frontend → Prop where
  | gained {earlier : List Event} {event : Event} {frontend : Resource .frontend}
      (hreconciles : (start.after earlier).Reconciles scope frontend event) :
      Holds start scope (earlier ++ [event]) frontend
  | kept {earlier : List Event} {event : Event} {frontend : Resource .frontend}
      (hholds : Holds start scope earlier frontend)
      (hothers : ∀ other, (start.after earlier).Reconciles scope other event →
        other.ownPattern ≠ frontend.ownPattern) :
      Holds start scope (earlier ++ [event]) frontend

theorem not_holds_nil : ¬ Holds start scope [] frontend := by
  intro h
  generalize hevents : ([] : List Event) = events at h
  cases h <;> simp at hevents

theorem holds_append_singleton {earlier : List Event} :
    Holds start scope (earlier ++ [event]) frontend ↔
      (start.after earlier).Reconciles scope frontend event ∨
        Holds start scope earlier frontend ∧
          ∀ other, (start.after earlier).Reconciles scope other event →
            other.ownPattern ≠ frontend.ownPattern := by
  constructor
  · intro h
    generalize hevents : earlier ++ [event] = events at h
    cases h with
    | gained hreconciles =>
      obtain ⟨rfl, hlast⟩ := List.append_inj' hevents rfl
      obtain rfl := List.singleton_inj.1 hlast
      exact Or.inl hreconciles
    | kept hholds hothers =>
      obtain ⟨rfl, hlast⟩ := List.append_inj' hevents rfl
      obtain rfl := List.singleton_inj.1 hlast
      exact Or.inr ⟨hholds, hothers⟩
  · rintro (hreconciles | ⟨hholds, hothers⟩)
    · exact .gained hreconciles
    · exact .kept hholds hothers

/-- Where each event of a run does to the routes what it should, the routes at its end are those of
the frontends that hold their patterns, and no pattern is there twice. -/
theorem mem_routesOf_iff_holds {events : List Event} (hstart : start.routesOf scope = [])
    (hsteps : ∀ earlier event, earlier ++ [event] <+: events →
      (start.after earlier).StepsRoutes scope event) :
    (patterns ((start.after events).routesOf scope)).Nodup ∧
      ∀ entry, entry ∈ (start.after events).routesOf scope ↔
        ∃ frontend, Holds start scope events frontend ∧ frontend.ownRoute = entry := by
  induction events using List.reverseRecOn with
  | nil =>
    rw [after, List.foldl_nil, hstart]
    exact ⟨List.nodup_nil, fun entry => by simp [not_holds_nil]⟩
  | append_singleton earlier event ih =>
    obtain ⟨hnodup, hmem⟩ := ih fun front next hfront =>
      hsteps front next (hfront.trans (List.prefix_append ..))
    have hstep := hsteps earlier event (List.prefix_refl _)
    rw [after_append]
    change (patterns (((start.after earlier).undergo event).routesOf scope)).Nodup ∧
      ∀ entry, entry ∈ ((start.after earlier).undergo event).routesOf scope ↔ _
    by_cases hpass : ∃ frontend, (start.after earlier).Reconciles scope frontend event
    · obtain ⟨served, hserved⟩ := hpass
      rw [hstep.merges served hserved]
      refine ⟨nodup_patterns_mergePath hnodup _ _, fun entry => ?_⟩
      have hroutes : ∀ path ∈ (start.after earlier).routesOf scope,
          ∃ pattern backend, path = .route pattern backend := by
        intro path hpath
        obtain ⟨holder, -, rfl⟩ := (hmem path).1 hpath
        exact ⟨_, _, rfl⟩
      rw [mem_mergePath hnodup hroutes, hmem]
      constructor
      · rintro (rfl | ⟨⟨holder, hholds, rfl⟩, hne⟩)
        · exact ⟨served, .gained hserved, rfl⟩
        · refine ⟨holder, .kept hholds fun other hother heq => hne ?_, rfl⟩
          obtain rfl := hserved.unique hother
          exact congrArg some heq.symm
      · rintro ⟨holder, hholds, rfl⟩
        rcases holds_append_singleton.1 hholds with hnew | ⟨hold, hothers⟩
        · obtain rfl := hserved.unique hnew
          exact Or.inl rfl
        · exact Or.inr ⟨⟨holder, hold, rfl⟩, fun heq =>
            hothers served hserved (Option.some.inj heq).symm⟩
    · have hnone := not_exists.1 hpass
      rw [hstep.keeps hnone]
      refine ⟨hnodup, fun entry => (hmem entry).trans (exists_congr fun holder => and_congr_left' ?_)⟩
      rw [holds_append_singleton]
      simp [hnone]

/-! ## From an anchor on -/

/-- A cluster in which a user has created an anchor, and nothing else. -/
def opening (now : Timestamp) (anchor : Resource .anchor) : Cluster :=
  (serve (.create .anchor anchor) { now := now }).2

/-- Whether an anchor is one that a user may create in a namespace. -/
structure CanOpen (scope : String) (anchor : Resource .anchor) : Prop where
  named : ∃ name, anchor.metadata.name? = some name ∧ '/' ∉ name.toList
  housed : anchor.metadata.namespaceName? = some scope
  live : anchor.metadata.isDeleted = false

section Opening

variable {now : Timestamp} {anchor : Resource .anchor}

/-- The anchor as it is stored. -/
def openingAnchor (now : Timestamp) (anchor : Resource .anchor) : Resource .anchor :=
  (created { now := now } anchor).wholeSeconds

theorem opening_objects : (opening now anchor).objects =
    [(anchor.path, ⟨.anchor, openingAnchor now anchor⟩)] := rfl

theorem opening_isCalm : (opening now anchor).IsCalm :=
  (isCalm_empty now).serve _

theorem opening_find?_of_ne {kind : Kind} (hkind : kind ≠ .anchor) (path : String) :
    (opening now anchor).find? kind path = none := by
  cases hfind : (opening now anchor).find? kind path with
  | none => rfl
  | some object =>
    have hmem := StringMap.mem_of_get? (find?_eq_some.1 hfind)
    rw [opening_objects, List.mem_singleton] at hmem
    exact absurd (congrArg (fun entry => entry.2.kind) hmem) hkind

/-- The anchor is found in its namespace only. -/
theorem CanOpen.findsOwnAnchor (h : CanOpen scope anchor) (other : String) :
    (opening now anchor).FindsOwnAnchor other := by
  intro found owner hfirst howner
  obtain ⟨hfind, segment, hsegment, hpath⟩ :=
    mem_listed opening_isCalm.sound (Anchor.mem_of_first? hfirst).1
  have hmem := StringMap.mem_of_get? (find?_eq_some.1 hfind)
  rw [opening_objects, List.mem_singleton] at hmem
  obtain rfl : found = openingAnchor now anchor := by
    simpa using congrArg Prod.snd hmem
  obtain ⟨name, hname, hslash⟩ := h.named
  have hkey : '/' ∉ (openingAnchor now anchor).key.name.toList := by
    have hdisplay : anchor.metadata.displayName = name := by simp only [Metadata.displayName, hname]
    exact (congrArg (fun text : String => '/' ∉ text.toList) hdisplay).mpr hslash
  have hscopes := ObjectKey.eq_of_path_listed _ hkey h.housed hsegment hpath
  have hspace := Owner.namespaceName?_of_ofResource howner
  exact hscopes ▸ Option.some.inj (hspace.symm.trans h.housed)

theorem CanOpen.listed_eq (h : CanOpen scope anchor) :
    (opening now anchor).listed .anchor (some scope) = [openingAnchor now anchor] := by
  obtain ⟨name, hname, hslash⟩ := h.named
  have hpath : (listPrefix .anchor (some scope)).toList ++ name.toList = anchor.path.toList := by
    simp only [Resource.path, Resource.key, Metadata.key, Metadata.displayName, hname, h.housed,
      ObjectKey.path, listPrefix, String.toList_append]
  have hprefix := List.isPrefixOf?_eq_some_iff_append_eq.2 hpath
  have hslash' : name.toList.contains '/' = false := by simpa using hslash
  simp only [listed, opening_objects, List.filterMap_cons, List.filterMap_nil, hprefix, hslash']
  rfl

theorem CanOpen.carriesRoutes (h : CanOpen scope anchor) :
    (opening now anchor).CarriesRoutes scope where
  calm := opening_isCalm
  anchored := by
    refine ⟨h.findsOwnAnchor scope, openingAnchor now anchor, ?_⟩
    obtain ⟨name, hname, -⟩ := h.named
    refine ⟨_, ?_, Owner.ofResource_eq_ok.2 ⟨name, scope, _, hname, h.housed, rfl, rfl⟩⟩
    have hlive : (openingAnchor now anchor).metadata.isDeleted = false :=
      (Option.isSome_map ..).trans h.live
    rw [h.listed_eq, Anchor.first?, List.filter_singleton, hlive]
    rfl
  lives := fun ingress hfind => by
    rw [opening_find?_of_ne (by simp)] at hfind
    cases hfind

/-- In a run of events on frontends each does to the routes what it should. -/
theorem CanOpen.run (h : CanOpen scope anchor) {events : List Event}
    (hevents : ∀ event ∈ events, event.IsOnFrontends) :
    ((opening now anchor).after events).CarriesRoutes scope ∧
      ∀ other, ((opening now anchor).after events).FindsOwnAnchor other := by
  induction events using List.reverseRecOn with
  | nil => exact ⟨h.carriesRoutes, h.findsOwnAnchor⟩
  | append_singleton earlier event ih =>
    obtain ⟨hcarries, hown⟩ := ih fun front hfront => hevents front (List.mem_append_left _ hfront)
    have hevent := hevents event (List.mem_append_right _ (List.mem_singleton_self _))
    rw [after_append]
    refine ⟨(hcarries.undergo hevent fun _ _ _ _ other _ _ => hown other).1, fun other => ?_⟩
    exact (hown other).of_leaves (hcarries.calm.leaves_anchors hevent).2

theorem gateAnchor_canOpen : CanOpen "team" gateAnchor :=
  ⟨⟨"gate", rfl, by decide⟩, rfl, rfl⟩

/-- After a run of events on frontends the routes are those of the frontends that hold their
patterns, and no pattern is there twice. -/
theorem CanOpen.mem_routesOf_iff (h : CanOpen scope anchor) {events : List Event}
    (hevents : ∀ event ∈ events, event.IsOnFrontends) :
    (patterns (((opening now anchor).after events).routesOf scope)).Nodup ∧
      ∀ entry, entry ∈ ((opening now anchor).after events).routesOf scope ↔
        ∃ frontend, Holds (opening now anchor) scope events frontend ∧
          frontend.ownRoute = entry := by
  refine mem_routesOf_iff_holds ?_ fun earlier event hearlier => ?_
  · simp only [routesOf, opening_find?_of_ne (by simp : Kind.ingress ≠ .anchor)]
  · have hmem : ∀ other ∈ earlier ++ [event], other.IsOnFrontends :=
      fun other hother => hevents other (hearlier.subset hother)
    obtain ⟨hcarries, hown⟩ := h.run fun other hother => hmem other (List.mem_append_left _ hother)
    refine (hcarries.undergo (hmem event ?_) fun _ _ _ _ space _ _ => hown space).2
    exact List.mem_append_right _ (List.mem_singleton_self _)

end Opening

end Cluster

end EdgeOperator
