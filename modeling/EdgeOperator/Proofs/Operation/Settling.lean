import EdgeOperator.Proofs.Operation.Patterns
import EdgeOperator.Proofs.Operation.Standing
import EdgeOperator.Proofs.Quiet.Repetition

set_option autoImplicit false

/-! # Frontends that settle

Passes for frontends of one namespace are made in any order and as often as one likes, until each of
the frontends has been reconciled. What a pass has brought in place for its frontend stands through
all later ones (`Cluster.Rests.stands`), and no other frontend takes its route, unless both are hosts.
So in the end there is one route for each frontend, and no pass has anything left to do, exactly if
at most one of the frontends is a host (`Cluster.settles_iff_one_host`). -/

namespace EdgeOperator

open Program Cluster

/-! ## Later versions of a frontend -/

namespace Resource.IsLaterOf

variable {read later : Resource .frontend}

theorem ownRoute_eq (h : later.IsLaterOf read) : later.ownRoute = read.ownRoute := by
  have hname : later.metadata.displayName = read.metadata.displayName :=
    congrArg ObjectKey.name h.key_eq
  simp only [Resource.ownRoute, Resource.ownPattern, Resource.ownBackend, Resource.ownService,
    Resource.ownPort, Resource.isHost, hname, h.content_eq]

theorem ofResource_eq (h : later.IsLaterOf read) :
    Owner.ofResource later = Owner.ofResource read := by
  simp only [Owner.ofResource, h.name_eq, h.namespaceName?_eq, h.uid_eq]

end Resource.IsLaterOf

/-- Whether an event is a pass for one of some frontends, or the passing of time. -/
def Event.IsFor (frontends : List (Resource .frontend)) : Event → Prop
  | .frontendPass _ key => ∃ frontend ∈ frontends, frontend.key = key
  | .clock _ => True
  | .anchorPass _ | .call _ | .fail _ _ _ _ => False

theorem Event.IsFor.isOnFrontends {frontends : List (Resource .frontend)} {event : Event}
    (h : event.IsFor frontends) : event.IsOnFrontends := by
  cases event with
  | frontendPass attempts key => trivial
  | clock now => trivial
  | anchorPass key => exact h
  | call request => exact h.elim
  | fail call code reason times => exact h

namespace Cluster

variable {cluster start before after : Cluster} {scope : String}
  {frontend read : Resource .frontend} {frontends : List (Resource .frontend)} {event : Event}
  {events : List Event}

/-! ## Frontends that are at rest -/

/-- Whether everything but the route is in place for a frontend: it carries the mark, and its workload
is there. -/
def Rests (cluster : Cluster) (frontend : Resource .frontend) : Prop :=
  ∃ later owner, cluster.find? .frontend frontend.path = some later ∧ later.IsLaterOf frontend ∧
    Names.frontendFinalizer ∈ later.metadata.finalizers ∧ Owner.ofResource later = .ok owner ∧
      ∀ chore ∈ Chore.ofWorkload owner (FrontendContent.spec frontend.content),
        cluster.find? (.plain chore.kind) chore.path ≠ none

theorem Rests.of_isLaterOf (h : cluster.Rests read) (hlater : read.IsLaterOf frontend) :
    cluster.Rests frontend := by
  obtain ⟨later, owner, hfind, hread, hrest⟩ := h
  refine ⟨later, owner, hlater.path_eq ▸ hfind, hlater.trans hread, ?_⟩
  rwa [← hlater.content_eq]

/-- What is in place for a frontend stands through passes for others and for itself. -/
theorem Rests.stands (h : before.Rests frontend)
    (hread : before.find? .frontend read.path = some read) (hstands : Stands read before after) :
    after.Rests frontend := by
  obtain ⟨later, owner, hfind, hlater, hmark, howner, hchores⟩ := h
  have hworkload : ∀ chore ∈ Chore.ofWorkload owner (FrontendContent.spec frontend.content),
      after.find? (.plain chore.kind) chore.path ≠ none := by
    intro chore hmem
    obtain ⟨object, hobject⟩ := Option.ne_none_iff_exists'.1 (hchores chore hmem)
    have hne : chore.path ≠ read.path := by
      intro heq
      have hnone := find?_none_of_kind_ne hread (by simp : Kind.frontend ≠ .plain chore.kind)
      exact absurd (hobject.symm.trans (heq ▸ hnone)) (by simp)
    have hkept := hstands.kept _ _ (find?_eq_some.1 hobject) hne (by simp)
    exact ne_of_eq_of_ne (find?_eq_some.2 hkept) (Option.some_ne_none object)
  obtain ⟨latest, hlatest, hsame⟩ := hstands.exists_later hread hfind
  exact ⟨latest, owner, hlatest, hlater.trans hsame, hsame.finalizers hmark,
    hsame.ofResource_eq.trans howner, hworkload⟩

/-- A pass that reconciles a frontend leaves it at rest. -/
theorem Reconciles.rests (h : cluster.Reconciles scope frontend event) (hcalm : cluster.IsCalm)
    (hanchor : cluster.FindsOwnAnchor scope) : (cluster.undergo event).Rests frontend := by
  obtain ⟨attempts, key, owner, rfl, hprovides, _, rfl⟩ := h.provides hcalm
  have hplace : frontend.path = key.path .frontend :=
    (hcalm.sound.kept (find?_eq_some.1 hprovides.found)).path_eq
  have hstands : Stands frontend cluster (cluster.undergo (.frontendPass attempts key)) :=
    Duty.live_pass_stands attempts hcalm hprovides.found hprovides.live
  obtain ⟨later, hfind, hlater⟩ := hstands.own
  have houtline := hprovides.outline_frontend hcalm.sound hanchor
  rw [← hplace, outline_of_find? hfind] at houtline
  have hclaimed : later.outline = ((Duty.frontend attempts).claimed frontend).outline := by
    simpa using houtline
  have hfinalizers := congrArg (fun r : Resource .frontend => r.metadata.finalizers) hclaimed
  refine ⟨later, owner, hfind, hlater, ?_, hlater.ofResource_eq.trans hprovides.owner_eq,
    hprovides.workload⟩
  exact hfinalizers ▸ Duty.mark_mem_claimed attempts hprovides.live

/-- An ingress with the route that a frontend asks for serves the task of its owner. -/
theorem isServedBy_of_ownRoute {owner : Owner} {ingress : Resource .ingress} (attempts : Nat)
    (hname : owner.name = frontend.metadata.displayName)
    (hnodup : (patterns (IngressContent.routes ingress.content)).Nodup)
    (hroute : frontend.ownRoute ∈ IngressContent.routes ingress.content) :
    (Duty.routeTask attempts owner frontend).IsServedBy ingress := by
  have hpattern : frontend.ownPattern = (Duty.routeTask attempts owner frontend).pattern := by
    rw [Resource.ownPattern, ← hname]
    rfl
  have hbackend : frontend.ownBackend = (Duty.routeTask attempts owner frontend).backend := by
    rw [Resource.ownBackend, Resource.ownService, ← hname]
    rfl
  have hfirst := backendOf?_of_mem hnodup hroute rfl
  rw [hpattern] at hfirst
  exact hfirst.trans (congrArg some hbackend)

/-- Where a frontend is at rest and its route is in place, a pass for it has nothing to do. -/
theorem Rests.idles (h : cluster.Rests frontend) (hlive : frontend.metadata.isDeleted = false)
    (hscope : frontend.metadata.namespaceName? = some scope)
    (hnodup : (patterns (cluster.routesOf scope)).Nodup)
    (hroute : frontend.ownRoute ∈ cluster.routesOf scope) {attempts : Nat} (hattempts : attempts ≠ 0)
    (clock : Nat → Timestamp) :
    ((Duty.frontend attempts).pass frontend.key).Idles clock cluster .reconciled := by
  obtain ⟨later, owner, hfind, hlater, hmark, howner, hchores⟩ := h
  have hname : owner.name = frontend.metadata.displayName :=
    (Owner.name_of_ofResource howner).trans (congrArg ObjectKey.name hlater.key_eq)
  obtain rfl : owner.namespaceName = scope := by
    have hspace := Owner.namespaceName?_of_ofResource howner
    exact Option.some.inj (hspace.symm.trans (hlater.namespaceName?_eq.trans hscope))
  cases hingress : cluster.find? .ingress (routingPath owner.namespaceName) with
  | none =>
    have hnone : cluster.routesOf owner.namespaceName = [] := by simp only [routesOf, hingress]
    rw [hnone] at hroute
    cases hroute
  | some ingress =>
    rw [routesOf_of_find? hingress] at hnodup hroute
    have hserved := isServedBy_of_ownRoute attempts hname hnodup hroute
    have hstage := Metadata.lifeStage_eq_marked.2 ⟨hlater.deleted_eq.trans hlive, hmark⟩
    refine Duty.pass_idles_of_marked hfind hstage howner ?_
    exact (Duty.routeTask attempts owner frontend).install_idles hattempts
      (fun chore hmem => Option.ne_none_iff_exists'.1 (hchores chore hmem)) hingress hserved
      (congrArg FrontendContent.spec hlater.content_eq)

/-! ## One pass -/

/-- Whether frontends are stored in a namespace where passes for them can bring their routes in place,
each in a version that has come from what it was. -/
structure Houses (cluster : Cluster) (scope : String) (frontends : List (Resource .frontend)) :
    Prop where
  quiet : cluster.IsQuiet
  carries : cluster.CarriesRoutes scope
  current : ∀ frontend ∈ frontends, ∃ later, cluster.find? .frontend frontend.path = some later ∧
    later.IsLaterOf frontend
  housed : ∀ frontend ∈ frontends, frontend.metadata.namespaceName? = some scope
  live : ∀ frontend ∈ frontends, frontend.metadata.isDeleted = false

/-- An event keeps the frontends, does to the routes what it should, and lets everything rest. -/
theorem Houses.undergo (h : cluster.Houses scope frontends) (hevent : event.IsFor frontends) :
    (cluster.undergo event).Houses scope frontends ∧ cluster.StepsRoutes scope event ∧
      ∀ frontend, cluster.Rests frontend → (cluster.undergo event).Rests frontend := by
  have hhome : ∀ attempts key, event = .frontendPass attempts key → cluster.RoutesAtHome key := by
    rintro attempts key rfl found space hfound hspace
    obtain ⟨frontend, hmem, rfl⟩ := hevent
    obtain ⟨later, hfind, hlater⟩ := h.current frontend hmem
    obtain rfl := Option.some.inj (hfind.symm.trans hfound)
    have hscope := hlater.namespaceName?_eq.trans (h.housed frontend hmem)
    exact Option.some.inj (hscope.symm.trans hspace) ▸ h.carries.anchored.own
  obtain ⟨hcarries, hsteps⟩ := h.carries.undergo hevent.isOnFrontends hhome
  cases event with
  | anchorPass key => exact hevent.elim
  | call request => exact hevent.elim
  | fail call code reason times => exact hevent.elim
  | clock now =>
    have hquiet : (cluster.undergo (.clock now)).IsQuiet :=
      ⟨h.quiet.reachable.clock now, h.quiet.faultless, h.quiet.undisturbed⟩
    exact ⟨⟨hquiet, hcarries, h.current, h.housed, h.live⟩, hsteps, fun _ hrests => hrests⟩
  | frontendPass attempts key =>
    obtain ⟨frontend, hmem, rfl⟩ := hevent
    obtain ⟨read, hfind, hlater⟩ := h.current frontend hmem
    have hread : cluster.find? .frontend read.path = some read := hlater.path_eq ▸ hfind
    have hstands : Stands read cluster (cluster.undergo (.frontendPass attempts frontend.key)) :=
      Duty.live_pass_stands attempts h.carries.calm hfind
        (hlater.deleted_eq.trans (h.live frontend hmem))
    have hquiet : (cluster.undergo (.frontendPass attempts frontend.key)).IsQuiet :=
      run_keeps_along IsQuiet _ (fun exchange _ _ hnow => hnow.serve exchange.request) h.quiet
    refine ⟨⟨hquiet, hcarries, fun other hother => ?_, h.housed, h.live⟩, hsteps,
      fun _ hrests => hrests.stands hread hstands⟩
    obtain ⟨former, hformer, hsame⟩ := h.current other hother
    obtain ⟨latest, hlatest, hstill⟩ := hstands.exists_later hread hformer
    exact ⟨latest, hlatest, hsame.trans hstill⟩

/-- What is reconciled is a version of one of the frontends. -/
theorem Houses.exists_of_reconciles (h : cluster.Houses scope frontends)
    (hevent : event.IsFor frontends) (hreconciles : cluster.Reconciles scope read event) :
    ∃ frontend ∈ frontends, read.IsLaterOf frontend := by
  obtain @⟨attempts, key, hfind, _, _⟩ := hreconciles
  obtain ⟨frontend, hmem, rfl⟩ := hevent
  obtain ⟨later, hlater, hsame⟩ := h.current frontend hmem
  obtain rfl := Option.some.inj (hlater.symm.trans hfind)
  exact ⟨frontend, hmem, hsame⟩

/-! ## Runs -/

/-- Whether a pass of a run has reconciled a frontend. -/
def IsReconciledIn (start : Cluster) (events : List Event) (frontend : Resource .frontend) : Prop :=
  ∃ earlier attempts, earlier ++ [.frontendPass attempts frontend.key] <+: events ∧
    (((Duty.frontend attempts).pass frontend.key).run serve (start.after earlier)).1 =
      .ok .reconciled

theorem not_isReconciledIn_nil : ¬ start.IsReconciledIn [] frontend := by
  rintro ⟨earlier, attempts, hprefix, _⟩
  exact absurd (List.prefix_nil.1 hprefix) (by simp)

theorem IsReconciledIn.cases_append {earlier : List Event}
    (h : start.IsReconciledIn (earlier ++ [event]) frontend) :
    start.IsReconciledIn earlier frontend ∨
      ∃ attempts, event = .frontendPass attempts frontend.key ∧
        (((Duty.frontend attempts).pass frontend.key).run serve (start.after earlier)).1 =
          .ok .reconciled := by
  obtain ⟨front, attempts, hprefix, hreconciled⟩ := h
  rcases List.prefix_concat_iff.1 hprefix with heq | hprefix
  · obtain ⟨rfl, hlast⟩ := List.append_inj' heq rfl
    exact Or.inr ⟨attempts, (List.singleton_inj.1 hlast).symm, hreconciled⟩
  · exact Or.inl ⟨front, attempts, hprefix, hreconciled⟩

/-- Whether a cluster is one in which passes can bring the routes of frontends of a namespace in
place: it has come about, no call is made to fail and no other writer waits, passes find an anchor
that lives in the namespace, as they do wherever there is one and the namespace has no slash
(`findsOwnAnchor_of_slashless`), there is no routing ingress, and the frontends live there and have
different names. -/
structure CanSettle (scope : String) (frontends : List (Resource .frontend)) (start : Cluster) :
    Prop where
  reachable : start.Reachable
  faults_eq : start.faults = []
  undisturbed : ∀ path, start.IsUndisturbed path
  anchored : start.IsAnchored scope
  unrouted : start.find? .ingress (routingPath scope) = none
  stored : ∀ frontend ∈ frontends, start.find? .frontend frontend.path = some frontend
  housed : ∀ frontend ∈ frontends, frontend.metadata.namespaceName? = some scope
  live : ∀ frontend ∈ frontends, frontend.metadata.isDeleted = false
  distinct : (frontends.map fun frontend => frontend.metadata.displayName).Nodup

theorem CanSettle.houses (h : CanSettle scope frontends start) : start.Houses scope frontends where
  quiet := ⟨h.reachable, by simp [IsFaultless, h.faults_eq], h.undisturbed⟩
  carries := by
    refine ⟨⟨h.reachable.sound, h.undisturbed, by simp [HidesNothing, h.faults_eq]⟩, h.anchored, ?_⟩
    exact fun ingress hfind => absurd (hfind.symm.trans h.unrouted) (by simp)
  current frontend hmem := ⟨frontend, h.stored frontend hmem, .refl frontend⟩
  housed := h.housed
  live := h.live

/-- How far the frontends have settled by a run: the routes are some of those that they ask for, and
whatever was reconciled is at rest and has its route. -/
structure Settling (start : Cluster) (scope : String) (frontends : List (Resource .frontend))
    (events : List Event) : Prop where
  houses : (start.after events).Houses scope frontends
  nodup : (patterns ((start.after events).routesOf scope)).Nodup
  routes : ∀ entry ∈ (start.after events).routesOf scope,
    ∃ frontend ∈ frontends, frontend.ownRoute = entry
  rests : ∀ frontend ∈ frontends, start.IsReconciledIn events frontend →
    (start.after events).Rests frontend ∧
      frontend.ownRoute ∈ (start.after events).routesOf scope

/-- A pass that reconciles none of the frontends changes nothing of that. -/
theorem Settling.idle (h : Settling start scope frontends events) (hevent : event.IsFor frontends)
    (hnone : ∀ read, ¬ (start.after events).Reconciles scope read event) :
    Settling start scope frontends (events ++ [event]) := by
  obtain ⟨hnext, hsteps, hstill⟩ := h.houses.undergo hevent
  have hroutes : (start.after (events ++ [event])).routesOf scope =
      (start.after events).routesOf scope := by
    rw [after_append]
    exact hsteps.keeps hnone
  refine ⟨by rw [after_append]; exact hnext, hroutes ▸ h.nodup, hroutes ▸ h.routes, ?_⟩
  intro frontend hmem hreconciled
  rcases hreconciled.cases_append with hearlier | ⟨attempts, rfl, hlast⟩
  · obtain ⟨hrests, hroute⟩ := h.rests frontend hmem hearlier
    rw [hroutes, after_append]
    exact ⟨hstill frontend hrests, hroute⟩
  · obtain ⟨read, hfind, hlater⟩ := h.houses.current frontend hmem
    have hscope := hlater.namespaceName?_eq.trans (h.houses.housed frontend hmem)
    exact absurd (.pass hfind hscope hlast) (hnone read)

/-- A pass that reconciles one of the frontends adds that, and takes the route of no other. -/
theorem Settling.pass (h : Settling start scope frontends events) (hevent : event.IsFor frontends)
    (hpatterns : ∀ first ∈ frontends, ∀ second ∈ frontends,
      first.ownPattern = second.ownPattern → first = second)
    (hread : (start.after events).Reconciles scope read event) :
    Settling start scope frontends (events ++ [event]) := by
  obtain ⟨hnext, hsteps, hstill⟩ := h.houses.undergo hevent
  obtain ⟨served, hserved, hlater⟩ := h.houses.exists_of_reconciles hevent hread
  have hforms : ∀ path ∈ (start.after events).routesOf scope,
      ∃ pattern backend, path = .route pattern backend := by
    intro path hpath
    obtain ⟨frontend, _, rfl⟩ := h.routes path hpath
    exact ⟨_, _, rfl⟩
  have hpattern : read.ownPattern = served.ownPattern :=
    Option.some.inj (congrArg IngressPath.path? hlater.ownRoute_eq)
  have hroutes : ∀ entry, entry ∈ (start.after (events ++ [event])).routesOf scope ↔
      entry = served.ownRoute ∨ entry ∈ (start.after events).routesOf scope ∧
        entry.path? ≠ some served.ownPattern := by
    intro entry
    rw [after_append, ← hlater.ownRoute_eq, ← hpattern]
    exact hsteps.merges read hread ▸ mem_mergePath h.nodup hforms
  refine ⟨by rw [after_append]; exact hnext, ?_, fun entry hentry => ?_, ?_⟩
  · rw [after_append]
    exact hsteps.merges read hread ▸ nodup_patterns_mergePath h.nodup _ _
  · rcases (hroutes entry).1 hentry with rfl | ⟨hold, _⟩
    · exact ⟨served, hserved, rfl⟩
    · exact h.routes entry hold
  · intro frontend hmem hreconciled
    by_cases hsame : frontend = served
    · subst hsame
      have hrests := hread.rests h.houses.carries.calm h.houses.carries.anchored.own
      rw [hroutes, after_append]
      exact ⟨hrests.of_isLaterOf hlater, Or.inl rfl⟩
    · rcases hreconciled.cases_append with hearlier | ⟨attempts, rfl, _⟩
      · obtain ⟨hrests, hroute⟩ := h.rests frontend hmem hearlier
        rw [hroutes, after_append]
        exact ⟨hstill frontend hrests, Or.inr ⟨hroute, fun heq =>
          hsame (hpatterns frontend hmem served hserved (Option.some.inj heq))⟩⟩
      · -- the pass is for this frontend, so it is the one that was reconciled
        obtain ⟨later, hcurrent, hversion⟩ := h.houses.current frontend hmem
        cases hread with
        | pass hfind _ _ =>
          obtain rfl := Option.some.inj (hcurrent.symm.trans hfind)
          have hroute := hversion.ownRoute_eq.symm.trans hlater.ownRoute_eq
          exact absurd (hpatterns frontend hmem served hserved
            (Option.some.inj (congrArg IngressPath.path? hroute))) hsame

theorem CanSettle.settling (h : CanSettle scope frontends start)
    (hpatterns : ∀ first ∈ frontends, ∀ second ∈ frontends,
      first.ownPattern = second.ownPattern → first = second)
    (hevents : ∀ event ∈ events, event.IsFor frontends) :
    Settling start scope frontends events := by
  induction events using List.reverseRecOn with
  | nil =>
    have hroutes : start.routesOf scope = [] := by simp only [routesOf, h.unrouted]
    refine ⟨h.houses, ?_, ?_, fun _ _ hnil => absurd hnil not_isReconciledIn_nil⟩
    · rw [after, List.foldl_nil, hroutes]
      exact List.nodup_nil
    · rw [after, List.foldl_nil, hroutes]
      simp
  | append_singleton earlier event ih =>
    have hearlier := ih fun other hother => hevents other (List.mem_append_left _ hother)
    have hevent := hevents event (List.mem_append_right _ (List.mem_singleton_self _))
    by_cases hpass : ∃ read, (start.after earlier).Reconciles scope read event
    · obtain ⟨read, hread⟩ := hpass
      exact hearlier.pass hevent hpatterns hread
    · exact hearlier.idle hevent (not_exists.1 hpass)

/-! ## The main result -/

/-- Whether at most one of some frontends is a host. -/
def HasOneHost (frontends : List (Resource .frontend)) : Prop :=
  ∀ first ∈ frontends, ∀ second ∈ frontends,
    first.isHost = true → second.isHost = true → first = second

/-- Frontends of different names have different patterns if only one of them is a host. -/
theorem HasOneHost.eq_of_ownPattern (h : HasOneHost frontends)
    (hdistinct : (frontends.map fun frontend => frontend.metadata.displayName).Nodup) :
    ∀ first ∈ frontends, ∀ second ∈ frontends,
      first.ownPattern = second.ownPattern → first = second := by
  intro first hfirst second hsecond hpattern
  obtain ⟨hhost, hfirstHost | hname⟩ := routePattern_eq_iff.1 hpattern
  · exact h first hfirst second hsecond hfirstHost (hhost ▸ hfirstHost)
  · exact List.inj_on_of_nodup_map hdistinct hfirst hsecond hname

theorem nodup_of_patterns {paths : List IngressPath} (h : (patterns paths).Nodup)
    (hpaths : ∀ path ∈ paths, path.path? ≠ none) : paths.Nodup := by
  induction paths with
  | nil => exact List.nodup_nil
  | cons path rest ih =>
    obtain ⟨hhead, hrest⟩ := List.forall_mem_cons.1 hpaths
    obtain ⟨pattern, hpattern⟩ := Option.ne_none_iff_exists'.1 hhead
    simp only [patterns, List.filterMap_cons, hpattern, List.nodup_cons] at h
    refine List.nodup_cons.2 ⟨fun hmem => h.1 ?_, ih h.2 hrest⟩
    exact List.mem_filterMap.2 ⟨path, hmem, hpattern⟩

/-- When all have been reconciled, the routes are those that they ask for. -/
theorem Settling.routes_perm (h : Settling start scope frontends events)
    (hdistinct : (frontends.map fun frontend => frontend.metadata.displayName).Nodup)
    (hpatterns : ∀ first ∈ frontends, ∀ second ∈ frontends,
      first.ownPattern = second.ownPattern → first = second)
    (hreconciled : ∀ frontend ∈ frontends, start.IsReconciledIn events frontend) :
    ((start.after events).routesOf scope).Perm (frontends.map (·.ownRoute)) := by
  have hpaths : ∀ path ∈ (start.after events).routesOf scope, path.path? ≠ none := by
    intro path hpath
    obtain ⟨frontend, _, rfl⟩ := h.routes path hpath
    exact Option.some_ne_none _
  have hown : (frontends.map (·.ownRoute)).Nodup := by
    refine List.Nodup.map_on ?_ hdistinct.of_map
    intro first hfirst second hsecond heq
    exact hpatterns first hfirst second hsecond
      (Option.some.inj (congrArg IngressPath.path? heq))
  refine (List.perm_ext_iff_of_nodup (nodup_of_patterns h.nodup hpaths) hown).2 fun entry => ?_
  rw [List.mem_map]
  constructor
  · exact h.routes entry
  · rintro ⟨frontend, hmem, rfl⟩
    exact (h.rests frontend hmem (hreconciled frontend hmem)).2

/-- After passes for some frontends of a namespace that have reconciled each of them at least once, in
any order, the routes are one for each of them, with different patterns, and no further pass for any
of them has anything to do, if and only if at most one of them is a host. -/
theorem settles_iff_one_host (h : CanSettle scope frontends start)
    (hevents : ∀ event ∈ events, event.IsFor frontends)
    (hreconciled : ∀ frontend ∈ frontends, start.IsReconciledIn events frontend) :
    (((start.after events).routesOf scope).Perm (frontends.map (·.ownRoute)) ∧
      (patterns ((start.after events).routesOf scope)).Nodup ∧ (start.after events).IsQuiet ∧
      ∀ frontend ∈ frontends, ∀ attempts, attempts ≠ 0 → ∀ clock,
        ((Duty.frontend attempts).pass frontend.key).Idles clock (start.after events) .reconciled) ↔
      HasOneHost frontends := by
  constructor
  · rintro ⟨hperm, hnodup, _⟩ first hfirst second hsecond hhost hhost'
    have hpatterns : (frontends.map (·.ownPattern)).Nodup := by
      have hmapped := (hperm.filterMap IngressPath.path?).nodup hnodup
      rw [List.filterMap_map] at hmapped
      simpa [Function.comp_def, Resource.ownRoute, IngressPath.route] using hmapped
    refine List.inj_on_of_nodup_map hpatterns hfirst hsecond ?_
    exact routePattern_eq_iff.2 ⟨hhost.trans hhost'.symm, Or.inl hhost⟩
  · intro hone
    have hpatterns := hone.eq_of_ownPattern h.distinct
    have hsettling := h.settling hpatterns hevents
    refine ⟨hsettling.routes_perm h.distinct hpatterns hreconciled, hsettling.nodup,
      hsettling.houses.quiet, fun frontend hmem attempts hattempts clock => ?_⟩
    obtain ⟨hrest, hroute⟩ := hsettling.rests frontend hmem (hreconciled frontend hmem)
    exact hrest.idles (h.live frontend hmem) (h.housed frontend hmem) hsettling.nodup hroute
      hattempts clock

/-! ## Two frontends of one namespace

The shop is the host of its namespace. If the blog has a route of its own, both settle on their routes.
If the blog is a host as well, it takes the route of the shop, and there is one route for both. -/

/-- The shop as a host, as a user creates it. -/
def hostFrontend : Resource .frontend where
  metadata := shopFrontend.metadata
  content := { spec := { imageName := "web", port := 80, isHost := true } }

/-- The blog as a user creates it. -/
def blogFrontend (isHost : Bool) : Resource .frontend where
  metadata := { name? := some "blog", namespaceName? := some "team", uid? := some "uid-blog" }
  content := { spec := { imageName := "blog", port := 8080, isHost := isHost } }

/-- The key of the blog. -/
def blogKey : ObjectKey :=
  .inNamespace "team" "blog"

/-- The creation of the shop and the blog. -/
def foundingEvents (isHost : Bool) : List Event :=
  [.call (.create .frontend hostFrontend), .call (.create .frontend (blogFrontend isHost))]

/-- The cluster with an anchor, the shop and the blog. -/
def foundedCluster (isHost : Bool) : Cluster :=
  (opening openingTime gateAnchor).after (foundingEvents isHost)

/-- The shop and the blog as they are stored. -/
def founders (isHost : Bool) : List (Resource .frontend) :=
  [(created (opening openingTime gateAnchor) hostFrontend).wholeSeconds,
    (created ((opening openingTime gateAnchor).undergo (.call (.create .frontend hostFrontend)))
      (blogFrontend isHost)).wholeSeconds]

/-- Passes for both. -/
def meetingEvents : List Event :=
  [.frontendPass 5 shopKey, .frontendPass 5 blogKey, .frontendPass 5 shopKey]

theorem foundedCluster_reachable (isHost : Bool) : (foundedCluster isHost).Reachable :=
  .serve _ (.serve _ (.serve _ (.empty _)))

theorem foundedCluster_canSettle (isHost : Bool) :
    CanSettle "team" (founders isHost) (foundedCluster isHost) where
  reachable := foundedCluster_reachable isHost
  faults_eq := rfl
  undisturbed _ := rfl
  anchored := by
    have hsound := (foundedCluster_reachable isHost).sound
    refine ⟨findsOwnAnchor_of_slashless hsound (by decide), openingAnchor openingTime gateAnchor, _,
      ?_, rfl⟩
    cases isHost <;> rfl
  unrouted := by cases isHost <;> rfl
  stored := by cases isHost <;> exact List.forall_mem_cons.2 ⟨rfl, List.forall_mem_singleton.2 rfl⟩
  housed := List.forall_mem_cons.2 ⟨rfl, List.forall_mem_singleton.2 rfl⟩
  live := List.forall_mem_cons.2 ⟨rfl, List.forall_mem_singleton.2 rfl⟩
  distinct := by
    have hnames : (founders isHost).map (fun frontend => frontend.metadata.displayName) =
      ["shop", "blog"] := rfl
    rw [hnames]
    decide

theorem meetingEvents_isFor (isHost : Bool) :
    ∀ event ∈ meetingEvents, event.IsFor (founders isHost) := by
  have hshop : (Event.frontendPass 5 shopKey).IsFor (founders isHost) :=
    ⟨_, List.mem_cons_self .., rfl⟩
  have hblog : (Event.frontendPass 5 blogKey).IsFor (founders isHost) :=
    ⟨_, List.mem_cons_of_mem _ (List.mem_singleton_self _), rfl⟩
  exact List.forall_mem_cons.2 ⟨hshop, List.forall_mem_cons.2 ⟨hblog,
    List.forall_mem_singleton.2 hshop⟩⟩

theorem founders_isReconciledIn (isHost : Bool) :
    ∀ frontend ∈ founders isHost, (foundedCluster isHost).IsReconciledIn meetingEvents frontend := by
  cases isHost <;>
    exact List.forall_mem_cons.2 ⟨⟨[], 5, ⟨_, rfl⟩, rfl⟩, List.forall_mem_singleton.2
      ⟨[.frontendPass 5 shopKey], 5, ⟨_, rfl⟩, rfl⟩⟩

theorem shop_and_blog_settle :
    CanSettle "team" (founders false) (foundedCluster false) ∧
      (∀ event ∈ meetingEvents, event.IsFor (founders false)) ∧
      (∀ frontend ∈ founders false, (foundedCluster false).IsReconciledIn meetingEvents frontend) ∧
      (((foundedCluster false).after meetingEvents).routesOf "team").Perm
        ((founders false).map (·.ownRoute)) ∧
      ((foundedCluster false).after meetingEvents).IsQuiet ∧
      ∀ frontend ∈ founders false, ∀ attempts, attempts ≠ 0 → ∀ clock,
        ((Duty.frontend attempts).pass frontend.key).Idles clock
          ((foundedCluster false).after meetingEvents) .reconciled := by
  have hone : HasOneHost (founders false) := by
    intro first hfirst second hsecond hhost hhost'
    simp only [founders, List.mem_cons, List.not_mem_nil, or_false] at hfirst hsecond
    obtain rfl | rfl := hfirst
    · obtain rfl | rfl := hsecond
      · rfl
      · cases hhost'
    · cases hhost
  obtain ⟨hperm, _, hquiet, hidles⟩ := (settles_iff_one_host (foundedCluster_canSettle false)
    (meetingEvents_isFor false) (founders_isReconciledIn false)).2 hone
  exact ⟨foundedCluster_canSettle false, meetingEvents_isFor false, founders_isReconciledIn false,
    hperm, hquiet, hidles⟩

theorem two_hosts_share_one_route :
    CanSettle "team" (founders true) (foundedCluster true) ∧
      (∀ event ∈ meetingEvents, event.IsFor (founders true)) ∧
      (∀ frontend ∈ founders true, (foundedCluster true).IsReconciledIn meetingEvents frontend) ∧
      (founders true).length = 2 ∧
      (((foundedCluster true).after meetingEvents).routesOf "team").length = 1 :=
  ⟨foundedCluster_canSettle true, meetingEvents_isFor true, founders_isReconciledIn true, rfl, rfl⟩

end Cluster

end EdgeOperator
