import EdgeOperator.Proofs.Operation.Ledger

set_option autoImplicit false

/-! # Ports of routes and ports of services

The service of a frontend is created by the first pass that misses it and left alone by all later
ones, while each of them merges the route anew. So after a pass that reconciles, the route leads to
a service that is there; the port it leads to is one that the service exposes exactly if the frontend
asks for the port that it asked for when the service was made
(`Cluster.route_port_exposed_iff`). -/

namespace EdgeOperator

open Program Cluster

/-! ## What a service exposes -/

/-- The ports that a service exposes. -/
def exposedPorts (service : Resource (.plain .service)) : List Int :=
  let spec := (StringMap.get? service.content "spec").getD .null
  ((spec.member "ports").items?.getD []).filterMap fun port => (port.member "port").int?

/-- The service of a frontend exposes the one port that the frontend listens on. -/
theorem exposedPorts_service (owner : Owner) (spec : FrontendSpec) :
    exposedPorts (Workload.service owner spec).toResource = [spec.port.toInt] := rfl

/-- The path of the service of a frontend of a namespace. -/
def Resource.servicePath (frontend : Resource .frontend) (scope : String) : String :=
  (ObjectKey.inNamespace scope frontend.ownService).path (.plain .service)

/-- Whether a call writes no service, or deletes one. -/
def Request.DeletesServices (request : Request) : Prop :=
  request.writtenKind? = some (.plain .service) → ∃ key, request = .delete (.plain .service) key

/-- Whether a call writes no service, or creates one that exposes one port. -/
def Request.OffersPort (request : Request) (port : Int32) : Prop :=
  request.writtenKind? = some (.plain .service) → ∃ service,
    request = .create (.plain .service) service ∧ exposedPorts service = [port.toInt]

namespace Cluster

variable {cluster before middle after start : Cluster} {port : Int32} {request : Request}

/-- Whether all services were there before, with the ports that they expose. -/
def RetainsPorts (before after : Cluster) : Prop :=
  ∀ path service, after.find? (.plain .service) path = some service →
    ∃ former, before.find? (.plain .service) path = some former ∧
      exposedPorts service = exposedPorts former

/-- Whether all services were there before, with the ports that they expose, or are new and expose
one port; and none has gone. -/
structure Supplies (port : Int32) (before after : Cluster) : Prop where
  origin : ∀ path service, after.find? (.plain .service) path = some service →
    (∃ former, before.find? (.plain .service) path = some former ∧
      exposedPorts service = exposedPorts former) ∨
    before.find? (.plain .service) path = none ∧ exposedPorts service = [port.toInt]
  stays : ∀ path, before.find? (.plain .service) path ≠ none →
    after.find? (.plain .service) path ≠ none

theorem Leaves.retainsPorts (h : Leaves (.plain .service) before after) :
    RetainsPorts before after :=
  fun path service hfind => ⟨service, (h.find?_eq path).symm.trans hfind, rfl⟩

theorem RetainsPorts.trans (h : RetainsPorts before middle) (h' : RetainsPorts middle after) :
    RetainsPorts before after := by
  intro path service hfind
  obtain ⟨second, hsecond, heq⟩ := h' path service hfind
  obtain ⟨first, hfirst, heq'⟩ := h path second hsecond
  exact ⟨first, hfirst, heq.trans heq'⟩

theorem Leaves.supplies (h : Leaves (.plain .service) before after) : Supplies port before after where
  origin path service hfind := Or.inl ⟨service, (h.find?_eq path).symm.trans hfind, rfl⟩
  stays path hsome := (h.find?_eq path).symm ▸ hsome

theorem Supplies.trans (h : Supplies port before middle) (h' : Supplies port middle after) :
    Supplies port before after where
  origin path service hfind := by
    rcases h'.origin path service hfind with ⟨second, hsecond, heq⟩ | ⟨hnone, hport⟩
    · rcases h.origin path second hsecond with ⟨first, hfirst, heq'⟩ | ⟨hnone, hport⟩
      · exact Or.inl ⟨first, hfirst, heq.trans heq'⟩
      · exact Or.inr ⟨hnone, heq.trans hport⟩
    · exact Or.inr ⟨not_not.1 fun hsome => h.stays path hsome hnone, hport⟩
  stays path hsome := h'.stays path (h.stays path hsome)

/-! ## Calls -/

theorem IsCalm.retainsPorts (h : cluster.IsCalm) (hrequest : request.DeletesServices) :
    RetainsPorts cluster (Cluster.serve request cluster).2 := by
  by_cases hwritten : request.writtenKind? = some (.plain .service)
  · obtain ⟨key, rfl⟩ := hrequest hwritten
    cases h.effect (.delete (.plain .service) key) with
    | nothing hobjects => exact (leaves_of_objects hobjects _).retainsPorts
    | @marked _ _ current _ hfind hobjects =>
      intro path service hservice
      rcases (find?_of_set hobjects ..).1 hservice with ⟨rfl, heq⟩ | ⟨_, hold⟩
      · cases heq
        exact ⟨current, hfind, rfl⟩
      · exact ⟨service, hold, rfl⟩
    | removed _ _ hobjects =>
      intro path service hservice
      exact ⟨service, ((find?_of_erase hobjects ..).1 hservice).2, rfl⟩
  · exact (h.leaves hwritten).retainsPorts

theorem IsCalm.supplies (h : cluster.IsCalm) (hrequest : request.OffersPort port) :
    Supplies port cluster (Cluster.serve request cluster).2 := by
  by_cases hwritten : request.writtenKind? = some (.plain .service)
  · obtain ⟨planned, rfl, hport⟩ := hrequest hwritten
    cases effect_create cluster planned with
    | nothing hobjects => exact (leaves_of_objects hobjects _).supplies
    | created hnone hobjects =>
      refine ⟨fun path service hservice => ?_, fun path hsome => ?_⟩
      · rcases (find?_of_set hobjects ..).1 hservice with ⟨rfl, heq⟩ | ⟨_, hold⟩
        · cases heq
          exact Or.inr ⟨find?_of_absent hnone, hport⟩
        · exact Or.inl ⟨service, hold, rfl⟩
      · obtain ⟨former, hformer⟩ := Option.ne_none_iff_exists'.1 hsome
        have hne : planned.path ≠ path := by
          rintro rfl
          exact hsome (find?_of_absent hnone)
        rw [(find?_of_set hobjects ..).2 (Or.inr ⟨hne, hformer⟩)]
        exact Option.some_ne_none former
  · exact (h.leaves hwritten).supplies

end Cluster

/-! ## Passes -/

namespace Duty

variable {cluster : Cluster} {read : Resource .frontend}

/-- What does not write services offers any port. -/
theorem offersPort_of_ne {request : Request} (h : request.writtenKind? ≠ some (.plain .service))
    (port : Int32) : request.OffersPort port :=
  fun hwritten => absurd hwritten h

/-- An installation creates the service with the port that the frontend asks for. -/
theorem settle_offersPort (attempts : Nat) (stored read : Resource .frontend) :
    ((frontend attempts).settle stored read).OnlyAsks fun request =>
      request.OffersPort read.ownPort := by
  unfold settle
  cases Owner.ofResource stored with
  | error e => exact .done _
  | ok owner =>
    let spec : FrontendSpec := FrontendContent.spec read.content
    have hservice : (ensure (Workload.serviceKey owner)
        (Workload.service owner spec).toResource).OnlyAsks fun request =>
          request.OffersPort read.ownPort :=
      ensure_onlyAsks (offersPort_of_ne (by simp [Request.writtenKind?]) _)
        fun _ => ⟨_, rfl, exposedPorts_service owner spec⟩
    have hdeployment : (ensure (Workload.deploymentKey owner)
        (Workload.deployment owner spec).toResource).OnlyAsks fun request =>
          request.OffersPort read.ownPort :=
      ensure_onlyAsks (offersPort_of_ne (by simp [Request.writtenKind?]) _)
        (offersPort_of_ne (by simp [Request.writtenKind?]) _)
    have hroute : (ensureRoute owner spec attempts).OnlyAsks fun request =>
        request.OffersPort read.ownPort :=
      (retryRoute_routes owner spec attempts attempts).mono fun _ hroutes =>
        offersPort_of_ne (hroutes.writtenKind?_ne (by simp)) _
    exact (hservice.bind fun _ => hdeployment.bind fun _ => hroute.bind fun _ => .done _).bind
      fun _ => .done _

theorem dismantle_deletesServices (attempts : Nat) (read : Resource .frontend) :
    ((frontend attempts).dismantle read).OnlyAsks Request.DeletesServices := by
  refine dismantle_onlyAsks (fun _ _ hwritten => by cases hwritten) ?_ fun hwritten => ?_
  · rintro owner ⟨kind, key⟩ - hwritten
    obtain rfl : kind = .plain .service := Option.some.inj hwritten
    exact ⟨key, rfl⟩
  · exact absurd hwritten (by simp [Request.writtenKind?])

/-- A pass brings in no service but one with the port of the frontend that it finds, and changes
none. -/
theorem frontend_pass_supplies (attempts : Nat) (key : ObjectKey) (hcalm : cluster.IsCalm) :
    ((frontend attempts).pass key).Ends Cluster.serve cluster fun _ after =>
      RetainsPorts cluster after ∨
        ∃ read, cluster.find? .frontend (key.path .frontend) = some read ∧
          Supplies read.ownPort cluster after := by
  have hsame : ∀ {after : Cluster}, after.objects = cluster.objects → RetainsPorts cluster after :=
    fun hobjects => (leaves_of_objects hobjects _).retainsPorts
  refine ends_pass isFaithful_serve hcalm (fun e after _ hobjects => Or.inl (hsame hobjects)) ?_
  intro looked hlooked hobjects
  cases hfind : cluster.find? .frontend (key.path .frontend) with
  | none => exact ends_pure.2 (Or.inl (hsame hobjects))
  | some read =>
    have hoffers : ∀ {program : Program PassOutcome},
        (program.OnlyAsks fun request => request.OffersPort read.ownPort) →
          program.Ends Cluster.serve looked fun _ after =>
            RetainsPorts cluster after ∨ ∃ other, some read = some other ∧
              Supplies other.ownPort cluster after := by
      intro program hprogram
      have hkept := isFaithful_serve.run_keeps hprogram
        (fun _ _ hrequest hnow hsupplied => hsupplied.trans (hnow.supplies hrequest)) hlooked
        (leaves_of_objects hobjects _).supplies
      exact Or.inr ⟨read, rfl, hkept.2⟩
    dsimp only [serveFound]
    cases read.metadata.lifeStage (frontend attempts).mark with
    | released => exact ends_pure.2 (Or.inl (hsame hobjects))
    | tearingDown =>
      have hkept := isFaithful_serve.run_keeps (dismantle_deletesServices attempts read)
        (fun _ _ hrequest hnow hretains => hretains.trans (hnow.retainsPorts hrequest)) hlooked
        (hsame hobjects)
      exact Or.inl hkept.2
    | unmarked =>
      refine hoffers ((OnlyAsks.perform ?_).bind fun stored =>
        settle_offersPort attempts stored read)
      exact offersPort_of_ne (by simp [Request.writtenKind?]) _
    | marked => exact hoffers (settle_offersPort attempts read read)

end Duty

namespace Cluster

variable {start cluster : Cluster} {path scope : String} {creator frontend : Resource .frontend}
  {events : List Event} {now : Timestamp} {anchor : Resource .anchor}

/-! ## Runs -/

/-- Whether the service under a path was made, and kept since, by a pass that has found a frontend
as it is here. -/
inductive MadeFor (start : Cluster) (path : String) : List Event → Resource .frontend → Prop where
  | made {earlier : List Event} {attempts : Nat} {key : ObjectKey} {creator : Resource .frontend}
      (hfind : (start.after earlier).find? .frontend (key.path .frontend) = some creator)
      (hnone : (start.after earlier).find? (.plain .service) path = none)
      (hsome : (start.after (earlier ++ [.frontendPass attempts key])).find? (.plain .service)
        path ≠ none) :
      MadeFor start path (earlier ++ [.frontendPass attempts key]) creator
  | stays {earlier : List Event} {event : Event} {creator : Resource .frontend}
      (hmade : MadeFor start path earlier creator)
      (hsome : (start.after (earlier ++ [event])).find? (.plain .service) path ≠ none) :
      MadeFor start path (earlier ++ [event]) creator

/-- What an event on frontends does to the services. -/
theorem IsCalm.undergo_supplies (h : cluster.IsCalm) {event : Event}
    (hevent : event.IsOnFrontends) : RetainsPorts cluster (cluster.undergo event) ∨
      ∃ attempts key creator, event = .frontendPass attempts key ∧
        cluster.find? .frontend (key.path .frontend) = some creator ∧
        Supplies creator.ownPort cluster (cluster.undergo event) := by
  cases event with
  | anchorPass key => exact hevent.elim
  | fail call code reason times => exact hevent.elim
  | clock now => exact Or.inl (leaves_clock now _).retainsPorts
  | call request =>
    exact Or.inl (h.leaves fun hkind => absurd (hevent _ hkind) (by simp)).retainsPorts
  | frontendPass attempts key =>
    refine (Duty.frontend_pass_supplies attempts key h).imp id ?_
    rintro ⟨creator, hfind, hsupplies⟩
    exact ⟨attempts, key, creator, rfl, hfind, hsupplies⟩

/-- A service that a run has brought in exposes the port of the frontend it was made for. -/
theorem exists_madeFor (hnone : ∀ path, start.find? (.plain .service) path = none)
    (hcalm : ∀ earlier, earlier <+: events → (start.after earlier).IsCalm)
    (hevents : ∀ event ∈ events, event.IsOnFrontends) {service : Resource (.plain .service)}
    (hfind : (start.after events).find? (.plain .service) path = some service) :
    ∃ creator, MadeFor start path events creator ∧
      exposedPorts service = [creator.ownPort.toInt] := by
  induction events using List.reverseRecOn generalizing service with
  | nil => exact absurd (hfind.symm.trans (hnone path)) (by simp)
  | append_singleton earlier event ih =>
    have hsome := ne_of_eq_of_ne hfind (Option.some_ne_none service)
    have hevent := hevents event (List.mem_append_right _ (List.mem_singleton_self _))
    have hbefore := hcalm earlier (List.prefix_append ..)
    -- a service that was there before has its maker, and goes on exposing its port
    have hold : ∀ former, (start.after earlier).find? (.plain .service) path = some former →
        exposedPorts service = exposedPorts former →
          ∃ creator, MadeFor start path (earlier ++ [event]) creator ∧
            exposedPorts service = [creator.ownPort.toInt] := by
      intro former hformer heq
      obtain ⟨creator, hmade, hport⟩ := ih
        (fun front hfront => hcalm front (hfront.trans (List.prefix_append ..)))
        (fun event hmem => hevents event (List.mem_append_left _ hmem)) hformer
      exact ⟨creator, .stays hmade hsome, heq.trans hport⟩
    have hfind' := hfind
    rw [after_append] at hfind'
    rcases hbefore.undergo_supplies hevent with
      hretains | ⟨attempts, key, creator, rfl, hcreator, hsupplies⟩
    · obtain ⟨former, hformer, heq⟩ := hretains path service hfind'
      exact hold former hformer heq
    · rcases hsupplies.origin path service hfind' with ⟨former, hformer, heq⟩ | ⟨habsent, hport⟩
      · exact hold former hformer heq
      · exact ⟨creator, .made hcreator habsent hsome, hport⟩

/-! ## The main result -/

/-- Whenever a pass of a run reconciles a frontend, its pattern leads to its service, which is
stored, and to the port that the frontend asks for. The service exposes that port if and only if the
frontend that it was made for has asked for it. -/
theorem route_port_exposed_iff (hopen : CanOpen scope anchor)
    (hevents : ∀ event ∈ events, event.IsOnFrontends) {pass : Event}
    (hpass : ((opening now anchor).after events).Reconciles scope frontend pass) :
    IsServed (((opening now anchor).after (events ++ [pass])).routesOf scope) frontend.ownPattern
        (.ofService frontend.ownService frontend.ownPort) ∧
      ∃ service creator, ((opening now anchor).after (events ++ [pass])).find? (.plain .service)
            (frontend.servicePath scope) = some service ∧
        MadeFor (opening now anchor) (frontend.servicePath scope) (events ++ [pass]) creator ∧
        (frontend.ownPort.toInt ∈ exposedPorts service ↔
          creator.ownPort = frontend.ownPort) := by
  obtain ⟨hcarries, hown⟩ := hopen.run hevents
  obtain ⟨hnodup, _⟩ := hopen.mem_routesOf_iff hevents
  obtain ⟨attempts, key, owner, rfl, hprovides, hname, hspace⟩ := hpass.provides hcarries.calm
  have hall := hpass.forall_isOnFrontends hevents
  refine ⟨?_, ?_⟩
  · have hmerged := (hcarries.pass_merges hpass).1
    rw [after_append]
    exact hmerged ▸ isServed_mergePath hnodup _ _
  · have hstored := hprovides.workload _ (List.mem_cons_self ..)
    have hplace : (Workload.service owner (FrontendContent.spec frontend.content)).toResource.path =
        frontend.servicePath scope := by
      rw [Resource.servicePath, Resource.ownService, ← hname, ← hspace]
      rfl
    obtain ⟨service, hservice⟩ := Option.ne_none_iff_exists'.1 hstored
    have hfind : ((opening now anchor).after (events ++ [.frontendPass attempts key])).find?
        (.plain .service) (frontend.servicePath scope) = some service := by
      rw [after_append, ← hplace]
      exact hservice
    obtain ⟨creator, hmade, hport⟩ := exists_madeFor
      (opening_find?_of_ne (by simp)) (fun earlier hearlier => (hopen.run fun event hmem =>
        hall event (hearlier.subset hmem)).1.calm) hall hfind
    refine ⟨service, creator, hfind, hmade, ?_⟩
    rw [hport, List.mem_singleton, Int32.toInt_inj, eq_comm]

/-! ## A frontend that moves to another port

The shop is exposed on port 80. Its author asks for port 8080 then, and the next pass gives the route
that port. The service goes on exposing port 80 only. -/

/-- The shop with its mark and another port, as its author writes it. -/
def movedShop : Resource .frontend where
  metadata := { shopFrontend.metadata with finalizers? := some [Names.frontendFinalizer] }
  content := { spec := { imageName := "web", port := 8080 } }

/-- The shop is created, exposed and moved to another port. -/
def movingEvents : List Event :=
  [.call (.create .frontend shopFrontend), .frontendPass 5 shopKey,
    .call (.replace .frontend movedShop)]

theorem movingEvents_isOnFrontends : ∀ event ∈ movingEvents, event.IsOnFrontends := by
  intro event hmem
  simp only [movingEvents, List.mem_cons, List.not_mem_nil, or_false] at hmem
  rcases hmem with rfl | rfl | rfl
  · exact Event.isOnFrontends_create shopFrontend
  · trivial
  · exact Event.isOnFrontends_replace movedShop

theorem shop_moves :
    ∃ shop, ((opening openingTime gateAnchor).after movingEvents).Reconciles "team" shop
        (.frontendPass 5 shopKey) ∧ shop.ownPort = 8080 ∧ shop.ownService = "shop-frontend-svc" :=
  ⟨_, .pass rfl rfl rfl, rfl, rfl⟩

theorem moved_shop_route_port_exposed_iff :
    CanOpen "team" gateAnchor ∧ (∀ event ∈ movingEvents, event.IsOnFrontends) ∧
      ∃ shop, ((opening openingTime gateAnchor).after movingEvents).Reconciles "team" shop
          (.frontendPass 5 shopKey) ∧
        ∃ service creator,
          ((opening openingTime gateAnchor).after (movingEvents ++ [.frontendPass 5 shopKey])).find?
              (.plain .service) (shop.servicePath "team") = some service ∧
            MadeFor (opening openingTime gateAnchor) (shop.servicePath "team")
              (movingEvents ++ [.frontendPass 5 shopKey]) creator ∧
            (8080 ∈ exposedPorts service ↔ creator.ownPort = 8080) := by
  obtain ⟨shop, hpass, hport, _⟩ := shop_moves
  obtain ⟨_, service, creator, hfind, hmade, hiff⟩ :=
    route_port_exposed_iff gateAnchor_canOpen movingEvents_isOnFrontends hpass
  rw [hport] at hiff
  exact ⟨gateAnchor_canOpen, movingEvents_isOnFrontends, shop, hpass, service, creator, hfind, hmade,
    hiff⟩

theorem moved_shop_port_not_exposed :
    CanOpen "team" gateAnchor ∧ (∀ event ∈ movingEvents, event.IsOnFrontends) ∧
      ∃ shop, ((opening openingTime gateAnchor).after movingEvents).Reconciles "team" shop
          (.frontendPass 5 shopKey) ∧
        ((opening openingTime gateAnchor).after (movingEvents ++ [.frontendPass 5 shopKey])).routesOf
            "team" = [.route shop.ownPattern (.ofService shop.ownService 8080)] ∧
          ∃ service,
            ((opening openingTime gateAnchor).after
              (movingEvents ++ [.frontendPass 5 shopKey])).find? (.plain .service)
                (shop.servicePath "team") = some service ∧ 8080 ∉ exposedPorts service :=
  ⟨gateAnchor_canOpen, movingEvents_isOnFrontends, _, .pass rfl rfl rfl, rfl, _, rfl, by decide⟩

end Cluster

end EdgeOperator
