import EdgeOperator.Proofs.Operation.Ledger

set_option autoImplicit false

/-! # How many patterns a frontend owns

Each frontend is to own one pattern, but a route is never taken off: a frontend that turns into a
host, or is one no longer, gets another pattern and keeps the old one. So after a pass that reconciles
it, its service has one route, and that with its pattern, exactly if no former version of it holds
another pattern (`Cluster.owns_one_pattern_iff`). -/

namespace EdgeOperator

open Cluster

/-! ## Names -/

theorem frontendService_injective : Function.Injective Names.frontendService := by
  intro name other h
  have hlists := congrArg String.toList h
  simp only [Names.frontendService, String.toList_append] at hlists
  exact String.toList_inj.1 (List.append_cancel_right hlists)

/-- All hosts have one pattern, and every other frontend has one of its own. -/
theorem routePattern_eq_iff {name other : String} {isHost isHost' : Bool} :
    routePattern name isHost = routePattern other isHost' ↔
      isHost = isHost' ∧ (isHost = true ∨ name = other) := by
  have hne : ∀ name : String, "/?(.*)" ≠ "/" ++ name ++ "/?(.*)" := by
    intro name h
    have hlengths := congrArg String.length h
    simp only [String.length_append] at hlengths
    have hslash : "/".length = 1 := rfl
    omega
  cases isHost <;> cases isHost'
  · simp only [routePattern, Bool.false_eq_true, if_false, true_and, false_or]
    constructor
    · intro h
      have hlists := congrArg String.toList h
      simp only [String.toList_append] at hlists
      exact String.toList_inj.1 (List.append_cancel_left (List.append_cancel_right hlists))
    · rintro rfl
      rfl
  · exact iff_of_false (hne name).symm (by simp)
  · exact iff_of_false (hne other) (by simp)
  · simp [routePattern]

/-! ## Routes that lead to a service -/

/-- Whether a route leads to a service. -/
def IngressPath.leadsTo (path : IngressPath) (service : String) : Bool :=
  path.backend.service?.any fun backend => backend.name = service

theorem leadsTo_ownRoute {frontend : Resource .frontend} {service : String} :
    frontend.ownRoute.leadsTo service = true ↔ frontend.ownService = service := by
  simp [IngressPath.leadsTo, Resource.ownRoute, IngressPath.route, Resource.ownBackend,
    Backend.ofService]

namespace Cluster

variable {start : Cluster} {scope : String} {frontend : Resource .frontend} {events : List Event}
  {pass : Event} {now : Timestamp} {anchor : Resource .anchor}

/-! ## The main result -/

/-- Whenever a pass of a run reconciles a frontend, its service has one route, and that with the
pattern that the frontend asks for, if and only if no frontend of its name has held another pattern
before the pass. -/
theorem owns_one_pattern_iff (hopen : CanOpen scope anchor)
    (hevents : ∀ event ∈ events, event.IsOnFrontends)
    (hpass : ((opening now anchor).after events).Reconciles scope frontend pass) :
    (∃ entry, (((opening now anchor).after (events ++ [pass])).routesOf scope).filter
          (·.leadsTo frontend.ownService) = [entry] ∧
        entry.path? = some frontend.ownPattern) ↔
      ∀ former, Holds (opening now anchor) scope events former →
        former.metadata.displayName = frontend.metadata.displayName →
          former.ownPattern = frontend.ownPattern := by
  obtain ⟨hnodup, hroutes⟩ := hopen.mem_routesOf_iff (hpass.forall_isOnFrontends hevents)
  constructor
  · rintro ⟨entry, hfilter, hentry⟩ former hholds hname
    by_contra hne
    -- the pass has left the other pattern with its holder, whose route leads to the service as well
    have hkept : Holds (opening now anchor) scope (events ++ [pass]) former := by
      refine .kept hholds fun other hother heq => ?_
      obtain rfl := hpass.unique hother
      exact hne heq.symm
    have hmem := (hroutes _).2 ⟨former, hkept, rfl⟩
    have hleads : former.ownRoute.leadsTo frontend.ownService = true :=
      leadsTo_ownRoute.2 (congrArg Names.frontendService hname)
    have hfiltered : former.ownRoute = entry :=
      List.mem_singleton.1 (hfilter ▸ List.mem_filter.2 ⟨hmem, hleads⟩)
    exact hne (Option.some.inj ((congrArg IngressPath.path? hfiltered).trans hentry))
  · intro hformer
    have hmem := (hroutes _).2 ⟨frontend, .gained hpass, rfl⟩
    have hone := filter_pattern_eq hnodup hmem rfl
    refine ⟨frontend.ownRoute, ?_, rfl⟩
    rw [← hone]
    refine List.filter_congr fun entry hentry => Bool.eq_iff_iff.2 ?_
    obtain ⟨holder, hholds, rfl⟩ := (hroutes entry).1 hentry
    rw [leadsTo_ownRoute, decide_eq_true_iff]
    constructor
    · intro hservice
      rcases holds_append_singleton.1 hholds with hnew | ⟨hold, _⟩
      · obtain rfl := hpass.unique hnew
        rfl
      · exact congrArg some (hformer holder hold (frontendService_injective hservice))
    · intro hpattern
      -- the frontend has taken its pattern by the pass
      have hsame : holder.ownPattern = frontend.ownPattern := Option.some.inj hpattern
      rcases holds_append_singleton.1 hholds with hnew | ⟨_, hothers⟩
      · obtain rfl := hpass.unique hnew
        rfl
      · exact absurd hsame.symm (hothers frontend hpass)

/-! ## A frontend that turns into a host

The shop gets the route of its name. When it becomes the host of its namespace, it gets the route of
hosts as well, and goes on holding the other one. -/

/-- The shop with its mark, as a host. -/
def hostingShop : Resource .frontend where
  metadata := { shopFrontend.metadata with finalizers? := some [Names.frontendFinalizer] }
  content := { spec := { imageName := "web", port := 80, isHost := true } }

/-- The shop is created and exposed. -/
def exposingEvents : List Event :=
  [.call (.create .frontend shopFrontend), .frontendPass 5 shopKey]

/-- The shop becomes a host then. -/
def hostingEvents : List Event :=
  exposingEvents ++ [.call (.replace .frontend hostingShop)]

theorem hostingEvents_isOnFrontends : ∀ event ∈ hostingEvents, event.IsOnFrontends := by
  intro event hmem
  simp only [hostingEvents, exposingEvents, List.cons_append, List.nil_append, List.mem_cons,
    List.not_mem_nil, or_false] at hmem
  rcases hmem with rfl | rfl | rfl
  · exact Event.isOnFrontends_create shopFrontend
  · trivial
  · exact Event.isOnFrontends_replace hostingShop

theorem shop_owns_one_pattern :
    CanOpen "team" gateAnchor ∧ (∀ event ∈ exposingEvents, event.IsOnFrontends) ∧
      ∃ shop, ((opening openingTime gateAnchor).after exposingEvents).Reconciles "team" shop
          (.frontendPass 5 shopKey) ∧
        shop.ownPattern = "/shop/?(.*)" ∧
        ∀ former, Holds (opening openingTime gateAnchor) "team" exposingEvents former →
          former.metadata.displayName = shop.metadata.displayName →
            former.ownPattern = shop.ownPattern := by
  have hevents : ∀ event ∈ exposingEvents, event.IsOnFrontends :=
    fun event hmem => hostingEvents_isOnFrontends event (List.mem_append_left _ hmem)
  obtain ⟨shop, hpass, hpattern, hroute⟩ : ∃ shop,
      ((opening openingTime gateAnchor).after exposingEvents).Reconciles "team" shop
          (.frontendPass 5 shopKey) ∧
        shop.ownPattern = "/shop/?(.*)" ∧
        ∃ entry, (((opening openingTime gateAnchor).after
            (exposingEvents ++ [.frontendPass 5 shopKey])).routesOf "team").filter
              (·.leadsTo shop.ownService) = [entry] ∧ entry.path? = some shop.ownPattern :=
    ⟨_, .pass rfl rfl rfl, rfl, _, rfl, rfl⟩
  exact ⟨gateAnchor_canOpen, hevents, shop, hpass, hpattern,
    (owns_one_pattern_iff gateAnchor_canOpen hevents hpass).1 hroute⟩

theorem hosting_shop_owns_two_patterns :
    CanOpen "team" gateAnchor ∧ (∀ event ∈ hostingEvents, event.IsOnFrontends) ∧
      ∃ shop, ((opening openingTime gateAnchor).after hostingEvents).Reconciles "team" shop
          (.frontendPass 5 shopKey) ∧
        ((((opening openingTime gateAnchor).after
            (hostingEvents ++ [.frontendPass 5 shopKey])).routesOf "team").filter
              (·.leadsTo shop.ownService)).map (·.path?) =
                [some "/shop/?(.*)", some shop.ownPattern] :=
  ⟨gateAnchor_canOpen, hostingEvents_isOnFrontends, _, .pass rfl rfl rfl, rfl⟩

end Cluster

end EdgeOperator
