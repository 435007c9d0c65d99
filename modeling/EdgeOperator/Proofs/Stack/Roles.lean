import EdgeOperator.Proofs.Stack.Neighbours

set_option autoImplicit false

/-! # The cluster roles that all stacks have in common

Each of the two cluster roles is made for the first anchor that a pass is for, and all others take it
as it is. So it goes with the anchor it was made for, whoever needs it then, and the next pass for an
anchor that lives puts it up again (`Cluster.HostsStacks.hasRole_undergo_iff`). Once a pass has
returned that everything is in place, the roles are there until such a teardown, and again from the
next pass of that kind on (`Cluster.role_stays_iff`). -/

namespace EdgeOperator

open Cluster

/-- The names of the cluster roles that all stacks have in common. -/
def sharedRoles : List String :=
  [Names.ingressNginx, Names.admission]

/-- The path of a cluster role. -/
def rolePath (name : String) : String :=
  (ObjectKey.clusterWide name).path (.plain .clusterRole)

namespace Cluster

variable {cluster before after : Cluster} {key : ObjectKey} {owner : Owner} {name : String}
  {event : Event} {later : List Event}

/-- Whether a cluster role is stored. -/
def HasRole (cluster : Cluster) (name : String) : Prop :=
  ∃ role, cluster.find? (.plain .clusterRole) (rolePath name) = some role

/-- A role that all stacks have in common is a component of each of them. -/
theorem exists_component_of_role (h : name ∈ sharedRoles) :
    ∃ component : Component, (∀ owner, component.path owner = rolePath name) ∧
      ∀ (cluster : Cluster) (owner : Owner),
        cluster.HasComponent owner component ↔ cluster.HasRole name := by
  rcases List.mem_pair.1 h with rfl | rfl
  · exact ⟨.clusterRole, fun _ => rfl, fun _ _ => Iff.rfl⟩
  · exact ⟨.admissionClusterRole, fun _ => rfl, fun _ _ => Iff.rfl⟩

/-- Whether an event is a pass that tears down the anchor that controls a cluster role. -/
def TakesRole (cluster : Cluster) (name : String) (event : Event) : Prop :=
  cluster.PassesTo event .tornDown ∧ ∃ key owner role, event = .anchorPass key ∧
    cluster.HasAnchor key owner .tearingDown ∧
    cluster.find? (.plain .clusterRole) (rolePath name) = some role ∧
    owner.controls role.metadata = true

/-- Whether some event takes a cluster role and no pass after it returns that everything is in
place. -/
def LosesRole (cluster : Cluster) (name : String) (events : List Event) : Prop :=
  ∃ earlier event rest, events = earlier ++ event :: rest ∧
    (cluster.after earlier).TakesRole name event ∧
    ∀ between pass others, rest = between ++ pass :: others →
      ¬ (cluster.after (earlier ++ event :: between)).PassesTo pass .reconciled

/-! ## One event -/

theorem PassesTo.unique {outcome another : PassOutcome} (h : cluster.PassesTo event outcome)
    (hother : cluster.PassesTo event another) : outcome = another := by
  obtain ⟨key, rfl, hresult⟩ := h
  obtain ⟨same, heq, hsame⟩ := hother
  obtain rfl := Event.anchorPass.inj heq
  exact Except.ok.inj (hresult.symm.trans hsame)

theorem KeepsStacks.hasRole_iff (h : KeepsStacks before after) :
    after.HasRole name ↔ before.HasRole name := by
  refine exists_congr fun role => ?_
  rw [find?_eq_some, find?_eq_some]
  exact h _ _ (by simp)

/-- Where nobody passes, nobody takes or restores a role. -/
theorem not_passesTo_of_ne (h : ∀ key, event ≠ .anchorPass key) (outcome : PassOutcome) :
    ¬ cluster.PassesTo event outcome :=
  fun ⟨key, heq, _⟩ => h key heq

/-- An event that is no pass leaves the roles to those who have them. -/
theorem hasRole_iff_of_keeps (h : KeepsStacks cluster after)
    (hreconciled : ¬ cluster.PassesTo event .reconciled)
    (htornDown : ¬ cluster.PassesTo event .tornDown) :
    after.HasRole name ↔
      cluster.PassesTo event .reconciled ∨ cluster.HasRole name ∧ ¬ cluster.TakesRole name event := by
  rw [h.hasRole_iff, or_iff_right hreconciled, and_iff_left fun htakes => htornDown htakes.1]

/-- Of a teardown the roles are left that the anchor does not control. -/
theorem TakesDown.hasRole_iff (h : TakesDown owner (key.path .anchor) cluster after)
    (hanchor : cluster.HasAnchor key owner .tearingDown)
    (htornDown : cluster.PassesTo (.anchorPass key) .tornDown) (hname : name ∈ sharedRoles) :
    after.HasRole name ↔
      cluster.HasRole name ∧ ¬ cluster.TakesRole name (.anchorPass key) := by
  obtain ⟨component, hpath, _⟩ := exists_component_of_role hname
  have hne : rolePath name ≠ key.path .anchor := hpath owner ▸ component.path_ne_anchor owner key
  constructor
  · rintro ⟨role, hfind⟩
    have hfree : ¬ cluster.ControlsAt owner (rolePath name) := fun hcontrols =>
      absurd ((h.gone _ hcontrols).symm.trans (find?_eq_some.1 hfind)) (by simp)
    have hbefore := (find?_congr (h.kept _ hne hfree)).symm.trans hfind
    refine ⟨⟨role, hbefore⟩, ?_⟩
    rintro ⟨_, same, holder, taken, heq, hholder, htaken, hcontrols⟩
    obtain rfl := Event.anchorPass.inj heq
    obtain ⟨rfl, _⟩ := hanchor.unique hholder
    exact hfree ⟨⟨component, hpath owner⟩, _, find?_eq_some.1 htaken, hcontrols⟩
  · rintro ⟨⟨role, hfind⟩, hspared⟩
    have hfree : ¬ cluster.ControlsAt owner (rolePath name) := by
      rintro ⟨_, object, hget, hcontrols⟩
      obtain rfl := Option.some.inj ((find?_eq_some.1 hfind).symm.trans hget)
      exact hspared ⟨htornDown, key, owner, role, rfl, hanchor, hfind, hcontrols⟩
    exact ⟨role, (find?_congr (h.kept _ hne hfree)).trans hfind⟩

/-- After an event a role is there if the event is a pass that has everything in place, or if the
role was there and is not taken. -/
theorem HostsStacks.hasRole_undergo_iff (h : cluster.HostsStacks) (hevent : event.IsOnAnchors)
    (hname : name ∈ sharedRoles) :
    (cluster.undergo event).HasRole name ↔
      cluster.PassesTo event .reconciled ∨
        cluster.HasRole name ∧ ¬ cluster.TakesRole name event := by
  cases event with
  | frontendPass attempts key | fail call code reason times => exact hevent.elim
  | call request =>
    exact hasRole_iff_of_keeps (h.call hevent).1 (not_passesTo_of_ne (by simp) _)
      (not_passesTo_of_ne (by simp) _)
  | clock now =>
    exact hasRole_iff_of_keeps (keepsStacks_of_objects rfl) (not_passesTo_of_ne (by simp) _)
      (not_passesTo_of_ne (by simp) _)
  | anchorPass key =>
    obtain ⟨hpass, _⟩ := h.pass key
    generalize hresult : ((Duty.anchor.pass key).run serve cluster).1 = result at hpass
    have hpasses : ∀ {outcome}, cluster.PassesTo (.anchorPass key) outcome → result = .ok outcome := by
      rintro outcome ⟨same, heq, houtcome⟩
      obtain rfl := Event.anchorPass.inj heq
      exact hresult.symm.trans houtcome
    cases hpass with
    | putsUp _ _ hputs _ =>
      obtain ⟨component, _, hrole⟩ := exists_component_of_role hname
      exact iff_of_true ((hrole _ _).1 (hputs.present component)) (Or.inl ⟨key, rfl, hresult⟩)
    | takesDown hanchor htakes =>
      have htornDown : cluster.PassesTo (.anchorPass key) .tornDown := ⟨key, rfl, hresult⟩
      rw [htakes.hasRole_iff hanchor htornDown hname]
      exact (or_iff_right fun hreconciled => absurd (hpasses hreconciled) (by simp)).symm
    | keeps _ hreconciled htornDown hkeeps =>
      exact hasRole_iff_of_keeps hkeeps (fun hpass => hreconciled (hpasses hpass))
        fun hpass => htornDown (hpasses hpass)

/-! ## Runs -/

theorem not_losesRole_nil : ¬ cluster.LosesRole name [] := by
  rintro ⟨earlier, event, rest, heq, _⟩
  simp at heq

theorem append_singleton_eq_iff {α : Type} {xs front back : List α} {x y : α} :
    xs ++ [x] = front ++ y :: back ↔
      xs = front ∧ x = y ∧ back = [] ∨ ∃ rest, xs = front ++ y :: rest ∧ back = rest ++ [x] := by
  constructor
  · intro heq
    rcases back.eq_nil_or_concat' with rfl | ⟨rest, last, rfl⟩
    · obtain ⟨hfront, hlast⟩ := List.append_inj' heq rfl
      exact Or.inl ⟨hfront, List.singleton_inj.1 hlast, rfl⟩
    · rw [← List.cons_append, ← List.append_assoc] at heq
      obtain ⟨hfront, hlast⟩ := List.append_inj' heq rfl
      exact Or.inr ⟨rest, hfront, by rw [List.singleton_inj.1 hlast]⟩
  · rintro (⟨rfl, rfl, rfl⟩ | ⟨rest, rfl, rfl⟩)
    · rfl
    · rw [List.append_assoc, List.cons_append]

/-- A role is lost at last if the last event takes it, or if it was lost and the last event does not
bring it back. -/
theorem losesRole_append_singleton :
    cluster.LosesRole name (later ++ [event]) ↔
      (cluster.after later).TakesRole name event ∨
        cluster.LosesRole name later ∧ ¬ (cluster.after later).PassesTo event .reconciled := by
  constructor
  · rintro ⟨earlier, taken, rest, heq, htakes, hnone⟩
    rcases append_singleton_eq_iff.1 heq with ⟨rfl, rfl, rfl⟩ | ⟨between, rfl, rfl⟩
    · exact Or.inl htakes
    · refine Or.inr ⟨⟨earlier, taken, between, rfl, htakes, fun first pass others hsplit => ?_⟩,
        hnone between event [] rfl⟩
      exact hnone first pass (others ++ [event]) (by rw [hsplit, List.append_assoc, List.cons_append])
  · rintro (htakes | ⟨⟨earlier, taken, rest, rfl, htakes, hnone⟩, hlast⟩)
    · exact ⟨later, event, [], rfl, htakes, fun between pass others hsplit => by simp at hsplit⟩
    · refine ⟨earlier, taken, rest ++ [event], by rw [List.append_assoc, List.cons_append], htakes,
        fun between pass others hsplit => ?_⟩
      rcases append_singleton_eq_iff.1 hsplit with ⟨rfl, rfl, rfl⟩ | ⟨others, rfl, rfl⟩
      · exact hlast
      · exact hnone between pass others rfl

/-- A role that is there stays until it is lost. -/
theorem HostsStacks.hasRole_after_iff (h : cluster.HostsStacks) (hrole : cluster.HasRole name)
    (hlater : ∀ event ∈ later, event.IsOnAnchors) (hname : name ∈ sharedRoles) :
    (cluster.after later).HasRole name ↔ ¬ cluster.LosesRole name later := by
  induction later using List.reverseRecOn with
  | nil => exact iff_of_true hrole not_losesRole_nil
  | append_singleton later event ih =>
    have hbefore : ∀ event ∈ later, event.IsOnAnchors :=
      fun event hevent => hlater event (List.mem_append_left _ hevent)
    have hevent : event.IsOnAnchors :=
      hlater event (List.mem_append_right _ (List.mem_singleton_self _))
    have hexclusive : (cluster.after later).PassesTo event .reconciled →
        ¬ (cluster.after later).TakesRole name event :=
      fun hreconciled htakes => absurd (hreconciled.unique htakes.1) (by simp)
    have hstep := (h.after_events hbefore).hasRole_undergo_iff hevent hname
    rw [ih hbefore] at hstep
    rw [after_append, losesRole_append_singleton]
    refine hstep.trans ?_
    tauto

/-- **The cluster roles stay while nobody takes them.** Anchors are created, changed and deleted, and
passes are made for them, in any order. Once a pass has returned that everything is in place, each of
the two roles is there, unless a pass has since torn down the anchor that controlled it, and no pass
after that has returned that everything is in place. -/
theorem role_stays_iff {now : Timestamp} {earlier later : List Event} {pass : Event}
    (hevents : ∀ event ∈ earlier ++ pass :: later, event.IsOnAnchors)
    (hpass : (Cluster.after { now := now } earlier).PassesTo pass .reconciled)
    (hname : name ∈ sharedRoles) :
    (Cluster.after { now := now } (earlier ++ pass :: later)).HasRole name ↔
      ¬ (Cluster.after { now := now } (earlier ++ [pass])).LosesRole name later := by
  have hearlier : ∀ event ∈ earlier, event.IsOnAnchors :=
    fun event hevent => hevents event (List.mem_append_left _ hevent)
  have hthis : pass.IsOnAnchors :=
    hevents pass (List.mem_append_right _ (List.mem_cons_self ..))
  have hlater : ∀ event ∈ later, event.IsOnAnchors := fun event hevent =>
    hevents event (List.mem_append_right _ (List.mem_cons_of_mem _ hevent))
  have hhosts := (hostsStacks_empty now).after_events hearlier
  have hrole := (hhosts.hasRole_undergo_iff hthis hname).2 (Or.inl hpass)
  have hstays := (hhosts.undergo hthis).hasRole_after_iff hrole hlater hname
  rw [after_append, after_append]
  exact hstays

/-! ## Two anchors and the roles

The roles are made for the anchor `edge`, which comes first, and the anchor `shop` finds them there.
They outlast the deletion of `edge`, but not the pass after it. -/

/-- The key of an anchor of the team. -/
def teamKey (name : String) : ObjectKey :=
  .inNamespace "team" name

/-- Both anchors are created, and `edge` gets its stack. -/
def teamOpening : List Event :=
  openingOf (anchorIn "team" "edge") (anchorIn "team" "shop") ++ [.anchorPass (teamKey "edge")]

theorem holdsPair_team :
    (pairOf (anchorIn "team" "edge") (anchorIn "team" "shop")).HoldsPair (teamKey "edge")
      (teamKey "shop") (ownerIn "team" "edge") (ownerIn "team" "shop") where
  quiet := isQuiet_pairOf ..
  first := ⟨.unmarked, Or.inl rfl, _, rfl, rfl, rfl⟩
  second := ⟨.unmarked, Or.inl rfl, _, rfl, rfl, rfl⟩
  apart := by decide
  alone := alone_of_paths rfl

/-- The pass for `shop` returns that everything is in place. -/
theorem shop_reconciled :
    (Cluster.after { now := openingTime } teamOpening).PassesTo
      (.anchorPass (teamKey "shop")) .reconciled := by
  rw [teamOpening, after_append]
  exact holdsPair_team.hostsStacks.reconciled_visits holdsPair_team.lives
    (isSetup_pair (teamKey "edge") (teamKey "shop")).1.visits [.anchorPass (teamKey "edge")]
    (teamKey "shop") [] rfl

/-- The pass for `shop`, and the deletion of `edge`. -/
def teamChange : List Event :=
  [.anchorPass (teamKey "shop"), .call (.delete .anchor (teamKey "edge"))]

theorem isOnAnchors_team : ∀ event ∈ teamOpening ++ teamChange, event.IsOnAnchors := by
  simp [teamOpening, teamChange, openingOf, Event.IsOnAnchors, Request.writtenKind?]

theorem roles_outlast_deletion :
    (∀ event ∈ teamOpening ++ teamChange, event.IsOnAnchors) ∧
      (Cluster.after { now := openingTime } teamOpening).PassesTo
        (.anchorPass (teamKey "shop")) .reconciled ∧
      ∀ name ∈ sharedRoles,
        (Cluster.after { now := openingTime } (teamOpening ++ teamChange)).HasRole name := by
  refine ⟨isOnAnchors_team, shop_reconciled, fun name hname => ?_⟩
  refine (role_stays_iff isOnAnchors_team shop_reconciled hname).2 ?_
  -- a deletion is no pass, so it takes nothing
  rintro ⟨earlier, event, rest, heq, ⟨⟨key, rfl, _⟩, _⟩, _⟩
  have hmem : Event.anchorPass key ∈ [Event.call (.delete .anchor (teamKey "edge"))] :=
    heq ▸ List.mem_append_right _ (List.mem_cons_self ..)
  simp at hmem

/-- After the teardown of `edge` both roles are gone, while `shop` lives and its latest pass has
returned that everything is in place. -/
theorem roles_gone_while_needed :
    (∀ event ∈ teamOpening ++ teamChange ++ [.anchorPass (teamKey "edge")], event.IsOnAnchors) ∧
      (ownerIn "team" "edge").name ≠ (ownerIn "team" "shop").name ∧
      (Cluster.after { now := openingTime } teamOpening).PassesTo
        (.anchorPass (teamKey "shop")) .reconciled ∧
      (Cluster.after { now := openingTime } (teamOpening ++ teamChange ++
        [.anchorPass (teamKey "edge")])).Lives (teamKey "shop") (ownerIn "team" "shop") ∧
      ∀ name ∈ sharedRoles, ¬ (Cluster.after { now := openingTime } (teamOpening ++ teamChange ++
        [.anchorPass (teamKey "edge")])).HasRole name := by
  let setup : List Event := [.anchorPass (teamKey "edge"), .anchorPass (teamKey "shop")]
  have h := holdsPair_team
  have hsetup : IsSetup (teamKey "edge") (teamKey "shop") setup := (isSetup_pair _ _).1
  have hwaiting : ∀ event : Event, event ∈ [] → event.IsVisit [teamKey "shop"] :=
    List.forall_mem_nil _
  have hsplit : teamOpening ++ teamChange ++ [.anchorPass (teamKey "edge")] =
      openingOf (anchorIn "team" "edge") (anchorIn "team" "shop") ++
        (untilTeardown (teamKey "edge") setup [] ++ [.anchorPass (teamKey "edge")]) := rfl
  have hevents : ∀ event ∈ teamOpening ++ teamChange ++ [.anchorPass (teamKey "edge")],
      event.IsOnAnchors :=
    List.forall_mem_append.2 ⟨isOnAnchors_team, List.forall_mem_singleton.2 trivial⟩
  obtain ⟨hhosts, htearing, hlives, _⟩ := h.until_teardown hsetup hwaiting
  have htakes := (hhosts.pass_takesDown htearing).2
  have hend := after_openingOf (anchorIn "team" "edge") (anchorIn "team" "shop")
    (untilTeardown (teamKey "edge") setup []) (.anchorPass (teamKey "edge"))
  rw [← hsplit] at hend
  rw [hend]
  refine ⟨hevents, by decide, shop_reconciled, htakes.lives hlives h.apart.symm,
    fun name hname hrole => ?_⟩
  obtain ⟨component, hpath, hcomponent⟩ := exists_component_of_role hname
  have hkept := (h.hasComponent_iff hsetup hwaiting component).1 ((hcomponent _ _).2 hrole)
  rcases hkept with hapart | ⟨hfirst, _⟩
  · exact hapart component ((hpath _).trans (hpath _).symm)
  · exact absurd hfirst (by decide)

end Cluster

end EdgeOperator
