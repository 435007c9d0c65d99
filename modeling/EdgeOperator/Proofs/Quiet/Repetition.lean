import EdgeOperator.Proofs.Quiet.Installation

set_option autoImplicit false

/-! # Passes repeated

A pass that has come to something has nothing to do when it is repeated at once: it looks at what the
first one has left, writes nothing and says so (`Duty.repeated_pass_idles`).

Whether a program has nothing to do is a matter of what is stored (`Program.Idles`). For the parts of
a pass it is said here what has to be in place for that, and then that a pass that goes well has it in
place. -/

namespace EdgeOperator

open Program Cluster

variable {kind : Kind} {clock : Nat → Timestamp} {cluster : Cluster}

/-! ## Programs that have nothing to do -/

namespace Program

variable {α β : Type} {after : Cluster}

/-- Whether a program comes to a value without a write on every quiet cluster that holds the same
objects as a given one; it leaves them all. -/
def Idles (program : Program α) (clock : Nat → Timestamp) (cluster : Cluster) (value : α) : Prop :=
  ∀ now : Cluster, now.IsQuiet → now.objects = cluster.objects →
    program.Unfolds (serveAt clock) now fun exchanges result after =>
      writes exchanges = [] ∧ result = .ok value ∧ after.IsQuiet ∧ after.objects = cluster.objects

/-- Only what is stored matters. -/
theorem Idles.of_objects {program : Program α} {value : α} (h : program.Idles clock cluster value)
    (hobjects : after.objects = cluster.objects) : program.Idles clock after value := by
  unfold Idles
  rw [hobjects]
  exact h

theorem idles_pure (value : α) : (pure value : Program α).Idles clock cluster value := by
  intro now hquiet hobjects
  exact unfolds_pure.2 ⟨rfl, rfl, hquiet, hobjects⟩

theorem idles_get (kind : Kind) (key : ObjectKey) :
    (perform (.get kind key)).Idles clock cluster (cluster.find? kind (key.path kind)) := by
  intro now hquiet hobjects
  obtain ⟨after, hget, hafter, hsame⟩ := hquiet.serve_get clock kind key
  have hfind := (leaves_of_objects hobjects kind).find?_eq (key.path kind)
  refine unfolds_perform.2 ⟨rfl, ?_, ?_, ?_⟩ <;> rw [hget]
  · rw [hfind]
  · exact hafter
  · exact hsame.trans hobjects

theorem Idles.bind {program : Program α} {next : α → Program β} {value : α} {final : β}
    (h : program.Idles clock cluster value) (hnext : (next value).Idles clock cluster final) :
    (program >>= next).Idles clock cluster final := by
  intro now hquiet hobjects
  refine Unfolds.bind (h now hquiet hobjects) ?_ ?_
  · rintro exchanges found after ⟨hwrites, hfound, hafter, hsame⟩
    obtain rfl := Except.ok.inj hfound
    refine (hnext after hafter hsame).mono ?_
    rintro later result last ⟨hlater, hresult, hlast⟩
    refine ⟨?_, hresult, hlast⟩
    rw [writes_append, hwrites, hlater, List.append_nil]
  · rintro exchanges e after ⟨_, hfalse, _⟩
    cases hfalse

end Program

/-! ## Installations that have nothing to do -/

theorem ensure_idles {key : ObjectKey} {object : Resource kind}
    (hfind : cluster.find? kind (key.path kind) = some object) (planned : Resource kind) :
    (ensure key planned).Idles clock cluster ⟨object, .alreadySatisfied, false⟩ := by
  refine (idles_get kind key).bind ?_
  rw [hfind]
  exact idles_pure _

theorem ensureComponents_idles {owner : Owner} {components : List Component}
    (hfind : ∀ component ∈ components, ∃ object,
      cluster.find? (.plain component.kind) (component.path owner) = some object) :
    (ensureComponents owner components).Idles clock cluster () := by
  induction components with
  | nil => exact idles_pure ()
  | cons component rest ih =>
    obtain ⟨⟨object, hobject⟩, hrest⟩ := List.forall_mem_cons.1 hfind
    have hcomponent : (component.ensure owner).Idles clock cluster .alreadySatisfied :=
      (ensure_idles hobject _).bind (idles_pure _)
    exact hcomponent.bind (ih hrest)

namespace RouteTask

variable {task : RouteTask} {ingress : Resource .ingress}

/-- Where the route is served, nothing has to be merged. -/
theorem attemptRoute_idles (hfind : cluster.find? .ingress task.place = some ingress)
    (hserved : task.IsServedBy ingress) :
    (attemptRoute task.frontend task.spec).Idles clock cluster (.settled .alreadySatisfied) := by
  have hunchanged : (task.merged ingress).changed = false := changed_mergePath.2 hserved
  refine (idles_get .ingress (routingKey task.frontend.namespaceName)).bind ?_
  have hfound : cluster.find? .ingress ((routingKey task.frontend.namespaceName).path .ingress) =
    some ingress := hfind
  rw [hfound]
  dsimp only
  rw [updateRouting_eq, hunchanged, if_neg Bool.false_ne_true]
  exact idles_pure _

/-- Where the workload is in place and the route is served, an installation that may attempt the route
at all has nothing to do. -/
theorem install_idles (hattempts : task.attempts ≠ 0)
    (hchores : ∀ chore ∈ task.chores, ∃ object,
      cluster.find? (.plain chore.kind) chore.path = some object)
    (hfind : cluster.find? .ingress task.place = some ingress) (hserved : task.IsServedBy ingress)
    {object : Resource .frontend} (hspec : FrontendContent.spec object.content = task.spec) :
    ((Duty.frontend task.attempts).install task.frontend object).Idles clock cluster () := by
  obtain ⟨⟨service, hservice⟩, hrest⟩ := List.forall_mem_cons.1 hchores
  obtain ⟨⟨deployment, hdeployment⟩, _⟩ := List.forall_mem_cons.1 hrest
  have hroute : (ensureRoute task.frontend task.spec task.attempts).Idles clock cluster
      .alreadySatisfied := by
    obtain ⟨left, hleft⟩ := Nat.exists_eq_succ_of_ne_zero hattempts
    unfold ensureRoute
    rw [hleft]
    exact (attemptRoute_idles hfind hserved).bind (idles_pure _)
  unfold Duty.frontend
  dsimp only
  rw [hspec]
  exact (ensure_idles hservice _).bind
    ((ensure_idles hdeployment _).bind (hroute.bind (idles_pure ())))

end RouteTask

/-! ## Passes that have nothing to do -/

namespace Duty

variable {duty : Duty kind} {key : ObjectKey} {object : Resource kind} {owner : Owner}

theorem pass_idles_of_absent (hfind : cluster.find? kind (key.path kind) = none) :
    (duty.pass key).Idles clock cluster .removed := by
  refine (idles_get kind key).bind ?_
  rw [hfind]
  exact idles_pure _

theorem pass_idles_of_released (hfind : cluster.find? kind (key.path kind) = some object)
    (hstage : object.metadata.lifeStage duty.mark = .released) :
    (duty.pass key).Idles clock cluster .removed := by
  refine (idles_get kind key).bind ?_
  rw [hfind]
  dsimp only
  rw [hstage]
  exact idles_pure _

theorem pass_idles_of_marked (hfind : cluster.find? kind (key.path kind) = some object)
    (hstage : object.metadata.lifeStage duty.mark = .marked)
    (howner : Owner.ofResource object = .ok owner)
    (hinstall : (duty.install owner object).Idles clock cluster ()) :
    (duty.pass key).Idles clock cluster .reconciled := by
  refine (idles_get kind key).bind ?_
  rw [hfind]
  dsimp only
  rw [hstage]
  dsimp only [settle]
  rw [howner]
  exact hinstall.bind (idles_pure _)

/-! ## What installations leave -/

/-- Whether an installation, if it goes well, leaves the resource in its place and would have nothing
to do for it. -/
def InstallsForGood (duty : Duty kind) (clock : Nat → Timestamp) (owner : Owner) (place : String)
    (read current : Resource kind) (middle : Cluster) : Prop :=
  (duty.install owner read).Unfolds (serveAt clock) middle fun _ result after => result = .ok () →
    after.find? kind place = some current ∧ (duty.install owner current).Idles clock after ()

variable {first middle : Cluster} {exchanges : List Exchange}

theorem anchor_installsForGood {read current held : Resource .anchor} {place : String}
    (hheld : first.find? .anchor place = some held)
    (h : Furnished place ⟨.anchor, current⟩ first [] exchanges middle) :
    anchor.InstallsForGood clock owner place read current middle := by
  have hstart : Furnished place ⟨.anchor, current⟩ first
      (([] : List Component).map (Chore.ofComponent owner)) exchanges middle := h
  have hinstall : (anchor.install owner read).Unfolds (serveAt clock) middle _ :=
    ensureComponents_furnished hstart Component.nodup_creationOrder
  refine hinstall.mono ?_
  rintro later result after ⟨finished, _, hall, hfurnished⟩ hok
  obtain rfl := hall hok
  exact ⟨find?_eq_some.2 hfurnished.held,
    ensureComponents_idles fun _ hmem => hfurnished.present_component hheld hmem⟩

/-- Without an attempt at the route no installation goes well. -/
theorem frontend_fails_unattempted (owner : Owner) (read : Resource .frontend) (middle : Cluster) :
    ((frontend 0).install owner read).Unfolds (serveAt clock) middle fun _ result _ =>
      result ≠ .ok () := by
  have hany : ∀ {α : Type} (program : Program α) (now : Cluster),
      program.Unfolds (serveAt clock) now fun _ _ _ => True := fun _ _ => trivial
  refine (hany _ _).bind (fun _ _ now _ => ?_) (by simp)
  refine (hany _ _).bind (fun _ _ now _ => ?_) (by simp)
  exact unfolds_bind.2 (unfolds_fail.2 (by simp))

theorem frontend_installsForGood {attempts : Nat} {read current held : Resource .frontend}
    {place : String} (hquiet : middle.IsQuiet) (hscope : '/' ∉ owner.namespaceName.toList)
    (hlives : ∀ ingress, first.find? .ingress (routingPath owner.namespaceName) = some ingress →
      ingress.metadata.isDeleted = false)
    (hheld : first.find? .frontend place = some held)
    (hne : routingPath owner.namespaceName ≠ place)
    (hcontent : current.content = read.content)
    (h : Furnished place ⟨.frontend, current⟩ first [] exchanges middle) :
    (frontend attempts).InstallsForGood clock owner place read current middle := by
  by_cases hattempts : attempts = 0
  · -- then no installation goes well
    subst hattempts
    exact (frontend_fails_unattempted owner read middle).mono fun _ _ _ hfails hok =>
      absurd hok hfails
  let task : RouteTask := ⟨owner, FrontendContent.spec read.content, attempts⟩
  have hscript : ∀ n, (⟨[], clock n⟩ : Arrangement).IsTruthful := fun _ _ hmem => nomatch hmem
  have hfair : task.IsFair middle := .of_quiet hquiet
  have hinstall : ((frontend attempts).install owner read).Unfolds (serveAt clock) middle _ :=
    RouteTask.install_equips hscript hscope hfair rfl h
  refine hinstall.mono fun later result after hequips hok => ?_
  subst hok
  have hcurrent : after.find? .frontend place = some current := find?_eq_some.2 (hequips.held hne)
  obtain ⟨building, routing, now, hfurnished, hsettles⟩ := hequips.settled
  have hchores : ∀ chore ∈ task.chores, ∃ object,
      after.find? (.plain chore.kind) chore.path = some object :=
    RouteTask.present_of_others hsettles.others (fun _ => find?_none_of_kind_ne hheld (by simp))
      hfurnished
  obtain ⟨ingress, hfind, hserved⟩ :=
    hsettles.isServed (RouteTask.Lives.of_furnished hlives rfl hfurnished)
  have hspec : FrontendContent.spec current.content = task.spec :=
    congrArg FrontendContent.spec hcontent
  exact ⟨hcurrent, RouteTask.install_idles hattempts hchores hfind hserved hspec⟩

end Duty

/-! ## What passes leave -/

/-- What is said of a resource that is as a pass has left it. -/
def PassOutcome.again : PassOutcome → PassOutcome
  | .reconciled => .reconciled
  | .tornDown | .removed => .removed

namespace Duty

variable {duty : Duty kind} {key : ObjectKey} {object : Resource kind}

/-- Whether a pass, if it comes to something, leaves nothing to do for another one. -/
def PassesForGood (duty : Duty kind) (clock : Nat → Timestamp) (key : ObjectKey)
    (result : Except OperatorError PassOutcome) (after : Cluster) : Prop :=
  ∀ outcome, result = .ok outcome → (duty.pass key).Idles clock after outcome.again

/-- A resource that was let go is gone, or none of the operator's business any more. -/
theorem LetsGo.idles {before after : Cluster} (h : duty.LetsGo object (key.path kind) before after)
    (hdeleted : object.metadata.isDeleted = true) :
    (duty.pass key).Idles clock after .removed := by
  obtain ⟨version, hobjects⟩ := h
  split at hobjects
  · refine pass_idles_of_absent (find?_of_absent ?_)
    rw [hobjects, StringMap.get?_erase, if_pos rfl]
  · have hfind := (find?_of_set hobjects ..).2 (Or.inl ⟨rfl, rfl⟩)
    refine pass_idles_of_released hfind ?_
    refine Metadata.lifeStage_eq_released.2 ⟨hdeleted, ?_⟩
    show duty.mark ∉ object.metadata.finalizers.filter fun finalizer => finalizer ≠ duty.mark
    simp

/-- A pass that has nothing to do leaves nothing to do. -/
theorem passesForGood_of_idles {outcome : PassOutcome} (hquiet : cluster.IsQuiet)
    (h : (duty.pass key).Idles clock cluster outcome) (hagain : outcome.again = outcome) :
    (duty.pass key).Unfolds (serveAt clock) cluster fun _ => duty.PassesForGood clock key := by
  refine (h cluster hquiet rfl).mono ?_
  rintro exchanges result after ⟨_, hresult, _, hobjects⟩ other hok
  obtain rfl : outcome = other := Except.ok.inj (hresult.symm.trans hok)
  rw [hagain]
  exact h.of_objects hobjects

theorem passesForGood_of_live (hduty : duty.IsOperators) (hquiet : cluster.IsQuiet)
    (hfind : cluster.find? kind (key.path kind) = some object)
    (hlive : object.metadata.isDeleted = false)
    (hinstall : ∀ owner exchanges middle current, Owner.ofResource object = .ok owner →
      middle.IsQuiet → duty.IsClaimOf object current →
        Furnished (key.path kind) ⟨kind, current⟩ cluster [] exchanges middle →
          duty.InstallsForGood clock owner (key.path kind) object current middle) :
    (duty.pass key).Unfolds (serveAt clock) cluster fun _ => duty.PassesForGood clock key := by
  refine unfolds_pass_of_live hquiet hfind hlive ?_
  intro exchanges middle stored hmade _ hmiddle hclaims hstored
  obtain ⟨current, hclaim, hfurnished⟩ := hclaims.furnished hduty hmade
  cases howner : Owner.ofResource object with
  | error e =>
    unfold settle
    rw [hstored, howner]
    exact unfolds_fail.2 fun _ heq => nomatch heq
  | ok owner =>
    refine settle_unfolds (hstored.trans howner) ?_
    refine Unfolds.mono (hinstall owner exchanges middle current howner hmiddle hclaim hfurnished) ?_
    intro later result after hinstalled outcome hok
    cases result with
    | error e => cases hok
    | ok _ =>
      obtain rfl := Except.ok.inj hok
      obtain ⟨hcurrent, hidles⟩ := hinstalled rfl
      exact pass_idles_of_marked hcurrent hclaim.lifeStage (hclaim.ofResource_eq.trans howner) hidles

theorem passesForGood_of_deleted (hduty : duty.IsOperators) (hquiet : cluster.IsQuiet)
    (hfind : cluster.find? kind (key.path kind) = some object)
    (hdeleted : object.metadata.isDeleted = true) :
    (duty.pass key).Unfolds (serveAt clock) cluster fun _ => duty.PassesForGood clock key := by
  by_cases hmark : duty.mark ∈ object.metadata.finalizers
  · have hstage := Metadata.lifeStage_eq_tearingDown.2 ⟨hdeleted, hmark⟩
    cases howner : Owner.ofResource object with
    | error e =>
      obtain ⟨looked, hget, _, _⟩ := hquiet.serve_get clock kind key
      rw [pass_eq]
      refine unfolds_bind.2 (unfolds_perform.2 ?_)
      rw [hget, hfind]
      simp only [serveFound, hstage, dismantle, howner]
      refine unfolds_fail.2 fun _ heq => ?_
      cases heq
    | ok owner =>
      have hteardown : ∀ looked : Cluster, looked.IsQuiet → looked.objects = cluster.objects →
          (teardown owner (duty.teardownPlan owner)).Unfolds (serveAt clock) looked
            fun _ _ _ => True := fun _ _ _ => trivial
      refine unfolds_pass_of_deleted hduty hquiet hfind hstage howner hteardown ?_ ?_
      · intro _ _ _ _ _ _ heq
        cases heq
      · -- whatever the teardown has left, the resource was let go after it
        intro _ _ now after _ _ _ hgone outcome hok
        obtain rfl := Except.ok.inj hok
        exact hgone.idles hdeleted
  · have hstage := Metadata.lifeStage_eq_released.2 ⟨hdeleted, hmark⟩
    exact passesForGood_of_idles hquiet (pass_idles_of_released hfind hstage) rfl

/-! ## The main result -/

/-- On a quiet cluster a pass for any key that comes to something leaves nothing to do: repeated at
once, it writes nothing, every object stays as it is, and the outcome is the same, but that after a
teardown the resource is said to be removed. The routing ingress is not to be one that is to go
anyway, since the first pass could let go of it. -/
theorem repeated_pass_idles (hduty : duty.IsOperators) (hquiet : cluster.IsQuiet)
    (clock : Nat → Timestamp) (key : ObjectKey)
    (hrouting : ∀ object owner, cluster.find? kind (key.path kind) = some object →
      Owner.ofResource object = .ok owner → '/' ∉ owner.namespaceName.toList ∧
        ∀ ingress, cluster.find? .ingress (routingPath owner.namespaceName) = some ingress →
          ingress.metadata.isDeleted = false) :
    (duty.pass key).Unfolds (serveAt clock) cluster fun _ result after =>
      ∀ outcome, result = .ok outcome →
        (duty.pass key).Unfolds (serveAt clock) after fun exchanges repeated now =>
          writes exchanges = [] ∧ now.objects = after.objects ∧ repeated = .ok outcome.again := by
  have hpasses : (duty.pass key).Unfolds (serveAt clock) cluster
      fun _ => duty.PassesForGood clock key := by
    -- the first look tells a key without a resource, one that is to go and one that lives
    cases hfind : cluster.find? kind (key.path kind) with
    | none => exact passesForGood_of_idles hquiet (pass_idles_of_absent hfind) rfl
    | some object =>
      cases hdeleted : object.metadata.isDeleted with
      | true => exact passesForGood_of_deleted hduty hquiet hfind hdeleted
      | false =>
        refine passesForGood_of_live hduty hquiet hfind hdeleted ?_
        intro owner exchanges middle current howner hmiddle hclaim hfurnished
        cases hduty with
        | anchor => exact anchor_installsForGood hfind hfurnished
        | frontend attempts =>
          obtain ⟨hscope, hlives⟩ := hrouting object owner hfind howner
          exact frontend_installsForGood hmiddle hscope hlives hfind
            (routingPath_ne_frontend _ key) hclaim.content_eq hfurnished
  refine (hquiet.keeping hpasses).mono fun exchanges result after ⟨hidles, hquiet⟩ outcome hok => ?_
  refine (hidles outcome hok after hquiet rfl).mono ?_
  rintro later repeated now ⟨hwrites, hrepeated, _, hobjects⟩
  exact ⟨hwrites, hobjects, hrepeated⟩

/-! ## A frontend whose pattern is routed elsewhere

The frontend is held by somebody else too. On the ingress there are a path without a pattern and two
paths with the pattern of the frontend, both to another service. The first pass marks the frontend,
creates its workload and changes the first of the two; the second pass finds all of that done. -/

/-- The time of every call. -/
def restingClock : Nat → Timestamp :=
  fun _ => ⟨2024, 1, 1, 0, 0, 0, 0⟩

/-- A frontend that somebody else holds. -/
def restlessFrontend : Resource .frontend where
  metadata :=
    { name? := some "shop"
      namespaceName? := some "team"
      uid? := some "uid-shop"
      finalizers? := some ["audit/hold"] }
  content := { spec := { imageName := "web", port := 80 } }

/-- A path to another service. -/
def foreignPath (path? : Option String) : IngressPath where
  path? := path?
  pathType := "ImplementationSpecific"
  backend := .ofService "other" 8080

/-- The routing ingress that is there already. -/
def restlessRouting : Resource .ingress where
  metadata := { name? := some (Names.routingIngress "team"), namespaceName? := some "team" }
  content := {
    spec? := some {
      rules? := some [{
        paths? := some [foreignPath none, foreignPath (some (routePattern "shop" false)),
          foreignPath (some (routePattern "shop" false))] }] } }

/-- The cluster with both of them. -/
def restlessCluster : Cluster :=
  ((Cluster.create { now := restingClock 0 } restlessFrontend).2.create restlessRouting).2

theorem restlessCluster_isQuiet : restlessCluster.IsQuiet where
  reachable := .seed _ (.seed _ (.empty _))
  faultless _ hmem := nomatch hmem
  undisturbed _ := rfl

theorem restless_frontend_comes_to_rest :
    restlessCluster.IsQuiet ∧
    ((frontend 5).pass restlessFrontend.key).Unfolds (serveAt restingClock) restlessCluster
      fun exchanges result after =>
        result = .ok .reconciled ∧
        writes exchanges = [.frontend, .plain .service, .plain .deployment, .ingress] ∧
        ((frontend 5).pass restlessFrontend.key).Unfolds (serveAt restingClock) after
          fun exchanges repeated now =>
            writes exchanges = [] ∧ now.objects = after.objects ∧ repeated = .ok .reconciled := by
  have hrouting : ∀ object owner,
      restlessCluster.find? .frontend (restlessFrontend.key.path .frontend) = some object →
        Owner.ofResource object = .ok owner → '/' ∉ owner.namespaceName.toList ∧
          ∀ ingress, restlessCluster.find? .ingress (routingPath owner.namespaceName) = some ingress →
            ingress.metadata.isDeleted = false := by
    intro object owner hfind howner
    have hstored : restlessCluster.find? .frontend (restlessFrontend.key.path .frontend) =
      some (Cluster.created { now := restingClock 0 } restlessFrontend).wholeSeconds := rfl
    obtain rfl := Option.some.inj (hstored.symm.trans hfind)
    obtain rfl := Except.ok.inj howner
    refine ⟨by decide, fun ingress hingress => ?_⟩
    have hrouting : restlessCluster.find? .ingress (routingPath "team") = some
      (Cluster.created { now := restingClock 0, revision := 1 } restlessRouting).wholeSeconds := rfl
    obtain rfl := Option.some.inj (hrouting.symm.trans hingress)
    rfl
  have hpass := repeated_pass_idles (.frontend 5) restlessCluster_isQuiet restingClock
    restlessFrontend.key hrouting
  exact ⟨restlessCluster_isQuiet, rfl, rfl, hpass .reconciled rfl⟩

end Duty

end EdgeOperator
