import EdgeOperator.Proofs.Installation
import EdgeOperator.Proofs.ObjectKey
import EdgeOperator.Proofs.Owner

set_option autoImplicit false

/-! # What an attempt at a route makes

Attempts at a route are made among faults and other writers. One that does not get through leaves
the cluster as it was, but for what another writer has made of the routing ingress
(`RouteTask.Spares`). One that does leaves an ingress whose first path with the pattern of the route
leads to the frontend, and if there was no ingress before, it is the one that was planned; only an
ingress that was to go anyway may go (`RouteTask.Settles`). As every attempt reads the ingress anew,
the same holds of the whole loop (`RouteTask.retryRoute_unfolds`). -/

namespace EdgeOperator

open Program Cluster

/-- Whether an edit asks for the deletion of no ingress. -/
def Edit.KeepsAlive (edit : Edit) : Prop :=
  ∀ ingress : Resource .ingress, ingress.metadata.isDeleted = false →
    (edit .ingress ingress).metadata.isDeleted = false

/-- No frontend is stored under the path of a routing ingress. -/
theorem routingPath_ne_frontend (scope : String) (key : ObjectKey) :
    routingPath scope ≠ key.path .frontend := by
  intro heq
  have hgroup : Kind.ingress.group = Kind.frontend.group := ObjectKey.group_eq_of_path heq
  exact absurd hgroup (by decide)

namespace RouteTask

variable {task : RouteTask} {script : Nat → Arrangement} {cluster first now after : Cluster}
  {earlier later exchanges : List Exchange}

/-! ## What attempts rely on -/

/-- The path of the ingress that the run is about. -/
def place (task : RouteTask) : String :=
  routingPath task.frontend.namespaceName

/-- Whether the first path with the pattern of the route has its backend. -/
def IsServedBy (task : RouteTask) (ingress : Resource .ingress) : Prop :=
  backendOf? (IngressContent.routes ingress.content) task.pattern = some task.backend

/-- The ingress that is created for the route where there is none. -/
def planned? (task : RouteTask) (cluster : Cluster) : Option (Resource .ingress) :=
  (Anchor.first? (cluster.listed .anchor (some task.frontend.namespaceName))).bind fun anchor =>
    (Owner.ofResource anchor).toOption.map fun owner =>
      routingIngress owner (task.spec.route task.frontend)

/-- Whether no fault hides an object, and whoever waits for the replacement of the routing ingress
lets it live. -/
structure IsFair (task : RouteTask) (cluster : Cluster) : Prop where
  reachable : cluster.Reachable
  truthful : cluster.IsTruthful
  waiting : cluster.AllWaiting fun path edit => path = task.place → edit.KeepsAlive

/-- Whether the routing ingress is not to go, if it is there. -/
def Lives (task : RouteTask) (cluster : Cluster) : Prop :=
  ∀ ingress, cluster.find? .ingress task.place = some ingress → ingress.metadata.isDeleted = false

theorem IsFair.serveAmid (h : task.IsFair cluster) (hscript : ∀ n, (script n).IsTruthful)
    (request : Request) : task.IsFair (Cluster.serveAmid script request cluster).2 where
  reachable := h.reachable.serveAmid request
  truthful := h.truthful.serveAmid hscript request
  waiting := h.waiting.serveAmid request

/-- The ingress that is planned belongs to the namespace of the frontend. -/
theorem path_of_planned? (hsound : cluster.Sound)
    (hscope : '/' ∉ task.frontend.namespaceName.toList) {planned : Resource .ingress}
    (h : task.planned? cluster = some planned) : planned.path = task.place := by
  obtain ⟨anchor, hfirst, hplanned⟩ := Option.bind_eq_some_iff.1 h
  obtain ⟨owner, howner, rfl⟩ := Option.map_eq_some_iff.1 hplanned
  have hlisted := namespaceName?_of_mem_listed hsound hscope rfl (Anchor.mem_of_first? hfirst).1
  cases hanchor : Owner.ofResource anchor with
  | error e =>
    rw [hanchor] at howner
    cases howner
  | ok other =>
    rw [hanchor] at howner
    obtain rfl : other = owner := Option.some.inj howner
    have hscopes := (Owner.namespaceName?_of_ofResource hanchor).symm.trans hlisted
    rw [routingIngress_path, Option.some.inj hscopes]
    rfl

/-! ## What attempts come to -/

/-- Whether a cluster is as another one but for what has become of the routing ingress; that is
there if and only if it was there, and it lives if it has lived. -/
structure Spares (task : RouteTask) (first now : Cluster) : Prop where
  others : ∀ path, path ≠ task.place → now.objects.get? path = first.objects.get? path
  absent_iff : now.objects.get? task.place = none ↔ first.objects.get? task.place = none
  anchors : Leaves .anchor first now
  lives : task.Lives first → task.Lives now

/-- Whether the route is in place, in the ingress that was there or in the one that was planned. An
ingress that was to go may have been let go by the write. -/
inductive Settles (task : RouteTask) (first : Cluster) (exchanges : List Exchange)
    (after : Cluster) : Prop where
  | merged {ingress : Resource .ingress} (hmade : made exchanges = [])
      (hstored : first.objects.get? task.place ≠ none)
      (hothers : ∀ path, path ≠ task.place → after.objects.get? path = first.objects.get? path)
      (hfind : after.find? .ingress task.place = some ingress) (hserved : task.IsServedBy ingress) :
      Settles task first exchanges after
  | created {planned next : Resource .ingress} (hplanned : task.planned? first = some planned)
      (hmade : made exchanges = [⟨.ingress, planned⟩])
      (hnone : first.objects.get? task.place = none)
      (hothers : ∀ path, path ≠ task.place → after.objects.get? path = first.objects.get? path)
      (hfind : after.find? .ingress task.place = some next)
      (hnext : next.outline = planned.outline) :
      Settles task first exchanges after
  | released (hmade : made exchanges = []) (hstored : first.objects.get? task.place ≠ none)
      (hothers : ∀ path, path ≠ task.place → after.objects.get? path = first.objects.get? path)
      (hdead : ¬ task.Lives first) : Settles task first exchanges after

/-- Whether the route was not written. The anchor is missed only where there is no ingress, and no
anchor that lives. -/
structure Fails (task : RouteTask) (first : Cluster) (exchanges : List Exchange)
    (e : OperatorError) (after : Cluster) : Prop where
  made_eq : made exchanges = []
  spares : task.Spares first after
  missing : ∀ scope, e = .missingAnchor scope → after.find? .ingress task.place = none ∧
    Anchor.first? (first.listed .anchor (some task.frontend.namespaceName)) = none

theorem Spares.of_objects (h : task.Spares first now) (hobjects : after.objects = now.objects) :
    task.Spares first after where
  others path hne := by rw [hobjects, h.others path hne]
  absent_iff := hobjects ▸ h.absent_iff
  anchors := h.anchors.trans (leaves_of_objects hobjects .anchor)
  lives hlives ingress hfind :=
    h.lives hlives ingress (((leaves_of_objects hobjects .ingress).find?_eq _).symm.trans hfind)

theorem spares_refl (task : RouteTask) (cluster : Cluster) : task.Spares cluster cluster :=
  ⟨fun _ _ => rfl, Iff.rfl, leaves_of_objects rfl .anchor, id⟩

theorem Spares.trans (h : task.Spares first now) (h' : task.Spares now after) :
    task.Spares first after where
  others path hne := (h'.others path hne).trans (h.others path hne)
  absent_iff := h'.absent_iff.trans h.absent_iff
  anchors := h.anchors.trans h'.anchors
  lives hlives := h'.lives (h.lives hlives)

/-- The ingress itself may be edited, as long as it lives on. -/
theorem Spares.rewrite (h : task.Spares first now) {ingress next : Resource .ingress}
    (hfind : now.find? .ingress task.place = some ingress)
    (hlive : ingress.metadata.isDeleted = false → next.metadata.isDeleted = false)
    (hobjects : after.objects = now.objects.set task.place ⟨.ingress, next⟩) :
    task.Spares first after := by
  have hget : after.objects.get? task.place = some ⟨.ingress, next⟩ := by
    rw [hobjects, StringMap.get?_set, if_pos rfl]
  refine ⟨fun path hne => ?_, ?_, h.anchors.trans ?_, fun hlives stored hstored => ?_⟩
  · rw [hobjects, StringMap.get?_set, if_neg hne.symm, h.others path hne]
  · rw [← h.absent_iff, hget, find?_eq_some.1 hfind]
    simp
  · exact leaves_of_set (by decide) (find?_none_of_kind_ne hfind (by decide)) hobjects
  · obtain rfl := Option.some.inj (hstored.symm.trans (find?_eq_some.2 hget))
    exact hlive (h.lives hlives ingress hfind)

theorem planned?_congr (h : Leaves .anchor first now) : task.planned? now = task.planned? first := by
  unfold planned?
  rw [h.listed_eq]

theorem Settles.others (h : task.Settles first exchanges after) :
    ∀ path, path ≠ task.place → after.objects.get? path = first.objects.get? path := by
  cases h with
  | merged _ _ hothers _ _ => exact hothers
  | created _ _ _ hothers _ _ => exact hothers
  | released _ _ hothers _ => exact hothers

theorem Settles.after_spares (h : task.Settles now later after) (hspares : task.Spares first now)
    (hmade : made earlier = []) : task.Settles first (earlier ++ later) after := by
  cases h with
  | merged hlater hstored hothers hfind hserved =>
    refine .merged ?_ ?_ ?_ hfind hserved
    · rw [made_append, hmade, hlater, List.append_nil]
    · exact fun hnone => hstored (hspares.absent_iff.2 hnone)
    · exact fun path hne => (hothers path hne).trans (hspares.others path hne)
  | created hplanned hlater hnone hothers hfind hnext =>
    refine .created (planned?_congr hspares.anchors ▸ hplanned) ?_
      (hspares.absent_iff.1 hnone) ?_ hfind hnext
    · rw [made_append, hmade, hlater, List.nil_append]
    · exact fun path hne => (hothers path hne).trans (hspares.others path hne)
  | released hlater hstored hothers hdead =>
    refine .released ?_ ?_ ?_ fun hlives => hdead (hspares.lives hlives)
    · rw [made_append, hmade, hlater, List.append_nil]
    · exact fun hnone => hstored (hspares.absent_iff.2 hnone)
    · exact fun path hne => (hothers path hne).trans (hspares.others path hne)

theorem Fails.after_spares {e : OperatorError} (h : task.Fails now later e after)
    (hspares : task.Spares first now) (hmade : made earlier = []) :
    task.Fails first (earlier ++ later) e after where
  made_eq := by rw [made_append, hmade, h.made_eq, List.append_nil]
  spares := hspares.trans h.spares
  missing scope heq := by
    rw [← hspares.anchors.listed_eq]
    exact h.missing scope heq

/-- What is left of an attempt is described from its start. -/
def Tries (task : RouteTask) (first : Cluster) (exchanges : List Exchange)
    (result : Except OperatorError RouteAttempt) (after : Cluster) : Prop :=
  match result with
  | .ok (.settled _) => task.Settles first exchanges after
  | .ok .overtaken => made exchanges = [] ∧ task.Spares first after
  | .error e => task.Fails first exchanges e after

theorem Tries.after_spares {result : Except OperatorError RouteAttempt}
    (h : task.Tries now later result after) (hspares : task.Spares first now)
    (hmade : made earlier = []) : task.Tries first (earlier ++ later) result after := by
  rcases result with e | outcome | _
  · exact Fails.after_spares h hspares hmade
  · exact Settles.after_spares h hspares hmade
  · obtain ⟨hlater, hafter⟩ := h
    refine ⟨?_, hspares.trans hafter⟩
    rw [made_append, hmade, hlater, List.append_nil]

/-- A call that is refused is the end of the attempt, and no anchor is missed. -/
theorem fails_of_refused {e : OperatorError} (hrefused : ∃ code reason, e = refused code reason)
    (hmade : made exchanges = []) (hspares : task.Spares first after) :
    task.Fails first exchanges e after := by
  obtain ⟨code, reason, rfl⟩ := hrefused
  exact ⟨hmade, hspares, fun scope heq => nomatch heq⟩

/-- A write that is refused is the end of the attempt. -/
theorem ofWrite_unfolds {server : Cluster.Server} {e : OperatorError} (outcome : Outcome)
    (hrefused : ∃ code reason, e = refused code reason) (hmade : made earlier = [])
    (hspares : task.Spares first now) :
    (RouteAttempt.ofWrite outcome (.error e)).Unfolds server now fun later result after =>
      task.Tries first (earlier ++ later) result after := by
  rw [← List.append_nil earlier] at hmade
  rcases RouteAttempt.ofWrite_error outcome e with heq | heq <;> rw [heq]
  · exact unfolds_pure.2 ⟨hmade, hspares⟩
  · exact unfolds_fail.2 (fails_of_refused hrefused hmade hspares)

/-! ## One attempt -/

theorem createRouting_unfolds (script : Nat → Arrangement) (hsound : cluster.Sound)
    (hscope : '/' ∉ task.frontend.namespaceName.toList)
    (hnone : cluster.find? .ingress task.place = none) :
    (createRouting task.frontend task.spec).Unfolds (serveAmid script) cluster
      (task.Tries cluster) := by
  obtain ⟨hobjects, hlist⟩ :=
    serveAmid_list script .anchor (some task.frontend.namespaceName) cluster
  have hlisted := (spares_refl task cluster).of_objects hobjects
  refine unfolds_bind.2 (unfolds_bind.2 (unfolds_perform.2 ?_))
  cases hanswer : (serveAmid script (.list .anchor (some task.frontend.namespaceName)) cluster).1 with
  | error e => exact fails_of_refused (refused_of_serveAmid hanswer) rfl hlisted
  | ok anchors =>
    obtain rfl := hlist anchors hanswer
    dsimp only
    cases hfirst : Anchor.first? (cluster.listed .anchor (some task.frontend.namespaceName)) with
    | none =>
      refine unfolds_fail.2 ⟨rfl, hlisted, fun _ _ => ⟨?_, hfirst⟩⟩
      rwa [(leaves_of_objects hobjects .ingress).find?_eq]
    | some anchor =>
      refine unfolds_pure.2 ?_
      dsimp only
      cases howner : Owner.ofResource anchor with
      | error e =>
        obtain ⟨text, rfl⟩ := Owner.invalidConfig_of_ofResource howner
        exact unfolds_fail.2 ⟨rfl, hlisted, fun scope heq => nomatch heq⟩
      | ok owner =>
        have hplanned : task.planned? cluster =
            some (routingIngress owner (task.spec.route task.frontend)) := by
          simp only [planned?, hfirst, Option.bind_some, howner]
          rfl
        have hpath := path_of_planned? hsound hscope hplanned
        refine unfolds_bind.2 (unfolds_attempt.2 ?_)
        rcases serveAmid_create script (routingIngress owner (task.spec.route task.frontend))
            (serveAmid script (.list .anchor (some task.frontend.namespaceName)) cluster).2 with
          ⟨e, after, hcreate, hafter⟩ | ⟨habsent, stored, next, after, hcreate, hafter, hnext⟩ <;>
          rw [hcreate]
        · have hmade : made [⟨.list .anchor (some task.frontend.namespaceName),
                .ok (cluster.listed .anchor (some task.frontend.namespaceName))⟩,
              ⟨.create .ingress (routingIngress owner (task.spec.route task.frontend)),
                .error e⟩] = [] := rfl
          have hrefused := refused_of_serveAmid (congrArg Prod.fst hcreate)
          exact ofWrite_unfolds .created hrefused hmade (hlisted.of_objects hafter)
        · rw [hpath, hobjects] at habsent hafter
          refine unfolds_pure.2 (.created hplanned rfl habsent (fun path hne => ?_) ?_ hnext)
          · rw [hafter]
            exact (StringMap.get?_set ..).trans (if_neg hne.symm)
          · exact (find?_of_set hafter ..).2 (Or.inl ⟨rfl, rfl⟩)

theorem updateRouting_unfolds (script : Nat → Arrangement) (hfair : task.IsFair cluster)
    {ingress : Resource .ingress}
    (hfind : cluster.find? .ingress task.place = some ingress) :
    (updateRouting task.frontend task.spec ingress).Unfolds (serveAmid script) cluster
      (task.Tries cluster) := by
  have hkept := hfair.reachable.sound.kept (find?_eq_some.1 hfind)
  have hpath : (task.update ingress).path = task.place := hkept.path_eq
  have hread : cluster.find? .ingress (task.update ingress).path = some ingress := hpath ▸ hfind
  have hstored : cluster.objects.get? task.place ≠ none := by simp [find?_eq_some.1 hfind]
  rw [updateRouting_eq]
  split
  · refine unfolds_bind.2 (unfolds_attempt.2 ?_)
    rcases serveAmid_rewrite script hfair.reachable hread rfl ⟨rfl, rfl, rfl⟩ with
      ⟨e, after, hserve, hafter⟩ | ⟨version, after, hserve, hafter⟩
    · have hrefused := refused_of_serveAmid (congrArg Prod.fst hserve)
      have hspares : task.Spares cluster after := by
        rcases hafter with hobjects | ⟨edit, rest, version, hedits, hobjects⟩
        · exact (spares_refl task cluster).of_objects hobjects
        · rw [hpath] at hedits hobjects
          have halive := hfair.waiting _ _ hedits edit (List.mem_cons_self ..) rfl
          refine (spares_refl task cluster).rewrite hfind (fun hlive => ?_) hobjects
          have hedited := halive ingress hlive
          simpa [Resource.edited, Resource.wholeSeconds, Metadata.wholeSeconds, Metadata.isDeleted]
            using hedited
      rw [hserve]
      exact ofWrite_unfolds .updated hrefused rfl hspares
    · rw [hpath] at hafter
      rw [hserve]
      split at hafter
      · next hgone =>
        have hdeleted : ingress.metadata.isDeleted = true := (Bool.and_eq_true_iff.1 hgone).1
        refine unfolds_pure.2 (.released rfl hstored (fun path hne => ?_) fun hlives => ?_)
        · rw [hafter]
          exact (StringMap.get?_erase ..).trans (if_neg hne.symm)
        · rw [hlives ingress hfind] at hdeleted
          cases hdeleted
      refine unfolds_pure.2 (.merged rfl hstored (fun path hne => ?_)
        ((find?_of_set hafter ..).2 (Or.inl ⟨rfl, rfl⟩)) ?_)
      · rw [hafter]
        exact (StringMap.get?_set ..).trans (if_neg hne.symm)
      · have hroutes := IngressContent.routes_withRoutes ingress.content (task.merged ingress).paths
        exact (congrArg (backendOf? · task.pattern) hroutes).trans (backendOf?_mergePath ..)
  · next hchanged =>
    have hserved : task.IsServedBy ingress := changed_mergePath.1 (eq_false_of_ne_true hchanged)
    exact unfolds_pure.2 (.merged rfl hstored (fun _ _ => rfl) hfind hserved)

theorem attemptRoute_unfolds (hscript : ∀ n, (script n).IsTruthful)
    (hscope : '/' ∉ task.frontend.namespaceName.toList) (hfair : task.IsFair cluster) :
    (attemptRoute task.frontend task.spec).Unfolds (serveAmid script) cluster
      (task.Tries cluster) := by
  obtain ⟨hobjects, hget⟩ :=
    serveAmid_get script .ingress (routingKey task.frontend.namespaceName) cluster
  have hlooked := (spares_refl task cluster).of_objects hobjects
  have hfair' := hfair.serveAmid hscript (.get .ingress (routingKey task.frontend.namespaceName))
  have hsame := (leaves_of_objects hobjects .ingress).find?_eq task.place
  refine unfolds_bind.2 (unfolds_perform.2 ?_)
  rcases hanswer : (serveAmid script
    (.get .ingress (routingKey task.frontend.namespaceName)) cluster).1 with e | _ | ingress
  · exact fails_of_refused (refused_of_serveAmid hanswer) rfl hlooked
  · have hnone := hsame.trans (hfair.truthful.find?_of_serveAmid_get hscript hanswer)
    refine (createRouting_unfolds script hfair'.reachable.sound hscope hnone).mono ?_
    exact fun later result after h => h.after_spares hlooked rfl
  · have hfind := hsame.trans (hget ingress hanswer)
    refine (updateRouting_unfolds script hfair' hfind).mono ?_
    exact fun later result after h => h.after_spares hlooked rfl

/-! ## All attempts -/

theorem retryRoute_unfolds (hscript : ∀ n, (script n).IsTruthful)
    (hscope : '/' ∉ task.frontend.namespaceName.toList) (total left : Nat)
    (hfair : task.IsFair cluster) :
    (retryRoute task.frontend task.spec total left).Unfolds (serveAmid script) cluster
      fun exchanges result after =>
        match result with
        | .ok _ => task.Settles cluster exchanges after
        | .error e => task.Fails cluster exchanges e after := by
  induction left generalizing cluster with
  | zero =>
    exact unfolds_fail.2 ⟨rfl, spares_refl task cluster, fun scope heq => nomatch heq⟩
  | succ left ih =>
    have hattempt := (attemptRoute_unfolds hscript hscope hfair).keeping
      (fun request now h => h.serveAmid hscript request) hfair
    refine hattempt.bind ?_ fun exchanges e after h => h.1
    rintro exchanges attempt middle ⟨htries, hmiddle⟩
    cases attempt with
    | settled outcome =>
      refine unfolds_pure.2 ?_
      rw [List.append_nil]
      exact htries
    | overtaken =>
      obtain ⟨hmade, hspares⟩ := htries
      refine (ih hmiddle).mono fun later result after hafter => ?_
      cases result with
      | ok outcome => exact Settles.after_spares hafter hspares hmade
      | error e => exact Fails.after_spares hafter hspares hmade

/-! ## What attempts write -/

theorem ofWrite_writes (outcome : Outcome) (answer : Except OperatorError (Resource .ingress)) :
    (RouteAttempt.ofWrite outcome answer).Writes [] := by
  cases answer with
  | ok stored => exact writes_done _
  | error e =>
    rcases RouteAttempt.ofWrite_error outcome e with heq | heq <;> rw [heq] <;>
      exact writes_done _

theorem findAnchor_writes (scope : String) : (findAnchor scope).Writes [] := by
  refine (writes_perform (.list .anchor (some scope))).bind fun anchors => ?_
  cases Anchor.first? anchors <;> exact writes_done _

/-- An attempt writes once at most. -/
theorem attemptRoute_writes (task : RouteTask) :
    (attemptRoute task.frontend task.spec).Writes [.ingress] := by
  have hnothing : ∀ {α : Type} (result : Except OperatorError α),
      (Program.done result).Writes [.ingress] :=
    fun result => (writes_done result).mono (List.nil_sublist _)
  refine (writes_perform (.get .ingress (routingKey task.frontend.namespaceName))).bind ?_
  rintro (_ | ingress)
  · refine (findAnchor_writes task.frontend.namespaceName).bind fun anchor => ?_
    cases Owner.ofResource anchor with
    | error e => exact hnothing _
    | ok owner => exact (writes_attempt _).bind (ofWrite_writes .created)
  · dsimp only
    rw [updateRouting_eq]
    split
    · exact (writes_attempt _).bind (ofWrite_writes .updated)
    · exact hnothing _

theorem retryRoute_writes (task : RouteTask) (total left : Nat) :
    (retryRoute task.frontend task.spec total left).Writes (List.replicate left .ingress) := by
  induction left with
  | zero => exact writes_done _
  | succ left ih =>
    refine task.attemptRoute_writes.bind fun attempt => ?_
    cases attempt with
    | settled outcome => exact (writes_done _).mono (List.nil_sublist _)
    | overtaken => exact ih

end RouteTask

end EdgeOperator
