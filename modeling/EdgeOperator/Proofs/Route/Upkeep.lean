import EdgeOperator.Proofs.ObjectKey
import EdgeOperator.Proofs.Owner
import EdgeOperator.Proofs.Route
import EdgeOperator.Proofs.World
import EdgeOperator.Route.Upkeep

set_option autoImplicit false

/-! # No route is lost

Frontends of one namespace write their routes into one ingress, each by a look-up, a merge and a
write that are separate calls. Whatever comes in between, a replacement that succeeds finds the
ingress that was read, and a creation that succeeds finds none.

`RouteStage` tells from the exchanges of a run what it does next. Together with what the cluster
remembers of the objects that were read (`World.Consistent`) this says what the next call does to
the routes, and so, turn by turn, what becomes of all of them (`RoutesKept`). -/

namespace EdgeOperator

/-! ## Runs -/

/-- A failed write leads to another attempt, or the run fails. -/
theorem RouteAttempt.ofWrite_error (outcome : Outcome) (e : OperatorError) :
    ofWrite outcome (.error e) = pure .overtaken ∨ ofWrite outcome (.error e) = .fail e := by
  simp only [ofWrite]
  cases e.failure with
  | conflict | alreadyExists | notFound => exact Or.inl rfl
  | transient | fatal => exact Or.inr rfl

/-- What a run that has a frontend's route in place is asked for. -/
structure RouteTask where
  frontend : Owner
  spec : FrontendSpec
  attempts : Nat

namespace RouteTask

/-- The pattern of the route. -/
def pattern (task : RouteTask) : String :=
  routePattern task.frontend.name task.spec.isHost

/-- Where the route leads to. -/
def backend (task : RouteTask) : Backend :=
  (task.spec.route task.frontend).backend

/-- The run. -/
def program (task : RouteTask) : Program Outcome :=
  ensureRoute task.frontend task.spec task.attempts

/-- A run does not end before its first call, but with a failure. -/
theorem program_ne_done (task : RouteTask) (outcome : Outcome) :
    task.program ≠ .done (.ok outcome) := by
  unfold program ensureRoute
  generalize task.attempts = attempts
  intro h
  cases attempts <;> cases h

/-- The key of the ingress that the run is about. -/
def key (task : RouteTask) : ObjectKey :=
  routingKey task.frontend.namespaceName

/-- The routes of an ingress after the merge. -/
def merged (task : RouteTask) (ingress : Resource .ingress) : MergedPaths :=
  mergePath (IngressContent.routes ingress.content) task.pattern task.backend

/-- An ingress after the merge. -/
def update (task : RouteTask) (ingress : Resource .ingress) : Resource .ingress :=
  { ingress with content := IngressContent.withRoutes ingress.content (task.merged ingress).paths }

theorem updateRouting_eq (task : RouteTask) (ingress : Resource .ingress) :
    updateRouting task.frontend task.spec ingress =
      if (task.merged ingress).changed then
        Program.attempt (.replace .ingress (task.update ingress)) >>= RouteAttempt.ofWrite .updated
      else pure (.settled .alreadySatisfied) := rfl

/-- Whether an ingress is another one with the route merged in and a new version, and no more than
that. -/
structure IsMergeOf (task : RouteTask) (before after : Resource .ingress) : Prop where
  metadata_eq : ∃ version,
    after.metadata = { before.metadata with resourceVersion? := some version }
  content_eq : after.content =
    IngressContent.withRoutes before.content (task.merged before).paths
  routes_eq : IngressContent.routes after.content = (task.merged before).paths
  frame : IngressContent.SameButRoutes before.content after.content
  others : AgreeBut (· = task.pattern) (IngressContent.routes before.content)
    (IngressContent.routes after.content)

/-- What a run does after an attempt that came to something. -/
def carryOn (task : RouteTask) (left : Nat) : RouteAttempt → Program Outcome
  | .settled outcome => pure outcome
  | .overtaken => retryRoute task.frontend task.spec task.attempts left

/-- What a run does with the anchor it has found. -/
def createFor (task : RouteTask) (anchor : Resource .anchor) : Program RouteAttempt :=
  match Owner.ofResource anchor with
  | .error e => .fail e
  | .ok owner =>
    Program.attempt (.create .ingress (routingIngress owner (task.spec.route task.frontend))) >>=
      RouteAttempt.ofWrite .created

theorem createFor_cases (task : RouteTask) (anchor : Resource .anchor) :
    (∃ e, task.createFor anchor = .fail e) ∨
      ∃ owner, Owner.ofResource anchor = .ok owner ∧
        task.createFor anchor =
          Program.attempt (.create .ingress
            (routingIngress owner (task.spec.route task.frontend))) >>=
              RouteAttempt.ofWrite .created := by
  unfold createFor
  cases howner : Owner.ofResource anchor with
  | error e => exact Or.inl ⟨e, rfl⟩
  | ok owner => exact Or.inr ⟨owner, rfl, rfl⟩

end RouteTask

/-- Where a run stands after the exchanges it has had. -/
inductive RouteStage (task : RouteTask) : List Exchange → Program Outcome → Prop where
  | reading (history : List Exchange) (left : Nat) :
      RouteStage task history (retryRoute task.frontend task.spec task.attempts left)
  | anchoring (earlier : List Exchange) (left : Nat) :
      RouteStage task (earlier ++ [⟨.get .ingress task.key, .ok none⟩])
        (createRouting task.frontend task.spec >>= task.carryOn left)
  | creating (earlier : List Exchange) (left : Nat) {anchors : List (Resource .anchor)}
      {anchor : Resource .anchor} {owner : Owner} (hmem : anchor ∈ anchors)
      (howner : Owner.ofResource anchor = .ok owner) :
      RouteStage task
        (earlier ++ [⟨.list .anchor (some task.frontend.namespaceName), .ok anchors⟩])
        (Program.attempt (.create .ingress (routingIngress owner (task.spec.route task.frontend))) >>=
          RouteAttempt.ofWrite .created >>= task.carryOn left)
  | updating (earlier : List Exchange) (left : Nat) {read : Resource .ingress}
      (hchanged : (task.merged read).changed = true) :
      RouteStage task (earlier ++ [⟨.get .ingress task.key, .ok (some read)⟩])
        (Program.attempt (.replace .ingress (task.update read)) >>=
          RouteAttempt.ofWrite .updated >>= task.carryOn left)
  | satisfied (earlier : List Exchange) {read : Resource .ingress}
      (hchanged : (task.merged read).changed = false) :
      RouteStage task (earlier ++ [⟨.get .ingress task.key, .ok (some read)⟩])
        (pure .alreadySatisfied)
  | written (earlier : List Exchange) {request : Request} {stored : request.Answer}
      (outcome : Outcome) (hwrites : request.target?.isSome = true) :
      RouteStage task (earlier ++ [⟨request, .ok stored⟩]) (pure outcome)
  | failed (history : List Exchange) (e : OperatorError) : RouteStage task history (.fail e)

namespace RouteStage

variable {task : RouteTask} {history : List Exchange}

theorem start (task : RouteTask) : RouteStage task [] task.program :=
  .reading [] task.attempts

theorem of_failed_write (history : List Exchange) (left : Nat) (outcome : Outcome)
    (e : OperatorError) :
    RouteStage task history (RouteAttempt.ofWrite outcome (.error e) >>= task.carryOn left) := by
  rcases RouteAttempt.ofWrite_error outcome e with heq | heq <;> rw [heq]
  · exact .reading history left
  · exact .failed history e

/-- Every answer takes a run from one stage to another. -/
theorem next {request : Request} {rest : Except OperatorError request.Answer → Program Outcome}
    {program : Program Outcome} (h : RouteStage task history program)
    (hprogram : program = .call request rest) (answer : Except OperatorError request.Answer) :
    RouteStage task (history ++ [⟨request, answer⟩]) (rest answer) := by
  cases h with
  | reading _ left =>
    cases left with
    | zero => cases hprogram
    | succ left =>
      cases hprogram
      rcases answer with e | _ | read
      · exact .failed _ e
      · exact .anchoring history left
      · change RouteStage task _ (updateRouting task.frontend task.spec read >>= task.carryOn left)
        cases hchanged : (task.merged read).changed with
        | false =>
          have heq : updateRouting task.frontend task.spec read =
              pure (.settled .alreadySatisfied) := if_neg (ne_true_of_eq_false hchanged)
          rw [heq]
          exact .satisfied history hchanged
        | true =>
          have heq : updateRouting task.frontend task.spec read =
              Program.attempt (.replace .ingress (task.update read)) >>=
                RouteAttempt.ofWrite .updated := if_pos hchanged
          rw [heq]
          exact .updating history left hchanged
  | anchoring earlier left =>
    cases hprogram
    rcases answer with e | anchors
    · exact .failed _ e
    · dsimp only [Program.bind]
      cases hfirst : Anchor.first? anchors with
      | none => exact .failed _ _
      | some anchor =>
        change RouteStage task _ (task.createFor anchor >>= task.carryOn left)
        rcases RouteTask.createFor_cases task anchor with ⟨e, heq⟩ | ⟨owner, howner, heq⟩ <;> rw [heq]
        · exact .failed _ e
        · exact .creating _ left (Anchor.mem_of_first? hfirst).1 howner
  | creating earlier left hmem howner =>
    cases hprogram
    cases answer with
    | error e => exact of_failed_write _ left .created e
    | ok stored => exact .written _ .created rfl
  | updating earlier left hchanged =>
    cases hprogram
    cases answer with
    | error e => exact of_failed_write _ left .updated e
    | ok stored => exact .written _ .updated rfl
  | satisfied earlier hchanged => cases hprogram
  | written earlier outcome hwrites => cases hprogram
  | failed _ e => cases hprogram

/-- Which calls a run makes: look-ups, a creation after a look at the anchors, or the replacement of
the ingress it has just read. -/
theorem call_cases {request : Request} {rest : Except OperatorError request.Answer → Program Outcome}
    {program : Program Outcome} (h : RouteStage task history program)
    (hprogram : program = .call request rest) :
    request.target? = none ∨
      (∃ earlier anchors anchor owner, anchor ∈ anchors ∧ Owner.ofResource anchor = .ok owner ∧
        history = earlier ++ [⟨.list .anchor (some task.frontend.namespaceName), .ok anchors⟩] ∧
        request = .create .ingress (routingIngress owner (task.spec.route task.frontend))) ∨
      ∃ earlier read, (task.merged read).changed = true ∧
        history = earlier ++ [⟨.get .ingress task.key, .ok (some read)⟩] ∧
        request = .replace .ingress (task.update read) := by
  cases h with
  | reading _ left =>
    cases left with
    | zero => cases hprogram
    | succ left =>
      cases hprogram
      exact Or.inl rfl
  | anchoring earlier left =>
    cases hprogram
    exact Or.inl rfl
  | @creating earlier left anchors anchor owner hmem howner =>
    cases hprogram
    exact Or.inr (Or.inl ⟨earlier, anchors, anchor, owner, hmem, howner, rfl, rfl⟩)
  | @updating earlier left read hchanged =>
    cases hprogram
    exact Or.inr (Or.inr ⟨earlier, read, hchanged, rfl, rfl⟩)
  | satisfied earlier hchanged => cases hprogram
  | written earlier outcome hwrites => cases hprogram
  | failed _ e => cases hprogram

/-- A write that succeeds is the end of a run. -/
theorem ends_of_written {request : Request}
    {rest : Except OperatorError request.Answer → Program Outcome} {program : Program Outcome}
    (h : RouteStage task history program) (hprogram : program = .call request rest)
    (hwrites : request.target?.isSome = true) (stored : request.Answer) :
    ∃ outcome, rest (.ok stored) = .done (.ok outcome) := by
  cases h with
  | reading _ left =>
    cases left with
    | zero => cases hprogram
    | succ left =>
      cases hprogram
      simp [Request.target?] at hwrites
  | anchoring earlier left =>
    cases hprogram
    simp [Request.target?] at hwrites
  | creating earlier left hmem howner =>
    cases hprogram
    exact ⟨.created, rfl⟩
  | updating earlier left hchanged =>
    cases hprogram
    exact ⟨.updated, rfl⟩
  | satisfied earlier hchanged => cases hprogram
  | written earlier outcome hwrites => cases hprogram
  | failed _ e => cases hprogram

/-- How a run comes to a good end: it found its route in place, or it has written it. -/
theorem last_of_ended {exchange : Exchange} {program : Program Outcome} {outcome : Outcome}
    (h : RouteStage task (history ++ [exchange]) program)
    (hprogram : program = .done (.ok outcome)) :
    (∃ read, exchange = ⟨.get .ingress task.key, .ok (some read)⟩ ∧
        (task.merged read).changed = false) ∨
      ∃ request stored, exchange = ⟨request, .ok stored⟩ ∧ request.target?.isSome = true := by
  generalize hfull : history ++ [exchange] = full at h
  cases h with
  | reading _ left => cases left <;> cases hprogram
  | anchoring earlier left => cases hprogram
  | creating earlier left hmem howner => cases hprogram
  | updating earlier left hchanged => cases hprogram
  | @satisfied earlier read hchanged =>
    exact Or.inl ⟨read, (List.append_inj' hfull rfl).2 |> List.singleton_inj.1, hchanged⟩
  | @written earlier request stored outcome hwrites =>
    exact Or.inr ⟨request, stored, (List.append_inj' hfull rfl).2 |> List.singleton_inj.1, hwrites⟩
  | failed _ e => cases hprogram

end RouteStage

/-! ## The next call of a run -/

/-- The path of the ingress with the routes of a namespace. -/
def routingPath (scope : String) : String :=
  (routingKey scope).path .ingress

theorem routingIngress_path (owner : Owner) (first : IngressPath) :
    (routingIngress owner first).path = routingPath owner.namespaceName := rfl

namespace Cluster

/-- The routes of a namespace, none if there is no ingress for them. -/
def routesOf (cluster : Cluster) (scope : String) : List IngressPath :=
  match cluster.find? .ingress (routingPath scope) with
  | some ingress => IngressContent.routes ingress.content
  | none => []

theorem routesOf_of_find? {cluster : Cluster} {scope : String} {ingress : Resource .ingress}
    (h : cluster.find? .ingress (routingPath scope) = some ingress) :
    cluster.routesOf scope = IngressContent.routes ingress.content := by
  simp only [routesOf, h]

theorem routesOf_congr {before after : Cluster} {scope : String}
    (h : after.objects.get? (routingPath scope) = before.objects.get? (routingPath scope)) :
    after.routesOf scope = before.routesOf scope := by
  simp only [routesOf, find?_congr h]

/-- A stored ingress with a changed content is what was read with that content and a new version. -/
theorem isMergeOf_replaced {cluster : Cluster} (noted : Cluster) (hsound : cluster.Sound)
    {task : RouteTask} {path : String} {read : Resource .ingress}
    (hfind : cluster.find? .ingress path = some read) :
    task.IsMergeOf read (noted.replaced read (task.update read)).wholeSeconds := by
  have hwhole : read.wholeSeconds = read := (hsound.kept (find?_eq_some.1 hfind)).whole
  have hmetadata : (noted.replaced read (task.update read)).wholeSeconds.metadata =
      { read.wholeSeconds.metadata with resourceVersion? := some noted.nextVersion } := rfl
  rw [hwhole] at hmetadata
  have hroutes : IngressContent.routes (noted.replaced read (task.update read)).wholeSeconds.content =
      (task.merged read).paths := IngressContent.routes_withRoutes _ _
  exact {
    metadata_eq := ⟨_, hmetadata⟩
    content_eq := rfl
    routes_eq := hroutes
    frame := IngressContent.sameButRoutes_withRoutes _ _
    others := by
      rw [hroutes]
      exact agreeBut_mergePath _ _ _ }

end Cluster

namespace World

variable {ι : Type} [DecidableEq ι] {tasks : ι → RouteTask} {world : World ι Outcome}

/-- Whether the cluster is in good order and every process is a run that stands where its exchanges
have led it. -/
structure RunsRoutes (world : World ι Outcome) (tasks : ι → RouteTask) : Prop where
  consistent : world.Consistent
  stage : ∀ i, RouteStage (tasks i) (world.processes i).history (world.processes i).program

theorem RunsRoutes.turn (h : world.RunsRoutes tasks) (turn : Turn ι) :
    (world.turn turn).RunsRoutes tasks where
  consistent := h.consistent.turn turn
  stage := forall_processes_turn
    (fun i process => RouteStage (tasks i) process.history process.program) h.stage
    (fun i _ _ hprogram => (h.stage i).next hprogram _) turn

theorem runsRoutes_after {cluster : Cluster} (h : cluster.Reachable) (tasks : ι → RouteTask)
    (turns : List (Turn ι)) :
    ((start cluster fun i => (tasks i).program).after turns).RunsRoutes tasks :=
  after_keeps (RunsRoutes · tasks) (fun _ turn _ hworld => hworld.turn turn)
    ⟨consistent_start h _, fun i => RouteStage.start (tasks i)⟩

/-- A replacement by a run that succeeds: it puts the merge of what the run has read in the place of
just that. -/
theorem RunsRoutes.replaced (h : world.RunsRoutes tasks) {i : ι} {kind : Kind}
    {object : Resource kind} {rest} (hprogram : (world.processes i).program =
      .call (.replace kind object) rest) {stored : Resource kind}
    (hok : (Cluster.serve (.replace kind object) world.cluster).1 = .ok stored) :
    ∃ read, (world.processes i).history.getLast? =
        some ⟨.get .ingress (tasks i).key, .ok (some read)⟩ ∧
      object.path = (tasks i).key.path .ingress ∧
      world.cluster.find? .ingress ((tasks i).key.path .ingress) = some read ∧
      (read.metadata.isDeleted = false →
        ∃ after, (world.turn (.process i)).cluster.find? .ingress ((tasks i).key.path .ingress) =
          some after ∧ (tasks i).IsMergeOf read after) := by
  rw [turn_process_of_call hprogram, called_cluster]
  rcases (h.stage i).call_cases hprogram with
    hnone | ⟨_, _, _, _, _, _, _, hrequest⟩ | ⟨earlier, read, _, hhistory, hrequest⟩
  · simp [Request.target?] at hnone
  · exact absurd hrequest (by simp)
  · cases hrequest
    have hmem : ⟨.get .ingress (tasks i).key, .ok (some read)⟩ ∈ (world.processes i).history := by
      rw [hhistory]
      exact List.mem_append_right _ (List.mem_singleton.2 rfl)
    have hremembers := h.consistent.remembers i .ingress (tasks i).key read hmem
    have hversion : ((tasks i).update read).metadata.resourceVersion? =
      read.metadata.resourceVersion? := rfl
    obtain ⟨hpath, hfind, noted, _, _, hserve⟩ := Cluster.serve_replace_of_remembers
      h.consistent.sound h.consistent.polite hremembers hversion hok
    rw [hpath] at hfind hserve
    refine ⟨read, by rw [hhistory, List.getLast?_concat], hpath, hfind, fun hlive => ?_⟩
    refine ⟨_, ?_, Cluster.isMergeOf_replaced noted h.consistent.sound hfind⟩
    have hgone : (noted.replaced read ((tasks i).update read)).metadata.isDeleted = false := hlive
    rw [hserve, Cluster.settled, hgone, Bool.false_and, if_neg Bool.false_ne_true]
    exact Cluster.find?_eq_some.2 ((StringMap.get?_set ..).trans (if_pos rfl))

/-- A creation by a run that succeeds: nothing was there. -/
theorem RunsRoutes.created (h : world.RunsRoutes tasks) {i : ι} {kind : Kind}
    {object : Resource kind} {rest} (hprogram : (world.processes i).program =
      .call (.create kind object) rest) {stored : Resource kind}
    (hok : (Cluster.serve (.create kind object) world.cluster).1 = .ok stored) :
    world.cluster.objects.get? object.path = none ∧
      ('/' ∉ (tasks i).frontend.namespaceName.toList →
        object.path = (tasks i).key.path .ingress ∧
        ∃ after, (world.turn (.process i)).cluster.find? .ingress ((tasks i).key.path .ingress) =
          some after ∧ after.metadata.isDeleted = false ∧
          IngressContent.routes after.content = [(tasks i).spec.route (tasks i).frontend]) := by
  rw [turn_process_of_call hprogram, called_cluster]
  rcases Cluster.serve_create world.cluster object with ⟨e, heq⟩ | ⟨hnone, heq⟩
  · simp [heq] at hok
  refine ⟨hnone, fun hslash => ?_⟩
  rcases (h.stage i).call_cases hprogram with
    htarget | ⟨earlier, anchors, anchor, owner, hmem, howner, hhistory, hrequest⟩ |
      ⟨_, _, _, _, hrequest⟩
  · simp [Request.target?] at htarget
  · cases hrequest
    -- the anchor was listed for the namespace, so the ingress is made for it
    have hexchange : ⟨.list .anchor (some (tasks i).frontend.namespaceName), .ok anchors⟩ ∈
        (world.processes i).history := by
      rw [hhistory]
      exact List.mem_append_right _ (List.mem_singleton.2 rfl)
    obtain ⟨cluster, hsound, hanswer⟩ := h.consistent.honest i _ hexchange
    rw [Cluster.listed_of_serve_list hanswer] at hmem
    have hscope : some owner.namespaceName = some (tasks i).frontend.namespaceName :=
      (Owner.namespaceName?_of_ofResource howner).symm.trans
        (Cluster.namespaceName?_of_mem_listed hsound hslash rfl hmem)
    have hpath : (routingIngress owner ((tasks i).spec.route (tasks i).frontend)).path =
        (tasks i).key.path .ingress :=
      (routingIngress_path ..).trans (congrArg routingPath (Option.some.inj hscope))
    refine ⟨hpath, (world.cluster.created (routingIngress owner
      ((tasks i).spec.route (tasks i).frontend))).wholeSeconds, ?_, rfl, rfl⟩
    rw [heq, ← hpath]
    exact Cluster.find?_eq_some.2 ((StringMap.get?_set ..).trans (if_pos rfl))
  · exact absurd hrequest (by simp)

/-! ## What becomes of the routes -/

/-- Whether only the runs write the routes of a namespace, each its own pattern, and whether the
routes are in good order at the start. The name of a namespace has no slash, so the anchors that a
run lists are of its namespace. -/
structure WritesAlone (tasks : ι → RouteTask) (scope : String) (cluster : Cluster)
    (turns : List (Turn ι)) : Prop where
  scope_eq : ∀ i, (tasks i).frontend.namespaceName = scope
  slashFree : '/' ∉ scope.toList
  apart : Function.Injective fun i => (tasks i).pattern
  live : ∀ ingress, cluster.find? .ingress (routingPath scope) = some ingress →
    ingress.metadata.isDeleted = false
  nodup : (patterns (cluster.routesOf scope)).Nodup
  undisturbed : cluster.IsUndisturbed (routingPath scope)
  untouched : ∀ request, .other request ∈ turns → request.target? ≠ some (routingPath scope)

/-- Whether the routes are as they were at the start, but for those of the runs that came to a good
end, and these are all there. -/
structure RoutesKept (tasks : ι → RouteTask) (scope : String) (first : Cluster)
    (world : World ι Outcome) : Prop where
  live : ∀ ingress, world.cluster.find? .ingress (routingPath scope) = some ingress →
    ingress.metadata.isDeleted = false
  nodup : (patterns (world.cluster.routesOf scope)).Nodup
  undisturbed : world.cluster.IsUndisturbed (routingPath scope)
  stored : (first.find? .ingress (routingPath scope)).isSome = true →
    (world.cluster.find? .ingress (routingPath scope)).isSome = true
  served : ∀ i, world.Ended i →
    IsServed (world.cluster.routesOf scope) (tasks i).pattern (tasks i).backend
  others : AgreeBut (fun pattern => ∃ i, world.Ended i ∧ (tasks i).pattern = pattern)
    (first.routesOf scope) (world.cluster.routesOf scope)

/-- A turn that brings a run to a good end was answered, and if it wrote nothing the run found its
route in place. -/
theorem RunsRoutes.of_ended (h : world.RunsRoutes tasks) {i : ι} {request : Request} {rest}
    (hprogram : (world.processes i).program = .call request rest)
    (hended : (world.turn (.process i)).Ended i) :
    (∃ stored, (Cluster.serve request world.cluster).1 = .ok stored) ∧
      (request.target? = none → ∃ read,
        world.cluster.find? .ingress ((tasks i).key.path .ingress) = some read ∧
          ((tasks i).merged read).changed = false) := by
  obtain ⟨outcome, houtcome⟩ := hended
  have hstage := (h.turn (.process i)).stage i
  rw [turn_process_of_call hprogram, called_processes_self] at hstage houtcome
  rcases hstage.last_of_ended houtcome with ⟨read, heq, hchanged⟩ | ⟨_, stored, heq, hwrites⟩
  · obtain ⟨hrequest, hanswer⟩ := Exchange.mk.inj heq
    subst hrequest
    have hanswer := eq_of_heq hanswer
    exact ⟨⟨_, hanswer⟩, fun _ => ⟨read, Cluster.find?_of_serve_get hanswer, hchanged⟩⟩
  · obtain ⟨hrequest, hanswer⟩ := Exchange.mk.inj heq
    subst hrequest
    refine ⟨⟨stored, eq_of_heq hanswer⟩, fun htarget => ?_⟩
    simp [htarget] at hwrites

/-- A write by a run that succeeds is its end. -/
theorem RunsRoutes.ended_of_written (h : world.RunsRoutes tasks) {i : ι} {request : Request} {rest}
    (hprogram : (world.processes i).program = .call request rest)
    (hwrites : request.target?.isSome = true) {stored : request.Answer}
    (hanswer : (Cluster.serve request world.cluster).1 = .ok stored) :
    (world.turn (.process i)).Ended i := by
  obtain ⟨outcome, hrest⟩ := (h.stage i).ends_of_written hprogram hwrites stored
  refine ⟨outcome, ?_⟩
  rw [turn_process_of_call hprogram, called_processes_self, hanswer]
  exact hrest

/-- A call of a run that fails changes nothing, where no other writer waits. -/
theorem RunsRoutes.objects_of_error (h : world.RunsRoutes tasks) {i : ι} {request : Request} {rest}
    (hprogram : (world.processes i).program = .call request rest)
    (hundisturbed : world.cluster.IsUndisturbed ((tasks i).key.path .ingress)) {e : OperatorError}
    (hanswer : (Cluster.serve request world.cluster).1 = .error e) :
    (world.turn (.process i)).cluster.objects = world.cluster.objects := by
  rw [turn_process_of_call hprogram, called_cluster]
  refine Cluster.objects_of_serve_error (fun kind object hreplace => ?_) hanswer
  rcases (h.stage i).call_cases hprogram with
    hnone | ⟨_, _, _, _, _, _, _, hrequest⟩ | ⟨earlier, read, _, hhistory, hrequest⟩
  · simp [hreplace, Request.target?] at hnone
  · exact absurd (hreplace.symm.trans hrequest) (by simp)
  · cases hreplace.symm.trans hrequest
    have hread := h.consistent.honest i ⟨.get .ingress (tasks i).key, .ok (some read)⟩
      (by rw [hhistory]; simp)
    have hpath : ((tasks i).update read).path = (tasks i).key.path .ingress := hread.path_eq
    rwa [hpath]

/-- The next call of a run leaves the ingress alone, or it merges the run's route in and ends the
run. Where the call leaves it alone and yet ends the run well, the route was there. -/
theorem RunsRoutes.turn_cases (h : world.RunsRoutes tasks) {scope : String} {i : ι}
    (hscope : (tasks i).frontend.namespaceName = scope) (hslash : '/' ∉ scope.toList)
    (hlive : ∀ ingress, world.cluster.find? .ingress (routingPath scope) = some ingress →
      ingress.metadata.isDeleted = false)
    (hundisturbed : world.cluster.IsUndisturbed (routingPath scope)) {request : Request} {rest}
    (hprogram : (world.processes i).program = .call request rest) :
    ((world.turn (.process i)).cluster.objects.get? (routingPath scope) =
        world.cluster.objects.get? (routingPath scope) ∧
      ((world.turn (.process i)).Ended i → ∃ read,
        world.cluster.find? .ingress (routingPath scope) = some read ∧
          ((tasks i).merged read).changed = false)) ∨
    ∃ after, (world.turn (.process i)).cluster.find? .ingress (routingPath scope) = some after ∧
      after.metadata.isDeleted = false ∧ (world.turn (.process i)).Ended i ∧
      IngressContent.routes after.content =
        (mergePath (world.cluster.routesOf scope) (tasks i).pattern (tasks i).backend).paths := by
  have hkey : (tasks i).key.path .ingress = routingPath scope := congrArg routingPath hscope
  cases hanswer : (Cluster.serve request world.cluster).1 with
  | error e =>
    refine Or.inl ⟨?_, fun hended => ?_⟩
    · rw [h.objects_of_error hprogram (hkey ▸ hundisturbed) hanswer]
    · obtain ⟨⟨stored, hok⟩, _⟩ := h.of_ended hprogram hended
      simp [hanswer] at hok
  | ok stored =>
    rcases (h.stage i).call_cases hprogram with
      hnone | ⟨_, _, _, owner, _, _, _, hrequest⟩ | ⟨_, read, _, _, hrequest⟩
    · refine Or.inl ⟨?_, fun hended => hkey ▸ (h.of_ended hprogram hended).2 hnone⟩
      rw [turn_process_of_call hprogram, called_cluster]
      exact Cluster.get?_serve_of_ne (by simp [hnone])
    · subst hrequest
      obtain ⟨hnone, hcreated⟩ := h.created hprogram hanswer
      obtain ⟨hpath, after, hfind, hfresh, hroutes⟩ := hcreated (hscope ▸ hslash)
      rw [hkey] at hfind hpath
      rw [hpath] at hnone
      refine Or.inr ⟨after, hfind, hfresh, h.ended_of_written hprogram rfl hanswer, ?_⟩
      have hempty : world.cluster.routesOf scope = [] := by
        simp only [Cluster.routesOf, Cluster.find?, hnone, Option.bind_none]
      rw [hroutes, hempty]
      rfl
    · subst hrequest
      obtain ⟨read, _, _, hfind, hmerged⟩ := h.replaced hprogram hanswer
      rw [hkey] at hfind hmerged
      obtain ⟨after, hafter, hmerge⟩ := hmerged (hlive read hfind)
      obtain ⟨version, hmetadata⟩ := hmerge.metadata_eq
      refine Or.inr ⟨after, hafter, ?_, h.ended_of_written hprogram rfl hanswer, ?_⟩
      · rw [hmetadata]
        exact hlive read hfind
      · rw [hmerge.routes_eq, Cluster.routesOf_of_find? hfind]
        rfl

variable {scope : String} {first : Cluster}

/-- A turn that leaves the ingress alone keeps the routes. -/
theorem RoutesKept.of_unchanged (h : world.RoutesKept tasks scope first) {turn : Turn ι}
    (hobjects : (world.turn turn).cluster.objects.get? (routingPath scope) =
      world.cluster.objects.get? (routingPath scope))
    (hundisturbed : (world.turn turn).cluster.IsUndisturbed (routingPath scope))
    (hserved : ∀ i, (world.turn turn).Ended i →
      IsServed (world.cluster.routesOf scope) (tasks i).pattern (tasks i).backend) :
    (world.turn turn).RoutesKept tasks scope first := by
  have hroutes := Cluster.routesOf_congr hobjects
  have hfind : (world.turn turn).cluster.find? .ingress (routingPath scope) =
      world.cluster.find? .ingress (routingPath scope) := Cluster.find?_congr hobjects
  refine ⟨?_, ?_, hundisturbed, ?_, ?_, ?_⟩
  · rw [hfind]
    exact h.live
  · rw [hroutes]
    exact h.nodup
  · rw [hfind]
    exact h.stored
  · rw [hroutes]
    exact hserved
  · rw [hroutes]
    exact h.others.mono fun pattern ⟨i, hended, heq⟩ => ⟨i, hended.turn turn, heq⟩

theorem RoutesKept.process (h : world.RoutesKept tasks scope first) (hruns : world.RunsRoutes tasks)
    (hscope : ∀ i, (tasks i).frontend.namespaceName = scope) (hslash : '/' ∉ scope.toList)
    (hapart : Function.Injective fun i => (tasks i).pattern) (i : ι) :
    (world.turn (.process i)).RoutesKept tasks scope first := by
  cases hprogram : (world.processes i).program with
  | done result => rwa [turn_process_of_done hprogram]
  | call request rest =>
    have hundisturbed : (world.turn (.process i)).cluster.IsUndisturbed (routingPath scope) := by
      rw [turn_process_of_call hprogram]
      exact h.undisturbed.serve request
    rcases hruns.turn_cases (hscope i) hslash h.live h.undisturbed hprogram with
      ⟨hobjects, hfound⟩ | ⟨after, hfind, hlive, hended, hroutes⟩
    · refine h.of_unchanged hobjects hundisturbed fun j hj => ?_
      by_cases hji : j = i
      · subst hji
        obtain ⟨read, hread, hchanged⟩ := hfound hj
        have hnodup := h.nodup
        rw [Cluster.routesOf_of_find? hread] at hnodup ⊢
        exact isServed_of_not_changed hnodup hchanged
      · exact h.served j (hj.of_turn hji)
    · have hafter : (world.turn (.process i)).cluster.routesOf scope =
          (mergePath (world.cluster.routesOf scope) (tasks i).pattern (tasks i).backend).paths :=
        (Cluster.routesOf_of_find? hfind).trans hroutes
      have hagree := agreeBut_mergePath (world.cluster.routesOf scope) (tasks i).pattern
        (tasks i).backend
      refine ⟨fun ingress hingress => ?_, ?_, hundisturbed, fun _ => ?_, fun j hj => ?_, ?_⟩
      · obtain rfl := Option.some.inj (hfind.symm.trans hingress)
        exact hlive
      · rw [hafter]
        exact nodup_patterns_mergePath h.nodup _ _
      · rw [hfind]
        rfl
      · rw [hafter]
        by_cases hji : j = i
        · subst hji
          exact isServed_mergePath h.nodup _ _
        · exact hagree.isServed (fun heq => hji (hapart heq)) (h.served j (hj.of_turn hji))
      · rw [hafter]
        refine AgreeBut.trans (h.others.mono ?_) (hagree.mono ?_)
        · exact fun pattern ⟨j, hj, heq⟩ => ⟨j, hj.turn _, heq⟩
        · exact fun pattern heq => ⟨i, hended, heq.symm⟩

/-- Turn by turn the routes are kept, while the runs write alone. -/
theorem WritesAlone.routesKept {turns : List (Turn ι)} (h : WritesAlone tasks scope first turns)
    (hreachable : first.Reachable) :
    ((start first fun i => (tasks i).program).after turns).RoutesKept tasks scope first := by
  have hstart : (start first fun i => (tasks i).program).RunsRoutes tasks ∧
      (start first fun i => (tasks i).program).RoutesKept tasks scope first := by
    refine ⟨runsRoutes_after hreachable tasks [], ⟨h.live, h.nodup, h.undisturbed, id, ?_, ?_⟩⟩
    · rintro i ⟨outcome, houtcome⟩
      exact absurd houtcome (RouteTask.program_ne_done _ outcome)
    · exact AgreeBut.refl _ _
  refine (after_keeps (fun world => world.RunsRoutes tasks ∧ world.RoutesKept tasks scope first)
    (fun world turn hmem ⟨hruns, hkept⟩ => ⟨hruns.turn turn, ?_⟩) hstart).2
  cases turn with
  | process i => exact hkept.process hruns h.scope_eq h.slashFree h.apart i
  | other request =>
    refine hkept.of_unchanged (Cluster.get?_serve_of_ne (h.untouched request hmem))
      (hkept.undisturbed.serve request) fun i hended => hkept.served i hended
  | clock now =>
    exact hkept.of_unchanged rfl hkept.undisturbed fun i hended => hkept.served i hended

/-! ## The main result -/

/-- However the calls of the runs are interleaved with each other and with those of other parties,
no route update is lost.

A replacement by a run that succeeds finds the ingress that the run has read, and unless that is
deleted it leaves the run's merge of it; a creation that succeeds finds nothing. So where only the
runs write the routes, each its own pattern, the routes of all runs that have come to a good end are
there, each once, and everything else is as it was at the start. -/
theorem no_lost_route_update {cluster : Cluster} (hreachable : cluster.Reachable)
    (tasks : ι → RouteTask) (turns : List (Turn ι)) :
    let world := (start cluster fun i => (tasks i).program).after turns
    (∀ i kind (object : Resource kind) rest,
      (world.processes i).program = .call (.replace kind object) rest →
      ∀ stored, (Cluster.serve (.replace kind object) world.cluster).1 = .ok stored →
        ∃ read, (world.processes i).history.getLast? =
            some ⟨.get .ingress (tasks i).key, .ok (some read)⟩ ∧
          object.path = (tasks i).key.path .ingress ∧
          world.cluster.find? .ingress ((tasks i).key.path .ingress) = some read ∧
          (read.metadata.isDeleted = false →
            ∃ after, (world.turn (.process i)).cluster.find? .ingress
                ((tasks i).key.path .ingress) = some after ∧ (tasks i).IsMergeOf read after)) ∧
    (∀ i kind (object : Resource kind) rest,
      (world.processes i).program = .call (.create kind object) rest →
      ∀ stored, (Cluster.serve (.create kind object) world.cluster).1 = .ok stored →
        world.cluster.objects.get? object.path = none ∧
        ('/' ∉ (tasks i).frontend.namespaceName.toList →
          object.path = (tasks i).key.path .ingress)) ∧
    (∀ scope, WritesAlone tasks scope cluster turns → world.RoutesKept tasks scope cluster) := by
  intro world
  have hruns := runsRoutes_after hreachable tasks turns
  refine ⟨fun i kind object rest hprogram stored hok => hruns.replaced hprogram hok,
    fun i kind object rest hprogram stored hok => ?_, fun scope h => h.routesKept hreachable⟩
  obtain ⟨hnone, hpath⟩ := hruns.created hprogram hok
  exact ⟨hnone, fun hslash => (hpath hslash).1⟩

/-! Two frontends of one namespace that both find no ingress: the second creation is refused, so its
run reads the ingress of the first and merges its own route in. -/

/-- The tasks of two frontends of one namespace. -/
def pairTasks (isShop : Bool) : RouteTask where
  frontend :=
    { name := if isShop then "shop" else "blog"
      namespaceName := "team"
      reference := ⟨Kind.frontend.apiVersion, none, some true, Kind.frontend.name, "", ""⟩ }
  spec := { imageName := "web", port := 80 }
  attempts := 5

/-- A cluster that holds nothing but the anchor of the namespace. -/
def pairCluster : Cluster :=
  let anchor : Resource .anchor :=
    ⟨{ name? := some "edge", namespaceName? := some "team" }, {}⟩
  (Cluster.create { now := ⟨2024, 1, 1, 0, 0, 0, 0⟩ } anchor).2

/-- Turns in which the two runs meet. -/
def pairTurns : List (Turn Bool) :=
  [true, false, true, false, true, false, false, false].map .process

theorem routes_of_pair_kept :
    pairCluster.Reachable ∧ WritesAlone pairTasks "team" pairCluster pairTurns ∧
      (∀ isShop, ((start pairCluster fun b => (pairTasks b).program).after pairTurns).Ended
        isShop) ∧
      ((start pairCluster fun b => (pairTasks b).program).after pairTurns).RoutesKept pairTasks
        "team" pairCluster := by
  have hreachable : pairCluster.Reachable := .seed _ (.empty _)
  have hnone : pairCluster.find? .ingress (routingPath "team") = none := by decide +kernel
  have halone : WritesAlone pairTasks "team" pairCluster pairTurns := by
    refine ⟨fun _ => rfl, by decide, ?_, ?_, ?_, rfl, ?_⟩
    · intro a b
      revert a b
      decide +kernel
    · intro ingress hfind
      simp [hnone] at hfind
    · simp [Cluster.routesOf, hnone, patterns]
    · intro request hmem
      simp [pairTurns] at hmem
  refine ⟨hreachable, halone, fun isShop => ?_,
    (no_lost_route_update hreachable pairTasks pairTurns).2.2 "team" halone⟩
  cases isShop
  · exact ⟨.updated, rfl⟩
  · exact ⟨.created, rfl⟩

end World

end EdgeOperator
