import EdgeOperator.Proofs.Ownership.Adoption

set_option autoImplicit false

/-! # A routing ingress that comes back

The pass that tears an anchor down removes the routing ingress first, and the run for a frontend
that creates the ingress has chosen its anchor some calls before. So a run may create the ingress
for an anchor that is past the removal or gone already, and then nobody removes it
(`World.routing_left_behind`).

Nothing else leaves the ingress behind: a torn down anchor controls no routing ingress, then or
later, just where no such creation comes late (`World.leaves_no_routing_iff_not_revived`). -/

namespace EdgeOperator

/-! ## The two controllers -/

/-- What a process does: it has the route of a frontend in place, or it is a pass for the anchor. -/
inductive Errand where
  | route (task : RouteTask)
  | pass

/-- The program for an errand; the passes are for the anchor with a key. -/
def Errand.program (key : ObjectKey) : Errand → Program (Outcome ⊕ PassOutcome)
  | .route task => do return .inl (← task.program)
  | .pass => do return .inr (← Duty.anchor.pass key)

/-- Whether a call writes no ingress, brings in no anchor, and replaces none but that with a key, in
its namespace. -/
def Request.SparesRouting (key : ObjectKey) (scope : String) : Request → Prop
  | .get _ _ | .list _ _ | .delete _ _ => True
  | .create kind _ => kind ≠ .ingress ∧ kind ≠ .anchor
  | .replace kind object =>
    kind = .anchor ∧ object.path = key.path kind ∧ object.metadata.namespaceName? = some scope

/-- Whether an anchor found under a key can only be the one that is the owner. -/
def Cluster.HoldsOnly (cluster : Cluster) (key : ObjectKey) (owner : Owner) : Prop :=
  ∀ found, cluster.find? .anchor (key.path .anchor) = some found →
    found.metadata.uid? = some owner.reference.uid ∧
      found.metadata.namespaceName? = some owner.namespaceName

/-- The step that removes the routing ingress. -/
def Owner.routingStep (owner : Owner) : TeardownStep :=
  ⟨.ingress, routingKey owner.namespaceName⟩

variable {key : ObjectKey} {owner : Owner} {cluster : Cluster}

/-- After its look, a pass for the anchor spares the routing. -/
theorem serveFound_sparesRouting {scope : String} {found? : Option (Resource .anchor)}
    (hfound : ∀ found, found? = some found →
      found.path = key.path .anchor ∧ found.metadata.namespaceName? = some scope) :
    (Duty.anchor.serveFound found?).OnlyAsks (Request.SparesRouting key scope) := by
  refine Duty.serveFound_onlyAsks (fun _ _ => trivial) (fun _ _ _ => trivial)
    (fun owner read => ?_) fun object heq _ => ⟨rfl, hfound object heq⟩
  refine (ensureComponents_plants owner Component.creationOrder).mono fun request hplants => ?_
  cases hplants with
  | look kind key => trivial
  | create howned hpath hstep => exact ⟨by simp, by simp⟩

/-- No call of the two controllers brings in another anchor. -/
theorem Cluster.HoldsOnly.serve (h : cluster.HoldsOnly key owner) (hcalm : cluster.IsCalm)
    {request : Request}
    (hrequest : request.SparesRouting key owner.namespaceName ∨ request.Routes) :
    (Cluster.serve request cluster).2.HoldsOnly key owner := by
  intro found hfound
  rcases hrequest with hspares | hroutes
  · have hretains : Retains (fun m => (m.uid?, m.namespaceName?)) .anchor cluster
        (Cluster.serve request cluster).2 := by
      refine hcalm.retains ?_ ?_ fun _ => rfl
      · rintro anchor rfl
        exact hspares.2 rfl
      · rintro anchor rfl current hcurrent
        obtain ⟨_, hpath, hscope⟩ := hspares
        rw [hpath] at hcurrent
        exact congrArg (Prod.mk _) (hscope.trans (h current hcurrent).2.symm)
    obtain ⟨old, hold, heq⟩ := hretains _ found hfound
    obtain ⟨huid, hscope⟩ := Prod.mk.inj heq
    exact ⟨huid.trans (h old hold).1, hscope.trans (h old hold).2⟩
  · have hwritten : request.writtenKind? ≠ some .anchor := hroutes.writtenKind?_ne (by simp)
    exact h found (((hcalm.leaves hwritten).find?_eq _).symm.trans hfound)

/-- Where an errand stands: a pass may still have to look at its anchor. -/
inductive ErrandStage (key : ObjectKey) (scope : String) :
    Errand → Process (Outcome ⊕ PassOutcome) → Prop where
  | route {task : RouteTask} {history : List Exchange} {program : Program Outcome}
      (hstage : RouteStage task history program) :
      ErrandStage key scope (.route task)
        ⟨program >>= fun outcome => pure (.inl outcome), history⟩
  | looking : ErrandStage key scope .pass ⟨Errand.pass.program key, []⟩
  | passing {history : List Exchange} {program : Program (Outcome ⊕ PassOutcome)}
      (hspares : program.OnlyAsks (Request.SparesRouting key scope)) :
      ErrandStage key scope .pass ⟨program, history⟩

namespace ErrandStage

variable {scope : String} {errand : Errand} {process : Process (Outcome ⊕ PassOutcome)}
  {request : Request}
  {proceed : Except OperatorError request.Answer → Program (Outcome ⊕ PassOutcome)}

theorem start (key : ObjectKey) (scope : String) (errand : Errand) :
    ErrandStage key scope errand ⟨errand.program key, []⟩ := by
  cases errand with
  | route task => exact .route (RouteStage.start task)
  | pass => exact .looking

theorem next (h : ErrandStage key owner.namespaceName errand process) (hsound : cluster.Sound)
    (hholds : cluster.HoldsOnly key owner) (hprogram : process.program = .call request proceed) :
    ErrandStage key owner.namespaceName errand
      ⟨proceed (Cluster.serve request cluster).1,
        process.history ++ [⟨request, (Cluster.serve request cluster).1⟩]⟩ := by
  cases h with
  | route hstage =>
    obtain ⟨rest, rfl, hnext⟩ := Program.eq_call_of_bind_pure hprogram
    rw [hnext]
    exact .route (hstage.next rfl _)
  | looking =>
    cases hprogram
    refine .passing ?_
    cases hanswer : (Cluster.serve (.get .anchor key) cluster).1 with
    | error e => exact .done _
    | ok found? =>
      have hspares : (Duty.anchor.serveFound found?).OnlyAsks
          (Request.SparesRouting key owner.namespaceName) := by
        refine serveFound_sparesRouting fun found heq => ?_
        subst heq
        have hfind := Cluster.find?_of_serve_get hanswer
        exact ⟨(hsound.kept (Cluster.find?_eq_some.1 hfind)).path_eq, (hholds found hfind).2⟩
      exact hspares.bind fun _ => .done _
  | passing hspares =>
    cases hspares with
    | done result => cases hprogram
    | call hrequest hrest =>
      cases hprogram
      exact .passing (hrest _)

/-- Which calls the errands make: a run for a frontend replaces the ingress that it has read. -/
theorem call_cases (h : ErrandStage key scope errand process)
    (hprogram : process.program = .call request proceed) :
    request.SparesRouting key scope ∨
      ∃ task, errand = .route task ∧ request.Routes ∧
        ∀ object, request = .replace .ingress object →
          ∃ read, ⟨.get .ingress task.key, .ok (some read)⟩ ∈ process.history ∧
            object = task.update read := by
  cases h with
  | @route task history program hstage =>
    obtain ⟨rest, rfl, hnext⟩ := Program.eq_call_of_bind_pure hprogram
    refine Or.inr ⟨task, rfl, ?_⟩
    rcases hstage.call_cases rfl with
      hnone | ⟨_, _, _, _, _, _, _, rfl⟩ | ⟨earlier, read, _, rfl, rfl⟩
    · cases request with
      | get kind key => exact ⟨.look kind key, fun _ heq => Request.noConfusion heq⟩
      | list kind namespaceName? =>
        exact ⟨.list kind namespaceName?, fun _ heq => Request.noConfusion heq⟩
      | create _ _ | replace _ _ | delete _ _ => cases hnone
    · exact ⟨.create _, fun _ heq => Request.noConfusion heq⟩
    · refine ⟨.replace _, fun object heq => ?_⟩
      cases heq
      exact ⟨read, by simp, rfl⟩
  | looking =>
    cases hprogram
    exact Or.inl trivial
  | passing hspares =>
    cases hspares with
    | done result => cases hprogram
    | call hrequest hrest =>
      cases hprogram
      exact Or.inl hrequest

end ErrandStage

/-! ## What every turn keeps -/

/-- A look or a deletion that settles a step leaves it settled in the cluster. -/
theorem Cluster.isSettled_of_settles {step : TeardownStep} {earlier : List Exchange}
    {request : Request} (hcalm : cluster.IsCalm) (hopen : ¬ Settled owner step earlier)
    (h : Settled owner step (earlier ++ [⟨request, (Cluster.serve request cluster).1⟩])) :
    (Cluster.serve request cluster).2.IsSettled owner step := by
  intro object hfind
  rcases h.of_concat with hsettled | heq | ⟨current, hcontrols, heq⟩ | ⟨e, hfailure, heq⟩
  · exact absurd hsettled hopen
  all_goals
    obtain ⟨hrequest, hanswer⟩ := Exchange.mk.inj heq
    subst hrequest
    have hanswer := eq_of_heq hanswer
  · have hnone := hcalm.hidesNothing.isTruthful.find?_of_serve_get hanswer
    rw [serve_get_snd, note_find?, hnone] at hfind
    cases hfind
  · rw [serve_get_snd, note_find?, find?_of_serve_get hanswer] at hfind
    obtain rfl := Option.some.inj hfind
    exact hcontrols
  · have hnone := hcalm.hidesNothing.find?_of_serve_delete hanswer hfailure
    have hobjects := objects_of_serve_error (fun _ _ heq => Request.noConfusion heq) hanswer
    have hsame : (serve (.delete step.kind step.key) cluster).2.find? step.kind
        (step.key.path step.kind) = cluster.find? step.kind (step.key.path step.kind) :=
      find?_congr (congrArg (StringMap.get? · _) hobjects)
    rw [hsame, hnone] at hfind
    cases hfind

namespace World

open Cluster

variable {ι : Type} [DecidableEq ι] {errands : ι → Errand}
  {world : World ι (Outcome ⊕ PassOutcome)}

/-- Whether the cluster is calm and in good order, there is no anchor but the owner under its key,
and every process stands where its errand allows it to. -/
structure RunsErrands (world : World ι (Outcome ⊕ PassOutcome)) (errands : ι → Errand)
    (key : ObjectKey) (owner : Owner) : Prop where
  consistent : world.Consistent
  calm : world.cluster.IsCalm
  holdsOnly : world.cluster.HoldsOnly key owner
  stage : ∀ i, ErrandStage key owner.namespaceName (errands i) (world.processes i)
  seen : ∀ i found, ⟨.get .anchor key, .ok (some found)⟩ ∈ (world.processes i).history →
    found.metadata.uid? = some owner.reference.uid ∧
      found.metadata.namespaceName? = some owner.namespaceName

theorem RunsErrands.turn (h : world.RunsErrands errands key owner) {turn : Turn ι}
    (hothers : ∀ request, turn = .other request → request = .delete .anchor key) :
    (world.turn turn).RunsErrands errands key owner where
  consistent := h.consistent.turn turn
  stage := forall_processes_turn (fun i => ErrandStage key owner.namespaceName (errands i))
    h.stage (fun i _ _ hprogram => (h.stage i).next h.calm.sound h.holdsOnly hprogram) turn
  seen := by
    refine forall_processes_turn (fun _ process => ∀ found,
      ⟨.get .anchor key, .ok (some found)⟩ ∈ process.history →
        found.metadata.uid? = some owner.reference.uid ∧
          found.metadata.namespaceName? = some owner.namespaceName) h.seen ?_ turn
    intro i request proceed _ found hmem
    rcases List.mem_append.1 hmem with hmem | hmem
    · exact h.seen i found hmem
    · obtain ⟨hrequest, hanswer⟩ := Exchange.mk.inj (List.mem_singleton.1 hmem)
      subst hrequest
      exact h.holdsOnly found (Cluster.find?_of_serve_get (eq_of_heq hanswer).symm)
  calm := cluster_turn IsCalm h.calm (fun _ request _ _ => h.calm.serve request)
    (fun request _ => h.calm.serve request) h.calm.clock
  holdsOnly := by
    refine cluster_turn (·.HoldsOnly key owner) h.holdsOnly (fun i request proceed hprogram => ?_)
      (fun request heq => ?_) fun _ => h.holdsOnly
    · refine h.holdsOnly.serve h.calm ?_
      exact ((h.stage i).call_cases hprogram).imp_right fun ⟨_, _, hroutes, _⟩ => hroutes
    · obtain rfl := hothers request heq
      exact h.holdsOnly.serve h.calm (Or.inl trivial)

omit [DecidableEq ι] in
/-- To merge a route into the ingress that was read gives that to nobody else. -/
theorem RunsErrands.bringsNo_of_update (h : world.RunsErrands errands key owner) {i : ι}
    {task : RouteTask} {read : Resource .ingress}
    (hmem : ⟨.get .ingress task.key, .ok (some read)⟩ ∈ (world.processes i).history) :
    BringsNo .ingress world.cluster
      (Cluster.serve (.replace .ingress (task.update read)) world.cluster).2 := by
  cases hanswer : (Cluster.serve (.replace .ingress (task.update read)) world.cluster).1 with
  | error e =>
    refine retains_of_objects (objects_of_serve_error ?_ hanswer) .ingress
    exact fun _ _ _ => h.calm.isUndisturbed _
  | ok stored =>
    have hremembers := h.consistent.remembers i .ingress task.key read hmem
    have hversion : (task.update read).metadata.resourceVersion? = read.metadata.resourceVersion? :=
      rfl
    obtain ⟨_, hfind, _⟩ := serve_replace_of_remembers h.consistent.sound h.consistent.polite
      hremembers hversion hanswer
    refine h.calm.bringsNo fun _ current hcurrent => ?_
    obtain rfl := Option.some.inj (hfind.symm.trans hcurrent)
    rfl

/-- A turn gives no ingress to the owner, but where a run for a frontend creates it. -/
theorem RunsErrands.created_of_turn (h : world.RunsErrands errands key owner) {turn : Turn ι}
    (hothers : ∀ request, turn = .other request → request = .delete .anchor key)
    (hbefore : world.cluster.IsSettled owner owner.routingStep)
    (hafter : ¬ (world.turn turn).cluster.IsSettled owner owner.routingStep) :
    ∃ i task ingress proceed, turn = .process i ∧ errands i = .route task ∧
      (world.processes i).program = .call (.create .ingress ingress) proceed := by
  cases turn with
  | clock now => exact absurd hbefore hafter
  | other request =>
    obtain rfl := hothers request rfl
    refine absurd (hbefore.of_bringsNo (h.calm.bringsNo ?_)) hafter
    exact trivial
  | process i =>
    cases hprogram : (world.processes i).program with
    | done result =>
      rw [turn_process_of_done hprogram] at hafter
      exact absurd hbefore hafter
    | call request proceed =>
      rw [turn_process_of_call hprogram] at hafter
      have hbrings : ¬ BringsNo .ingress world.cluster (Cluster.serve request world.cluster).2 :=
        fun hbrings => hafter (hbefore.of_bringsNo hbrings)
      rcases (h.stage i).call_cases hprogram with hspares | ⟨task, htask, hroutes, hread⟩
      · refine absurd (h.calm.bringsNo ?_) hbrings
        cases request with
        | create kind object => exact hspares.1
        | replace kind object =>
          obtain ⟨rfl, _⟩ := hspares
          exact nofun
        | _ => trivial
      · cases hroutes with
        | look _ _ | list _ _ =>
          refine absurd (h.calm.bringsNo ?_) hbrings
          exact trivial
        | create ingress => exact ⟨i, task, ingress, proceed, rfl, htask, hprogram⟩
        | replace ingress =>
          obtain ⟨read, hmem, rfl⟩ := hread ingress rfl
          refine absurd ?_ hbrings
          exact h.bringsNo_of_update hmem

/-- Whether no routing ingress of the owner is stored any more once a pass has torn the anchor
down. -/
def LeavesNoRouting (world : World ι (Outcome ⊕ PassOutcome)) (owner : Owner)
    (turns : List (Turn ι)) : Prop :=
  ∀ earlier later, turns = earlier ++ later →
    (∃ i, ((world.after earlier).processes i).program = .done (.ok (.inr .tornDown))) →
      (world.after earlier).cluster.IsSettled owner owner.routingStep

/-- Whether a run for a frontend creates the routing ingress for the owner when a pass is past its
removal already, and the ingress is still there when the pass has torn the anchor down. -/
def IsRevived (world : World ι (Outcome ⊕ PassOutcome)) (errands : ι → Errand) (owner : Owner)
    (turns : List (Turn ι)) : Prop :=
  ∃ earlier i later rest, turns = earlier ++ .process i :: later ++ rest ∧
    (∃ task ingress proceed, errands i = .route task ∧
      ((world.after earlier).processes i).program = .call (.create .ingress ingress) proceed) ∧
    (world.after earlier).cluster.IsSettled owner owner.routingStep ∧
    (∀ front, front <+: later →
      ¬ (world.after (earlier ++ .process i :: front)).cluster.IsSettled owner owner.routingStep) ∧
    ∃ j, Settled owner owner.routingStep ((world.after earlier).processes j).history ∧
      ((world.after (earlier ++ .process i :: later)).processes j).program =
        .done (.ok (.inr .tornDown))

variable {cluster : Cluster} {turns : List (Turn ι)}

theorem runsErrands_after (hreachable : cluster.Reachable)
    (hundisturbed : ∀ path, cluster.IsUndisturbed path) (hhides : cluster.HidesNothing)
    (hholds : cluster.HoldsOnly key owner) (errands : ι → Errand)
    (hothers : ∀ request, .other request ∈ turns → request = .delete .anchor key) :
    ((start cluster fun i => (errands i).program key).after turns).RunsErrands errands key
      owner := by
  refine after_keeps (RunsErrands · errands key owner)
    (fun _ turn hmem hworld => hworld.turn fun request heq => hothers request (heq ▸ hmem)) ?_
  exact {
    consistent := consistent_start hreachable _
    calm := ⟨hreachable.sound, hundisturbed, hhides⟩
    holdsOnly := hholds
    stage := fun i => ErrandStage.start key owner.namespaceName (errands i)
    seen := fun _ _ hmem => nomatch hmem }

/-- A pass that has torn the anchor down has settled the routing ingress. -/
theorem settled_of_tornDown
    (h : ((start cluster fun i => (errands i).program key).after turns).RunsErrands errands key
      owner)
    {i : ι} (hprogram : (((start cluster fun i => (errands i).program key).after turns).processes
      i).program = .done (.ok (.inr .tornDown))) :
    Settled owner owner.routingStep
      (((start cluster fun i => (errands i).program key).after turns).processes i).history := by
  have hyields := yields_history_of_done (fun i => (errands i).program key) hprogram
  have hseen := h.seen i
  generalize (((start cluster fun i => (errands i).program key).after turns).processes i).history =
    history at hyields hseen
  cases herrand : errands i with
  | route task =>
    rw [herrand] at hyields
    obtain ⟨_, heq, _⟩ := Program.yields_of_bind_pure hyields
    cases heq
  | pass =>
    rw [herrand] at hyields
    obtain ⟨outcome, heq, hpass⟩ := Program.yields_of_bind_pure hyields
    cases heq
    obtain ⟨found, other, walked, answer, howner, hwalk, rfl⟩ := Duty.walk_of_tornDown hpass
    obtain ⟨name, scope, uid, _, hscope, huid, rfl⟩ := Owner.ofResource_eq_ok.1 howner
    obtain ⟨huid', hscope'⟩ := hseen found (List.mem_cons_self ..)
    obtain rfl : uid = owner.reference.uid := Option.some.inj (huid.symm.trans huid')
    obtain rfl : scope = owner.namespaceName := Option.some.inj (hscope.symm.trans hscope')
    have hwalked := hwalk.settled (Owner.nodup_anchorTeardown _) owner.routingStep
      (List.mem_cons_self ..)
    exact (hwalked.append [_] (List.forall_mem_singleton.2 fun heq =>
      Request.noConfusion heq)).of_uid_eq rfl

/-- Where a step comes to be settled, the owner controls no such object. -/
theorem RunsErrands.isSettled_of_turn (h : world.RunsErrands errands key owner) {turn : Turn ι}
    {step : TeardownStep} {i : ι} (hopen : ¬ Settled owner step (world.processes i).history)
    (hsettled : Settled owner step ((world.turn turn).processes i).history) :
    (world.turn turn).cluster.IsSettled owner step := by
  have hturn : turn = .process i := by
    by_contra hne
    rw [processes_turn_of_ne world hne] at hsettled
    exact hopen hsettled
  subst hturn
  cases hprogram : (world.processes i).program with
  | done result =>
    rw [turn_process_of_done hprogram] at hsettled
    exact absurd hsettled hopen
  | call request proceed =>
    rw [turn_process_of_call hprogram] at hsettled ⊢
    rw [called_processes_self] at hsettled
    exact isSettled_of_settles h.calm hopen hsettled

/-- However the calls of passes for an anchor and of runs for frontends are interleaved, with the
deletion of the anchor by its user in between: once a pass has torn the anchor down, no routing
ingress of the anchor is stored, just where no run creates one for the anchor after the pass has
removed it. -/
theorem leaves_no_routing_iff_not_revived (hreachable : cluster.Reachable)
    (hundisturbed : ∀ path, cluster.IsUndisturbed path) (hhides : cluster.HidesNothing)
    {anchor : Resource .anchor} (hfind : cluster.find? .anchor (key.path .anchor) = some anchor)
    (huid : anchor.metadata.uid? = some owner.reference.uid)
    (hscope : anchor.metadata.namespaceName? = some owner.namespaceName) (errands : ι → Errand)
    (hothers : ∀ request, .other request ∈ turns → request = .delete .anchor key) :
    (start cluster fun i => (errands i).program key).LeavesNoRouting owner turns ↔
      ¬ (start cluster fun i => (errands i).program key).IsRevived errands owner turns := by
  have hholds : cluster.HoldsOnly key owner := by
    intro found hfound
    obtain rfl := Option.some.inj (hfind.symm.trans hfound)
    exact ⟨huid, hscope⟩
  have hruns : ∀ earlier later, turns = earlier ++ later →
      ((start cluster fun i => (errands i).program key).after earlier).RunsErrands errands key
        owner := by
    intro earlier later heq
    exact runsErrands_after hreachable hundisturbed hhides hholds errands fun request hmem =>
      hothers request (heq ▸ List.mem_append_left _ hmem)
  constructor
  · rintro hleaves ⟨earlier, i, later, rest, heq, _, _, hstays, j, _, hprogram⟩
    exact hstays later (List.prefix_refl _) (hleaves _ rest heq ⟨j, hprogram⟩)
  · rintro hnot earlier rest heq ⟨j, hprogram⟩
    by_contra hheld
    refine hnot ?_
    -- the pass has settled the ingress in a turn of its own, and it was gone then
    have hpast := settled_of_tornDown (hruns earlier rest heq) hprogram
    obtain ⟨front, settling, since, rfl, hopen, hpast⟩ := exists_last_turn
      (fun world => Settled owner owner.routingStep (world.processes j).history) not_settled_nil
      hpast
    have hgone : (((start cluster fun i => (errands i).program key).after front).turn
        settling).cluster.IsSettled owner owner.routingStep := by
      have hsettled := hpast [] List.nil_prefix
      rw [after_concat] at hsettled
      have hfront := hruns front (settling :: (since ++ rest)) (by simp [heq])
      exact hfront.isSettled_of_turn hopen hsettled
    -- so there is a last turn that brought it back
    rw [after_append] at hheld
    obtain ⟨between, creating, later, rfl, hclear, hstays⟩ := exists_last_turn
      (fun world => ¬ world.cluster.IsSettled owner owner.routingStep) (not_not_intro hgone) hheld
    have hworld : ∀ turns, (((start cluster fun i => (errands i).program key).after front).turn
        settling).after turns =
          (start cluster fun i => (errands i).program key).after (front ++ settling :: turns) :=
      fun turns => (after_append _ front (settling :: turns)).symm
    have hback := hstays [] List.nil_prefix
    rw [after_concat, hworld] at hback
    rw [hworld, not_not] at hclear
    have hbetween :=
      hruns (front ++ settling :: between) (creating :: (later ++ rest)) (by simp [heq])
    have hallowed : ∀ request, creating = .other request → request = .delete .anchor key :=
      fun request hother => hothers request (by simp [heq, hother])
    obtain ⟨i, task, ingress, proceed, rfl, herrand, hcreates⟩ :=
      hbetween.created_of_turn hallowed hclear hback
    refine ⟨front ++ settling :: between, i, later, rest, by simp [heq],
      ⟨task, ingress, proceed, herrand, hcreates⟩, hclear, fun next hnext => ?_, j, ?_, ?_⟩
    · rw [List.append_assoc, List.cons_append, ← hworld]
      exact hstays next hnext
    · exact hpast between (List.prefix_append ..)
    · rwa [List.append_assoc, List.cons_append]

/-! A run for a frontend finds an anchor, a pass tears that down, and then the run creates the
ingress for it. -/

/-- An anchor that carries its mark. -/
def edgeAnchor : Resource .anchor where
  metadata :=
    { name? := some "edge"
      namespaceName? := some "team"
      uid? := some "uid-edge"
      finalizers? := some [Names.anchorFinalizer] }
  content := {}

/-- The key of the anchor. -/
def edgeKey : ObjectKey :=
  .inNamespace "team" "edge"

/-- The anchor as an owner. -/
def edgeOwner : Owner :=
  ⟨"edge", "team", ⟨Kind.anchor.apiVersion, none, some true, Kind.anchor.name, "edge", "uid-edge"⟩⟩

/-- A cluster that holds nothing but the anchor. -/
def edgeCluster : Cluster :=
  (Cluster.create { now := ⟨2024, 1, 1, 0, 0, 0, 0⟩ } edgeAnchor).2

/-- A run for a frontend in the namespace of the anchor, and a pass for the anchor. -/
def edgeErrands (isRoute : Bool) : Errand :=
  if isRoute then
    .route
      { frontend := ⟨"shop", "team",
          ⟨Kind.frontend.apiVersion, none, some true, Kind.frontend.name, "shop", ""⟩⟩
        spec := { imageName := "web", port := 80 }
        attempts := 5 }
  else .pass

/-- The run looks for the ingress and the anchor; the user deletes the anchor, and the pass does all
of its twenty-two calls; then the run creates the ingress. -/
def edgeTurns : List (Turn Bool) :=
  [.process true, .process true, .other (.delete .anchor edgeKey)] ++
    List.replicate 22 (.process false) ++ [.process true]

/-- At the end the anchor is torn down, and the ingress refers to it. -/
theorem edge_end :
    (((start edgeCluster fun i => (edgeErrands i).program edgeKey).after edgeTurns).processes
        false).program = .done (.ok (.inr .tornDown)) ∧
      ∃ ingress, ((start edgeCluster fun i => (edgeErrands i).program edgeKey).after
        edgeTurns).cluster.find? .ingress (edgeOwner.routingStep.key.path .ingress) = some ingress ∧
          edgeOwner.controls ingress.metadata = true :=
  ⟨rfl, _, rfl, by decide⟩

theorem edge_leaves_routing :
    ¬ (start edgeCluster fun i => (edgeErrands i).program edgeKey).LeavesNoRouting edgeOwner
      edgeTurns := by
  intro hleaves
  obtain ⟨htornDown, ingress, hfind, hcontrols⟩ := edge_end
  have hfree := hleaves edgeTurns [] (List.append_nil _).symm ⟨false, htornDown⟩ ingress hfind
  rw [hcontrols] at hfree
  cases hfree

/-- An anchor may be torn down and its routing ingress stay behind, though the anchor was alive and
marked at the start. -/
theorem routing_left_behind :
    edgeCluster.Reachable ∧
      (∃ anchor, edgeCluster.find? .anchor (edgeKey.path .anchor) = some anchor ∧
        anchor.metadata.lifeStage Names.anchorFinalizer = .marked ∧
        anchor.metadata.uid? = some edgeOwner.reference.uid) ∧
      ¬ (start edgeCluster fun i => (edgeErrands i).program edgeKey).LeavesNoRouting edgeOwner
        edgeTurns :=
  ⟨.seed _ (.empty _), ⟨_, rfl, by decide, rfl⟩, edge_leaves_routing⟩

theorem edge_routing_revived :
    edgeCluster.Reachable ∧ (∀ path, edgeCluster.IsUndisturbed path) ∧ edgeCluster.HidesNothing ∧
      (∃ anchor, edgeCluster.find? .anchor (edgeKey.path .anchor) = some anchor ∧
        anchor.metadata.uid? = some edgeOwner.reference.uid ∧
        anchor.metadata.namespaceName? = some edgeOwner.namespaceName) ∧
      (∀ request, .other request ∈ edgeTurns → request = .delete .anchor edgeKey) ∧
      (start edgeCluster fun i => (edgeErrands i).program edgeKey).IsRevived edgeErrands edgeOwner
        edgeTurns := by
  have hreachable : edgeCluster.Reachable := .seed _ (.empty _)
  have hundisturbed : ∀ path, edgeCluster.IsUndisturbed path := fun _ => rfl
  have hhides : edgeCluster.HidesNothing := fun _ hmem => nomatch hmem
  have hothers : ∀ request, .other request ∈ edgeTurns → request = .delete .anchor edgeKey := by
    intro request hmem
    simpa [edgeTurns] using hmem
  refine ⟨hreachable, hundisturbed, hhides, ⟨_, rfl, rfl, rfl⟩, hothers, ?_⟩
  by_contra hnot
  exact edge_leaves_routing ((leaves_no_routing_iff_not_revived hreachable hundisturbed hhides
    rfl rfl rfl edgeErrands hothers).2 hnot)

end World

end EdgeOperator
