import EdgeOperator.Proofs.Teardown
import Mathlib.Data.List.Nodup

set_option autoImplicit false

/-! # Passes on resources that are to be torn down

A plan names each object once and no custom resource, so the order of a teardown (`Orderly`) is the
order of every pass on a resource that is to go. What such a pass does besides, the release of the
resource, comes last and only when the whole plan is settled; and a pass that fails leaves the
resource as it was. -/

namespace EdgeOperator

/-! ## The plans -/

namespace Component

/-- Components of one kind that are not the same one have different keys. -/
theorem key_ne_of_kind_eq (owner : Owner) {a b : Component} (hkind : a.kind = b.kind)
    (hne : a ≠ b) : a.key owner ≠ b.key owner := by
  have hbinding : ∀ scope : String, Names.clusterRoleBinding scope ≠
      Names.admissionClusterRoleBinding scope := by
    intro scope heq
    have hlength := congrArg String.length heq
    simp only [Names.clusterRoleBinding, Names.admissionClusterRoleBinding,
      String.length_append] at hlength
    have : Names.ingressNginx.length ≠ Names.admission.length := by decide
    omega
  cases a <;> cases b <;> first
    | exact absurd rfl hne
    | exact absurd hkind (by decide)
    | simp [key, ObjectKey.inNamespace, ObjectKey.clusterWide, Names.ingressNginx, Names.admission,
        Names.controller, Names.controllerAdmission, Names.admissionCreateJob,
        Names.admissionPatchJob, hbinding, (hbinding _).symm]

theorem teardownStep_injective (owner : Owner) :
    Function.Injective fun component : Component => component.teardownStep owner := by
  intro a b h
  by_contra hne
  obtain ⟨hkind, hkey⟩ := TeardownStep.mk.inj h
  exact key_ne_of_kind_eq owner (Kind.plain.inj hkind) hne hkey

theorem nodup_creationOrder : creationOrder.Nodup := by
  decide

end Component

namespace Owner

theorem nodup_anchorTeardown (owner : Owner) : owner.anchorTeardown.Nodup := by
  refine List.nodup_cons.2 ⟨fun hmem => ?_, ?_⟩
  · obtain ⟨component, _, heq⟩ := List.mem_map.1 hmem
    exact absurd (TeardownStep.mk.inj heq).1 (by simp)
  · exact (List.nodup_reverse.2 Component.nodup_creationOrder).map
      (Component.teardownStep_injective owner)

theorem nodup_frontendTeardown (owner : Owner) : owner.frontendTeardown.Nodup := by
  simp [frontendTeardown]

end Owner

/-- The duties of the operator. -/
inductive Duty.IsOperators : {kind : Kind} → Duty kind → Prop where
  | anchor : IsOperators Duty.anchor
  | frontend (attempts : Nat) : IsOperators (Duty.frontend attempts)

namespace Duty

variable {kind : Kind} {duty : Duty kind}

/-- The operator has one duty to each kind, whatever the number of attempts at a route. -/
theorem IsOperators.agrees {other : Duty kind} (h : duty.IsOperators) (h' : other.IsOperators) :
    duty.mark = other.mark ∧ duty.teardownPlan = other.teardownPlan := by
  cases h <;> cases h' <;> exact ⟨rfl, rfl⟩

theorem IsOperators.nodup_plan (h : duty.IsOperators) (owner : Owner) :
    (duty.teardownPlan owner).Nodup := by
  cases h with
  | anchor => exact owner.nodup_anchorTeardown
  | frontend attempts => exact owner.nodup_frontendTeardown

/-- A plan names no object of the kind that the duty is about. -/
theorem IsOperators.kind_ne (h : duty.IsOperators) (owner : Owner) :
    ∀ step ∈ duty.teardownPlan owner, step.kind ≠ kind := by
  cases h with
  | anchor =>
    refine List.forall_mem_cons.2 ⟨by simp, fun step hmem => ?_⟩
    obtain ⟨component, _, rfl⟩ := List.mem_map.1 hmem
    simp [Component.teardownStep]
  | frontend attempts =>
    exact List.forall_mem_cons.2 ⟨by simp, List.forall_mem_singleton.2 (by simp)⟩

/-! ## The exchanges of a dismantling -/

/-- A resource without its mark. -/
def unmarked (duty : Duty kind) (object : Resource kind) : Resource kind :=
  { object with metadata := object.metadata.dropMark duty.mark }

/-- The exchanges of a pass on a resource that is to go, behind the look at the resource, and what
the pass comes to. -/
inductive Dismantling (duty : Duty kind) (owner : Owner) (object : Resource kind) :
    List Exchange → Except OperatorError PassOutcome → Prop where
  | failed {exchanges : List Exchange} {e : OperatorError}
      (hwalk : Walk owner (duty.teardownPlan owner) exchanges (.error e)) :
      Dismantling duty owner object exchanges (.error e)
  | releasing {exchanges : List Exchange}
      (hwalk : Walk owner (duty.teardownPlan owner) exchanges (.ok ()))
      (answer : Except OperatorError (Resource kind)) :
      Dismantling duty owner object
        (exchanges ++ [⟨.replace kind (duty.unmarked object), answer⟩])
        (answer.map fun _ => .tornDown)

theorem dismantling_of_yields {owner : Owner} {object : Resource kind}
    (howner : Owner.ofResource object = .ok owner) {exchanges : List Exchange}
    {result : Except OperatorError PassOutcome}
    (h : (duty.dismantle object).Yields exchanges result) :
    duty.Dismantling owner object exchanges result := by
  unfold dismantle at h
  rw [howner] at h
  rcases Program.yields_bind h with ⟨e, hfirst, rfl⟩ | ⟨_, first, later, rfl, hfirst, hrest⟩
  · exact .failed (walk_of_yields hfirst)
  · cases hrest with
    | call answer hrest =>
      cases answer with
      | error e =>
        cases hrest
        exact .releasing (walk_of_yields hfirst) (.error e)
      | ok stored =>
        cases hrest
        exact .releasing (walk_of_yields hfirst) (.ok stored)

variable {owner : Owner} {object : Resource kind} {exchanges : List Exchange}
  {result : Except OperatorError PassOutcome}

theorem Dismantling.orderly (h : duty.Dismantling owner object exchanges result)
    (hduty : duty.IsOperators) : Orderly owner (duty.teardownPlan owner) exchanges := by
  have hnodup := hduty.nodup_plan owner
  cases h with
  | failed hwalk => exact hwalk.orderly hnodup
  | releasing hwalk answer =>
    exact (hwalk.orderly hnodup).append (List.forall_mem_nil _)
      (List.forall_mem_singleton.2 rfl)

/-- Which calls a dismantling makes. -/
theorem Dismantling.asks (h : duty.Dismantling owner object exchanges result) :
    ∀ exchange ∈ exchanges,
      (∃ step ∈ duty.teardownPlan owner, step.Asks exchange.request) ∨
        exchange.request = .replace kind (duty.unmarked object) := by
  cases h with
  | failed hwalk => exact fun exchange hmem => Or.inl (hwalk.asks exchange hmem)
  | releasing hwalk answer =>
    intro exchange hmem
    rcases List.mem_append.1 hmem with hmem | hmem
    · exact Or.inl (hwalk.asks exchange hmem)
    · obtain rfl := List.mem_singleton.1 hmem
      exact Or.inr rfl

/-- The resource is written at the very end, and only when the whole plan is settled. -/
theorem Dismantling.replaces_last (h : duty.Dismantling owner object exchanges result)
    (hduty : duty.IsOperators) {earlier later : List Exchange} {other : Kind}
    {written : Resource other} {answer}
    (heq : exchanges = earlier ++ ⟨.replace other written, answer⟩ :: later) :
    later = [] ∧ (⟨other, written⟩ : AnyResource) = ⟨kind, duty.unmarked object⟩ ∧
      ∀ step ∈ duty.teardownPlan owner, Settled owner step earlier := by
  have hwalks : ∀ {walked outcome}, Walk owner (duty.teardownPlan owner) walked outcome →
      ⟨.replace other written, answer⟩ ∉ walked := by
    intro walked outcome hwalk hmem
    obtain ⟨step, _, hasks | hasks⟩ := hwalk.asks _ hmem <;> simp at hasks
  cases h with
  | failed hwalk => exact absurd (by simp [heq]) (hwalks hwalk)
  | @releasing walked hwalk stored =>
    rcases append_eq_append_cons heq with ⟨_, hfirst⟩ | ⟨middle, rfl, hlast⟩
    · exact absurd (by simp [hfirst]) (hwalks hwalk)
    · cases middle with
      | nil =>
        obtain ⟨hreplace, rfl⟩ := List.cons.inj hlast
        cases hreplace
        refine ⟨rfl, rfl, ?_⟩
        rw [List.append_nil]
        exact hwalk.settled (hduty.nodup_plan owner)
      | cons head tail => simp at hlast

/-! ## What a pass does to the cluster -/

/-- To look up or to delete objects of other kinds leaves an object alone, even one under the same
path. -/
theorem get?_serve_of_asks {cluster : Cluster} {path : String} {object : Resource kind}
    {step : TeardownStep} {request : Request} (hasks : step.Asks request) (hkind : step.kind ≠ kind)
    (h : cluster.objects.get? path = some ⟨kind, object⟩) :
    (Cluster.serve request cluster).2.objects.get? path = some ⟨kind, object⟩ := by
  rcases hasks with rfl | rfl
  · rwa [Cluster.serve_get_snd]
  · by_cases hpath : step.key.path step.kind = path
    · subst hpath
      have hnone : cluster.find? step.kind (step.key.path step.kind) = none := by
        refine Option.eq_none_iff_forall_ne_some.2 fun other hother => hkind ?_
        have heq := Cluster.eq_of_find? hother (Cluster.find?_eq_some.2 h)
        exact (AnyResource.mk.inj heq).1
      rcases Cluster.serve_delete cluster step.kind step.key with ⟨e, _, heq⟩ | heq <;> rw [heq]
      · exact h
      · rcases Cluster.delete_cases (cluster.note (Request.delete step.kind step.key).call).2
          step.kind step.key with ⟨_, heq⟩ | ⟨current, hfind, _⟩
        · rwa [heq]
        · exact absurd (hfind.symm.trans hnone) (by simp)
    · have htarget : (Request.delete step.kind step.key).target? ≠ some path :=
        fun heq => hpath (Option.some.inj heq)
      rwa [Cluster.get?_serve_of_ne htarget]

theorem Dismantling.creates_nothing (h : duty.Dismantling owner object exchanges result) :
    ∀ exchange ∈ exchanges, ∀ other (created : Resource other),
      exchange.request ≠ .create other created := by
  intro exchange hmem other created heq
  rcases h.asks exchange hmem with ⟨step, _, hasks | hasks⟩ | hasks <;> simp [heq] at hasks

/-- A dismantling touches nothing but the resource and what the plan names. -/
theorem Dismantling.get?_serve_of_ne (h : duty.Dismantling owner object exchanges result)
    {path : String} (hpath : object.path ≠ path)
    (hplan : ∀ step ∈ duty.teardownPlan owner, step.key.path step.kind ≠ path) :
    ∀ exchange ∈ exchanges, ∀ cluster : Cluster,
      (Cluster.serve exchange.request cluster).2.objects.get? path =
        cluster.objects.get? path := by
  intro exchange hmem cluster
  refine Cluster.get?_serve_of_ne ?_
  rcases h.asks exchange hmem with ⟨step, hstep, hasks | hasks⟩ | hasks <;> rw [hasks]
  · simp [Request.target?]
  · exact fun heq => hplan step hstep (Option.some.inj heq)
  · exact fun heq => hpath (Option.some.inj heq)

/-- Whether a resource is stored as it was, or another writer who waited for its replacement has
edited it. -/
def IsLeftAlone (before after : Cluster) (path : String) (object : Resource kind) : Prop :=
  after.find? kind path = some object ∨
    ∃ edit rest version, before.edits.get? path = some (edit :: rest) ∧
      after.find? kind path = some (object.edited edit version)

/-- A release that fails leaves the resource alone. -/
theorem isLeftAlone_of_release {cluster : Cluster} {path : String} {object : Resource kind}
    (h : cluster.objects.get? path = some ⟨kind, object⟩) (hpath : object.path = path)
    {e : OperatorError}
    (herror : (Cluster.serve (.replace kind (duty.unmarked object)) cluster).1 = .error e) :
    IsLeftAlone cluster (Cluster.serve (.replace kind (duty.unmarked object)) cluster).2 path
      object := by
  have hsame : (duty.unmarked object).path = path := hpath
  rcases Cluster.serve_replace_error herror with
    hobjects | ⟨edit, rest, hedits, other, stored, hfind, hobjects⟩
  · exact Or.inl (Cluster.find?_eq_some.2 (hobjects ▸ h))
  · rw [hsame] at hedits hfind hobjects
    cases Option.some.inj ((Cluster.find?_eq_some.1 hfind).symm.trans h)
    refine Or.inr ⟨edit, rest, cluster.nextVersion, hedits, Cluster.find?_eq_some.2 ?_⟩
    rw [hobjects]
    exact (StringMap.get?_set ..).trans (if_pos rfl)

/-- A dismantling that fails leaves the resource alone. -/
theorem isLeftAlone_of_dismantle (hduty : duty.IsOperators)
    (howner : Owner.ofResource object = .ok owner) {cluster : Cluster} {path : String}
    (h : cluster.objects.get? path = some ⟨kind, object⟩) (hpath : object.path = path) :
    (duty.dismantle object).Ends Cluster.serve cluster fun result after =>
      ∀ e, result = .error e → IsLeftAlone cluster after path object := by
  -- the walk neither touches the resource nor lets another writer in
  have hwalk : (teardown owner (duty.teardownPlan owner)).Ends Cluster.serve cluster
      fun _ after => after.objects.get? path = some ⟨kind, object⟩ ∧
        after.edits = cluster.edits := by
    refine Program.run_keeps_along (fun after : Cluster =>
      after.objects.get? path = some ⟨kind, object⟩ ∧ after.edits = cluster.edits) _ ?_ ⟨h, rfl⟩
    intro exchange hmem after ⟨hkept, hedits⟩
    obtain ⟨step, hstep, hasks⟩ :=
      (walk_of_yields (Program.yields_run Cluster.serve _ cluster)).asks exchange hmem
    refine ⟨get?_serve_of_asks hasks (hduty.kind_ne owner step hstep) hkept, ?_⟩
    rw [Cluster.edits_serve after fun kind object hreplace => ?_, hedits]
    rcases hasks with hasks | hasks <;> exact absurd (hreplace.symm.trans hasks) (by simp)
  unfold dismantle
  rw [howner]
  refine hwalk.bind (fun _ after ⟨hkept, hedits⟩ => ?_) fun e after ⟨hkept, _⟩ _ _ =>
    Or.inl (Cluster.find?_eq_some.2 hkept)
  have hrelease : release object duty.mark =
    Program.perform (.replace kind (duty.unmarked object)) := rfl
  rw [hrelease, Program.ends_bind, Program.ends_perform]
  cases hanswer : (Cluster.serve (.replace kind (duty.unmarked object)) after).1 with
  | error e =>
    intro _ _
    have halone := isLeftAlone_of_release hkept hpath hanswer
    unfold IsLeftAlone at halone ⊢
    rwa [hedits] at halone
  | ok stored => exact Program.ends_pure.2 (by simp)

/-! ## The main result -/

/-- What a pass does with what it has found. -/
def serveFound (duty : Duty kind) : Option (Resource kind) → Program PassOutcome
  | none => return .removed
  | some object =>
    match object.metadata.lifeStage duty.mark with
    | .released => return .removed
    | .tearingDown => duty.dismantle object
    | .unmarked => do duty.settle (← register object duty.mark) object
    | .marked => duty.settle object object

theorem pass_eq (duty : Duty kind) (key : ObjectKey) :
    duty.pass key = Program.perform (.get kind key) >>= duty.serveFound := rfl

theorem eq_reconciled_of_settle {stored read : Resource kind} {outcome : PassOutcome}
    (h : (duty.settle stored read).Yields exchanges (.ok outcome)) : outcome = .reconciled := by
  unfold settle at h
  cases howner : Owner.ofResource stored with
  | error e =>
    rw [howner] at h
    cases h
  | ok owner =>
    rw [howner] at h
    rcases Program.yields_bind h with ⟨e, _, heq⟩ | ⟨_, _, _, _, _, hlast⟩
    · cases heq
    · cases hlast
      rfl

/-- A pass that has torn its resource down has found it, gone through the plan and released it. -/
theorem walk_of_tornDown {key : ObjectKey}
    (h : (duty.pass key).Yields exchanges (.ok .tornDown)) :
    ∃ found owner walked answer, Owner.ofResource found = .ok owner ∧
      Walk owner (duty.teardownPlan owner) walked (.ok ()) ∧
      exchanges = ⟨.get kind key, .ok (some found)⟩ ::
        (walked ++ [⟨.replace kind (duty.unmarked found), answer⟩]) := by
  rw [pass_eq] at h
  cases h with
  | call answer h =>
    rcases answer with e | _ | found
    · cases h
    · cases h
    · change ((duty.serveFound (some found)).Yields _ _) at h
      unfold serveFound at h
      cases hstage : found.metadata.lifeStage duty.mark with
      | released =>
        simp only [hstage] at h
        cases h
      | tearingDown =>
        simp only [hstage] at h
        cases howner : Owner.ofResource found with
        | error e =>
          unfold dismantle at h
          rw [howner] at h
          cases h
        | ok owner =>
          have hdismantling := dismantling_of_yields howner h
          generalize hresult : (.ok .tornDown : Except OperatorError PassOutcome) = result at hdismantling
          cases hdismantling with
          | failed hwalk => cases hresult
          | releasing hwalk answer => exact ⟨found, owner, _, answer, howner, hwalk, rfl⟩
      | unmarked =>
        simp only [hstage] at h
        rcases Program.yields_bind h with ⟨e, _, heq⟩ | ⟨stored, _, _, _, _, hsettle⟩
        · cases heq
        · exact absurd (eq_reconciled_of_settle hsettle) (by simp)
      | marked =>
        simp only [hstage] at h
        exact absurd (eq_reconciled_of_settle h) (by simp)

/-- A pass on a resource that is to be torn down looks it up, and then it is over or a dismantling. -/
theorem pass_cases {cluster : Cluster} {key : ObjectKey}
    (hfind : cluster.find? kind (key.path kind) = some object)
    (hstage : object.metadata.lifeStage duty.mark = .tearingDown) :
    (∃ answer result, (duty.pass key).history Cluster.serve cluster = [⟨.get kind key, answer⟩] ∧
      (duty.pass key).run Cluster.serve cluster =
        (result, (Cluster.serve (.get kind key) cluster).2)) ∨
    ((duty.pass key).history Cluster.serve cluster =
        ⟨.get kind key, .ok (some object)⟩ ::
          (duty.dismantle object).history Cluster.serve (Cluster.serve (.get kind key) cluster).2 ∧
      (duty.pass key).run Cluster.serve cluster =
        (duty.dismantle object).run Cluster.serve (Cluster.serve (.get kind key) cluster).2) := by
  rw [pass_eq, Program.history_perform_bind, Program.run_perform_bind]
  rcases hanswer : (Cluster.serve (.get kind key) cluster).1 with e | _ | found
  · exact Or.inl ⟨.error e, _, rfl, rfl⟩
  · exact Or.inl ⟨.ok none, _, rfl, rfl⟩
  · obtain rfl : found = object :=
      Option.some.inj ((Cluster.find?_of_serve_get hanswer).symm.trans hfind)
    have hserve : duty.serveFound (some found) = duty.dismantle found := by
      simp only [serveFound, hstage]
    simp only [hserve]
    exact Or.inr ⟨trivial, trivial⟩

/-- Whether a pass on a resource that is to go creates nothing, deletes along the plan and releases
the resource last, touches nothing besides, and leaves the resource alone if it fails. -/
structure TearsDownInOrder (duty : Duty kind) (owner : Owner) (object : Resource kind)
    (key : ObjectKey) (cluster : Cluster) : Prop where
  creates_nothing : ∀ exchange ∈ (duty.pass key).history Cluster.serve cluster,
    ∀ other (created : Resource other), exchange.request ≠ .create other created
  orderly : Orderly owner (duty.teardownPlan owner) ((duty.pass key).history Cluster.serve cluster)
  replaces_last : ∀ {earlier later : List Exchange} {other : Kind} {written : Resource other}
    {answer}, (duty.pass key).history Cluster.serve cluster =
      earlier ++ ⟨.replace other written, answer⟩ :: later →
    later = [] ∧ (⟨other, written⟩ : AnyResource) = ⟨kind, duty.unmarked object⟩ ∧
      ∀ step ∈ duty.teardownPlan owner, Settled owner step earlier
  others_kept : ∀ path, path ≠ key.path kind →
    (∀ step ∈ duty.teardownPlan owner, step.key.path step.kind ≠ path) →
    ((duty.pass key).run Cluster.serve cluster).2.objects.get? path = cluster.objects.get? path
  left_alone : ∀ e, ((duty.pass key).run Cluster.serve cluster).1 = .error e →
    IsLeftAlone cluster ((duty.pass key).run Cluster.serve cluster).2 (key.path kind) object

/-- A pass that comes to its end with the look at the resource does nothing wrong. -/
theorem tearsDownInOrder_of_look {cluster : Cluster} {key : ObjectKey} {answer}
    {result : Except OperatorError PassOutcome}
    (hfind : cluster.find? kind (key.path kind) = some object)
    (hhistory : (duty.pass key).history Cluster.serve cluster = [⟨.get kind key, answer⟩])
    (hrun : (duty.pass key).run Cluster.serve cluster =
      (result, (Cluster.serve (.get kind key) cluster).2)) :
    duty.TearsDownInOrder owner object key cluster := by
  have hlook : ∀ {earlier later : List Exchange} {exchange : Exchange},
      (duty.pass key).history Cluster.serve cluster = earlier ++ exchange :: later →
        exchange.request = .get kind key := by
    intro earlier later exchange heq
    have hmem : exchange ∈ earlier ++ exchange :: later := by simp
    rw [← heq, hhistory] at hmem
    rw [List.mem_singleton.1 hmem]
  refine ⟨?_, ⟨?_, fun heq => ?_, fun _ heq => ?_⟩, fun heq => ?_, ?_, ?_⟩
  · rw [hhistory]
    simp
  · rw [hhistory]
    simp [Request.deletion?]
  · exact absurd (hlook heq) (by simp)
  · exact absurd (hlook heq) (by simp)
  · exact absurd (hlook heq) (by simp)
  · intro path _ _
    rw [hrun, Cluster.serve_get_objects]
  · intro e _
    refine Or.inl ?_
    rw [hrun, Cluster.serve_get_snd, Cluster.note_find?]
    exact hfind

theorem tearsDownInOrder_of_dismantle (hduty : duty.IsOperators) {cluster : Cluster}
    {key : ObjectKey} (hfind : cluster.find? kind (key.path kind) = some object)
    (hpath : object.path = key.path kind) (howner : Owner.ofResource object = .ok owner)
    (hhistory : (duty.pass key).history Cluster.serve cluster =
      ⟨.get kind key, .ok (some object)⟩ ::
        (duty.dismantle object).history Cluster.serve (Cluster.serve (.get kind key) cluster).2)
    (hrun : (duty.pass key).run Cluster.serve cluster =
      (duty.dismantle object).run Cluster.serve (Cluster.serve (.get kind key) cluster).2) :
    duty.TearsDownInOrder owner object key cluster := by
  have hdismantling := dismantling_of_yields howner (Program.yields_run Cluster.serve
    (duty.dismantle object) (Cluster.serve (.get kind key) cluster).2)
  refine ⟨?_, ?_, fun {earlier later _ _ _} heq => ?_, fun path hne hplan => ?_, fun e herror => ?_⟩
  · rw [hhistory]
    exact List.forall_mem_cons.2 ⟨by simp, hdismantling.creates_nothing⟩
  · rw [hhistory, ← List.append_nil (List.cons _ _)]
    exact (hdismantling.orderly hduty).append (List.forall_mem_singleton.2 rfl)
      (List.forall_mem_nil _)
  · rw [hhistory] at heq
    cases earlier with
    | nil =>
      have hhead := congrArg Exchange.request (List.cons.inj heq).1
      simp at hhead
    | cons head earlier =>
      obtain ⟨rfl, hrest⟩ := List.cons.inj heq
      obtain ⟨hlater, hwritten, hsettled⟩ := hdismantling.replaces_last hduty hrest
      exact ⟨hlater, hwritten, fun step hstep => (hsettled step hstep).prepend [_]⟩
  · rw [hrun]
    refine Program.run_keeps_along (fun after : Cluster =>
      after.objects.get? path = cluster.objects.get? path) _ (fun exchange hmem after hafter => ?_)
      (by rw [Cluster.serve_get_objects])
    have hne' : object.path ≠ path := fun heq => hne (heq.symm.trans hpath)
    exact (hdismantling.get?_serve_of_ne hne' hplan exchange hmem after).trans hafter
  · rw [hrun] at herror ⊢
    have hlooked : (Cluster.serve (.get kind key) cluster).2.objects.get? (key.path kind) =
        some ⟨kind, object⟩ := by
      rw [Cluster.serve_get_snd]
      exact Cluster.find?_eq_some.1 hfind
    have halone := isLeftAlone_of_dismantle hduty howner hlooked hpath e herror
    have hedits : (Cluster.serve (.get kind key) cluster).2.edits = cluster.edits := by
      rw [Cluster.serve_get_snd, Cluster.note_edits]
    unfold IsLeftAlone at halone ⊢
    rwa [hedits] at halone

/-- A pass on a resource that is to be torn down, by either duty and whatever fails, goes in order.
Without an owner it does nothing but look. -/
theorem teardown_pass_in_order {cluster : Cluster} (hreachable : cluster.Reachable)
    (hduty : duty.IsOperators) {key : ObjectKey}
    (hfind : cluster.find? kind (key.path kind) = some object)
    (hstage : object.metadata.lifeStage duty.mark = .tearingDown) :
    (∀ owner, Owner.ofResource object = .ok owner →
      duty.TearsDownInOrder owner object key cluster) ∧
    ∀ e, Owner.ofResource object = .error e →
      (∀ exchange ∈ (duty.pass key).history Cluster.serve cluster,
        exchange.request = .get kind key) ∧
      ((duty.pass key).run Cluster.serve cluster).2.objects = cluster.objects := by
  have hpath : object.path = key.path kind :=
    (hreachable.sound.kept (Cluster.find?_eq_some.1 hfind)).path_eq
  rcases pass_cases hfind hstage with ⟨answer, result, hhistory, hrun⟩ | ⟨hhistory, hrun⟩
  · refine ⟨fun owner _ => tearsDownInOrder_of_look hfind hhistory hrun, fun e _ => ⟨?_, ?_⟩⟩
    · rw [hhistory]
      exact List.forall_mem_singleton.2 rfl
    · rw [hrun, Cluster.serve_get_objects]
  · refine ⟨fun owner howner => ?_, fun e howner => ?_⟩
    · exact tearsDownInOrder_of_dismantle hduty hfind hpath howner hhistory hrun
    · have hfail : duty.dismantle object = Program.fail e := by
        unfold dismantle
        rw [howner]
      rw [hhistory, hrun, hfail, Cluster.serve_get_snd]
      exact ⟨List.forall_mem_singleton.2 rfl, rfl⟩

/-! ## A frontend whose service is still there

Torn down undisturbed, its service is deleted and the frontend goes. Where another writer waits for
the release, that fails, and the frontend stays with what the other has written. -/

/-- The time at which all of it happens. -/
def partingTime : Timestamp := ⟨2024, 1, 1, 0, 0, 0, 0⟩

/-- A frontend whose deletion was asked for. -/
def partingFrontend : Resource .frontend where
  metadata :=
    { name? := some "shop"
      namespaceName? := some "team"
      uid? := some "uid-shop"
      finalizers? := some [Names.frontendFinalizer]
      creationTimestamp? := some partingTime
      deletionTimestamp? := some partingTime
      resourceVersion? := some "1" }
  content := { spec := { imageName := "web", port := 80 } }

/-- The key of the frontend. -/
def partingKey : ObjectKey :=
  .inNamespace "team" "shop"

/-- A cluster with the frontend and its service. -/
def partingCluster : Cluster :=
  let owner : Owner := ⟨"shop", "team", ⟨"", none, some true, "", "", "uid-shop"⟩⟩
  let seeded := (Cluster.create { now := partingTime } partingFrontend).2
  (seeded.create (Workload.service owner partingFrontend.content.spec).toResource).2

/-- The cluster with a writer who waits to put a label on the frontend. -/
def disturbedCluster : Cluster :=
  partingCluster.beforeReplace (partingKey.path .frontend) fun _ object =>
    { object with metadata := { object.metadata with labels? := some [("touched", "yes")] } }

theorem partingCluster_reachable : partingCluster.Reachable :=
  .seed _ (.seed _ (.empty _))

theorem parting_pass_in_order :
    partingCluster.Reachable ∧ (Duty.frontend 5).IsOperators ∧
      partingCluster.find? .frontend (partingKey.path .frontend) = some partingFrontend ∧
      partingFrontend.metadata.lifeStage (Duty.frontend 5).mark = .tearingDown ∧
      (∃ owner, (Duty.frontend 5).TearsDownInOrder owner partingFrontend partingKey
        partingCluster) ∧
      (((Duty.frontend 5).pass partingKey).run Cluster.serve partingCluster).1 = .ok .tornDown := by
  have hfind : partingCluster.find? .frontend (partingKey.path .frontend) =
    some partingFrontend := rfl
  have hstage : partingFrontend.metadata.lifeStage (Duty.frontend 5).mark = .tearingDown := by
    decide
  have horder := teardown_pass_in_order partingCluster_reachable (.frontend 5) hfind hstage
  exact ⟨partingCluster_reachable, .frontend 5, hfind, hstage, ⟨_, horder.1 _ rfl⟩, rfl⟩

/-- A pass that fails may leave the resource changed: another writer is let in by its release. -/
theorem disturbed_pass_leaves_label :
    disturbedCluster.Reachable ∧
      disturbedCluster.find? .frontend (partingKey.path .frontend) = some partingFrontend ∧
      partingFrontend.metadata.lifeStage (Duty.frontend 5).mark = .tearingDown ∧
      (((Duty.frontend 5).pass partingKey).run Cluster.serve disturbedCluster).1 =
        .error (refused 409 "Conflict") ∧
      (((Duty.frontend 5).pass partingKey).run Cluster.serve disturbedCluster).2.find? .frontend
        (partingKey.path .frontend) ≠ some partingFrontend := by
  refine ⟨.beforeReplace _ (fun _ _ => rfl) partingCluster_reachable, rfl, by decide, rfl, ?_⟩
  intro hsame
  have hlabels : ((((Duty.frontend 5).pass partingKey).run Cluster.serve
      disturbedCluster).2.find? .frontend (partingKey.path .frontend)).bind
        (fun object => object.metadata.labels?) = some [("touched", "yes")] := rfl
  rw [hsame] at hlabels
  exact absurd hlabels (by simp [partingFrontend])

end Duty

end EdgeOperator
