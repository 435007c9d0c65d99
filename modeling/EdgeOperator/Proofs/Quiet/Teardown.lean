import EdgeOperator.Proofs.Quiet.Pass

set_option autoImplicit false

/-! # Teardowns on quiet clusters

On a quiet cluster a teardown deletes, in the order of its plan, just the objects that the owner
controls, provided that nothing holds them back (`teardown_of_quiet`). So a pass for a resource that
was deleted leaves all but the resource and what it owned (`Duty.pass_clears`). -/

namespace EdgeOperator

open Program Cluster

/-- The path of the object that a step names. -/
def TeardownStep.path (step : TeardownStep) : String :=
  step.key.path step.kind

namespace Cluster

/-- Whether there is an object for a step, and the owner controls it. -/
def owns (cluster : Cluster) (owner : Owner) (step : TeardownStep) : Bool :=
  (cluster.find? step.kind step.path).any fun current => owner.controls current.metadata

/-- Whether the owner's object for a step, if there is one, would go at once by its deletion. -/
def LetsRemove (cluster : Cluster) (owner : Owner) (step : TeardownStep) : Prop :=
  ∀ current, cluster.find? step.kind step.path = some current →
    owner.controls current.metadata = true →
      current.metadata.isDeleted = false ∧ current.metadata.finalizers = []

/-- Whether a cluster has come from another by the deletion of what the owner has of a plan, in its
order. -/
structure Cleared (owner : Owner) (plan : List TeardownStep) (before : Cluster)
    (deleted : List TeardownStep) (after : Cluster) : Prop where
  deleted_eq : deleted = plan.filter (before.owns owner)
  gone : ∀ step ∈ plan, before.owns owner step = true → after.objects.get? step.path = none
  kept : ∀ path, (∀ step ∈ plan, before.owns owner step = true → step.path ≠ path) →
    after.objects.get? path = before.objects.get? path

theorem owns_eq_true {cluster : Cluster} {owner : Owner} {step : TeardownStep} :
    cluster.owns owner step = true ↔ ∃ current, cluster.find? step.kind step.path = some current ∧
      owner.controls current.metadata = true := by
  unfold owns
  cases cluster.find? step.kind step.path <;> simp

theorem owns_of_find? {cluster : Cluster} {owner : Owner} {step : TeardownStep}
    {found? : Option (Resource step.kind)} (h : cluster.find? step.kind step.path = found?) :
    cluster.owns owner step = found?.any fun current => owner.controls current.metadata := by
  unfold owns
  rw [h]

end Cluster

variable {owner : Owner} {cluster : Cluster} {clock : Nat → Timestamp} {step : TeardownStep}
  {plan : List TeardownStep}

/-! ## Removals -/

/-- What the owner has of a step is deleted, and nothing else is. -/
theorem TeardownStep.remove_of_quiet (h : cluster.IsQuiet)
    (hremovable : cluster.LetsRemove owner step) :
    (step.remove owner).Unfolds (serveAt clock) cluster fun exchanges result after =>
      result = .ok () ∧ after.IsQuiet ∧ deletions exchanges = [step].filter (cluster.owns owner) ∧
        after.objects =
          if cluster.owns owner step then cluster.objects.erase step.path else cluster.objects := by
  obtain ⟨looked, hget, hlooked, hobjects⟩ := h.serve_get clock step.kind step.key
  rw [List.filter_singleton]
  refine unfolds_bind.2 (unfolds_perform.2 ?_)
  rw [hget]
  cases hfind : cluster.find? step.kind (step.key.path step.kind) with
  | none =>
    rw [owns_of_find? hfind]
    exact unfolds_pure.2 ⟨rfl, hlooked, rfl, hobjects⟩
  | some current =>
    rw [owns_of_find? hfind, Option.any_some]
    dsimp only
    cases hcontrols : owner.controls current.metadata with
    | false => exact unfolds_pure.2 ⟨rfl, hlooked, rfl, hobjects⟩
    | true =>
      obtain ⟨hlive, hempty⟩ := hremovable current hfind hcontrols
      have hfound := ((leaves_of_objects hobjects step.kind).find?_eq _).trans hfind
      obtain ⟨_, deleted, hdelete, hdeleted, herased⟩ := hlooked.serve_delete clock hfound
      rw [hempty, List.isEmpty_nil, if_pos rfl, hobjects] at herased
      obtain ⟨after, hget, hafter, hsame⟩ := hdeleted.serve_get clock step.kind step.key
      have hgone : deleted.find? step.kind (step.key.path step.kind) = none :=
        find?_of_absent (by rw [herased, StringMap.get?_erase, if_pos rfl])
      rw [hlive]
      -- the object is deleted, and the look that follows finds it gone
      refine unfolds_bind.2 (unfolds_attempt.2 ?_)
      rw [hdelete]
      refine unfolds_bind.2 (unfolds_perform.2 ?_)
      rw [hget, hgone]
      exact unfolds_pure.2 ⟨rfl, hafter, rfl, hsame.trans herased⟩

/-! ## Teardowns -/

/-- What is not at the place of a removed object, or is of another kind, is found as before. -/
theorem Cluster.find?_of_removed {middle : Cluster} {other : TeardownStep}
    (hdistinct : step.kind = other.kind → step.path ≠ other.path)
    (hobjects : middle.objects =
      if cluster.owns owner step then cluster.objects.erase step.path else cluster.objects) :
    middle.find? other.kind other.path = cluster.find? other.kind other.path := by
  split at hobjects
  · next howns =>
    by_cases hpath : step.path = other.path
    · have hne : step.kind ≠ other.kind := fun heq => hdistinct heq hpath
      obtain ⟨current, hcurrent, _⟩ := owns_eq_true.1 howns
      rw [← hpath, find?_none_of_kind_ne hcurrent hne]
      exact find?_of_absent (by rw [hobjects, StringMap.get?_erase, if_pos rfl])
    · exact find?_congr (by rw [hobjects, StringMap.get?_erase, if_neg hpath])
  · exact find?_congr (by rw [hobjects])

/-- A removal and the clearing of the rest of a plan clear the plan. -/
theorem Cluster.Cleared.cons {middle after : Cluster} {rest deleted : List TeardownStep}
    (h : Cleared owner rest middle deleted after)
    (hobjects : middle.objects =
      if cluster.owns owner step then cluster.objects.erase step.path else cluster.objects)
    (howns : ∀ other ∈ rest, middle.owns owner other = cluster.owns owner other) :
    Cleared owner (step :: rest) cluster ([step].filter (cluster.owns owner) ++ deleted) after := by
  refine ⟨?_, List.forall_mem_cons.2 ⟨fun hstep => ?_, fun other hother hother' => ?_⟩,
    fun path hpath => ?_⟩
  · rw [h.deleted_eq, List.filter_congr howns, ← List.filter_append, List.singleton_append]
  · -- no other step can own what is under the path by now
    have hnone : middle.objects.get? step.path = none := by
      rw [hobjects, if_pos hstep, StringMap.get?_erase, if_pos rfl]
    rw [h.kept step.path, hnone]
    intro other _ hother heq
    obtain ⟨current, hcurrent, _⟩ := owns_eq_true.1 hother
    rw [heq, find?_of_absent hnone] at hcurrent
    cases hcurrent
  · exact h.gone other hother ((howns other hother).trans hother')
  · obtain ⟨hstep, hrest⟩ := List.forall_mem_cons.1 hpath
    rw [h.kept path fun other hother howned =>
      hrest other hother ((howns other hother).symm.trans howned), hobjects]
    split
    · next howned => rw [StringMap.get?_erase, if_neg (hstep howned)]
    · rfl

theorem Cluster.Cleared.of_objects {looked after : Cluster} {deleted : List TeardownStep}
    (h : Cleared owner plan looked deleted after) (hobjects : looked.objects = cluster.objects) :
    Cleared owner plan cluster deleted after := by
  have howns : looked.owns owner = cluster.owns owner :=
    funext fun step => owns_of_find? ((leaves_of_objects hobjects step.kind).find?_eq step.path)
  obtain ⟨hdeleted, hgone, hkept⟩ := h
  rw [howns] at hdeleted hgone hkept
  exact ⟨hdeleted, hgone, hobjects ▸ hkept⟩

/-- A teardown deletes what the owner has of its plan, and nothing else. -/
theorem teardown_of_quiet (h : cluster.IsQuiet)
    (hdistinct : plan.Pairwise fun step other => step.kind = other.kind → step.path ≠ other.path)
    (hremovable : ∀ step ∈ plan, cluster.LetsRemove owner step) :
    (teardown owner plan).Unfolds (serveAt clock) cluster fun exchanges result after =>
      result = .ok () ∧ Cleared owner plan cluster (deletions exchanges) after := by
  induction plan generalizing cluster with
  | nil => exact unfolds_pure.2 ⟨rfl, rfl, by simp, fun _ _ => rfl⟩
  | cons step rest ih =>
    obtain ⟨hstep, hrest⟩ := List.pairwise_cons.1 hdistinct
    obtain ⟨hremoves, hremovable⟩ := List.forall_mem_cons.1 hremovable
    refine (TeardownStep.remove_of_quiet h hremoves).bind ?_ fun _ _ _ hafter => nomatch hafter.1
    rintro removing _ middle ⟨_, hmiddle, hdeleted, hobjects⟩
    have hfind : ∀ other ∈ rest,
        middle.find? other.kind other.path = cluster.find? other.kind other.path :=
      fun other hother => find?_of_removed (hstep other hother) hobjects
    have hremovable' : ∀ other ∈ rest, middle.LetsRemove owner other := by
      intro other hother current hcurrent
      exact hremovable other hother current ((hfind other hother).symm.trans hcurrent)
    refine (ih hmiddle hrest hremovable').mono ?_
    rintro later result after ⟨hok, hcleared⟩
    rw [deletions_append, hdeleted]
    exact ⟨hok, hcleared.cons hobjects fun other hother => owns_of_find? (hfind other hother)⟩

/-! ## Passes -/

namespace Duty

variable {kind : Kind} {duty : Duty kind} {object : Resource kind} {key : ObjectKey}

/-- A pass for a resource that was deleted deletes what the resource owns, and lets the resource
go. -/
theorem pass_clears (hduty : duty.IsOperators) (h : cluster.IsQuiet)
    (hfind : cluster.find? kind (key.path kind) = some object)
    (hstage : object.metadata.lifeStage duty.mark = .tearingDown)
    (howner : Owner.ofResource object = .ok owner)
    (hdistinct : (duty.teardownPlan owner).Pairwise fun step other =>
      step.kind = other.kind → step.path ≠ other.path)
    (hremovable : ∀ step ∈ duty.teardownPlan owner, cluster.LetsRemove owner step) :
    (duty.pass key).Unfolds (serveAt clock) cluster fun exchanges result after =>
      result = .ok .tornDown ∧ ∃ cleared : Cluster,
        Cleared owner (duty.teardownPlan owner) cluster (deletions exchanges) cleared ∧
        after.IsQuiet ∧ duty.LetsGo object (key.path kind) cleared after := by
  have hteardown : ∀ looked : Cluster, looked.IsQuiet → looked.objects = cluster.objects →
      (teardown owner (duty.teardownPlan owner)).Unfolds (serveAt clock) looked
        fun exchanges result now => result = .ok () ∧
          Cleared owner (duty.teardownPlan owner) cluster (deletions exchanges) now := by
    intro looked hlooked hobjects
    have hsame : ∀ step : TeardownStep,
        looked.find? step.kind step.path = cluster.find? step.kind step.path :=
      fun step => (leaves_of_objects hobjects step.kind).find?_eq step.path
    refine (teardown_of_quiet hlooked hdistinct fun step hstep current hcurrent =>
      hremovable step hstep current ((hsame step).symm.trans hcurrent)).mono ?_
    rintro exchanges result now ⟨hok, hcleared⟩
    exact ⟨hok, hcleared.of_objects hobjects⟩
  refine unfolds_pass_of_deleted hduty h hfind hstage howner hteardown ?_ ?_
  · rintro removing exchanges e now ⟨hfalse, _⟩
    cases hfalse
  · rintro removing exchanges now after hdeletions ⟨_, hcleared⟩ hafter hgone
    exact ⟨rfl, now, hdeletions ▸ hcleared, hafter, hgone⟩

/-- A resource that nothing but its mark holds is gone then. -/
theorem pass_dismantles (hduty : duty.IsOperators) (h : cluster.IsQuiet)
    (hfind : cluster.find? kind (key.path kind) = some object)
    (hdeleted : object.metadata.isDeleted = true)
    (hfinalizers : object.metadata.finalizers = [duty.mark])
    (howner : Owner.ofResource object = .ok owner)
    (hdistinct : (duty.teardownPlan owner).Pairwise fun step other =>
      step.kind = other.kind → step.path ≠ other.path)
    (hremovable : ∀ step ∈ duty.teardownPlan owner, cluster.LetsRemove owner step) :
    (duty.pass key).Unfolds (serveAt clock) cluster fun exchanges result after =>
      result = .ok .tornDown ∧ ∃ cleared : Cluster,
        Cleared owner (duty.teardownPlan owner) cluster (deletions exchanges) cleared ∧
        after.IsQuiet ∧ after.objects = cleared.objects.erase (key.path kind) := by
  have hmark : duty.mark ∈ object.metadata.finalizers := by simp [hfinalizers]
  have hstage := Metadata.lifeStage_eq_tearingDown.2 ⟨hdeleted, hmark⟩
  refine (pass_clears hduty h hfind hstage howner hdistinct hremovable).mono ?_
  rintro exchanges result after ⟨hok, cleared, hcleared, hafter, version, hobjects⟩
  have hempty : (duty.unmarked object).metadata.finalizers = [] := by
    change object.metadata.finalizers.filter _ = []
    simp [hfinalizers]
  rw [hempty, List.isEmpty_nil, if_pos rfl] at hobjects
  exact ⟨hok, cleared, hcleared, hafter, hobjects⟩

end Duty

end EdgeOperator
