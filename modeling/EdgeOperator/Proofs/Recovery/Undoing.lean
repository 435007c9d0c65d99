import EdgeOperator.Proofs.Ownership.Pass

set_option autoImplicit false

/-! # Teardowns that are cut off

However often a teardown is cut off, what it has changed by then was due: an object that the plan
names and the owner controls. It is gone, or is still due (`Cluster.Undoing`). So a teardown that
goes well at last leaves what it would have left at the first attempt
(`Cluster.Undoing.outline_eq`). -/

namespace EdgeOperator

open Program

/-! ## What is due -/

/-- Whether an object under a path is to be removed: the plan names it and the owner controls it. -/
def AnyResource.IsDue (object : AnyResource) (owner : Owner) (plan : List TeardownStep)
    (path : String) : Prop :=
  owner.controls object.metadata = true ∧
    ∃ step ∈ plan, step.kind = object.kind ∧ step.key.path step.kind = path

instance (object : AnyResource) (owner : Owner) (plan : List TeardownStep) (path : String) :
    Decidable (object.IsDue owner plan path) :=
  inferInstanceAs (Decidable (_ ∧ _))

namespace Cluster

variable {owner : Owner} {plan : List TeardownStep}
  {before middle after first now cluster : Cluster} {server : Cluster.Server}

/-- Whether a cluster has come from another by removals of what was due, complete or not. -/
def Undoing (owner : Owner) (plan : List TeardownStep) (before after : Cluster) : Prop :=
  ∀ path, after.objects.get? path = before.objects.get? path ∨
    (∃ object, before.objects.get? path = some object ∧ object.IsDue owner plan path) ∧
      ∀ object, after.objects.get? path = some object → object.IsDue owner plan path

/-- The outlines that are left when everything due is removed. -/
def undone (cluster : Cluster) (owner : Owner) (plan : List TeardownStep) (path : String) :
    Option AnyResource :=
  ((cluster.objects.get? path).filter fun object => ¬ object.IsDue owner plan path).map
    AnyResource.outline

theorem undoing_of_objects (h : after.objects = before.objects) : Undoing owner plan before after :=
  fun path => Or.inl (congrArg (StringMap.get? · path) h)

theorem Undoing.trans (h : Undoing owner plan before middle)
    (h' : Undoing owner plan middle after) : Undoing owner plan before after := by
  intro path
  rcases h' path with heq' | ⟨⟨object, hget, hdue⟩, hafter⟩
  · rw [heq']
    exact h path
  · rcases h path with heq | ⟨hbefore, _⟩
    · exact Or.inr ⟨⟨object, heq ▸ hget, hdue⟩, hafter⟩
    · exact Or.inr ⟨hbefore, hafter⟩

/-- What is not due stays. -/
theorem Undoing.get?_of_not_due (h : Undoing owner plan before after) {path : String}
    {object : AnyResource} (hget : before.objects.get? path = some object)
    (hdue : ¬ object.IsDue owner plan path) : after.objects.get? path = some object := by
  rcases h path with heq | ⟨⟨stored, hstored, hstoredDue⟩, _⟩
  · exact heq.trans hget
  · obtain rfl := Option.some.inj (hget.symm.trans hstored)
    exact absurd hstoredDue hdue

/-- The deletion of what was due at the start is a part of the removals. -/
theorem Undoing.delete (hserver : IsFaithful server) (h : Undoing owner plan first now)
    (hcalm : now.IsCalm) {step : TeardownStep} {object : AnyResource}
    (hget : first.objects.get? (step.key.path step.kind) = some object)
    (hdue : object.IsDue owner plan (step.key.path step.kind)) :
    Undoing owner plan first (server (.delete step.kind step.key) now).2 := by
  -- whatever is under the path by now is due as well
  have hnow : ∀ stored, now.objects.get? (step.key.path step.kind) = some stored →
      stored.IsDue owner plan (step.key.path step.kind) := by
    intro stored hstored
    rcases h (step.key.path step.kind) with heq | ⟨_, hall⟩
    · obtain rfl := Option.some.inj (hget.symm.trans (heq.symm.trans hstored))
      exact hdue
    · exact hall stored hstored
  rcases hserver.delete_cases hcalm step.kind step.key with
    hobjects | ⟨current, hfind, hobjects | ⟨next, hreferences, hobjects⟩⟩
  · exact h.trans (undoing_of_objects hobjects)
  · intro path
    rw [hobjects, StringMap.get?_erase]
    split
    · next heq => exact Or.inr ⟨⟨object, heq ▸ hget, heq ▸ hdue⟩, by simp⟩
    · exact h path
  · intro path
    rw [hobjects, StringMap.get?_set]
    split
    · next heq =>
      refine Or.inr ⟨⟨object, heq ▸ hget, heq ▸ hdue⟩, fun stored hstored => ?_⟩
      obtain rfl := Option.some.inj hstored
      obtain ⟨hcontrols, hstep⟩ := hnow _ (find?_eq_some.1 hfind)
      refine ⟨?_, heq ▸ hstep⟩
      unfold Owner.controls at hcontrols ⊢
      rwa [AnyResource.metadata_mk, hreferences]
    · exact h path

/-- Where the plan is settled, just what was due is gone. -/
theorem Undoing.outline_eq (h : Undoing owner plan first now)
    (hsettled : ∀ step ∈ plan, now.IsSettled owner step) :
    now.outline = first.undone owner plan := by
  funext path
  have hfree : ∀ object, now.objects.get? path = some object → ¬ object.IsDue owner plan path := by
    rintro ⟨kind, resource⟩ hget ⟨hcontrols, step, hstep, rfl, rfl⟩
    have hcontrols' := hsettled step hstep resource (find?_eq_some.2 hget)
    rw [AnyResource.metadata_mk, hcontrols'] at hcontrols
    cases hcontrols
  unfold outline undone
  rcases h path with heq | ⟨⟨object, hget, hdue⟩, hall⟩
  · rw [heq] at hfree ⊢
    cases hget : first.objects.get? path with
    | none => rfl
    | some object => rw [Option.filter_some_pos (by simpa using hfree object hget)]
  · rw [hget, Option.filter_some_neg (by simpa using hdue)]
    cases hnow : now.objects.get? path with
    | none => rfl
    | some stored => exact absurd (hall stored hnow) (hfree stored hnow)

end Cluster

/-! ## Teardowns -/

variable {owner : Owner} {plan : List TeardownStep} {cluster : Cluster} {server : Cluster.Server}

/-- A removal removes nothing but what is due. -/
theorem TeardownStep.remove_undoing (hserver : Cluster.IsFaithful server) {step : TeardownStep}
    (hstep : step ∈ plan) (hcalm : cluster.IsCalm) :
    (step.remove owner).Ends server cluster fun _ after =>
      Cluster.Undoing owner plan cluster after := by
  obtain ⟨hobjects, hlook⟩ := hserver.get_cases hcalm step.kind step.key
  have hsame : Cluster.Undoing owner plan cluster (server (.get step.kind step.key) cluster).2 :=
    Cluster.undoing_of_objects hobjects
  refine ends_bind.2 (ends_perform.2 ?_)
  rcases hlook with ⟨e, hlook⟩ | hlook <;> rw [hlook]
  · exact hsame
  cases hfind : cluster.find? step.kind (step.key.path step.kind) with
  | none => exact hsame
  | some current =>
    dsimp only
    split
    · exact hsame
    next hcontrols =>
      split
      · exact hsame
      have hdue : (⟨step.kind, current⟩ : AnyResource).IsDue owner plan
          (step.key.path step.kind) :=
        ⟨by simpa using hcontrols, step, hstep, rfl, rfl⟩
      have hkeeps : ∀ (request : Request) (after : Cluster), step.Asks request →
          after.IsCalm ∧ Cluster.Undoing owner plan cluster after →
            (server request after).2.IsCalm ∧
              Cluster.Undoing owner plan cluster (server request after).2 := by
        rintro request after hasks ⟨hafter, hundoing⟩
        refine ⟨hserver.calm hafter request, ?_⟩
        rcases hasks with rfl | rfl
        · exact hundoing.trans
            (Cluster.undoing_of_objects (hserver.get_cases hafter step.kind step.key).1)
        · exact hundoing.delete hserver hafter (Cluster.find?_eq_some.1 hfind) hdue
      exact (step.onlyAsks_delete.run_keeps
        (fun after => after.IsCalm ∧ Cluster.Undoing owner plan cluster after) hkeeps
        ⟨hserver.calm hcalm (.get step.kind step.key), hsame⟩).2

/-- A teardown removes nothing but what is due, however it ends. -/
theorem teardown_undoing (hserver : Cluster.IsFaithful server) {steps : List TeardownStep}
    (hsteps : steps ⊆ plan) (hcalm : cluster.IsCalm) :
    (teardown owner steps).Ends server cluster fun _ after =>
      Cluster.Undoing owner plan cluster after := by
  induction steps generalizing cluster with
  | nil => exact ends_pure.2 (Cluster.undoing_of_objects rfl)
  | cons step rest ih =>
    obtain ⟨hstep, hrest⟩ := List.cons_subset.1 hsteps
    refine ((step.remove_spares hserver hcalm).and
      (TeardownStep.remove_undoing hserver hstep hcalm)).bind ?_ ?_
    · rintro _ middle ⟨hspared, hundoing⟩
      exact (ih hrest hspared.calm).mono fun _ _ hafter => hundoing.trans hafter
    · exact fun e middle ⟨_, hundoing⟩ => hundoing

end EdgeOperator
