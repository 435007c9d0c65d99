import EdgeOperator.Proofs.Cluster.Faithful
import EdgeOperator.Proofs.Ownership

set_option autoImplicit false

/-! # Passes keep objects tended

A pass marks its resource before it installs anything, and releases it after its plan is settled. So
whatever a pass installs has its tender from the start, and the pass leaves everything tended
however it ends (`Duty.pass_keepsTended`). What is left to show for a duty is that it installs
nothing but what its own teardown plan names. -/

namespace EdgeOperator

open Program

namespace Cluster

/-- Whether a cluster follows another by calls that take no mark off and bring in no object. -/
structure IsSparedBy (before after : Cluster) : Prop where
  calm : after.IsCalm
  marked : KeepsMarked before after
  brings : ∀ kind, BringsNo kind before after

variable {before middle after cluster : Cluster}

theorem IsCalm.spared (h : cluster.IsCalm) : IsSparedBy cluster cluster :=
  ⟨h, keepsMarked_of_objects rfl, retains_of_objects rfl⟩

theorem IsSparedBy.trans (h : IsSparedBy before middle) (h' : IsSparedBy middle after) :
    IsSparedBy before after :=
  ⟨h'.calm, h.marked.trans h'.marked, fun kind => (h.brings kind).trans (h'.brings kind)⟩

theorem IsCalm.spared_serve (h : cluster.IsCalm) {request : Request}
    (hspares : request.SparesMarks cluster) (hbrings : ∀ kind, request.BringsNo kind cluster) :
    IsSparedBy cluster (Cluster.serve request cluster).2 :=
  ⟨h.serve request, h.keepsMarked hspares, fun kind => h.bringsNo (hbrings kind)⟩

theorem IsCalm.spared_get (h : cluster.IsCalm) (kind : Kind) (key : ObjectKey) :
    IsSparedBy cluster (Cluster.serve (.get kind key) cluster).2 :=
  h.spared_serve trivial fun _ => trivial

theorem IsTended.of_spared {kind : Kind} (h : before.IsTended kind)
    (hspared : IsSparedBy before after) : after.IsTended kind :=
  h.of_frames hspared.marked (hspared.brings kind)

end Cluster

/-! ## Stages -/

theorem Metadata.lifeStage_eq_unmarked {m : Metadata} {mark : String} :
    m.lifeStage mark = .unmarked ↔ m.isDeleted = false ∧ mark ∉ m.finalizers := by
  unfold lifeStage
  cases m.isDeleted <;> cases h : m.finalizers.contains mark <;> simp_all

theorem Metadata.lifeStage_eq_marked {m : Metadata} {mark : String} :
    m.lifeStage mark = .marked ↔ m.isDeleted = false ∧ mark ∈ m.finalizers := by
  unfold lifeStage
  cases m.isDeleted <;> cases h : m.finalizers.contains mark <;> simp_all

theorem Metadata.lifeStage_eq_tearingDown {m : Metadata} {mark : String} :
    m.lifeStage mark = .tearingDown ↔ m.isDeleted = true ∧ mark ∈ m.finalizers := by
  unfold lifeStage
  cases m.isDeleted <;> cases h : m.finalizers.contains mark <;> simp_all

theorem Metadata.lifeStage_eq_released {m : Metadata} {mark : String} :
    m.lifeStage mark = .released ↔ m.isDeleted = true ∧ mark ∉ m.finalizers := by
  unfold lifeStage
  cases m.isDeleted <;> cases h : m.finalizers.contains mark <;> simp_all

/-! ## Teardown -/

variable {owner : Owner} {cluster : Cluster} {server : Cluster.Server}

theorem spared_of_asks (hserver : Cluster.IsFaithful server) (hcalm : cluster.IsCalm)
    {step : TeardownStep} {request : Request} (hasks : step.Asks request) :
    Cluster.IsSparedBy cluster (server request cluster).2 := by
  obtain ⟨same, hsame, hobjects, heq⟩ := hserver request cluster hcalm
  have hspared : Cluster.IsSparedBy cluster same :=
    ⟨hsame, Cluster.keepsMarked_of_objects hobjects, Cluster.retains_of_objects hobjects⟩
  rw [heq]
  refine hspared.trans ?_
  rcases hasks with rfl | rfl <;> exact hsame.spared_serve trivial fun _ => trivial

/-- A deletion that goes well leaves no object. -/
theorem TeardownStep.delete_settles (hserver : Cluster.IsFaithful server) (step : TeardownStep)
    (hcalm : cluster.IsCalm) :
    step.delete.Ends server cluster fun result after =>
      result = .ok () → after.IsSettled owner step := by
  have hafter := spared_of_asks hserver hcalm (Or.inr rfl : step.Asks (.delete step.kind step.key))
  refine ends_bind.2 (ends_attempt.2 ?_)
  cases hanswer : (server (.delete step.kind step.key) cluster).1 with
  | error e =>
    dsimp only
    split
    · next hfailure =>
      -- the deletion found nothing, and no fault made it say so
      intro _
      have hnone := hserver.find?_of_delete hcalm hanswer hfailure
      exact (Cluster.isSettled_of_none hnone).of_bringsNo (hafter.brings step.kind)
    · exact ends_fail.2 (by simp)
  | ok _ =>
    -- only the look afterwards tells that the object is gone: it may have finalizers
    refine ends_bind.2 (ends_perform.2 ?_)
    obtain ⟨hobjects, hlook⟩ := hserver.get_cases hafter.calm step.kind step.key
    rcases hlook with ⟨e, hlook⟩ | hlook <;> rw [hlook]
    · simp
    cases hfind : (server (.delete step.kind step.key) cluster).2.find? step.kind
      (step.key.path step.kind) with
    | none =>
      intro _
      refine Cluster.isSettled_of_none (Eq.trans ?_ hfind)
      exact (Cluster.leaves_of_objects hobjects step.kind).find?_eq _
    | some object => exact ends_fail.2 (by simp)

/-- A removal that goes well leaves no object that the owner controls. -/
theorem TeardownStep.remove_settles (hserver : Cluster.IsFaithful server) (step : TeardownStep)
    (hcalm : cluster.IsCalm) :
    (step.remove owner).Ends server cluster fun result after =>
      result = .ok () → after.IsSettled owner step := by
  obtain ⟨hobjects, hlook⟩ := hserver.get_cases hcalm step.kind step.key
  have hfound := (Cluster.leaves_of_objects hobjects step.kind).find?_eq (step.key.path step.kind)
  refine ends_bind.2 (ends_perform.2 ?_)
  rcases hlook with ⟨e, hlook⟩ | hlook <;> rw [hlook]
  · simp
  cases hfind : cluster.find? step.kind (step.key.path step.kind) with
  | none => exact fun _ => Cluster.isSettled_of_none (hfound.trans hfind)
  | some current =>
    dsimp only
    split
    · next hcontrols =>
      intro _ object hobject
      obtain rfl := Option.some.inj (hfind.symm.trans (hfound.symm.trans hobject))
      simpa using hcontrols
    · split
      · exact ends_fail.2 (by simp)
      · exact step.delete_settles hserver (hserver.calm hcalm _)

theorem TeardownStep.onlyAsks_delete (step : TeardownStep) : step.delete.OnlyAsks step.Asks := by
  refine (OnlyAsks.attempt (Or.inr rfl)).bind fun answer => ?_
  cases answer with
  | ok _ =>
    refine (OnlyAsks.perform (Or.inl rfl)).bind fun found => ?_
    cases found <;> exact .done _
  | error e =>
    dsimp only
    split <;> exact .done _

theorem TeardownStep.onlyAsks_remove (step : TeardownStep) (owner : Owner) :
    (step.remove owner).OnlyAsks step.Asks := by
  refine (OnlyAsks.perform (Or.inl rfl)).bind fun found => ?_
  cases found with
  | none => exact .done _
  | some current =>
    dsimp only
    split
    · exact .done _
    · split
      · exact .done _
      · exact step.onlyAsks_delete

/-- A removal takes no mark off and brings in no object. -/
theorem TeardownStep.remove_spares (hserver : Cluster.IsFaithful server) (step : TeardownStep)
    (hcalm : cluster.IsCalm) :
    (step.remove owner).Ends server cluster fun _ after => Cluster.IsSparedBy cluster after :=
  (step.onlyAsks_remove owner).run_keeps (Cluster.IsSparedBy cluster)
    (fun _ _ hasks hspared => hspared.trans (spared_of_asks hserver hspared.calm hasks))
    hcalm.spared

theorem teardown_onlyAsks (owner : Owner) (plan : List TeardownStep) :
    (teardown owner plan).OnlyAsks fun request => ∃ step ∈ plan, step.Asks request := by
  induction plan with
  | nil => exact .done _
  | cons step rest ih =>
    refine OnlyAsks.bind ((step.onlyAsks_remove owner).mono fun request hasks => ?_) fun _ =>
      ih.mono fun request ⟨other, hother, hasks⟩ => ?_
    · exact ⟨step, List.mem_cons_self .., hasks⟩
    · exact ⟨other, List.mem_cons_of_mem _ hother, hasks⟩

/-- A teardown that goes well leaves no object of the plan that the owner controls. -/
theorem teardown_settles (hserver : Cluster.IsFaithful server) (plan : List TeardownStep)
    (hcalm : cluster.IsCalm) :
    (teardown owner plan).Ends server cluster fun result after =>
      Cluster.IsSparedBy cluster after ∧
        (result = .ok () → ∀ step ∈ plan, after.IsSettled owner step) := by
  induction plan generalizing cluster with
  | nil => exact ends_pure.2 ⟨hcalm.spared, by simp⟩
  | cons step rest ih =>
    -- what is settled stays so, since the rest of the teardown brings in nothing
    refine ((step.remove_spares hserver hcalm).and (step.remove_settles hserver hcalm)).bind ?_ ?_
    · intro _ middle ⟨hspared, hsettled⟩
      refine (ih hspared.calm).mono fun result after ⟨hrest, hplan⟩ => ?_
      refine ⟨hspared.trans hrest, fun hok => List.forall_mem_cons.2 ⟨?_, hplan hok⟩⟩
      exact (hsettled rfl).of_bringsNo (hrest.brings step.kind)
    · exact fun e middle ⟨hspared, _⟩ => ⟨hspared, by simp⟩

namespace Duty

variable {kind dependent : Kind} {duty : Duty kind} {object : Resource kind} {path : String}

/-- A dismantling deletes along the plan and writes the resource. -/
theorem dismantle_onlyAsks {sort : Request → Prop} (hlook : ∀ kind key, sort (.get kind key))
    (hdelete : ∀ owner, ∀ step ∈ duty.teardownPlan owner, sort (.delete step.kind step.key))
    {object : Resource kind} (hwrite : sort (.replace kind (duty.unmarked object))) :
    (duty.dismantle object).OnlyAsks sort := by
  unfold dismantle
  cases Owner.ofResource object with
  | error e => exact .done _
  | ok owner =>
    refine ((teardown_onlyAsks owner _).mono fun request ⟨step, hstep, hasks⟩ => ?_).bind
      fun _ => (OnlyAsks.perform hwrite).bind fun _ => .done _
    rcases hasks with rfl | rfl
    · exact hlook _ _
    · exact hdelete owner step hstep

/-- A dismantling leaves everything tended: the resource is released only when nothing of its plan
is left. -/
theorem dismantle_keepsTended (hduty : duty.IsOperators) (hkind : kind ≠ dependent)
    (hcalm : cluster.IsCalm) (htended : cluster.IsTended dependent)
    (hfind : cluster.find? kind path = some object) :
    (duty.dismantle object).Ends Cluster.serve cluster fun _ after =>
      after.IsCalm ∧ after.IsTended dependent := by
  unfold dismantle
  cases howner : Owner.ofResource object with
  | error e => exact ⟨hcalm, htended⟩
  | ok owner =>
    -- the plan names no object of this kind, so the release meets the resource as it was read
    have hkept : (teardown owner (duty.teardownPlan owner)).Ends Cluster.serve cluster
        fun _ after => after.find? kind path = some object := by
      refine (teardown_onlyAsks owner (duty.teardownPlan owner)).run_keeps
        (fun after : Cluster => after.find? kind path = some object) ?_ hfind
      rintro request after ⟨step, hstep, hasks⟩ hafter
      exact Cluster.find?_eq_some.2 (get?_serve_of_asks hasks (hduty.kind_ne owner step hstep)
        (Cluster.find?_eq_some.1 hafter))
    refine ((teardown_settles Cluster.isFaithful_serve _ hcalm).and hkept).bind ?_ ?_
    · intro _ middle ⟨⟨hspared, hsettled⟩, hfound⟩
      have hreleased := And.intro
        (hspared.calm.serve (.replace kind (duty.unmarked object)))
        ((htended.of_spared hspared).release hduty hspared.calm hkind hfound howner (hsettled rfl))
      have hrelease : release object duty.mark = perform (.replace kind (duty.unmarked object)) :=
        rfl
      rw [hrelease, ends_bind, ends_perform]
      cases (Cluster.serve (.replace kind (duty.unmarked object)) middle).1 with
      | error e => exact hreleased
      | ok stored => exact hreleased
    · exact fun e middle ⟨⟨hspared, _⟩, _⟩ => ⟨hspared.calm, htended.of_spared hspared⟩

/-- A resource that is registered carries the mark before the pass goes on. -/
theorem register_tends (hcalm : cluster.IsCalm)
    (hfind : cluster.find? kind path = some object)
    (hstage : object.metadata.lifeStage duty.mark = .unmarked) :
    (register object duty.mark).Ends Cluster.serve cluster fun result after =>
      Cluster.IsSparedBy cluster after ∧ ∀ stored, result = .ok stored →
        Owner.ofResource stored = Owner.ofResource object ∧
          ∀ owner, Owner.ofResource stored = .ok owner → after.IsTending duty owner := by
  have hpath : object.path = path := (hcalm.sound.kept (Cluster.find?_eq_some.1 hfind)).path_eq
  have hfound : ∀ current, cluster.find? kind object.path = some current → current = object :=
    fun current hcurrent => Option.some.inj (hcurrent.symm.trans (hpath ▸ hfind))
  let registered : Resource kind :=
    { object with metadata := object.metadata.addMark duty.mark }
  refine ends_perform.2 ⟨hcalm.spared_serve ?_ ?_, ?_⟩
  · rintro current hcurrent other _ hmark
    obtain rfl := hfound current hcurrent
    exact ⟨List.mem_append_left _ hmark, rfl, rfl⟩
  · rintro other rfl current hcurrent
    obtain rfl := hfound current hcurrent
    rfl
  · intro stored hok
    rcases Cluster.serve_replace_undisturbed (hcalm.isUndisturbed registered.path) with
      ⟨e, heq⟩ | ⟨current, hcurrent, _, heq⟩
    · exact absurd (hok.symm.trans (congrArg Prod.fst heq)) (by simp)
    · obtain rfl := hfound current hcurrent
      obtain rfl := Except.ok.inj (hok.symm.trans (congrArg Prod.fst heq))
      -- it is not deleted, so it is stored and not removed
      have hlive : ((cluster.note (Request.replace kind registered).call).2.replaced current
          registered).metadata.isDeleted = false := (Metadata.lifeStage_eq_unmarked.1 hstage).1
      refine ⟨Owner.ofResource_congr rfl rfl rfl, fun owner howner => ?_⟩
      rw [heq, Cluster.settled_of_live hlive]
      refine ⟨registered.path, _, (Cluster.find?_of_set rfl ..).2 (Or.inl ⟨rfl, rfl⟩), ?_, ?_⟩
      · exact List.mem_append_right _ (List.mem_singleton_self _)
      · exact (Owner.ofResource_congr rfl rfl rfl).trans howner

/-! ## Passes -/

theorem settle_onlyAsks {sort : Request → Prop}
    (hinstall : ∀ owner read, (duty.install owner read).OnlyAsks sort)
    (stored read : Resource kind) : (duty.settle stored read).OnlyAsks sort := by
  unfold settle
  cases Owner.ofResource stored with
  | error e => exact .done _
  | ok owner => exact (hinstall owner read).bind fun _ => .done _

/-- Besides what it installs, a pass deletes along the plan and writes the finalizers of what it has
found. -/
theorem serveFound_onlyAsks {sort : Request → Prop} (hlook : ∀ kind key, sort (.get kind key))
    (hdelete : ∀ owner, ∀ step ∈ duty.teardownPlan owner, sort (.delete step.kind step.key))
    (hinstall : ∀ owner read, (duty.install owner read).OnlyAsks sort)
    {found? : Option (Resource kind)} (hwrite : ∀ object, found? = some object → ∀ finalizers?,
      sort (.replace kind
        { object with metadata := { object.metadata with finalizers? := finalizers? } })) :
    (duty.serveFound found?).OnlyAsks sort := by
  cases found? with
  | none => exact .done _
  | some object =>
    dsimp only [serveFound]
    cases object.metadata.lifeStage duty.mark with
    | released => exact .done _
    | tearingDown => exact dismantle_onlyAsks hlook hdelete (hwrite object rfl _)
    | unmarked =>
      exact (OnlyAsks.perform (hwrite object rfl _)).bind fun stored =>
        settle_onlyAsks hinstall stored object
    | marked => exact settle_onlyAsks hinstall object object

theorem pass_onlyAsks {sort : Request → Prop} (hlook : ∀ kind key, sort (.get kind key))
    (hdelete : ∀ owner, ∀ step ∈ duty.teardownPlan owner, sort (.delete step.kind step.key))
    (hwrite : ∀ object : Resource kind, sort (.replace kind object))
    (hinstall : ∀ owner read, (duty.install owner read).OnlyAsks sort) (key : ObjectKey) :
    (duty.pass key).OnlyAsks sort := by
  rw [pass_eq]
  exact (OnlyAsks.perform (hlook kind key)).bind fun _ =>
    serveFound_onlyAsks hlook hdelete hinstall fun _ _ _ => hwrite _

/-- Whether the installations of a duty keep a kind tended while their owner tends. -/
def InstallsTended (duty : Duty kind) (dependent : Kind) : Prop :=
  ∀ (owner : Owner) (read : Resource kind) (cluster : Cluster), cluster.IsCalm →
    cluster.IsTending duty owner → cluster.IsTended dependent →
      (duty.install owner read).Ends Cluster.serve cluster fun _ after =>
        after.IsCalm ∧ after.IsTended dependent

theorem settle_keepsTended (hinstall : duty.InstallsTended dependent) (hcalm : cluster.IsCalm)
    (htended : cluster.IsTended dependent) {stored read : Resource kind}
    (htends : ∀ owner, Owner.ofResource stored = .ok owner → cluster.IsTending duty owner) :
    (duty.settle stored read).Ends Cluster.serve cluster fun _ after =>
      after.IsCalm ∧ after.IsTended dependent := by
  unfold settle
  cases howner : Owner.ofResource stored with
  | error e => exact ⟨hcalm, htended⟩
  | ok owner =>
    exact (hinstall owner read cluster hcalm (htends owner howner) htended).bind
      (fun _ _ h => h) fun _ _ h => h

/-- A pass keeps a kind tended if the installations of its duty do. -/
theorem pass_keepsTended (hduty : duty.IsOperators) (hkind : kind ≠ dependent)
    (hinstall : duty.InstallsTended dependent) (key : ObjectKey) (hcalm : cluster.IsCalm)
    (htended : cluster.IsTended dependent) :
    (duty.pass key).Ends Cluster.serve cluster fun _ after =>
      after.IsCalm ∧ after.IsTended dependent := by
  have hlooked := hcalm.spared_get kind key
  have htended' := htended.of_spared hlooked
  rw [pass_eq, ends_bind, ends_perform]
  rcases hanswer : (Cluster.serve (.get kind key) cluster).1 with e | _ | object
  · exact ⟨hlooked.calm, htended'⟩
  · exact ⟨hlooked.calm, htended'⟩
  · have hfind : (Cluster.serve (.get kind key) cluster).2.find? kind (key.path kind) =
        some object := by
      rw [Cluster.serve_get_snd, Cluster.note_find?]
      exact Cluster.find?_of_serve_get hanswer
    dsimp only [serveFound]
    cases hstage : object.metadata.lifeStage duty.mark with
    | released => exact ⟨hlooked.calm, htended'⟩
    | tearingDown => exact duty.dismantle_keepsTended hduty hkind hlooked.calm htended' hfind
    | unmarked =>
      -- nothing is installed unless the mark has been set
      refine (register_tends hlooked.calm hfind hstage).bind ?_ ?_
      · intro stored middle ⟨hspared, htends⟩
        exact settle_keepsTended hinstall hspared.calm (htended'.of_spared hspared)
          (htends stored rfl).2
      · exact fun e middle ⟨hspared, _⟩ => ⟨hspared.calm, htended'.of_spared hspared⟩
    | marked =>
      exact settle_keepsTended hinstall hlooked.calm htended' fun owner howner =>
        ⟨_, object, hfind, (Metadata.lifeStage_eq_marked.1 hstage).2, howner⟩

end Duty

end EdgeOperator
