import EdgeOperator.Proofs.Cluster.Calm
import EdgeOperator.Proofs.Duty
import EdgeOperator.Proofs.Owner

set_option autoImplicit false

/-! # Objects and the resources they belong to

An object that has a controller is *tended* if that is a stored resource which carries its mark and
has the object in its teardown plan. Then the resource does not go before the object: it is kept by
its mark, and the mark is taken off only after the plan is settled.

What a call does to this has two sides: whether every marked resource keeps its mark (`KeepsMarked`),
and whether an object of some kind comes in or changes hands (`BringsNo`). A kind stays tended where
both are given (`IsTended.of_frames`), so only the calls that lack one of them need a proof of their
own: the creation of an object for a resource and the release of a resource. -/

namespace EdgeOperator

namespace Cluster

/-! ## What a call keeps -/

/-- Whether every resource with its mark keeps it, and stays the owner it is. -/
def KeepsMarked (before after : Cluster) : Prop :=
  ∀ (kind : Kind) (duty : Duty kind), duty.IsOperators → ∀ path r,
    before.find? kind path = some r → duty.mark ∈ r.metadata.finalizers →
      ∃ r', after.find? kind path = some r' ∧ duty.mark ∈ r'.metadata.finalizers ∧
        Owner.ofResource r' = Owner.ofResource r

/-- Whether all objects of a kind were there before, and a part of their metadata is what it was. -/
def Retains {α : Type} (view : Metadata → α) (kind : Kind) (before after : Cluster) : Prop :=
  ∀ path object, after.find? kind path = some object →
    ∃ old, before.find? kind path = some old ∧ view object.metadata = view old.metadata

/-- Whether no object of a kind comes in or is given to others. -/
abbrev BringsNo (kind : Kind) (before after : Cluster) : Prop :=
  Retains Metadata.ownerReferences kind before after

variable {α : Type} {view : Metadata → α} {kind : Kind} {before middle after : Cluster}

theorem keepsMarked_of_objects (h : after.objects = before.objects) : KeepsMarked before after := by
  intro kind duty hduty path r hfind hmark
  exact ⟨r, (find?_congr (congrArg (StringMap.get? · path) h)).trans hfind, hmark, rfl⟩

theorem retains_of_objects (h : after.objects = before.objects) (kind : Kind) :
    Retains view kind before after := by
  intro path object hfind
  exact ⟨object, (find?_congr (congrArg (StringMap.get? · path) h)).symm.trans hfind, rfl⟩

theorem KeepsMarked.trans (h : KeepsMarked before middle) (h' : KeepsMarked middle after) :
    KeepsMarked before after := by
  intro kind duty hduty path r hfind hmark
  obtain ⟨r', hfind', hmark', howner'⟩ := h kind duty hduty path r hfind hmark
  obtain ⟨r'', hfind'', hmark'', howner''⟩ := h' kind duty hduty path r' hfind' hmark'
  exact ⟨r'', hfind'', hmark'', howner''.trans howner'⟩

theorem Retains.trans (h : Retains view kind before middle) (h' : Retains view kind middle after) :
    Retains view kind before after := by
  intro path object hfind
  obtain ⟨object', hfind', heq'⟩ := h' path object hfind
  obtain ⟨old, hold, heq⟩ := h path object' hfind'
  exact ⟨old, hold, heq'.trans heq⟩

/-- To put an object in the place of another of its kind. -/
theorem keepsMarked_of_set {path : String} {current next : Resource kind}
    (hfind : before.find? kind path = some current)
    (hobjects : after.objects = before.objects.set path ⟨kind, next⟩)
    (hnext : ∀ duty : Duty kind, duty.IsOperators → duty.mark ∈ current.metadata.finalizers →
      duty.mark ∈ next.metadata.finalizers ∧ Owner.ofResource next = Owner.ofResource current) :
    KeepsMarked before after := by
  intro other duty hduty path' r hr hmark
  by_cases hpath : path = path'
  · subst hpath
    cases eq_of_find? hr hfind
    obtain ⟨hmark', howner⟩ := hnext duty hduty hmark
    exact ⟨next, (find?_of_set hobjects ..).2 (Or.inl ⟨rfl, rfl⟩), hmark', howner⟩
  · exact ⟨r, (find?_of_set hobjects ..).2 (Or.inr ⟨hpath, hr⟩), hmark, rfl⟩

theorem retains_of_set {path : String} {other : Kind} {current next : Resource other}
    (hfind : before.find? other path = some current)
    (hobjects : after.objects = before.objects.set path ⟨other, next⟩)
    (hnext : other = kind → view next.metadata = view current.metadata) :
    Retains view kind before after := by
  intro path' object hobject
  rcases (find?_of_set hobjects ..).1 hobject with ⟨rfl, heq⟩ | ⟨_, hold⟩
  · cases heq
    exact ⟨current, hfind, hnext rfl⟩
  · exact ⟨object, hold, rfl⟩

/-- To remove an object. -/
theorem keepsMarked_of_erase {path : String} {current : Resource kind}
    (hfind : before.find? kind path = some current)
    (hobjects : after.objects = before.objects.erase path)
    (hunmarked : ∀ duty : Duty kind, duty.IsOperators →
      duty.mark ∉ current.metadata.finalizers) : KeepsMarked before after := by
  intro other duty hduty path' r hr hmark
  by_cases hpath : path = path'
  · subst hpath
    cases eq_of_find? hr hfind
    exact absurd hmark (hunmarked duty hduty)
  · exact ⟨r, (find?_of_erase hobjects ..).2 ⟨hpath, hr⟩, hmark, rfl⟩

theorem retains_of_erase {path : String} (hobjects : after.objects = before.objects.erase path)
    (kind : Kind) : Retains view kind before after := by
  intro path' object hobject
  exact ⟨object, ((find?_of_erase hobjects ..).1 hobject).2, rfl⟩

end Cluster

/-! ## What calls spare and bring -/

/-- Whether a call takes no mark off a resource and gives no marked resource another name. -/
def Request.SparesMarks (cluster : Cluster) : Request → Prop
  | .replace kind object => ∀ current, cluster.find? kind object.path = some current →
    ∀ duty : Duty kind, duty.IsOperators → duty.mark ∈ current.metadata.finalizers →
      duty.mark ∈ object.metadata.finalizers ∧ object.metadata.name? = current.metadata.name? ∧
        object.metadata.namespaceName? = current.metadata.namespaceName?
  | .get _ _ | .list _ _ | .create _ _ | .delete _ _ => True

/-- Whether a call creates no object of a kind and gives none to other owners. -/
def Request.BringsNo (kind : Kind) (cluster : Cluster) : Request → Prop
  | .create other _ => other ≠ kind
  | .replace other object => other = kind →
    ∀ current, cluster.find? other object.path = some current →
      object.metadata.ownerReferences = current.metadata.ownerReferences
  | .get _ _ | .list _ _ | .delete _ _ => True

theorem Owner.ofResource_congr {kind : Kind} {r r' : Resource kind}
    (hname : r'.metadata.name? = r.metadata.name?)
    (hscope : r'.metadata.namespaceName? = r.metadata.namespaceName?)
    (huid : r'.metadata.uid? = r.metadata.uid?) : ofResource r' = ofResource r := by
  unfold ofResource
  rw [hname, hscope, huid]

namespace Cluster

variable {kind : Kind} {cluster : Cluster}

theorem IsCalm.keepsMarked (h : cluster.IsCalm) {request : Request}
    (hspares : request.SparesMarks cluster) :
    KeepsMarked cluster (Cluster.serve request cluster).2 := by
  cases h.effect request with
  | nothing hobjects => exact keepsMarked_of_objects hobjects
  | @created _ object _ hnone hobjects =>
    intro other duty hduty path r hr hmark
    have hne : object.path ≠ path := by
      rintro rfl
      exact absurd (hnone.symm.trans (find?_eq_some.1 hr)) (by simp)
    exact ⟨r, (find?_of_set hobjects ..).2 (Or.inr ⟨hne, hr⟩), hmark, rfl⟩
  | replaced hfind hobjects =>
    refine keepsMarked_of_set hfind hobjects fun duty hduty hmark => ?_
    obtain ⟨hkept, hname, hscope⟩ := hspares _ hfind duty hduty hmark
    exact ⟨hkept, Owner.ofResource_congr hname hscope rfl⟩
  | released hfind hempty hobjects =>
    refine keepsMarked_of_erase hfind hobjects fun duty hduty hmark => ?_
    have hkept := (hspares _ hfind duty hduty hmark).1
    simp [hempty] at hkept
  | marked hfind hobjects =>
    exact keepsMarked_of_set hfind hobjects fun duty hduty hmark =>
      ⟨hmark, Owner.ofResource_congr rfl rfl rfl⟩
  | removed hfind hempty hobjects =>
    refine keepsMarked_of_erase hfind hobjects fun duty hduty hmark => ?_
    simp [hempty] at hmark

/-- A call that creates no object of a kind retains what a replacement and a deletion mark keep. -/
theorem IsCalm.retains {α : Type} {view : Metadata → α} (h : cluster.IsCalm) {request : Request}
    (hcreate : ∀ object : Resource kind, request ≠ .create kind object)
    (hreplace : ∀ object : Resource kind, request = .replace kind object →
      ∀ current, cluster.find? kind object.path = some current →
        view (cluster.replaced current object).wholeSeconds.metadata = view current.metadata)
    (hmarked : ∀ current : Resource kind,
      view (cluster.marked current).wholeSeconds.metadata = view current.metadata) :
    Retains view kind cluster (Cluster.serve request cluster).2 := by
  cases h.effect request with
  | nothing hobjects => exact retains_of_objects hobjects kind
  | @created other object _ _ hobjects =>
    intro path found hfound
    rcases (find?_of_set hobjects ..).1 hfound with ⟨_, heq⟩ | ⟨_, hold⟩
    · obtain rfl : kind = other := (AnyResource.mk.inj heq).1
      exact absurd rfl (hcreate object)
    · exact ⟨found, hold, rfl⟩
  | replaced hfind hobjects =>
    refine retains_of_set hfind hobjects fun heq => ?_
    subst heq
    exact hreplace _ rfl _ hfind
  | released _ _ hobjects => exact retains_of_erase hobjects kind
  | marked hfind hobjects =>
    refine retains_of_set hfind hobjects fun heq => ?_
    subst heq
    exact hmarked _
  | removed _ _ hobjects => exact retains_of_erase hobjects kind

theorem IsCalm.bringsNo (h : cluster.IsCalm) {request : Request}
    (hbrings : request.BringsNo kind cluster) :
    BringsNo kind cluster (Cluster.serve request cluster).2 := by
  refine h.retains ?_ ?_ fun _ => rfl
  · rintro object rfl
    exact hbrings rfl
  · rintro object rfl current hfind
    exact hbrings rfl current hfind

/-! ## Tended objects -/

/-- Whether an owner is a stored resource that carries the mark of a duty. -/
def IsTending (cluster : Cluster) {kind : Kind} (duty : Duty kind) (owner : Owner) : Prop :=
  ∃ path r, cluster.find? kind path = some r ∧ duty.mark ∈ r.metadata.finalizers ∧
    Owner.ofResource r = .ok owner

/-- Whether an identity is that of a marked resource with an object in its teardown plan. -/
def HasTender (cluster : Cluster) (uid : String) (kind : Kind) (path : String) : Prop :=
  ∃ (other : Kind) (duty : Duty other), duty.IsOperators ∧ ∃ owner,
    cluster.IsTending duty owner ∧ owner.reference.uid = uid ∧
      ∃ step ∈ duty.teardownPlan owner, step.kind = kind ∧ step.key.path step.kind = path

/-- Whether all objects of a kind are tended that have a controller. -/
def IsTended (cluster : Cluster) (kind : Kind) : Prop :=
  ∀ path object, cluster.find? kind path = some object →
    ∀ reference ∈ object.metadata.ownerReferences, reference.controller? = some true →
      cluster.HasTender reference.uid kind path

variable {before after : Cluster}

theorem IsTending.of_keepsMarked {duty : Duty kind} {owner : Owner}
    (h : before.IsTending duty owner) (hduty : duty.IsOperators)
    (hkeeps : KeepsMarked before after) : after.IsTending duty owner := by
  obtain ⟨path, r, hfind, hmark, howner⟩ := h
  obtain ⟨r', hfind', hmark', howner'⟩ := hkeeps kind duty hduty path r hfind hmark
  exact ⟨path, r', hfind', hmark', howner'.trans howner⟩

theorem HasTender.of_keepsMarked {uid path : String} (h : before.HasTender uid kind path)
    (hkeeps : KeepsMarked before after) : after.HasTender uid kind path := by
  obtain ⟨other, duty, hduty, owner, htending, huid, hstep⟩ := h
  exact ⟨other, duty, hduty, owner, htending.of_keepsMarked hduty hkeeps, huid, hstep⟩

/-- A kind stays tended where all marks are kept and no object comes in. -/
theorem IsTended.of_frames (h : before.IsTended kind) (hkeeps : KeepsMarked before after)
    (hbrings : BringsNo kind before after) : after.IsTended kind := by
  intro path object hfind reference href hcontroller
  obtain ⟨old, hold, heq⟩ := hbrings path object hfind
  exact (h path old hold reference (heq ▸ href) hcontroller).of_keepsMarked hkeeps

/-- To create an object that is in the teardown plan of its controller. -/
theorem IsTended.create (h : cluster.IsTended kind) (hcalm : cluster.IsCalm)
    {object : Resource kind}
    (htender : ∀ reference ∈ object.metadata.ownerReferences, reference.controller? = some true →
      cluster.HasTender reference.uid kind object.path) :
    (Cluster.serve (.create kind object) cluster).2.IsTended kind := by
  have hkeeps := hcalm.keepsMarked
    (show Request.SparesMarks cluster (.create kind object) from trivial)
  cases effect_create cluster object with
  | nothing hobjects => exact h.of_frames hkeeps (retains_of_objects hobjects kind)
  | created _ hobjects =>
    intro path found hfound reference href hcontroller
    rcases (find?_of_set hobjects ..).1 hfound with ⟨rfl, heq⟩ | ⟨_, hold⟩
    · cases heq
      exact (htender reference href hcontroller).of_keepsMarked hkeeps
    · exact (h path found hold reference href hcontroller).of_keepsMarked hkeeps

/-! ## The release of a resource -/

/-- Whether an owner does not control the object of a step any more. -/
def IsSettled (cluster : Cluster) (owner : Owner) (step : TeardownStep) : Prop :=
  ∀ object, cluster.find? step.kind (step.key.path step.kind) = some object →
    owner.controls object.metadata = false

theorem isSettled_of_none {owner : Owner} {step : TeardownStep}
    (h : cluster.find? step.kind (step.key.path step.kind) = none) : cluster.IsSettled owner step :=
  fun object hfind => absurd (hfind.symm.trans h) (by simp)

theorem IsSettled.of_bringsNo {owner : Owner} {step : TeardownStep}
    (h : before.IsSettled owner step) (hbrings : BringsNo step.kind before after) :
    after.IsSettled owner step := by
  intro object hfind
  obtain ⟨old, hold, heq⟩ := hbrings _ object hfind
  have hcontrols := h old hold
  unfold Owner.controls at hcontrols ⊢
  rwa [heq]

theorem controls_of_mem {owner : Owner} {m : Metadata} {reference : OwnerReference}
    (href : reference ∈ m.ownerReferences) (hcontroller : reference.controller? = some true)
    (huid : owner.reference.uid = reference.uid) : owner.controls m = true := by
  refine List.any_eq_true.2 ⟨reference, href, ?_⟩
  simp [hcontroller, huid]

/-- A release of a resource whose plan is settled leaves everything tended. -/
theorem IsTended.release {other : Kind} {duty : Duty other} (hduty : duty.IsOperators)
    (h : cluster.IsTended kind) (hcalm : cluster.IsCalm) (hkind : other ≠ kind) {path : String}
    {object : Resource other} (hfind : cluster.find? other path = some object) {owner : Owner}
    (howner : Owner.ofResource object = .ok owner)
    (hsettled : ∀ step ∈ duty.teardownPlan owner, cluster.IsSettled owner step) :
    (Cluster.serve (.replace other (duty.unmarked object)) cluster).2.IsTended kind := by
  have hpath : (duty.unmarked object).path = path :=
    (hcalm.sound.kept (find?_eq_some.1 hfind)).path_eq
  have hbrings := hcalm.bringsNo
    (show Request.BringsNo kind cluster (.replace other (duty.unmarked object)) from
      fun heq => absurd heq hkind)
  intro place found hfound reference href hcontroller
  obtain ⟨old, hold, heq⟩ := hbrings place found hfound
  rw [heq] at href
  obtain ⟨owning, duty', hduty', owner', ⟨path', r, hr, hmark, howner'⟩, huid, step, hstep, hplace⟩ :=
    h place old hold reference href hcontroller
  by_cases hsame : path' = path
  · -- the released resource tends nothing any more, for its plan is settled
    subst hsame
    cases eq_of_find? hr hfind
    obtain rfl : owner' = owner := Except.ok.inj (howner'.symm.trans howner)
    rw [(hduty'.agrees hduty).2] at hstep
    obtain ⟨rfl, rfl⟩ := hplace
    have hfree := hsettled step hstep old hold
    exact absurd (controls_of_mem href hcontroller huid) (by simp [hfree])
  · -- any other tender is stored as before
    have htarget : (Request.replace other (duty.unmarked object)).target? ≠ some path' :=
      fun heq => hsame ((Option.some.inj heq).symm.trans hpath)
    refine ⟨owning, duty', hduty', owner', ⟨path', r, ?_, hmark, howner'⟩, huid, step, hstep, hplace⟩
    exact (find?_congr (get?_serve_of_ne htarget)).trans hr

end Cluster

end EdgeOperator
