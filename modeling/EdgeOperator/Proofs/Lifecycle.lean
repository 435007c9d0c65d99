import EdgeOperator.Proofs.Operation
import EdgeOperator.Proofs.Ownership.Adoption
import EdgeOperator.Proofs.Recovery

set_option autoImplicit false

/-! # Stages only go forward

A custom resource is created, marked, deleted and released, in this order, and never goes back.
Nobody but a pass writes the mark, and a pass writes it onto the resource as it was read: the
version that the replacement names says that nothing has changed since (`Cluster.Remembers`). So
between the look and the write the resource may be deleted or changed, and the write fails then.

What a single call may make of a stored resource is its `LifeStep`. The calls that leave finalizers
alone and those that a pass makes come to such a step (`Cluster.serve_lifeStep`), and so does all
that happens while passes and other parties share a cluster (`World.stages_go_forward`). -/

namespace EdgeOperator

open Program

/-! ## Steps -/

/-- The steps from a stage to the next one, or out of the cluster. -/
inductive LifeStage.Step : LifeStage → Option LifeStage → Prop where
  | register : Step .unmarked (some .marked)
  /-- A resource without the mark is deleted, and finalizers of others keep it. -/
  | dismiss : Step .unmarked (some .released)
  | drop : Step .unmarked none
  | condemn : Step .marked (some .tearingDown)
  | release : Step .tearingDown (some .released)
  | finish : Step .tearingDown none
  | leave : Step .released none

namespace Metadata

/-- The finalizers that others have put on a resource. -/
def otherFinalizers (m : Metadata) (mark : String) : List String :=
  m.finalizers.filter fun f => f ≠ mark

/-- Whether a resource is where it was or one step on, with the finalizers of others as they were.
The mark comes on only while the resource is not deleted and goes only when it is. -/
structure GoesOn (mark : String) (m later : Metadata) : Prop where
  stage : later.lifeStage mark = m.lifeStage mark ∨
    (m.lifeStage mark).Step (some (later.lifeStage mark))
  others : later.otherFinalizers mark = m.otherFinalizers mark
  marked : mark ∉ m.finalizers → mark ∈ later.finalizers → m.isDeleted = false
  unmarked : mark ∈ m.finalizers → mark ∉ later.finalizers → m.isDeleted = true
  once : m.finalizers.count mark ≤ 1 → later.finalizers.count mark ≤ 1

/-- Whether identity, deletion and finalizers are the same. -/
structure StandsAs (m later : Metadata) : Prop where
  uid_eq : later.uid? = m.uid?
  isDeleted_eq : later.isDeleted = m.isDeleted
  finalizers_eq : later.finalizers = m.finalizers

variable {m later next : Metadata} {mark : String}

theorem StandsAs.refl (m : Metadata) : m.StandsAs m :=
  ⟨rfl, rfl, rfl⟩

theorem StandsAs.trans (h : m.StandsAs later) (h' : later.StandsAs next) : m.StandsAs next :=
  ⟨h'.uid_eq.trans h.uid_eq, h'.isDeleted_eq.trans h.isDeleted_eq,
    h'.finalizers_eq.trans h.finalizers_eq⟩

theorem isDeleted_wholeSeconds (m : Metadata) : m.wholeSeconds.isDeleted = m.isDeleted :=
  Option.isSome_map ..

end Metadata

/-- What a call may make of a stored resource; `none` if the resource is gone then. -/
inductive LifeStep (mark : String) (m : Metadata) : Option Metadata → Prop where
  | kept {later : Metadata} (hsame : m.StandsAs later) : LifeStep mark m (some later)
  | registered {later : Metadata} (huid : later.uid? = m.uid?)
      (hstage : m.lifeStage mark = .unmarked) (hlive : later.isDeleted = false)
      (hfinalizers : later.finalizers = m.finalizers ++ [mark]) : LifeStep mark m (some later)
  | condemned {later : Metadata} (huid : later.uid? = m.uid?) (hlive : m.isDeleted = false)
      (hdeleted : later.isDeleted = true) (hfinalizers : later.finalizers = m.finalizers) :
      LifeStep mark m (some later)
  | released {later : Metadata} (huid : later.uid? = m.uid?)
      (hstage : m.lifeStage mark = .tearingDown) (hdeleted : later.isDeleted = true)
      (hfinalizers : later.finalizers = m.otherFinalizers mark) : LifeStep mark m (some later)
  | gone (hstage : m.lifeStage mark ≠ .marked) : LifeStep mark m none

namespace LifeStep

variable {mark : String} {m later : Metadata}

theorem uid_eq (h : LifeStep mark m (some later)) : later.uid? = m.uid? := by
  cases h with
  | kept hsame => exact hsame.uid_eq
  | registered huid _ _ _ => exact huid
  | condemned huid _ _ _ => exact huid
  | released huid _ _ _ => exact huid

/-- A resource that is gone was not marked. -/
theorem step_none (h : LifeStep mark m none) : (m.lifeStage mark).Step none := by
  cases h with
  | gone hstage =>
    cases hm : m.lifeStage mark with
    | unmarked => exact .drop
    | marked => exact absurd hm hstage
    | tearingDown => exact .finish
    | released => exact .leave

theorem goesOn (h : LifeStep mark m (some later)) : m.GoesOn mark later := by
  cases h with
  | kept hsame =>
    have hstage : later.lifeStage mark = m.lifeStage mark := by
      unfold Metadata.lifeStage
      rw [hsame.isDeleted_eq, hsame.finalizers_eq]
    exact {
      stage := Or.inl hstage
      others := by rw [Metadata.otherFinalizers, hsame.finalizers_eq, Metadata.otherFinalizers]
      marked := fun hnot hmark => absurd (hsame.finalizers_eq ▸ hmark) hnot
      unmarked := fun hmark hnot => absurd (hsame.finalizers_eq ▸ hmark) hnot
      once := fun hcount => hsame.finalizers_eq ▸ hcount }
  | registered _ hstage hlive hfinalizers =>
    obtain ⟨hlive', hnot⟩ := Metadata.lifeStage_eq_unmarked.1 hstage
    have hmark : mark ∈ later.finalizers := by simp [hfinalizers]
    have hlater := Metadata.lifeStage_eq_marked.2 ⟨hlive, hmark⟩
    exact {
      stage := Or.inr (by rw [hstage, hlater]; exact .register)
      others := by simp [Metadata.otherFinalizers, hfinalizers]
      marked := fun _ _ => hlive'
      unmarked := fun hmark' => absurd hmark' hnot
      once := fun _ => by simp [hfinalizers, List.count_eq_zero_of_not_mem hnot] }
  | condemned _ hlive hdeleted hfinalizers =>
    have hstage : (m.lifeStage mark).Step (some (later.lifeStage mark)) := by
      by_cases hmark : mark ∈ m.finalizers
      · rw [Metadata.lifeStage_eq_marked.2 ⟨hlive, hmark⟩,
          Metadata.lifeStage_eq_tearingDown.2 ⟨hdeleted, hfinalizers ▸ hmark⟩]
        exact .condemn
      · rw [Metadata.lifeStage_eq_unmarked.2 ⟨hlive, hmark⟩,
          Metadata.lifeStage_eq_released.2 ⟨hdeleted, hfinalizers ▸ hmark⟩]
        exact .dismiss
    exact {
      stage := Or.inr hstage
      others := by rw [Metadata.otherFinalizers, hfinalizers, Metadata.otherFinalizers]
      marked := fun _ _ => hlive
      unmarked := fun hmark hnot => absurd (hfinalizers ▸ hmark) hnot
      once := fun hcount => hfinalizers ▸ hcount }
  | released _ hstage hdeleted hfinalizers =>
    have hnot : mark ∉ later.finalizers := by simp [hfinalizers, Metadata.otherFinalizers]
    have hlater := Metadata.lifeStage_eq_released.2 ⟨hdeleted, hnot⟩
    exact {
      stage := Or.inr (by rw [hstage, hlater]; exact .release)
      others := by simp [Metadata.otherFinalizers, hfinalizers]
      marked := fun _ hmark => absurd hmark hnot
      unmarked := fun _ _ => (Metadata.lifeStage_eq_tearingDown.1 hstage).1
      once := fun _ => by simp [List.count_eq_zero_of_not_mem hnot] }

end LifeStep

/-! ## Calls -/

/-- Whether an edit leaves all keys alone, and of custom resources finalizers and deletion too. -/
structure Edit.LeavesFinalizers (edit : Edit) : Prop where
  keepsKey : edit.KeepsKey
  standsAs : ∀ (kind : Kind) (object : Resource kind), kind.isDependent = false →
    object.metadata.StandsAs (edit kind object).metadata

/-- The calls that write no finalizers, or the mark of a duty as a pass does: onto a resource as it
was read. -/
inductive Request.Respects {kind : Kind} (duty : Duty kind) (cluster : Cluster) : Request → Prop where
  | other {request : Request} (hother : ∀ object : Resource kind, request ≠ .replace kind object) :
      Respects duty cluster request
  | edit {object : Resource kind}
      (hfinalizers : ∀ current, cluster.find? kind object.path = some current →
        object.metadata.finalizers = current.metadata.finalizers) :
      Respects duty cluster (.replace kind object)
  | mark {path : String} {read : Resource kind} (hread : cluster.Remembers path ⟨kind, read⟩)
      (hstage : read.metadata.lifeStage duty.mark = .unmarked) :
      Respects duty cluster (.replace kind (duty.marked read))
  | unmark {path : String} {read : Resource kind} (hread : cluster.Remembers path ⟨kind, read⟩)
      (hstage : read.metadata.lifeStage duty.mark = .tearingDown) :
      Respects duty cluster (.replace kind (duty.unmarked read))

namespace Cluster

variable {kind : Kind} {cluster after : Cluster} {path mark : String} {r : Resource kind}

/-- What a cluster knows of the resource of a kind under a path. -/
def metadata? (cluster : Cluster) (kind : Kind) (path : String) : Option Metadata :=
  (cluster.find? kind path).map (·.metadata)

theorem objects_put (cluster : Cluster) (path : String) (object : Resource kind) :
    (cluster.put path object).objects = cluster.objects.set path ⟨kind, object.wholeSeconds⟩ := rfl

theorem objects_remove (cluster : Cluster) (path : String) :
    (cluster.remove path).objects = cluster.objects.erase path := rfl

theorem metadata?_of_find? (h : cluster.find? kind path = some r) :
    cluster.metadata? kind path = some r.metadata :=
  congrArg (Option.map fun r : Resource kind => r.metadata) h

theorem metadata?_of_get? (h : after.objects.get? path = cluster.objects.get? path) :
    after.metadata? kind path = cluster.metadata? kind path :=
  congrArg (Option.map fun r : Resource kind => r.metadata) (find?_congr h)

theorem metadata?_of_set {next : Resource kind}
    (h : after.objects = cluster.objects.set path ⟨kind, next⟩) :
    after.metadata? kind path = some next.metadata :=
  metadata?_of_find? ((find?_of_set h ..).2 (Or.inl ⟨rfl, rfl⟩))

theorem metadata?_of_erase (h : after.objects = cluster.objects.erase path) :
    after.metadata? kind path = none := by
  have hnone : after.objects.get? path = none := by
    rw [h, StringMap.get?_erase, if_pos rfl]
  rw [metadata?, find?_of_absent hnone, Option.map_none]

theorem lifeStep_of_get? (hfind : cluster.find? kind path = some r)
    (h : after.objects.get? path = cluster.objects.get? path) :
    LifeStep mark r.metadata (after.metadata? kind path) := by
  rw [metadata?_of_get? h, metadata?_of_find? hfind]
  exact .kept (.refl _)

/-- Another writer who leaves finalizers alone may edit a resource before its replacement. -/
theorem lifeStep_of_edited (hwaiting : cluster.AllWaiting fun _ edit => edit.LeavesFinalizers)
    (hkind : kind.isDependent = false) (hfind : cluster.find? kind path = some r)
    {edit : Edit} {rest : List Edit} (hedits : cluster.edits.get? path = some (edit :: rest))
    {other : Kind} {stored : Resource other} (hstored : cluster.find? other path = some stored)
    {version : String}
    (hobjects : after.objects = cluster.objects.set path ⟨other, stored.edited edit version⟩) :
    ∃ current, after.find? kind path = some current ∧ r.metadata.StandsAs current.metadata := by
  cases eq_of_find? hfind hstored
  have hedit := hwaiting path _ hedits edit (List.mem_cons_self ..)
  refine ⟨_, (find?_of_set hobjects ..).2 (Or.inl ⟨rfl, rfl⟩), ?_⟩
  have hwritten : (edit kind r).metadata.StandsAs (r.edited edit version).metadata :=
    ⟨rfl, Option.isSome_map .., rfl⟩
  exact (hedit.standsAs kind r hkind).trans hwritten

theorem letIn_standsAs (hwaiting : cluster.AllWaiting fun _ edit => edit.LeavesFinalizers)
    (hkind : kind.isDependent = false) (hfind : cluster.find? kind path = some r) :
    ∃ current, (cluster.letIn path).find? kind path = some current ∧
      r.metadata.StandsAs current.metadata := by
  rcases letIn_cases cluster path with
    hself | ⟨edit, rest, hedits, _, ⟨_, hobjects⟩ | ⟨other, stored, hstored, hobjects⟩⟩
  · rw [hself]
    exact ⟨r, hfind, .refl _⟩
  · exact ⟨r, (find?_congr (congrArg (StringMap.get? · path) hobjects)).trans hfind, .refl _⟩
  · exact lifeStep_of_edited hwaiting hkind hfind hedits hstored hobjects

/-- An object that takes the place of a resource keeps its identity and its deletion. -/
theorem lifeStep_of_settled {m : Metadata} {noted : Cluster} {current object : Resource kind}
    (hgone : current.metadata.isDeleted = true → object.metadata.finalizers = [] →
      LifeStep mark m none)
    (hstored : ∀ later : Metadata, later.uid? = current.metadata.uid? →
      later.isDeleted = current.metadata.isDeleted →
        later.finalizers = object.metadata.finalizers → LifeStep mark m (some later)) :
    LifeStep mark m
      ((noted.settled object.path (noted.replaced current object)).metadata? kind object.path) := by
  unfold settled
  split
  · next hempty =>
    obtain ⟨hdeleted, hfinalizers⟩ := Bool.and_eq_true_iff.1 hempty
    have hmetadata : (noted.remove object.path).metadata? kind object.path = none :=
      metadata?_of_erase (objects_remove ..)
    exact Eq.substr hmetadata (hgone hdeleted (List.isEmpty_iff.1 hfinalizers))
  · rw [metadata?_of_set (objects_put ..)]
    exact hstored _ rfl (Metadata.isDeleted_wholeSeconds _) rfl

/-- A replacement that leaves finalizers alone keeps the resource, or removes it once it is
deleted. -/
theorem lifeStep_of_replaced (hwaiting : cluster.AllWaiting fun _ edit => edit.LeavesFinalizers)
    (hkind : kind.isDependent = false) {other : Kind} {object answer : Resource other}
    (hfind : cluster.find? kind object.path = some r)
    (hfinalizers : other = kind → object.metadata.finalizers = r.metadata.finalizers)
    (hok : (serve (.replace other object) cluster).1 = .ok answer) :
    LifeStep mark r.metadata
      ((serve (.replace other object) cluster).2.metadata? kind object.path) := by
  let noted := (cluster.note (Request.replace other object).call).2
  have hnoted : noted.find? kind object.path = some r := hfind
  have hwaits : noted.AllWaiting fun _ edit => edit.LeavesFinalizers := hwaiting
  obtain ⟨read, hread, hsame⟩ := letIn_standsAs hwaits hkind hnoted
  rcases serve_replace cluster object with ⟨e, heq⟩ | heq
  · rw [heq] at hok
    cases hok
  rcases replace_cases (noted.letIn object.path) object with
    ⟨e, hreplace⟩ | ⟨current, hcurrent, _, hreplace⟩
  · rw [heq, hreplace] at hok
    cases hok
  · cases eq_of_find? hread hcurrent
    rw [heq, hreplace]
    refine lifeStep_of_settled (fun hdeleted _ => .gone fun hstage => ?_)
      fun later huid hdeleted hlater => .kept ?_
    · have hlive := hsame.isDeleted_eq.trans (Metadata.lifeStage_eq_marked.1 hstage).1
      exact absurd (hdeleted.symm.trans hlive) (by simp)
    · exact ⟨huid.trans hsame.uid_eq, hdeleted.trans hsame.isDeleted_eq,
        hlater.trans (hfinalizers rfl)⟩

/-- A replacement that names the version of a resource that was read meets just that resource. -/
theorem lifeStep_of_remembered (hsound : cluster.Sound) (hpolite : cluster.HasPoliteEdits)
    {place : String} {read object answer : Resource kind}
    (hread : cluster.Remembers place ⟨kind, read⟩)
    (hversion : object.metadata.resourceVersion? = read.metadata.resourceVersion?)
    (hfind : cluster.find? kind object.path = some r)
    (hok : (serve (.replace kind object) cluster).1 = .ok answer)
    (hgone : read.metadata.isDeleted = true → object.metadata.finalizers = [] →
      LifeStep mark read.metadata none)
    (hstored : ∀ later : Metadata, later.uid? = read.metadata.uid? →
      later.isDeleted = read.metadata.isDeleted →
        later.finalizers = object.metadata.finalizers → LifeStep mark read.metadata (some later)) :
    LifeStep mark r.metadata
      ((serve (.replace kind object) cluster).2.metadata? kind object.path) := by
  obtain ⟨_, hstill, noted, _, _, heq⟩ :=
    serve_replace_of_remembers hsound hpolite hread hversion hok
  obtain rfl := Option.some.inj (hstill.symm.trans hfind)
  rw [heq]
  exact lifeStep_of_settled hgone hstored

/-- A call that writes no finalizers, or the mark as a pass does, comes to a step in the life of
every resource. -/
theorem serve_lifeStep (hsound : cluster.Sound) {duty : Duty kind} (hkind : kind.isDependent = false)
    (hwaiting : cluster.AllWaiting fun _ edit => edit.LeavesFinalizers) {request : Request}
    (hrespects : request.Respects duty cluster) (hfind : cluster.find? kind path = some r) :
    LifeStep duty.mark r.metadata ((serve request cluster).2.metadata? kind path) := by
  have hpolite : cluster.HasPoliteEdits :=
    fun path edits hget edit hmem => (hwaiting path edits hget edit hmem).keepsKey
  by_cases htarget : request.target? = some path
  swap
  · exact lifeStep_of_get? hfind (get?_serve_of_ne htarget)
  cases request with
  | get other key => cases htarget
  | list other namespaceName? => cases htarget
  | create other object =>
    -- nothing is created where the resource is
    obtain rfl : object.path = path := Option.some.inj htarget
    rcases serve_create cluster object with ⟨e, heq⟩ | ⟨hnone, _⟩
    · rw [heq]
      exact lifeStep_of_get? hfind rfl
    · exact absurd (hnone.symm.trans (find?_eq_some.1 hfind)) (by simp)
  | delete other key =>
    obtain rfl : key.path other = path := Option.some.inj htarget
    rcases serve_delete cluster other key with ⟨e, _, heq⟩ | heq <;> rw [heq]
    · exact lifeStep_of_get? hfind rfl
    rcases delete_cases (cluster.note (Request.delete other key).call).2 other key with
      ⟨_, heq⟩ | ⟨current, hcurrent, ⟨hempty, heq⟩ | ⟨_, heq⟩ | ⟨hlive, heq⟩⟩ <;> rw [heq]
    · exact lifeStep_of_get? hfind rfl
    · cases eq_of_find? hfind hcurrent
      rw [metadata?_of_erase (objects_remove ..)]
      refine .gone fun hstage => ?_
      have hmark := (Metadata.lifeStage_eq_marked.1 hstage).2
      rw [List.isEmpty_iff.1 hempty] at hmark
      cases hmark
    · exact lifeStep_of_get? hfind rfl
    · cases eq_of_find? hfind hcurrent
      rw [metadata?_of_set (objects_put ..)]
      exact .condemned rfl hlive rfl rfl
  | replace other object =>
    obtain rfl : object.path = path := Option.some.inj htarget
    cases hanswer : (serve (.replace other object) cluster).1 with
    | error e =>
      rcases serve_replace_error hanswer with
        hobjects | ⟨edit, rest, hedits, another, stored, hstored, hobjects⟩
      · exact lifeStep_of_get? hfind (congrArg (StringMap.get? · object.path) hobjects)
      · obtain ⟨current, hcurrent, hsame⟩ :=
          lifeStep_of_edited hwaiting hkind hfind hedits hstored hobjects
        rw [metadata?_of_find? hcurrent]
        exact .kept hsame
    | ok answer =>
      cases hrespects with
      | other hother =>
        refine lifeStep_of_replaced hwaiting hkind hfind (fun heq => ?_) hanswer
        subst heq
        exact absurd rfl (hother object)
      | edit hfinalizers =>
        exact lifeStep_of_replaced hwaiting hkind hfind (fun _ => hfinalizers r hfind) hanswer
      | mark hread hstage =>
        have hlive := (Metadata.lifeStage_eq_unmarked.1 hstage).1
        refine lifeStep_of_remembered hsound hpolite hread rfl hfind hanswer ?_ ?_
        · exact fun hdeleted _ => absurd (hdeleted.symm.trans hlive) (by simp)
        · exact fun later huid hsame hlater => .registered huid hstage (hsame.trans hlive) hlater
      | unmark hread hstage =>
        have hdeleted := (Metadata.lifeStage_eq_tearingDown.1 hstage).1
        refine lifeStep_of_remembered hsound hpolite hread rfl hfind hanswer ?_ ?_
        · exact fun _ _ => .gone (by simp [hstage])
        · exact fun later huid hsame hlater => .released huid hstage (hsame.trans hdeleted) hlater

/-! ## Creations -/

theorem find?_none_of_set {other : Kind} {current next : Resource other}
    (hnone : cluster.find? kind path = none) (hfind : cluster.find? other path = some current)
    (hobjects : after.objects = cluster.objects.set path ⟨other, next⟩) :
    after.find? kind path = none := by
  refine Option.eq_none_iff_forall_ne_some.2 fun r hr => ?_
  rcases (find?_of_set hobjects ..).1 hr with ⟨_, heq⟩ | ⟨hne, _⟩
  · obtain rfl : kind = other := (AnyResource.mk.inj heq).1
    exact absurd (hnone.symm.trans hfind) (by simp)
  · exact hne rfl

theorem find?_none_of_letIn (hnone : cluster.find? kind path = none) :
    (cluster.letIn path).find? kind path = none := by
  rcases letIn_cases cluster path with
    hself | ⟨_, _, _, _, ⟨_, hobjects⟩ | ⟨other, stored, hstored, hobjects⟩⟩
  · rwa [hself]
  · exact (find?_congr (congrArg (StringMap.get? · path) hobjects)).trans hnone
  · exact find?_none_of_set hnone hstored hobjects

/-- Only a creation brings a resource in. -/
theorem find?_none_of_serve (hnone : cluster.find? kind path = none) {request : Request}
    (hcreate : ∀ object : Resource kind, request = .create kind object → object.path ≠ path) :
    (serve request cluster).2.find? kind path = none := by
  by_cases htarget : request.target? = some path
  swap
  · exact (find?_congr (get?_serve_of_ne htarget)).trans hnone
  cases request with
  | get other key => cases htarget
  | list other namespaceName? => cases htarget
  | create other object =>
    obtain rfl : object.path = path := Option.some.inj htarget
    rcases serve_create cluster object with ⟨e, heq⟩ | ⟨_, heq⟩ <;> rw [heq]
    · exact hnone
    · refine Option.eq_none_iff_forall_ne_some.2 fun r hr => ?_
      rcases (find?_of_set (objects_put ..) ..).1 hr with ⟨_, hsame⟩ | ⟨hne, _⟩
      · obtain rfl : kind = other := (AnyResource.mk.inj hsame).1
        exact hcreate object rfl rfl
      · exact hne rfl
  | delete other key =>
    obtain rfl : key.path other = path := Option.some.inj htarget
    rcases serve_delete cluster other key with ⟨e, _, heq⟩ | heq <;> rw [heq]
    · exact hnone
    rcases delete_cases (cluster.note (Request.delete other key).call).2 other key with
      ⟨_, heq⟩ | ⟨current, hcurrent, ⟨_, heq⟩ | ⟨_, heq⟩ | ⟨_, heq⟩⟩ <;> rw [heq]
    · exact hnone
    · exact find?_of_absent ((StringMap.get?_erase ..).trans (if_pos rfl))
    · exact hnone
    · exact find?_none_of_set hnone hcurrent (objects_put ..)
  | replace other object =>
    obtain rfl : object.path = path := Option.some.inj htarget
    have hnoted : (cluster.note (Request.replace other object).call).2.find? kind object.path =
      none := hnone
    have hlet := find?_none_of_letIn hnoted
    rcases serve_replace cluster object with ⟨e, heq⟩ | heq <;> rw [heq]
    · exact hnone
    rcases replace_cases ((cluster.note (Request.replace other object).call).2.letIn object.path)
      object with ⟨e, heq⟩ | ⟨current, hcurrent, _, heq⟩ <;> rw [heq]
    · exact hlet
    · unfold settled
      split
      · exact find?_of_absent ((StringMap.get?_erase ..).trans (if_pos rfl))
      · exact find?_none_of_set hlet hcurrent rfl

/-- What is stored after a creation, and was not before, is what was created. -/
theorem uid?_of_serve_create {object : Resource kind}
    (hnone : cluster.find? kind object.path = none)
    (hfind : (serve (.create kind object) cluster).2.find? kind object.path = some r) :
    r.metadata.uid? = (cluster.created object).metadata.uid? := by
  rcases serve_create cluster object with ⟨e, heq⟩ | ⟨_, heq⟩ <;> rw [heq] at hfind
  · exact absurd (hnone.symm.trans hfind) (by simp)
  · rcases (find?_of_set (objects_put ..) ..).1 hfind with ⟨_, hsame⟩ | ⟨hne, _⟩
    · cases hsame
      rfl
    · exact absurd rfl hne

end Cluster

/-! ## Passes -/

/-- The calls that write no custom resource. -/
def Request.SparesCustom (request : Request) : Prop :=
  ∀ kind : Kind, kind.isDependent = false → request.writtenKind? ≠ some kind

/-- The calls of a pass that has found a resource or none: the mark is written onto what was found,
at the stage for it, and no other custom resource is written. -/
inductive Request.Minds {kind : Kind} (duty : Duty kind) (found? : Option (Resource kind)) :
    Request → Prop where
  | rest {request : Request} (hspares : request.SparesCustom) : Minds duty found? request
  | mark {object : Resource kind} (hfound : found? = some object)
      (hstage : object.metadata.lifeStage duty.mark = .unmarked) :
      Minds duty found? (.replace kind (duty.marked object))
  | unmark {object : Resource kind} (hfound : found? = some object)
      (hstage : object.metadata.lifeStage duty.mark = .tearingDown) :
      Minds duty found? (.replace kind (duty.unmarked object))

theorem Kind.ne_plain_of_isDependent {kind : Kind} (h : kind.isDependent = false)
    (plain : PlainKind) : kind ≠ .plain plain := by
  rintro rfl
  cases h

theorem Kind.ne_ingress_of_isDependent {kind : Kind} (h : kind.isDependent = false) :
    kind ≠ .ingress := by
  rintro rfl
  cases h

theorem Request.Plants.sparesCustom {owner : Owner} {plan : List TeardownStep} {request : Request}
    (h : request.Plants owner plan) : request.SparesCustom :=
  fun _ hkind => h.writtenKind?_ne (Kind.ne_plain_of_isDependent hkind)

theorem Request.Routes.sparesCustom {request : Request} (h : request.Routes) :
    request.SparesCustom :=
  fun _ hkind => h.writtenKind?_ne (Kind.ne_ingress_of_isDependent hkind)

namespace Duty

variable {kind : Kind} {duty : Duty kind}

/-- A plan names no custom resource. -/
theorem IsOperators.delete_sparesCustom (h : duty.IsOperators) (owner : Owner) :
    ∀ step ∈ duty.teardownPlan owner, (Request.delete step.kind step.key).SparesCustom := by
  have hkinds : ∀ step ∈ duty.teardownPlan owner, step.kind.isDependent = true := by
    cases h with
    | anchor =>
      refine List.forall_mem_cons.2 ⟨rfl, fun step hmem => ?_⟩
      obtain ⟨component, _, rfl⟩ := List.mem_map.1 hmem
      rfl
    | frontend attempts =>
      exact List.forall_mem_cons.2 ⟨rfl, List.forall_mem_singleton.2 rfl⟩
  intro step hmem other hother heq
  obtain rfl : step.kind = other := Option.some.inj heq
  exact absurd ((hkinds step hmem).symm.trans hother) (by simp)

theorem IsOperators.install_sparesCustom (h : duty.IsOperators) (owner : Owner)
    (read : Resource kind) : (duty.install owner read).OnlyAsks Request.SparesCustom := by
  cases h with
  | anchor =>
    exact (ensureComponents_plants owner Component.creationOrder).mono fun _ hplants =>
      hplants.sparesCustom
  | frontend attempts =>
    exact (frontend_install_onlyAsks attempts owner read).mono fun _ hrequest =>
      hrequest.elim (·.sparesCustom) (·.sparesCustom)

theorem IsOperators.serveFound_minds (h : duty.IsOperators) (found? : Option (Resource kind)) :
    (duty.serveFound found?).OnlyAsks (Request.Minds duty found?) := by
  have hsettle : ∀ stored read, (duty.settle stored read).OnlyAsks (Request.Minds duty found?) :=
    fun stored read => settle_onlyAsks
      (fun owner read => (h.install_sparesCustom owner read).mono fun _ => .rest) stored read
  cases found? with
  | none => exact .done _
  | some object =>
    dsimp only [serveFound]
    cases hstage : object.metadata.lifeStage duty.mark with
    | released => exact .done _
    | tearingDown =>
      exact dismantle_onlyAsks (fun _ _ => .rest fun _ _ => by simp [Request.writtenKind?])
        (fun owner step hmem => .rest (h.delete_sparesCustom owner step hmem))
        (.unmark rfl hstage)
    | unmarked =>
      exact (OnlyAsks.perform (.mark rfl hstage)).bind fun stored => hsettle stored object
    | marked => exact hsettle object object

/-- What a pass asks for, while the cluster remembers what the pass has found, is a step in the life
of every resource. -/
theorem IsOperators.respects (h : duty.IsOperators) {other : Kind} {duty' : Duty other}
    (h' : duty'.IsOperators) {cluster : Cluster} {path : String}
    {found? : Option (Resource kind)}
    (hread : ∀ object, found? = some object → cluster.Remembers path ⟨kind, object⟩)
    {request : Request} (hminds : request.Minds duty found?) :
    request.Respects duty' cluster := by
  by_cases hkind : kind = other
  · subst hkind
    obtain ⟨hmark, _⟩ := h.agrees h'
    cases hminds with
    | rest hspares =>
      exact .other fun object heq => hspares kind h.isDependent_eq (heq ▸ rfl)
    | mark hfound hstage =>
      have hsame : ∀ object, duty.marked object = duty'.marked object := by simp [marked, hmark]
      rw [hsame]
      exact .mark (hread _ hfound) (hmark ▸ hstage)
    | unmark hfound hstage =>
      have hsame : ∀ object, duty.unmarked object = duty'.unmarked object := by
        simp [unmarked, hmark]
      rw [hsame]
      exact .unmark (hread _ hfound) (hmark ▸ hstage)
  · refine .other fun object heq => ?_
    cases hminds with
    | rest hspares => exact hspares other h'.isDependent_eq (heq ▸ rfl)
    | mark _ _ => exact hkind (Request.replace.inj heq).1
    | unmark _ _ => exact hkind (Request.replace.inj heq).1

end Duty

/-! ## Passes under way -/

namespace Cluster

variable {cluster after : Cluster} {program : Program PassOutcome} {kind : Kind} {path : String}

/-- Whether a program is a pass that has made no call yet, or the rest of a pass whose resource the
cluster remembers. -/
inductive IsPassing (cluster : Cluster) (program : Program PassOutcome) : Prop where
  | ahead {kind : Kind} {duty : Duty kind} (hduty : duty.IsOperators) (key : ObjectKey)
      (hprogram : program = duty.pass key) : IsPassing cluster program
  | underway {kind : Kind} {duty : Duty kind} (hduty : duty.IsOperators) {path : String}
      {found? : Option (Resource kind)}
      (hread : ∀ object, found? = some object → cluster.Remembers path ⟨kind, object⟩)
      (hasks : program.OnlyAsks (Request.Minds duty found?)) : IsPassing cluster program

theorem IsPassing.mono (h : cluster.IsPassing program)
    (hremembers : ∀ path object, cluster.Remembers path object → after.Remembers path object) :
    after.IsPassing program := by
  cases h with
  | ahead hduty key hprogram => exact .ahead hduty key hprogram
  | underway hduty hread hasks =>
    exact .underway hduty (fun object hfound => hremembers _ _ (hread object hfound)) hasks

variable {request : Request} {next : Except OperatorError request.Answer → Program PassOutcome}

theorem IsPassing.respects (h : cluster.IsPassing (.call request next)) {duty : Duty kind}
    (hduty : duty.IsOperators) : request.Respects duty cluster := by
  cases h with
  | ahead _ key hprogram =>
    cases hprogram
    exact .other fun _ => by simp
  | underway hown hread hasks =>
    cases hasks with
    | call hminds _ => exact hown.respects hduty hread hminds

/-- A pass creates no custom resource. -/
theorem IsPassing.ne_create (h : cluster.IsPassing (.call request next))
    (hkind : kind.isDependent = false) (object : Resource kind) :
    request ≠ .create kind object := by
  rintro rfl
  cases h with
  | ahead _ key hprogram => cases hprogram
  | underway _ _ hasks =>
    cases hasks with
    | call hminds _ =>
      cases hminds with
      | rest hspares => exact hspares kind hkind rfl

/-- What a pass has found, the cluster remembers from then on. -/
theorem IsPassing.called (h : cluster.IsPassing (.call request next)) (hsound : cluster.Sound)
    (hpolite : cluster.HasPoliteEdits) :
    (serve request cluster).2.IsPassing (next (serve request cluster).1) := by
  cases h with
  | @ahead kind duty hduty key hprogram =>
    cases hprogram
    change IsPassing _ (Program.bind (.done (serve (.get kind key) cluster).1) duty.serveFound)
    cases hanswer : (serve (.get kind key) cluster).1 with
    | error e =>
      have hread : ∀ object, none = some object → (serve (.get kind key) cluster).2.Remembers
          (key.path kind) ⟨kind, object⟩ := by simp
      exact .underway hduty hread (.done _)
    | ok found? =>
      have hread : ∀ object, found? = some object → (serve (.get kind key) cluster).2.Remembers
          (key.path kind) ⟨kind, object⟩ := ?_
      · exact .underway hduty hread (hduty.serveFound_minds found?)
      rintro object rfl
      refine (hsound.serve hpolite _).remembers ?_
      rw [serve_get_objects]
      exact find?_eq_some.1 (find?_of_serve_get hanswer)
  | underway hduty hread hasks =>
    cases hasks with
    | call _ hnext =>
      exact .underway hduty
        (fun object hfound => (hread object hfound).serve hsound hpolite request) (hnext _)

end Cluster

/-! ## Courses of events -/

/-- What happens while processes share a cluster: somebody has a turn, the next calls of one form
are made to fail, or another writer is to come in right before a replacement. -/
inductive Happening (ι : Type) where
  | turn (turn : Turn ι)
  | fail (form : Call) (code : Nat) (reason : String) (times : Nat)
  | beforeReplace (path : String) (edit : Edit)

namespace World

section Courses

variable {ι α : Type} [DecidableEq ι]

/-- The world after something has happened. -/
def meet (world : World ι α) : Happening ι → World ι α
  | .turn turn => world.turn turn
  | .fail form code reason times =>
    { world with cluster := world.cluster.fail form code reason times }
  | .beforeReplace path edit => { world with cluster := world.cluster.beforeReplace path edit }

/-- The world after a course of events. -/
def course (world : World ι α) (happenings : List (Happening ι)) : World ι α :=
  happenings.foldl meet world

theorem course_append (world : World ι α) (earlier later : List (Happening ι)) :
    world.course (earlier ++ later) = (world.course earlier).course later :=
  List.foldl_append

theorem course_concat (world : World ι α) (earlier : List (Happening ι))
    (happening : Happening ι) :
    world.course (earlier ++ [happening]) = (world.course earlier).meet happening :=
  world.course_append earlier [happening]

omit [DecidableEq ι] in
/-- Whether what other parties do leaves the finalizers of custom resources alone. -/
def SparesFinalizers (world : World ι α) : Happening ι → Prop
  | .turn (.other (.replace kind object)) => kind.isDependent = false →
    ∀ current, world.cluster.find? kind object.path = some current →
      object.metadata.finalizers = current.metadata.finalizers
  | .beforeReplace _ edit => edit.LeavesFinalizers
  | _ => True

omit [DecidableEq ι] in
/-- Whether a resource of a kind with an identity is created under a path. -/
def Creates (world : World ι α) (kind : Kind) (path uid : String) : Happening ι → Prop
  | .turn (.other (.create other object)) => other = kind ∧ object.path = path ∧
    (world.cluster.created object).metadata.uid? = some uid
  | _ => False

end Courses

variable {ι : Type} [DecidableEq ι]

/-- Whether the cluster is in good order, and every process a pass whose resource it remembers. -/
structure Operates (world : World ι PassOutcome) : Prop where
  sound : world.cluster.Sound
  waiting : world.cluster.AllWaiting fun _ edit => edit.LeavesFinalizers
  passing : ∀ i, world.cluster.IsPassing (world.processes i).program

variable {world : World ι PassOutcome} {happening : Happening ι} {kind : Kind} {path uid : String}

omit [DecidableEq ι] in
theorem Operates.polite (h : world.Operates) : world.cluster.HasPoliteEdits :=
  fun path edits hget edit hmem => (h.waiting path edits hget edit hmem).keepsKey

omit [DecidableEq ι] in
theorem operates_start {cluster : Cluster} (hreachable : cluster.Reachable)
    (hwaiting : cluster.AllWaiting fun _ edit => edit.LeavesFinalizers)
    {programs : ι → Program PassOutcome}
    (hprograms : ∀ i, ∃ (kind : Kind) (duty : Duty kind) (key : ObjectKey), duty.IsOperators ∧
      programs i = duty.pass key) : (start cluster programs).Operates where
  sound := hreachable.sound
  waiting := hwaiting
  passing i := by
    obtain ⟨kind, duty, key, hduty, hprogram⟩ := hprograms i
    exact .ahead hduty key hprogram

omit [DecidableEq ι] in
/-- Whoever calls, every pass goes on as it was. -/
theorem Operates.serve (h : world.Operates) (request : Request) (i : ι) :
    (Cluster.serve request world.cluster).2.IsPassing (world.processes i).program :=
  (h.passing i).mono fun _ _ hremembers => hremembers.serve h.sound h.polite request

theorem Operates.turn (h : world.Operates) (turn : Turn ι) : (world.turn turn).Operates := by
  cases turn with
  | process i =>
    cases hprogram : (world.processes i).program with
    | done result =>
      rw [turn_process_of_done hprogram]
      exact h
    | call request next =>
      rw [turn_process_of_call hprogram]
      refine ⟨h.sound.serve h.polite request, h.waiting.serve request, fun j => ?_⟩
      by_cases hj : j = i
      · subst hj
        rw [called_processes_self]
        exact (hprogram ▸ h.passing j).called h.sound h.polite
      · rw [called_processes_of_ne world hj]
        exact h.serve request j
  | other request =>
    exact ⟨h.sound.serve h.polite request, h.waiting.serve request, h.serve request⟩
  | clock now =>
    exact ⟨h.sound.of_objects rfl le_rfl, h.waiting,
      fun i => (h.passing i).mono fun _ _ hremembers => hremembers⟩

theorem Operates.meet (h : world.Operates) (hspares : world.SparesFinalizers happening) :
    (world.meet happening).Operates := by
  cases happening with
  | turn turn => exact h.turn turn
  | fail form code reason times =>
    exact ⟨h.sound.of_objects rfl le_rfl, h.waiting,
      fun i => (h.passing i).mono fun _ _ hremembers => hremembers⟩
  | beforeReplace path edit =>
    exact ⟨h.sound.of_objects rfl le_rfl, h.waiting.beforeReplace hspares,
      fun i => (h.passing i).mono fun _ _ hremembers => hremembers⟩

theorem Operates.course (h : world.Operates) {happenings : List (Happening ι)}
    (hspares : ∀ earlier happening, earlier ++ [happening] <+: happenings →
      (world.course earlier).SparesFinalizers happening) : (world.course happenings).Operates := by
  induction happenings using List.reverseRecOn with
  | nil => exact h
  | append_singleton earlier happening ih =>
    rw [course_concat]
    refine (ih fun front next hfront => ?_).meet (hspares _ _ (List.prefix_refl _))
    exact hspares front next (hfront.trans (List.prefix_append ..))

/-! ## What becomes of one resource -/

/-- Whatever happens is a step in the life of every resource. -/
theorem Operates.lifeStep (h : world.Operates) (hspares : world.SparesFinalizers happening)
    {duty : Duty kind} (hduty : duty.IsOperators) {r : Resource kind}
    (hfind : world.cluster.find? kind path = some r) :
    LifeStep duty.mark r.metadata ((world.meet happening).cluster.metadata? kind path) := by
  have hsame : LifeStep duty.mark r.metadata (world.cluster.metadata? kind path) :=
    Cluster.lifeStep_of_get? hfind rfl
  have hcall : ∀ request : Request, request.Respects duty world.cluster →
      LifeStep duty.mark r.metadata
        ((Cluster.serve request world.cluster).2.metadata? kind path) := fun request hrespects =>
    Cluster.serve_lifeStep h.sound hduty.isDependent_eq h.waiting hrespects hfind
  cases happening with
  | turn turn =>
    cases turn with
    | process i =>
      change LifeStep _ _ ((world.turn (.process i)).cluster.metadata? kind path)
      cases hprogram : (world.processes i).program with
      | done result => rwa [turn_process_of_done hprogram]
      | call request next =>
        rw [turn_process_of_call hprogram]
        exact hcall request ((hprogram ▸ h.passing i).respects hduty)
    | other request =>
      refine hcall request ?_
      cases request with
      | replace other object =>
        by_cases hkind : other = kind
        · subst hkind
          exact .edit (hspares hduty.isDependent_eq)
        · exact .other fun _ heq => hkind (Request.replace.inj heq).1
      | _ => exact .other fun _ => by simp
    | clock now => exact hsame
  | fail form code reason times => exact hsame
  | beforeReplace place edit => exact hsame

/-- Under a path where a resource is stored, one was stored before, unless it was just created. -/
theorem Operates.brings (h : world.Operates) (hkind : kind.isDependent = false)
    {r : Resource kind} (hfind : (world.meet happening).cluster.find? kind path = some r)
    (huid : r.metadata.uid? = some uid) (hcreates : ¬ world.Creates kind path uid happening) :
    ∃ old, world.cluster.find? kind path = some old := by
  cases hnone : world.cluster.find? kind path with
  | some old => exact ⟨old, rfl⟩
  | none =>
    refine absurd hfind ?_
    have hgone : (world.meet happening).cluster.find? kind path = none →
        (world.meet happening).cluster.find? kind path ≠ some r := by
      intro heq
      simp [heq]
    cases happening with
    | turn turn =>
      cases turn with
      | process i =>
        refine hgone ?_
        change (world.turn (.process i)).cluster.find? kind path = none
        cases hprogram : (world.processes i).program with
        | done result => rwa [turn_process_of_done hprogram]
        | call request next =>
          rw [turn_process_of_call hprogram]
          refine Cluster.find?_none_of_serve hnone fun object heq => ?_
          exact absurd heq ((hprogram ▸ h.passing i).ne_create hkind object)
      | other request =>
        by_cases hcreate : ∃ object : Resource kind, request = .create kind object ∧
          object.path = path
        · obtain ⟨object, rfl, rfl⟩ := hcreate
          intro hstored
          exact hcreates ⟨rfl, rfl, (Cluster.uid?_of_serve_create hnone hstored).symm.trans huid⟩
        · exact hgone (Cluster.find?_none_of_serve hnone fun object heq hpath =>
            hcreate ⟨object, heq, hpath⟩)
      | clock now => exact hgone hnone
    | fail form code reason times => exact hgone hnone
    | beforeReplace place edit => exact hgone hnone

end World

/-! ## The main result -/

/-- What a cluster knows of the resource of a kind with an identity under a path. -/
def Cluster.standing? (cluster : Cluster) (kind : Kind) (path uid : String) : Option Metadata :=
  (cluster.metadata? kind path).filter fun m => m.uid? = some uid

theorem Cluster.standing?_eq_some {cluster : Cluster} {kind : Kind} {path uid : String}
    {m : Metadata} : cluster.standing? kind path uid = some m ↔
      ∃ r, cluster.find? kind path = some r ∧ r.metadata = m ∧ m.uid? = some uid := by
  simp [standing?, metadata?, Option.filter_eq_some_iff, ← and_assoc]

namespace World

variable {ι : Type} [DecidableEq ι] {world : World ι PassOutcome} {happening : Happening ι}
  {kind : Kind} {duty : Duty kind} {path uid : String} {m later : Metadata}

theorem Operates.goesOn (h : world.Operates) (hspares : world.SparesFinalizers happening)
    (hduty : duty.IsOperators) (hbefore : world.cluster.standing? kind path uid = some m) :
    match (world.meet happening).cluster.standing? kind path uid with
    | none => (m.lifeStage duty.mark).Step none
    | some later => m.GoesOn duty.mark later := by
  obtain ⟨r, hfind, rfl, huid⟩ := Cluster.standing?_eq_some.1 hbefore
  have hstep := h.lifeStep hspares hduty hfind
  unfold Cluster.standing?
  cases hafter : (world.meet happening).cluster.metadata? kind path with
  | none =>
    rw [hafter] at hstep
    exact hstep.step_none
  | some later =>
    rw [hafter] at hstep
    have hsame : later.uid? = some uid := hstep.uid_eq.trans huid
    simpa [Option.filter, hsame] using hstep.goesOn

/-- A resource that is there was there before, unless it was just created. -/
theorem Operates.stood (h : world.Operates) (hduty : duty.IsOperators)
    (hafter : (world.meet happening).cluster.standing? kind path uid = some later)
    (hspares : world.SparesFinalizers happening)
    (hcreates : ¬ world.Creates kind path uid happening) :
    ∃ m, world.cluster.standing? kind path uid = some m ∧ m.GoesOn duty.mark later := by
  obtain ⟨r, hfind, rfl, huid⟩ := Cluster.standing?_eq_some.1 hafter
  obtain ⟨old, hold⟩ := h.brings hduty.isDependent_eq hfind huid hcreates
  have hstep := h.lifeStep hspares hduty hold
  rw [Cluster.metadata?_of_find? hfind] at hstep
  exact ⟨old.metadata, Cluster.standing?_eq_some.2 ⟨old, hold, rfl, hstep.uid_eq.symm.trans huid⟩,
    hstep.goesOn⟩

/-- What holds of a resource from one time to a later one. -/
theorem Operates.lasted (h : world.Operates) (hduty : duty.IsOperators)
    {happenings : List (Happening ι)}
    (hspares : ∀ earlier happening, earlier ++ [happening] <+: happenings →
      (world.course earlier).SparesFinalizers happening)
    (hcreates : ∀ earlier happening, earlier ++ [happening] <+: happenings →
      ¬ (world.course earlier).Creates kind path uid happening)
    (hafter : (world.course happenings).cluster.standing? kind path uid = some later) :
    ∃ m, world.cluster.standing? kind path uid = some m ∧
      later.otherFinalizers duty.mark = m.otherFinalizers duty.mark ∧
        (m.finalizers.count duty.mark ≤ 1 → later.finalizers.count duty.mark ≤ 1) := by
  induction happenings using List.reverseRecOn generalizing later with
  | nil => exact ⟨later, hafter, rfl, id⟩
  | append_singleton earlier happening ih =>
    have hfront : ∀ {front next}, front ++ [next] <+: earlier →
        front ++ [next] <+: earlier ++ [happening] := fun h => h.trans (List.prefix_append ..)
    have hmiddle := h.course fun front next hprefix => hspares front next (hfront hprefix)
    rw [course_concat] at hafter
    obtain ⟨between, hbetween, hstep⟩ := hmiddle.stood hduty hafter
      (hspares _ _ (List.prefix_refl _)) (hcreates _ _ (List.prefix_refl _))
    obtain ⟨m, hm, hothers, honce⟩ := ih (fun front next hprefix => hspares _ _ (hfront hprefix))
      (fun front next hprefix => hcreates _ _ (hfront hprefix)) hbetween
    exact ⟨m, hm, hstep.others.trans hothers, fun hcount => hstep.once (honce hcount)⟩

/-- However passes for custom resources are interleaved with what others do, and whatever fails, a
resource goes on from stage to stage, and the mark comes on and goes as it may; over any stretch of
time in which the resource is not created, it was there at the start if it is at the end, the
finalizers of others are the same, and it has the mark at most once if it had at the start. The
others may do anything but write the finalizers of custom resources. -/
theorem stages_go_forward {cluster : Cluster} (hreachable : cluster.Reachable)
    (hwaiting : cluster.AllWaiting fun _ edit => edit.LeavesFinalizers)
    {programs : ι → Program PassOutcome}
    (hprograms : ∀ i, ∃ (kind : Kind) (duty : Duty kind) (key : ObjectKey), duty.IsOperators ∧
      programs i = duty.pass key)
    {happenings : List (Happening ι)}
    (hspares : ∀ earlier happening, earlier ++ [happening] <+: happenings →
      ((start cluster programs).course earlier).SparesFinalizers happening)
    {kind : Kind} {duty : Duty kind} (hduty : duty.IsOperators) (path uid : String) :
    (∀ earlier happening, earlier ++ [happening] <+: happenings → ∀ m,
      ((start cluster programs).course earlier).cluster.standing? kind path uid = some m →
        match ((start cluster programs).course (earlier ++ [happening])).cluster.standing?
          kind path uid with
        | none => (m.lifeStage duty.mark).Step none
        | some later => m.GoesOn duty.mark later) ∧
    ∀ earlier stretch, earlier ++ stretch <+: happenings →
      (∀ front happening, front ++ [happening] <+: stretch →
        ¬ ((start cluster programs).course (earlier ++ front)).Creates kind path uid happening) →
      ∀ later, ((start cluster programs).course (earlier ++ stretch)).cluster.standing?
          kind path uid = some later →
        ∃ m, ((start cluster programs).course earlier).cluster.standing? kind path uid = some m ∧
          later.otherFinalizers duty.mark = m.otherFinalizers duty.mark ∧
            (m.finalizers.count duty.mark ≤ 1 → later.finalizers.count duty.mark ≤ 1) := by
  have hoperates : ∀ {earlier}, earlier <+: happenings →
      ((start cluster programs).course earlier).Operates := fun hearlier =>
    (operates_start hreachable hwaiting hprograms).course fun front next hfront =>
      hspares front next (hfront.trans hearlier)
  constructor
  · intro earlier happening hearlier m hbefore
    rw [course_concat]
    exact (hoperates ((List.prefix_append ..).trans hearlier)).goesOn (hspares _ _ hearlier) hduty
      hbefore
  · intro earlier stretch hearlier hcreates later hafter
    rw [course_append] at hafter
    refine (hoperates ((List.prefix_append ..).trans hearlier)).lasted hduty ?_ ?_ hafter
    · intro front next hfront
      have hwhole := hspares (earlier ++ front) next
        (by simpa using (List.prefix_append_right_inj earlier).2 hfront |>.trans hearlier)
      rwa [course_append] at hwhole
    · intro front next hfront
      have hnot := hcreates front next hfront
      rwa [course_append] at hnot

/-! Two passes look at a frontend before either of them marks it. The second one does, then the
frontend is deleted, and the first one comes too late: its write names an old version. -/

/-- A frontend on which another party has put a finalizer. -/
def watchedFrontend : Resource .frontend where
  metadata := { Cluster.shopFrontend.metadata with finalizers? := some ["watch"] }
  content := Cluster.shopFrontend.content

/-- A cluster that holds nothing but the frontend. -/
def watchedCluster : Cluster :=
  (Cluster.create { now := Cluster.openingTime } watchedFrontend).2

/-- The order in which the two passes and the deletion meet. -/
def lateHappenings : List (Happening Bool) :=
  [.turn (.process false), .turn (.process true), .turn (.process true),
    .turn (.other (.delete .frontend Cluster.shopKey)), .turn (.process false)]

/-- The world after the first so many of them. -/
def lateWorld (count : Nat) : World Bool PassOutcome :=
  (start watchedCluster fun _ => (Duty.frontend 5).pass Cluster.shopKey).course
    (lateHappenings.take count)

theorem late_pass_marks_nothing :
    watchedCluster.Reachable ∧ watchedCluster.AllWaiting (fun _ edit => edit.LeavesFinalizers) ∧
      (∀ earlier happening, earlier ++ [happening] <+: lateHappenings →
        ((start watchedCluster fun _ => (Duty.frontend 5).pass Cluster.shopKey).course
          earlier).SparesFinalizers happening) ∧
      ∃ fresh marked last, (lateWorld 2).cluster.standing? .frontend
          (Cluster.shopKey.path .frontend) "uid-shop" = some fresh ∧
        (lateWorld 3).cluster.standing? .frontend (Cluster.shopKey.path .frontend) "uid-shop" =
          some marked ∧
        (lateWorld 5).cluster.standing? .frontend (Cluster.shopKey.path .frontend) "uid-shop" =
          some last ∧
        fresh.lifeStage Names.frontendFinalizer = .unmarked ∧
        fresh.GoesOn Names.frontendFinalizer marked ∧
        last.lifeStage Names.frontendFinalizer = .tearingDown ∧
        last.otherFinalizers Names.frontendFinalizer =
          fresh.otherFinalizers Names.frontendFinalizer := by
  have hreachable : watchedCluster.Reachable := .seed _ (.empty _)
  have hwaiting : watchedCluster.AllWaiting (fun _ edit => edit.LeavesFinalizers) :=
    fun path edits hget => by cases hget
  have hprograms : ∀ _ : Bool, ∃ (kind : Kind) (duty : Duty kind) (key : ObjectKey),
      duty.IsOperators ∧ (Duty.frontend 5).pass Cluster.shopKey = duty.pass key :=
    fun _ => ⟨.frontend, _, _, .frontend 5, rfl⟩
  have hspares : ∀ earlier happening, earlier ++ [happening] <+: lateHappenings →
      ((start watchedCluster fun _ => (Duty.frontend 5).pass Cluster.shopKey).course
        earlier).SparesFinalizers happening := by
    intro earlier happening hprefix
    have hmem : happening ∈ lateHappenings := hprefix.subset (by simp)
    simp only [lateHappenings, List.mem_cons, List.not_mem_nil, or_false] at hmem
    rcases hmem with rfl | rfl | rfl | rfl | rfl <;> trivial
  obtain ⟨hsteps, hstretches⟩ := stages_go_forward hreachable hwaiting hprograms hspares
    (.frontend 5) (Cluster.shopKey.path .frontend) "uid-shop"
  have hfresh : (lateWorld 2).cluster.standing? .frontend (Cluster.shopKey.path .frontend)
      "uid-shop" = some _ := rfl
  have hmarked : (lateWorld 3).cluster.standing? .frontend (Cluster.shopKey.path .frontend)
      "uid-shop" = some _ := rfl
  have hlast : (lateWorld 5).cluster.standing? .frontend (Cluster.shopKey.path .frontend)
      "uid-shop" = some _ := rfl
  have hgoesOn := hsteps (lateHappenings.take 2) _ ⟨_, rfl⟩ _ hfresh
  obtain ⟨m, hm, hothers, _⟩ := hstretches (lateHappenings.take 2) (lateHappenings.drop 2)
    (List.prefix_refl _) (fun front happening hprefix => by
      have hmem : happening ∈ lateHappenings.drop 2 := hprefix.subset (by simp)
      simp only [lateHappenings, List.drop, List.mem_cons, List.not_mem_nil, or_false] at hmem
      rcases hmem with rfl | rfl | rfl <;> exact id) _ hlast
  obtain rfl := Option.some.inj (hm.symm.trans hfresh)
  exact ⟨hreachable, hwaiting, hspares, _, _, _, hfresh, hmarked, hlast, by decide, hgoesOn,
    by decide, hothers⟩

end World

end EdgeOperator
