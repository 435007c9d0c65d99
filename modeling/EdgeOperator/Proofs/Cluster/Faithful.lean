import EdgeOperator.Proofs.Cluster.Calm
import Mathlib.Logic.Function.Basic

set_option autoImplicit false

/-! # Calls among faults that come and go

Before each call any faults may be arranged, and the clock may go on (`Cluster.serveAmid`). What a
call comes to depends on these, but not much: it fails and changes nothing, or it does what it does
to a calm cluster with the same objects (`Cluster.IsFaithful`). One statement for each form of call
says so.

What a call leaves to chance is the identity, the version and the time of creation that it gives
out. The rest of what a cluster holds is its *outline* (`Cluster.outline`). -/

namespace EdgeOperator

variable {kind : Kind}

/-! ## Outlines -/

/-- The metadata without what the API server gives out at a creation or a write. -/
def Metadata.outline (m : Metadata) : Metadata :=
  { m with uid? := none, resourceVersion? := none, creationTimestamp? := none }

/-- The object without what the API server gives out. -/
def Resource.outline (r : Resource kind) : Resource kind :=
  { r with metadata := r.metadata.outline }

/-- The object without what the API server gives out, whatever its kind. -/
def AnyResource.outline (r : AnyResource) : AnyResource :=
  ⟨r.kind, r.resource.outline⟩

/-- The outline of an object once it was written; a deleted object without finalizers is gone. -/
def Resource.written? (r : Resource kind) : Option AnyResource :=
  if r.metadata.isDeleted && r.metadata.finalizers.isEmpty then none
  else some ⟨kind, r.wholeSeconds.outline⟩

theorem Resource.ownerReferences_of_written? {r : Resource kind} {object : AnyResource}
    (h : r.written? = some object) :
    object.metadata.ownerReferences = r.metadata.ownerReferences := by
  unfold written? at h
  split at h
  · cases h
  · exact Option.some.inj h ▸ rfl

/-- The object without its version. -/
def Resource.unversioned (r : Resource kind) : Resource kind :=
  { r with metadata := { r.metadata with resourceVersion? := none } }

/-- The object with a version. -/
def Resource.withVersion (r : Resource kind) (version : String) : Resource kind :=
  { r with metadata := { r.metadata with resourceVersion? := some version } }

theorem Resource.outline_eq_of_unversioned {r other : Resource kind}
    (h : r.unversioned = other.unversioned) : r.outline = other.outline := by
  change r.unversioned.outline = other.unversioned.outline
  rw [h]

/-- Whether an object keeps what the API server has given out for another, its version aside. -/
structure Resource.IsRevisionOf (object read : Resource kind) : Prop where
  uid_eq : object.metadata.uid? = read.metadata.uid?
  creation_eq : object.metadata.creationTimestamp? = read.metadata.creationTimestamp?
  deletion_eq : object.metadata.deletionTimestamp? = read.metadata.deletionTimestamp?

namespace Cluster

variable {before after cluster : Cluster}

/-- The outlines of the objects, by their paths. -/
def outline (cluster : Cluster) (path : String) : Option AnyResource :=
  (cluster.objects.get? path).map AnyResource.outline

theorem outline_of_objects (h : after.objects = before.objects) :
    after.outline = before.outline := by
  unfold outline
  rw [h]

theorem outline_of_set {path : String} {next : Resource kind}
    (h : after.objects = before.objects.set path ⟨kind, next⟩) :
    after.outline = Function.update before.outline path (some ⟨kind, next.outline⟩) := by
  funext other
  unfold outline
  rw [h, StringMap.get?_set, Function.update_apply]
  by_cases hpath : path = other
  · rw [if_pos hpath, if_pos hpath.symm]
    rfl
  · rw [if_neg hpath, if_neg (Ne.symm hpath)]

theorem outline_of_erase {path : String} (h : after.objects = before.objects.erase path) :
    after.outline = Function.update before.outline path none := by
  funext other
  unfold outline
  rw [h, StringMap.get?_erase, Function.update_apply]
  by_cases hpath : path = other
  · rw [if_pos hpath, if_pos hpath.symm]
    rfl
  · rw [if_neg hpath, if_neg (Ne.symm hpath)]

theorem outline_of_find? {path : String} {object : Resource kind}
    (h : cluster.find? kind path = some object) :
    cluster.outline path = some ⟨kind, object.outline⟩ := by
  unfold outline
  rw [find?_eq_some.1 h]
  rfl

theorem find?_of_outline {path : String} {r : Resource kind}
    (h : cluster.outline path = some ⟨kind, r⟩) :
    ∃ object, cluster.find? kind path = some object ∧ object.outline = r := by
  obtain ⟨⟨other, object⟩, hget, heq⟩ := Option.map_eq_some_iff.1 h
  cases heq
  exact ⟨object, find?_eq_some.2 hget, rfl⟩

/-! ## Arrangements -/

/-- What is arranged before a call: faults that may strike it or later ones, and the time. -/
structure Arrangement where
  faults : List Fault
  now : Timestamp

/-- Whether no fault that is arranged makes an object seem to be missing. -/
def Arrangement.HidesNothing (arrangement : Arrangement) : Prop :=
  ∀ fault ∈ arrangement.faults, fault.code ≠ 404

/-- The cluster with what is arranged for the next call. -/
def arrange (cluster : Cluster) (arrangement : Arrangement) : Cluster :=
  { cluster with faults := cluster.faults ++ arrangement.faults, now := arrangement.now }

/-- Answers a call after what is arranged for it, which the number of calls before it tells. -/
def serveAmid (script : Nat → Arrangement) (request : Request) (cluster : Cluster) :
    Except OperatorError request.Answer × Cluster :=
  serve request (cluster.arrange (script cluster.calls.length))

theorem IsCalm.arrange (h : cluster.IsCalm) {arrangement : Arrangement}
    (hhides : arrangement.HidesNothing) : (cluster.arrange arrangement).IsCalm where
  sound := h.sound.of_objects rfl le_rfl
  isUndisturbed := h.isUndisturbed
  hidesNothing fault hmem :=
    (List.mem_append.1 hmem).elim (h.hidesNothing fault) (hhides fault)

theorem isFaithful_serveAmid {script : Nat → Arrangement} (h : ∀ n, (script n).HidesNothing) :
    IsFaithful (serveAmid script) :=
  fun _ cluster hcalm => ⟨_, hcalm.arrange (h cluster.calls.length), rfl, rfl⟩

/-! ## What each call comes to -/

namespace IsFaithful

variable {server : Cluster.Server}

/-- A look-up fails or tells what is stored. -/
theorem get_cases (h : IsFaithful server) (hcalm : cluster.IsCalm) (kind : Kind) (key : ObjectKey) :
    (server (.get kind key) cluster).2.objects = cluster.objects ∧
      ((∃ e, (server (.get kind key) cluster).1 = .error e) ∨
        (server (.get kind key) cluster).1 = .ok (cluster.find? kind (key.path kind))) := by
  obtain ⟨same, hsame, hobjects, heq⟩ := h (.get kind key) cluster hcalm
  have hfind := (leaves_of_objects hobjects kind).find?_eq (key.path kind)
  rw [heq, serve_get_objects, hobjects, ← hfind]
  refine ⟨rfl, ?_⟩
  rcases hanswer : (serve (.get kind key) same).1 with e | _ | object
  · exact Or.inl ⟨e, rfl⟩
  · rw [hsame.hidesNothing.isTruthful.find?_of_serve_get hanswer]
    exact Or.inr rfl
  · rw [find?_of_serve_get hanswer]
    exact Or.inr rfl

/-- A list fails or tells what is stored. -/
theorem list_cases (h : IsFaithful server) (hcalm : cluster.IsCalm) (kind : Kind)
    (namespaceName? : Option String) :
    (server (.list kind namespaceName?) cluster).2.objects = cluster.objects ∧
      ((∃ e, (server (.list kind namespaceName?) cluster).1 = .error e) ∨
        (server (.list kind namespaceName?) cluster).1 =
          .ok (cluster.listed kind namespaceName?)) := by
  obtain ⟨same, _, hobjects, heq⟩ := h (.list kind namespaceName?) cluster hcalm
  have hlisted := (leaves_of_objects hobjects kind).listed_eq namespaceName?
  rw [heq, serve_list_objects, hobjects, ← hlisted]
  refine ⟨rfl, ?_⟩
  cases hanswer : (serve (.list kind namespaceName?) same).1 with
  | error e => exact Or.inl ⟨e, rfl⟩
  | ok objects =>
    rw [listed_of_serve_list hanswer]
    exact Or.inr rfl

/-- A creation fails and changes nothing, or stores the object where there was none. -/
theorem create_cases (h : IsFaithful server) (hcalm : cluster.IsCalm) (object : Resource kind) :
    (∃ e, (server (.create kind object) cluster).1 = .error e ∧
      (server (.create kind object) cluster).2.objects = cluster.objects) ∨
    cluster.objects.get? object.path = none ∧ ∃ stored next : Resource kind,
      (server (.create kind object) cluster).1 = .ok stored ∧
        (server (.create kind object) cluster).2.objects =
          cluster.objects.set object.path ⟨kind, next⟩ ∧
        next.outline = object.wholeSeconds.outline := by
  obtain ⟨same, _, hobjects, heq⟩ := h (.create kind object) cluster hcalm
  rcases serve_create same object with ⟨e, hserve⟩ | ⟨hnone, hserve⟩
  · exact Or.inl ⟨e, by rw [heq, hserve], by rw [heq, hserve, note_objects, hobjects]⟩
  · refine Or.inr ⟨hobjects ▸ hnone, same.created object, (same.created object).wholeSeconds,
      by rw [heq, hserve], ?_, rfl⟩
    rw [heq, hserve, ← hobjects]
    rfl

/-- A replacement of an object that was read fails and changes nothing, or the object gives way to
its next version; a deleted one without finalizers goes. -/
theorem replace_cases (h : IsFaithful server) (hcalm : cluster.IsCalm) {object read : Resource kind}
    (hfind : cluster.find? kind object.path = some read) (hrevision : object.IsRevisionOf read) :
    (∃ e, (server (.replace kind object) cluster).1 = .error e ∧
      (server (.replace kind object) cluster).2.objects = cluster.objects) ∨
    ∃ version, (server (.replace kind object) cluster).1 = .ok (object.withVersion version) ∧
      (server (.replace kind object) cluster).2.objects =
        if object.metadata.isDeleted && object.metadata.finalizers.isEmpty then
          cluster.objects.erase object.path
        else cluster.objects.set object.path ⟨kind, (object.withVersion version).wholeSeconds⟩ := by
  obtain ⟨same, hsame, hobjects, heq⟩ := h (.replace kind object) cluster hcalm
  rcases serve_replace_undisturbed (hsame.isUndisturbed object.path) with
    ⟨e, hserve⟩ | ⟨current, hcurrent, _, hserve⟩
  · exact Or.inl ⟨e, by rw [heq, hserve], by rw [heq, hserve, note_objects, hobjects]⟩
  · have hstored := (leaves_of_objects hobjects kind).find?_eq object.path
    obtain rfl := Option.some.inj (hfind.symm.trans (hstored.symm.trans hcurrent))
    have hnext : (same.note (Request.replace kind object).call).2.replaced read object =
        object.withVersion same.nextVersion := by
      unfold replaced Resource.withVersion
      rw [← hrevision.uid_eq, ← hrevision.creation_eq, ← hrevision.deletion_eq]
      rfl
    refine Or.inr ⟨same.nextVersion, by rw [heq, hserve, hnext], ?_⟩
    rw [heq, hserve, hnext, ← hobjects]
    exact apply_ite Cluster.objects ..

theorem outline_of_replace (h : IsFaithful server) (hcalm : cluster.IsCalm)
    {object read stored : Resource kind} (hfind : cluster.find? kind object.path = some read)
    (hrevision : object.IsRevisionOf read)
    (hok : (server (.replace kind object) cluster).1 = .ok stored) :
    (server (.replace kind object) cluster).2.outline =
      Function.update cluster.outline object.path object.written? := by
  rcases h.replace_cases hcalm hfind hrevision with ⟨e, herror, _⟩ | ⟨version, _, hobjects⟩
  · rw [herror] at hok
    cases hok
  · unfold Resource.written?
    split at hobjects
    · next hgone =>
      rw [if_pos hgone]
      exact outline_of_erase hobjects
    · next hstays =>
      rw [if_neg hstays]
      have hset := outline_of_set hobjects
      exact hset

/-- A deletion changes nothing, or the object that is there goes or stays with its owners. -/
theorem delete_cases (h : IsFaithful server) (hcalm : cluster.IsCalm) (kind : Kind)
    (key : ObjectKey) :
    (server (.delete kind key) cluster).2.objects = cluster.objects ∨
    ∃ current, cluster.find? kind (key.path kind) = some current ∧
      ((server (.delete kind key) cluster).2.objects = cluster.objects.erase (key.path kind) ∨
        ∃ next : Resource kind,
          next.metadata.ownerReferences = current.metadata.ownerReferences ∧
          (server (.delete kind key) cluster).2.objects =
            cluster.objects.set (key.path kind) ⟨kind, next⟩) := by
  obtain ⟨same, hsame, hobjects, heq⟩ := h (.delete kind key) cluster hcalm
  rw [heq, ← hobjects, ← (leaves_of_objects hobjects kind).find?_eq]
  cases hsame.effect (.delete kind key) with
  | nothing hafter => exact Or.inl hafter
  | marked hfind hafter =>
    exact Or.inr ⟨_, hfind, Or.inr ⟨(same.marked _).wholeSeconds, rfl, hafter⟩⟩
  | removed hfind _ hafter => exact Or.inr ⟨_, hfind, Or.inl hafter⟩

/-- A deletion that finds nothing says the truth. -/
theorem find?_of_delete (h : IsFaithful server) (hcalm : cluster.IsCalm) {key : ObjectKey}
    {e : OperatorError} (herror : (server (.delete kind key) cluster).1 = .error e)
    (hfailure : e.failure = .notFound) : cluster.find? kind (key.path kind) = none := by
  obtain ⟨same, hsame, hobjects, heq⟩ := h (.delete kind key) cluster hcalm
  rw [heq] at herror
  rw [← (leaves_of_objects hobjects kind).find?_eq]
  exact hsame.hidesNothing.find?_of_serve_delete herror hfailure

end IsFaithful

end Cluster

end EdgeOperator
