import EdgeOperator.Proofs.Cluster.Faithful

set_option autoImplicit false

/-! # Calls among faults and other writers

Before each call any faults may be arranged, and other writers may wait for the replacements. So an
answer says little, but still what was there: what is found is stored, what is created was missing,
and a replacement that names a version meets the object that was read with it, or it fails
(`Cluster.serveAmid_get`, `Cluster.serveAmid_create`, `Cluster.serveAmid_rewrite`). -/

namespace EdgeOperator

variable {kind : Kind}

namespace Cluster

variable {script : Nat → Arrangement} {cluster : Cluster}

/-! ## What every call keeps -/

theorem Reachable.arrange (h : cluster.Reachable) (arrangement : Arrangement) :
    (cluster.arrange arrangement).Reachable := by
  obtain ⟨faults, now⟩ := arrangement
  induction faults generalizing cluster with
  | nil =>
    have hclock := h.clock now
    rwa [← List.append_nil cluster.faults] at hclock
  | cons fault rest ih =>
    have hrest := ih (h.fail fault.call fault.code fault.reason fault.remaining)
    unfold Cluster.arrange at hrest ⊢
    rwa [Cluster.fail, List.append_assoc, List.singleton_append] at hrest

theorem Reachable.serveAmid (h : cluster.Reachable) (request : Request) :
    (Cluster.serveAmid script request cluster).2.Reachable :=
  (h.arrange _).serve request

theorem AllWaiting.serveAmid {property : String → Edit → Prop} (h : cluster.AllWaiting property)
    (request : Request) : (Cluster.serveAmid script request cluster).2.AllWaiting property := by
  have harranged : (cluster.arrange (script cluster.calls.length)).AllWaiting property := h
  exact harranged.serve request

/-- Whether no fault that is arranged and may strike makes an object seem to be missing. -/
def Arrangement.IsTruthful (arrangement : Arrangement) : Prop :=
  ∀ fault ∈ arrangement.faults, 0 < fault.remaining → fault.code ≠ 404

theorem IsTruthful.arrange (h : cluster.IsTruthful) {arrangement : Arrangement}
    (htruthful : arrangement.IsTruthful) : (cluster.arrange arrangement).IsTruthful :=
  fun fault hmem => (List.mem_append.1 hmem).elim (h fault) (htruthful fault)

theorem IsTruthful.serveAmid (h : cluster.IsTruthful) (hscript : ∀ n, (script n).IsTruthful)
    (request : Request) : (Cluster.serveAmid script request cluster).2.IsTruthful :=
  (h.arrange (hscript _)).serve request

/-! ## What each call comes to -/

/-- A call that fails was refused. -/
theorem refused_of_serveAmid {request : Request} {e : OperatorError}
    (h : (serveAmid script request cluster).1 = .error e) : ∃ code reason, e = refused code reason :=
  refused_of_serve_error h

theorem serveAmid_get (script : Nat → Arrangement) (kind : Kind) (key : ObjectKey)
    (cluster : Cluster) :
    (serveAmid script (.get kind key) cluster).2.objects = cluster.objects ∧
      ∀ object, (serveAmid script (.get kind key) cluster).1 = .ok (some object) →
        cluster.find? kind (key.path kind) = some object := by
  let arranged := cluster.arrange (script cluster.calls.length)
  refine ⟨serve_get_objects kind key arranged, fun object hget => ?_⟩
  have hfind : arranged.find? kind (key.path kind) = some object := find?_of_serve_get hget
  exact hfind

/-- Where no fault hides anything, a look-up finds nothing only where nothing is. -/
theorem IsTruthful.find?_of_serveAmid_get (h : cluster.IsTruthful)
    (hscript : ∀ n, (script n).IsTruthful) {key : ObjectKey}
    (hget : (Cluster.serveAmid script (.get kind key) cluster).1 = .ok none) :
    cluster.find? kind (key.path kind) = none := by
  have harranged := h.arrange (hscript cluster.calls.length)
  exact harranged.find?_of_serve_get hget

theorem serveAmid_list (script : Nat → Arrangement) (kind : Kind) (namespaceName? : Option String)
    (cluster : Cluster) :
    (serveAmid script (.list kind namespaceName?) cluster).2.objects = cluster.objects ∧
      ∀ objects, (serveAmid script (.list kind namespaceName?) cluster).1 = .ok objects →
        objects = cluster.listed kind namespaceName? := by
  let arranged := cluster.arrange (script cluster.calls.length)
  refine ⟨serve_list_objects kind namespaceName? arranged, fun objects hlist => ?_⟩
  have hlisted : objects = arranged.listed kind namespaceName? := listed_of_serve_list hlist
  exact hlisted

theorem edits_serveAmid_get (script : Nat → Arrangement) (kind : Kind) (key : ObjectKey)
    (cluster : Cluster) :
    (serveAmid script (.get kind key) cluster).2.edits = cluster.edits :=
  edits_serve (cluster.arrange (script cluster.calls.length)) (by simp)

/-- A creation fails and changes nothing, or stores the object where there was none. -/
theorem serveAmid_create (script : Nat → Arrangement) (object : Resource kind)
    (cluster : Cluster) :
    (∃ e after, serveAmid script (.create kind object) cluster = (.error e, after) ∧
      after.objects = cluster.objects) ∨
    cluster.objects.get? object.path = none ∧ ∃ stored next after,
      serveAmid script (.create kind object) cluster = (.ok stored, after) ∧
        after.objects = cluster.objects.set object.path ⟨kind, next⟩ ∧
        next.outline = object.wholeSeconds.outline := by
  rcases serve_create (cluster.arrange (script cluster.calls.length)) object with
    ⟨e, hserve⟩ | ⟨hnone, hserve⟩
  · exact Or.inl ⟨e, _, hserve, rfl⟩
  · refine Or.inr ⟨hnone, _, (created (cluster.arrange _) object).wholeSeconds, _, hserve, rfl, ?_⟩
    rfl

/-- A replacement of an object that was read fails, and then nothing has changed or another writer
has edited the object; or the object gives way to its next version, and a deleted one without
finalizers goes. -/
theorem serveAmid_rewrite (script : Nat → Arrangement) (h : cluster.Reachable)
    {object read : Resource kind} (hfind : cluster.find? kind object.path = some read)
    (hversion : object.metadata.resourceVersion? = read.metadata.resourceVersion?)
    (hrevision : object.IsRevisionOf read) :
    (∃ e after, serveAmid script (.replace kind object) cluster = (.error e, after) ∧
      (after.objects = cluster.objects ∨ ∃ edit rest version,
        cluster.edits.get? object.path = some (edit :: rest) ∧
        after.objects = cluster.objects.set object.path ⟨kind, read.edited edit version⟩)) ∨
    ∃ version after,
      serveAmid script (.replace kind object) cluster = (.ok (object.withVersion version), after) ∧
        after.objects =
          if object.metadata.isDeleted && object.metadata.finalizers.isEmpty then
            cluster.objects.erase object.path
          else
            cluster.objects.set object.path ⟨kind, (object.withVersion version).wholeSeconds⟩ := by
  let arranged := cluster.arrange (script cluster.calls.length)
  have harranged : arranged.Reachable := h.arrange _
  cases hanswer : (serve (.replace kind object) arranged).1 with
  | error e =>
    refine Or.inl ⟨e, _, Prod.ext hanswer rfl, ?_⟩
    rcases serve_replace_error hanswer with
      hobjects | ⟨edit, rest, hedits, other, stored, hstored, hobjects⟩
    · exact Or.inl hobjects
    · cases eq_of_find? (hfind : arranged.find? kind object.path = some read) hstored
      exact Or.inr ⟨edit, rest, _, hedits, hobjects⟩
  | ok stored =>
    have hremembers := harranged.sound.remembers (find?_eq_some.1 hfind)
    obtain ⟨_, _, noted, hobjects, _, hserve⟩ := serve_replace_of_remembers harranged.sound
      harranged.hasPoliteEdits hremembers hversion hanswer
    have hnext : noted.replaced read object = object.withVersion noted.nextVersion := by
      unfold replaced Resource.withVersion
      rw [← hrevision.uid_eq, ← hrevision.creation_eq, ← hrevision.deletion_eq]
    rw [hnext] at hserve
    refine Or.inr ⟨noted.nextVersion, _, hserve, ?_⟩
    rw [show cluster.objects = noted.objects from hobjects.symm]
    exact apply_ite Cluster.objects ..

end Cluster

end EdgeOperator
