import EdgeOperator.Cluster
import EdgeOperator.Proofs.Program

set_option autoImplicit false

/-! # What a call does to the cluster

One statement for each form of call says all that the call can come to: its answer together with the
cluster afterwards (`serve_get_none`, `serve_create`, `serve_replace`, `serve_delete`).
Statements about calls are derived from these and do not open `Cluster.serve` again.

A call changes at most the object under one path, its *target* (`get?_serve_of_ne`), and faults with
the code 404 aside, only a look-up that finds nothing says that an object is missing
(`serve_get_none`, `IsTruthful.failure_ne`). -/

namespace EdgeOperator

/-! ## Objects of any kind -/

namespace AnyResource

/-- The metadata of an object, whatever its kind. -/
def metadata (r : AnyResource) : Metadata :=
  r.resource.metadata

/-- The path an object is stored under, whatever its kind. -/
def path (r : AnyResource) : String :=
  r.resource.path

@[simp] theorem metadata_mk {kind : Kind} (r : Resource kind) :
    (⟨kind, r⟩ : AnyResource).metadata = r.metadata := rfl

theorem ofKind?_eq_some {r : AnyResource} {kind : Kind} {object : Resource kind} :
    r.ofKind? kind = some object ↔ r = ⟨kind, object⟩ := by
  obtain ⟨own, resource⟩ := r
  unfold ofKind?
  constructor
  · intro h
    split at h
    · next hkind =>
      obtain rfl : own = kind := hkind
      obtain rfl := Option.some.inj h
      rfl
    · exact absurd h (by simp)
  · intro h
    cases h
    simp

end AnyResource

/-- The path whose object a call may change. -/
def Request.target? : Request → Option String
  | .get _ _ | .list _ _ => none
  | .create _ object | .replace _ object => some object.path
  | .delete kind key => some (key.path kind)

/-! ## Refusals -/

theorem ApiStatus.failure_eq_notFound {status : ApiStatus} :
    status.failure = .notFound ↔ status.code = 404 := by
  unfold failure
  constructor
  · intro h
    split at h
    · assumption
    · split at h <;> cases h
    all_goals cases h
  · intro h
    simp only [h]

namespace Cluster

variable {kind : Kind}

/-! ## Reading the cluster -/

theorem find?_eq_some {cluster : Cluster} {path : String} {object : Resource kind} :
    cluster.find? kind path = some object ↔ cluster.objects.get? path = some ⟨kind, object⟩ := by
  unfold find?
  cases cluster.objects.get? path with
  | none => simp
  | some stored => simp [AnyResource.ofKind?_eq_some]

theorem find?_congr {before after : Cluster} {path : String}
    (h : after.objects.get? path = before.objects.get? path) :
    after.find? kind path = before.find? kind path := by
  unfold find?
  rw [h]

theorem find?_of_absent {cluster : Cluster} {path : String}
    (h : cluster.objects.get? path = none) : cluster.find? kind path = none := by
  unfold find?
  rw [h]
  rfl

/-- One path holds one object. -/
theorem eq_of_find? {cluster : Cluster} {path : String} {other : Kind} {object : Resource kind}
    {object' : Resource other} (h : cluster.find? kind path = some object)
    (h' : cluster.find? other path = some object') :
    (⟨kind, object⟩ : AnyResource) = ⟨other, object'⟩ :=
  Option.some.inj ((find?_eq_some.1 h).symm.trans (find?_eq_some.1 h'))

/-! ## Noting a call -/

@[simp] theorem note_objects (cluster : Cluster) (call : Call) :
    (cluster.note call).2.objects = cluster.objects := rfl

@[simp] theorem note_edits (cluster : Cluster) (call : Call) :
    (cluster.note call).2.edits = cluster.edits := rfl

@[simp] theorem note_find? (cluster : Cluster) (call : Call) (kind : Kind) (path : String) :
    (cluster.note call).2.find? kind path = cluster.find? kind path := rfl

/-! ## Letting another writer in -/

/-- Whether no other writer waits for the replacement under a path. -/
def IsUndisturbed (cluster : Cluster) (path : String) : Prop :=
  (cluster.edits.get? path).getD [] = []

theorem letIn_eq_self (cluster : Cluster) {path : String} (h : cluster.IsUndisturbed path) :
    cluster.letIn path = cluster := by
  unfold letIn
  unfold IsUndisturbed at h
  split
  · rfl
  · rfl
  · next heq => simp [heq] at h

/-- The other writer touches nothing but the object under the path. -/
theorem get?_letIn_of_ne {cluster : Cluster} {path other : String} (h : path ≠ other) :
    (cluster.letIn path).objects.get? other = cluster.objects.get? other := by
  unfold letIn
  split
  · rfl
  · rfl
  · dsimp only
    split
    · rfl
    · rw [StringMap.get?_set, if_neg h]

theorem edits_letIn_of_ne {cluster : Cluster} {path other : String} (h : path ≠ other) :
    (cluster.letIn path).edits.get? other = cluster.edits.get? other := by
  unfold letIn
  split
  · rfl
  · rfl
  · exact (StringMap.get?_set ..).trans (if_neg h)

theorem faults_letIn (cluster : Cluster) (path : String) :
    (cluster.letIn path).faults = cluster.faults := by
  unfold letIn
  split <;> rfl

/-! ## What each operation comes to -/

/-- A creation fails and changes nothing, or stores an object where there was none. -/
theorem create_cases (cluster : Cluster) (object : Resource kind) :
    (∃ e, cluster.create object = (.error e, cluster)) ∨
      cluster.objects.get? object.path = none ∧
        cluster.create object =
          (.ok (cluster.created object), cluster.put object.path (cluster.created object)) := by
  unfold create
  split
  · exact Or.inl ⟨_, rfl⟩
  · next h => exact Or.inr ⟨by simpa [StringMap.contains] using h, rfl⟩

/-- Where there is no object, one is created. -/
theorem create_of_absent {cluster : Cluster} {object : Resource kind}
    (h : cluster.objects.get? object.path = none) :
    cluster.create object =
      (.ok (cluster.created object), cluster.put object.path (cluster.created object)) := by
  simp [create, StringMap.contains, h]

/-- Where there is an object, none is created. -/
theorem create_of_present {cluster : Cluster} {object : Resource kind} {stored : AnyResource}
    (h : cluster.objects.get? object.path = some stored) :
    cluster.create object = (.error (refused 409 "AlreadyExists"), cluster) := by
  simp [create, StringMap.contains, h]

/-- The cluster once an object has given way to its next form: a deleted object without finalizers
is gone, any other is stored. -/
def settled (cluster : Cluster) (path : String) (next : Resource kind) : Cluster :=
  if next.metadata.isDeleted && next.metadata.finalizers.isEmpty then
    { cluster.remove path with revision := cluster.revision + 1 }
  else cluster.put path next

theorem settled_of_live {cluster : Cluster} {path : String} {next : Resource kind}
    (h : next.metadata.isDeleted = false) : cluster.settled path next = cluster.put path next := by
  unfold settled
  rw [h]
  rfl

/-- A replacement fails and changes nothing, or names the version of the object that is there, and
that object gives way. -/
theorem replace_cases (cluster : Cluster) (object : Resource kind) :
    (∃ e, cluster.replace object = (.error e, cluster)) ∨
      ∃ current, cluster.find? kind object.path = some current ∧
        isOutdated current object = false ∧
        cluster.replace object =
          (.ok (cluster.replaced current object),
            cluster.settled object.path (cluster.replaced current object)) := by
  unfold replace
  split
  · exact Or.inl ⟨_, rfl⟩
  · next current hfind =>
    split
    · exact Or.inl ⟨_, rfl⟩
    · next hout =>
      refine Or.inr ⟨current, hfind, by simpa using hout, ?_⟩
      unfold settled
      split <;> next hgone =>
        simp only [hgone]
        rfl

/-- A deletion finds no object, or removes or marks the one it finds; one that is marked already
stays as it is. -/
theorem delete_cases (cluster : Cluster) (kind : Kind) (key : ObjectKey) :
    (cluster.find? kind (key.path kind) = none ∧
      cluster.delete kind key = (.error (refused 404 "NotFound"), cluster)) ∨
    ∃ current, cluster.find? kind (key.path kind) = some current ∧
      ((current.metadata.finalizers.isEmpty = true ∧
          cluster.delete kind key = (.ok (), cluster.remove (key.path kind))) ∨
        (current.metadata.isDeleted = true ∧ cluster.delete kind key = (.ok (), cluster)) ∨
        (current.metadata.isDeleted = false ∧
          cluster.delete kind key =
            (.ok (), cluster.put (key.path kind) (cluster.marked current)))) := by
  unfold delete
  split
  · next hfind => exact Or.inl ⟨hfind, rfl⟩
  · next current hfind =>
    refine Or.inr ⟨current, hfind, ?_⟩
    split
    · next hfin => exact Or.inl ⟨hfin, rfl⟩
    · split
      · next hdel => exact Or.inr (Or.inl ⟨hdel, rfl⟩)
      · next hdel => exact Or.inr (Or.inr ⟨by simpa using hdel, rfl⟩)

/-! ## What each call comes to -/

theorem serve_eq (request : Request) (cluster : Cluster) :
    serve request cluster =
      match (cluster.note request.call).1 with
      | some e => (struckAnswer e request, (cluster.note request.call).2)
      | none => (cluster.note request.call).2.answer request := by
  unfold serve
  rcases cluster.note request.call with ⟨_ | e, after⟩ <;> rfl

@[simp] theorem serve_get_snd (kind : Kind) (key : ObjectKey) (cluster : Cluster) :
    (serve (.get kind key) cluster).2 = (cluster.note (Request.get kind key).call).2 := by
  rw [serve_eq]
  split <;> rfl

@[simp] theorem serve_list_snd (kind : Kind) (namespaceName? : Option String)
    (cluster : Cluster) :
    (serve (.list kind namespaceName?) cluster).2 =
      (cluster.note (Request.list kind namespaceName?).call).2 := by
  rw [serve_eq]
  split <;> rfl

@[simp] theorem serve_get_objects (kind : Kind) (key : ObjectKey) (cluster : Cluster) :
    (serve (.get kind key) cluster).2.objects = cluster.objects := by
  rw [serve_get_snd, note_objects]

@[simp] theorem serve_list_objects (kind : Kind) (namespaceName? : Option String)
    (cluster : Cluster) :
    (serve (.list kind namespaceName?) cluster).2.objects = cluster.objects := by
  rw [serve_list_snd, note_objects]

/-- What a look-up finds is stored. -/
theorem find?_of_serve_get {cluster : Cluster} {key : ObjectKey} {object : Resource kind}
    (h : (serve (.get kind key) cluster).1 = .ok (some object)) :
    cluster.find? kind (key.path kind) = some object := by
  rw [serve_eq] at h
  split at h
  · next e _ =>
    by_cases hfailure : e.failure = .notFound <;> simp [struckAnswer, hfailure] at h
  · exact Except.ok.inj h

/-- A look-up that finds nothing: there is nothing, or a fault says so. -/
theorem serve_get_none {cluster : Cluster} {key : ObjectKey}
    (h : (serve (.get kind key) cluster).1 = .ok none) :
    cluster.find? kind (key.path kind) = none ∨
      ∃ e, (cluster.note (Request.get kind key).call).1 = some e ∧ e.failure = .notFound := by
  rw [serve_eq] at h
  split at h
  · next e hnote =>
    by_cases hfailure : e.failure = .notFound
    · exact Or.inr ⟨e, hnote, hfailure⟩
    · simp [struckAnswer, hfailure] at h
  · exact Or.inl (Except.ok.inj h)

/-- What a list holds is stored. -/
theorem listed_of_serve_list {cluster : Cluster} {namespaceName? : Option String}
    {objects : List (Resource kind)}
    (h : (serve (.list kind namespaceName?) cluster).1 = .ok objects) :
    objects = cluster.listed kind namespaceName? := by
  rw [serve_eq] at h
  split at h
  · exact absurd h (by simp [struckAnswer])
  · exact (Except.ok.inj h).symm

theorem serve_create (cluster : Cluster) (object : Resource kind) :
    (∃ e, serve (.create kind object) cluster =
      (.error e, (cluster.note (Request.create kind object).call).2)) ∨
    cluster.objects.get? object.path = none ∧
      serve (.create kind object) cluster =
        (.ok (cluster.created object),
          (cluster.note (Request.create kind object).call).2.put object.path
            (cluster.created object)) := by
  rw [serve_eq]
  split
  · next e _ => exact Or.inl ⟨e, rfl⟩
  · exact create_cases (cluster.note (Request.create kind object).call).2 object

/-- A replacement is struck by a fault, or it comes after the other writer that waits for it. -/
theorem serve_replace (cluster : Cluster) (object : Resource kind) :
    (∃ e, serve (.replace kind object) cluster =
      (.error e, (cluster.note (Request.replace kind object).call).2)) ∨
    serve (.replace kind object) cluster =
      ((cluster.note (Request.replace kind object).call).2.letIn object.path).replace object := by
  rw [serve_eq]
  split
  · next e _ => exact Or.inl ⟨e, rfl⟩
  · exact Or.inr rfl

theorem serve_delete (cluster : Cluster) (kind : Kind) (key : ObjectKey) :
    (∃ e, (cluster.note (Request.delete kind key).call).1 = some e ∧
      serve (.delete kind key) cluster =
        (.error e, (cluster.note (Request.delete kind key).call).2)) ∨
    serve (.delete kind key) cluster =
      (cluster.note (Request.delete kind key).call).2.delete kind key := by
  rw [serve_eq]
  split
  · next e hnote => exact Or.inl ⟨e, hnote, rfl⟩
  · exact Or.inr rfl

/-! ## Frames -/

theorem edits_settled (cluster : Cluster) (path : String) (next : Resource kind) :
    (cluster.settled path next).edits = cluster.edits := by
  unfold settled
  split <;> rfl

theorem faults_settled (cluster : Cluster) (path : String) (next : Resource kind) :
    (cluster.settled path next).faults = cluster.faults := by
  unfold settled
  split <;> rfl

theorem get?_settled_of_ne {cluster : Cluster} {path other : String} {next : Resource kind}
    (h : path ≠ other) :
    (cluster.settled path next).objects.get? other = cluster.objects.get? other := by
  unfold settled
  split
  · exact (StringMap.get?_erase ..).trans (if_neg h)
  · exact (StringMap.get?_set ..).trans (if_neg h)

/-- A call leaves every object as it is that is not under its target. -/
theorem get?_serve_of_ne {request : Request} {cluster : Cluster} {path : String}
    (h : request.target? ≠ some path) :
    (serve request cluster).2.objects.get? path = cluster.objects.get? path := by
  cases request with
  | get kind key => rw [serve_get_objects]
  | list kind namespaceName? => rw [serve_list_objects]
  | create kind object =>
    have hne : object.path ≠ path := fun heq => h (congrArg some heq)
    rcases serve_create cluster object with ⟨e, heq⟩ | ⟨_, heq⟩ <;> rw [heq]
    · rfl
    · exact (StringMap.get?_set ..).trans (if_neg hne)
  | replace kind object =>
    have hne : object.path ≠ path := fun heq => h (congrArg some heq)
    rcases serve_replace cluster object with ⟨e, heq⟩ | heq <;> rw [heq]
    · rfl
    · rcases replace_cases ((cluster.note (Request.replace kind object).call).2.letIn object.path)
        object with ⟨e, heq⟩ | ⟨current, _, _, heq⟩ <;> rw [heq]
      · exact get?_letIn_of_ne hne
      · exact (get?_settled_of_ne hne).trans (get?_letIn_of_ne hne)
  | delete kind key =>
    have hne : key.path kind ≠ path := fun heq => h (congrArg some heq)
    rcases serve_delete cluster kind key with ⟨e, _, heq⟩ | heq <;> rw [heq]
    · rfl
    · rcases delete_cases (cluster.note (Request.delete kind key).call).2 kind key with
        ⟨_, heq⟩ | ⟨current, _, ⟨_, heq⟩ | ⟨_, heq⟩ | ⟨_, heq⟩⟩ <;> rw [heq]
      · rfl
      · exact (StringMap.get?_erase ..).trans (if_neg hne)
      · rfl
      · exact (StringMap.get?_set ..).trans (if_neg hne)

/-- Only a replacement lets another writer in. -/
theorem edits_serve {request : Request} (cluster : Cluster)
    (h : ∀ kind (object : Resource kind), request ≠ .replace kind object) :
    (serve request cluster).2.edits = cluster.edits := by
  cases request with
  | get kind key => rw [serve_get_snd, note_edits]
  | list kind namespaceName? => rw [serve_list_snd, note_edits]
  | create kind object =>
    rcases serve_create cluster object with ⟨e, heq⟩ | ⟨_, heq⟩ <;> rw [heq] <;> rfl
  | replace kind object => exact absurd rfl (h kind object)
  | delete kind key =>
    rcases serve_delete cluster kind key with ⟨e, _, heq⟩ | heq <;> rw [heq]
    · rfl
    · rcases delete_cases (cluster.note (Request.delete kind key).call).2 kind key with
        ⟨_, heq⟩ | ⟨current, _, ⟨_, heq⟩ | ⟨_, heq⟩ | ⟨_, heq⟩⟩ <;> rw [heq] <;> rfl

/-- Where no other writer waits, none waits after a call. -/
theorem IsUndisturbed.serve {cluster : Cluster} {path : String} (h : cluster.IsUndisturbed path)
    (request : Request) : (Cluster.serve request cluster).2.IsUndisturbed path := by
  unfold IsUndisturbed
  cases request with
  | replace kind object =>
    rcases serve_replace cluster object with ⟨e, heq⟩ | heq <;> rw [heq]
    · exact h
    · have hlet : ((cluster.note (Request.replace kind object).call).2.letIn
          object.path).IsUndisturbed path := by
        by_cases hpath : object.path = path
        · rw [letIn_eq_self (cluster.note _).2 (hpath ▸ h)]
          exact h
        · unfold IsUndisturbed
          rw [edits_letIn_of_ne hpath]
          exact h
      rcases replace_cases ((cluster.note (Request.replace kind object).call).2.letIn object.path)
        object with ⟨e, heq⟩ | ⟨current, _, _, heq⟩ <;> rw [heq]
      · exact hlet
      · rw [edits_settled]
        exact hlet
  | _ =>
    rw [edits_serve cluster (by simp)]
    exact h

/-- A call that fails changes no object, unless it lets another writer in. -/
theorem objects_of_serve_error {request : Request} {cluster : Cluster}
    (h : ∀ kind (object : Resource kind), request = .replace kind object →
      cluster.IsUndisturbed object.path) {e : OperatorError}
    (herror : (serve request cluster).1 = .error e) :
    (serve request cluster).2.objects = cluster.objects := by
  cases request with
  | get kind key => rw [serve_get_objects]
  | list kind namespaceName? => rw [serve_list_objects]
  | create kind object =>
    rcases serve_create cluster object with ⟨e, heq⟩ | ⟨_, heq⟩
    · rw [heq, note_objects]
    · simp [heq] at herror
  | replace kind object =>
    rcases serve_replace cluster object with ⟨e, heq⟩ | heq
    · rw [heq, note_objects]
    · rw [letIn_eq_self (cluster.note _).2 (h kind object rfl)] at heq
      rcases replace_cases (cluster.note (Request.replace kind object).call).2 object with
        ⟨e, hreplace⟩ | ⟨current, _, _, hreplace⟩ <;> rw [hreplace] at heq
      · rw [heq, note_objects]
      · simp [heq] at herror
  | delete kind key =>
    rcases serve_delete cluster kind key with ⟨e, _, heq⟩ | heq
    · rw [heq, note_objects]
    · rcases delete_cases (cluster.note (Request.delete kind key).call).2 kind key with
        ⟨_, hdelete⟩ | ⟨current, _, ⟨_, hdelete⟩ | ⟨_, hdelete⟩ | ⟨_, hdelete⟩⟩ <;>
        rw [hdelete] at heq
      · rw [heq, note_objects]
      all_goals simp [heq] at herror

/-! ## Where no other writer waits -/

/-- A replacement fails and changes nothing, or the object that is there gives way. -/
theorem serve_replace_undisturbed {cluster : Cluster} {object : Resource kind}
    (h : cluster.IsUndisturbed object.path) :
    (∃ e, serve (.replace kind object) cluster =
      (.error e, (cluster.note (Request.replace kind object).call).2)) ∨
    ∃ current, cluster.find? kind object.path = some current ∧
      isOutdated current object = false ∧
      serve (.replace kind object) cluster =
        (.ok ((cluster.note (Request.replace kind object).call).2.replaced current object),
          (cluster.note (Request.replace kind object).call).2.settled object.path
            ((cluster.note (Request.replace kind object).call).2.replaced current object)) := by
  rcases serve_replace cluster object with ⟨e, heq⟩ | heq
  · exact Or.inl ⟨e, heq⟩
  rw [letIn_eq_self (cluster.note _).2 h] at heq
  rw [heq]
  exact replace_cases (cluster.note (Request.replace kind object).call).2 object

/-- What is stored after an object was put there: that object, and all others. -/
theorem find?_of_set {before after : Cluster} {path : String} {next : Resource kind}
    (h : after.objects = before.objects.set path ⟨kind, next⟩) (other : Kind) (path' : String)
    (object : Resource other) :
    after.find? other path' = some object ↔
      path = path' ∧ (⟨other, object⟩ : AnyResource) = ⟨kind, next⟩ ∨
        path ≠ path' ∧ before.find? other path' = some object := by
  rw [find?_eq_some, find?_eq_some, h, StringMap.get?_set]
  by_cases hpath : path = path' <;> simp [hpath, eq_comm]

theorem find?_of_erase {before after : Cluster} {path : String}
    (h : after.objects = before.objects.erase path) (other : Kind) (path' : String)
    (object : Resource other) :
    after.find? other path' = some object ↔
      path ≠ path' ∧ before.find? other path' = some object := by
  rw [find?_eq_some, find?_eq_some, h, StringMap.get?_erase]
  by_cases hpath : path = path' <;> simp [hpath]

/-! ## Faults -/

/-- Whether no fault makes an object seem to be missing. -/
def HidesNothing (cluster : Cluster) : Prop :=
  ∀ fault ∈ cluster.faults, fault.code ≠ 404

/-- Whether no fault that is left to strike makes an object seem to be missing. -/
def IsTruthful (cluster : Cluster) : Prop :=
  ∀ fault ∈ cluster.faults, 0 < fault.remaining → fault.code ≠ 404

theorem HidesNothing.isTruthful {cluster : Cluster} (h : cluster.HidesNothing) :
    cluster.IsTruthful :=
  fun fault hmem _ => h fault hmem

theorem strike_fst (call : Call) {faults : List Fault} {e : OperatorError}
    (h : (strike call faults).1 = some e) :
    ∃ fault ∈ faults, 0 < fault.remaining ∧ e = refused fault.code fault.reason := by
  induction faults with
  | nil => simp [strike] at h
  | cons fault rest ih =>
    rw [strike] at h
    split at h
    · next hstrikes =>
      exact ⟨fault, List.mem_cons_self .., hstrikes.2, (Option.some.inj h).symm⟩
    · obtain ⟨other, hmem, heq⟩ := ih h
      exact ⟨other, List.mem_cons_of_mem _ hmem, heq⟩

/-- A fault that is left was there before, perhaps with more strikes. -/
theorem strike_snd (call : Call) {faults : List Fault} {fault : Fault}
    (h : fault ∈ (strike call faults).2) :
    ∃ old ∈ faults, old.code = fault.code ∧ fault.remaining ≤ old.remaining := by
  induction faults with
  | nil => simp [strike] at h
  | cons head rest ih =>
    rw [strike] at h
    split at h
    · rcases List.mem_cons.1 h with rfl | hmem
      · exact ⟨head, List.mem_cons_self .., rfl, Nat.sub_le ..⟩
      · exact ⟨fault, List.mem_cons_of_mem _ hmem, rfl, Nat.le_refl _⟩
    · rcases List.mem_cons.1 h with rfl | hmem
      · exact ⟨fault, List.mem_cons_self .., rfl, Nat.le_refl _⟩
      · obtain ⟨old, hold, heq⟩ := ih hmem
        exact ⟨old, List.mem_cons_of_mem _ hold, heq⟩

theorem failure_refused {code : Nat} {reason : String} :
    (refused code reason).failure = .notFound ↔ code = 404 :=
  ApiStatus.failure_eq_notFound

theorem IsTruthful.failure_ne {cluster : Cluster} (h : cluster.IsTruthful) {call : Call}
    {e : OperatorError} (hnote : (cluster.note call).1 = some e) : e.failure ≠ .notFound := by
  obtain ⟨fault, hmem, hleft, rfl⟩ := strike_fst call hnote
  exact fun hfailure => h fault hmem hleft (failure_refused.1 hfailure)

theorem HidesNothing.note {cluster : Cluster} (h : cluster.HidesNothing) (call : Call) :
    (cluster.note call).2.HidesNothing := by
  intro fault hmem
  obtain ⟨old, hold, heq, _⟩ := strike_snd call hmem
  exact heq ▸ h old hold

theorem faults_serve (request : Request) (cluster : Cluster) :
    (serve request cluster).2.faults = (cluster.note request.call).2.faults := by
  cases request with
  | get kind key => rw [serve_get_snd]
  | list kind namespaceName? => rw [serve_list_snd]
  | create kind object =>
    rcases serve_create cluster object with ⟨e, heq⟩ | ⟨_, heq⟩
    · rw [heq]
    · rw [heq]
      rfl
  | replace kind object =>
    rcases serve_replace cluster object with ⟨e, heq⟩ | heq <;> rw [heq]
    rcases replace_cases ((cluster.note (Request.replace kind object).call).2.letIn object.path)
      object with ⟨e, heq⟩ | ⟨current, _, _, heq⟩ <;> rw [heq]
    · exact faults_letIn ..
    · rw [faults_settled]
      exact faults_letIn ..
  | delete kind key =>
    rcases serve_delete cluster kind key with ⟨e, _, heq⟩ | heq <;> rw [heq]
    rcases delete_cases (cluster.note (Request.delete kind key).call).2 kind key with
      ⟨_, heq⟩ | ⟨current, _, ⟨_, heq⟩ | ⟨_, heq⟩ | ⟨_, heq⟩⟩ <;> rw [heq] <;> rfl

theorem HidesNothing.serve {cluster : Cluster} (h : cluster.HidesNothing) (request : Request) :
    (serve request cluster).2.HidesNothing := by
  unfold HidesNothing
  rw [faults_serve]
  exact h.note request.call

theorem IsTruthful.serve {cluster : Cluster} (h : cluster.IsTruthful) (request : Request) :
    (Cluster.serve request cluster).2.IsTruthful := by
  unfold IsTruthful
  rw [faults_serve]
  intro fault hmem hleft
  obtain ⟨old, hold, heq, hle⟩ := strike_snd request.call hmem
  exact heq ▸ h old hold (by omega)

/-- Where no fault hides anything, a deletion finds nothing only where nothing is. -/
theorem HidesNothing.find?_of_serve_delete {cluster : Cluster} (h : cluster.HidesNothing)
    {key : ObjectKey} {e : OperatorError}
    (herror : (Cluster.serve (.delete kind key) cluster).1 = .error e)
    (hfailure : e.failure = .notFound) : cluster.find? kind (key.path kind) = none := by
  rcases serve_delete cluster kind key with ⟨struck, hnote, heq⟩ | heq
  · rw [heq] at herror
    obtain rfl := Except.error.inj herror
    exact absurd hfailure (h.isTruthful.failure_ne hnote)
  · rcases delete_cases (cluster.note (Request.delete kind key).call).2 kind key with
      ⟨hnone, _⟩ | ⟨current, _, ⟨_, hdelete⟩ | ⟨_, hdelete⟩ | ⟨_, hdelete⟩⟩
    · exact hnone
    all_goals
      rw [heq, hdelete] at herror
      simp at herror

/-- Where no fault hides anything, a look-up finds nothing only where nothing is. -/
theorem IsTruthful.find?_of_serve_get {cluster : Cluster} (h : cluster.IsTruthful)
    {key : ObjectKey} (hget : (Cluster.serve (.get kind key) cluster).1 = .ok none) :
    cluster.find? kind (key.path kind) = none := by
  rcases serve_get_none hget with hfind | ⟨e, hnote, hfailure⟩
  · exact hfind
  · exact absurd hfailure (h.failure_ne hnote)

/-- A call that fails was refused, with a code and a reason. -/
theorem refused_of_serve_error {request : Request} {cluster : Cluster} {e : OperatorError}
    (h : (serve request cluster).1 = .error e) : ∃ code reason, e = refused code reason := by
  rw [serve_eq] at h
  split at h
  · next struck hnote =>
    obtain ⟨fault, _, _, rfl⟩ := strike_fst request.call hnote
    cases request with
    | get kind key =>
      simp only [struckAnswer] at h
      split at h
      · cases h
      · exact ⟨_, _, (Except.error.inj h).symm⟩
    | _ => exact ⟨_, _, (Except.error.inj h).symm⟩
  · cases request with
    | get kind key => cases h
    | list kind namespaceName? => cases h
    | create kind object =>
      simp only [answer, create] at h
      split at h
      · exact ⟨_, _, (Except.error.inj h).symm⟩
      · cases h
    | replace kind object =>
      simp only [answer, replace] at h
      split at h
      · exact ⟨_, _, (Except.error.inj h).symm⟩
      · split at h
        · exact ⟨_, _, (Except.error.inj h).symm⟩
        · split at h <;> cases h
    | delete kind key =>
      simp only [answer, delete] at h
      split at h
      · exact ⟨_, _, (Except.error.inj h).symm⟩
      · split at h
        · cases h
        · split at h <;> cases h

/-! ## Without faults -/

/-- Whether no call is made to fail any more. -/
def IsFaultless (cluster : Cluster) : Prop :=
  ∀ fault ∈ cluster.faults, fault.remaining = 0

theorem strike_of_spent (call : Call) {faults : List Fault}
    (h : ∀ fault ∈ faults, fault.remaining = 0) : strike call faults = (none, faults) := by
  induction faults with
  | nil => rfl
  | cons fault rest ih =>
    obtain ⟨hspent, hrest⟩ := List.forall_mem_cons.1 h
    simp [strike, hspent, ih hrest]

theorem IsFaultless.note_eq {cluster : Cluster} (h : cluster.IsFaultless) (call : Call) :
    cluster.note call = (none, { cluster with calls := cluster.calls ++ [call] }) := by
  simp only [note, strike_of_spent call h]

theorem IsFaultless.serve {cluster : Cluster} (h : cluster.IsFaultless) (request : Request) :
    (Cluster.serve request cluster).2.IsFaultless := by
  unfold IsFaultless
  rw [faults_serve, h.note_eq]
  exact h

theorem IsFaultless.isTruthful {cluster : Cluster} (h : cluster.IsFaultless) :
    cluster.IsTruthful :=
  fun fault hmem hleft => absurd (h fault hmem) (by omega)

theorem IsFaultless.serve_eq {cluster : Cluster} (h : cluster.IsFaultless) (request : Request) :
    Cluster.serve request cluster = (cluster.note request.call).2.answer request := by
  rw [Cluster.serve_eq, h.note_eq]

end Cluster

end EdgeOperator
