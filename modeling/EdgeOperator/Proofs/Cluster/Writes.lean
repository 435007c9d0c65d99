import EdgeOperator.Proofs.Cluster.Versions
import Mathlib.Data.List.Induction

set_option autoImplicit false

/-! # The writes to a cluster

Whatever is done to a cluster comes to a list of writes, each of which stores an object under a path
or removes the one that is there. A replacement may come to two: another writer may be let in
before, and an object that goes is written for the last time.

The writes of a run account for all that its cluster holds, and the versions they give out ascend
(`accounts_performAll`). So what is stored under a path was stored by the last write to the path
(`Write.exists_last`), and no version is given out twice (`Accounts.nodup_versions`). -/

namespace EdgeOperator

/-! ## Writes -/

/-- One write to the objects of a cluster. -/
inductive Write where
  | stored (path : String) (object : AnyResource)
  | removed (path : String)

namespace Write

/-- The path that a write is to. -/
def path : Write → String
  | .stored path _ | .removed path => path

/-- The objects after a write. -/
def apply (objects : StringMap AnyResource) : Write → StringMap AnyResource
  | .stored path object => objects.set path object
  | .removed path => objects.erase path

/-- The objects after writes. -/
def applyAll (objects : StringMap AnyResource) (writes : List Write) : StringMap AnyResource :=
  writes.foldl apply objects

/-- The versions that writes give out. -/
def versions (writes : List Write) : List (Option String) :=
  writes.filterMap fun
    | .stored _ object => some object.metadata.resourceVersion?
    | .removed _ => none

@[simp] theorem applyAll_append (objects : StringMap AnyResource) (earlier later : List Write) :
    applyAll objects (earlier ++ later) = applyAll (applyAll objects earlier) later :=
  List.foldl_append

@[simp] theorem versions_append (earlier later : List Write) :
    versions (earlier ++ later) = versions earlier ++ versions later :=
  List.filterMap_append

theorem get?_apply_of_ne {objects : StringMap AnyResource} {write : Write} {path : String}
    (h : write.path ≠ path) : (apply objects write).get? path = objects.get? path := by
  cases write with
  | stored other object => exact (StringMap.get?_set ..).trans (if_neg h)
  | removed other => exact (StringMap.get?_erase ..).trans (if_neg h)

theorem get?_applyAll_of_ne {objects : StringMap AnyResource} {writes : List Write} {path : String}
    (h : ∀ write ∈ writes, write.path ≠ path) :
    (applyAll objects writes).get? path = objects.get? path := by
  induction writes generalizing objects with
  | nil => rfl
  | cons write rest ih =>
    obtain ⟨hwrite, hrest⟩ := List.forall_mem_cons.1 h
    exact (ih hrest).trans (get?_apply_of_ne hwrite)

theorem isSorted_apply {objects : StringMap AnyResource} (h : objects.IsSorted) (write : Write) :
    (apply objects write).IsSorted := by
  cases write with
  | stored path object => exact h.set path object
  | removed path => exact h.erase path

theorem isSorted_applyAll {objects : StringMap AnyResource} (h : objects.IsSorted)
    (writes : List Write) : (applyAll objects writes).IsSorted := by
  induction writes generalizing objects with
  | nil => exact h
  | cons write rest ih => exact ih (isSorted_apply h write)

/-- What is stored under a path in the end was there before, with no write to the path since, or was
stored by the last write to the path. -/
theorem exists_last {objects : StringMap AnyResource} {writes : List Write} {path : String}
    {object : AnyResource} (h : (applyAll objects writes).get? path = some object) :
    (objects.get? path = some object ∧ ∀ write ∈ writes, write.path ≠ path) ∨
      ∃ earlier later, writes = earlier ++ .stored path object :: later ∧
        ∀ write ∈ later, write.path ≠ path := by
  induction writes using List.reverseRecOn with
  | nil => exact Or.inl ⟨h, by simp⟩
  | append_singleton front write ih =>
    rw [applyAll_append] at h
    by_cases hpath : write.path = path
    · refine Or.inr ⟨front, [], ?_, by simp⟩
      subst hpath
      cases write with
      | stored path new =>
        have hnew : some new = some object :=
          ((StringMap.get?_set ..).trans (if_pos rfl)).symm.trans h
        rw [Option.some.inj hnew]
        rfl
      | removed path =>
        exact absurd (((StringMap.get?_erase ..).trans (if_pos rfl)).symm.trans h) (by simp)
    · have hlast : ∀ write' ∈ [write], write'.path ≠ path := by simpa using hpath
      rcases ih ((get?_apply_of_ne hpath).symm.trans h) with
        ⟨hget, hfront⟩ | ⟨earlier, later, rfl, hlater⟩
      · exact Or.inl ⟨hget, List.forall_mem_append.2 ⟨hfront, hlast⟩⟩
      · exact Or.inr ⟨earlier, later ++ [write], by simp,
          List.forall_mem_append.2 ⟨hlater, hlast⟩⟩

/-- A version that is given out once more was given out twice. -/
theorem not_nodup_versions {front between back : List Write} {path path' : String}
    {object object' : AnyResource}
    (h : object.metadata.resourceVersion? = object'.metadata.resourceVersion?) :
    ¬ (versions
        (front ++ .stored path object :: (between ++ .stored path' object' :: back))).Nodup := by
  have hlater : object'.metadata.resourceVersion? ∈
      versions (between ++ .stored path' object' :: back) := by
    rw [versions_append]
    exact List.mem_append_right _ (List.mem_cons_self ..)
  rw [versions_append]
  intro hnodup
  exact (List.nodup_cons.1 (List.nodup_append.1 hnodup).2.1).1 (h ▸ hlater)

/-- Where no version is given out twice, a version tells the write that gave it out. -/
theorem eq_of_version {earlier later earlier' later' : List Write} {path path' : String}
    {object object' : AnyResource} (h : (versions (earlier ++ .stored path object :: later)).Nodup)
    (heq : earlier ++ .stored path object :: later = earlier' ++ .stored path' object' :: later')
    (hversion : object.metadata.resourceVersion? = object'.metadata.resourceVersion?) :
    earlier = earlier' ∧ path = path' ∧ object = object' ∧ later = later' := by
  rcases List.append_eq_append_iff.1 heq with ⟨between, hfront, hback⟩ | ⟨between, hfront, hback⟩
  · cases between with
    | nil =>
      obtain ⟨hwrite, rfl⟩ := List.cons.inj hback
      obtain ⟨rfl, rfl⟩ := Write.stored.inj hwrite
      exact ⟨by simpa using hfront.symm, rfl, rfl, rfl⟩
    | cons write between =>
      obtain ⟨rfl, rfl⟩ := List.cons.inj hback
      exact absurd h (not_nodup_versions hversion)
  · cases between with
    | nil =>
      obtain ⟨hwrite, rfl⟩ := List.cons.inj hback
      obtain ⟨rfl, rfl⟩ := Write.stored.inj hwrite
      exact ⟨by simpa using hfront, rfl, rfl, rfl⟩
    | cons write between =>
      obtain ⟨rfl, rfl⟩ := List.cons.inj hback
      rw [heq] at h
      exact absurd h (not_nodup_versions hversion.symm)

end Write

/-! ## What is done to a cluster -/

/-- What is done to a cluster: a call, or what may be arranged for tests. An object is seeded under
a key that is free, and marked as deleted where it is stored. -/
inductive Deed where
  | call (request : Request)
  | seed (kind : Kind) (object : Resource kind)
  | markDeleted (kind : Kind) (key : ObjectKey)
  | fail (call : Call) (code : Nat) (reason : String) (times : Nat)
  | beforeReplace (path : String) (edit : Edit)
  | clock (now : Timestamp)

namespace Cluster

variable {kind : Kind} {cluster : Cluster}

/-- The cluster after a deed. -/
def perform (cluster : Cluster) : Deed → Cluster
  | .call request => (serve request cluster).2
  | .seed _ object => (cluster.create object).2
  | .markDeleted kind key => (cluster.markDeleted? kind key).getD cluster
  | .fail call code reason times => cluster.fail call code reason times
  | .beforeReplace path edit => cluster.beforeReplace path edit
  | .clock now => { cluster with now := now }

/-- The cluster after deeds. -/
def performAll (cluster : Cluster) (deeds : List Deed) : Cluster :=
  deeds.foldl perform cluster

theorem performAll_append (cluster : Cluster) (earlier later : List Deed) :
    cluster.performAll (earlier ++ later) = (cluster.performAll earlier).performAll later :=
  List.foldl_append

/-- Whoever waits after deeds has waited before them or was arranged by one of them. -/
theorem AllWaiting.performAll {property : String → Edit → Prop} (h : cluster.AllWaiting property)
    {deeds : List Deed}
    (hedits : ∀ path edit, .beforeReplace path edit ∈ deeds → property path edit) :
    (cluster.performAll deeds).AllWaiting property := by
  induction deeds generalizing cluster with
  | nil => exact h
  | cons deed rest ih =>
    refine ih ?_ fun path edit hmem => hedits path edit (List.mem_cons_of_mem _ hmem)
    cases deed with
    | call request => exact h.serve request
    | seed kind object =>
      simp only [perform]
      rcases create_cases cluster object with ⟨e, heq⟩ | ⟨_, heq⟩ <;> rw [heq] <;> exact h
    | markDeleted kind key =>
      simp only [perform, markDeleted?]
      cases cluster.find? kind (key.path kind) <;> exact h
    | fail call code reason times => exact h
    | beforeReplace path edit => exact h.beforeReplace (hedits path edit (List.mem_cons_self ..))
    | clock now => exact h

/-! ## The writes of each operation -/

/-- The writes of a creation. -/
def creation (cluster : Cluster) (object : Resource kind) : List Write :=
  match (cluster.create object).1 with
  | .ok stored => [.stored object.path ⟨kind, stored.wholeSeconds⟩]
  | .error _ => []

/-- The write of the other writer that is let in under a path, if one waits and finds an object. -/
def intrusion (cluster : Cluster) (path : String) : List Write :=
  match cluster.edits.get? path, cluster.objects.get? path with
  | some (edit :: _), some ⟨kind, object⟩ =>
    [.stored path ⟨kind, object.edited edit cluster.nextVersion⟩]
  | _, _ => []

/-- The writes by which an object gives way to its next form: one that is deleted and has no
finalizers is written for the last time before it goes. -/
def settlement (path : String) (next : Resource kind) : List Write :=
  .stored path ⟨kind, next.wholeSeconds⟩ ::
    if next.metadata.isDeleted && next.metadata.finalizers.isEmpty then [.removed path] else []

/-- The writes of a replacement. -/
def replacement (cluster : Cluster) (object : Resource kind) : List Write :=
  match (cluster.replace object).1 with
  | .ok next => settlement object.path next
  | .error _ => []

/-- The write that marks the object under a key as deleted. -/
def marking (cluster : Cluster) (kind : Kind) (key : ObjectKey) : List Write :=
  match cluster.find? kind (key.path kind) with
  | some current => [.stored (key.path kind) ⟨kind, (cluster.marked current).wholeSeconds⟩]
  | none => []

/-- The writes of a deletion. -/
def deletion (cluster : Cluster) (kind : Kind) (key : ObjectKey) : List Write :=
  match cluster.find? kind (key.path kind) with
  | some current =>
    if current.metadata.finalizers.isEmpty then [.removed (key.path kind)]
    else if current.metadata.isDeleted then []
    else cluster.marking kind key
  | none => []

/-- The writes of a call that no fault strikes. -/
def writesOfAnswer (cluster : Cluster) : Request → List Write
  | .get _ _ | .list _ _ => []
  | .create _ object => cluster.creation object
  | .replace _ object =>
    cluster.intrusion object.path ++ (cluster.letIn object.path).replacement object
  | .delete kind key => cluster.deletion kind key

/-- The writes of a call. -/
def writesOfCall (cluster : Cluster) (request : Request) : List Write :=
  match cluster.note request.call with
  | (some _, _) => []
  | (none, cluster) => cluster.writesOfAnswer request

/-- The writes of a deed. -/
def writes (cluster : Cluster) : Deed → List Write
  | .call request => cluster.writesOfCall request
  | .seed _ object => cluster.creation object
  | .markDeleted kind key => cluster.marking kind key
  | .fail _ _ _ _ | .beforeReplace _ _ | .clock _ => []

/-- The writes of deeds, in the order in which they are made. -/
def ledger (cluster : Cluster) : List Deed → List Write
  | [] => []
  | deed :: rest => cluster.writes deed ++ (cluster.perform deed).ledger rest

theorem ledger_append (cluster : Cluster) (earlier later : List Deed) :
    cluster.ledger (earlier ++ later) =
      cluster.ledger earlier ++ (cluster.performAll earlier).ledger later := by
  induction earlier generalizing cluster with
  | nil => rfl
  | cons deed rest ih => simp [ledger, performAll, ih]

/-! ## Writes account for changes -/

/-- Whether writes account for all that has changed between two clusters: they make the objects of
the one into those of the other, keep whole seconds only, and give out versions in ascending order
that had not been given out before. -/
structure Accounts (writes : List Write) (before after : Cluster) : Prop where
  objects_eq : after.objects = Write.applyAll before.objects writes
  whole : ∀ path object, .stored path object ∈ writes →
    object.resource.wholeSeconds = object.resource
  revision_le : before.revision ≤ after.revision
  ascending : ∃ numbers : List Nat, numbers.Pairwise (· < ·) ∧
    (∀ n ∈ numbers, before.revision < n ∧ n ≤ after.revision) ∧
      Write.versions writes = numbers.map fun n => some (toString n)

theorem accounts_nil {before after : Cluster} (hobjects : after.objects = before.objects)
    (hrevision : before.revision ≤ after.revision) : Accounts [] before after where
  objects_eq := hobjects
  whole := by simp
  revision_le := hrevision
  ascending := ⟨[], .nil, by simp, rfl⟩

theorem Accounts.append {earlier later : List Write} {before between after : Cluster}
    (h : Accounts earlier before between) (h' : Accounts later between after) :
    Accounts (earlier ++ later) before after where
  objects_eq := by rw [h'.objects_eq, h.objects_eq, Write.applyAll_append]
  whole path object hmem :=
    (List.mem_append.1 hmem).elim (h.whole path object) (h'.whole path object)
  revision_le := h.revision_le.trans h'.revision_le
  ascending := by
    have hle := h.revision_le
    have hle' := h'.revision_le
    obtain ⟨numbers, hascending, hbounds, hversions⟩ := h.ascending
    obtain ⟨numbers', hascending', hbounds', hversions'⟩ := h'.ascending
    refine ⟨numbers ++ numbers', List.pairwise_append.2 ⟨hascending, hascending', ?_⟩, ?_, ?_⟩
    · intro n hn n' hn'
      have := (hbounds n hn).2
      have := (hbounds' n' hn').1
      omega
    · intro n hn
      rcases List.mem_append.1 hn with hn | hn
      · have := hbounds n hn
        omega
      · have := hbounds' n hn
        omega
    · rw [Write.versions_append, hversions, hversions', List.map_append]

theorem accounts_stored {before after : Cluster} {path : String} {object : AnyResource}
    (hwhole : object.resource.wholeSeconds = object.resource)
    (hversion : object.metadata.resourceVersion? = some before.nextVersion)
    (hobjects : after.objects = before.objects.set path object)
    (hrevision : before.revision < after.revision) :
    Accounts [.stored path object] before after where
  objects_eq := hobjects
  whole _ _ hmem := by
    obtain ⟨rfl, rfl⟩ := Write.stored.inj (List.mem_singleton.1 hmem)
    exact hwhole
  revision_le := hrevision.le
  ascending := ⟨[before.revision + 1], List.pairwise_singleton _ _,
    by simpa using Nat.succ_le_of_lt hrevision, congrArg (fun version => [version]) hversion⟩

theorem accounts_removed {before after : Cluster} {path : String}
    (hobjects : after.objects = before.objects.erase path)
    (hrevision : before.revision ≤ after.revision) : Accounts [.removed path] before after where
  objects_eq := hobjects
  whole _ _ hmem := by simp at hmem
  revision_le := hrevision
  ascending := ⟨[], .nil, by simp, rfl⟩

theorem accounts_put (cluster : Cluster) (path : String) {object : Resource kind}
    (hversion : object.metadata.resourceVersion? = some cluster.nextVersion) :
    Accounts [.stored path ⟨kind, object.wholeSeconds⟩] cluster (cluster.put path object) :=
  accounts_stored object.wholeSeconds_idem hversion rfl (Nat.lt_succ_self _)

/-! ## The writes of each operation account for it -/

theorem accounts_create (cluster : Cluster) (object : Resource kind) :
    Accounts (cluster.creation object) cluster (cluster.create object).2 := by
  unfold creation
  rcases create_cases cluster object with ⟨e, heq⟩ | ⟨_, heq⟩ <;> rw [heq]
  · exact accounts_nil rfl le_rfl
  · exact accounts_put cluster object.path rfl

theorem accounts_settled (cluster : Cluster) (path : String) {next : Resource kind}
    (hversion : next.metadata.resourceVersion? = some cluster.nextVersion) :
    Accounts (settlement path next) cluster (cluster.settled path next) := by
  have hput := accounts_put cluster path hversion
  unfold settlement settled
  split
  · -- the object is stored and removed at once
    have hremoved : Accounts [.removed path] (cluster.put path next)
        { cluster.remove path with revision := cluster.revision + 1 } :=
      accounts_removed (StringMap.erase_set _ _ _).symm le_rfl
    exact hput.append hremoved
  · exact hput

theorem accounts_replace (cluster : Cluster) (object : Resource kind) :
    Accounts (cluster.replacement object) cluster (cluster.replace object).2 := by
  unfold replacement
  rcases replace_cases cluster object with ⟨e, heq⟩ | ⟨current, _, _, heq⟩ <;> rw [heq]
  · exact accounts_nil rfl le_rfl
  · exact accounts_settled cluster object.path rfl

theorem accounts_letIn (cluster : Cluster) (path : String) :
    Accounts (cluster.intrusion path) cluster (cluster.letIn path) := by
  unfold intrusion letIn
  split
  · next edit rest kind object hedits hobject =>
    simp only [hedits, hobject]
    refine accounts_stored ?_ rfl rfl (Nat.lt_succ_self _)
    exact congrArg (fun r : Resource kind => Resource.mk
      { r.metadata with resourceVersion? := some cluster.nextVersion } r.content)
      (Resource.wholeSeconds_idem (edit kind object))
  · next hnone =>
    split
    · exact accounts_nil rfl le_rfl
    · exact accounts_nil rfl le_rfl
    · next edit rest hedits =>
      refine accounts_nil ?_ (Nat.le_succ _)
      cases hobject : cluster.objects.get? path with
      | none => rfl
      | some stored => exact absurd hobject (hnone edit rest stored.kind stored.resource hedits)

theorem accounts_marked {key : ObjectKey} {current : Resource kind}
    (hfind : cluster.find? kind (key.path kind) = some current) :
    Accounts (cluster.marking kind key) cluster
      (cluster.put (key.path kind) (cluster.marked current)) := by
  unfold marking
  rw [hfind]
  exact accounts_put cluster (key.path kind) rfl

theorem accounts_delete (cluster : Cluster) (kind : Kind) (key : ObjectKey) :
    Accounts (cluster.deletion kind key) cluster (cluster.delete kind key).2 := by
  unfold deletion delete
  cases hfind : cluster.find? kind (key.path kind) with
  | none => exact accounts_nil rfl le_rfl
  | some current =>
    dsimp only
    split
    · exact accounts_removed rfl le_rfl
    · split
      · exact accounts_nil rfl le_rfl
      · exact accounts_marked hfind

theorem accounts_markDeleted (cluster : Cluster) (kind : Kind) (key : ObjectKey) :
    Accounts (cluster.marking kind key) cluster
      ((cluster.markDeleted? kind key).getD cluster) := by
  unfold markDeleted?
  cases hfind : cluster.find? kind (key.path kind) with
  | none =>
    unfold marking
    rw [hfind]
    exact accounts_nil rfl le_rfl
  | some current => exact accounts_marked hfind

theorem accounts_answer (cluster : Cluster) (request : Request) :
    Accounts (cluster.writesOfAnswer request) cluster (cluster.answer request).2 := by
  cases request with
  | get kind key => exact accounts_nil rfl le_rfl
  | list kind namespaceName? => exact accounts_nil rfl le_rfl
  | create kind object => exact accounts_create cluster object
  | replace kind object =>
    exact (accounts_letIn cluster object.path).append (accounts_replace _ object)
  | delete kind key => exact accounts_delete cluster kind key

theorem accounts_serve (cluster : Cluster) (request : Request) :
    Accounts (cluster.writesOfCall request) cluster (serve request cluster).2 := by
  have hnoted : Accounts [] cluster (cluster.note request.call).2 := accounts_nil rfl le_rfl
  unfold writesOfCall serve
  rcases hnote : cluster.note request.call with ⟨_ | e, noted⟩ <;> rw [hnote] at hnoted
  · exact hnoted.append (accounts_answer noted request)
  · exact hnoted

theorem accounts_perform (cluster : Cluster) (deed : Deed) :
    Accounts (cluster.writes deed) cluster (cluster.perform deed) := by
  cases deed with
  | call request => exact accounts_serve cluster request
  | seed kind object => exact accounts_create cluster object
  | markDeleted kind key => exact accounts_markDeleted cluster kind key
  | fail call code reason times => exact accounts_nil rfl le_rfl
  | beforeReplace path edit => exact accounts_nil rfl le_rfl
  | clock now => exact accounts_nil rfl le_rfl

theorem accounts_performAll (cluster : Cluster) (deeds : List Deed) :
    Accounts (cluster.ledger deeds) cluster (cluster.performAll deeds) := by
  induction deeds generalizing cluster with
  | nil => exact accounts_nil rfl le_rfl
  | cons deed rest ih => exact (accounts_perform cluster deed).append (ih _)

/-! ## What writes say of the objects in the end -/

/-- What no write is to stays as it was. -/
theorem Accounts.get?_eq {writes : List Write} {before after : Cluster}
    (h : Accounts writes before after) {path : String}
    (hunwritten : ∀ write ∈ writes, write.path ≠ path) :
    after.objects.get? path = before.objects.get? path := by
  rw [h.objects_eq, Write.get?_applyAll_of_ne hunwritten]

theorem Accounts.nodup_versions {writes : List Write} {before after : Cluster}
    (h : Accounts writes before after) : (Write.versions writes).Nodup := by
  obtain ⟨numbers, hascending, _, hversions⟩ := h.ascending
  rw [hversions]
  refine List.Nodup.map (fun m n heq => version_inj heq) ?_
  exact hascending.imp fun hlt => Nat.ne_of_lt hlt

/-- Where there was nothing, an object that is stored was stored by a write. -/
theorem Accounts.exists_last {writes : List Write} {now : Timestamp} {after : Cluster}
    (h : Accounts writes { now := now } after) {path : String} {object : AnyResource}
    (hget : after.objects.get? path = some object) :
    ∃ earlier later, writes = earlier ++ .stored path object :: later ∧
      ∀ write ∈ later, write.path ≠ path := by
  rw [h.objects_eq] at hget
  rcases Write.exists_last hget with ⟨hnone, _⟩ | hlast
  · exact absurd hnone (by simp)
  · exact hlast

theorem Accounts.versioned {writes : List Write} {now : Timestamp} {after : Cluster}
    (h : Accounts writes { now := now } after) {path : String} {object : AnyResource}
    (hget : after.objects.get? path = some object) :
    ∃ n, 1 ≤ n ∧ n ≤ after.revision ∧ object.metadata.resourceVersion? = some (toString n) := by
  obtain ⟨earlier, later, rfl, _⟩ := h.exists_last hget
  obtain ⟨numbers, _, hbounds, hversions⟩ := h.ascending
  have hmem : object.metadata.resourceVersion? ∈
      Write.versions (earlier ++ .stored path object :: later) := by
    rw [Write.versions_append]
    exact List.mem_append_right _ (List.mem_cons_self ..)
  rw [hversions] at hmem
  obtain ⟨n, hn, hversion⟩ := List.mem_map.1 hmem
  exact ⟨n, (hbounds n hn).1, (hbounds n hn).2, hversion.symm⟩

/-- Where there was nothing, stored objects with one version were stored by one write. -/
theorem Accounts.path_eq_of_version {writes : List Write} {now : Timestamp} {after : Cluster}
    (h : Accounts writes { now := now } after) {path path' : String} {object object' : AnyResource}
    (hget : after.objects.get? path = some object) (hget' : after.objects.get? path' = some object')
    (hversion : object.metadata.resourceVersion? = object'.metadata.resourceVersion?) :
    path = path' := by
  obtain ⟨earlier, later, rfl, _⟩ := h.exists_last hget
  obtain ⟨earlier', later', heq, _⟩ := h.exists_last hget'
  exact (Write.eq_of_version h.nodup_versions heq hversion).2.1

/-- An object that is stored with the version of one that was stored at an earlier time is that one,
and no write was to its path in between. -/
theorem Accounts.unwritten {earlier later : List Write} {now : Timestamp} {between after : Cluster}
    (h : Accounts earlier { now := now } between) (h' : Accounts later between after)
    {path path' : String} {object object' : AnyResource}
    (hget : between.objects.get? path = some object)
    (hget' : after.objects.get? path' = some object')
    (hversion : object.metadata.resourceVersion? = object'.metadata.resourceVersion?) :
    path' = path ∧ object' = object ∧ ∀ write ∈ later, write.path ≠ path := by
  obtain ⟨front, back, rfl, _⟩ := h.exists_last hget
  obtain ⟨front', back', heq, hback'⟩ := (h.append h').exists_last hget'
  have hnodup := (h.append h').nodup_versions
  rw [List.append_assoc, List.cons_append] at heq hnodup
  obtain ⟨_, rfl, rfl, rfl⟩ := Write.eq_of_version hnodup heq hversion
  exact ⟨rfl, rfl, fun write hmem => hback' write (List.mem_append_right _ hmem)⟩

end Cluster

end EdgeOperator
