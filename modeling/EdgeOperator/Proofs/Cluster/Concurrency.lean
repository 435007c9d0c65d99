import EdgeOperator.Proofs.Cluster.Writes

set_option autoImplicit false

/-! # Optimistic concurrency

Versions guard the objects of a cluster: a replacement that carries the version of an object that
was read succeeds only if there was no write to the object since, be it a deletion after which
another object was created in its place. What a call leaves stored under a path keeps the identity
of what was stored there, and a call that fails writes nothing; only another writer that was let in
before may have written.

All this is said of every run of deeds, from the cluster that holds nothing
(`Cluster.guarded_by_versions`). -/

namespace EdgeOperator

/-! ## Identity -/

/-- Whether metadata keep what the server has set once and for all: identity, time of creation, and
the time of deletion if there is one. -/
structure Metadata.KeepsIdentityOf (after before : Metadata) : Prop where
  uid_eq : after.uid? = before.uid?
  creation_eq : after.creationTimestamp? = before.creationTimestamp?
  deletion : ∀ time, before.deletionTimestamp? = some time → after.deletionTimestamp? = some time

namespace Metadata

theorem KeepsIdentityOf.refl (m : Metadata) : m.KeepsIdentityOf m :=
  ⟨rfl, rfl, fun _ => id⟩

theorem KeepsIdentityOf.trans {first second third : Metadata} (h : second.KeepsIdentityOf first)
    (h' : third.KeepsIdentityOf second) : third.KeepsIdentityOf first where
  uid_eq := h'.uid_eq.trans h.uid_eq
  creation_eq := h'.creation_eq.trans h.creation_eq
  deletion time htime := h'.deletion time (h.deletion time htime)

/-- Times that are kept as whole seconds stay the same when they are kept again. -/
theorem KeepsIdentityOf.wholeSeconds {before after : Metadata} (h : after.KeepsIdentityOf before)
    (hwhole : before.wholeSeconds = before) : after.wholeSeconds.KeepsIdentityOf before where
  uid_eq := h.uid_eq
  creation_eq :=
    (congrArg (Option.map Timestamp.wholeSecond) h.creation_eq).trans
      (congrArg creationTimestamp? hwhole)
  deletion time htime := by
    have hkept := congrArg deletionTimestamp? hwhole
    simp only [Metadata.wholeSeconds, h.deletion time htime, Option.map_some] at hkept ⊢
    rw [htime] at hkept
    exact hkept

end Metadata

/-- Whether an edit leaves the identity and the times of every object alone. -/
def Edit.KeepsIdentity (edit : Edit) : Prop :=
  ∀ kind (object : Resource kind), (edit kind object).metadata.KeepsIdentityOf object.metadata

namespace Cluster

variable {kind : Kind} {before between after cluster : Cluster}

/-- Whether all that is stored was stored under its path before, with the same identity. -/
def KeepsIdentities (before after : Cluster) : Prop :=
  ∀ path object, after.objects.get? path = some object →
    ∃ old, before.objects.get? path = some old ∧ object.metadata.KeepsIdentityOf old.metadata

theorem keepsIdentities_of_objects (h : after.objects = before.objects) :
    KeepsIdentities before after :=
  fun _ object hget => ⟨object, h ▸ hget, .refl _⟩

theorem KeepsIdentities.trans (h : KeepsIdentities before between)
    (h' : KeepsIdentities between after) : KeepsIdentities before after := by
  intro path object hget
  obtain ⟨middle, hmiddle, hkeeps'⟩ := h' path object hget
  obtain ⟨old, hold, hkeeps⟩ := h path middle hmiddle
  exact ⟨old, hold, hkeeps.trans hkeeps'⟩

theorem keepsIdentities_of_erase {path : String} (h : after.objects = before.objects.erase path) :
    KeepsIdentities before after := by
  intro other object hget
  rw [h, StringMap.get?_erase] at hget
  split at hget
  · cases hget
  · exact ⟨object, hget, .refl _⟩

theorem keepsIdentities_of_set {path : String} {old : AnyResource} (new : AnyResource)
    (hold : before.objects.get? path = some old)
    (hkeeps : new.metadata.KeepsIdentityOf old.metadata)
    (h : after.objects = before.objects.set path new) : KeepsIdentities before after := by
  intro other object hget
  rw [h, StringMap.get?_set] at hget
  split at hget
  · next hpath =>
    obtain rfl := Option.some.inj hget
    exact ⟨old, hpath ▸ hold, hkeeps⟩
  · exact ⟨object, hget, .refl _⟩

/-- Whether all that is stored is kept in whole seconds. -/
def IsWhole (cluster : Cluster) : Prop :=
  ∀ path object, cluster.objects.get? path = some object →
    object.resource.wholeSeconds = object.resource

theorem IsWhole.metadata_eq (h : cluster.IsWhole) {path : String} {object : Resource kind}
    (hfind : cluster.find? kind path = some object) :
    object.metadata.wholeSeconds = object.metadata :=
  congrArg Resource.metadata (h path ⟨kind, object⟩ (find?_eq_some.1 hfind))

theorem keepsIdentities_put (h : cluster.IsWhole) {path : String} {current next : Resource kind}
    (hfind : cluster.find? kind path = some current)
    (hkeeps : next.metadata.KeepsIdentityOf current.metadata) :
    KeepsIdentities cluster (cluster.put path next) :=
  keepsIdentities_of_set ⟨kind, next.wholeSeconds⟩ (find?_eq_some.1 hfind)
    (hkeeps.wholeSeconds (h.metadata_eq hfind)) rfl

theorem keepsIdentities_letIn (h : cluster.IsWhole)
    (hwaiting : cluster.AllWaiting fun _ edit => edit.KeepsIdentity) (path : String) :
    KeepsIdentities cluster (cluster.letIn path) := by
  rcases letIn_cases cluster path with
    heq | ⟨edit, rest, hedits, _, ⟨_, hobjects⟩ | ⟨kind, object, hfind, hobjects⟩⟩
  · exact keepsIdentities_of_objects (by rw [heq])
  · exact keepsIdentities_of_objects hobjects
  · have hedit := hwaiting path _ hedits edit (List.mem_cons_self ..)
    have hkeeps := (hedit kind object).wholeSeconds (h.metadata_eq hfind)
    exact keepsIdentities_of_set ⟨kind, object.edited edit cluster.nextVersion⟩
      (find?_eq_some.1 hfind) ⟨hkeeps.uid_eq, hkeeps.creation_eq, hkeeps.deletion⟩ hobjects

theorem keepsIdentities_replace (h : cluster.IsWhole) (object : Resource kind) :
    KeepsIdentities cluster (cluster.replace object).2 := by
  rcases replace_cases cluster object with ⟨e, heq⟩ | ⟨current, hfind, _, heq⟩ <;> rw [heq]
  · exact keepsIdentities_of_objects rfl
  · unfold settled
    split
    · exact keepsIdentities_of_erase rfl
    · exact keepsIdentities_put h hfind ⟨rfl, rfl, fun _ => id⟩

theorem keepsIdentities_delete (h : cluster.IsWhole) (kind : Kind) (key : ObjectKey) :
    KeepsIdentities cluster (cluster.delete kind key).2 := by
  rcases delete_cases cluster kind key with
    ⟨_, heq⟩ | ⟨current, hfind, ⟨_, heq⟩ | ⟨_, heq⟩ | ⟨hlive, heq⟩⟩ <;> rw [heq]
  · exact keepsIdentities_of_objects rfl
  · exact keepsIdentities_of_erase rfl
  · exact keepsIdentities_of_objects rfl
  · refine keepsIdentities_put h hfind ⟨rfl, rfl, fun time htime => ?_⟩
    simp [Metadata.isDeleted, htime] at hlive

theorem Accounts.isWhole {writes : List Write} (h : Accounts writes before after)
    (hwhole : before.IsWhole) : after.IsWhole := by
  intro path object hget
  rw [h.objects_eq] at hget
  rcases Write.exists_last hget with ⟨hget, _⟩ | ⟨earlier, later, rfl, _⟩
  · exact hwhole path object hget
  · exact h.whole path object (by simp)

/-- What a call leaves stored under a path has the identity of what was stored there before. -/
theorem keepsIdentityOf_of_serve (h : cluster.IsWhole)
    (hwaiting : cluster.AllWaiting fun _ edit => edit.KeepsIdentity) {request : Request}
    {path : String} {old new : AnyResource} (hold : cluster.objects.get? path = some old)
    (hnew : (serve request cluster).2.objects.get? path = some new) :
    new.metadata.KeepsIdentityOf old.metadata := by
  suffices hkept : (serve request cluster).2.objects.get? path = cluster.objects.get? path ∨
      KeepsIdentities cluster (serve request cluster).2 by
    rcases hkept with hsame | hkeeps
    · obtain rfl := Option.some.inj (hold.symm.trans (hsame.symm.trans hnew))
      exact .refl _
    · obtain ⟨old', hold', hkeeps⟩ := hkeeps path new hnew
      obtain rfl := Option.some.inj (hold.symm.trans hold')
      exact hkeeps
  cases request with
  | get kind key => exact Or.inl (by rw [serve_get_objects])
  | list kind namespaceName? => exact Or.inl (by rw [serve_list_objects])
  | create kind object =>
    rcases serve_create cluster object with ⟨e, heq⟩ | ⟨hnone, heq⟩ <;> rw [heq]
    · exact Or.inl rfl
    · -- what is created is not where something was stored
      have hne : object.path ≠ path := fun hpath => by simp [← hpath, hnone] at hold
      exact Or.inl ((StringMap.get?_set ..).trans (if_neg hne))
  | replace kind object =>
    refine Or.inr ?_
    rcases serve_replace cluster object with ⟨e, heq⟩ | heq <;> rw [heq]
    · exact keepsIdentities_of_objects rfl
    · have hnoted : (cluster.note (Request.replace kind object).call).2.IsWhole := h
      have hlet := keepsIdentities_letIn hnoted hwaiting object.path
      exact hlet.trans (keepsIdentities_replace ((accounts_letIn _ _).isWhole hnoted) object)
  | delete kind key =>
    refine Or.inr ?_
    rcases serve_delete cluster kind key with ⟨e, _, heq⟩ | heq <;> rw [heq]
    · exact keepsIdentities_of_objects rfl
    · have hnoted : (cluster.note (Request.delete kind key).call).2.IsWhole := h
      exact keepsIdentities_delete hnoted kind key

/-! ## Calls that fail -/

/-- A call that fails writes nothing; another writer may have been let in before a replacement. -/
theorem objects_of_error {request : Request} {e : OperatorError}
    (h : (serve request cluster).1 = .error e) :
    (serve request cluster).2.objects = cluster.objects ∨
      ∃ (kind : Kind) (object : Resource kind), request = .replace kind object ∧
        (serve request cluster).2.objects =
          Write.applyAll cluster.objects (cluster.intrusion object.path) := by
  by_cases hreplace : ∃ (kind : Kind) (object : Resource kind), request = .replace kind object
  · obtain ⟨kind, object, rfl⟩ := hreplace
    rcases serve_replace cluster object with ⟨_, heq⟩ | heq
    · exact Or.inl (by rw [heq, note_objects])
    rcases replace_cases ((cluster.note (Request.replace kind object).call).2.letIn object.path)
      object with ⟨_, hfails⟩ | ⟨current, _, _, hsucceeds⟩
    · refine Or.inr ⟨kind, object, rfl, ?_⟩
      rw [heq, hfails]
      exact (accounts_letIn (cluster.note _).2 object.path).objects_eq
    · simp [heq, hsucceeds] at h
  · refine Or.inl (objects_of_serve_error (fun kind object heq => ?_) h)
    exact absurd ⟨kind, object, heq⟩ hreplace

/-! ## Replacements of what was read -/

/-- Whether an object is read that is stored under a path: it is looked up there, or listed. -/
inductive Reads (cluster : Cluster) (object : Resource kind) : String → Prop where
  | get {key : ObjectKey} (hanswer : (serve (.get kind key) cluster).1 = .ok (some object)) :
      Reads cluster object (key.path kind)
  | list {namespaceName? : Option String} {objects : List (Resource kind)} {path : String}
      (hanswer : (serve (.list kind namespaceName?) cluster).1 = .ok objects)
      (hmem : object ∈ objects) (hfind : cluster.find? kind path = some object) :
      Reads cluster object path

theorem Reads.find?_eq {object : Resource kind} {path : String} (h : cluster.Reads object path) :
    cluster.find? kind path = some object := by
  cases h with
  | get hanswer => exact find?_of_serve_get hanswer
  | list _ _ hfind => exact hfind

theorem find?_performAll_of_unwritten {deeds : List Deed} {path : String}
    (h : ∀ write ∈ cluster.ledger deeds, write.path ≠ path) :
    (cluster.performAll deeds).find? kind path = cluster.find? kind path :=
  find?_congr ((accounts_performAll cluster deeds).get?_eq h)

/-- A replacement that succeeds with the version of an object that was stored before finds just that
object, and nothing was written to it since. -/
theorem unwritten_of_replace {earlier later : List Write} {now : Timestamp}
    (h : Accounts earlier { now := now } before) (h' : Accounts later before after)
    {other : Kind} {read : Resource kind} {object stored : Resource other} {path : String}
    (hread : before.find? kind path = some read)
    (hversion : object.metadata.resourceVersion? = read.metadata.resourceVersion?)
    (hok : (serve (.replace other object) after).1 = .ok stored) :
    object.path = path ∧ ∀ write ∈ later ++ after.intrusion path, write.path ≠ path := by
  have hget := find?_eq_some.1 hread
  obtain ⟨n, _, _, hn⟩ := h.versioned hget
  rcases serve_replace after object with ⟨e, heq⟩ | heq
  · simp [heq] at hok
  rcases replace_cases ((after.note (Request.replace other object).call).2.letIn object.path)
    object with ⟨e, hfails⟩ | ⟨current, hfind, hout, _⟩
  · simp [heq, hfails] at hok
  have hcurrent : read.metadata.resourceVersion? = current.metadata.resourceVersion? := by
    simp only [AnyResource.metadata_mk] at hn
    simpa [isOutdated, hversion, hn] using hout
  have hnoted : Accounts [] after (after.note (Request.replace other object).call).2 :=
    accounts_nil rfl le_rfl
  have hlet := (h'.append hnoted).append (accounts_letIn _ object.path)
  rw [List.append_nil] at hlet
  obtain ⟨rfl, _, hunwritten⟩ := h.unwritten hlet hget (find?_eq_some.1 hfind) hcurrent
  exact ⟨rfl, hunwritten⟩

/-! ## The main result -/

/-- What versions do for a cluster that comes about by deeds. -/
structure IsGuarded (start : Cluster) (deeds : List Deed) : Prop where
  /-- The writes account for all that is stored. -/
  written : (start.performAll deeds).objects = Write.applyAll start.objects (start.ledger deeds)
  /-- Every stored object has one of the versions that were given out. -/
  versioned : ∀ path object, (start.performAll deeds).objects.get? path = some object →
    ∃ n, 1 ≤ n ∧ n ≤ (start.performAll deeds).revision ∧
      object.metadata.resourceVersion? = some (toString n)
  /-- No two stored objects share a version. -/
  distinct : ∀ path path' object object',
    (start.performAll deeds).objects.get? path = some object →
    (start.performAll deeds).objects.get? path' = some object' →
    object.metadata.resourceVersion? = object'.metadata.resourceVersion? → path = path'
  /-- No version was given out twice. -/
  once : (Write.versions (start.ledger deeds)).Nodup
  /-- A replacement with the version of an object that was read succeeds only if nothing was written
  to the object since, be it by the writer who is let in right before; so the object has been there
  all the time. -/
  guarded : ∀ earlier later, deeds = earlier ++ later →
    ∀ {kind other : Kind} {read : Resource kind} {object stored : Resource other} {path : String},
      (start.performAll earlier).Reads read path →
      object.metadata.resourceVersion? = read.metadata.resourceVersion? →
      (serve (.replace other object) (start.performAll deeds)).1 = .ok stored →
      object.path = path ∧
        (∀ write ∈ (start.performAll earlier).ledger later ++
          (start.performAll deeds).intrusion path, write.path ≠ path) ∧
        ∀ middle rest, later = middle ++ rest →
          (start.performAll (earlier ++ middle)).find? kind path = some read
  /-- What a call leaves stored has the identity of what was stored. -/
  identity : ∀ request path old new, (start.performAll deeds).objects.get? path = some old →
    (serve request (start.performAll deeds)).2.objects.get? path = some new →
    new.metadata.KeepsIdentityOf old.metadata
  /-- A call that fails writes nothing but what another writer does who is let in before. -/
  failure : ∀ request e, (serve request (start.performAll deeds)).1 = .error e →
    (serve request (start.performAll deeds)).2.objects = (start.performAll deeds).objects ∨
      ∃ (kind : Kind) (object : Resource kind), request = .replace kind object ∧
        (serve request (start.performAll deeds)).2.objects =
          Write.applyAll (start.performAll deeds).objects
            ((start.performAll deeds).intrusion object.path)

/-- In every run of deeds in which other writers leave the identity and the times of objects alone,
versions guard what is stored. -/
theorem guarded_by_versions {now : Timestamp} {deeds : List Deed}
    (hedits : ∀ path edit, .beforeReplace path edit ∈ deeds → edit.KeepsIdentity) :
    IsGuarded { now := now } deeds := by
  have haccounts := accounts_performAll { now := now } deeds
  have hwhole : (performAll { now := now } deeds).IsWhole :=
    haccounts.isWhole fun path object hget => by simp at hget
  have hnone : AllWaiting { now := now } fun _ edit => edit.KeepsIdentity :=
    fun path edits hget => by simp at hget
  exact {
    written := haccounts.objects_eq
    versioned := fun path object => haccounts.versioned
    distinct := fun path path' object object' => haccounts.path_eq_of_version
    once := haccounts.nodup_versions
    guarded := by
      rintro earlier later rfl kind other read object stored path hread hversion hok
      rw [performAll_append] at hok ⊢
      obtain ⟨hpath, hunwritten⟩ := unwritten_of_replace (accounts_performAll _ earlier)
        (accounts_performAll _ later) hread.find?_eq hversion hok
      refine ⟨hpath, hunwritten, ?_⟩
      rintro middle rest rfl
      rw [performAll_append, find?_performAll_of_unwritten, hread.find?_eq]
      intro write hmem
      refine hunwritten write (List.mem_append_left _ ?_)
      rw [ledger_append]
      exact List.mem_append_left _ hmem
    identity := fun request path old new =>
      keepsIdentityOf_of_serve hwhole (hnone.performAll hedits)
    failure := fun request e => objects_of_error }

/-! A writer that has read an object comes too late: another one got in, and the replacement by the
first is refused. -/

/-- The settings as they are created. -/
def firstSettings : Resource (.plain .configMap) where
  metadata := { name? := some "settings", namespaceName? := some "team" }
  content := [("data", .obj [("writer", .str "first")])]

/-- The replacement by a writer that has read the settings as they were created. -/
def lateSettings : Resource (.plain .configMap) where
  metadata := { firstSettings.metadata with resourceVersion? := some "1" }
  content := [("data", .obj [("writer", .str "late")])]

/-- The edit of the writer that gets in. -/
def labelled : Edit :=
  fun _ object => { object with metadata.labels? := some [("seen", "yes")] }

/-- The settings are created, and another writer gets in before they are replaced. -/
def contestedDeeds : List Deed :=
  [.call (.create (.plain .configMap) firstSettings),
    .beforeReplace firstSettings.path labelled,
    .call (.replace (.plain .configMap) lateSettings)]

theorem contested_settings_guarded :
    (∀ path edit, .beforeReplace path edit ∈ contestedDeeds → edit.KeepsIdentity) ∧
      IsGuarded { now := ⟨2024, 1, 1, 0, 0, 0, 0⟩ } contestedDeeds ∧
      Write.versions (ledger { now := ⟨2024, 1, 1, 0, 0, 0, 0⟩ } contestedDeeds) =
        [some "1", some "2"] := by
  have hedits : ∀ path edit, .beforeReplace path edit ∈ contestedDeeds → edit.KeepsIdentity := by
    intro path edit hmem
    simp only [contestedDeeds, List.mem_cons, Deed.beforeReplace.injEq, reduceCtorEq, false_or,
      or_false, List.not_mem_nil] at hmem
    obtain ⟨rfl, rfl⟩ := hmem
    exact fun kind object => ⟨rfl, rfl, fun _ => id⟩
  exact ⟨hedits, guarded_by_versions hedits, rfl⟩

end Cluster

end EdgeOperator
