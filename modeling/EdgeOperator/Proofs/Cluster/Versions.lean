import EdgeOperator.Proofs.Cluster
import EdgeOperator.Proofs.StringMap
import Std.Data.String.ToNat

set_option autoImplicit false

/-! # Versions of stored objects

Whatever is done to a cluster, what it holds changes in one of three ways: not at all, by an object
that is stored with a version never given out before, or by one that is removed (`Change`). From this
alone it follows that every object is stored under its own path and that its version tells it from
every other object, now and at any time before (`Sound`). So a version that was read once says later
whether the object is still the one that was read (`Remembers`).

`Reachable` are the clusters that come about from the empty one, by calls and by what may be
arranged for tests. -/

namespace EdgeOperator

/-! ## Objects as they are stored -/

/-- A stored object keeps whole seconds, so to store it again does not change its times. -/
theorem Metadata.wholeSeconds_idem (m : Metadata) : m.wholeSeconds.wholeSeconds = m.wholeSeconds := by
  have htime : (Timestamp.wholeSecond ∘ Timestamp.wholeSecond) = Timestamp.wholeSecond := rfl
  have hfields : (ManagedFields.wholeSeconds ∘ ManagedFields.wholeSeconds) =
      ManagedFields.wholeSeconds := by
    funext fields
    simp [ManagedFields.wholeSeconds, htime]
  simp only [Metadata.wholeSeconds, Option.map_map, htime, Metadata.mk.injEq, true_and, and_true]
  cases m.managedFields? with
  | none => rfl
  | some entries => simp [hfields]

theorem Resource.wholeSeconds_idem {kind : Kind} (r : Resource kind) :
    r.wholeSeconds.wholeSeconds = r.wholeSeconds :=
  congrArg (Resource.mk · r.content) r.metadata.wholeSeconds_idem

/-- Whether an object is as it would be stored under a path. -/
structure AnyResource.IsKeptAt (object : AnyResource) (path : String) : Prop where
  path_eq : object.path = path
  whole : object.resource.wholeSeconds = object.resource

/-- An object after an edit, as it is stored. -/
def Resource.edited {kind : Kind} (object : Resource kind) (edit : Edit) (version : String) :
    Resource kind :=
  let next := (edit kind object).wholeSeconds
  { next with metadata := { next.metadata with resourceVersion? := some version } }

/-- Whether an edit leaves the key of every object alone, as the replacement by another writer
does. -/
def Edit.KeepsKey (edit : Edit) : Prop :=
  ∀ kind (object : Resource kind), (edit kind object).key = object.key

namespace Cluster

variable {kind : Kind}

/-! ## Changes -/

/-- The ways in which what a cluster holds may change. -/
inductive Change (before : Cluster) : Cluster → Prop where
  | kept {after : Cluster} (hobjects : after.objects = before.objects)
      (hrevision : before.revision ≤ after.revision) : Change before after
  | stored {after : Cluster} {path : String} {object : AnyResource}
      (hkept : object.IsKeptAt path)
      (hversion : object.metadata.resourceVersion? = some before.nextVersion)
      (hobjects : after.objects = before.objects.set path object)
      (hrevision : before.revision < after.revision) : Change before after
  | removed {after : Cluster} {path : String} (hobjects : after.objects = before.objects.erase path)
      (hrevision : before.revision ≤ after.revision) : Change before after

/-- Whether the objects are stored in order, each under its own path and with a version of its own
among those given out. -/
structure Sound (cluster : Cluster) : Prop where
  sorted : cluster.objects.IsSorted
  kept : ∀ {path object}, cluster.objects.get? path = some object → object.IsKeptAt path
  versioned : ∀ {path object}, cluster.objects.get? path = some object →
    ∃ n, 1 ≤ n ∧ n ≤ cluster.revision ∧ object.metadata.resourceVersion? = some (toString n)
  distinct : ∀ {path path' object object'}, cluster.objects.get? path = some object →
    cluster.objects.get? path' = some object' →
    object.metadata.resourceVersion? = object'.metadata.resourceVersion? → path = path'

theorem version_inj {m n : Nat} (h : some (toString m) = some (toString n)) : m = n :=
  Nat.repr_injective (Option.some.inj h)

theorem sound_empty (now : Timestamp) : Sound { now := now } where
  sorted := StringMap.isSorted_nil
  kept h := by simp at h
  versioned h := by simp at h
  distinct h := by simp at h

/-- No stored object has the version that the next write gets. -/
theorem Sound.version_ne {cluster : Cluster} (h : cluster.Sound) {path : String}
    {object : AnyResource} (hget : cluster.objects.get? path = some object) :
    object.metadata.resourceVersion? ≠ some cluster.nextVersion := by
  obtain ⟨n, _, hle, hversion⟩ := h.versioned hget
  intro heq
  have : n = cluster.revision + 1 := version_inj (hversion.symm.trans heq)
  omega

theorem Change.sound {before after : Cluster} (hchange : Change before after)
    (h : before.Sound) : after.Sound := by
  cases hchange with
  | kept hobjects hrevision =>
    constructor <;> simp only [hobjects]
    · exact h.sorted
    · exact h.kept
    · intro path object hget
      obtain ⟨n, hone, hle, hversion⟩ := h.versioned hget
      exact ⟨n, hone, by omega, hversion⟩
    · exact h.distinct
  | @stored path object hkept hversion hobjects hrevision =>
    constructor <;> simp only [hobjects, StringMap.get?_set]
    · exact h.sorted.set path object
    · intro other object' hget
      split at hget
      · next heq => exact Option.some.inj hget ▸ heq ▸ hkept
      · exact h.kept hget
    · intro other object' hget
      split at hget
      · obtain rfl := Option.some.inj hget
        exact ⟨before.revision + 1, by omega, by omega, hversion⟩
      · obtain ⟨n, hone, hle, hn⟩ := h.versioned hget
        exact ⟨n, hone, by omega, hn⟩
    · intro p p' o o' hget hget' heq
      -- only the new object has the new version
      split at hget <;> split at hget'
      · next h₁ h₂ => exact h₁.symm.trans h₂
      · obtain rfl := Option.some.inj hget
        exact absurd (heq.symm.trans hversion) (h.version_ne hget')
      · obtain rfl := Option.some.inj hget'
        exact absurd (heq.trans hversion) (h.version_ne hget)
      · exact h.distinct hget hget' heq
  | @removed path hobjects hrevision =>
    constructor <;> simp only [hobjects, StringMap.get?_erase]
    · exact h.sorted.erase path
    · intro other object hget
      split at hget
      · simp at hget
      · exact h.kept hget
    · intro other object hget
      split at hget
      · simp at hget
      · obtain ⟨n, hone, hle, hversion⟩ := h.versioned hget
        exact ⟨n, hone, by omega, hversion⟩
    · intro p p' o o' hget hget' heq
      split at hget
      · simp at hget
      · split at hget'
        · simp at hget'
        · exact h.distinct hget hget' heq

theorem Sound.of_objects {before after : Cluster} (h : before.Sound)
    (hobjects : after.objects = before.objects) (hrevision : before.revision ≤ after.revision) :
    after.Sound :=
  (Change.kept hobjects hrevision).sound h

theorem Change.revision_le {before after : Cluster} (hchange : Change before after) :
    before.revision ≤ after.revision := by
  cases hchange with
  | kept _ hrevision => exact hrevision
  | stored _ _ _ hrevision => exact hrevision.le
  | removed _ hrevision => exact hrevision

/-- To note a call changes nothing that is held. -/
theorem Change.of_note {before after : Cluster} {call : Call}
    (hchange : Change (before.note call).2 after) : Change before after := by
  cases hchange with
  | kept hobjects hrevision => exact .kept hobjects hrevision
  | stored hkept hversion hobjects hrevision => exact .stored hkept hversion hobjects hrevision
  | removed hobjects hrevision => exact .removed hobjects hrevision

theorem change_refl (cluster : Cluster) : Change cluster cluster :=
  .kept rfl le_rfl

theorem change_note (cluster : Cluster) (call : Call) : Change cluster (cluster.note call).2 :=
  .kept rfl le_rfl

theorem change_put {cluster : Cluster} {path : String} {object : Resource kind}
    (hkept : (⟨kind, object.wholeSeconds⟩ : AnyResource).IsKeptAt path)
    (hversion : object.metadata.resourceVersion? = some cluster.nextVersion) :
    Change cluster (cluster.put path object) :=
  .stored hkept hversion rfl (Nat.lt_succ_self _)

theorem change_create (cluster : Cluster) (object : Resource kind) :
    Change cluster (cluster.create object).2 := by
  rcases create_cases cluster object with ⟨e, heq⟩ | ⟨_, heq⟩ <;> rw [heq]
  · exact change_refl cluster
  · exact change_put ⟨rfl, Resource.wholeSeconds_idem _⟩ rfl

theorem change_settled {cluster : Cluster} {path : String} {next : Resource kind}
    (hkept : (⟨kind, next.wholeSeconds⟩ : AnyResource).IsKeptAt path)
    (hversion : next.metadata.resourceVersion? = some cluster.nextVersion) :
    Change cluster (cluster.settled path next) := by
  unfold settled
  split
  · exact .removed rfl (Nat.le_succ _)
  · exact change_put hkept hversion

theorem change_replace (cluster : Cluster) (object : Resource kind) :
    Change cluster (cluster.replace object).2 := by
  rcases replace_cases cluster object with ⟨e, heq⟩ | ⟨current, _, _, heq⟩ <;> rw [heq]
  · exact change_refl cluster
  · exact change_settled ⟨rfl, Resource.wholeSeconds_idem _⟩ rfl

theorem marked_isKeptAt {cluster : Cluster} (h : cluster.Sound) {path : String}
    {current : Resource kind} (hfind : cluster.find? kind path = some current) :
    (⟨kind, (cluster.marked current).wholeSeconds⟩ : AnyResource).IsKeptAt path := by
  exact ⟨(h.kept (find?_eq_some.1 hfind)).path_eq, Resource.wholeSeconds_idem _⟩

theorem change_delete {cluster : Cluster} (h : cluster.Sound) (kind : Kind) (key : ObjectKey) :
    Change cluster (cluster.delete kind key).2 := by
  rcases delete_cases cluster kind key with
    ⟨_, heq⟩ | ⟨current, hfind, ⟨_, heq⟩ | ⟨_, heq⟩ | ⟨_, heq⟩⟩ <;> rw [heq]
  · exact change_refl cluster
  · exact .removed rfl le_rfl
  · exact change_refl cluster
  · exact change_put (marked_isKeptAt h hfind) rfl

/-! ## Other writers -/

/-- Whether every writer that waits for a replacement leaves the keys of objects alone. -/
def HasPoliteEdits (cluster : Cluster) : Prop :=
  ∀ path edits, cluster.edits.get? path = some edits → ∀ edit ∈ edits, edit.KeepsKey

/-- Whether every writer that waits for a replacement has a property, which may depend on the
path. -/
def AllWaiting (cluster : Cluster) (property : String → Edit → Prop) : Prop :=
  ∀ path edits, cluster.edits.get? path = some edits → ∀ edit ∈ edits, property path edit

theorem AllWaiting.letIn {cluster : Cluster} {property : String → Edit → Prop}
    (h : cluster.AllWaiting property) (path : String) :
    (cluster.letIn path).AllWaiting property := by
  unfold Cluster.letIn
  split
  · exact h
  · exact h
  · next edit rest hget =>
    intro other edits hedits
    have hset := (StringMap.get?_set cluster.edits path rest other).symm.trans hedits
    split at hset
    · next heq =>
      obtain rfl := Option.some.inj hset
      exact fun e hmem => heq ▸ h path _ hget e (List.mem_cons_of_mem _ hmem)
    · exact h other edits hset

/-- Whoever waits after a call has waited before it. -/
theorem AllWaiting.serve {cluster : Cluster} {property : String → Edit → Prop}
    (h : cluster.AllWaiting property) (request : Request) :
    (Cluster.serve request cluster).2.AllWaiting property := by
  unfold AllWaiting
  cases request with
  | replace kind object =>
    have hnoted : (cluster.note (Request.replace kind object).call).2.AllWaiting property := h
    have hlet := hnoted.letIn object.path
    rcases serve_replace cluster object with ⟨e, heq⟩ | heq <;> rw [heq]
    · exact h
    · rcases replace_cases ((cluster.note (Request.replace kind object).call).2.letIn object.path)
        object with ⟨e, heq⟩ | ⟨current, _, _, heq⟩ <;> rw [heq]
      · exact hlet
      · rwa [edits_settled]
  | _ =>
    rw [edits_serve cluster (by simp)]
    exact h

/-- Whoever is to come in waits from then on. -/
theorem AllWaiting.beforeReplace {cluster : Cluster} {property : String → Edit → Prop}
    (h : cluster.AllWaiting property) {path : String} {edit : Edit} (hedit : property path edit) :
    (cluster.beforeReplace path edit).AllWaiting property := by
  intro other edits hget e hmem
  simp only [Cluster.beforeReplace, StringMap.get?_set] at hget
  split at hget
  · next heq =>
    obtain rfl := Option.some.inj hget
    rcases List.mem_append.1 hmem with hmem | hmem
    · cases hold : cluster.edits.get? path with
      | none => simp [hold] at hmem
      | some old => exact heq ▸ h path old hold e (by simpa [hold] using hmem)
    · exact heq ▸ List.mem_singleton.1 hmem ▸ hedit
  · exact h other edits hget e hmem

theorem HasPoliteEdits.serve {cluster : Cluster} (h : cluster.HasPoliteEdits) (request : Request) :
    (Cluster.serve request cluster).2.HasPoliteEdits :=
  AllWaiting.serve h request

/-- To let another writer in changes nothing, or takes a version, or edits the stored object. -/
theorem letIn_cases (cluster : Cluster) (path : String) :
    cluster.letIn path = cluster ∨
    ∃ edit rest, cluster.edits.get? path = some (edit :: rest) ∧
      (cluster.letIn path).revision = cluster.revision + 1 ∧
      ((cluster.objects.get? path = none ∧ (cluster.letIn path).objects = cluster.objects) ∨
        ∃ (kind : Kind) (object : Resource kind), cluster.find? kind path = some object ∧
          (cluster.letIn path).objects =
            cluster.objects.set path ⟨kind, object.edited edit cluster.nextVersion⟩) := by
  unfold letIn
  split
  · exact Or.inl rfl
  · exact Or.inl rfl
  · next edit rest hget =>
    refine Or.inr ⟨edit, rest, hget, rfl, ?_⟩
    cases hobject : cluster.objects.get? path with
    | none => exact Or.inl ⟨rfl, rfl⟩
    | some stored =>
      obtain ⟨kind, object⟩ := stored
      exact Or.inr ⟨kind, object, find?_eq_some.2 hobject, rfl⟩

/-- A replacement that fails changes nothing, or another writer was let in and edited the object. -/
theorem serve_replace_error {cluster : Cluster} {object : Resource kind} {e : OperatorError}
    (herror : (serve (.replace kind object) cluster).1 = .error e) :
    (serve (.replace kind object) cluster).2.objects = cluster.objects ∨
      ∃ edit rest, cluster.edits.get? object.path = some (edit :: rest) ∧
        ∃ (other : Kind) (stored : Resource other),
          cluster.find? other object.path = some stored ∧
          (serve (.replace kind object) cluster).2.objects =
            cluster.objects.set object.path ⟨other, stored.edited edit cluster.nextVersion⟩ := by
  rcases serve_replace cluster object with ⟨_, heq⟩ | heq
  · exact Or.inl (by rw [heq, note_objects])
  rcases replace_cases ((cluster.note (Request.replace kind object).call).2.letIn object.path)
    object with ⟨_, hreplace⟩ | ⟨current, _, _, hreplace⟩ <;> rw [hreplace] at heq
  · rw [heq]
    rcases letIn_cases (cluster.note (Request.replace kind object).call).2 object.path with
      hself | ⟨edit, rest, hget, _, ⟨_, hobjects⟩ | ⟨other, stored, hfind, hobjects⟩⟩
    · exact Or.inl (by rw [hself, note_objects])
    · exact Or.inl hobjects
    · exact Or.inr ⟨edit, rest, hget, other, stored, hfind, hobjects⟩
  · simp [heq] at herror

theorem change_letIn {cluster : Cluster} (h : cluster.Sound) (hpolite : cluster.HasPoliteEdits)
    (path : String) : Change cluster (cluster.letIn path) := by
  rcases letIn_cases cluster path with
    heq | ⟨edit, rest, hget, hrevision, ⟨_, hobjects⟩ | ⟨kind, object, hfind, hobjects⟩⟩
  · rw [heq]
    exact change_refl cluster
  · exact .kept hobjects (by omega)
  · have hkeeps := hpolite path _ hget edit (List.mem_cons_self ..)
    have hkept := h.kept (find?_eq_some.1 hfind)
    refine .stored ⟨?_, ?_⟩ rfl hobjects (by omega)
    · exact (congrArg (ObjectKey.path · kind) (hkeeps kind object)).trans hkept.path_eq
    · exact congrArg (fun r : Resource kind => Resource.mk
        { r.metadata with resourceVersion? := some cluster.nextVersion } r.content)
        (Resource.wholeSeconds_idem (edit kind object))

/-! ## Calls -/

/-- A call changes what the cluster holds at most twice: another writer may be let in first. -/
theorem serve_changes {cluster : Cluster} (h : cluster.Sound) (hpolite : cluster.HasPoliteEdits)
    (request : Request) :
    ∃ between, Change cluster between ∧ Change between (serve request cluster).2 := by
  cases request with
  | get kind key => exact ⟨cluster, change_refl _, by rw [serve_get_snd]; exact .kept rfl le_rfl⟩
  | list kind namespaceName? =>
    exact ⟨cluster, change_refl _, by rw [serve_list_snd]; exact .kept rfl le_rfl⟩
  | create kind object =>
    refine ⟨cluster, change_refl _, ?_⟩
    rw [serve_eq]
    split
    · exact .kept rfl le_rfl
    · exact (change_create (cluster.note (Request.create kind object).call).2 object).of_note
  | replace kind object =>
    have hnoted := (change_note cluster (Request.replace kind object).call).sound h
    have hlet := change_letIn hnoted hpolite object.path
    rcases serve_replace cluster object with ⟨e, heq⟩ | heq <;> rw [heq]
    · exact ⟨cluster, change_refl _, .kept rfl le_rfl⟩
    · exact ⟨_, hlet.of_note, change_replace _ object⟩
  | delete kind key =>
    have hnoted := (change_note cluster (Request.delete kind key).call).sound h
    refine ⟨cluster, change_refl _, ?_⟩
    rcases serve_delete cluster kind key with ⟨e, _, heq⟩ | heq <;> rw [heq]
    · exact .kept rfl le_rfl
    · exact (change_delete hnoted kind key).of_note

theorem Sound.serve {cluster : Cluster} (h : cluster.Sound) (hpolite : cluster.HasPoliteEdits)
    (request : Request) : (Cluster.serve request cluster).2.Sound := by
  obtain ⟨between, hfirst, hsecond⟩ := serve_changes h hpolite request
  exact hsecond.sound (hfirst.sound h)

/-! ## What a version that was read says later -/

/-- Whether only one stored object can have the version of the given one: that object itself, where
it was. -/
def Remembers (cluster : Cluster) (path : String) (object : AnyResource) : Prop :=
  (∃ n ≤ cluster.revision, object.metadata.resourceVersion? = some (toString n)) ∧
    ∀ path' object', cluster.objects.get? path' = some object' →
      object'.metadata.resourceVersion? = object.metadata.resourceVersion? →
      path' = path ∧ object' = object

theorem Sound.remembers {cluster : Cluster} (h : cluster.Sound) {path : String}
    {object : AnyResource} (hget : cluster.objects.get? path = some object) :
    cluster.Remembers path object := by
  obtain ⟨n, _, hle, hversion⟩ := h.versioned hget
  refine ⟨⟨n, hle, hversion⟩, fun path' object' hget' heq => ?_⟩
  obtain rfl := h.distinct hget' hget heq
  exact ⟨rfl, Option.some.inj (hget'.symm.trans hget)⟩

theorem Change.remembers {before after : Cluster} (hchange : Change before after) {path : String}
    {object : AnyResource} (h : before.Remembers path object) : after.Remembers path object := by
  obtain ⟨⟨n, hle, hversion⟩, honly⟩ := h
  refine ⟨⟨n, hle.trans hchange.revision_le, hversion⟩, fun path' object' hget heq => ?_⟩
  cases hchange with
  | kept hobjects _ => exact honly path' object' (hobjects ▸ hget) heq
  | @stored newPath new _ hnew hobjects _ =>
    rw [hobjects, StringMap.get?_set] at hget
    split at hget
    · -- the version of a write is none that was given out before
      obtain rfl := Option.some.inj hget
      have : before.revision + 1 = n := version_inj (hnew.symm.trans (heq.trans hversion))
      omega
    · exact honly path' object' hget heq
  | removed hobjects _ =>
    rw [hobjects, StringMap.get?_erase] at hget
    split at hget
    · simp at hget
    · exact honly path' object' hget heq

theorem Remembers.serve {cluster : Cluster} {path : String} {object : AnyResource}
    (h : cluster.Remembers path object) (hsound : cluster.Sound)
    (hpolite : cluster.HasPoliteEdits) (request : Request) :
    (Cluster.serve request cluster).2.Remembers path object := by
  obtain ⟨between, hfirst, hsecond⟩ := serve_changes hsound hpolite request
  exact hsecond.remembers (hfirst.remembers h)

/-- A replacement that names the version of an object that was read and succeeds finds just that
object, with no other writer waiting. -/
theorem serve_replace_of_remembers {cluster : Cluster} (hsound : cluster.Sound)
    (hpolite : cluster.HasPoliteEdits) {path : String} {read object : Resource kind}
    (hremembers : cluster.Remembers path ⟨kind, read⟩)
    (hversion : object.metadata.resourceVersion? = read.metadata.resourceVersion?)
    {stored : Resource kind} (hok : (serve (.replace kind object) cluster).1 = .ok stored) :
    object.path = path ∧ cluster.find? kind object.path = some read ∧
      ∃ noted : Cluster, noted.objects = cluster.objects ∧ noted.edits = cluster.edits ∧
        serve (.replace kind object) cluster =
          (.ok (noted.replaced read object),
            noted.settled object.path (noted.replaced read object)) := by
  have hnote := change_note cluster (Request.replace kind object).call
  have hnoted := hnote.sound hsound
  have hlet := change_letIn hnoted hpolite object.path
  have honly := (hlet.remembers (hnote.remembers hremembers)).2
  obtain ⟨⟨n, hle, hn⟩, _⟩ := hremembers
  simp only [AnyResource.metadata_mk] at hn
  rcases serve_replace cluster object with ⟨e, heq⟩ | heq
  · simp [heq] at hok
  rcases replace_cases ((cluster.note (Request.replace kind object).call).2.letIn object.path)
    object with ⟨e, hreplace⟩ | ⟨current, hfind, hout, hreplace⟩
  · simp [heq, hreplace] at hok
  have hsame : object.metadata.resourceVersion? = current.metadata.resourceVersion? := by
    simpa [isOutdated, hversion, hn] using hout
  obtain ⟨rfl, hcurrent⟩ := honly object.path ⟨kind, current⟩ (find?_eq_some.1 hfind)
    (hsame.symm.trans hversion)
  obtain rfl : current = read := eq_of_heq (AnyResource.mk.inj hcurrent).2
  -- whoever is let in leaves a version that was never read
  have hself : (cluster.note (Request.replace kind object).call).2.letIn object.path =
      (cluster.note (Request.replace kind object).call).2 := by
    rcases letIn_cases (cluster.note (Request.replace kind object).call).2 object.path with
      hself | ⟨edit, rest, _, _, ⟨hnone, hobjects⟩ | ⟨kind', other, _, hobjects⟩⟩
    · exact hself
    · have hget := find?_eq_some.1 hfind
      rw [hobjects, hnone] at hget
      exact absurd hget (by simp)
    · have hget := find?_eq_some.1 hfind
      rw [hobjects, StringMap.get?_set, if_pos rfl] at hget
      have hnew := congrArg (fun r : AnyResource => r.metadata.resourceVersion?)
        (Option.some.inj hget)
      have : cluster.revision + 1 = n := version_inj (hnew.trans hn)
      omega
  rw [hself] at heq hreplace hfind
  refine ⟨rfl, hfind, (cluster.note (Request.replace kind object).call).2, rfl, rfl, ?_⟩
  rw [heq, hreplace]

/-! ## Clusters that come about -/

/-- The clusters that come about from the empty one: by calls, by the passing of time, and by what
may be arranged for tests. -/
inductive Reachable : Cluster → Prop where
  | empty (now : Timestamp) : Reachable { now := now }
  | serve {cluster : Cluster} (request : Request) :
      Reachable cluster → Reachable (Cluster.serve request cluster).2
  | seed {cluster : Cluster} {kind : Kind} (object : Resource kind) :
      Reachable cluster → Reachable (cluster.create object).2
  | markDeleted {cluster after : Cluster} {kind : Kind} {key : ObjectKey} :
      Reachable cluster → cluster.markDeleted? kind key = some after → Reachable after
  | fail {cluster : Cluster} (call : Call) (code : Nat) (reason : String) (times : Nat) :
      Reachable cluster → Reachable (cluster.fail call code reason times)
  | beforeReplace {cluster : Cluster} (path : String) {edit : Edit} :
      edit.KeepsKey → Reachable cluster → Reachable (cluster.beforeReplace path edit)
  | clock {cluster : Cluster} (now : Timestamp) :
      Reachable cluster → Reachable { cluster with now := now }

theorem change_markDeleted {cluster after : Cluster} (h : cluster.Sound) {key : ObjectKey}
    (hmarked : cluster.markDeleted? kind key = some after) : Change cluster after := by
  obtain ⟨current, hfind, rfl⟩ := Option.map_eq_some_iff.1 hmarked
  exact change_put (marked_isKeptAt h hfind) rfl

theorem hasPoliteEdits_beforeReplace {cluster : Cluster} (h : cluster.HasPoliteEdits)
    {path : String} {edit : Edit} (hedit : edit.KeepsKey) :
    (cluster.beforeReplace path edit).HasPoliteEdits :=
  AllWaiting.beforeReplace h hedit

theorem Reachable.invariants {cluster : Cluster} (h : cluster.Reachable) :
    cluster.Sound ∧ cluster.HasPoliteEdits := by
  induction h with
  | empty now => exact ⟨sound_empty now, fun path edits hget => by simp at hget⟩
  | serve request _ ih => exact ⟨ih.1.serve ih.2 request, ih.2.serve request⟩
  | seed object _ ih =>
    refine ⟨(change_create _ object).sound ih.1, ?_⟩
    rcases create_cases _ object with ⟨e, heq⟩ | ⟨_, heq⟩ <;> rw [heq] <;> exact ih.2
  | markDeleted _ hmarked ih =>
    refine ⟨(change_markDeleted ih.1 hmarked).sound ih.1, ?_⟩
    obtain ⟨current, _, rfl⟩ := Option.map_eq_some_iff.1 hmarked
    exact ih.2
  | fail call code reason times _ ih => exact ⟨ih.1.of_objects rfl le_rfl, ih.2⟩
  | beforeReplace path hedit _ ih =>
    exact ⟨ih.1.of_objects rfl le_rfl, hasPoliteEdits_beforeReplace ih.2 hedit⟩
  | clock now _ ih => exact ⟨ih.1.of_objects rfl le_rfl, ih.2⟩

theorem Reachable.sound {cluster : Cluster} (h : cluster.Reachable) : cluster.Sound :=
  h.invariants.1

theorem Reachable.hasPoliteEdits {cluster : Cluster} (h : cluster.Reachable) :
    cluster.HasPoliteEdits :=
  h.invariants.2

end Cluster

end EdgeOperator
