import EdgeOperator.Proofs.Cluster.Concurrency
import EdgeOperator.Proofs.Cluster.Stored

set_option autoImplicit false

/-! # Addresses of objects

Objects of all kinds are kept in one map. Where names and namespaces have no slashes, no two pairs
of kind and key have the same path there (`ObjectKey.path_inj`), so a call that writes under one
pair does not show in what a look-up of another pair answers (`Cluster.serve_get_of_address_ne`).

A list goes by the paths alone. In a cluster that came about by deeds on keys without slashes all
that stands under the prefix of a list is of its kind, so the list has just what is found by
look-ups in its namespace, each object once (`Cluster.ListsNames`). -/

namespace EdgeOperator

/-- The kind and key that a call writes under. -/
def Request.address? : Request → Option (Kind × ObjectKey)
  | .get _ _ | .list _ _ => none
  | .create kind object | .replace kind object => some (kind, object.key)
  | .delete kind key => some (kind, key)

theorem Request.target?_eq (request : Request) :
    request.target? = request.address?.map fun address => address.2.path address.1 := by
  cases request <;> rfl

/-- Whether an object stands where the path of a key without slashes is that of its kind. -/
def StandsUnder (path : String) (kind : Kind) (_ : ObjectKey) : Prop :=
  ∃ key : ObjectKey, key.IsSlashless ∧ key.path kind = path

/-- Whether an object stands under its own path, and its key has no slashes. -/
def StandsUnderOwn (path : String) (kind : Kind) (key : ObjectKey) : Prop :=
  key.IsSlashless ∧ key.path kind = path

namespace Deed

variable {property : String → Kind → ObjectKey → Prop}

/-- Whether a deed keeps a property of all that is stored. -/
def Upholds (property : String → Kind → ObjectKey → Prop) : Deed → Prop
  | .call request => request.Upholds property
  | .seed kind object => property object.path kind object.key
  | .beforeReplace path edit => edit.KeepsStored property path
  | .markDeleted _ _ | .fail _ _ _ _ | .clock _ => True

/-- Whether a deed writes under no key with a slash in it. -/
def IsSlashless : Deed → Prop
  | .call request => request.IsSlashless
  | .seed _ object => object.key.IsSlashless
  | .markDeleted _ _ | .fail _ _ _ _ | .beforeReplace _ _ | .clock _ => True

theorem IsSlashless.upholds {deed : Deed} (h : deed.IsSlashless)
    (hown : ∀ {kind : Kind} {key : ObjectKey}, key.IsSlashless → property (key.path kind) kind key)
    (hedit : ∀ path edit, deed = .beforeReplace path edit → edit.KeepsStored property path) :
    deed.Upholds property := by
  cases deed with
  | call request => exact Request.IsSlashless.upholds h hown
  | seed kind object => exact hown h
  | beforeReplace path edit => exact hedit path edit rfl
  | _ => trivial

end Deed

namespace Cluster

variable {kind other : Kind} {key key' : ObjectKey} {cluster : Cluster} {request : Request}
  {namespaceName? : Option String}

/-! ## Look-ups after calls -/

/-- A fault that strikes one call strikes no other less. -/
theorem strike_of_ne {call other : Call} (h : call ≠ other) (faults : List Fault) :
    (strike other (strike call faults).2).1 = (strike other faults).1 := by
  induction faults with
  | nil => rfl
  | cons fault rest ih =>
    by_cases hcall : fault.call = call ∧ 0 < fault.remaining
    · have hother : fault.call ≠ other := fun heq => h (hcall.1.symm.trans heq)
      simp [strike, hcall, h]
    · by_cases hother : fault.call = other ∧ 0 < fault.remaining
      · simp [strike, hother, Ne.symm h]
      · simp [strike, hcall, hother, ih]

/-- What a look-up answers depends on the faults for it and on the object under its path. -/
theorem serve_get_congr {before after : Cluster}
    (hstrike : (after.note (Request.get kind key).call).1 =
      (before.note (Request.get kind key).call).1)
    (hget : after.objects.get? (key.path kind) = before.objects.get? (key.path kind)) :
    (serve (.get kind key) after).1 = (serve (.get kind key) before).1 := by
  rw [serve_eq, serve_eq, hstrike]
  split
  · rfl
  · exact congrArg Except.ok (find?_congr hget)

/-- A call that writes under one kind and key does not show in a look-up of another kind or key. -/
theorem serve_get_of_address_ne (haddress : request.address? = some (other, key'))
    (hkey : key.IsSlashless) (hkey' : key'.IsSlashless) (hne : (other, key') ≠ (kind, key)) :
    (serve (.get kind key) (serve request cluster).2).1 = (serve (.get kind key) cluster).1 := by
  have hpath : key'.path other ≠ key.path kind := fun heq => by
    obtain ⟨rfl, rfl⟩ := ObjectKey.path_inj hkey' hkey heq
    exact hne rfl
  refine serve_get_congr ?_ (get?_serve_of_ne ?_)
  · have hcall : request.call ≠ (Request.get kind key).call := by
      cases request <;> simp [Request.address?] at haddress <;> simp [Request.call]
    unfold note
    rw [faults_serve]
    exact strike_of_ne hcall cluster.faults
  · rw [Request.target?_eq, haddress]
    exact fun heq => hpath (Option.some.inj heq)

/-! ## What deeds leave stored -/

variable {property : String → Kind → ObjectKey → Prop}

theorem AllStored.perform (h : cluster.AllStored property)
    (hwaiting : cluster.AllWaiting fun path edit => edit.KeepsStored property path) {deed : Deed}
    (hdeed : deed.Upholds property) : (cluster.perform deed).AllStored property := by
  cases deed with
  | call request => exact h.serve hwaiting hdeed
  | seed kind object => exact h.create hdeed
  | markDeleted kind key =>
    simp only [Cluster.perform, markDeleted?]
    cases hfind : cluster.find? kind (key.path kind) with
    | none => exact h
    | some current => exact h.marked hfind
  | fail call code reason times => exact h
  | beforeReplace path edit => exact h
  | clock now => exact h

/-- What every deed keeps of all that is stored, a run keeps. -/
theorem AllStored.performAll (h : cluster.AllStored property)
    (hwaiting : cluster.AllWaiting fun path edit => edit.KeepsStored property path)
    {deeds : List Deed} (hdeeds : ∀ deed ∈ deeds, deed.Upholds property) :
    (cluster.performAll deeds).AllStored property := by
  induction deeds generalizing cluster with
  | nil => exact h
  | cons deed rest ih =>
    have hdeed := hdeeds deed (List.mem_cons_self ..)
    have hrest := fun other hmem => hdeeds other (List.mem_cons_of_mem _ hmem)
    have hedits : ∀ path edit, .beforeReplace path edit ∈ [deed] →
        edit.KeepsStored property path := by
      intro path edit hmem
      obtain rfl := List.mem_singleton.1 hmem
      exact hdeed
    exact ih (h.perform hwaiting hdeed) (hwaiting.performAll hedits) hrest

/-! ## Lists -/

/-- The name of an object that a list has, by its path: what follows the prefix of the list, if it
has no slash. -/
def nameIn? (kind : Kind) (namespaceName? : Option String) (path : String) : Option String :=
  match (listPrefix kind namespaceName?).toList.isPrefixOf? path.toList with
  | some name => if name.contains '/' then none else some (String.ofList name)
  | none => none

theorem nameIn?_eq_some {path name : String} :
    nameIn? kind namespaceName? path = some name ↔
      '/' ∉ name.toList ∧ path = ObjectKey.path ⟨name, namespaceName?⟩ kind := by
  have hpath : (ObjectKey.path ⟨name, namespaceName?⟩ kind).toList =
      (listPrefix kind namespaceName?).toList ++ name.toList := String.toList_append
  unfold nameIn?
  constructor
  · intro h
    split at h
    · next rest hprefix =>
      split at h
      · cases h
      · next hslash =>
        obtain rfl := Option.some.inj h
        rw [String.toList_ofList] at hpath ⊢
        refine ⟨by simpa using hslash, String.toList_inj.1 ?_⟩
        rw [hpath]
        exact (List.append_eq_of_isPrefixOf?_eq_some hprefix).symm
    · cases h
  · rintro ⟨hslash, rfl⟩
    have hname : name.toList.contains '/' = false := by simpa using hslash
    simp only [List.isPrefixOf?_eq_some_iff_append_eq.2 hpath.symm, hname, Bool.false_eq_true,
      if_false, String.ofList_toList]

theorem listed_eq (cluster : Cluster) (kind : Kind) (namespaceName? : Option String) :
    cluster.listed kind namespaceName? = cluster.objects.filterMap fun entry =>
      (nameIn? kind namespaceName? entry.1).bind fun _ => entry.2.ofKind? kind := by
  unfold listed
  refine List.filterMap_congr fun (path, object) _ => ?_
  unfold nameIn?
  dsimp only
  cases (listPrefix kind namespaceName?).toList.isPrefixOf? path.toList with
  | none => rfl
  | some name =>
    dsimp only
    split <;> rfl

/-- Whether a list has just what look-ups find under certain names, which are all those under which
they find anything in a namespace. -/
structure ListsNames (cluster : Cluster) (kind : Kind) (namespaceName? : Option String)
    (objects : List (Resource kind)) (names : List String) : Prop where
  nodup : names.Nodup
  mem_iff : ∀ name, name ∈ names ↔ '/' ∉ name.toList ∧
    (cluster.find? kind (ObjectKey.path ⟨name, namespaceName?⟩ kind)).isSome
  found : objects.map some =
    names.map fun name => cluster.find? kind (ObjectKey.path ⟨name, namespaceName?⟩ kind)

/-- Whether a list has just the objects that say of themselves that they live in a namespace, each
of them once. -/
structure ListsOwn (cluster : Cluster) (kind : Kind) (namespaceName? : Option String)
    (objects : List (Resource kind)) : Prop where
  nodup : objects.Nodup
  mem_iff : ∀ object, object ∈ objects ↔
    (∃ path, cluster.find? kind path = some object) ∧
      object.metadata.namespaceName? = namespaceName?

/-- Where all keys are without slashes, what stands under the prefix of a list is of its kind. -/
theorem AllStored.kind_eq (h : cluster.AllStored StandsUnder)
    (hkey : key.IsSlashless) {stored : AnyResource}
    (hget : cluster.objects.get? (key.path kind) = some stored) : stored.kind = kind := by
  obtain ⟨own, hown, hpath⟩ := h _ stored.kind stored.resource (find?_eq_some.2 hget)
  exact (ObjectKey.path_inj hown hkey hpath).1

theorem find?_eq_ofKind? {path : String} {stored : AnyResource}
    (h : cluster.objects.get? path = some stored) :
    cluster.find? kind path = stored.ofKind? kind := by
  unfold find?
  rw [h]
  rfl

theorem listsNames_listed (hsorted : cluster.objects.IsSorted)
    (hstored : cluster.AllStored StandsUnder) (kind : Kind)
    (hscope : ∀ scope, namespaceName? = some scope → '/' ∉ scope.toList) :
    cluster.ListsNames kind namespaceName? (cluster.listed kind namespaceName?)
      ((cluster.objects.map Prod.fst).filterMap (nameIn? kind namespaceName?)) := by
  have hkind : ∀ name stored, '/' ∉ name.toList →
      cluster.objects.get? (ObjectKey.path ⟨name, namespaceName?⟩ kind) = some stored →
        (cluster.find? kind (ObjectKey.path ⟨name, namespaceName?⟩ kind)).isSome ∧
          stored.ofKind? kind =
            cluster.find? kind (ObjectKey.path ⟨name, namespaceName?⟩ kind) := by
    intro name stored hname hget
    obtain rfl := hstored.kind_eq ⟨hname, hscope⟩ hget
    exact ⟨by rw [find?_eq_some.2 hget]; rfl, (find?_eq_ofKind? hget).symm⟩
  refine ⟨?_, fun name => ⟨fun hmem => ?_, fun ⟨hname, hfound⟩ => ?_⟩, ?_⟩
  · -- a name tells the path, and no path is there twice
    have hpaths : (cluster.objects.map Prod.fst).Nodup :=
      (List.pairwise_map.2 hsorted).imp fun hlt => ne_of_lt hlt
    refine hpaths.filterMap fun path path' name hpath hpath' => ?_
    exact (nameIn?_eq_some.1 hpath).2.trans (nameIn?_eq_some.1 hpath').2.symm
  · obtain ⟨path, hpath, hname⟩ := List.mem_filterMap.1 hmem
    obtain ⟨⟨_, stored⟩, hentry, rfl⟩ := List.mem_map.1 hpath
    obtain ⟨hslash, rfl⟩ := nameIn?_eq_some.1 hname
    exact ⟨hslash, (hkind name stored hslash ((StringMap.mem_iff_get? hsorted).1 hentry)).1⟩
  · obtain ⟨object, hfind⟩ := Option.isSome_iff_exists.1 hfound
    have hentry := StringMap.mem_of_get? (find?_eq_some.1 hfind)
    exact List.mem_filterMap.2 ⟨_, List.mem_map_of_mem hentry, nameIn?_eq_some.2 ⟨hname, rfl⟩⟩
  · rw [listed_eq, List.map_filterMap, List.map_filterMap, List.filterMap_map]
    refine List.filterMap_congr fun (path, stored) hentry => ?_
    dsimp only [Function.comp_apply]
    cases hname : nameIn? kind namespaceName? path with
    | none => rfl
    | some name =>
      obtain ⟨hslash, rfl⟩ := nameIn?_eq_some.1 hname
      obtain ⟨hfound, hsame⟩ := hkind name stored hslash ((StringMap.mem_iff_get? hsorted).1 hentry)
      obtain ⟨object, hfind⟩ := Option.isSome_iff_exists.1 hfound
      simp [hsame, hfind]

/-! ## Lists of objects under their own keys -/

section OwnKeys

variable {objects : List (Resource kind)} {names : List String}
  (h : cluster.ListsNames kind namespaceName? objects names)
include h

theorem ListsNames.mem_objects {object : Resource kind} :
    object ∈ objects ↔ ∃ name ∈ names,
      cluster.find? kind (ObjectKey.path ⟨name, namespaceName?⟩ kind) = some object := by
  rw [← List.mem_map, ← h.found, List.mem_map]
  simp

variable (hstored : cluster.AllStored StandsUnderOwn)
  (hscope : ∀ scope, namespaceName? = some scope → '/' ∉ scope.toList)
include hstored hscope

theorem ListsNames.key_eq {name : String} (hname : name ∈ names) {object : Resource kind}
    (hfind : cluster.find? kind (ObjectKey.path ⟨name, namespaceName?⟩ kind) = some object) :
    object.key = ⟨name, namespaceName?⟩ := by
  obtain ⟨hkey, hpath⟩ := hstored _ kind object hfind
  exact (ObjectKey.path_inj hkey ⟨((h.mem_iff name).1 hname).1, hscope⟩ hpath).2

/-- Where objects stand under their own keys, a list has each object of its namespace once. -/
theorem ListsNames.nodup_objects : objects.Nodup := by
  have hkeys : objects.map Resource.key = names.map (⟨·, namespaceName?⟩) := by
    refine List.map_injective_iff.2 (Option.some_injective _) ?_
    have hfound := congrArg (List.map (Option.map Resource.key)) h.found
    rw [List.map_map, List.map_map] at hfound
    rw [List.map_map, List.map_map]
    refine hfound.trans (List.map_congr_left fun name hname => ?_)
    obtain ⟨object, hfind⟩ := Option.isSome_iff_exists.1 ((h.mem_iff name).1 hname).2
    simp [hfind, h.key_eq hstored hscope hname hfind]
  refine List.Nodup.of_map Resource.key (hkeys ▸ ?_)
  exact h.nodup.map fun name name' heq => congrArg ObjectKey.name heq

/-- Where objects stand under their own keys, a list has the objects of its namespace. -/
theorem ListsNames.listsOwn : cluster.ListsOwn kind namespaceName? objects where
  nodup := h.nodup_objects hstored hscope
  mem_iff object := by
    rw [h.mem_objects]
    constructor
    · rintro ⟨name, hname, hfind⟩
      have hkey := h.key_eq hstored hscope hname hfind
      exact ⟨⟨_, hfind⟩, congrArg ObjectKey.namespaceName? hkey⟩
    · rintro ⟨⟨path, hfind⟩, rfl⟩
      obtain ⟨hkey, rfl⟩ := hstored path kind object hfind
      have hfound := Option.isSome_iff_exists.2 ⟨object, hfind⟩
      exact ⟨object.key.name, (h.mem_iff _).2 ⟨hkey.name, hfound⟩, hfind⟩

end OwnKeys

/-! ## The main result -/

/-- Objects are addressed without aliasing: without slashes in keys, paths tell kinds and keys
apart; so no write under one kind and key shows under another; and a list of a namespace has what
look-ups find there, each object once, while nothing of another kind stands under its prefix. Where
other writers leave keys alone, these are the objects that say of themselves that they live in the
namespace. -/
theorem addressed_without_aliasing {now : Timestamp} {deeds : List Deed}
    (hdeeds : ∀ deed ∈ deeds, deed.IsSlashless) :
    (∀ {kind other : Kind} {key key' : ObjectKey}, key.IsSlashless → key'.IsSlashless →
      key.path kind = key'.path other → kind = other ∧ key = key') ∧
    (∀ (cluster : Cluster) {request : Request} {kind other : Kind} {key key' : ObjectKey},
      request.address? = some (other, key') → key.IsSlashless → key'.IsSlashless →
        (other, key') ≠ (kind, key) →
          (serve (.get kind key) (serve request cluster).2).1 =
            (serve (.get kind key) cluster).1) ∧
    ∀ (kind : Kind) (namespaceName? : Option String),
      (∀ scope, namespaceName? = some scope → '/' ∉ scope.toList) →
        (∀ name stored, '/' ∉ name.toList →
          (performAll { now := now } deeds).objects.get?
              (ObjectKey.path ⟨name, namespaceName?⟩ kind) = some stored →
            stored.kind = kind) ∧
        (((performAll { now := now } deeds).note (Request.list kind namespaceName?).call).1 = none →
          ∃ objects names,
            (serve (.list kind namespaceName?) (performAll { now := now } deeds)).1 = .ok objects ∧
              (performAll { now := now } deeds).ListsNames kind namespaceName? objects names ∧
              ((∀ path edit, .beforeReplace path edit ∈ deeds → edit.KeepsKey) →
                (performAll { now := now } deeds).ListsOwn kind namespaceName? objects)) := by
  have hempty : ∀ property : String → Kind → ObjectKey → Prop,
      AllStored { now := now } property := fun property path kind object hfind => by
    simp [find?] at hfind
  have hnone : ∀ property : String → Edit → Prop, AllWaiting { now := now } property :=
    fun property path edits hget => by simp at hget
  have hstored : (performAll { now := now } deeds).AllStored StandsUnder :=
    (hempty _).performAll (hnone _) fun deed hmem => (hdeeds deed hmem).upholds
      (fun hkey => ⟨_, hkey, rfl⟩) fun path edit _ kind object => id
  refine ⟨ObjectKey.path_inj, fun _ => serve_get_of_address_ne, fun kind namespaceName? hscope =>
    ⟨fun name stored hname => hstored.kind_eq ⟨hname, hscope⟩, fun hnote => ?_⟩⟩
  have hsorted : (performAll { now := now } deeds).objects.IsSorted :=
    (accounts_performAll _ deeds).objects_eq ▸ Write.isSorted_applyAll StringMap.isSorted_nil _
  have hlists := listsNames_listed hsorted hstored kind hscope
  refine ⟨_, _, ?_, hlists, fun hedits => ?_⟩
  · rw [serve_eq, hnote]
    rfl
  · have hown : (performAll { now := now } deeds).AllStored StandsUnderOwn :=
      (hempty _).performAll (hnone _) fun deed hmem =>
        (hdeeds deed hmem).upholds (fun hkey => ⟨hkey, rfl⟩) fun path edit heq =>
          (hedits path edit (heq ▸ hmem)).keepsStored _ path
    exact hlists.listsOwn hown hscope

/-! The settings of a team are listed; those of another namespace, and the namespace of that name,
are not. -/

/-- Settings in a namespace. -/
def settingsIn (scope : String) : Resource (.plain .configMap) where
  metadata := { name? := some "settings", namespaceName? := some scope }
  content := []

/-- The namespace of the team. -/
def teamNamespace : Resource (.plain .nameSpace) where
  metadata := { name? := some "team" }
  content := []

/-- The namespace of the team is created, and settings there and in another namespace. -/
def settingsDeeds : List Deed :=
  [.call (.create (.plain .nameSpace) teamNamespace), .seed (.plain .configMap) (settingsIn "team"),
    .call (.create (.plain .configMap) (settingsIn "yard"))]

theorem settings_of_team_listed :
    (∀ deed ∈ settingsDeeds, deed.IsSlashless) ∧
      ∃ objects,
        (serve (.list (.plain .configMap) (some "team"))
            (performAll { now := ⟨2024, 1, 1, 0, 0, 0, 0⟩ } settingsDeeds)).1 = .ok objects ∧
          (performAll { now := ⟨2024, 1, 1, 0, 0, 0, 0⟩ } settingsDeeds).ListsOwn
            (.plain .configMap) (some "team") objects ∧
          objects.map Resource.key = [⟨"settings", some "team"⟩] := by
  have hslashless : ∀ deed ∈ settingsDeeds, deed.IsSlashless := by
    intro deed hmem
    simp only [settingsDeeds, List.mem_cons, List.not_mem_nil, or_false] at hmem
    rcases hmem with rfl | rfl | rfl
    · exact ⟨by decide, by rintro scope ⟨⟩⟩
    · exact ⟨by decide, by rintro scope ⟨⟩; decide⟩
    · exact ⟨by decide, by rintro scope ⟨⟩; decide⟩
  have hunhooked : ∀ path edit, .beforeReplace path edit ∈ settingsDeeds → edit.KeepsKey := by
    simp [settingsDeeds]
  have hscope : ∀ scope, some "team" = some scope → '/' ∉ scope.toList := by
    rintro scope ⟨⟩
    decide
  obtain ⟨-, -, hlists⟩ :=
    @addressed_without_aliasing ⟨2024, 1, 1, 0, 0, 0, 0⟩ settingsDeeds hslashless
  obtain ⟨objects, names, hanswer, -, hown⟩ :=
    (hlists (.plain .configMap) (some "team") hscope).2 rfl
  refine ⟨hslashless, objects, hanswer, hown hunhooked, ?_⟩
  cases hanswer
  rfl

end Cluster

end EdgeOperator
