import EdgeOperator.Proofs.ObjectKey

set_option autoImplicit false

/-! # Properties of what is stored

A property of all that is stored may depend on the path, the kind and the key of each object. Calls
that store nothing without the property keep it, if whoever is let in before them does
(`Cluster.AllStored.serve`). -/

namespace EdgeOperator

variable {property : String → Kind → ObjectKey → Prop}

/-- Whether an edit keeps a property of all that may be stored under a path. -/
def Edit.KeepsStored (edit : Edit) (property : String → Kind → ObjectKey → Prop)
    (path : String) : Prop :=
  ∀ kind (object : Resource kind), property path kind object.key →
    property path kind (edit kind object).key

theorem Edit.KeepsKey.keepsStored {edit : Edit} (h : edit.KeepsKey)
    (property : String → Kind → ObjectKey → Prop) (path : String) :
    edit.KeepsStored property path :=
  fun kind object hproperty => (h kind object).symm ▸ hproperty

/-- Whether a call keeps a property of all that is stored. -/
def Request.Upholds (property : String → Kind → ObjectKey → Prop) : Request → Prop
  | .create kind object => property object.path kind object.key
  | .replace kind object =>
    ∀ old, property object.path kind old → property object.path kind object.key
  | .get _ _ | .list _ _ | .delete _ _ => True

/-- Whether a call writes no object whose name or namespace has a slash. -/
def Request.IsSlashless : Request → Prop
  | .create _ object | .replace _ object => object.key.IsSlashless
  | .get _ _ | .list _ _ | .delete _ _ => True

theorem Request.IsSlashless.upholds {request : Request} (h : request.IsSlashless)
    (hown : ∀ {kind : Kind} {key : ObjectKey},
      key.IsSlashless → property (key.path kind) kind key) : request.Upholds property := by
  cases request with
  | create kind object => exact hown h
  | replace kind object => exact fun old _ => hown h
  | _ => trivial

namespace Cluster

variable {kind : Kind} {cluster : Cluster} {request : Request}

/-- Whether all that is stored has a property. -/
def AllStored (cluster : Cluster) (property : String → Kind → ObjectKey → Prop) : Prop :=
  ∀ path kind (object : Resource kind), cluster.find? kind path = some object →
    property path kind object.key

theorem AllStored.of_objects {before after : Cluster} (h : before.AllStored property)
    (hobjects : after.objects = before.objects) : after.AllStored property :=
  fun path kind object hfind =>
    h path kind object ((find?_congr (congrArg (StringMap.get? · path) hobjects.symm)).trans hfind)

theorem AllStored.of_set {before after : Cluster} (h : before.AllStored property) {path : String}
    (next : Resource kind) (hnext : property path kind next.key)
    (hobjects : after.objects = before.objects.set path ⟨kind, next⟩) :
    after.AllStored property := by
  intro path' kind' object hfind
  rcases (find?_of_set hobjects kind' path' object).1 hfind with ⟨rfl, hsame⟩ | ⟨-, hfind⟩
  · cases hsame
    exact hnext
  · exact h path' kind' object hfind

theorem AllStored.of_erase {before after : Cluster} (h : before.AllStored property) {path : String}
    (hobjects : after.objects = before.objects.erase path) : after.AllStored property :=
  fun path' kind' object hfind =>
    h path' kind' object ((find?_of_erase hobjects kind' path' object).1 hfind).2

theorem AllStored.create (h : cluster.AllStored property) {object : Resource kind}
    (hnew : property object.path kind object.key) :
    (cluster.create object).2.AllStored property := by
  rcases create_cases cluster object with ⟨e, heq⟩ | ⟨_, heq⟩ <;> rw [heq]
  · exact h
  · exact h.of_set (cluster.created object).wholeSeconds hnew rfl

theorem AllStored.letIn (h : cluster.AllStored property)
    (hwaiting : cluster.AllWaiting fun path edit => edit.KeepsStored property path)
    (path : String) : (cluster.letIn path).AllStored property := by
  rcases letIn_cases cluster path with
    heq | ⟨edit, rest, hedits, _, ⟨_, hobjects⟩ | ⟨kind, object, hfind, hobjects⟩⟩
  · rwa [heq]
  · exact h.of_objects hobjects
  · have hedit := hwaiting path _ hedits edit (List.mem_cons_self ..)
    exact h.of_set (object.edited edit cluster.nextVersion)
      (hedit kind object (h path kind object hfind)) hobjects

theorem AllStored.replace (h : cluster.AllStored property) {object : Resource kind}
    (hnew : ∀ old, property object.path kind old → property object.path kind object.key) :
    (cluster.replace object).2.AllStored property := by
  rcases replace_cases cluster object with ⟨e, heq⟩ | ⟨current, hfind, _, heq⟩ <;> rw [heq]
  · exact h
  · unfold settled
    split
    · exact h.of_erase rfl
    · exact h.of_set (cluster.replaced current object).wholeSeconds
        (hnew _ (h _ _ current hfind)) rfl

theorem AllStored.marked (h : cluster.AllStored property) {path : String} {current : Resource kind}
    (hfind : cluster.find? kind path = some current) :
    (cluster.put path (cluster.marked current)).AllStored property :=
  h.of_set (cluster.marked current).wholeSeconds (h path kind current hfind) rfl

theorem AllStored.delete (h : cluster.AllStored property) (kind : Kind) (key : ObjectKey) :
    (cluster.delete kind key).2.AllStored property := by
  rcases delete_cases cluster kind key with
    ⟨_, heq⟩ | ⟨current, hfind, ⟨_, heq⟩ | ⟨_, heq⟩ | ⟨_, heq⟩⟩ <;> rw [heq]
  · exact h
  · exact h.of_erase rfl
  · exact h
  · exact h.marked hfind

theorem AllStored.serve (h : cluster.AllStored property)
    (hwaiting : cluster.AllWaiting fun path edit => edit.KeepsStored property path)
    (hrequest : request.Upholds property) :
    (Cluster.serve request cluster).2.AllStored property := by
  have hnoted : (cluster.note request.call).2.AllStored property := h
  cases request with
  | get kind key => exact h.of_objects (serve_get_objects ..)
  | list kind namespaceName? => exact h.of_objects (serve_list_objects ..)
  | create kind object =>
    rw [serve_eq]
    split
    · exact h
    · exact hnoted.create hrequest
  | replace kind object =>
    rcases serve_replace cluster object with ⟨e, heq⟩ | heq <;> rw [heq]
    · exact h
    · exact (hnoted.letIn hwaiting object.path).replace hrequest
  | delete kind key =>
    rcases serve_delete cluster kind key with ⟨e, _, heq⟩ | heq <;> rw [heq]
    · exact h
    · exact hnoted.delete kind key

end Cluster

end EdgeOperator
