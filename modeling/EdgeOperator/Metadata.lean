import EdgeOperator.Json.Source
import EdgeOperator.ObjectKey
import EdgeOperator.Timestamp

set_option autoImplicit false

/-! # Metadata of objects

What every object carries whatever its kind: its name, its place in the cluster, its owners, and
the marks the API server keeps on it. Every part may be missing. A list or map that is there but
empty is something else than none at all, and stays so.

`ofJson?` leaves out members it does not know, takes `null` for a missing part, and fails where a
part has a type of its own and the value has another. The objects of this module are open: of
members with one key the last counts. -/

namespace EdgeOperator

open Json (Source)

variable {σ : Type} [Source σ]

/-- A reference from an object to one of its owners. -/
structure OwnerReference where
  apiVersion : String
  blockOwnerDeletion? : Option Bool
  controller? : Option Bool
  kind : String
  name : String
  uid : String
deriving DecidableEq, Repr

/-- What one writer of an object has set in it. -/
structure ManagedFields where
  apiVersion? : Option String
  fieldsType? : Option String
  fields? : Option Json
  manager? : Option String
  operation? : Option String
  subresource? : Option String
  time? : Option Timestamp
deriving Repr

/-- The metadata of an object. -/
structure Metadata where
  annotations? : Option (StringMap String) := none
  creationTimestamp? : Option Timestamp := none
  deletionGracePeriodSeconds? : Option Int64 := none
  deletionTimestamp? : Option Timestamp := none
  finalizers? : Option (List String) := none
  generateName? : Option String := none
  generation? : Option Int64 := none
  labels? : Option (StringMap String) := none
  managedFields? : Option (List ManagedFields) := none
  name? : Option String := none
  namespaceName? : Option String := none
  ownerReferences? : Option (List OwnerReference) := none
  resourceVersion? : Option String := none
  selfLink? : Option String := none
  uid? : Option String := none
deriving Repr

/-! ## JSON form -/

/-- A timestamp in its written form. -/
def Timestamp.ofJson? (source : σ) : Option Timestamp :=
  (Source.text? source).bind Timestamp.parse?

/-- A timestamp as it is written. -/
def Timestamp.toJson (t : Timestamp) : Json :=
  .str t.toText

namespace OwnerReference

/-- The reference an object stands for. -/
def ofJson? (source : σ) : Option OwnerReference := do
  let members ← Source.members? source
  return {
    apiVersion := ← Source.textOrEmpty? members "apiVersion"
    blockOwnerDeletion? := ← Source.optional? Source.bool? members "blockOwnerDeletion"
    controller? := ← Source.optional? Source.bool? members "controller"
    kind := ← Source.textOrEmpty? members "kind"
    name := ← Source.textOrEmpty? members "name"
    uid := ← Source.textOrEmpty? members "uid" }

/-- The reference as an object. -/
def toJson (r : OwnerReference) : Json :=
  .ofPresent [
    ("apiVersion", some (.str r.apiVersion)),
    ("blockOwnerDeletion", r.blockOwnerDeletion?.map .bool),
    ("controller", r.controller?.map .bool),
    ("kind", some (.str r.kind)),
    ("name", some (.str r.name)),
    ("uid", some (.str r.uid))]

end OwnerReference

namespace ManagedFields

/-- The entry an object stands for. -/
def ofJson? (source : σ) : Option ManagedFields := do
  let members ← Source.members? source
  return {
    apiVersion? := ← Source.optional? Source.text? members "apiVersion"
    fieldsType? := ← Source.optional? Source.text? members "fieldsType"
    fields? := ← Source.optional? Source.value? members "fieldsV1"
    manager? := ← Source.optional? Source.text? members "manager"
    operation? := ← Source.optional? Source.text? members "operation"
    subresource? := ← Source.optional? Source.text? members "subresource"
    time? := ← Source.optional? Timestamp.ofJson? members "time" }

/-- The entry as an object. -/
def toJson (m : ManagedFields) : Json :=
  .ofPresent [
    ("apiVersion", m.apiVersion?.map .str),
    ("fieldsType", m.fieldsType?.map .str),
    ("fieldsV1", m.fields?),
    ("manager", m.manager?.map .str),
    ("operation", m.operation?.map .str),
    ("subresource", m.subresource?.map .str),
    ("time", m.time?.map Timestamp.toJson)]

/-- The entry as it is kept once it was written. -/
def wholeSeconds (m : ManagedFields) : ManagedFields :=
  { m with time? := m.time?.map Timestamp.wholeSecond }

end ManagedFields

namespace Metadata

/-- The metadata an object stands for. -/
def ofJson? (source : σ) : Option Metadata := do
  let members ← Source.members? source
  return {
    annotations? := ← Source.optional? (Source.mapOf? Source.text?) members "annotations"
    creationTimestamp? := ← Source.optional? Timestamp.ofJson? members "creationTimestamp"
    deletionGracePeriodSeconds? :=
      ← Source.optional? Source.int64? members "deletionGracePeriodSeconds"
    deletionTimestamp? := ← Source.optional? Timestamp.ofJson? members "deletionTimestamp"
    finalizers? := ← Source.optional? (Source.listOf? Source.text?) members "finalizers"
    generateName? := ← Source.optional? Source.text? members "generateName"
    generation? := ← Source.optional? Source.int64? members "generation"
    labels? := ← Source.optional? (Source.mapOf? Source.text?) members "labels"
    managedFields? :=
      ← Source.optional? (Source.listOf? ManagedFields.ofJson?) members "managedFields"
    name? := ← Source.optional? Source.text? members "name"
    namespaceName? := ← Source.optional? Source.text? members "namespace"
    ownerReferences? :=
      ← Source.optional? (Source.listOf? OwnerReference.ofJson?) members "ownerReferences"
    resourceVersion? := ← Source.optional? Source.text? members "resourceVersion"
    selfLink? := ← Source.optional? Source.text? members "selfLink"
    uid? := ← Source.optional? Source.text? members "uid" }

/-- The metadata as an object that holds the parts that are there. -/
def toJson (m : Metadata) : Json :=
  .ofPresent [
    ("annotations", m.annotations?.map Json.ofTexts),
    ("creationTimestamp", m.creationTimestamp?.map Timestamp.toJson),
    ("deletionGracePeriodSeconds", m.deletionGracePeriodSeconds?.map fun n => .int n.toInt),
    ("deletionTimestamp", m.deletionTimestamp?.map Timestamp.toJson),
    ("finalizers", m.finalizers?.map Json.ofTextList),
    ("generateName", m.generateName?.map .str),
    ("generation", m.generation?.map fun n => .int n.toInt),
    ("labels", m.labels?.map Json.ofTexts),
    ("managedFields", m.managedFields?.map fun entries => .arr (entries.map ManagedFields.toJson)),
    ("name", m.name?.map .str),
    ("namespace", m.namespaceName?.map .str),
    ("ownerReferences", m.ownerReferences?.map fun rs => .arr (rs.map OwnerReference.toJson)),
    ("resourceVersion", m.resourceVersion?.map .str),
    ("selfLink", m.selfLink?.map .str),
    ("uid", m.uid?.map .str)]

/-! ## Views -/

/-- What an object goes by: its name, or else the stem a name would be made from. -/
def displayName (m : Metadata) : String :=
  match m.name?, m.generateName? with
  | some name, _ => name
  | none, some stem => stem
  | none, none => ""

/-- The key an object is stored under. -/
def key (m : Metadata) : ObjectKey :=
  ⟨m.displayName, m.namespaceName?⟩

/-- The finalizers of an object, none if there is no list of them. -/
def finalizers (m : Metadata) : List String :=
  m.finalizers?.getD []

/-- The owners of an object, none if there is no list of them. -/
def ownerReferences (m : Metadata) : List OwnerReference :=
  m.ownerReferences?.getD []

/-- The labels of an object, none if there is no map of them. -/
def labels (m : Metadata) : StringMap String :=
  m.labels?.getD []

/-- Whether the deletion of the object was asked for. -/
def isDeleted (m : Metadata) : Bool :=
  m.deletionTimestamp?.isSome

/-- The metadata as it is kept once it was written: without the fractions of seconds. -/
def wholeSeconds (m : Metadata) : Metadata :=
  { m with
    creationTimestamp? := m.creationTimestamp?.map Timestamp.wholeSecond
    deletionTimestamp? := m.deletionTimestamp?.map Timestamp.wholeSecond
    managedFields? := m.managedFields?.map (·.map ManagedFields.wholeSeconds) }

end Metadata

end EdgeOperator
