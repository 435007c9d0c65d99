import EdgeOperator.Program

set_option autoImplicit false

/-! # A cluster in memory

The objects of a cluster by path, with the rules of an API server that the operator relies on. Every
write gives the object a new version; a replacement that names another version than the stored one
is refused; identity and times of an object are kept by the server; and an object with finalizers is
only marked by its deletion, and goes when its last finalizer does.

For tests, calls can be made to fail, another writer can be let in right before a replacement, and
all calls are noted. -/

namespace EdgeOperator

/-- What a call does. -/
inductive Verb where
  | get
  | list
  | create
  | replace
  | delete
deriving DecidableEq, Repr

/-- A call as it is noted: what it does, and on which path. -/
structure Call where
  verb : Verb
  path : String
deriving DecidableEq, Repr

/-- A failure that strikes the next calls of one form. -/
structure Fault where
  call : Call
  code : Nat
  reason : String
  remaining : Nat
deriving DecidableEq, Repr

/-- A change that keeps the kind of an object. -/
abbrev Edit := (kind : Kind) → Resource kind → Resource kind

/-- A cluster: its objects by path, the number of versions given out, its clock, and what was
arranged for tests. -/
structure Cluster where
  objects : StringMap AnyResource := []
  revision : Nat := 0
  now : Timestamp
  faults : List Fault := []
  edits : StringMap (List Edit) := []
  calls : List Call := []

/-- The refusal of a call with a code and a reason. -/
def ApiStatus.refusal (code : Nat) (reason : String) : ApiStatus :=
  ⟨"Failure", "injected " ++ reason, reason, code⟩

/-- The failure of a call that is refused with a code and a reason. -/
def refused (code : Nat) (reason : String) : OperatorError :=
  .call (.api (.refusal code reason))

/-! ## The path of a call -/

/-- The path that starts the paths of all objects of a list. -/
def listPrefix (kind : Kind) (namespaceName? : Option String) : String :=
  kind.path namespaceName? ++ "/"

/-- The call as it is noted. -/
def Request.call : Request → Call
  | .get kind key => ⟨.get, key.path kind⟩
  | .list kind namespaceName? => ⟨.list, listPrefix kind namespaceName?⟩
  | .create _ object => ⟨.create, object.path⟩
  | .replace _ object => ⟨.replace, object.path⟩
  | .delete kind key => ⟨.delete, key.path kind⟩

namespace Cluster

/-! ## Faults -/

/-- The first of the faults that strikes a call, if any, and the faults that are left. -/
def strike (call : Call) : List Fault → Option OperatorError × List Fault
  | [] => (none, [])
  | fault :: rest =>
    if fault.call = call ∧ 0 < fault.remaining then
      (some (refused fault.code fault.reason),
        { fault with remaining := fault.remaining - 1 } :: rest)
    else
      let (struck?, rest) := strike call rest
      (struck?, fault :: rest)

/-- Notes a call; a fault may strike it. -/
def note (cluster : Cluster) (call : Call) : Option OperatorError × Cluster :=
  let (struck?, faults) := strike call cluster.faults
  (struck?, { cluster with calls := cluster.calls ++ [call], faults := faults })

/-- Has the next calls of one form fail. -/
def fail (cluster : Cluster) (call : Call) (code : Nat) (reason : String) (times : Nat) : Cluster :=
  { cluster with faults := cluster.faults ++ [⟨call, code, reason, times⟩] }

/-! ## Objects -/

/-- The stored object of a kind under a path. -/
def find? (cluster : Cluster) (kind : Kind) (path : String) : Option (Resource kind) :=
  (cluster.objects.get? path).bind (·.ofKind? kind)

/-- The version that the next write gets. -/
def nextVersion (cluster : Cluster) : String :=
  toString (cluster.revision + 1)

/-- Stores an object under a path; the version it carries is given out. -/
def put {kind : Kind} (cluster : Cluster) (path : String) (object : Resource kind) : Cluster :=
  { cluster with
    revision := cluster.revision + 1
    objects := cluster.objects.set path ⟨kind, object.wholeSeconds⟩ }

/-- Removes the object under a path. -/
def remove (cluster : Cluster) (path : String) : Cluster :=
  { cluster with objects := cluster.objects.erase path }

/-- The objects of a kind in one namespace or everywhere, in the order of their paths. -/
def listed (cluster : Cluster) (kind : Kind) (namespaceName? : Option String) :
    List (Resource kind) :=
  cluster.objects.filterMap fun (path, object) =>
    match (listPrefix kind namespaceName?).toList.isPrefixOf? path.toList with
    | some name => if name.contains '/' then none else object.ofKind? kind
    | none => none

/-! ## Creation -/

/-- An object as it is once it was created: what it does not say of itself is filled in. -/
def created {kind : Kind} (cluster : Cluster) (object : Resource kind) : Resource kind :=
  let m := object.metadata
  { object with
    metadata :=
      { m with
        resourceVersion? := some cluster.nextVersion
        uid? := some (m.uid?.getD ("uid-" ++ cluster.nextVersion))
        creationTimestamp? := some (m.creationTimestamp?.getD cluster.now) } }

/-- Creates an object, unless one is stored under its key. -/
def create {kind : Kind} (cluster : Cluster) (object : Resource kind) :
    Except OperatorError (Resource kind) × Cluster :=
  if cluster.objects.contains object.path then (.error (refused 409 "AlreadyExists"), cluster)
  else (.ok (cluster.created object), cluster.put object.path (cluster.created object))

/-! ## Replacement -/

/-- The other writer gets in: the first edit arranged for a path is made. It takes a version even
if there is no object. -/
def letIn (cluster : Cluster) (path : String) : Cluster :=
  match cluster.edits.get? path with
  | none | some [] => cluster
  | some (edit :: rest) =>
    { cluster with
      revision := cluster.revision + 1
      edits := cluster.edits.set path rest
      objects :=
        match cluster.objects.get? path with
        | none => cluster.objects
        | some ⟨kind, object⟩ =>
          let edited := (edit kind object).wholeSeconds
          cluster.objects.set path
            ⟨kind, { edited with
              metadata := { edited.metadata with resourceVersion? := some cluster.nextVersion } }⟩ }

/-- Arranges an edit right before a replacement under a path. -/
def beforeReplace (cluster : Cluster) (path : String) (edit : Edit) : Cluster :=
  { cluster with edits := cluster.edits.set path ((cluster.edits.get? path).getD [] ++ [edit]) }

/-- An object as it is once it took the place of another: identity and times stay. -/
def replaced {kind : Kind} (cluster : Cluster) (current object : Resource kind) : Resource kind :=
  { object with
    metadata :=
      { object.metadata with
        resourceVersion? := some cluster.nextVersion
        uid? := current.metadata.uid?
        creationTimestamp? := current.metadata.creationTimestamp?
        deletionTimestamp? := current.metadata.deletionTimestamp? } }

/-- Whether an object was changed since the version that its replacement names. -/
def isOutdated {kind : Kind} (current object : Resource kind) : Bool :=
  object.metadata.resourceVersion?.isSome &&
    object.metadata.resourceVersion? ≠ current.metadata.resourceVersion?

/-- Puts an object in the place of the one under its key. A deleted object goes when it has no
finalizers any more. -/
def replace {kind : Kind} (cluster : Cluster) (object : Resource kind) :
    Except OperatorError (Resource kind) × Cluster :=
  match cluster.find? kind object.path with
  | none => (.error (refused 404 "NotFound"), cluster)
  | some current =>
    if isOutdated current object then (.error (refused 409 "Conflict"), cluster)
    else
      let next := cluster.replaced current object
      if next.metadata.isDeleted && next.metadata.finalizers.isEmpty then
        (.ok next, { cluster.remove object.path with revision := cluster.revision + 1 })
      else (.ok next, cluster.put object.path next)

/-! ## Deletion -/

/-- An object as it is once its deletion was asked for. -/
def marked {kind : Kind} (cluster : Cluster) (object : Resource kind) : Resource kind :=
  { object with
    metadata :=
      { object.metadata with
        resourceVersion? := some cluster.nextVersion
        deletionTimestamp? := some cluster.now } }

/-- Deletes the object of a kind under a key: without finalizers it goes, else it is marked once. -/
def delete (cluster : Cluster) (kind : Kind) (key : ObjectKey) :
    Except OperatorError Unit × Cluster :=
  match cluster.find? kind (key.path kind) with
  | none => (.error (refused 404 "NotFound"), cluster)
  | some current =>
    if current.metadata.finalizers.isEmpty then (.ok (), cluster.remove (key.path kind))
    else if current.metadata.isDeleted then (.ok (), cluster)
    else (.ok (), cluster.put (key.path kind) (cluster.marked current))

/-- Marks the object of a kind under a key as deleted, whatever finalizers it has; `none` if there
is no such object. -/
def markDeleted? (cluster : Cluster) (kind : Kind) (key : ObjectKey) : Option Cluster :=
  (cluster.find? kind (key.path kind)).map fun current =>
    cluster.put (key.path kind) (cluster.marked current)

/-! ## Answering calls -/

/-- What is answered to a call that no fault strikes. -/
def answer (cluster : Cluster) :
    (request : Request) → Except OperatorError request.Answer × Cluster
  | .get kind key => (.ok (cluster.find? kind (key.path kind)), cluster)
  | .list kind namespaceName? => (.ok (cluster.listed kind namespaceName?), cluster)
  | .create _ object => cluster.create object
  | .replace _ object => (cluster.letIn object.path).replace object
  | .delete kind key => cluster.delete kind key

/-- What is answered to a call that a fault strikes: a look-up that fails for want of the object
finds nothing. -/
def struckAnswer (e : OperatorError) : (request : Request) → Except OperatorError request.Answer
  | .get _ _ => if e.failure = .notFound then .ok none else .error e
  | .list _ _ | .create _ _ | .replace _ _ | .delete _ _ => .error e

/-- Answers a call. -/
def serve (request : Request) (cluster : Cluster) :
    Except OperatorError request.Answer × Cluster :=
  match cluster.note request.call with
  | (some e, cluster) => (struckAnswer e request, cluster)
  | (none, cluster) => cluster.answer request

end Cluster

end EdgeOperator
