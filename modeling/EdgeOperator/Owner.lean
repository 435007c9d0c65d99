import EdgeOperator.Error
import EdgeOperator.Names
import EdgeOperator.Resource

set_option autoImplicit false

/-! # Owners

The custom resource that a set of objects belongs to. Each of these objects refers to it as its
controller and carries its namespace in a label, since the object itself may live elsewhere. -/

namespace EdgeOperator

/-- The identity of the custom resource that a set of objects belongs to. -/
structure Owner where
  name : String
  namespaceName : String
  reference : OwnerReference
deriving DecidableEq, Repr

namespace Owner

/-- The owner that an object is; the API server must have given it an identity. -/
def ofResource {kind : Kind} (r : Resource kind) : Except OperatorError Owner :=
  match r.metadata.name?, r.metadata.namespaceName?, r.metadata.uid? with
  | none, _, _ => .error (.invalidConfig "invalid name")
  | some _, none, _ => .error (.invalidConfig "invalid namespace")
  | some name, some _, none => .error (.invalidConfig (name ++ " has no uid"))
  | some name, some scope, some uid =>
    .ok ⟨name, scope, ⟨kind.apiVersion, none, some true, kind.name, name, uid⟩⟩

/-- The metadata of an object that belongs to the owner. -/
def objectMeta (owner : Owner) (name : String) (namespaceName? : Option String)
    (labels : StringMap String) : Metadata where
  name? := some name
  namespaceName? := namespaceName?
  labels? := some (labels.set Labels.ownerNamespace owner.namespaceName)
  ownerReferences? := some [owner.reference]

/-- Whether an object with these metadata refers to the owner as its controller. -/
def controls (owner : Owner) (m : Metadata) : Bool :=
  m.ownerReferences.any fun r => r.controller? == some true && r.uid == owner.reference.uid

end Owner

/-- The anchor an object belongs to, by its label and its controller; an object that belongs to a
frontend or to nothing has none. -/
def Metadata.owningAnchor? (m : Metadata) : Option ObjectKey := do
  let scope ← m.labels.get? Labels.ownerNamespace
  let owner ← m.ownerReferences.find? fun r =>
    r.controller? == some true && r.kind == Kind.anchor.name
  return .inNamespace scope owner.name

end EdgeOperator
