import EdgeOperator.Program

set_option autoImplicit false

/-! # The life of a custom resource

The operator puts a mark, a finalizer of its own, on a custom resource before it creates anything
for it, and takes the mark off only after all of that is gone. Deletion and mark together tell where
in its life a resource is. -/

namespace EdgeOperator

/-- Where in its life a custom resource is. -/
inductive LifeStage where
  /-- Neither marked nor deleted. -/
  | unmarked
  /-- Marked and not deleted. -/
  | marked
  /-- Deleted, and kept by the mark until everything made for it is gone. -/
  | tearingDown
  /-- Deleted and without the mark. -/
  | released
deriving DecidableEq, Repr

namespace Metadata

/-- The stage that deletion and mark tell. -/
def lifeStage (m : Metadata) (mark : String) : LifeStage :=
  match m.isDeleted, m.finalizers.contains mark with
  | false, false => .unmarked
  | false, true => .marked
  | true, true => .tearingDown
  | true, false => .released

/-- The metadata with the mark put behind the finalizers that are there. -/
def addMark (m : Metadata) (mark : String) : Metadata :=
  { m with finalizers? := some (m.finalizers ++ [mark]) }

/-- The metadata without the mark; all other finalizers stay in their order. -/
def dropMark (m : Metadata) (mark : String) : Metadata :=
  { m with finalizers? := some (m.finalizers.filter fun f => f ≠ mark) }

end Metadata

/-- Writes the mark onto an object. Another write since the object was read makes it fail. -/
def register {kind : Kind} (object : Resource kind) (mark : String) : Program (Resource kind) :=
  Program.replace { object with metadata := object.metadata.addMark mark }

/-- Takes the mark off an object. Another write since the object was read makes it fail. -/
def release {kind : Kind} (object : Resource kind) (mark : String) : Program (Resource kind) :=
  Program.replace { object with metadata := object.metadata.dropMark mark }

end EdgeOperator
