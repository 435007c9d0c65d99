import EdgeOperator.Program

set_option autoImplicit false

/-! # Having an object in place

An object that is missing is created; one that is there is left as it is. Another writer may create
it between the look-up and the creation, and then its object is taken. -/

namespace EdgeOperator

/-- What was done to have something in place. -/
inductive Outcome where
  | created
  | updated
  | alreadySatisfied
deriving DecidableEq, Repr

/-- An object that is in place, and what was done about it. -/
structure Ensured (kind : Kind) where
  object : Resource kind
  outcome : Outcome
  /-- Whether the object to create was asked for. -/
  built : Bool

/-- Takes the object that was created by another writer; if it is gone again, the refusal of the
own creation stands. -/
def adopt (kind : Kind) (key : ObjectKey) (refusal : OperatorError) : Program (Ensured kind) := do
  match ← Program.get kind key with
  | some object => return ⟨object, .alreadySatisfied, true⟩
  | none => .fail refusal

/-- Has an object in place under a key. -/
def ensure {kind : Kind} (key : ObjectKey) (planned : Resource kind) : Program (Ensured kind) := do
  match ← Program.get kind key with
  | some object => return ⟨object, .alreadySatisfied, false⟩
  | none =>
    match ← Program.attempt (.create kind planned) with
    | .ok object => return ⟨object, .created, true⟩
    | .error e => if e.failure = .alreadyExists then adopt kind key e else .fail e

end EdgeOperator
