import EdgeOperator.Frontend.Workload
import EdgeOperator.Program
import EdgeOperator.Stack

set_option autoImplicit false

/-! # Teardown

What was made for a custom resource is removed along a plan, one object after the other. Only
objects that the resource controls are removed, and each has to be gone before the next one is
looked at, so a plan that fails is simply taken up again from its start. -/

namespace EdgeOperator

/-- An object that a plan names. -/
structure TeardownStep where
  kind : Kind
  key : ObjectKey
deriving DecidableEq, Repr

/-! ## Plans -/

/-- Whether objects of a kind may stand in a plan: the operator writes them itself. -/
def Kind.isDependent : Kind → Bool
  | .plain _ | .ingress => true
  | .frontend | .anchor => false

/-- The key of the ingress that carries the routes of a namespace. -/
def routingKey (namespaceName : String) : ObjectKey :=
  .inNamespace namespaceName (Names.routingIngress namespaceName)

/-- The step that removes a component. -/
def Component.teardownStep (component : Component) (owner : Owner) : TeardownStep :=
  ⟨.plain component.kind, component.key owner⟩

namespace Owner

/-- The plan for an anchor: the routes first, then its stack, against the order of creation. -/
def anchorTeardown (owner : Owner) : List TeardownStep :=
  ⟨.ingress, routingKey owner.namespaceName⟩ ::
    Component.creationOrder.reverse.map (·.teardownStep owner)

/-- The plan for a frontend. Its route stays behind; it belongs to the anchor. -/
def frontendTeardown (owner : Owner) : List TeardownStep :=
  [⟨.plain .deployment, Workload.deploymentKey owner⟩,
    ⟨.plain .service, Workload.serviceKey owner⟩]

end Owner

/-! ## Removal -/

/-- The failure that says an object is not gone yet. -/
def TeardownStep.pending (step : TeardownStep) : OperatorError :=
  .teardownPending step.kind.name step.key.display

/-- Fails while the object is there; deletion may take its time. -/
def TeardownStep.awaitGone (step : TeardownStep) : Program Unit := do
  match ← Program.get step.kind step.key with
  | some _ => .fail step.pending
  | none => return

/-- Deletes the object; that it is gone already is no failure. -/
def TeardownStep.delete (step : TeardownStep) : Program Unit := do
  match ← Program.attempt (.delete step.kind step.key) with
  | .ok _ => step.awaitGone
  | .error e => if e.failure = .notFound then return else .fail e

/-- Removes the object if the owner controls it. -/
def TeardownStep.remove (step : TeardownStep) (owner : Owner) : Program Unit := do
  match ← Program.get step.kind step.key with
  | none => return
  | some current =>
    if !owner.controls current.metadata then return
    else if current.metadata.isDeleted then .fail step.pending
    else step.delete

/-- Removes the objects of a plan in order. The first failure ends it. -/
def teardown (owner : Owner) : List TeardownStep → Program Unit
  | [] => return
  | step :: rest => do
    step.remove owner
    teardown owner rest

end EdgeOperator
