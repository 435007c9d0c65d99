import EdgeOperator.Ensure
import EdgeOperator.Lifecycle
import EdgeOperator.Route.Upkeep
import EdgeOperator.Settings
import EdgeOperator.Teardown

set_option autoImplicit false

/-! # Duties of the operator

The operator has a duty for each kind of custom resource: to have in place what the resource asks
for while it lives, and to remove all of that once its deletion was asked for. A pass does what has
to be done for one resource, from its stored state alone, so a pass that failed is simply repeated.

A pass marks the resource before it installs anything, and takes the mark off only after the
teardown is complete. -/

namespace EdgeOperator

/-- What a pass came to. -/
inductive PassOutcome where
  /-- Everything the resource asks for is in place. -/
  | reconciled
  /-- Everything made for the resource was removed, and the mark taken off. -/
  | tornDown
  /-- The resource is gone or none of the operator's business any more. -/
  | removed
deriving DecidableEq, Repr

/-- What the operator owes to the resources of a kind. -/
structure Duty (kind : Kind) where
  mark : String
  teardownPlan : Owner → List TeardownStep
  install : Owner → Resource kind → Program Unit

namespace Duty

variable {kind : Kind}

/-! ## Passes -/

/-- Installs what a resource asks for. The owner is the resource as it is stored now; what it asks
for is taken from the resource as it was read. -/
def settle (duty : Duty kind) (stored read : Resource kind) : Program PassOutcome :=
  match Owner.ofResource stored with
  | .error e => .fail e
  | .ok owner => do
    duty.install owner read
    return .reconciled

/-- Removes what was made for a resource, then lets the resource go. -/
def dismantle (duty : Duty kind) (object : Resource kind) : Program PassOutcome :=
  match Owner.ofResource object with
  | .error e => .fail e
  | .ok owner => do
    teardown owner (duty.teardownPlan owner)
    let _ ← release object duty.mark
    return .tornDown

/-- A pass for the resource with a key. -/
def pass (duty : Duty kind) (key : ObjectKey) : Program PassOutcome := do
  match ← Program.get kind key with
  | none => return .removed
  | some object =>
    match object.metadata.lifeStage duty.mark with
    | .released => return .removed
    | .tearingDown => duty.dismantle object
    | .unmarked => duty.settle (← register object duty.mark) object
    | .marked => duty.settle object object

/-- A pass for a resource that was reported as changed; only its name and namespace are taken from
the report. -/
def passFor (duty : Duty kind) (reported : Resource kind) : Program PassOutcome :=
  match reported.metadata.namespaceName? with
  | some scope => duty.pass (.inNamespace scope reported.metadata.displayName)
  | none => .fail (.invalidConfig "missing namespace")

end Duty

/-- When a resource is looked at again after a pass; `none` if only after its next change. -/
def Settings.nextCheck (settings : Settings) : PassOutcome → Option Nat
  | .reconciled => some settings.resyncSeconds
  | .tornDown | .removed => none

/-! ## The duty to anchors -/

/-- Has a component of the stack in place. -/
def Component.ensure (component : Component) (owner : Owner) : Program Outcome := do
  let ensured ← EdgeOperator.ensure (component.key owner) (component.blueprint owner).toResource
  return ensured.outcome

/-- Has components in place, one after the other. -/
def ensureComponents (owner : Owner) : List Component → Program Unit
  | [] => return
  | component :: rest => do
    let _ ← component.ensure owner
    ensureComponents owner rest

namespace Duty

/-- An anchor gets its stack. -/
def anchor : Duty .anchor where
  mark := Names.anchorFinalizer
  teardownPlan := Owner.anchorTeardown
  install owner _ := ensureComponents owner Component.creationOrder

/-! ## The duty to frontends -/

/-- A frontend gets its service, its deployment and its route. -/
def frontend (attempts : Nat) : Duty .frontend where
  mark := Names.frontendFinalizer
  teardownPlan := Owner.frontendTeardown
  install owner object := do
    let content : FrontendContent := object.content
    let _ ← ensure (Workload.serviceKey owner) (Workload.service owner content.spec).toResource
    let _ ←
      ensure (Workload.deploymentKey owner) (Workload.deployment owner content.spec).toResource
    let _ ← ensureRoute owner content.spec attempts
    return

end Duty

end EdgeOperator
