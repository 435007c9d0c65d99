import EdgeOperator.Ensure
import EdgeOperator.Route
import EdgeOperator.Route.Anchor
import EdgeOperator.Teardown

set_option autoImplicit false

/-! # Keeping a frontend's route in place

The routing ingress is read, the route merged in, and the result written. If another writer gets in
between, by a change, a creation or a deletion of the ingress, all of it is done again, up to a
given number of attempts. -/

namespace EdgeOperator

/-- The route a frontend asks for. -/
def FrontendSpec.route (spec : FrontendSpec) (frontend : Owner) : IngressPath :=
  .route (routePattern frontend.name spec.isHost)
    (.ofService (Names.frontendService frontend.name) spec.port)

/-- What an attempt to write a route came to. -/
inductive RouteAttempt where
  /-- The route is in place. -/
  | settled (outcome : Outcome)
  /-- Another writer got in between. -/
  | overtaken
deriving DecidableEq, Repr

/-- Judges the writing of a route. -/
def RouteAttempt.ofWrite (outcome : Outcome) :
    Except OperatorError (Resource .ingress) → Program RouteAttempt
  | .ok _ => return .settled outcome
  | .error e =>
    match e.failure with
    | .conflict | .alreadyExists | .notFound => return .overtaken
    | .transient | .fatal => .fail e

/-- Creates the routing ingress of a frontend's namespace with the frontend's route. -/
def createRouting (frontend : Owner) (spec : FrontendSpec) : Program RouteAttempt := do
  match Owner.ofResource (← findAnchor frontend.namespaceName) with
  | .error e => .fail e
  | .ok anchor =>
    RouteAttempt.ofWrite .created
      (← Program.attempt (.create .ingress (routingIngress anchor (spec.route frontend))))

/-- Merges a frontend's route into the routing ingress. -/
def updateRouting (frontend : Owner) (spec : FrontendSpec) (ingress : Resource .ingress) :
    Program RouteAttempt := do
  let content : IngressContent := ingress.content
  let route := spec.route frontend
  let merged := mergePath content.routes (routePattern frontend.name spec.isHost) route.backend
  if merged.changed then
    let changed : Resource .ingress := { ingress with content := content.withRoutes merged.paths }
    RouteAttempt.ofWrite .updated (← Program.attempt (.replace .ingress changed))
  else return .settled .alreadySatisfied

/-- Attempts once to have a frontend's route in place. -/
def attemptRoute (frontend : Owner) (spec : FrontendSpec) : Program RouteAttempt := do
  match ← Program.get .ingress (routingKey frontend.namespaceName) with
  | none => createRouting frontend spec
  | some ingress => updateRouting frontend spec ingress

/-- Attempts to have a frontend's route in place until it is, at most a given number of times;
`total` is the number the failure names. -/
def retryRoute (frontend : Owner) (spec : FrontendSpec) (total : Nat) : Nat → Program Outcome
  | 0 => .fail (.routeConflict (routingKey frontend.namespaceName).display total)
  | left + 1 => do
    match ← attemptRoute frontend spec with
    | .settled outcome => return outcome
    | .overtaken => retryRoute frontend spec total left

/-- Has a frontend's route in place. -/
def ensureRoute (frontend : Owner) (spec : FrontendSpec) (attempts : Nat) : Program Outcome :=
  retryRoute frontend spec attempts attempts

end EdgeOperator
