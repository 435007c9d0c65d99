import EdgeOperator.Client
import EdgeOperator.Client.Script
import EdgeOperator.Cluster
import EdgeOperator.Definition
import EdgeOperator.Duty
import EdgeOperator.Main
import EdgeOperator.Proofs.Client.Absence
import EdgeOperator.Proofs.Cluster
import EdgeOperator.Proofs.Cluster.Addresses
import EdgeOperator.Proofs.Cluster.Amid
import EdgeOperator.Proofs.Cluster.Calm
import EdgeOperator.Proofs.Cluster.Concurrency
import EdgeOperator.Proofs.Cluster.Faithful
import EdgeOperator.Proofs.Cluster.Stored
import EdgeOperator.Proofs.Cluster.Versions
import EdgeOperator.Proofs.Cluster.Writes
import EdgeOperator.Proofs.Duty
import EdgeOperator.Proofs.Ensure
import EdgeOperator.Proofs.ObjectKey
import EdgeOperator.Proofs.Operation
import EdgeOperator.Proofs.Operation.Routing
import EdgeOperator.Proofs.Owner
import EdgeOperator.Proofs.Ownership
import EdgeOperator.Proofs.Ownership.Adoption
import EdgeOperator.Proofs.Ownership.Install
import EdgeOperator.Proofs.Ownership.Pass
import EdgeOperator.Proofs.Program
import EdgeOperator.Proofs.Recovery
import EdgeOperator.Proofs.Recovery.Installing
import EdgeOperator.Proofs.Recovery.Undoing
import EdgeOperator.Proofs.Route
import EdgeOperator.Proofs.Route.Attempts
import EdgeOperator.Proofs.Route.Revival
import EdgeOperator.Proofs.Route.Upkeep
import EdgeOperator.Proofs.StringMap
import EdgeOperator.Proofs.Teardown
import EdgeOperator.Proofs.Teardown.Overtaken
import EdgeOperator.Proofs.World
import EdgeOperator.Tasks
import EdgeOperator.Proofs.Installation
import EdgeOperator.Proofs.Installation.Pass
import EdgeOperator.Proofs.Installation.Stack
import EdgeOperator.Proofs.Installation.Routing
import EdgeOperator.Proofs.Installation.Frontend
import EdgeOperator.Proofs.Cluster.Quiet
import EdgeOperator.Proofs.Quiet.Pass
import EdgeOperator.Proofs.Quiet.Teardown
import EdgeOperator.Proofs.Quiet.Installation
import EdgeOperator.Proofs.Quiet.RoundTrip
import EdgeOperator.Proofs.Quiet.Repetition
import EdgeOperator.Proofs.Lifecycle
import EdgeOperator.Proofs.Operation.Provision
import EdgeOperator.Proofs.Operation.Ledger
import EdgeOperator.Proofs.Operation.Ports
import EdgeOperator.Proofs.Operation.Patterns
import EdgeOperator.Proofs.Operation.Standing
import EdgeOperator.Proofs.Operation.Settling
import EdgeOperator.Proofs.Route.Merges
import EdgeOperator.Proofs.Stack.Keys
import EdgeOperator.Proofs.Stack.Passes
import EdgeOperator.Proofs.Stack.Neighbours
import EdgeOperator.Proofs.Stack.Roles
import EdgeOperator.Proofs.Cluster.Idle
import EdgeOperator.Proofs.Route.Conclusion
import EdgeOperator.Proofs.Text.Bytes
import EdgeOperator.Proofs.Route.Anchor
import EdgeOperator.Proofs.Stack.Blueprints
import EdgeOperator.Proofs.Stack.Arguments
import EdgeOperator.Proofs.Stack.References
import EdgeOperator.Proofs.Route.Retries
import EdgeOperator.Proofs.Duty.Failures
import EdgeOperator.Proofs.Stack.Certificate
import EdgeOperator.Proofs.Timestamp
import EdgeOperator.Proofs.Json.Source
import EdgeOperator.Proofs.Metadata
import EdgeOperator.Proofs.Resource
