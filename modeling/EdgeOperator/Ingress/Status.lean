import EdgeOperator.Frontend

set_option autoImplicit false

/-! # Status of ingresses

Where requests that an ingress routes enter the cluster, as a load balancer reports it. -/

namespace EdgeOperator

open Json (Source)

variable {σ : Type} [Source σ]

/-- How a port of a point of entry is doing. -/
structure EntryPort where
  error? : Option String := none
  port : Int32
  protocol : String
deriving DecidableEq, Repr

/-- A point at which requests enter the cluster. -/
structure EntryPoint where
  hostname? : Option String := none
  ip? : Option String := none
  ports? : Option (List EntryPort) := none
deriving DecidableEq, Repr

/-- The points of entry that a load balancer has for an ingress. -/
structure LoadBalancer where
  entryPoints? : Option (List EntryPoint) := none
deriving DecidableEq, Repr

/-- What became of an ingress. -/
structure IngressStatus where
  loadBalancer? : Option LoadBalancer := none
deriving DecidableEq, Repr

/-! ## JSON form -/

namespace EntryPort

/-- The port an object stands for. -/
def ofJson? (source : σ) : Option EntryPort := do
  let members ← Source.members? source
  return {
    error? := ← Source.optional? Source.text? members "error"
    port := (← Source.optional? Source.int32? members "port").getD 0
    protocol := ← Source.textOrEmpty? members "protocol" }

/-- The port as an object. -/
def toJson (port : EntryPort) : Json :=
  .ofPresent [
    ("error", port.error?.map .str),
    ("port", some (.ofInt32 port.port)),
    ("protocol", some (.str port.protocol))]

end EntryPort

namespace EntryPoint

/-- The point of entry an object stands for. -/
def ofJson? (source : σ) : Option EntryPoint := do
  let members ← Source.members? source
  return {
    hostname? := ← Source.optional? Source.text? members "hostname"
    ip? := ← Source.optional? Source.text? members "ip"
    ports? := ← Source.optional? (Source.listOf? EntryPort.ofJson?) members "ports" }

/-- The point of entry as an object. -/
def toJson (point : EntryPoint) : Json :=
  .ofPresent [
    ("hostname", point.hostname?.map .str),
    ("ip", point.ip?.map .str),
    ("ports", point.ports?.map fun ports => .arr (ports.map EntryPort.toJson))]

end EntryPoint

namespace LoadBalancer

/-- The load balancer an object stands for. -/
def ofJson? (source : σ) : Option LoadBalancer := do
  let members ← Source.members? source
  return {
    entryPoints? := ← Source.optional? (Source.listOf? EntryPoint.ofJson?) members "ingress" }

/-- The load balancer as an object. -/
def toJson (balancer : LoadBalancer) : Json :=
  .ofPresent [
    ("ingress", balancer.entryPoints?.map fun points => .arr (points.map EntryPoint.toJson))]

end LoadBalancer

namespace IngressStatus

/-- The status an object stands for. -/
def ofJson? (source : σ) : Option IngressStatus := do
  let members ← Source.members? source
  return { loadBalancer? := ← Source.optional? LoadBalancer.ofJson? members "loadBalancer" }

/-- The status as an object. -/
def toJson (status : IngressStatus) : Json :=
  .ofPresent [("loadBalancer", status.loadBalancer?.map LoadBalancer.toJson)]

end IngressStatus

end EdgeOperator
