import EdgeOperator.Json.Source

set_option autoImplicit false

/-! # Frontends

A frontend is a workload of one container that is exposed through a service and a route. What its
author asks for is the specification here: the image and the port, and optionally how many copies
run, on which node, with which environment, and whether it is the host that takes every request no
other route wants. -/

namespace EdgeOperator

open Json (Source)

variable {σ : Type} [Source σ]

/-- A variable in the environment of a container. -/
structure EnvironmentVariable where
  name : String
  value : String
deriving DecidableEq, Repr

/-- What the author of a frontend asks for. -/
structure FrontendSpec where
  imageName : String
  port : Int32
  replicas? : Option Int32 := none
  nodeName? : Option String := none
  isHost : Bool := false
  environmentVariables? : Option (List EnvironmentVariable) := none
deriving DecidableEq, Repr

/-- An integer that fits 32 bits, as JSON. -/
def Json.ofInt32 (n : Int32) : Json :=
  .int n.toInt

namespace EnvironmentVariable

/-- The members of a variable, in the order in which an array holds them. -/
def keys : List String :=
  ["name", "value"]

/-- The variable a record stands for; a missing member is the empty text. -/
def ofJson? (source : σ) : Option EnvironmentVariable := do
  let members ← Source.record? keys source
  return {
    name := ← Source.withDefault? Source.text? "" members "name"
    value := ← Source.withDefault? Source.text? "" members "value" }

/-- The variable as an object. -/
def toJson (v : EnvironmentVariable) : Json :=
  .obj [("name", .str v.name), ("value", .str v.value)]

end EnvironmentVariable

namespace FrontendSpec

/-- The members of a specification, in the order in which an array holds them. -/
def keys : List String :=
  ["imageName", "port", "replicas", "nodeName", "isHost", "environmentVariables"]

/-- The specification a record stands for; image and port have to be there. -/
def ofJson? (source : σ) : Option FrontendSpec := do
  let members ← Source.record? keys source
  return {
    imageName := ← Source.required? Source.text? members "imageName"
    port := ← Source.required? Source.int32? members "port"
    replicas? := ← Source.optional? Source.int32? members "replicas"
    nodeName? := ← Source.optional? Source.text? members "nodeName"
    isHost := ← Source.withDefault? Source.bool? false members "isHost"
    environmentVariables? :=
      ← Source.optional? (Source.listOf? EnvironmentVariable.ofJson?) members
        "environmentVariables" }

/-- The specification as an object that holds the parts that are there. -/
def toJson (spec : FrontendSpec) : Json :=
  .ofPresent [
    ("environmentVariables", spec.environmentVariables?.map fun vs =>
      .arr (vs.map EnvironmentVariable.toJson)),
    ("imageName", some (.str spec.imageName)),
    ("isHost", some (.bool spec.isHost)),
    ("nodeName", spec.nodeName?.map .str),
    ("port", some (.ofInt32 spec.port)),
    ("replicas", spec.replicas?.map .ofInt32)]

end FrontendSpec

end EdgeOperator
