import EdgeOperator.Frontend

set_option autoImplicit false

/-! # Pods

What a pod runs: its containers with their ports, environment, probes and rights, and the volumes
they mount. Only what the operator's own manifests say has a place here. -/

namespace EdgeOperator

/-- A port that is meant by its number or by its name. -/
inductive PortReference where
  | numbered (port : Int32)
  | named (name : String)
deriving DecidableEq, Repr

/-- Where the value of a variable comes from. -/
inductive EnvironmentSource where
  /-- A text. -/
  | value (text : String)
  /-- A part of the description of the pod itself. -/
  | field (path : String)
deriving DecidableEq, Repr

/-- A variable of a container. -/
structure ContainerVariable where
  name : String
  source : EnvironmentSource
deriving DecidableEq, Repr

/-- A port a container listens on. -/
structure ContainerPort where
  port : Int32
  name? : Option String := none
  protocol? : Option String := none
deriving DecidableEq, Repr

/-- A check that a container answers requests to a path. -/
structure Probe where
  failureThreshold : Int32
  path : String
  port : Int32
  scheme : String
  initialDelaySeconds : Int32
  periodSeconds : Int32
  successThreshold : Int32
  timeoutSeconds : Int32
deriving DecidableEq, Repr

/-- The rights of a container. -/
structure SecurityContext where
  allowPrivilegeEscalation : Bool
  addedCapabilities? : Option (List String) := none
  droppedCapabilities : List String
  readOnlyRootFilesystem? : Option Bool := none
  runAsNonRoot? : Option Bool := none
  runAsUser : Int64
  seccompProfile? : Option String := none
deriving DecidableEq, Repr

/-- Where a container finds a volume. -/
structure VolumeMount where
  name : String
  mountPath : String
  readOnly : Bool
deriving DecidableEq, Repr

/-- A container of a pod. -/
structure Container where
  name : String
  image : String
  imagePullPolicy? : Option String := none
  args? : Option (List String) := none
  environment : List ContainerVariable
  stopCommand? : Option (List String) := none
  livenessProbe? : Option Probe := none
  readinessProbe? : Option Probe := none
  ports? : Option (List ContainerPort) := none
  requests? : Option (StringMap String) := none
  limits? : Option (StringMap String) := none
  securityContext? : Option SecurityContext := none
  volumeMounts? : Option (List VolumeMount) := none
deriving DecidableEq, Repr

/-- A volume that holds a secret. -/
structure SecretVolume where
  name : String
  secretName : String
deriving DecidableEq, Repr

/-- What a pod runs. -/
structure PodSpec where
  containers : List Container
  automountServiceAccountToken? : Option Bool := none
  dnsPolicy? : Option String := none
  nodeSelector? : Option (StringMap String) := none
  restartPolicy? : Option String := none
  serviceAccountName? : Option String := none
  terminationGracePeriodSeconds? : Option Int64 := none
  volumes? : Option (List SecretVolume) := none
deriving DecidableEq, Repr

/-- The pods that a workload starts. -/
structure PodTemplate where
  name? : Option String := none
  labels : StringMap String
  spec : PodSpec
deriving DecidableEq, Repr

/-! ## JSON form -/

/-- A port by number or name. -/
def PortReference.toJson : PortReference → Json
  | .numbered port => .ofInt32 port
  | .named name => .str name

/-- A variable as an object. -/
def ContainerVariable.toJson (v : ContainerVariable) : Json :=
  match v.source with
  | .value text => .obj [("name", .str v.name), ("value", .str text)]
  | .field path =>
    .obj [("name", .str v.name),
      ("valueFrom", .obj [("fieldRef", .obj [("fieldPath", .str path)])])]

/-- A port as an object. -/
def ContainerPort.toJson (p : ContainerPort) : Json :=
  .ofPresent [
    ("containerPort", some (.ofInt32 p.port)),
    ("name", p.name?.map .str),
    ("protocol", p.protocol?.map .str)]

/-- A check as an object. -/
def Probe.toJson (p : Probe) : Json :=
  .obj [
    ("failureThreshold", .ofInt32 p.failureThreshold),
    ("httpGet", .obj [
      ("path", .str p.path), ("port", .ofInt32 p.port), ("scheme", .str p.scheme)]),
    ("initialDelaySeconds", .ofInt32 p.initialDelaySeconds),
    ("periodSeconds", .ofInt32 p.periodSeconds),
    ("successThreshold", .ofInt32 p.successThreshold),
    ("timeoutSeconds", .ofInt32 p.timeoutSeconds)]

/-- Rights as an object. -/
def SecurityContext.toJson (s : SecurityContext) : Json :=
  .ofPresent [
    ("allowPrivilegeEscalation", some (.bool s.allowPrivilegeEscalation)),
    ("capabilities", some <| .ofPresent [
      ("add", s.addedCapabilities?.map Json.ofTextList),
      ("drop", some (Json.ofTextList s.droppedCapabilities))]),
    ("readOnlyRootFilesystem", s.readOnlyRootFilesystem?.map .bool),
    ("runAsNonRoot", s.runAsNonRoot?.map .bool),
    ("runAsUser", some (.int s.runAsUser.toInt)),
    ("seccompProfile", s.seccompProfile?.map fun profile => .obj [("type", .str profile)])]

/-- A mount as an object. -/
def VolumeMount.toJson (m : VolumeMount) : Json :=
  .obj [("mountPath", .str m.mountPath), ("name", .str m.name), ("readOnly", .bool m.readOnly)]

/-- The resources of a container as an object; `none` if nothing is said about them. -/
def Container.resources? (c : Container) : Option Json :=
  if c.requests?.isNone && c.limits?.isNone then none
  else some <| .ofPresent [
    ("limits", c.limits?.map Json.ofTexts), ("requests", c.requests?.map Json.ofTexts)]

/-- A command to run before a container stops, as its lifecycle. -/
def stopLifecycle (command : List String) : Json :=
  .obj [("preStop", .obj [("exec", .obj [("command", Json.ofTextList command)])])]

/-- A container as an object. -/
def Container.toJson (c : Container) : Json :=
  .ofPresent [
    ("args", c.args?.map Json.ofTextList),
    ("env", some (.arr (c.environment.map ContainerVariable.toJson))),
    ("image", some (.str c.image)),
    ("imagePullPolicy", c.imagePullPolicy?.map .str),
    ("lifecycle", c.stopCommand?.map stopLifecycle),
    ("livenessProbe", c.livenessProbe?.map Probe.toJson),
    ("name", some (.str c.name)),
    ("ports", c.ports?.map fun ports => .arr (ports.map ContainerPort.toJson)),
    ("readinessProbe", c.readinessProbe?.map Probe.toJson),
    ("resources", c.resources?),
    ("securityContext", c.securityContext?.map SecurityContext.toJson),
    ("volumeMounts", c.volumeMounts?.map fun mounts => .arr (mounts.map VolumeMount.toJson))]

/-- A volume as an object. -/
def SecretVolume.toJson (v : SecretVolume) : Json :=
  .obj [("name", .str v.name), ("secret", .obj [("secretName", .str v.secretName)])]

/-- What a pod runs as an object. -/
def PodSpec.toJson (p : PodSpec) : Json :=
  .ofPresent [
    ("automountServiceAccountToken", p.automountServiceAccountToken?.map .bool),
    ("containers", some (.arr (p.containers.map Container.toJson))),
    ("dnsPolicy", p.dnsPolicy?.map .str),
    ("nodeSelector", p.nodeSelector?.map Json.ofTexts),
    ("restartPolicy", p.restartPolicy?.map .str),
    ("serviceAccountName", p.serviceAccountName?.map .str),
    ("terminationGracePeriodSeconds",
      p.terminationGracePeriodSeconds?.map fun seconds => .int seconds.toInt),
    ("volumes", p.volumes?.map fun volumes => .arr (volumes.map SecretVolume.toJson))]

/-- The template of a workload as an object. -/
def PodTemplate.toJson (t : PodTemplate) : Json :=
  .obj [
    ("metadata", .ofPresent [
      ("labels", some (Json.ofTexts t.labels)), ("name", t.name?.map .str)]),
    ("spec", t.spec.toJson)]

end EdgeOperator
