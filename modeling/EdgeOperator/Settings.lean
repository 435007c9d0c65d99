import EdgeOperator.CommandLine
import EdgeOperator.Error
import EdgeOperator.Text.Digits

set_option autoImplicit false

/-! # Settings of the operator

Four spans of time in seconds and the number of attempts to write a route, each with a default and
an option of the command line. -/

namespace EdgeOperator

/-- The settings of the operator. -/
structure Settings where
  /-- How long a call to the API server may take. -/
  storeTimeoutSeconds : Nat := 10
  /-- When a resource that is in order is looked at again. -/
  resyncSeconds : Nat := 300
  /-- When a failure is retried that is expected to clear up. -/
  transientRetrySeconds : Nat := 5
  /-- When any other failure is retried. -/
  fatalRetrySeconds : Nat := 60
  /-- How often the writing of a route is attempted in one pass. -/
  routeUpdateAttempts : Nat := 5
deriving DecidableEq, Repr

namespace Settings

/-! ## Numbers -/

/-- The number that a text stands for: decimal digits, perhaps after a plus sign. -/
def natural? (text : String) : Option Nat :=
  match text.toList with
  | '+' :: digits => Text.number? digits
  | digits => Text.number? digits

/-- The number that a text stands for, if it lies between two bounds. -/
def naturalWithin? (low high : Nat) (text : String) : Option Nat :=
  (natural? text).filter fun n => low ≤ n ∧ n ≤ high

/-- A number of seconds: 64 bits hold it. -/
def seconds? (text : String) : Option Nat :=
  naturalWithin? 0 18446744073709551615 text

/-- A number of attempts: at least one, and 32 bits hold it. -/
def attempts? (text : String) : Option Nat :=
  naturalWithin? 1 4294967295 text

/-! ## Command line -/

/-- An option whose value is a number. -/
def numberSwitch (name : String) (read : String → Option Nat) : CommandLine.Switch where
  name := name
  role := .value fun text => if (read text).isNone then some .malformedValue else none

/-- The options of the operator. -/
def switches : List CommandLine.Switch := [
  numberSwitch "store-timeout-secs" seconds?,
  numberSwitch "resync-secs" seconds?,
  numberSwitch "transient-retry-secs" seconds?,
  numberSwitch "fatal-retry-secs" seconds?,
  numberSwitch "route-update-attempts" attempts?,
  CommandLine.helpSwitch,
  CommandLine.versionSwitch]

/-- The settings that the options ask for; an option that is not given leaves the default. -/
def ofReading (reading : CommandLine.Reading) : Settings :=
  let number (name : String) (read : String → Option Nat) (default : Nat) : Nat :=
    ((reading.value? name).bind read).getD default
  let defaults : Settings := {}
  { storeTimeoutSeconds := number "store-timeout-secs" seconds? defaults.storeTimeoutSeconds
    resyncSeconds := number "resync-secs" seconds? defaults.resyncSeconds
    transientRetrySeconds := number "transient-retry-secs" seconds? defaults.transientRetrySeconds
    fatalRetrySeconds := number "fatal-retry-secs" seconds? defaults.fatalRetrySeconds
    routeUpdateAttempts := number "route-update-attempts" attempts? defaults.routeUpdateAttempts }

/-- The settings that a command line asks for. -/
def ofArgs (args : List String) : Except UsageError Settings := do
  return ofReading (← CommandLine.read switches args)

/-- What is printed when help is asked for. -/
def helpText : String :=
  "Operator for FrontendDeploy and SandOpsIngress resources\n\n" ++
  "Usage: controller [OPTIONS]\n\n" ++
  "Options:\n" ++
  "      --store-timeout-secs <STORE_TIMEOUT_SECS>\n" ++
  "          Deadline in seconds for every call to the API server [default: 10]\n" ++
  "      --resync-secs <RESYNC_SECS>\n" ++
  "          Delay in seconds before a successfully reconciled resource is checked again " ++
    "[default: 300]\n" ++
  "      --transient-retry-secs <TRANSIENT_RETRY_SECS>\n" ++
  "          Retry delay in seconds after a transient failure (conflicts, server errors) " ++
    "[default: 5]\n" ++
  "      --fatal-retry-secs <FATAL_RETRY_SECS>\n" ++
  "          Retry delay in seconds after any other failure [default: 60]\n" ++
  "      --route-update-attempts <ROUTE_UPDATE_ATTEMPTS>\n" ++
  "          Read-merge-replace attempts on the shared routing object before giving up the pass " ++
    "[default: 5]\n" ++
  "  -h, --help\n" ++
  "          Print help\n" ++
  "  -V, --version\n" ++
  "          Print version\n"

/-- What is printed when the version is asked for. -/
def versionText : String :=
  "sandops-controlplane 0.1.0\n"

/-- What is printed for a command line that asks for a text. -/
def requestedText? : UsageError → Option String
  | .help => some helpText
  | .version => some versionText
  | _ => none

/-! ## Delays -/

/-- When a pass that failed is tried again. -/
def retryDelay (settings : Settings) (e : OperatorError) : Nat :=
  if e.isTransient then settings.transientRetrySeconds else settings.fatalRetrySeconds

end Settings

end EdgeOperator
