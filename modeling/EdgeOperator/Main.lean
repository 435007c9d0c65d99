import EdgeOperator.Definition
import EdgeOperator.Tasks

set_option autoImplicit false

/-! # Command line of a developer

Follows a command line that names a task. Only the writing of the definitions is done here; the
operator itself is built and run by other means. -/

namespace EdgeOperator

/-- What is printed about a command line that cannot be followed. -/
def UsageError.report : UsageError → String
  | .unknownArgument => "an argument means nothing"
  | .missingValue => "an option lacks its value"
  | .malformedValue => "the value of an option is not of the form it needs"
  | .repeatedOption => "an option is given twice"
  | .unexpectedValue => "an option takes no value"
  | .help | .version | .noTask =>
    "Usage: crdgen [-o FILE] | run-controlplane [--release] [-- ARGS...] | help [TASK]"
  | .unknownTask => "there is no such task"

/-- Whether a command line asked for what is printed about it. -/
def UsageError.isRequest : UsageError → Bool
  | .help | .version => true
  | _ => false

/-- Writes the definitions to a file, or prints them. -/
def renderDefinitions (output? : Option String) : IO UInt32 := do
  match output? with
  | none =>
    IO.print CustomKind.manifests
    return 0
  | some path =>
    try
      IO.FS.writeFile path CustomKind.manifests
      return 0
    catch e =>
      IO.eprintln (CustomKind.writeFailure path ++ ": " ++ toString e)
      return 1

/-- Does the task that a command line names. -/
def runTask (args : List String) : IO UInt32 := do
  match Task.ofArgs args with
  | .ok (.renderDefinitions output?) => renderDefinitions output?
  | .ok (.runOperator _ _) =>
    IO.eprintln "the operator cannot be run from here"
    return 1
  | .error e =>
    if e.isRequest then
      IO.println e.report
      return 0
    else
      IO.eprintln e.report
      return 2

end EdgeOperator

/-- The program. -/
def main (args : List String) : IO UInt32 :=
  EdgeOperator.runTask args
