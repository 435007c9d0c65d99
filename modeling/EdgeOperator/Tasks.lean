import EdgeOperator.CommandLine

set_option autoImplicit false

/-! # Tasks of a developer

A command line names one of two tasks: to write down the definitions of the custom resources, or to
build and run the operator. -/

namespace EdgeOperator

/-- A task with what its options ask for. -/
inductive Task where
  /-- Writes the definitions of the custom resources to a file, or prints them. -/
  | renderDefinitions (output? : Option String)
  /-- Builds and runs the operator with arguments of its own. -/
  | runOperator (release : Bool) (args : List String)
deriving DecidableEq, Repr

namespace Task

/-- The name of the task that writes the definitions. -/
def renderName : String := "crdgen"

/-- The name of the task that runs the operator. -/
def runName : String := "run-controlplane"

/-- The name of the task that explains the others. -/
def helpName : String := "help"

/-- The names of all tasks. -/
def names : List String := [renderName, runName, helpName]

/-- The option for the file to write; its name may not be empty. -/
def outputSwitch : CommandLine.Switch where
  name := "output"
  letter? := some 'o'
  role := .value fun path => if path.isEmpty then some .missingValue else none

/-- The flag for the optimised build. -/
def releaseSwitch : CommandLine.Switch where
  name := "release"
  role := .flag

/-- Reads the arguments of the task that writes the definitions. -/
def readRender (args : List String) : Except UsageError Task := do
  let reading ← CommandLine.read [outputSwitch, CommandLine.helpSwitch] args
  return .renderDefinitions (reading.value? outputSwitch.name)

/-- Reads the arguments of the task that runs the operator. -/
def readRun (args : List String) : Except UsageError Task := do
  let (reading, words) ←
    CommandLine.readWithWords [releaseSwitch, CommandLine.helpSwitch] args
  return .runOperator (reading.value? releaseSwitch.name).isSome words

/-- What asking for help on a task gives: tasks have no tasks of their own. -/
def explain : List String → UsageError
  | [] => .help
  | [name] => if names.contains name then .help else .unknownTask
  | _ => .unknownTask

/-- What is wrong with words where the name of a task should be; behind `--` no task can be
named. -/
def misplaced : List String → UsageError
  | [] => .noTask
  | word :: _ => if names.contains word then .unknownArgument else .unknownTask

/-- The task that a command line asks for. -/
def ofArgs (args : List String) : Except UsageError Task :=
  match args with
  | [] => .error .noTask
  | first :: rest =>
    if first = renderName then readRender rest
    else if first = runName then readRun rest
    else if first = helpName then .error (explain rest)
    else if first = "--" then .error (misplaced rest)
    else
      match first.toList with
      | '-' :: _ :: _ => do
        let _ ← CommandLine.Reading.followArgument {} [CommandLine.helpSwitch] first
        .error .noTask
      | _ => .error .unknownTask

end Task

end EdgeOperator
