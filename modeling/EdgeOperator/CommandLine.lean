set_option autoImplicit false

/-! # Command lines

Options are written `--name value`, `--name=value`, or with a letter `-nvalue`, `-n=value`,
`-n value`; flags have no value, and several of them may share one dash. Arguments are read from
left to right, and the first mistake ends the reading.

The value of an option that stands in an argument of its own is taken only when the next option or
flag is reached, or at the end. So a mistake in it comes to light after an argument that is unknown,
but before whatever a later option asks for. -/

namespace EdgeOperator

/-- Why a command line cannot be followed; to ask for help or for the version is a reason too. -/
inductive UsageError where
  /-- An argument that means nothing. -/
  | unknownArgument
  /-- An option without its value. -/
  | missingValue
  /-- An option whose value is not of the form it needs. -/
  | malformedValue
  /-- An option that was given before. -/
  | repeatedOption
  /-- A flag with a value. -/
  | unexpectedValue
  /-- Help was asked for. -/
  | help
  /-- The version was asked for. -/
  | version
  /-- No task was named. -/
  | noTask
  /-- The task that was named does not exist. -/
  | unknownTask
deriving DecidableEq, Repr

namespace CommandLine

/-- What an option does. -/
inductive Role where
  /-- It asks for help. -/
  | help
  /-- It asks for the version. -/
  | version
  /-- It is there or not. -/
  | flag
  /-- It has a value, with which something may be wrong. -/
  | value (flaw? : String → Option UsageError)

/-- An option, by its name and perhaps a letter. -/
structure Switch where
  name : String
  letter? : Option Char := none
  role : Role

/-- The option every command line has. -/
def helpSwitch : Switch where
  name := "help"
  letter? := some 'h'
  role := .help

/-- The option that asks for the version. -/
def versionSwitch : Switch where
  name := "version"
  letter? := some 'V'
  role := .version

/-- An option that waits for its value, or has it but did not take it yet. -/
structure Waiting where
  switch : Switch
  value? : Option String

/-- What was read so far: the options that took their value, in order, and one that may be
waiting. -/
structure Reading where
  given : List (String × String) := []
  waiting? : Option Waiting := none

namespace Reading

/-- The value of an option. -/
def value? (reading : Reading) (name : String) : Option String :=
  (reading.given.find? fun option => option.1 = name).map (·.2)

/-- Notes an option with its value, unless it was noted before. -/
def note (reading : Reading) (switch : Switch) (value : String) : Except UsageError Reading :=
  if (reading.value? switch.name).isSome then .error .repeatedOption
  else .ok { reading with given := reading.given ++ [(switch.name, value)] }

/-- Takes the value of an option, after a look whether the option was given before. -/
def take (reading : Reading) (switch : Switch) (value : String) : Except UsageError Reading := do
  let noted ← reading.note switch value
  match switch.role with
  | .value flaw? =>
    match flaw? value with
    | some flaw => .error flaw
    | none => return noted
  | _ => return noted

/-- Has the option that is waiting take its value. -/
def settle (reading : Reading) : Except UsageError Reading :=
  match reading.waiting? with
  | none => .ok reading
  | some ⟨_, none⟩ => .error .missingValue
  | some ⟨switch, some value⟩ => { reading with waiting? := none }.take switch value

/-- Follows an option that has no value, or has it attached. -/
def follow (reading : Reading) (switch : Switch) (attached? : Option String) :
    Except UsageError Reading :=
  match switch.role, attached? with
  | .value _, some value => do (← reading.settle).take switch value
  | .value _, none => do return { ← reading.settle with waiting? := some ⟨switch, none⟩ }
  | _, some _ => .error .unexpectedValue
  | .help, none => do
    let _ ← reading.settle
    .error .help
  | .version, none => do
    let _ ← reading.settle
    .error .version
  | .flag, none => do (← reading.settle).note switch ""

/-- Follows an option by its name; a value may be attached behind an equals sign. -/
def followName (reading : Reading) (switches : List Switch) (text : List Char) :
    Except UsageError Reading :=
  let name := String.ofList (text.takeWhile (· ≠ '='))
  let attached? :=
    match text.dropWhile (· ≠ '=') with
    | [] => none
    | _ :: value => some (String.ofList value)
  match switches.find? fun switch => switch.name = name with
  | some switch => reading.follow switch attached?
  | none => .error .unknownArgument

/-- The value behind a letter; an equals sign in front of it does not count. -/
def attachedValue? : List Char → Option String
  | [] => none
  | '=' :: value => some (String.ofList value)
  | value => some (String.ofList value)

/-- Follows options by their letters; the first that has a value takes all that is left. -/
def followLetters (reading : Reading) (switches : List Switch) :
    List Char → Except UsageError Reading
  | [] => .ok reading
  | letter :: rest =>
    match switches.find? fun switch => switch.letter? = some letter with
    | none => .error .unknownArgument
    | some switch =>
      match switch.role with
      | .value _ => reading.follow switch (attachedValue? rest)
      | _ => do (← reading.follow switch none).followLetters switches rest

/-- Takes an argument that is no option: the value of the option that waits for one. -/
def followWord (reading : Reading) (word : String) : Except UsageError Reading :=
  match reading.waiting? with
  | some ⟨switch, none⟩ => .ok { reading with waiting? := some ⟨switch, some word⟩ }
  | _ => .error .unknownArgument

/-- Follows one argument. -/
def followArgument (reading : Reading) (switches : List Switch) (argument : String) :
    Except UsageError Reading :=
  match argument.toList with
  | '-' :: '-' :: text => reading.followName switches text
  | '-' :: letter :: letters => reading.followLetters switches (letter :: letters)
  | _ => reading.followWord argument

/-- Follows all arguments up to `--`, and gives those behind it. -/
def followAll (reading : Reading) (switches : List Switch) :
    List String → Except UsageError (Reading × List String)
  | [] => .ok (reading, [])
  | argument :: rest =>
    if argument = "--" then .ok (reading, rest)
    else do (← reading.followArgument switches argument).followAll switches rest

end Reading

/-- Reads a command line that may go on behind `--` with words of its own. -/
def readWithWords (switches : List Switch) (args : List String) :
    Except UsageError (Reading × List String) := do
  let (reading, words) ← Reading.followAll {} switches args
  return (← reading.settle, words)

/-- Reads a command line that has options only. -/
def read (switches : List Switch) (args : List String) : Except UsageError Reading := do
  let (reading, words) ← Reading.followAll {} switches args
  if words.isEmpty then reading.settle else .error .unknownArgument

end CommandLine

end EdgeOperator
