import EdgeOperator.Json.Token

set_option autoImplicit false

/-! # Reading JSON text

A text is read token by token. What is open stands on a stack, so the nesting of a text is bounded
by nothing but its length. The value of an array or object can only be read if it is nested at most
`maxLevel` deep, and that of an object only if all its keys can be read. -/

namespace EdgeOperator.Json

namespace Written

/-- The deepest level at which an array or object can be read; the outermost one has level one. -/
def maxLevel : Nat := 127

/-- What an open array or object holds so far, the last part first. -/
inductive Holding where
  | items (done : List Written)
  /-- The members of an object; the last one may be without its value yet. -/
  | members (done : List (Option String × Written)) (key? : Option String)

/-- An array or object that is open, and its level. -/
structure Frame where
  level : Nat
  holding : Holding

/-- What may come next. -/
inductive Expected where
  /-- A value; or the end of the array, if that was only just opened. -/
  | value (isFirst : Bool)
  /-- A key; or the end of the object, if that was only just opened. -/
  | key (isFirst : Bool)
  /-- The colon after a key. -/
  | colon
  /-- What may follow a value that is complete. -/
  | next (value : Written)

/-- How far a text has been read. -/
structure Progress where
  frames : List Frame
  expected : Expected

/-- A whole array or object of some level. -/
def atLevel (level : Nat) (whole : Written) : Written :=
  if level ≤ maxLevel then whole else .unreadable

/-- The object with members that come last one first. -/
def ofReversedMembers (members : List (Option String × Written)) : Written :=
  match members.reverse.mapM fun m => m.1.map (·, m.2) with
  | some members => .obj members
  | none => .unreadable

namespace Progress

/-- The start of a text. -/
def start : Progress :=
  ⟨[], .value false⟩

/-- The level of an array or object that is opened now. -/
def level (p : Progress) : Nat :=
  match p.frames with
  | [] => 1
  | frame :: _ => frame.level + 1

/-- Opens an array or object. -/
def enter (p : Progress) (holding : Holding) (expected : Expected) : Progress :=
  ⟨⟨p.level, holding⟩ :: p.frames, expected⟩

/-- Goes on after a value. -/
def complete (frames : List Frame) (value : Written) : Progress :=
  ⟨frames, .next value⟩

/-- Reads one token; `none` if it may not come here. -/
def step (p : Progress) (token : Token) : Option Progress :=
  match p.expected, token, p.frames with
  | .value _, .plain value, frames => some (complete frames value)
  | .value _, .text content?, frames =>
    some (complete frames ((content?.map .str).getD .unreadable))
  | .value _, .openArray, _ => some (p.enter (.items []) (.value true))
  | .value _, .openObject, _ => some (p.enter (.members [] none) (.key true))
  | .value true, .closeArray, ⟨level, .items []⟩ :: frames =>
    some (complete frames (atLevel level (.arr [])))
  | .key true, .closeObject, ⟨level, .members [] _⟩ :: frames =>
    some (complete frames (atLevel level (.obj [])))
  | .key _, .text content?, ⟨level, .members done _⟩ :: frames =>
    some ⟨⟨level, .members done content?⟩ :: frames, .colon⟩
  | .colon, .colon, frames => some ⟨frames, .value false⟩
  | .next value, .comma, ⟨level, .items done⟩ :: frames =>
    some ⟨⟨level, .items (value :: done)⟩ :: frames, .value false⟩
  | .next value, .comma, ⟨level, .members done key?⟩ :: frames =>
    some ⟨⟨level, .members ((key?, value) :: done) none⟩ :: frames, .key false⟩
  | .next value, .closeArray, ⟨level, .items done⟩ :: frames =>
    some (complete frames (atLevel level (.arr (value :: done).reverse)))
  | .next value, .closeObject, ⟨level, .members done key?⟩ :: frames =>
    some (complete frames (atLevel level (ofReversedMembers ((key?, value) :: done))))
  | _, _, _ => none

/-- Reads tokens one by one. -/
def run (p : Progress) : List Token → Option Progress
  | [] => some p
  | token :: rest =>
    match p.step token with
    | some p => run p rest
    | none => none

/-- What was read, if nothing is open and nothing is missing. -/
def result? (p : Progress) : Option Written :=
  match p with
  | ⟨[], .next value⟩ => some value
  | _ => none

end Progress

/-- What a whole text holds; nothing but blanks may stand around it. -/
def parse? (text : String) : Option Written := do
  let tokens ← tokens? text
  (← Progress.start.run tokens).result?

end Written

/-- The value of a whole text. -/
def parse? (text : String) : Option Json :=
  (Written.parse? text).bind Written.value?

end EdgeOperator.Json
