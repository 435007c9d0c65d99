import EdgeOperator.Json

set_option autoImplicit false

/-! # JSON text

The compact form of a value: no blanks, members in key order, and in strings only what has to be
escaped (the quote, the backslash and the control characters below the blank). -/

namespace EdgeOperator.Json

/-- A digit of a number in base sixteen, in lower case. -/
def hexDigit (n : Nat) : Char :=
  if n < 10 then Char.ofNat (48 + n) else Char.ofNat (87 + n)

/-- A character as it stands between the quotes of a string. -/
def escapeChar (c : Char) : String :=
  if c = '"' then "\\\""
  else if c = '\\' then "\\\\"
  else if c = '\n' then "\\n"
  else if c = '\r' then "\\r"
  else if c = '\t' then "\\t"
  else if c.toNat = 8 then "\\b"
  else if c.toNat = 12 then "\\f"
  else if c.toNat < 32 then
    "\\u00" ++ String.ofList [hexDigit (c.toNat / 16), hexDigit (c.toNat % 16)]
  else String.singleton c

/-- A text between quotes. -/
def quote (text : String) : String :=
  "\"" ++ text.foldl (fun acc c => acc ++ escapeChar c) "" ++ "\""

/-- Parts with commas between them. -/
def commaSeparated (parts : List String) : String :=
  ",".intercalate parts

/-- Members that are printed already, as an object in the order given. -/
def objectText (members : List (String × String)) : String :=
  "\x7b" ++ commaSeparated (members.map fun m => quote m.1 ++ ":" ++ m.2) ++ "\x7d"

mutual

/-- The compact text of a value. -/
def compact : Json → String
  | .null => "null"
  | .bool true => "true"
  | .bool false => "false"
  | .int value => toString value
  | .real text => text
  | .str text => quote text
  | .arr items => "[" ++ commaSeparated (compactItems items) ++ "]"
  | .obj members => objectText (compactMembers members)

/-- The compact texts of the items of an array. -/
def compactItems : List Json → List String
  | [] => []
  | item :: rest => compact item :: compactItems rest

/-- The members of an object with the compact texts of their values. -/
def compactMembers : List (String × Json) → List (String × String)
  | [] => []
  | (key, value) :: rest => (key, compact value) :: compactMembers rest

end

end EdgeOperator.Json
