import EdgeOperator.Json.Printer

set_option autoImplicit false

/-! # YAML

JSON values written as YAML in block style: members and items stand on lines of their own, items of
a list as far to the left as the key above them. Lists and objects without content are written in
brackets. A text is written as it is if it can be read back as that text, and in quotes
otherwise. -/

namespace EdgeOperator

namespace Yaml

/-- Characters that a text as it is may not start with. -/
def indicators : List Char :=
  ['-', '?', ':', ',', '[', ']', '\x7b', '\x7d', '#', '&', '*', '!', '|', '>', '\'', '"', '%', '@',
    '\x60', '.', '+', '~', '=', '<']

/-- Words that are read as something else than text. -/
def words : List String :=
  ["true", "false", "null", "yes", "no", "on", "off", "y", "n"]

/-- Whether no mark of YAML stands within a list of characters: no colon before a blank or the end,
no hash behind a blank, nothing invisible. -/
def isUnmarked : List Char → Bool
  | [] => true
  | [c] => c ≠ ':' && c ≠ ' ' && ' ' ≤ c && c ≤ '~'
  | c :: d :: rest =>
    !(c = ':' && d = ' ') && !(c = ' ' && d = '#') && ' ' ≤ c && c ≤ '~' && isUnmarked (d :: rest)

/-- Whether a text can be written as it is. -/
def isPlain (text : String) : Bool :=
  match text.toList with
  | [] => false
  | c :: rest =>
    !c.isDigit && c ≠ ' ' && !indicators.contains c && isUnmarked (c :: rest) &&
      !words.contains text.toLower

/-- Whether a text can stand between single quotes on one line. -/
def isPrintable (text : String) : Bool :=
  text.toList.all fun c => ' ' ≤ c && c ≤ '~'

/-- A text, in quotes where it needs them. -/
def ofText (text : String) : String :=
  if isPlain text then text
  else if isPrintable text then
    "'" ++ String.join (text.toList.map fun c => if c = '\'' then "''" else c.toString) ++ "'"
  else Json.quote text

/-- A value that is written on one line; a list or object stands for an empty one. -/
def inline : Json → String
  | .null => "null"
  | .bool value => if value then "true" else "false"
  | .int value => toString value
  | .real text => text
  | .str text => ofText text
  | .arr _ => "[]"
  | .obj _ => "\x7b\x7d"

/-- The lines of an item of a list. -/
def dashed : List String → List String
  | [] => []
  | first :: rest => ("- " ++ first) :: rest.map ("  " ++ ·)

/-- The lines of a member, from the lines of its value: a list stands as far to the left as the key,
an object further in, anything else behind the key. -/
def keyed (key : String) (value : Json) (lines : List String) : List String :=
  match value with
  | .arr (_ :: _) => (ofText key ++ ":") :: lines
  | .obj (_ :: _) => (ofText key ++ ":") :: lines.map ("  " ++ ·)
  | value => [ofText key ++ ": " ++ inline value]

mutual

/-- The lines of a value. -/
def lines : Json → List String
  | .arr items => if items.isEmpty then ["[]"] else itemLines items
  | .obj members => if members.isEmpty then ["\x7b\x7d"] else memberLines members
  | value => [inline value]

/-- The lines of the items of a list. -/
def itemLines : List Json → List String
  | [] => []
  | item :: rest => dashed (lines item) ++ itemLines rest

/-- The lines of the members of an object. -/
def memberLines : List (String × Json) → List String
  | [] => []
  | (key, value) :: rest => keyed key value (lines value) ++ memberLines rest

end

end Yaml

/-- A value as a YAML document. -/
def Json.toYaml (value : Json) : String :=
  String.join ((Yaml.lines value).map (· ++ "\n"))

end EdgeOperator
