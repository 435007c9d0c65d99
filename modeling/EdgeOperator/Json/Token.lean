import EdgeOperator.Json.Number

set_option autoImplicit false

/-! # Tokens of JSON text

A text is cut into brackets, commas, colons, strings and the other values without parts. Blanks may
stand between them.

Within a string only a surrogate counts that is half of a pair. A string with any other surrogate is
in order as text, but it has no content. -/

namespace EdgeOperator.Json.Written

/-- A token of JSON text. -/
inductive Token where
  | openArray
  | closeArray
  | openObject
  | closeObject
  | comma
  | colon
  /-- A string, with its content if it has one. -/
  | text (content? : Option String)
  /-- A number or a word. -/
  | plain (value : Written)
deriving Repr

/-! ## Strings -/

/-- The value of a digit in base sixteen. -/
def hexValue? (c : Char) : Option Nat :=
  if '0' ≤ c ∧ c ≤ '9' then some (c.toNat - 48)
  else if 'a' ≤ c ∧ c ≤ 'f' then some (c.toNat - 87)
  else if 'A' ≤ c ∧ c ≤ 'F' then some (c.toNat - 55)
  else none

/-- The number that four digits in base sixteen stand for. -/
def hexValues? (a b c d : Char) : Option Nat := do
  return (((← hexValue? a) * 16 + (← hexValue? b)) * 16 + (← hexValue? c)) * 16 + (← hexValue? d)

/-- The character that a letter after a backslash stands for. -/
def unescape? (c : Char) : Option Char :=
  match c with
  | '"' => some '"'
  | '\\' => some '\\'
  | '/' => some '/'
  | 'b' => some (Char.ofNat 8)
  | 'f' => some (Char.ofNat 12)
  | 'n' => some '\n'
  | 'r' => some '\r'
  | 't' => some '\t'
  | _ => none

/-- The codes of a string up to its closing quote, the last one first, after those read before. An
escaped character beyond the basic plane has two of them. -/
def scanCodes? (done : List Nat) : List Char → Option (List Nat × List Char)
  | [] => none
  | '"' :: rest => some (done, rest)
  | '\\' :: 'u' :: a :: b :: c :: d :: rest =>
    match hexValues? a b c d with
    | some code => scanCodes? (code :: done) rest
    | none => none
  | '\\' :: c :: rest =>
    match unescape? c with
    | some plain => scanCodes? (plain.toNat :: done) rest
    | none => none
  | c :: rest => if c.toNat < 32 then none else scanCodes? (c.toNat :: done) rest

/-- Whether a code is the first half of a pair. -/
def isLeading (code : Nat) : Bool :=
  0xD800 ≤ code && code < 0xDC00

/-- Whether a code is the second half of a pair. -/
def isTrailing (code : Nat) : Bool :=
  0xDC00 ≤ code && code < 0xE000

/-- The characters of codes that come last one first, in front of those found before. -/
def joinCodes? (found : List Char) : List Nat → Option (List Char)
  | [] => some found
  | low :: high :: rest =>
    if isTrailing low then
      if isLeading high then
        joinCodes? (Char.ofNat (0x10000 + (high - 0xD800) * 0x400 + (low - 0xDC00)) :: found) rest
      else none
    else if isLeading low then none
    else joinCodes? (Char.ofNat low :: found) (high :: rest)
  | [code] =>
    if isTrailing code || isLeading code then none else some (Char.ofNat code :: found)

/-- The string whose opening quote stands before a text. -/
def scanString? (cs : List Char) : Option (Token × List Char) :=
  (scanCodes? [] cs).map fun r => (.text ((joinCodes? [] r.1).map String.ofList), r.2)

/-! ## All tokens -/

/-- Whether a character may stand between tokens. -/
def isBlank (c : Char) : Bool :=
  c = ' ' || c = '\n' || c = '\r' || c = '\t'

/-- The text after a word that has to stand at its head. -/
def dropWord? (word : List Char) (cs : List Char) : Option (List Char) :=
  if cs.take word.length = word then some (cs.drop word.length) else none

/-- The token at the head of a text that does not start with a blank. -/
def scanToken? (cs : List Char) : Option (Token × List Char) :=
  match cs with
  | '[' :: rest => some (.openArray, rest)
  | ']' :: rest => some (.closeArray, rest)
  | '\x7b' :: rest => some (.openObject, rest)
  | '\x7d' :: rest => some (.closeObject, rest)
  | ',' :: rest => some (.comma, rest)
  | ':' :: rest => some (.colon, rest)
  | '"' :: rest => scanString? rest
  | 'n' :: rest => (dropWord? ['u', 'l', 'l'] rest).map (.plain .null, ·)
  | 't' :: rest => (dropWord? ['r', 'u', 'e'] rest).map (.plain (.bool true), ·)
  | 'f' :: rest => (dropWord? ['a', 'l', 's', 'e'] rest).map (.plain (.bool false), ·)
  | _ => (scanNumber? cs).map fun r => (.plain r.1, r.2)

/-- The tokens of a text, after those found before (last one first), in a number of steps. -/
def scanTokens? (done : List Token) : Nat → List Char → Option (List Token)
  | 0, cs => if cs.isEmpty then some done.reverse else none
  | steps + 1, cs =>
    match cs.dropWhile isBlank with
    | [] => some done.reverse
    | cs =>
      match scanToken? cs with
      | some (token, rest) => scanTokens? (token :: done) steps rest
      | none => none

/-- The tokens of a text. Each has at least one character, so there are no more steps than
characters. -/
def tokens? (text : String) : Option (List Token) :=
  let cs := text.toList
  scanTokens? [] cs.length cs

end EdgeOperator.Json.Written
