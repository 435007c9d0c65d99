import EdgeOperator.Text.Visible

set_option autoImplicit false

/-! # Quoted text in messages

A text inside a message stands between double quotes. The quote and the backslash are preceded by a
backslash, the common controls have a letter, and every other character that does not show is
written as its code point in base sixteen, between braces after `\u`. Apostrophes stay as they
are. -/

namespace EdgeOperator.Text

/-- A character as it stands between the quotes. -/
def quotedChar (c : Char) : String :=
  if c = '"' then "\\\""
  else if c = '\\' then "\\\\"
  else if c = '\n' then "\\n"
  else if c = '\r' then "\\r"
  else if c = '\t' then "\\t"
  else if c.toNat = 0 then "\\0"
  else if isVisible c then String.singleton c
  else "\\u\x7b" ++ String.ofList (Nat.toDigits 16 c.toNat) ++ "\x7d"

/-- A text between double quotes. -/
def quoted (text : String) : String :=
  "\"" ++ text.foldl (fun acc c => acc ++ quotedChar c) "" ++ "\""

end EdgeOperator.Text
