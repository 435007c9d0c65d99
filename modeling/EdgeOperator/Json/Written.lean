import EdgeOperator.Json.Source

set_option autoImplicit false

/-! # JSON as it is written

What a JSON text holds before anyone has asked for its values: members in the order of the text,
with those that come more than once, and parts that are in order as text but cannot be read. Nobody
has to read them: what is left out is never looked at. -/

namespace EdgeOperator.Json

/-- A part of a JSON text. -/
inductive Written where
  /-- A part that is in order as text, but has no value. -/
  | unreadable
  | null
  | bool (value : Bool)
  | int (value : Int)
  | real (text : String)
  | str (value : String)
  | arr (items : List Written)
  | obj (members : List (String × Written))
deriving Inhabited, Repr

namespace Written

/-- Whether a part is `null`. -/
def isNull : Written → Bool
  | .null => true
  | _ => false

/-- The text of a string. -/
def text? : Written → Option String
  | .str text => some text
  | _ => none

/-- The value of a boolean. -/
def bool? : Written → Option Bool
  | .bool value => some value
  | _ => none

/-- The value of an integer. -/
def int? : Written → Option Int
  | .int value => some value
  | _ => none

/-- The items of an array. -/
def items? : Written → Option (List Written)
  | .arr items => some items
  | _ => none

/-- The members of an object in the order of the text. -/
def members? : Written → Option (List (String × Written))
  | .obj members => some members
  | _ => none

mutual

/-- The value of a part, if all of it can be read. Of two members with one key the later counts. -/
def value? : Written → Option Json
  | .unreadable => none
  | .null => some .null
  | .bool value => some (.bool value)
  | .int value => some (.int value)
  | .real text => some (.real text)
  | .str text => some (.str text)
  | .arr items => (itemValues? items).map .arr
  | .obj members => (memberValues? members).map .ofMembers

/-- The values of the items of an array. -/
def itemValues? : List Written → Option (List Json)
  | [] => some []
  | item :: rest => do
    let value ← value? item
    return value :: (← itemValues? rest)

/-- The members of an object with their values. -/
def memberValues? : List (String × Written) → Option (List (String × Json))
  | [] => some []
  | (key, member) :: rest => do
    let value ← value? member
    return (key, value) :: (← memberValues? rest)

end

instance : Source Written where
  isNull := isNull
  text? := text?
  bool? := bool?
  int? := int?
  items? := items?
  members? := members?
  value? := value?

end Written

end EdgeOperator.Json
