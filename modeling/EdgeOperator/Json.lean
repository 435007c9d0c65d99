import EdgeOperator.StringMap

set_option autoImplicit false

/-! # JSON values

Objects keep their members in key order with one value per key, so equal values are equal terms.
An integer is a number written without fraction and exponent that fits 64 bits; every other number
is kept as the shortest text of the double it stands for, and is never read as an integer.

`mergePatch` is the JSON merge patch of RFC 7386: members of the patch replace those of the target,
`null` removes them, and anything but an object replaces the whole target. -/

namespace EdgeOperator

/-- A JSON value. -/
inductive Json where
  | null
  | bool (value : Bool)
  | int (value : Int)
  | real (text : String)
  | str (value : String)
  | arr (items : List Json)
  | obj (members : List (String × Json))
deriving Inhabited, Repr

namespace Json

/-! ## Equality -/

mutual

/-- Whether two values are the same. -/
def same : Json → Json → Bool
  | .null, .null => true
  | .bool a, .bool b => a == b
  | .int a, .int b => a == b
  | .real a, .real b => a == b
  | .str a, .str b => a == b
  | .arr as, .arr bs => sameItems as bs
  | .obj as, .obj bs => sameMembers as bs
  | _, _ => false

/-- Whether two lists of values are the same, in order. -/
def sameItems : List Json → List Json → Bool
  | [], [] => true
  | a :: as, b :: bs => same a b && sameItems as bs
  | _, _ => false

/-- Whether two lists of members are the same, in order. -/
def sameMembers : List (String × Json) → List (String × Json) → Bool
  | [], [] => true
  | (k, a) :: as, (l, b) :: bs => k == l && same a b && sameMembers as bs
  | _, _ => false

end

instance : BEq Json := ⟨same⟩

/-! ## Building and taking apart -/

/-- The object with the given members, in any order; of two with one key the later wins. -/
def ofMembers (members : List (String × Json)) : Json :=
  .obj (StringMap.ofList members)

/-- The object of the members that are present. The list has to be in key order. -/
def ofPresent (members : List (String × Option Json)) : Json :=
  .obj (members.filterMap fun m => m.2.map (m.1, ·))

/-- A map of texts as an object. -/
def ofTexts (texts : StringMap String) : Json :=
  .obj (texts.map fun t => (t.1, .str t.2))

/-- A list of texts as an array. -/
def ofTextList (texts : List String) : Json :=
  .arr (texts.map .str)

/-- The members of an object. -/
def members? : Json → Option (StringMap Json)
  | .obj members => some members
  | _ => none

/-- The value of a member; `null` if there is none or the value is not an object. -/
def member : Json → String → Json
  | .obj members, key => (StringMap.get? members key).getD .null
  | _, _ => .null

/-- Whether a value is `null`. -/
def isNull : Json → Bool
  | .null => true
  | _ => false

/-- The text of a string. -/
def text? : Json → Option String
  | .str text => some text
  | _ => none

/-- The items of an array. -/
def items? : Json → Option (List Json)
  | .arr items => some items
  | _ => none

/-- The value of a boolean. -/
def bool? : Json → Option Bool
  | .bool value => some value
  | _ => none

/-- The value of an integer. -/
def int? : Json → Option Int
  | .int value => some value
  | _ => none

/-! ## Merge patch -/

mutual

/-- The target after a merge patch. -/
def mergePatch (target : Json) : Json → Json
  | .obj changes => .obj (mergeMembers (target.members?.getD []) changes)
  | patch => patch

/-- The members of a target after the members of a patch, taken one by one. -/
def mergeMembers (members : List (String × Json)) : List (String × Json) → List (String × Json)
  | [] => members
  | (key, patch) :: rest =>
    mergeMembers
      (if patch.isNull then StringMap.erase members key
        else StringMap.set members key
          (mergePatch ((StringMap.get? members key).getD .null) patch))
      rest

end

end Json

end EdgeOperator
