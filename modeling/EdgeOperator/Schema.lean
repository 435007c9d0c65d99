import EdgeOperator.Json

set_option autoImplicit false

/-! # Schemas

A schema says which JSON values a custom resource may hold. A member of a record has to be there
unless its schema allows `null` or names a default. -/

namespace EdgeOperator

/-- The form of a JSON value. -/
inductive Schema where
  | text
  | boolean
  | integer32
  | list (items : Schema)
  /-- An object whose known members have schemas of their own, in key order. -/
  | record (fields : List (String × Schema))
  /-- A value or `null`. -/
  | nullable (schema : Schema)
  /-- A value that may be left out, and stands for another then. -/
  | withDefault (value : Json) (schema : Schema)
  /-- A value with an explanation. -/
  | described (explanation : String) (schema : Schema)

namespace Schema

/-- Whether a member with this schema has to be there. -/
def isRequired : Schema → Bool
  | .nullable _ | .withDefault _ _ => false
  | .described _ schema => schema.isRequired
  | _ => true

/-- A member of a schema for a list that may be empty; an empty one is left out. -/
def unlessEmpty (key : String) (isEmpty : Bool) (value : Json) : StringMap Json :=
  if isEmpty then [] else [(key, value)]

mutual

/-- The members of the object that writes a schema down. -/
def members : Schema → StringMap Json
  | .text => [("type", .str "string")]
  | .boolean => [("type", .str "boolean")]
  | .integer32 => [("format", .str "int32"), ("type", .str "integer")]
  | .list items => [("items", .obj items.members), ("type", .str "array")]
  | .record fields =>
    unlessEmpty "properties" fields.isEmpty (.obj (properties fields)) ++
      unlessEmpty "required" (required fields).isEmpty (Json.ofTextList (required fields)) ++
      [("type", .str "object")]
  | .nullable schema => StringMap.set schema.members "nullable" (.bool true)
  | .withDefault value schema => StringMap.set schema.members "default" value
  | .described explanation schema =>
    StringMap.set schema.members "description" (.str explanation)

/-- The schemas of the members of a record, written down. -/
def properties : List (String × Schema) → StringMap Json
  | [] => []
  | (key, schema) :: rest => (key, .obj schema.members) :: properties rest

/-- The members of a record that have to be there. -/
def required : List (String × Schema) → List String
  | [] => []
  | (key, schema) :: rest => if schema.isRequired then key :: required rest else required rest

end

end Schema

end EdgeOperator
