import EdgeOperator.Kind

set_option autoImplicit false

/-! # Keys of objects

Within its kind an object is known by its name and, if it lives in one, its namespace. Kind and key
give the path of the object. -/

namespace EdgeOperator

/-- What an object is known by within its kind; an object outside of namespaces has none. -/
structure ObjectKey where
  name : String
  namespaceName? : Option String
deriving DecidableEq, Repr

namespace ObjectKey

/-- The key of an object in a namespace. -/
def inNamespace (scope name : String) : ObjectKey :=
  ⟨name, some scope⟩

/-- The key of an object outside of namespaces. -/
def clusterWide (name : String) : ObjectKey :=
  ⟨name, none⟩

/-- Keys are in the order of their names; of one name, the key without namespace comes first. -/
instance : Ord ObjectKey where
  compare := compareLex (compareOn name) (compareOn namespaceName?)

/-- Keys in ascending order. -/
def sort (keys : List ObjectKey) : List ObjectKey :=
  keys.mergeSort fun a b => (compare a b).isLE

/-- The key in words: the namespace, if any, before the name. -/
def display (key : ObjectKey) : String :=
  match key.namespaceName? with
  | some scope => scope ++ "/" ++ key.name
  | none => key.name

/-- The path of the object of a kind with this key. -/
def path (key : ObjectKey) (kind : Kind) : String :=
  kind.path key.namespaceName? ++ "/" ++ key.name

end ObjectKey

end EdgeOperator
