import EdgeOperator.Json

set_option autoImplicit false

/-! # Reading typed values from JSON

Typed values are read from values that are there already, and from JSON as it is written, where a
member may come more than once and parts may be unreadable. `Json.Source` is what both have in
common, and the readers below are for both.

There are two kinds of objects with members of their own. In an *open* one a member may come more
than once: it has to be readable every time, and the last time counts (`member?`, `optional?`). A
*record* has each of its members at most once, and it may also be written as an array of their
values in order (`record?`). Members that a reader does not ask for may be anything in both. -/

namespace EdgeOperator.Json

/-- A form of JSON that typed values are read from. -/
class Source (σ : Type) where
  /-- Whether it is `null`. -/
  isNull : σ → Bool
  /-- The text of a string. -/
  text? : σ → Option String
  /-- The value of a boolean. -/
  bool? : σ → Option Bool
  /-- The value of an integer. -/
  int? : σ → Option Int
  /-- The items of an array. -/
  items? : σ → Option (List σ)
  /-- The members of an object in order; a key may come more than once. -/
  members? : σ → Option (List (String × σ))
  /-- All of it as a value. -/
  value? : σ → Option Json

instance : Source Json where
  isNull := Json.isNull
  text? := Json.text?
  bool? := Json.bool?
  int? := Json.int?
  items? := Json.items?
  members? := Json.members?
  value? := some

namespace Source

variable {σ α : Type} [Source σ]

/-! ## Numbers, lists and maps -/

/-- The value of an integer that lies between two bounds. -/
def intWithin? (low high : Int) (source : σ) : Option Int :=
  (int? source).filter fun value => low ≤ value ∧ value ≤ high

/-- The value of an integer that fits 32 bits with a sign. -/
def int32? (source : σ) : Option Int32 :=
  (intWithin? (-2147483648) 2147483647 source).map Int32.ofInt

/-- The value of an integer that fits 64 bits with a sign. -/
def int64? (source : σ) : Option Int64 :=
  (intWithin? (-9223372036854775808) 9223372036854775807 source).map Int64.ofInt

/-- The value of a natural number below a bound. -/
def natBelow? (bound : Nat) (source : σ) : Option Nat :=
  (intWithin? 0 (bound - 1) source).map Int.toNat

/-- Every item of an array, read by `read`. -/
def listOf? (read : σ → Option α) (source : σ) : Option (List α) :=
  (items? source).bind fun items => items.mapM read

/-- Every member of an object, read by `read`; of two with one key the later counts. -/
def mapOf? (read : σ → Option α) (source : σ) : Option (StringMap α) := do
  let members ← members? source
  return StringMap.ofList (← members.mapM fun m => (read m.2).map (m.1, ·))

/-! ## Members -/

/-- The value of a member, if there is one. Every member with the key has to be readable, and the
last one counts. -/
def member? (read : σ → Option α) (members : List (String × σ)) (key : String) :
    Option (Option α) :=
  ((members.filter fun m => m.1 = key).mapM fun m => read m.2).map List.getLast?

/-- The value of a member that has to be there. -/
def required? (read : σ → Option α) (members : List (String × σ)) (key : String) : Option α :=
  (member? read members key).join

/-- The value of a member that stands for `default` if it is left out; `null` is read like any
other value. -/
def withDefault? (read : σ → Option α) (default : α) (members : List (String × σ))
    (key : String) : Option α :=
  (member? read members key).map (·.getD default)

/-- A value or `null`. -/
def nullOr? (read : σ → Option α) (source : σ) : Option (Option α) :=
  if isNull source then some none else (read source).map some

/-- The value of a member that may be left out or be `null`. -/
def optional? (read : σ → Option α) (members : List (String × σ)) (key : String) :
    Option (Option α) :=
  (member? (nullOr? read) members key).map Option.join

/-- The text of a member that stands for the empty text if it is left out or `null`. -/
def textOrEmpty? (members : List (String × σ)) (key : String) : Option String :=
  (optional? text? members key).map (·.getD "")

/-- The members of a record: those of an object in which none of the given keys is repeated, or the
items of an array under these keys in order. An array may end early. -/
def record? (keys : List String) (source : σ) : Option (List (String × σ)) :=
  match members? source, items? source with
  | some members, _ =>
    if keys.all fun key => members.countP (fun m => m.1 = key) ≤ 1 then some members else none
  | none, some items => if items.length ≤ keys.length then some (keys.zip items) else none
  | none, none => none

end Source

end EdgeOperator.Json
