set_option autoImplicit false

/-! # Maps keyed by strings

Labels, annotations, the members of a JSON object and the objects of a cluster are all finite maps
from strings. They are kept as association lists in key order (characters compare by code point),
so two maps built in different ways are equal exactly when they hold the same entries.

`get?_set` and `get?_erase` say what the two writing operations do to a look-up; nothing else needs
to unfold them. -/

namespace EdgeOperator

/-- A finite map from strings, as an association list in key order. -/
abbrev StringMap (α : Type) := List (String × α)

namespace StringMap

variable {α : Type}

/-- The value stored under a key. -/
def get? : StringMap α → String → Option α
  | [], _ => none
  | (k, v) :: rest, key => if k = key then some v else get? rest key

/-- Whether a key is present. -/
def contains (entries : StringMap α) (key : String) : Bool :=
  (entries.get? key).isSome

/-- Stores a value under a key, in place of the value it had or else where the order puts it. -/
def set : StringMap α → String → α → StringMap α
  | [], key, value => [(key, value)]
  | (k, v) :: rest, key, value =>
    if k = key then (key, value) :: rest
    else if key < k then (key, value) :: (k, v) :: rest
    else (k, v) :: set rest key value

/-- Removes a key. -/
def erase (entries : StringMap α) (key : String) : StringMap α :=
  entries.filter fun entry => entry.1 ≠ key

/-- The map of a list of entries; of two entries with one key the later wins. -/
def ofList (entries : List (String × α)) : StringMap α :=
  entries.foldl (fun acc entry => set acc entry.1 entry.2) []

/-! ## What a write does to a look-up -/

@[simp] theorem get?_nil (key : String) : get? ([] : StringMap α) key = none := rfl

theorem get?_cons (k : String) (v : α) (rest : StringMap α) (key : String) :
    get? ((k, v) :: rest) key = if k = key then some v else get? rest key := rfl

theorem get?_set (entries : StringMap α) (key : String) (value : α) (other : String) :
    get? (set entries key value) other =
      if key = other then some value else get? entries other := by
  induction entries with
  | nil => simp [set, get?]
  | cons entry rest ih =>
    obtain ⟨k, v⟩ := entry
    by_cases hk : k = key
    · subst hk
      by_cases ho : k = other <;> simp [set, get?, ho]
    · by_cases hlt : key < k
      · simp [set, get?, hk, hlt]
      · by_cases hko : k = other
        · subst hko
          simp [set, get?, hk, hlt, Ne.symm hk]
        · simp [set, get?, hk, hlt, hko, ih]

theorem get?_erase (entries : StringMap α) (key other : String) :
    get? (erase entries key) other = if key = other then none else get? entries other := by
  induction entries with
  | nil => simp [erase]
  | cons entry rest ih =>
    obtain ⟨k, v⟩ := entry
    simp only [erase] at ih ⊢
    by_cases hk : k = key
    · subst hk
      by_cases ho : k = other <;> simp_all [get?]
    · by_cases ho : k = other
      · subst ho
        simp [hk, get?, Ne.symm hk]
      · simpa [hk, get?, ho] using ih

end StringMap

end EdgeOperator
