import Mathlib.Data.List.Sort
import AIBuddy.Support.Json

namespace AIBuddy
namespace Json

/-!
# Values with sorted keys

Two objects are the same value when they have the same members in any order.  Sorting the keys of
all objects in a value gives one spelling for every order.
-/

/-- Whether a member goes before another one. -/
def KeyLE (left right : String × Json) : Prop :=
  left.1 ≤ right.1

instance : DecidableRel KeyLE :=
  fun left right => inferInstanceAs (Decidable (left.1 ≤ right.1))

mutual

/-- A value with the keys of its objects in order. -/
def sorted : Json -> Json
  | .array items => .array (sortedItems items)
  | .object fields => .object ((sortedFields fields).insertionSort KeyLE)
  | .null => .null
  | .bool value => .bool value
  | .number value => .number value
  | .string value => .string value

def sortedItems : List Json -> List Json
  | [] => []
  | item :: rest => sorted item :: sortedItems rest

def sortedFields : List (String × Json) -> List (String × Json)
  | [] => []
  | (key, value) :: rest => (key, sorted value) :: sortedFields rest

end

/-- Equality of values: the order of the members of an object does not count. -/
def Same (left right : Json) : Prop :=
  left.sorted = right.sorted

instance (left right : Json) : Decidable (left.Same right) :=
  inferInstanceAs (Decidable (left.sorted = right.sorted))

@[refl] theorem Same.refl (value : Json) : value.Same value := rfl

end Json
end AIBuddy
