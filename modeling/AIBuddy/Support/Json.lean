/-!
# JSON values

Tool metadata, tool arguments and operation notes are untyped JSON.  Objects are
kept as association lists in the order in which their keys were inserted, which
is all that the lookups and merges of this development observe.  Equality of two
values is decided by recursion, so that concrete conversations can be compared
by evaluation.
-/

namespace AIBuddy

/-- A JSON number, written as an integer or as a decimal with an exponent. -/
inductive JsonNumber where
  | integer (value : Int)
  | decimal (mantissa exponent : Int)
deriving DecidableEq, Repr

/-- A JSON value. -/
inductive Json where
  | null
  | bool (value : Bool)
  | number (value : JsonNumber)
  | string (value : String)
  | array (items : List Json)
  | object (fields : List (String × Json))
deriving Repr

namespace Json

mutual

/-- Decide equality of two values. -/
def decEq : (left right : Json) -> Decidable (left = right)
  | .null, .null => isTrue rfl
  | .bool left, .bool right => decidable_of_iff (left = right) (by simp)
  | .number left, .number right => decidable_of_iff (left = right) (by simp)
  | .string left, .string right => decidable_of_iff (left = right) (by simp)
  | .array left, .array right => @decidable_of_iff _ (left = right) (by simp) (decEqItems left right)
  | .object left, .object right => @decidable_of_iff _ (left = right) (by simp) (decEqFields left right)
  | .null, .bool _ | .null, .number _ | .null, .string _ | .null, .array _ | .null, .object _
  | .bool _, .null | .bool _, .number _ | .bool _, .string _ | .bool _, .array _ | .bool _, .object _
  | .number _, .null | .number _, .bool _ | .number _, .string _ | .number _, .array _
  | .number _, .object _
  | .string _, .null | .string _, .bool _ | .string _, .number _ | .string _, .array _
  | .string _, .object _
  | .array _, .null | .array _, .bool _ | .array _, .number _ | .array _, .string _
  | .array _, .object _
  | .object _, .null | .object _, .bool _ | .object _, .number _ | .object _, .string _
  | .object _, .array _ => isFalse (by simp)

/-- Decide equality of two arrays. -/
def decEqItems : (left right : List Json) -> Decidable (left = right)
  | [], [] => isTrue rfl
  | [], _ :: _ | _ :: _, [] => isFalse (by simp)
  | left :: lefts, right :: rights =>
      match decEq left right, decEqItems lefts rights with
      | isTrue head, isTrue tail => isTrue (by rw [head, tail])
      | isFalse head, _ => isFalse (by simp [head])
      | _, isFalse tail => isFalse (by simp [tail])

/-- Decide equality of the fields of two objects. -/
def decEqFields : (left right : List (String × Json)) -> Decidable (left = right)
  | [], [] => isTrue rfl
  | [], _ :: _ | _ :: _, [] => isFalse (by simp)
  | (key, left) :: lefts, (otherKey, right) :: rights =>
      match decEq left right, decEqFields lefts rights with
      | isTrue head, isTrue tail =>
          if same : key = otherKey then isTrue (by rw [head, tail, same])
          else isFalse (by simp [same])
      | isFalse head, _ => isFalse (by simp [head])
      | _, isFalse tail => isFalse (by simp [tail])

end

instance : DecidableEq Json := decEq

/-- The field of an object, when the value is an object that has it. -/
def get (value : Json) (key : String) : Option Json :=
  match value with
  | .object fields => fields.lookup key
  | _ => none

/-- The Boolean payload, when the value is one. -/
def asBool : Json -> Option Bool
  | .bool value => some value
  | _ => none

/-- The text payload, when the value is one. -/
def asStr : Json -> Option String
  | .string value => some value
  | _ => none

/-- The items, when the value is an array. -/
def asArray : Json -> Option (List Json)
  | .array items => some items
  | _ => none

end Json

/-- The members of a JSON object. -/
abbrev JsonObject := List (String × Json)

namespace JsonObject

/-- Insert a member, replacing the value of a key that is already present. -/
def insert (object : JsonObject) (key : String) (value : Json) : JsonObject :=
  match object with
  | [] => [(key, value)]
  | (present, old) :: rest =>
      if present = key then (key, value) :: rest else (present, old) :: insert rest key value

theorem lookup_insert (object : JsonObject) (key other : String) (value : Json) :
    List.lookup other (insert object key value) =
      if other = key then some value else List.lookup other object := by
  induction object with
  | nil =>
      by_cases same : other = key
      · simp [insert, same]
      · have missed : (other == key) = false := beq_eq_false_iff_ne.mpr same
        simp only [insert, List.lookup_cons, missed, if_neg same]
  | cons member rest ih =>
      rcases member with ⟨memberKey, memberValue⟩
      by_cases present : memberKey = key
      · by_cases same : other = key
        · simp [insert, present, same]
        · have missed : (other == key) = false := beq_eq_false_iff_ne.mpr same
          simp only [insert, present, if_true, List.lookup_cons, missed, if_neg same]
      · by_cases here : other = memberKey
        · subst here
          simp [insert, present]
        · have missed : (other == memberKey) = false := beq_eq_false_iff_ne.mpr here
          simp only [insert, if_neg present, List.lookup_cons, missed]
          exact ih

theorem lookup_foldl_insert (entries object : JsonObject) (key : String) :
    List.lookup key (entries.foldl (fun written entry => insert written entry.1 entry.2) object) =
      (entries.reverse.lookup key).or (List.lookup key object) := by
  induction entries generalizing object with
  | nil => rfl
  | cons entry rest ih =>
      rw [List.foldl_cons, ih, lookup_insert, List.reverse_cons, List.lookup_append, List.lookup_cons,
        Option.or_assoc]
      congr 1
      by_cases same : key = entry.1
      · rw [if_pos same, same, beq_self_eq_true]
        rfl
      · rw [if_neg same, beq_eq_false_iff_ne.mpr same]
        rfl

end JsonObject
end AIBuddy
