import AIBuddy.Support.Json
import Mathlib.Data.List.Basic

namespace AIBuddy

/-!
# YAML values

Configuration files are YAML.  A mapping keeps its entries in the order in which their keys
were inserted, and is only searched for keys that are plain strings; a value may carry a tag,
which most readers look through.
-/

/-- A YAML value. -/
inductive Yaml where
  | null
  | bool (value : Bool)
  | number (value : JsonNumber)
  | string (value : String)
  | sequence (items : List Yaml)
  | mapping (entries : List (Yaml × Yaml))
  | tagged (tag : String) (value : Yaml)

/-- The entries of a YAML mapping. -/
abbrev YamlMapping := List (Yaml × Yaml)

namespace Yaml

def asStr : Yaml -> Option String
  | .string value => some value
  | .tagged _ value => value.asStr
  | _ => none

def asBool : Yaml -> Option Bool
  | .bool value => some value
  | .tagged _ value => value.asBool
  | _ => none

def asMapping : Yaml -> Option YamlMapping
  | .mapping entries => some entries
  | .tagged _ value => value.asMapping
  | _ => none

/-- Whether a key is this string, without a tag. -/
def isKey (key : String) : Yaml -> Bool
  | .string present => present == key
  | _ => false

theorem isKey_iff {key : String} {value : Yaml} : value.isKey key = true ↔ value = .string key := by
  cases value with
  | string present => rw [isKey, beq_iff_eq, Yaml.string.injEq]
  | _ => exact iff_of_false Bool.false_ne_true fun same => by cases same

theorem isKey_string (key other : String) : (Yaml.string other).isKey key = true ↔ other = key := by
  rw [isKey, beq_iff_eq]

end Yaml

namespace YamlMapping

/-- The value of a key. -/
def get (mapping : YamlMapping) (key : String) : Option Yaml :=
  (mapping.find? fun entry => entry.1.isKey key).map Prod.snd

def containsKey (mapping : YamlMapping) (key : String) : Bool :=
  (get mapping key).isSome

/-- Replace the value of a key where it stands, or add it at the end. -/
def insert (mapping : YamlMapping) (key : String) (value : Yaml) : YamlMapping :=
  match mapping with
  | [] => [(.string key, value)]
  | entry :: rest => if entry.1.isKey key then (.string key, value) :: rest else entry :: insert rest key value

/-- Remove a key and keep the order of the others. -/
def shiftRemove (mapping : YamlMapping) (key : String) : YamlMapping :=
  mapping.filter fun entry => !entry.1.isKey key

theorem get_cons (entry : Yaml × Yaml) (rest : YamlMapping) (key : String) :
    get (entry :: rest) key = if entry.1.isKey key = true then some entry.2 else get rest key := by
  rw [get, List.find?_cons]
  cases entry.1.isKey key with
  | true => rfl
  | false => rfl

theorem get_cons_string (present : String) (value : Yaml) (rest : YamlMapping) (key : String) :
    get ((.string present, value) :: rest) key = if present = key then some value else get rest key := by
  rw [get_cons]
  by_cases same : present = key
  · rw [if_pos ((Yaml.isKey_string key present).mpr same), if_pos same]
  · rw [if_neg fun named => same ((Yaml.isKey_string key present).mp named), if_neg same]

theorem get_insert (mapping : YamlMapping) (key other : String) (value : Yaml) :
    get (insert mapping key value) other = if other = key then some value else get mapping other := by
  induction mapping with
  | nil =>
      rw [insert, get_cons_string]
      simp only [eq_comm]
  | cons entry rest ih =>
      rcases entry with ⟨present, old⟩
      rw [insert]
      split
      case isTrue here =>
          have named : present = .string key := Yaml.isKey_iff.mp here
          rw [named, get_cons_string, get_cons_string]
          by_cases same : other = key
          · rw [if_pos same.symm, if_pos same]
          · rw [if_neg (Ne.symm same), if_neg same, if_neg (Ne.symm same)]
      case isFalse elsewhere =>
          rw [get_cons, get_cons, ih]
          by_cases found : present.isKey other = true
          · have different : other ≠ key := by
              intro same
              rw [same] at found
              exact elsewhere found
            rw [if_pos found, if_pos found, if_neg different]
          · rw [if_neg found, if_neg found]

theorem get_insert_self (mapping : YamlMapping) (key : String) (value : Yaml) :
    get (insert mapping key value) key = some value := by
  rw [get_insert, if_pos rfl]

theorem get_insert_of_ne (mapping : YamlMapping) {key other : String} (value : Yaml) (different : other ≠ key) :
    get (insert mapping key value) other = get mapping other := by
  rw [get_insert, if_neg different]

theorem get_filter (mapping : YamlMapping) (keep : Yaml -> Bool) (key : String) :
    get (mapping.filter fun entry => keep entry.1) key =
      if keep (.string key) = true then get mapping key else none := by
  induction mapping with
  | nil => exact (ite_self none).symm
  | cons entry rest ih =>
      rw [List.filter_cons, get_cons]
      by_cases here : entry.1.isKey key = true
      · rw [if_pos here, ← Yaml.isKey_iff.mp here]
        split
        case isTrue => rw [get_cons, if_pos here]
        case isFalse dropped => rw [ih, ← Yaml.isKey_iff.mp here, if_neg dropped]
      · rw [if_neg here]
        split
        · rw [get_cons, if_neg here, ih]
        · exact ih

theorem get_shiftRemove (mapping : YamlMapping) (key other : String) :
    get (shiftRemove mapping key) other = if other = key then none else get mapping other := by
  rw [shiftRemove, get_filter mapping (fun present => !present.isKey key)]
  by_cases same : other = key
  · rw [if_pos same, same, if_neg]
    rw [(Yaml.isKey_string key key).mpr rfl]
    exact Bool.false_ne_true
  · rw [if_neg same, if_pos]
    rw [Bool.not_eq_true', Bool.eq_false_iff, ne_eq, Yaml.isKey_string]
    exact same

theorem mem_of_get {mapping : YamlMapping} {key : String} {value : Yaml} (found : get mapping key = some value) :
    (.string key, value) ∈ mapping := by
  rcases Option.map_eq_some_iff.mp found with ⟨entry, first, same⟩
  have member := List.mem_of_find?_eq_some first
  have named := List.find?_some first
  rw [← Yaml.isKey_iff.mp named, ← same]
  exact member

theorem mem_keys_insert {mapping : YamlMapping} {key : String} {value present : Yaml} :
    present ∈ (insert mapping key value).map Prod.fst ↔ present = .string key ∨ present ∈ mapping.map Prod.fst := by
  induction mapping with
  | nil => simp [insert]
  | cons entry rest ih =>
      rw [insert]
      split
      case isTrue here => simp [Yaml.isKey_iff.mp here]
      case isFalse =>
          rw [List.map_cons, List.mem_cons, ih, List.map_cons, List.mem_cons]
          constructor
          · rintro (first | own | later)
            · exact Or.inr (Or.inl first)
            · exact Or.inl own
            · exact Or.inr (Or.inr later)
          · rintro (own | first | later)
            · exact Or.inr (Or.inl own)
            · exact Or.inl first
            · exact Or.inr (Or.inr later)

end YamlMapping
end AIBuddy
