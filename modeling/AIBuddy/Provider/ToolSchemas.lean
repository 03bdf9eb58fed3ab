import AIBuddy.Support.JsonAgrees

namespace AIBuddy
namespace ToolSchemas

/-!
# Schemas of tools

Before tools are sent to a provider their schemas are rewritten: alternatives become `anyOf`,
nullable types and alternatives become the type that is not null, and objects get properties and
required names.  The order of the members of an object is not kept track of.
-/

/-! ## Nullable types -/

def isNullType (type : Json) : Bool :=
  type.asStr == some "null"

/-- Whether a variant is the schema of null. -/
def isNullSchema (variant : Json) : Bool :=
  (variant.get "type").any isNullType

/-- The type that is left of an array of types without null, when it is one. -/
def soleType : Json -> Option Json
  | .array types =>
      match types.filter fun type => !isNullType type with
      | [scalar] => some scalar
      | _ => none
  | _ => none

/-- The variant besides null, of two variants. -/
def nonNullVariant : Json -> Option Json
  | .array [first, second] =>
      if isNullSchema first then some second else if isNullSchema second then some first else none
  | _ => none

/-- Insert the members whose keys are not present. -/
def mergeAbsent (object replacement : JsonObject) : JsonObject :=
  replacement.foldl (fun merged member => merged.orInsert member.1 member.2) object

/-- Replace a nullable `anyOf` by the members of its variant. -/
def unwrapAnyOf (object : JsonObject) : JsonObject :=
  match object.lookup "anyOf" with
  | none => object
  | some anyOf =>
      match nonNullVariant anyOf with
      | some (.object replacement) => mergeAbsent (object.remove "anyOf") replacement
      | _ => JsonObject.insert (object.remove "anyOf") "anyOf" anyOf

def normalizeNullable (object : JsonObject) : JsonObject :=
  match (object.lookup "type").bind soleType with
  | some scalar => JsonObject.insert object "type" scalar
  | none => unwrapAnyOf object

/-! ## Nodes -/

/-- Rename `oneOf`, unless `anyOf` is present too. -/
def renameOneOf (object : JsonObject) : JsonObject :=
  if (object.lookup "anyOf").isSome then object
  else
    match object.lookup "oneOf" with
    | some oneOf => JsonObject.insert (object.remove "oneOf") "anyOf" oneOf
    | none => object

def ensureObjectMembers (object : JsonObject) : JsonObject :=
  if (object.lookup "type").bind Json.asStr = some "object" then
    (object.orInsert "properties" (.object [])).orInsert "required" (.array [])
  else object

/-- What is done at a node before its children. -/
def rewriteNode (object : JsonObject) : JsonObject :=
  ensureObjectMembers (normalizeNullable (renameOneOf object))

def mapValues (change : Json -> Json) : Json -> Json
  | .object fields => .object (fields.map fun member => (member.1, change member.2))
  | value => value

def mapItems (change : Json -> Json) : Json -> Json
  | .array items => .array (items.map change)
  | value => value

def mapObject (change : Json -> Json) : Json -> Json
  | .object fields => change (.object fields)
  | value => value

/-- The keys of objects, of arrays and of single schemas that a node has its children at. -/
def namedKeys : List String := ["properties", "$defs", "definitions"]

def listedKeys : List String := ["anyOf", "allOf", "prefixItems"]

def singleKeys : List String := ["items", "additionalProperties"]

def mapChildren (change : Json -> Json) (object : JsonObject) : JsonObject :=
  let named := namedKeys.foldl (fun object key => JsonObject.modify object key (mapValues change)) object
  let listed := listedKeys.foldl (fun object key => JsonObject.modify object key (mapItems change)) named
  singleKeys.foldl (fun object key => JsonObject.modify object key (mapObject change)) listed

/-- Sanitize the nodes down to some depth. -/
def sanitizeWithin : Nat -> Json -> Json
  | depth + 1, .object object => .object (mapChildren (sanitizeWithin depth) (rewriteNode object))
  | _, node => node

/-- Sanitize a node and all nodes below it. -/
def sanitizeSchemaNode (node : Json) : Json :=
  sanitizeWithin node.depth node

def withType (object : JsonObject) : JsonObject :=
  if (object.lookup "type").isSome then object else JsonObject.insert object "type" (.string "object")

def ensureValidJsonSchema : Json -> Json
  | .object object => sanitizeSchemaNode (.object (withType object))
  | schema => sanitizeSchemaNode schema

/-- Change the member of an object. -/
def changeMember (key : String) (change : Json -> Json) : Json -> Json
  | .object object => .object (JsonObject.modify object key change)
  | value => value

def validateToolSchema (tool : Json) : Json :=
  changeMember "function" (changeMember "parameters" (mapObject ensureValidJsonSchema)) tool

def validateToolSchemas (tools : List Json) : List Json :=
  tools.map validateToolSchema

/-! ## Lookups -/

section Lookups

variable {object replacement : JsonObject} {key : String}

theorem lookup_mergeAbsent (object replacement : JsonObject) (key : String) :
    (mergeAbsent object replacement).lookup key = (object.lookup key).or (replacement.lookup key) := by
  unfold mergeAbsent
  induction replacement generalizing object with
  | nil => simp
  | cons member rest ih =>
      rcases member with ⟨present, value⟩
      rw [List.foldl_cons, ih, JsonObject.lookup_orInsert, List.lookup_cons, Option.or_assoc]
      congr 1
      by_cases same : key = present
      · rw [if_pos same, same, beq_self_eq_true]
        rfl
      · rw [if_neg same, beq_eq_false_iff_ne.mpr same]
        rfl

theorem lookup_mapMembers (object : JsonObject) (change : String -> Json -> Json) (key : String) :
    List.lookup key (object.map fun member => (member.1, change member.1 member.2)) =
      (object.lookup key).map (change key) := by
  induction object with
  | nil => rfl
  | cons member rest ih =>
      rcases member with ⟨present, value⟩
      rw [List.map_cons, List.lookup_cons, List.lookup_cons, ih]
      by_cases same : key = present
      · rw [same, beq_self_eq_true]
        rfl
      · rw [beq_eq_false_iff_ne.mpr same]

/-- What happens to the value of a key when the children are changed. -/
def changeChild (change : Json -> Json) (key : String) : Json -> Json :=
  if key ∈ namedKeys then mapValues change
  else if key ∈ listedKeys then mapItems change
  else if key ∈ singleKeys then mapObject change
  else id

private theorem modifyAll_eq_map (keys : List String) (nodup : keys.Nodup) (change : Json -> Json) (object : JsonObject) :
    keys.foldl (fun object key => JsonObject.modify object key change) object =
      object.map fun member => (member.1, if member.1 ∈ keys then change member.2 else member.2) := by
  induction keys generalizing object with
  | nil => simp
  | cons first rest ih =>
      rw [List.foldl_cons, ih (List.nodup_cons.mp nodup).2, JsonObject.modify, List.map_map]
      congr 1
      funext member
      by_cases same : member.1 = first
      · have absent : member.1 ∉ rest := same ▸ (List.nodup_cons.mp nodup).1
        simp [same, same ▸ absent]
      · simp [same]

theorem mapChildren_eq_map (change : Json -> Json) (object : JsonObject) :
    mapChildren change object = object.map fun member => (member.1, changeChild change member.1 member.2) := by
  unfold mapChildren
  simp only [modifyAll_eq_map namedKeys (by decide), modifyAll_eq_map listedKeys (by decide),
    modifyAll_eq_map singleKeys (by decide), List.map_map]
  congr 1
  funext member
  have apart : (forall other, other ∈ namedKeys -> other ∉ listedKeys ∧ other ∉ singleKeys) ∧
      forall other, other ∈ listedKeys -> other ∉ singleKeys := by decide
  unfold changeChild
  by_cases named : member.1 ∈ namedKeys
  · rcases apart.1 _ named with ⟨noList, noSingle⟩
    simp [named, noList, noSingle]
  · by_cases listed : member.1 ∈ listedKeys
    · simp [named, listed, apart.2 _ listed]
    · by_cases single : member.1 ∈ singleKeys
      · simp [named, listed, single]
      · simp [named, listed, single]

theorem lookup_mapChildren (change : Json -> Json) (object : JsonObject) (key : String) :
    (mapChildren change object).lookup key = (object.lookup key).map (changeChild change key) := by
  rw [mapChildren_eq_map, lookup_mapMembers]

end Lookups

/-! ## Depth -/

section Depth

variable {object replacement : JsonObject} {key : String} {value : Json} {bound : Nat}

/-- All values of an object are nested less deeply than so. -/
def Shallow (bound : Nat) (object : JsonObject) : Prop :=
  forall member, member ∈ object -> member.2.depth < bound

theorem Shallow.remove (shallow : Shallow bound object) (key : String) : Shallow bound (object.remove key) :=
  fun member present => shallow member (List.mem_filter.mp present).1

theorem Shallow.insert (shallow : Shallow bound object) (small : value.depth < bound) :
    Shallow bound (JsonObject.insert object key value) := by
  induction object with
  | nil =>
      intro member present
      rw [JsonObject.insert, List.mem_singleton] at present
      rw [present]
      exact small
  | cons first rest ih =>
      have others := ih fun member present => shallow member (List.mem_cons_of_mem _ present)
      intro member present
      rw [JsonObject.insert] at present
      split at present
      · rcases List.mem_cons.mp present with rfl | later
        · exact small
        · exact shallow member (List.mem_cons_of_mem _ later)
      · rcases List.mem_cons.mp present with rfl | later
        · exact shallow _ List.mem_cons_self
        · exact others member later

theorem Shallow.orInsert (shallow : Shallow bound object) (small : value.depth < bound) :
    Shallow bound (object.orInsert key value) := by
  unfold JsonObject.orInsert
  split
  · exact shallow
  · intro member present
    rcases List.mem_append.mp present with old | new
    · exact shallow member old
    · rw [List.mem_singleton.mp new]
      exact small

theorem Shallow.mergeAbsent (shallow : Shallow bound object) (others : Shallow bound replacement) :
    Shallow bound (mergeAbsent object replacement) := by
  unfold ToolSchemas.mergeAbsent
  induction replacement generalizing object with
  | nil => exact shallow
  | cons first rest ih =>
      exact ih (shallow.orInsert (others first List.mem_cons_self))
        fun member present => others member (List.mem_cons_of_mem _ present)

theorem Shallow.lookup (shallow : Shallow bound object) (found : object.lookup key = some value) :
    value.depth < bound :=
  shallow (key, value) (Json.mem_of_lookup found)

theorem mem_of_nonNullVariant {anyOf variant : Json} (found : nonNullVariant anyOf = some variant) :
    Exists fun items => anyOf = .array items ∧ variant ∈ items := by
  unfold nonNullVariant at found
  split at found
  · rename_i first second
    refine ⟨_, rfl, ?_⟩
    split at found
    · rw [← Option.some.inj found]
      simp
    · split at found
      · rw [← Option.some.inj found]
        simp
      · cases found
  · cases found

theorem soleType_eq_some_iff {type scalar : Json} : soleType type = some scalar ↔
    Exists fun types => type = .array types ∧ (types.filter fun type => !isNullType type) = [scalar] := by
  constructor
  · intro found
    unfold soleType at found
    split at found
    · rename_i types
      split at found
      · rename_i single
        exact ⟨types, rfl, by rw [single, Option.some.inj found]⟩
      · cases found
    · cases found
  · rintro ⟨types, rfl, single⟩
    simp only [soleType, single]

theorem mem_of_soleType {type scalar : Json} (found : soleType type = some scalar) :
    Exists fun types => type = .array types ∧ scalar ∈ types ∧ isNullType scalar = false := by
  rcases soleType_eq_some_iff.mp found with ⟨types, rfl, single⟩
  have kept : scalar ∈ types.filter fun type => !isNullType type := by
    rw [single]
    exact List.mem_cons_self
  rcases List.mem_filter.mp kept with ⟨member, notNull⟩
  exact ⟨types, rfl, member, by simpa using notNull⟩

theorem Shallow.renameOneOf (shallow : Shallow bound object) : Shallow bound (renameOneOf object) := by
  unfold ToolSchemas.renameOneOf
  split
  · exact shallow
  · split
    · rename_i found
      exact (shallow.remove _).insert (shallow.lookup found)
    · exact shallow

theorem Shallow.unwrapAnyOf (shallow : Shallow bound object) : Shallow bound (unwrapAnyOf object) := by
  unfold ToolSchemas.unwrapAnyOf
  split
  · exact shallow
  · rename_i anyOf found
    have small := shallow.lookup found
    split
    · rename_i variant
      rcases mem_of_nonNullVariant variant with ⟨items, rfl, member⟩
      apply (shallow.remove _).mergeAbsent
      intro other present
      exact Nat.lt_trans (Json.depth_lt_object present) (Nat.lt_trans (Json.depth_lt_array member) small)
    · exact (shallow.remove _).insert small

theorem Shallow.normalizeNullable (shallow : Shallow bound object) : Shallow bound (normalizeNullable object) := by
  unfold ToolSchemas.normalizeNullable
  split
  · rename_i scalar found
    rcases Option.bind_eq_some_iff.mp found with ⟨type, present, sole⟩
    rcases mem_of_soleType sole with ⟨types, rfl, member, _⟩
    exact shallow.insert (Nat.lt_trans (Json.depth_lt_array member) (shallow.lookup present))
  · exact shallow.unwrapAnyOf

theorem Shallow.rewriteNode (shallow : Shallow bound object) : Shallow bound (rewriteNode object) := by
  have normal := shallow.renameOneOf.normalizeNullable
  unfold ToolSchemas.rewriteNode ensureObjectMembers
  split
  · rename_i isObject
    rcases Option.bind_eq_some_iff.mp isObject with ⟨type, found, _⟩
    have positive : 0 < bound := Nat.zero_lt_of_lt (normal.lookup found)
    have noMembers : (Json.object []).depth < bound := positive
    have noItems : (Json.array []).depth < bound := positive
    exact (normal.orInsert noMembers).orInsert noItems
  · exact normal

theorem mapValues_congr {first second : Json -> Json} (same : forall other, other.depth < value.depth -> first other = second other) :
    mapValues first value = mapValues second value := by
  cases value with
  | object fields =>
      simp only [mapValues, Json.object.injEq]
      apply List.map_congr_left
      intro member present
      rw [same _ (Json.depth_lt_object present)]
  | null => rfl
  | bool flag => rfl
  | number number => rfl
  | string text => rfl
  | array items => rfl

theorem mapItems_congr {first second : Json -> Json} (same : forall other, other.depth < value.depth -> first other = second other) :
    mapItems first value = mapItems second value := by
  cases value with
  | array items =>
      simp only [mapItems, Json.array.injEq]
      apply List.map_congr_left
      intro item present
      rw [same _ (Json.depth_lt_array present)]
  | null => rfl
  | bool flag => rfl
  | number number => rfl
  | string text => rfl
  | object fields => rfl

theorem mapObject_congr {first second : Json -> Json} (same : first value = second value) :
    mapObject first value = mapObject second value := by
  cases value with
  | object fields => exact same
  | null => rfl
  | bool flag => rfl
  | number number => rfl
  | string text => rfl
  | array items => rfl

/-- Children are nested less deeply than the node. -/
theorem mapChildren_congr {first second : Json -> Json} (shallow : Shallow bound object)
    (same : forall other, other.depth < bound -> first other = second other) :
    mapChildren first object = mapChildren second object := by
  rw [mapChildren_eq_map, mapChildren_eq_map]
  apply List.map_congr_left
  intro member present
  have small := shallow member present
  have inside : forall other, other.depth < member.2.depth -> first other = second other :=
    fun other deeper => same other (Nat.lt_trans deeper small)
  unfold changeChild
  split
  · rw [mapValues_congr inside]
  · split
    · rw [mapItems_congr inside]
    · split
      · rw [mapObject_congr (same _ small)]
      · rfl

theorem sanitizeWithin_flat {node : Json} (flat : node.depth = 0) (bound : Nat) : sanitizeWithin bound node = node := by
  cases bound with
  | zero => rfl
  | succ bound =>
      cases node with
      | object object =>
          cases object with
          | nil => rfl
          | cons member rest =>
              rw [Json.depth, Json.depthFields] at flat
              omega
      | null => rfl
      | bool flag => rfl
      | number number => rfl
      | string text => rfl
      | array items => rfl

/-- Going down further than a value is deep changes nothing. -/
theorem sanitizeWithin_eq {node : Json} (deep : node.depth ≤ bound) :
    sanitizeWithin bound node = sanitizeSchemaNode node := by
  have all : forall (first second : Nat) (node : Json), node.depth ≤ first -> node.depth ≤ second ->
      sanitizeWithin first node = sanitizeWithin second node := by
    intro first
    induction first with
    | zero =>
        intro second node flat _
        rw [sanitizeWithin_flat (Nat.le_zero.mp flat), sanitizeWithin_flat (Nat.le_zero.mp flat)]
    | succ first ih =>
        intro second node deep other
        cases second with
        | zero => rw [sanitizeWithin_flat (Nat.le_zero.mp other), sanitizeWithin_flat (Nat.le_zero.mp other)]
        | succ second =>
            cases node with
            | object object =>
                rw [sanitizeWithin, sanitizeWithin]
                congr 1
                have shallow : Shallow (Json.object object).depth object := fun member present => Json.depth_lt_object present
                exact mapChildren_congr shallow.rewriteNode fun value small =>
                  ih second value (by omega) (by omega)
            | null => rfl
            | bool flag => rfl
            | number number => rfl
            | string text => rfl
            | array items => rfl
  exact all bound node.depth node deep (Nat.le_refl _)

theorem sanitizeSchemaNode_object (object : JsonObject) :
    sanitizeSchemaNode (.object object) = .object (mapChildren sanitizeSchemaNode (rewriteNode object)) := by
  have shallow : Shallow (Json.object object).depth object := fun member present => Json.depth_lt_object present
  rw [← sanitizeWithin_eq (Nat.le_succ _), sanitizeWithin]
  congr 1
  exact mapChildren_congr shallow.rewriteNode fun value small => sanitizeWithin_eq (Nat.le_of_lt small)

end Depth
end ToolSchemas
end AIBuddy
