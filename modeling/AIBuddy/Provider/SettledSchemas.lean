import Mathlib.Logic.Relation
import AIBuddy.Provider.ToolSchemas

namespace AIBuddy
namespace ToolSchemas

/-!
# Settled schemas

A schema that was sanitized should have no nullable types left, and sanitizing it again should
change nothing.  Both are the case when, at every node that is visited, one rewriting is
enough: what replaces a type or an alternative needs no rewriting itself.
-/

/-! ## Nodes -/

/-- A schema is an object or a Boolean. -/
def isSchema : Json -> Bool
  | .object _ => true
  | .bool _ => true
  | _ => false

/-- Two variants of which one is null and the other one is a schema. -/
def NullablePair (null : Json -> Prop) (anyOf : Json) : Prop :=
  Exists fun first => Exists fun second => anyOf = .array [first, second] ∧
    (null first ∧ isSchema second = true ∨ null second ∧ isSchema first = true)

/-- A type array with one member besides null. -/
def NullableType (type : Json) : Prop :=
  Exists fun types => type = .array types ∧ (types.filter fun type => !isNullType type).length = 1 ∧
    Exists fun null => null ∈ types ∧ isNullType null = true

/-- A node without nullable types. -/
structure CleanNode (object : JsonObject) : Prop where
  type : forall type, object.lookup "type" = some type -> ¬ NullableType type
  anyOf : forall anyOf, object.lookup "anyOf" = some anyOf -> ¬ NullablePair (isNullSchema · = true) anyOf

/-- The children that the value of a key holds. -/
inductive ChildAt (key : String) : Json -> Json -> Prop where
  | named {fields : JsonObject} {name : String} {child : Json} (known : key ∈ namedKeys)
      (found : fields.lookup name = some child) : ChildAt key (.object fields) child
  | listed {items : List Json} {index : Nat} {child : Json} (known : key ∈ listedKeys)
      (found : items[index]? = some child) : ChildAt key (.array items) child
  | single {fields : JsonObject} (known : key ∈ singleKeys) : ChildAt key (.object fields) (.object fields)

def Child (object : JsonObject) (child : Json) : Prop :=
  Exists fun key => Exists fun value => object.lookup key = some value ∧ ChildAt key value child

/-- One node below another one. -/
def Below (parent child : Json) : Prop :=
  Exists fun object => parent = .object object ∧ Child object child

/-- No node of a schema has nullable types. -/
def Clean (schema : Json) : Prop :=
  forall object, Relation.ReflTransGen Below schema (.object object) -> CleanNode object

/-! ## What is visited -/

/-- The alternatives of a node. -/
def alternatives (object : JsonObject) : Option Json :=
  (object.lookup "anyOf").or (object.lookup "oneOf")

/-- The variant that a node is merged with, unless its type is an array that is replaced. -/
def Merges (object replacement : JsonObject) : Prop :=
  (object.lookup "type").bind soleType = none ∧
    (alternatives object).bind nonNullVariant = some (.object replacement)

/-- A node that is visited below a node: below the node itself, among its alternatives when they stay, or
below the variant that the node is merged with. -/
inductive Visits (object : JsonObject) (child : Json) : Prop where
  | own {key : String} {value : Json} (other : key ≠ "anyOf") (found : object.lookup key = some value)
      (inside : ChildAt key value child)
  | variant {anyOf : Json} (stays : forall replacement, ¬ Merges object replacement)
      (found : alternatives object = some anyOf) (inside : ChildAt "anyOf" anyOf child)
  | merged {replacement : JsonObject} {key : String} {value : Json} (merges : Merges object replacement)
      (free : key = "anyOf" ∨ object.lookup key = none) (found : replacement.lookup key = some value)
      (inside : ChildAt key value child)

/-- A schema that turns into the schema of null: it is one, or it has two alternatives that are. -/
def BecomesNull (schema : Json) : Prop :=
  isNullSchema schema = true ∨ Exists fun object => schema = .object object ∧ object.lookup "type" = none ∧
    Exists fun first => Exists fun second => alternatives object = some (.array [first, second]) ∧
      isNullSchema first = true ∧ isNullSchema second = true

/-- One rewriting is enough for a node: the type that replaces an array of types is no such array, the variant
that is merged brings no such array and no alternatives that are nullable or named otherwise, and alternatives that
stay are not nullable, also when they are sanitized. -/
inductive SettledNode (object : JsonObject) : Prop where
  | replaced {scalar : Json} (type : (object.lookup "type").bind soleType = some scalar) (plain : soleType scalar = none)
      (anyOf : forall anyOf, alternatives object = some anyOf -> ¬ NullablePair BecomesNull anyOf)
  | merged {replacement : JsonObject} (merges : Merges object replacement)
      (type : object.lookup "type" = none -> (replacement.lookup "type").bind soleType = none)
      (anyOf : forall anyOf, replacement.lookup "anyOf" = some anyOf -> ¬ NullablePair BecomesNull anyOf)
      (oneOf : (object.lookup "anyOf").isSome = true ∧ (object.lookup "oneOf").isSome = true ∨
        (replacement.lookup "oneOf").isSome = true -> (replacement.lookup "anyOf").isSome = true)
  | kept (type : (object.lookup "type").bind soleType = none) (stays : forall replacement, ¬ Merges object replacement)
      (anyOf : forall anyOf, alternatives object = some anyOf -> ¬ NullablePair BecomesNull anyOf)

def VisitsBelow (parent child : Json) : Prop :=
  Exists fun object => parent = .object object ∧ Visits object child

/-- One rewriting is enough for every node that is visited. -/
def Settled (schema : Json) : Prop :=
  forall object, Relation.ReflTransGen VisitsBelow schema (.object object) -> SettledNode object

/-! ## Rewritten nodes -/

section Rewriting

variable {object replacement : JsonObject} {key : String} {scalar child : Json}

theorem lookup_renameOneOf (object : JsonObject) (key : String) : (renameOneOf object).lookup key =
    if key = "anyOf" then alternatives object
    else if key = "oneOf" then (if (object.lookup "anyOf").isSome then object.lookup "oneOf" else none)
    else object.lookup key := by
  unfold renameOneOf alternatives
  split
  · rename_i present
    rcases Option.isSome_iff_exists.mp present with ⟨anyOf, found⟩
    by_cases isAnyOf : key = "anyOf"
    · rw [if_pos isAnyOf, isAnyOf, found, Option.some_or]
    · by_cases isOneOf : key = "oneOf"
      · rw [if_neg isAnyOf, if_pos isOneOf, isOneOf]
      · rw [if_neg isAnyOf, if_neg isOneOf]
  · rename_i absent
    have none : object.lookup "anyOf" = none := Option.not_isSome_iff_eq_none.mp absent
    split
    · rename_i oneOf found
      rw [JsonObject.lookup_insert, JsonObject.lookup_remove, none, found, Option.none_or]
    · rename_i missing
      rw [none, missing, Option.none_or]
      by_cases isAnyOf : key = "anyOf"
      · rw [if_pos isAnyOf, isAnyOf, none]
      · by_cases isOneOf : key = "oneOf"
        · rw [if_neg isAnyOf, if_pos isOneOf, isOneOf, missing]
        · rw [if_neg isAnyOf, if_neg isOneOf]

theorem lookup_renameOneOf_type (object : JsonObject) : (renameOneOf object).lookup "type" = object.lookup "type" := by
  rw [lookup_renameOneOf, if_neg (by decide), if_neg (by decide)]

theorem lookup_renameOneOf_anyOf (object : JsonObject) : (renameOneOf object).lookup "anyOf" = alternatives object := by
  rw [lookup_renameOneOf, if_pos rfl]

/-- What a node with these members normalizes to. -/
def normalized (object : JsonObject) : JsonObject :=
  normalizeNullable (renameOneOf object)

theorem lookup_normalized_of_replaced (type : (object.lookup "type").bind soleType = some scalar) (key : String) :
    (normalized object).lookup key = if key = "type" then some scalar else (renameOneOf object).lookup key := by
  rw [normalized, normalizeNullable, lookup_renameOneOf_type, type]
  exact JsonObject.lookup_insert _ _ _ _

theorem lookup_normalized_of_merges (merges : Merges object replacement) (key : String) :
    (normalized object).lookup key =
      if key = "anyOf" then replacement.lookup "anyOf" else ((renameOneOf object).lookup key).or (replacement.lookup key) := by
  rcases Option.bind_eq_some_iff.mp merges.2 with ⟨anyOf, found, variant⟩
  have unwrapped : normalized object = mergeAbsent ((renameOneOf object).remove "anyOf") replacement := by
    rw [normalized, normalizeNullable, lookup_renameOneOf_type, merges.1]
    simp only [unwrapAnyOf, lookup_renameOneOf_anyOf, found, variant]
  rw [unwrapped, lookup_mergeAbsent, JsonObject.lookup_remove]
  by_cases isAnyOf : key = "anyOf"
  · rw [if_pos isAnyOf, if_pos isAnyOf, isAnyOf, Option.none_or]
  · rw [if_neg isAnyOf, if_neg isAnyOf]

theorem lookup_unwrapAnyOf (stays : forall replacement, (object.lookup "anyOf").bind nonNullVariant ≠ some (.object replacement))
    (key : String) : (unwrapAnyOf object).lookup key = object.lookup key := by
  unfold unwrapAnyOf
  split
  · rfl
  · rename_i anyOf found
    rw [found, Option.bind_some] at stays
    split
    · rename_i replacement variant
      exact absurd variant (stays replacement)
    · rw [JsonObject.lookup_insert, JsonObject.lookup_remove]
      by_cases isAnyOf : key = "anyOf"
      · rw [if_pos isAnyOf, isAnyOf, found]
      · rw [if_neg isAnyOf, if_neg isAnyOf]

theorem lookup_normalized_of_kept (type : (object.lookup "type").bind soleType = none)
    (stays : forall replacement, ¬ Merges object replacement) (key : String) :
    (normalized object).lookup key = (renameOneOf object).lookup key := by
  have unwrapped : normalized object = unwrapAnyOf (renameOneOf object) := by
    rw [normalized, normalizeNullable, lookup_renameOneOf_type, type]
  rw [unwrapped, lookup_unwrapAnyOf]
  intro replacement variant
  rw [lookup_renameOneOf_anyOf] at variant
  exact stays replacement ⟨type, variant⟩

theorem lookup_ensureObjectMembers (noProperties : key ≠ "properties") (noRequired : key ≠ "required") :
    (ensureObjectMembers object).lookup key = object.lookup key := by
  unfold ensureObjectMembers
  split
  · rw [JsonObject.lookup_orInsert, JsonObject.lookup_orInsert, if_neg noProperties, if_neg noRequired, Option.or_none,
      Option.or_none]
  · rfl

theorem lookup_rewriteNode (noProperties : key ≠ "properties") (noRequired : key ≠ "required") :
    (rewriteNode object).lookup key = (normalized object).lookup key :=
  lookup_ensureObjectMembers noProperties noRequired

theorem child_ensureObjectMembers : Child (ensureObjectMembers object) child ↔ Child object child := by
  constructor
  · rintro ⟨key, value, found, inside⟩
    unfold ensureObjectMembers at found
    split at found
    · rw [JsonObject.lookup_orInsert, JsonObject.lookup_orInsert] at found
      cases present : object.lookup key with
      | some old =>
          rw [present, Option.some_or, Option.some_or] at found
          exact ⟨key, value, present.trans found, inside⟩
      | none =>
          rw [present, Option.none_or] at found
          by_cases properties : key = "properties"
          · rw [if_pos properties, Option.some_or] at found
            rw [← Option.some.inj found] at inside
            cases inside with
            | named known absent => cases absent
            | single known => exact absurd known (by rw [properties]; decide)
          · rw [if_neg properties, Option.none_or] at found
            split at found
            · rename_i required
              rw [← Option.some.inj found] at inside
              cases inside with
              | listed known absent => cases absent
            · cases found
    · exact ⟨key, value, found, inside⟩
  · rintro ⟨key, value, found, inside⟩
    refine ⟨key, value, ?_, inside⟩
    unfold ensureObjectMembers
    split
    · rw [JsonObject.lookup_orInsert, JsonObject.lookup_orInsert, found, Option.some_or, Option.some_or]
    · exact found

theorem ChildAt.known {value : Json} (inside : ChildAt key value child) :
    key ∈ namedKeys ∨ key ∈ listedKeys ∨ key ∈ singleKeys := by
  cases inside with
  | named known found => exact Or.inl known
  | listed known found => exact Or.inr (Or.inl known)
  | single known => exact Or.inr (Or.inr known)

private theorem ne_oneOf_of_known (known : key ∈ namedKeys ∨ key ∈ listedKeys ∨ key ∈ singleKeys) :
    key ≠ "oneOf" ∧ key ≠ "type" := by
  have all : forall other, other ∈ namedKeys ++ listedKeys ++ singleKeys -> other ≠ "oneOf" ∧ other ≠ "type" := by decide
  apply all
  rw [List.mem_append, List.mem_append, or_assoc]
  exact known

theorem lookup_renameOneOf_child (known : key ∈ namedKeys ∨ key ∈ listedKeys ∨ key ∈ singleKeys)
    (other : key ≠ "anyOf") : (renameOneOf object).lookup key = object.lookup key := by
  rw [lookup_renameOneOf, if_neg other, if_neg (ne_oneOf_of_known known).1]

theorem visits_iff : Visits object child ↔ Child (rewriteNode object) child := by
  have kept : (forall key, key ≠ "type" -> (normalized object).lookup key = (renameOneOf object).lookup key) ->
      (forall replacement, ¬ Merges object replacement) -> (Visits object child ↔ Child (normalized object) child) := by
    intro same stays
    constructor
    · intro visits
      cases visits with
      | @own key value other found inside =>
          refine ⟨key, value, ?_, inside⟩
          rw [same key (ne_oneOf_of_known inside.known).2, lookup_renameOneOf_child inside.known other, found]
      | @variant anyOf _ found inside =>
          exact ⟨"anyOf", anyOf, by rw [same _ (by decide), lookup_renameOneOf_anyOf, found], inside⟩
      | merged merges free found inside => exact absurd merges (stays _)
    · rintro ⟨key, value, found, inside⟩
      rw [same key (ne_oneOf_of_known inside.known).2] at found
      by_cases isAnyOf : key = "anyOf"
      · subst isAnyOf
        rw [lookup_renameOneOf_anyOf] at found
        exact Visits.variant stays found inside
      · rw [lookup_renameOneOf_child inside.known isAnyOf] at found
        exact Visits.own isAnyOf found inside
  rw [rewriteNode, child_ensureObjectMembers, ← normalized]
  cases type : (object.lookup "type").bind soleType with
  | some scalar =>
      apply kept
      · intro key other
        rw [lookup_normalized_of_replaced type, if_neg other]
      · intro replacement merges
        rw [merges.1] at type
        cases type
  | none =>
      by_cases merging : Exists fun replacement => Merges object replacement
      · rcases merging with ⟨replacement, merges⟩
        constructor
        · intro visits
          cases visits with
          | @own key value other found inside =>
              refine ⟨key, value, ?_, inside⟩
              rw [lookup_normalized_of_merges merges, if_neg other, lookup_renameOneOf_child inside.known other, found,
                Option.some_or]
          | variant stays found inside => exact absurd merges (stays _)
          | @merged another key value merges' free found inside =>
              have same : another = replacement := by simpa [merges.2] using merges'.2.symm
              subst same
              refine ⟨key, value, ?_, inside⟩
              rw [lookup_normalized_of_merges merges]
              split
              · rename_i isAnyOf
                rw [← isAnyOf, found]
              · rename_i other
                rw [lookup_renameOneOf_child inside.known other, free.resolve_left other, Option.none_or, found]
        · rintro ⟨key, value, found, inside⟩
          rw [lookup_normalized_of_merges merges] at found
          by_cases isAnyOf : key = "anyOf"
          · rw [if_pos isAnyOf, ← isAnyOf] at found
            exact Visits.merged merges (Or.inl isAnyOf) found inside
          · rw [if_neg isAnyOf, lookup_renameOneOf_child inside.known isAnyOf] at found
            cases present : object.lookup key with
            | some old =>
                rw [present, Option.some_or] at found
                exact Visits.own isAnyOf (present.trans found) inside
            | none =>
                rw [present, Option.none_or] at found
                exact Visits.merged merges (Or.inr present) found inside
      · have stays : forall replacement, ¬ Merges object replacement := fun replacement merges => merging ⟨replacement, merges⟩
        exact kept (fun key _ => lookup_normalized_of_kept type stays key) stays

/-! ## Sanitized nodes -/

theorem sanitizeSchemaNode_of_not_object {node : Json} (other : forall object, node ≠ .object object) :
    sanitizeSchemaNode node = node := by
  cases node with
  | object object => exact absurd rfl (other object)
  | null => rfl
  | bool flag => rfl
  | number number => rfl
  | string text => rfl
  | array items =>
      unfold sanitizeSchemaNode
      cases (Json.array items).depth with
      | zero => rfl
      | succ bound => rfl

private theorem kinds_apart : (forall other, other ∈ namedKeys -> other ∉ listedKeys ∧ other ∉ singleKeys) ∧
    forall other, other ∈ listedKeys -> other ∉ singleKeys := by
  decide

theorem childAt_named (known : key ∈ namedKeys) {value : Json} : ChildAt key value child ↔
    Exists fun fields => Exists fun name => value = .object fields ∧ List.lookup name fields = some child := by
  constructor
  · intro inside
    cases inside with
    | @named fields name _ _ found => exact ⟨fields, name, rfl, found⟩
    | listed listed found => exact absurd listed (kinds_apart.1 key known).1
    | single single => exact absurd single (kinds_apart.1 key known).2
  · rintro ⟨fields, name, rfl, found⟩
    exact ChildAt.named known found

theorem childAt_listed (known : key ∈ listedKeys) {value : Json} : ChildAt key value child ↔
    Exists fun (items : List Json) => Exists fun (index : Nat) => value = .array items ∧ items[index]? = some child := by
  constructor
  · intro inside
    cases inside with
    | named named found => exact absurd known (kinds_apart.1 key named).1
    | @listed items index _ _ found => exact ⟨items, index, rfl, found⟩
    | single single => exact absurd single (kinds_apart.2 key known)
  · rintro ⟨items, index, rfl, found⟩
    exact ChildAt.listed known found

theorem childAt_single (known : key ∈ singleKeys) {value : Json} : ChildAt key value child ↔
    (Exists fun fields => value = .object fields) ∧ child = value := by
  constructor
  · intro inside
    cases inside with
    | named named found => exact absurd known (kinds_apart.1 key named).2
    | listed listed found => exact absurd known (kinds_apart.2 key listed)
    | @single fields _ => exact ⟨⟨fields, rfl⟩, rfl⟩
  · rintro ⟨⟨fields, rfl⟩, rfl⟩
    exact ChildAt.single known

theorem changeChild_named (change : Json -> Json) (known : key ∈ namedKeys) :
    changeChild change key = mapValues change := if_pos known

theorem changeChild_listed (change : Json -> Json) (known : key ∈ listedKeys) :
    changeChild change key = mapItems change := by
  have apart : forall other, other ∈ listedKeys -> other ∉ namedKeys := by decide
  rw [changeChild, if_neg (apart key known), if_pos known]

theorem changeChild_single (change : Json -> Json) (known : key ∈ singleKeys) :
    changeChild change key = mapObject change := by
  have apart : forall other, other ∈ singleKeys -> other ∉ namedKeys ∧ other ∉ listedKeys := by decide
  rw [changeChild, if_neg (apart key known).1, if_neg (apart key known).2, if_pos known]

theorem changeChild_other (change : Json -> Json) (other : key ∉ namedKeys ∧ key ∉ listedKeys ∧ key ∉ singleKeys) :
    changeChild change key = id := by
  rw [changeChild, if_neg other.1, if_neg other.2.1, if_neg other.2.2]

theorem childAt_changeChild {value : Json} : ChildAt key (changeChild sanitizeSchemaNode key value) child ↔
    Exists fun before => ChildAt key value before ∧ child = sanitizeSchemaNode before := by
  constructor
  · intro inside
    generalize changed : changeChild sanitizeSchemaNode key value = result at inside
    cases inside with
    | named known found =>
        rw [changeChild_named _ known] at changed
        cases value with
        | object fields =>
            cases changed
            rw [lookup_mapMembers fields fun _ => sanitizeSchemaNode] at found
            rcases Option.map_eq_some_iff.mp found with ⟨before, present, rfl⟩
            exact ⟨before, ChildAt.named known present, rfl⟩
        | null => cases changed
        | bool flag => cases changed
        | number number => cases changed
        | string text => cases changed
        | array items => cases changed
    | listed known found =>
        rw [changeChild_listed _ known] at changed
        cases value with
        | array items =>
            cases changed
            rw [List.getElem?_map] at found
            rcases Option.map_eq_some_iff.mp found with ⟨before, present, rfl⟩
            exact ⟨before, ChildAt.listed known present, rfl⟩
        | null => cases changed
        | bool flag => cases changed
        | number number => cases changed
        | string text => cases changed
        | object fields => cases changed
    | single known =>
        rw [changeChild_single _ known] at changed
        cases value with
        | object fields => exact ⟨.object fields, ChildAt.single known, changed.symm⟩
        | null => cases changed
        | bool flag => cases changed
        | number number => cases changed
        | string text => cases changed
        | array items => cases changed
  · rintro ⟨before, inside, rfl⟩
    cases inside with
    | @named fields name before known present =>
        rw [changeChild_named _ known, mapValues]
        exact ChildAt.named known (by rw [lookup_mapMembers fields fun _ => sanitizeSchemaNode, present, Option.map_some])
    | @listed items index before known present =>
        rw [changeChild_listed _ known, mapItems]
        exact ChildAt.listed known (by rw [List.getElem?_map, present, Option.map_some])
    | @single fields known =>
        rw [changeChild_single _ known, mapObject, sanitizeSchemaNode_object]
        exact ChildAt.single known

theorem child_mapChildren : Child (mapChildren sanitizeSchemaNode object) child ↔
    Exists fun before => Child object before ∧ child = sanitizeSchemaNode before := by
  constructor
  · rintro ⟨key, value, found, inside⟩
    rw [lookup_mapChildren] at found
    rcases Option.map_eq_some_iff.mp found with ⟨before, present, rfl⟩
    rcases childAt_changeChild.mp inside with ⟨original, within, rfl⟩
    exact ⟨original, ⟨key, before, present, within⟩, rfl⟩
  · rintro ⟨before, ⟨key, value, found, inside⟩, rfl⟩
    exact ⟨key, changeChild sanitizeSchemaNode key value, by rw [lookup_mapChildren, found, Option.map_some],
      childAt_changeChild.mpr ⟨before, inside, rfl⟩⟩

end Rewriting

/-! ## One rewriting -/

section Settling

variable {object : JsonObject} {node : Json}

/-- The members of a sanitized node. -/
def sanitizedNode (object : JsonObject) : JsonObject :=
  mapChildren sanitizeSchemaNode (rewriteNode object)

theorem lookup_sanitizedNode_type (object : JsonObject) :
    (sanitizedNode object).lookup "type" = (normalized object).lookup "type" := by
  rw [sanitizedNode, lookup_mapChildren, changeChild_other _ (by decide), Option.map_id,
    lookup_rewriteNode (by decide) (by decide)]
  rfl

theorem lookup_sanitizedNode_oneOf (object : JsonObject) :
    (sanitizedNode object).lookup "oneOf" = (normalized object).lookup "oneOf" := by
  rw [sanitizedNode, lookup_mapChildren, changeChild_other _ (by decide), Option.map_id,
    lookup_rewriteNode (by decide) (by decide)]
  rfl

theorem lookup_sanitizedNode_anyOf (object : JsonObject) :
    (sanitizedNode object).lookup "anyOf" = ((normalized object).lookup "anyOf").map (mapItems sanitizeSchemaNode) := by
  rw [sanitizedNode, lookup_mapChildren, changeChild_listed _ (by decide), lookup_rewriteNode (by decide) (by decide)]

theorem isSchema_sanitizeSchemaNode (node : Json) : isSchema (sanitizeSchemaNode node) = isSchema node := by
  cases node with
  | object object => rw [sanitizeSchemaNode_object]; rfl
  | null => rfl
  | bool flag => rfl
  | number number => rfl
  | string text => rfl
  | array items =>
      rw [sanitizeSchemaNode_of_not_object]
      intro object same
      cases same

private theorem isNullSchema_iff (object : JsonObject) :
    isNullSchema (.object object) = true ↔ Exists fun type => object.lookup "type" = some type ∧ isNullType type = true := by
  unfold isNullSchema Json.get
  rw [Option.any_eq_true]

theorem nonNullVariant_of_null {first second : Json} (null : isNullSchema first = true) :
    nonNullVariant (.array [first, second]) = some second :=
  if_pos null

theorem both_null {anyOf variant : Json} (found : nonNullVariant anyOf = some variant)
    (null : isNullSchema variant = true) : Exists fun first => Exists fun second =>
      anyOf = .array [first, second] ∧ isNullSchema first = true ∧ isNullSchema second = true := by
  unfold nonNullVariant at found
  split at found
  · rename_i first second
    split at found
    · rename_i firstNull
      rw [← Option.some.inj found] at null
      exact ⟨first, second, rfl, firstNull, null⟩
    · rename_i firstOther
      split at found
      · rw [Option.some.inj found] at firstOther
        exact absurd null firstOther
      · cases found
  · cases found

theorem exists_object_of_isNullSchema {schema : Json} (null : isNullSchema schema = true) :
    Exists fun object => schema = .object object := by
  cases schema with
  | object object => exact ⟨object, rfl⟩
  | null => cases null
  | bool flag => cases null
  | number number => cases null
  | string text => cases null
  | array items => cases null

theorem isNullSchema_sanitizeSchemaNode (node : Json) : isNullSchema (sanitizeSchemaNode node) = true ↔ BecomesNull node := by
  by_cases isObject : Exists fun object => node = .object object
  · rcases isObject with ⟨object, rfl⟩
    rw [sanitizeSchemaNode_object, isNullSchema_iff, ← sanitizedNode, lookup_sanitizedNode_type]
    have own : BecomesNull (.object object) ↔
        (Exists fun type => object.lookup "type" = some type ∧ isNullType type = true) ∨
          object.lookup "type" = none ∧ Exists fun first => Exists fun second =>
            alternatives object = some (.array [first, second]) ∧ isNullSchema first = true ∧ isNullSchema second = true := by
      rw [BecomesNull, isNullSchema_iff]
      apply or_congr Iff.rfl
      constructor
      · rintro ⟨_, same, rest⟩
        cases same
        exact rest
      · exact fun rest => ⟨object, rfl, rest⟩
    rw [own]
    cases type : (object.lookup "type").bind soleType with
    | some scalar =>
        rcases Option.bind_eq_some_iff.mp type with ⟨types, found, sole⟩
        rcases mem_of_soleType sole with ⟨items, rfl, _, notNull⟩
        rw [lookup_normalized_of_replaced type, if_pos rfl, found]
        constructor
        · rintro ⟨_, same, null⟩
          rw [← Option.some.inj same, notNull] at null
          cases null
        · rintro (⟨_, same, null⟩ | ⟨none, _⟩)
          · rw [← Option.some.inj same] at null
            cases null
          · cases none
    | none =>
        by_cases merging : Exists fun replacement => Merges object replacement
        · rcases merging with ⟨replacement, merges⟩
          rcases Option.bind_eq_some_iff.mp merges.2 with ⟨anyOf, found, variant⟩
          rw [lookup_normalized_of_merges merges, if_neg (by decide), lookup_renameOneOf_type]
          cases own : object.lookup "type" with
          | some type => simp
          | none =>
              rw [Option.none_or, ← isNullSchema_iff, found]
              constructor
              · intro null
                rcases both_null variant null with ⟨first, second, rfl, firstNull, secondNull⟩
                exact Or.inr ⟨rfl, first, second, rfl, firstNull, secondNull⟩
              · rintro (⟨_, same, _⟩ | ⟨_, first, second, same, firstNull, secondNull⟩)
                · cases same
                · rw [Option.some.inj same, nonNullVariant_of_null firstNull] at variant
                  rw [← Option.some.inj variant]
                  exact secondNull
        · have stays : forall replacement, ¬ Merges object replacement := fun replacement merges => merging ⟨replacement, merges⟩
          rw [lookup_normalized_of_kept type stays, lookup_renameOneOf_type]
          constructor
          · exact Or.inl
          · rintro (null | ⟨_, first, second, found, firstNull, secondNull⟩)
            · exact null
            · rcases exists_object_of_isNullSchema secondNull with ⟨replacement, rfl⟩
              exact absurd ⟨type, by rw [found, Option.bind_some, nonNullVariant_of_null firstNull]⟩ (stays replacement)
  · have other : forall object, node ≠ .object object := fun object same => isObject ⟨object, same⟩
    rw [sanitizeSchemaNode_of_not_object other, BecomesNull]
    constructor
    · exact Or.inl
    · rintro (null | ⟨object, same, _⟩)
      · exact null
      · exact absurd same (other object)

theorem nullablePair_mapItems (anyOf : Json) :
    NullablePair (isNullSchema · = true) (mapItems sanitizeSchemaNode anyOf) ↔ NullablePair BecomesNull anyOf := by
  constructor
  · rintro ⟨first, second, same, pair⟩
    cases anyOf with
    | array items =>
        rw [mapItems, Json.array.injEq] at same
        rcases items with _ | ⟨one, _ | ⟨two, _ | ⟨three, rest⟩⟩⟩
        · cases same
        · cases same
        · simp only [List.map_cons, List.map_nil, List.cons.injEq, and_true] at same
          simp only [← same.1, ← same.2, isNullSchema_sanitizeSchemaNode, isSchema_sanitizeSchemaNode] at pair
          exact ⟨one, two, rfl, pair⟩
        · cases same
    | null => cases same
    | bool flag => cases same
    | number number => cases same
    | string text => cases same
    | object fields => cases same
  · rintro ⟨first, second, rfl, pair⟩
    refine ⟨sanitizeSchemaNode first, sanitizeSchemaNode second, rfl, ?_⟩
    simp only [isNullSchema_sanitizeSchemaNode, isSchema_sanitizeSchemaNode]
    exact pair

/-- A node that is rewritten to itself. -/
structure Stable (object : JsonObject) : Prop where
  type : (object.lookup "type").bind soleType = none
  anyOf : forall anyOf, object.lookup "anyOf" = some anyOf -> ¬ NullablePair (isNullSchema · = true) anyOf
  oneOf : (object.lookup "oneOf").isSome = true -> (object.lookup "anyOf").isSome = true

private theorem stable_sanitizedNode_iff (object : JsonObject) : Stable (sanitizedNode object) ↔
    (((normalized object).lookup "type").bind soleType = none ∧
      (forall anyOf, (normalized object).lookup "anyOf" = some anyOf -> ¬ NullablePair BecomesNull anyOf)) ∧
      (((normalized object).lookup "oneOf").isSome = true -> ((normalized object).lookup "anyOf").isSome = true) := by
  have pairs : (forall anyOf, (sanitizedNode object).lookup "anyOf" = some anyOf ->
      ¬ NullablePair (isNullSchema · = true) anyOf) ↔
        forall anyOf, (normalized object).lookup "anyOf" = some anyOf -> ¬ NullablePair BecomesNull anyOf := by
    rw [lookup_sanitizedNode_anyOf]
    constructor
    · intro none anyOf found
      rw [← nullablePair_mapItems]
      exact none _ (by rw [found, Option.map_some])
    · intro none anyOf found
      rcases Option.map_eq_some_iff.mp found with ⟨before, present, rfl⟩
      rw [nullablePair_mapItems]
      exact none before present
  have present : ((sanitizedNode object).lookup "anyOf").isSome = ((normalized object).lookup "anyOf").isSome := by
    rw [lookup_sanitizedNode_anyOf, Option.isSome_map]
  rw [← lookup_sanitizedNode_type, ← lookup_sanitizedNode_oneOf, ← pairs, ← present]
  exact ⟨fun stable => ⟨⟨stable.type, stable.anyOf⟩, stable.oneOf⟩, fun parts => ⟨parts.1.1, parts.1.2, parts.2⟩⟩

private theorem lookup_renameOneOf_oneOf (object : JsonObject) : ((renameOneOf object).lookup "oneOf").isSome = true ↔
    (object.lookup "anyOf").isSome = true ∧ (object.lookup "oneOf").isSome = true := by
  rw [lookup_renameOneOf, if_neg (by decide), if_pos rfl]
  split
  · rename_i present
    exact ⟨fun other => ⟨present, other⟩, And.right⟩
  · rename_i absent
    exact ⟨fun some => absurd some Bool.false_ne_true, fun both => absurd both.1 absent⟩

private theorem isSome_alternatives (both : (object.lookup "anyOf").isSome = true) :
    (alternatives object).isSome = true := by
  rw [alternatives, Option.isSome_or, both]
  rfl

theorem stable_iff : Stable (sanitizedNode object) ↔ SettledNode object := by
  rw [stable_sanitizedNode_iff]
  cases type : (object.lookup "type").bind soleType with
  | some scalar =>
      have oneOf : ((normalized object).lookup "oneOf").isSome = true ->
          ((normalized object).lookup "anyOf").isSome = true := by
        rw [lookup_normalized_of_replaced type, lookup_normalized_of_replaced type, if_neg (by decide),
          if_neg (by decide), lookup_renameOneOf_oneOf, lookup_renameOneOf_anyOf]
        exact fun both => isSome_alternatives both.1
      rw [and_iff_left oneOf, lookup_normalized_of_replaced type, lookup_normalized_of_replaced type, if_pos rfl,
        if_neg (by decide), lookup_renameOneOf_anyOf, Option.bind_some]
      constructor
      · exact fun parts => SettledNode.replaced type parts.1 parts.2
      · intro settled
        cases settled with
        | replaced same plain anyOf =>
            rw [type] at same
            rw [Option.some.inj same]
            exact ⟨plain, anyOf⟩
        | merged merges => cases type.symm.trans merges.1
        | kept none => cases type.symm.trans none
  | none =>
      by_cases merging : Exists fun replacement => Merges object replacement
      · rcases merging with ⟨replacement, merges⟩
        rw [lookup_normalized_of_merges merges, lookup_normalized_of_merges merges, lookup_normalized_of_merges merges,
          if_neg (by decide), if_pos rfl, if_neg (by decide), Option.isSome_or, Bool.or_eq_true,
          lookup_renameOneOf_oneOf, lookup_renameOneOf_type]
        have types : ((object.lookup "type").or (replacement.lookup "type")).bind soleType = none ↔
            (object.lookup "type" = none -> (replacement.lookup "type").bind soleType = none) := by
          cases own : object.lookup "type" with
          | none => simp
          | some other =>
              rw [own] at type
              simpa using type
        rw [types]
        constructor
        · exact fun parts => SettledNode.merged merges parts.1.1 parts.1.2 parts.2
        · intro settled
          cases settled with
          | replaced same => cases type.symm.trans same
          | @merged other merges' brings anyOf oneOf =>
              have same : other = replacement := by simpa [merges.2] using merges'.2.symm
              subst same
              exact ⟨⟨brings, anyOf⟩, oneOf⟩
          | kept none stays => exact absurd merges (stays _)
      · have stays : forall replacement, ¬ Merges object replacement := fun replacement merges => merging ⟨replacement, merges⟩
        have oneOf : ((normalized object).lookup "oneOf").isSome = true ->
            ((normalized object).lookup "anyOf").isSome = true := by
          rw [lookup_normalized_of_kept type stays, lookup_normalized_of_kept type stays, lookup_renameOneOf_oneOf,
            lookup_renameOneOf_anyOf]
          exact fun both => isSome_alternatives both.1
        rw [and_iff_left oneOf, lookup_normalized_of_kept type stays, lookup_normalized_of_kept type stays,
          lookup_renameOneOf_anyOf, lookup_renameOneOf_type, and_iff_right type]
        constructor
        · exact fun anyOf => SettledNode.kept type stays anyOf
        · intro settled
          cases settled with
          | replaced same => cases type.symm.trans same
          | merged merges => exact absurd merges (stays _)
          | kept none stays anyOf => exact anyOf

/-! ## Sanitizing again -/

theorem lookup_rewriteNode_of_stable (stable : Stable object)
    (typed : (object.lookup "type").bind Json.asStr = some "object" ->
      (object.lookup "properties").isSome = true ∧ (object.lookup "required").isSome = true) (key : String) :
    (rewriteNode object).lookup key = object.lookup key := by
  have named : renameOneOf object = object := by
    unfold renameOneOf
    split
    · rfl
    · rename_i noAnyOf
      split
      · rename_i found
        exact absurd (stable.oneOf (Option.isSome_of_eq_some found)) noAnyOf
      · rfl
  have normal : forall key, (normalizeNullable object).lookup key = object.lookup key := by
    intro key
    rw [normalizeNullable, stable.type]
    apply lookup_unwrapAnyOf
    intro replacement variant
    rcases Option.bind_eq_some_iff.mp variant with ⟨anyOf, found, chosen⟩
    apply stable.anyOf anyOf found
    unfold nonNullVariant at chosen
    split at chosen
    · rename_i first second
      split at chosen
      · rename_i null
        exact ⟨first, second, rfl, Or.inl ⟨null, by rw [Option.some.inj chosen]; rfl⟩⟩
      · split at chosen
        · rename_i null
          exact ⟨first, second, rfl, Or.inr ⟨null, by rw [Option.some.inj chosen]; rfl⟩⟩
        · cases chosen
    · cases chosen
  rw [rewriteNode, named, ensureObjectMembers, normal]
  split
  · rename_i isObject
    rcases typed isObject with ⟨properties, required⟩
    rw [JsonObject.lookup_orInsert, JsonObject.lookup_orInsert, normal]
    by_cases isProperties : key = "properties"
    · rcases Option.isSome_iff_exists.mp properties with ⟨value, found⟩
      rw [isProperties, found, Option.some_or, Option.some_or]
    · by_cases isRequired : key = "required"
      · rcases Option.isSome_iff_exists.mp required with ⟨value, found⟩
        rw [isRequired, found, Option.some_or, Option.some_or]
      · rw [if_neg isProperties, if_neg isRequired, Option.or_none, Option.or_none]
  · exact normal key

theorem typed_sanitizedNode (object : JsonObject) :
    ((sanitizedNode object).lookup "type").bind Json.asStr = some "object" ->
      ((sanitizedNode object).lookup "properties").isSome = true ∧
        ((sanitizedNode object).lookup "required").isSome = true := by
  rw [lookup_sanitizedNode_type, sanitizedNode, lookup_mapChildren, lookup_mapChildren, Option.isSome_map,
    Option.isSome_map, rewriteNode, ← normalized, ensureObjectMembers]
  intro isObject
  rw [if_pos isObject]
  simp only [JsonObject.lookup_orInsert, Option.isSome_or]
  simp

theorem not_agrees_of_not_stable (clean : CleanNode object) (unstable : ¬ Stable object) :
    ¬ Json.Agrees (sanitizeSchemaNode (.object object)) (.object object) := by
  intro agrees
  rw [sanitizeSchemaNode_object, ← sanitizedNode] at agrees
  cases type : (object.lookup "type").bind soleType with
  | some scalar =>
      rcases Option.bind_eq_some_iff.mp type with ⟨whole, found, sole⟩
      rcases soleType_eq_some_iff.mp sole with ⟨types, rfl, single⟩
      rcases agrees.get_some found with ⟨other, same, closer⟩
      have replaced : (sanitizedNode object).lookup "type" = some scalar := by
        rw [lookup_sanitizedNode_type, lookup_normalized_of_replaced type, if_pos rfl]
      rw [Json.get, replaced] at same
      rw [← Option.some.inj same] at closer
      have noNull : types.filter (fun type => !isNullType type) = types := by
        apply List.filter_eq_self.mpr
        intro member present
        rw [Bool.not_eq_true', Bool.eq_false_iff]
        exact fun null => clean.type _ found ⟨types, rfl, by rw [single]; rfl, member, present, null⟩
      rw [noNull] at single
      rw [single] at closer
      exact (Json.itemAt 0).not_agrees (by rfl) closer
  | none =>
      have named : (object.lookup "oneOf").isSome = true ∧ object.lookup "anyOf" = none := by
        apply Classical.byContradiction
        intro other
        apply unstable
        refine ⟨type, clean.anyOf, fun present => ?_⟩
        rw [Option.isSome_iff_ne_none]
        exact fun absent => other ⟨present, absent⟩
      rcases Option.isSome_iff_exists.mp named.1 with ⟨oneOf, found⟩
      rcases agrees.get_some found with ⟨left, same, closer⟩
      rw [Json.get, lookup_sanitizedNode_oneOf] at same
      have renamed : (renameOneOf object).lookup "oneOf" = none := by
        rw [lookup_renameOneOf, if_neg (by decide), if_pos rfl, named.2]
        rfl
      by_cases merging : Exists fun replacement => Merges object replacement
      · rcases merging with ⟨replacement, merges⟩
        rw [lookup_normalized_of_merges merges, if_neg (by decide), renamed, Option.none_or] at same
        have variant := merges.2
        rw [alternatives, named.2, found, Option.none_or, Option.bind_some] at variant
        rcases mem_of_nonNullVariant variant with ⟨items, rfl, member⟩
        rcases List.getElem?_of_mem member with ⟨index, item⟩
        have inside : ((Json.itemAt index).andThen (Json.memberAt "oneOf")).into (.array items) = some left := by
          change (items[index]?).bind (fun value => value.get "oneOf") = some left
          rw [item, Option.bind_some]
          exact same
        exact Json.Descent.not_agrees _ inside closer
      · rw [lookup_normalized_of_kept type fun replacement merges => merging ⟨replacement, merges⟩, renamed] at same
        cases same

theorem agrees_mapValues_iff (change : Json -> Json) (value : Json) :
    Json.Agrees (mapValues change (mapValues change value)) (mapValues change value) ↔
      forall (fields : JsonObject) (name : String) (child : Json), value = .object fields -> fields.lookup name = some child ->
        Json.Agrees (change (change child)) (change child) := by
  by_cases isObject : Exists fun fields => value = .object fields
  · rcases isObject with ⟨fields, rfl⟩
    have twice : forall name, (List.map (fun member : String × Json => (member.1, change member.2))
        (List.map (fun member : String × Json => (member.1, change member.2)) fields)).lookup name =
          (fields.lookup name).map fun child => change (change child) := by
      intro name
      rw [lookup_mapMembers _ fun _ => change, lookup_mapMembers _ fun _ => change, Option.map_map]
      rfl
    rw [mapValues, mapValues, Json.Agrees.object_map_iff twice (lookup_mapMembers fields fun _ => change)]
    constructor
    · rintro all _ name child same found
      cases same
      exact all name child found
    · exact fun all name child found => all fields name child rfl found
  · have unchanged : mapValues change value = value := by
      cases value with
      | object fields => exact absurd ⟨fields, rfl⟩ isObject
      | null => rfl
      | bool flag => rfl
      | number number => rfl
      | string text => rfl
      | array items => rfl
    rw [unchanged, unchanged]
    exact ⟨fun _ fields _ _ same => absurd ⟨fields, same⟩ isObject, fun _ => Json.Agrees.refl value⟩

theorem agrees_mapItems_iff (change : Json -> Json) (value : Json) :
    Json.Agrees (mapItems change (mapItems change value)) (mapItems change value) ↔
      forall (items : List Json) (index : Nat) (child : Json), value = .array items -> items[index]? = some child ->
        Json.Agrees (change (change child)) (change child) := by
  by_cases isArray : Exists fun items => value = .array items
  · rcases isArray with ⟨items, rfl⟩
    rw [mapItems, mapItems, List.map_map, Json.Agrees.array_map_iff]
    constructor
    · rintro all _ index child same found
      cases same
      exact all index child found
    · exact fun all index child found => all items index child rfl found
  · have unchanged : mapItems change value = value := by
      cases value with
      | array items => exact absurd ⟨items, rfl⟩ isArray
      | null => rfl
      | bool flag => rfl
      | number number => rfl
      | string text => rfl
      | object fields => rfl
    rw [unchanged, unchanged]
    exact ⟨fun _ items _ _ same => absurd ⟨items, same⟩ isArray, fun _ => Json.Agrees.refl value⟩

theorem agrees_changeChild_iff {key : String} {value : Json} :
    Json.Agrees (changeChild sanitizeSchemaNode key (changeChild sanitizeSchemaNode key value))
        (changeChild sanitizeSchemaNode key value) ↔
      forall child, ChildAt key value child ->
        Json.Agrees (sanitizeSchemaNode (sanitizeSchemaNode child)) (sanitizeSchemaNode child) := by
  by_cases named : key ∈ namedKeys
  · rw [changeChild_named _ named, agrees_mapValues_iff]
    simp only [childAt_named named]
    exact ⟨fun all child ⟨fields, name, same, found⟩ => all fields name child same found,
      fun all fields name child same found => all child ⟨fields, name, same, found⟩⟩
  · by_cases listed : key ∈ listedKeys
    · rw [changeChild_listed _ listed, agrees_mapItems_iff]
      simp only [childAt_listed listed]
      exact ⟨fun all child ⟨items, index, same, found⟩ => all items index child same found,
        fun all items index child same found => all child ⟨items, index, same, found⟩⟩
    · by_cases single : key ∈ singleKeys
      · rw [changeChild_single _ single]
        simp only [childAt_single single]
        by_cases isObject : Exists fun fields => value = .object fields
        · rcases isObject with ⟨fields, rfl⟩
          have once : mapObject sanitizeSchemaNode (.object fields) = sanitizeSchemaNode (.object fields) := rfl
          have twice : mapObject sanitizeSchemaNode (sanitizeSchemaNode (.object fields)) =
              sanitizeSchemaNode (sanitizeSchemaNode (.object fields)) := by
            rw [sanitizeSchemaNode_object]
            rfl
          rw [once, twice]
          exact ⟨fun agrees child both => both.2 ▸ agrees, fun all => all _ ⟨⟨fields, rfl⟩, rfl⟩⟩
        · have unchanged : mapObject sanitizeSchemaNode value = value := by
            cases value with
            | object fields => exact absurd ⟨fields, rfl⟩ isObject
            | null => rfl
            | bool flag => rfl
            | number number => rfl
            | string text => rfl
            | array items => rfl
          rw [unchanged, unchanged]
          exact ⟨fun _ child both => absurd both.1 isObject, fun _ => Json.Agrees.refl value⟩
      · rw [changeChild_other _ ⟨named, listed, single⟩]
        exact ⟨fun _ child inside => absurd inside.known (by simp [named, listed, single]), fun _ => Json.Agrees.refl value⟩

theorem agrees_sanitizedNode_iff (stable : Stable (sanitizedNode object)) :
    Json.Agrees (sanitizeSchemaNode (.object (sanitizedNode object))) (.object (sanitizedNode object)) ↔
      forall child, Visits object child ->
        Json.Agrees (sanitizeSchemaNode (sanitizeSchemaNode child)) (sanitizeSchemaNode child) := by
  have twice : forall key, (mapChildren sanitizeSchemaNode (rewriteNode (sanitizedNode object))).lookup key =
      ((rewriteNode object).lookup key).map fun value =>
        changeChild sanitizeSchemaNode key (changeChild sanitizeSchemaNode key value) := by
    intro key
    rw [lookup_mapChildren, lookup_rewriteNode_of_stable stable (typed_sanitizedNode object), sanitizedNode,
      lookup_mapChildren, Option.map_map]
    rfl
  have once : forall key, (sanitizedNode object).lookup key =
      ((rewriteNode object).lookup key).map (changeChild sanitizeSchemaNode key) :=
    fun key => lookup_mapChildren _ _ key
  rw [sanitizeSchemaNode_object, Json.Agrees.object_map_iff twice once]
  simp only [agrees_changeChild_iff, visits_iff]
  exact ⟨fun all child ⟨key, value, found, inside⟩ => all key value found child inside,
    fun all key value found child inside => all child ⟨key, value, found, inside⟩⟩

/-! ## All nodes -/

theorem clean_object_iff : Clean (.object object) ↔ CleanNode object ∧ forall child, Child object child -> Clean child := by
  constructor
  · intro clean
    refine ⟨clean object Relation.ReflTransGen.refl, fun child inside below reached => clean below ?_⟩
    exact Relation.ReflTransGen.head ⟨object, rfl, inside⟩ reached
  · rintro ⟨here, children⟩ below reached
    rcases Relation.ReflTransGen.cases_head reached with same | ⟨child, ⟨_, same, inside⟩, rest⟩
    · cases same
      exact here
    · cases same
      exact children child inside below rest

theorem settled_object_iff : Settled (.object object) ↔
    SettledNode object ∧ forall child, Visits object child -> Settled child := by
  constructor
  · intro settled
    refine ⟨settled object Relation.ReflTransGen.refl, fun child inside below reached => settled below ?_⟩
    exact Relation.ReflTransGen.head ⟨object, rfl, inside⟩ reached
  · rintro ⟨here, children⟩ below reached
    rcases Relation.ReflTransGen.cases_head reached with same | ⟨child, ⟨_, same, inside⟩, rest⟩
    · cases same
      exact here
    · cases same
      exact children child inside below rest

theorem clean_of_not_object (other : forall object, node ≠ .object object) : Clean node := by
  intro object reached
  rcases Relation.ReflTransGen.cases_head reached with same | ⟨child, ⟨above, same, _⟩, _⟩
  · exact absurd same (other object)
  · exact absurd same (other above)

theorem settled_of_not_object (other : forall object, node ≠ .object object) : Settled node := by
  intro object reached
  rcases Relation.ReflTransGen.cases_head reached with same | ⟨child, ⟨above, same, _⟩, _⟩
  · exact absurd same (other object)
  · exact absurd same (other above)

theorem Stable.clean (stable : Stable object) : CleanNode object := by
  refine ⟨fun type found nullable => ?_, stable.anyOf⟩
  rcases nullable with ⟨types, rfl, one, _⟩
  rcases List.length_eq_one_iff.mp one with ⟨scalar, single⟩
  have sole := stable.type
  rw [found, Option.bind_some, soleType_eq_some_iff.mpr ⟨types, rfl, single⟩] at sole
  cases sole

/-- What is visited below a node is nested less deeply. -/
theorem Visits.depth_lt {child : Json} (visits : Visits object child) : child.depth < (Json.object object).depth := by
  rcases visits_iff.mp visits with ⟨key, value, found, inside⟩
  have shallow : Shallow (Json.object object).depth object := fun member present => Json.depth_lt_object present
  have small := shallow.rewriteNode.lookup found
  cases inside with
  | named known present => exact Nat.lt_trans (Json.depth_lt_object (Json.mem_of_lookup present)) small
  | listed known present => exact Nat.lt_trans (Json.depth_lt_array (List.mem_of_getElem? present)) small
  | single known => exact small

theorem sanitizeSchemaNode_settles_iff (node : Json) :
    (Json.Agrees (sanitizeSchemaNode (sanitizeSchemaNode node)) (sanitizeSchemaNode node) ∧
      Clean (sanitizeSchemaNode node)) ↔ Settled node := by
  have all : forall (bound : Nat) (node : Json), node.depth < bound ->
      ((Json.Agrees (sanitizeSchemaNode (sanitizeSchemaNode node)) (sanitizeSchemaNode node) ∧
        Clean (sanitizeSchemaNode node)) ↔ Settled node) := by
    intro bound
    induction bound with
    | zero => exact fun node small => absurd small (Nat.not_lt_zero _)
    | succ bound ih =>
        intro node small
        by_cases isObject : Exists fun object => node = .object object
        · rcases isObject with ⟨object, rfl⟩
          have below : forall child, Visits object child -> child.depth < bound :=
            fun child visits => Nat.lt_of_lt_of_le visits.depth_lt (Nat.le_of_lt_succ small)
          have children : (forall child, Child (sanitizedNode object) child -> Clean child) ↔
              forall child, Visits object child -> Clean (sanitizeSchemaNode child) := by
            constructor
            · exact fun all child visits => all _ (child_mapChildren.mpr ⟨child, visits_iff.mp visits, rfl⟩)
            · intro all child inside
              rcases child_mapChildren.mp inside with ⟨before, present, rfl⟩
              exact all before (visits_iff.mpr present)
          rw [sanitizeSchemaNode_object object, ← sanitizedNode, clean_object_iff, settled_object_iff, children,
            ← stable_iff]
          constructor
          · rintro ⟨agrees, clean, cleanChildren⟩
            have stable : Stable (sanitizedNode object) := by
              apply Classical.byContradiction
              exact fun unstable => not_agrees_of_not_stable clean unstable agrees
            refine ⟨stable, fun child visits => ?_⟩
            exact (ih child (below child visits)).mp
              ⟨(agrees_sanitizedNode_iff stable).mp agrees child visits, cleanChildren child visits⟩
          · rintro ⟨stable, settled⟩
            have each : forall child, Visits object child ->
                Json.Agrees (sanitizeSchemaNode (sanitizeSchemaNode child)) (sanitizeSchemaNode child) ∧
                  Clean (sanitizeSchemaNode child) :=
              fun child visits => (ih child (below child visits)).mpr (settled child visits)
            exact ⟨(agrees_sanitizedNode_iff stable).mpr fun child visits => (each child visits).1, stable.clean,
              fun child visits => (each child visits).2⟩
        · have other : forall object, node ≠ .object object := fun object same => isObject ⟨object, same⟩
          rw [sanitizeSchemaNode_of_not_object other, sanitizeSchemaNode_of_not_object other]
          exact ⟨fun _ => settled_of_not_object other, fun _ => ⟨Json.Agrees.refl node, clean_of_not_object other⟩⟩
  exact all (node.depth + 1) node (Nat.lt_succ_self _)

end Settling

/-! ## Tools -/

/-- The schema of the parameters of a tool. -/
def toolParameters (tool : Json) : Option Json :=
  (tool.get "function").bind fun function => function.get "parameters"

section Tools

variable {object : JsonObject} {tool : Json} {key : String}

theorem get_changeMember (key : String) (change : Json -> Json) (value : Json) (other : String) :
    (changeMember key change value).get other =
      if other = key then (value.get other).map change else value.get other := by
  cases value with
  | object fields => exact JsonObject.lookup_modify _ _ _ _
  | null => exact (ite_self none).symm
  | bool flag => exact (ite_self none).symm
  | number number => exact (ite_self none).symm
  | string text => exact (ite_self none).symm
  | array items => exact (ite_self none).symm

theorem agrees_changeMember_iff (key : String) (change : Json -> Json) (value : Json) :
    Json.Agrees (changeMember key change (changeMember key change value)) (changeMember key change value) ↔
      forall child, value.get key = some child -> Json.Agrees (change (change child)) (change child) := by
  by_cases isObject : Exists fun fields => value = .object fields
  · rcases isObject with ⟨fields, rfl⟩
    have once : forall name, (JsonObject.modify fields key change).lookup name =
        (fields.lookup name).map fun value => if name = key then change value else value := by
      intro name
      rw [JsonObject.lookup_modify]
      split
      · rfl
      · exact Option.map_id'.symm
    have twice : forall name, (JsonObject.modify (JsonObject.modify fields key change) key change).lookup name =
        (fields.lookup name).map fun value => if name = key then change (change value) else value := by
      intro name
      rw [JsonObject.lookup_modify, once]
      split
      · rw [Option.map_map]
        rfl
      · rfl
    rw [changeMember, changeMember, Json.Agrees.object_map_iff twice once]
    constructor
    · intro all child found
      have here := all key child found
      rw [if_pos rfl, if_pos rfl] at here
      exact here
    · intro all name value found
      split
      · rename_i same
        exact all value (same ▸ found)
      · exact Json.Agrees.refl value
  · have unchanged : changeMember key change value = value := by
      cases value with
      | object fields => exact absurd ⟨fields, rfl⟩ isObject
      | null => rfl
      | bool flag => rfl
      | number number => rfl
      | string text => rfl
      | array items => rfl
    have nothing : value.get key = none := by
      cases value with
      | object fields => exact absurd ⟨fields, rfl⟩ isObject
      | null => rfl
      | bool flag => rfl
      | number number => rfl
      | string text => rfl
      | array items => rfl
    rw [unchanged, unchanged, nothing]
    exact ⟨fun _ child found => absurd found (Option.some_ne_none _).symm, fun _ => Json.Agrees.refl value⟩

theorem toolParameters_validateToolSchema (tool : Json) :
    toolParameters (validateToolSchema tool) = (toolParameters tool).map (mapObject ensureValidJsonSchema) := by
  rw [toolParameters, validateToolSchema, get_changeMember, if_pos rfl, toolParameters]
  cases tool.get "function" with
  | none => rfl
  | some function => exact (get_changeMember _ _ _ _).trans (if_pos rfl)

theorem lookup_withType (object : JsonObject) : ((withType object).lookup "type").isSome = true := by
  unfold withType
  split
  · assumption
  · rw [JsonObject.lookup_insert, if_pos rfl]
    rfl

theorem withType_sanitizedNode (typed : (object.lookup "type").isSome = true) :
    withType (sanitizedNode object) = sanitizedNode object := by
  apply if_pos
  rw [lookup_sanitizedNode_type]
  cases type : (object.lookup "type").bind soleType with
  | some scalar =>
      rw [lookup_normalized_of_replaced type, if_pos rfl]
      rfl
  | none =>
      by_cases merging : Exists fun replacement => Merges object replacement
      · rcases merging with ⟨replacement, merges⟩
        rw [lookup_normalized_of_merges merges, if_neg (by decide), lookup_renameOneOf_type, Option.isSome_or, typed]
        rfl
      · rw [lookup_normalized_of_kept type fun replacement merges => merging ⟨replacement, merges⟩,
          lookup_renameOneOf_type]
        exact typed

theorem mapObject_ensureValidJsonSchema (object : JsonObject) :
    mapObject ensureValidJsonSchema (.object object) = sanitizeSchemaNode (.object (withType object)) := rfl

theorem mapObject_ensureValidJsonSchema_twice (object : JsonObject) :
    mapObject ensureValidJsonSchema (mapObject ensureValidJsonSchema (.object object)) =
      sanitizeSchemaNode (sanitizeSchemaNode (.object (withType object))) := by
  rw [mapObject_ensureValidJsonSchema, sanitizeSchemaNode_object, ← sanitizedNode, mapObject_ensureValidJsonSchema,
    withType_sanitizedNode (lookup_withType object)]

/-- The schemas of tools are settled when they are validated once. -/
def SettledTools (tools : List Json) : Prop :=
  Json.Agrees (.array (validateToolSchemas (validateToolSchemas tools))) (.array (validateToolSchemas tools)) ∧
    forall tool, tool ∈ validateToolSchemas tools -> forall schema, toolParameters tool = some schema -> Clean schema

private theorem agrees_validateToolSchema_iff (tool : Json) :
    Json.Agrees (validateToolSchema (validateToolSchema tool)) (validateToolSchema tool) ↔
      forall schema, toolParameters tool = some schema ->
        Json.Agrees (mapObject ensureValidJsonSchema (mapObject ensureValidJsonSchema schema))
          (mapObject ensureValidJsonSchema schema) := by
  unfold validateToolSchema toolParameters
  rw [agrees_changeMember_iff]
  constructor
  · intro all schema found
    rcases Option.bind_eq_some_iff.mp found with ⟨function, here, inside⟩
    exact (agrees_changeMember_iff _ _ _).mp (all function here) schema inside
  · intro all function here
    exact (agrees_changeMember_iff _ _ _).mpr fun schema inside => all schema (by rw [here, Option.bind_some, inside])

/-- Validating the schemas of tools removes all nullable types, and doing it again changes nothing, exactly when one
rewriting is enough for each node of a schema that is visited. -/
theorem validateToolSchemas_settled_iff (tools : List Json) : SettledTools tools ↔
    forall tool, tool ∈ tools -> forall object, toolParameters tool = some (.object object) ->
      Settled (.object (withType object)) := by
  have each : SettledTools tools ↔ forall tool, tool ∈ tools -> forall schema, toolParameters tool = some schema ->
      Json.Agrees (mapObject ensureValidJsonSchema (mapObject ensureValidJsonSchema schema))
        (mapObject ensureValidJsonSchema schema) ∧ Clean (mapObject ensureValidJsonSchema schema) := by
    rw [SettledTools, validateToolSchemas, validateToolSchemas, List.map_map, Json.Agrees.array_map_iff]
    constructor
    · rintro ⟨agrees, clean⟩ tool member schema found
      rcases List.getElem?_of_mem member with ⟨index, item⟩
      refine ⟨(agrees_validateToolSchema_iff tool).mp (agrees index tool item) schema found, ?_⟩
      apply clean _ (List.mem_map_of_mem member)
      rw [toolParameters_validateToolSchema, found, Option.map_some]
    · intro all
      constructor
      · intro index tool item
        exact (agrees_validateToolSchema_iff tool).mpr fun schema found =>
          (all tool (List.mem_of_getElem? item) schema found).1
      · intro tool member schema found
        rcases List.mem_map.mp member with ⟨before, present, rfl⟩
        rw [toolParameters_validateToolSchema] at found
        rcases Option.map_eq_some_iff.mp found with ⟨original, here, rfl⟩
        exact (all before present original here).2
  rw [each]
  constructor
  · intro all tool member object found
    rw [← sanitizeSchemaNode_settles_iff, ← mapObject_ensureValidJsonSchema_twice]
    exact all tool member _ found
  · intro all tool member schema found
    by_cases isObject : Exists fun object => schema = .object object
    · rcases isObject with ⟨object, rfl⟩
      rw [mapObject_ensureValidJsonSchema_twice, mapObject_ensureValidJsonSchema, sanitizeSchemaNode_settles_iff]
      exact all tool member object found
    · have other : forall object, schema ≠ .object object := fun object same => isObject ⟨object, same⟩
      have unchanged : mapObject ensureValidJsonSchema schema = schema := by
        cases schema with
        | object fields => exact absurd rfl (other fields)
        | null => rfl
        | bool flag => rfl
        | number number => rfl
        | string text => rfl
        | array items => rfl
      rw [unchanged, unchanged]
      exact ⟨Json.Agrees.refl schema, clean_of_not_object other⟩

/-- A tool with one parameter. -/
def toolWithParameter (type : Json) (others : JsonObject) : Json :=
  .object [("function", .object [("parameters", .object ([("type", .string "object"),
    ("properties", .object [("note", type)])] ++ others))])]

/-- A tool whose parameter is null, or a text or null. -/
def nestedTool : Json :=
  toolWithParameter (.object [("anyOf", .array [.object [("type", .array [.string "string", .string "null"])],
    .object [("type", .string "null")]])]) []

/-- Where the type of the parameter is. -/
def noteType : Json.Descent :=
  ((((Json.memberAt "function").andThen (Json.memberAt "parameters")).andThen (Json.memberAt "properties")).andThen
    (Json.memberAt "note")).andThen (Json.memberAt "type")

/-- The nullable type of a variant survives the merge, and only the second validation replaces it. -/
theorem validateToolSchemas_nested :
    ¬ Json.Agrees (.array (validateToolSchemas (validateToolSchemas [nestedTool])))
        (.array (validateToolSchemas [nestedTool])) ∧
      Exists fun schema => toolParameters (validateToolSchema nestedTool) = some schema ∧ ¬ Clean schema := by
  have once : validateToolSchema nestedTool = toolWithParameter
      (.object [("type", .array [.string "string", .string "null"])]) [("required", .array [])] := by
    decide +kernel
  have twice : validateToolSchema (validateToolSchema nestedTool) = toolWithParameter
      (.object [("type", .string "string")]) [("required", .array [])] := by
    decide +kernel
  constructor
  · rw [show validateToolSchemas (validateToolSchemas [nestedTool]) = [validateToolSchema (validateToolSchema nestedTool)]
      from rfl, show validateToolSchemas [nestedTool] = [validateToolSchema nestedTool] from rfl, twice, once]
    intro agrees
    rcases agrees.item_some rfl (List.getElem?_cons_zero) with ⟨_, tool, same, item, tools⟩
    cases same
    cases item
    rcases noteType.respects tools rfl with ⟨type, found, closer⟩
    cases found
    cases closer
  · refine ⟨_, by rw [once]; rfl, fun clean => ?_⟩
    have note := clean [("type", .array [.string "string", .string "null"])] (Relation.ReflTransGen.single
      ⟨_, rfl, "properties", _, rfl, @ChildAt.named "properties" _ "note" _ (by decide) rfl⟩)
    exact note.type _ rfl ⟨_, rfl, by decide, .string "null", by simp, rfl⟩

end Tools
end ToolSchemas
end AIBuddy
