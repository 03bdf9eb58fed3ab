import AIBuddy.Support.Json

namespace AIBuddy
namespace Json

/-!
# Agreement of values

Two values agree when their arrays have the same items and their objects the same members,
whatever the order of the members.  Nothing that sits inside of a value agrees with the
value itself.
-/

/-! ## Depth -/

mutual

/-- How deeply values are nested in a value. -/
def depth : Json -> Nat
  | .array items => depthItems items
  | .object fields => depthFields fields
  | _ => 0

def depthItems : List Json -> Nat
  | [] => 0
  | item :: rest => max (depth item + 1) (depthItems rest)

def depthFields : List (String × Json) -> Nat
  | [] => 0
  | (_, value) :: rest => max (depth value + 1) (depthFields rest)

end

theorem depth_lt_array {item : Json} {items : List Json} (member : item ∈ items) :
    item.depth < (Json.array items).depth := by
  rw [depth]
  induction items with
  | nil => cases member
  | cons first rest ih =>
      rw [depthItems]
      rcases List.mem_cons.mp member with rfl | later
      · exact Nat.le_max_left _ _
      · exact Nat.lt_of_lt_of_le (ih later) (Nat.le_max_right _ _)

theorem depth_lt_object {fields : JsonObject} {member : String × Json} (present : member ∈ fields) :
    member.2.depth < (Json.object fields).depth := by
  rw [depth]
  induction fields with
  | nil => cases present
  | cons first rest ih =>
      rcases first with ⟨key, head⟩
      rw [depthFields]
      rcases List.mem_cons.mp present with rfl | later
      · exact Nat.le_max_left _ _
      · exact Nat.lt_of_lt_of_le (ih later) (Nat.le_max_right _ _)

theorem mem_of_lookup {fields : JsonObject} {key : String} {value : Json} (found : fields.lookup key = some value) :
    (key, value) ∈ fields := by
  rcases List.lookup_eq_some_iff.mp found with ⟨before, after, rfl, _⟩
  exact List.mem_append_right _ List.mem_cons_self

/-! ## Agreement -/

/-- Equality of values as far as lookups can tell. -/
inductive Agrees : Json -> Json -> Prop where
  | refl (value : Json) : Agrees value value
  | array {left right : List Json} (length : left.length = right.length)
      (items : forall (index : Nat) (first second : Json), left[index]? = some first -> right[index]? = some second ->
        Agrees first second) : Agrees (.array left) (.array right)
  | object {left right : JsonObject} (keys : forall key, (left.lookup key).isSome = (right.lookup key).isSome)
      (values : forall (key : String) (first second : Json), left.lookup key = some first ->
        right.lookup key = some second -> Agrees first second) : Agrees (.object left) (.object right)

namespace Agrees

variable {left right : Json}

theorem get_some (agrees : Agrees left right) {key : String} {value : Json} (found : right.get key = some value) :
    Exists fun other => left.get key = some other ∧ Agrees other value := by
  cases agrees with
  | refl => exact ⟨value, found, Agrees.refl value⟩
  | array length items => cases found
  | @object lefts rights keys values =>
      have present : (lefts.lookup key).isSome = true := by
        rw [keys key]
        exact Option.isSome_of_eq_some found
      rcases Option.isSome_iff_exists.mp present with ⟨other, same⟩
      exact ⟨other, same, values key other value same found⟩

theorem object_map_iff {fields : JsonObject} {first second : JsonObject} {change other : String -> Json -> Json}
    (left : forall key, first.lookup key = (fields.lookup key).map (change key))
    (right : forall key, second.lookup key = (fields.lookup key).map (other key)) :
    Agrees (.object first) (.object second) ↔
      forall key value, fields.lookup key = some value -> Agrees (change key value) (other key value) := by
  constructor
  · intro agrees key value found
    rcases agrees.get_some ((right key).trans (by rw [found, Option.map_some])) with ⟨result, same, closer⟩
    have changed := (left key).symm.trans same
    rw [found, Option.map_some] at changed
    rw [Option.some.inj changed]
    exact closer
  · intro all
    apply Agrees.object
    · intro key
      rw [left, right, Option.isSome_map, Option.isSome_map]
    · intro key one two foundOne foundTwo
      rw [left] at foundOne
      rw [right] at foundTwo
      rcases Option.map_eq_some_iff.mp foundOne with ⟨value, found, rfl⟩
      rw [found, Option.map_some] at foundTwo
      rw [← Option.some.inj foundTwo]
      exact all key value found

theorem item_some (agrees : Agrees left right) {items : List Json} (array : right.asArray = some items) {index : Nat}
    {value : Json} (found : items[index]? = some value) :
    Exists fun others => Exists fun other => left.asArray = some others ∧ others[index]? = some other ∧
      Agrees other value := by
  cases agrees with
  | refl => exact ⟨items, value, array, found, Agrees.refl value⟩
  | @array lefts rights length agree =>
      cases array
      rcases List.getElem?_eq_some_iff.mp found with ⟨bound, _⟩
      have present : lefts[index]? = some (lefts[index]) := List.getElem?_eq_getElem (length ▸ bound)
      exact ⟨lefts, _, rfl, present, agree index _ _ present found⟩
  | object keys values => cases array

theorem array_map_iff {items : List Json} {change other : Json -> Json} :
    Agrees (.array (items.map change)) (.array (items.map other)) ↔
      forall (index : Nat) (item : Json), items[index]? = some item -> Agrees (change item) (other item) := by
  constructor
  · intro agrees index item found
    rcases agrees.item_some rfl (by rw [List.getElem?_map, found, Option.map_some]) with ⟨others, one, same, there, closer⟩
    cases same
    rw [List.getElem?_map, found, Option.map_some] at there
    rw [Option.some.inj there]
    exact closer
  · intro all
    apply Agrees.array
    · rw [List.length_map, List.length_map]
    · intro index one two foundOne foundTwo
      rw [List.getElem?_map] at foundOne foundTwo
      rcases Option.map_eq_some_iff.mp foundOne with ⟨item, found, rfl⟩
      rw [found, Option.map_some] at foundTwo
      rw [← Option.some.inj foundTwo]
      exact all index item found

end Agrees

/-- A way into a value that leads to the same place of values that agree. -/
structure Descent where
  into : Json -> Option Json
  respects : forall {left right value : Json}, Agrees left right -> into right = some value ->
    Exists fun other => into left = some other ∧ Agrees other value
  deeper : forall {whole value : Json}, into whole = some value -> value.depth < whole.depth

theorem Descent.not_agrees (descent : Descent) {whole value : Json} (inside : descent.into whole = some value) :
    ¬ Agrees value whole := by
  have all : forall (bound : Nat) (whole value : Json), value.depth ≤ bound -> descent.into whole = some value ->
      ¬ Agrees value whole := by
    intro bound
    induction bound with
    | zero =>
        intro whole value small inside agrees
        rcases descent.respects agrees inside with ⟨other, deeper, _⟩
        have := descent.deeper deeper
        omega
    | succ bound ih =>
        intro whole value small inside agrees
        rcases descent.respects agrees inside with ⟨other, deeper, closer⟩
        have := descent.deeper deeper
        exact ih value other (by omega) deeper closer
  exact all value.depth whole value (Nat.le_refl _) inside

/-- An item of an array. -/
def itemAt (index : Nat) : Descent where
  into value := value.asArray.bind fun items => items[index]?
  respects := by
    intro left right value agrees found
    rcases Option.bind_eq_some_iff.mp found with ⟨items, array, item⟩
    rcases agrees.item_some array item with ⟨others, other, same, there, closer⟩
    exact ⟨other, by rw [same, Option.bind_some, there], closer⟩
  deeper := by
    intro whole value found
    rcases Option.bind_eq_some_iff.mp found with ⟨items, array, item⟩
    cases whole with
    | array elements =>
        cases array
        exact depth_lt_array (List.mem_of_getElem? item)
    | null => cases array
    | bool flag => cases array
    | number number => cases array
    | string text => cases array
    | object fields => cases array

/-- A member of an object. -/
def memberAt (key : String) : Descent where
  into value := value.get key
  respects := fun agrees found => agrees.get_some found
  deeper := by
    intro whole value found
    cases whole with
    | object fields => exact depth_lt_object (mem_of_lookup found)
    | null => cases found
    | bool flag => cases found
    | number number => cases found
    | string text => cases found
    | array items => cases found

/-- One way behind another one. -/
def Descent.andThen (first second : Descent) : Descent where
  into value := (first.into value).bind second.into
  respects := by
    intro left right value agrees found
    rcases Option.bind_eq_some_iff.mp found with ⟨middle, way, rest⟩
    rcases first.respects agrees way with ⟨other, same, closer⟩
    rcases second.respects closer rest with ⟨last, there, closest⟩
    exact ⟨last, by rw [same, Option.bind_some, there], closest⟩
  deeper := by
    intro whole value found
    rcases Option.bind_eq_some_iff.mp found with ⟨middle, way, rest⟩
    exact Nat.lt_trans (second.deeper rest) (first.deeper way)

end Json

/-! ## Operations on members -/

namespace JsonObject

variable (object : JsonObject) (key other : String) (value : Json)

/-- Remove a member.  What order the others are left in does not matter. -/
def remove (object : JsonObject) (key : String) : JsonObject :=
  object.filter fun member => member.1 != key

/-- Insert a member unless the key is present. -/
def orInsert (object : JsonObject) (key : String) (value : Json) : JsonObject :=
  if (object.lookup key).isSome then object else object ++ [(key, value)]

/-- Change the value of a key. -/
def modify (object : JsonObject) (key : String) (change : Json -> Json) : JsonObject :=
  object.map fun member => if member.1 = key then (member.1, change member.2) else member

theorem lookup_remove : List.lookup other (remove object key) = if other = key then none else List.lookup other object := by
  induction object with
  | nil => simp [remove]
  | cons member rest ih =>
      rcases member with ⟨present, old⟩
      unfold remove at ih ⊢
      by_cases gone : present = key
      · rw [List.filter_cons_of_neg (by simp [gone]), ih]
        by_cases same : other = key
        · rw [if_pos same, if_pos same]
        · rw [if_neg same, if_neg same, List.lookup_cons, beq_eq_false_iff_ne.mpr (gone.symm ▸ same)]
      · rw [List.filter_cons_of_pos (by simp [gone]), List.lookup_cons, List.lookup_cons, ih]
        by_cases here : other = present
        · rw [here, beq_self_eq_true, if_neg gone, if_neg gone]
        · rw [beq_eq_false_iff_ne.mpr here]

theorem lookup_orInsert : List.lookup other (orInsert object key value) =
    (List.lookup other object).or (if other = key then some value else none) := by
  unfold orInsert
  split
  · rename_i present
    by_cases same : other = key
    · rcases Option.isSome_iff_exists.mp present with ⟨old, found⟩
      rw [same, found]
      rfl
    · rw [if_neg same, Option.or_none]
  · rw [List.lookup_append, List.lookup_cons, List.lookup_nil]
    by_cases same : other = key
    · rw [if_pos same, same, beq_self_eq_true]
    · rw [if_neg same, beq_eq_false_iff_ne.mpr same]

theorem lookup_modify (change : Json -> Json) : List.lookup other (modify object key change) =
    if other = key then (List.lookup other object).map change else List.lookup other object := by
  unfold modify
  induction object with
  | nil => simp
  | cons member rest ih =>
      rcases member with ⟨present, old⟩
      rw [List.map_cons, List.lookup_cons]
      by_cases here : present = key
      · rw [if_pos here, List.lookup_cons, ih]
        by_cases same : other = present
        · rw [same, beq_self_eq_true, if_pos here, if_pos here]
          rfl
        · rw [beq_eq_false_iff_ne.mpr same]
      · rw [if_neg here, List.lookup_cons, ih]
        by_cases same : other = present
        · rw [same, beq_self_eq_true, if_neg here, if_neg here]
        · rw [beq_eq_false_iff_ne.mpr same]

end JsonObject
end AIBuddy
