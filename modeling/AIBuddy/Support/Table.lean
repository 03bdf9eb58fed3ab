import Mathlib.Order.Lattice
import Mathlib.Data.List.Basic

namespace AIBuddy

/-!
# Tables

A table gives values to keys.  Its entries are kept in the order of their keys, so
that two tables with the same lookups are equal.
-/

/-- A finite map whose entries stand in the order of their keys. -/
structure Table (κ ν : Type) [LinearOrder κ] where
  entries : List (κ × ν)
  ordered : entries.Pairwise fun left right => left.1 < right.1

namespace Table

variable {κ ν : Type} [LinearOrder κ]

def empty : Table κ ν := ⟨[], List.Pairwise.nil⟩

/-- Insert an entry at its place, or replace the entry with its key. -/
def insertEntry (key : κ) (value : ν) : List (κ × ν) -> List (κ × ν)
  | [] => [(key, value)]
  | (present, old) :: rest =>
      if key < present then (key, value) :: (present, old) :: rest
      else if key = present then (key, value) :: rest
      else (present, old) :: insertEntry key value rest

/-- The value at a key. -/
def findEntry (key : κ) : List (κ × ν) -> Option ν
  | [] => none
  | (present, value) :: rest => if key = present then some value else findEntry key rest

theorem mem_insertEntry {key : κ} {value : ν} {entries : List (κ × ν)} {entry : κ × ν}
    (member : entry ∈ insertEntry key value entries) : entry = (key, value) ∨ entry ∈ entries := by
  induction entries with
  | nil => exact Or.inl (List.mem_singleton.mp member)
  | cons first rest ih =>
      rcases first with ⟨present, old⟩
      rw [insertEntry] at member
      split at member
      · exact List.mem_cons.mp member
      · split at member
        · rcases List.mem_cons.mp member with new | later
          · exact Or.inl new
          · exact Or.inr (List.mem_cons_of_mem _ later)
        · rcases List.mem_cons.mp member with old | later
          · exact Or.inr (List.mem_cons.mpr (Or.inl old))
          · rcases ih later with new | inRest
            · exact Or.inl new
            · exact Or.inr (List.mem_cons_of_mem _ inRest)

theorem ordered_insertEntry (key : κ) (value : ν) {entries : List (κ × ν)}
    (ordered : entries.Pairwise fun left right => left.1 < right.1) :
    (insertEntry key value entries).Pairwise fun left right => left.1 < right.1 := by
  induction entries with
  | nil => exact List.pairwise_singleton _ _
  | cons first rest ih =>
      rcases first with ⟨present, old⟩
      rw [List.pairwise_cons] at ordered
      rw [insertEntry]
      split
      · rename_i before
        refine List.pairwise_cons.mpr ⟨fun entry member => ?_, List.pairwise_cons.mpr ordered⟩
        rcases List.mem_cons.mp member with same | later
        · rw [same]
          exact before
        · exact lt_trans before (ordered.1 entry later)
      · split
        · rename_i same
          subst same
          exact List.pairwise_cons.mpr ordered
        · rename_i notBefore different
          refine List.pairwise_cons.mpr ⟨fun entry member => ?_, ih ordered.2⟩
          rcases mem_insertEntry member with new | later
          · rw [new]
            exact lt_of_le_of_ne (not_lt.mp notBefore) fun same => different same.symm
          · exact ordered.1 entry later

theorem findEntry_insertEntry (key other : κ) (value : ν) (entries : List (κ × ν)) :
    findEntry other (insertEntry key value entries) =
      if other = key then some value else findEntry other entries := by
  induction entries with
  | nil => rfl
  | cons first rest ih =>
      rcases first with ⟨present, old⟩
      rw [insertEntry]
      split
      · rfl
      · split
        · rename_i same
          subst same
          simp only [findEntry]
          split
          · rfl
          · rfl
        · rename_i different
          simp only [findEntry, ih]
          by_cases isPresent : other = present
          · rw [if_pos isPresent, if_neg fun isKey => different (isKey.symm.trans isPresent), if_pos isPresent]
          · rw [if_neg isPresent, if_neg isPresent]

theorem findEntry_of_before {key : κ} {entries : List (κ × ν)}
    (before : forall entry, entry ∈ entries -> key < entry.1) : findEntry key entries = none := by
  induction entries with
  | nil => rfl
  | cons first rest ih =>
      rcases first with ⟨present, value⟩
      have later := before (present, value) List.mem_cons_self
      rw [findEntry, if_neg (ne_of_lt later)]
      exact ih fun entry member => before entry (List.mem_cons_of_mem _ member)

theorem findEntry_of_mem {entries : List (κ × ν)} (ordered : entries.Pairwise fun left right => left.1 < right.1)
    {key : κ} {value : ν} (member : (key, value) ∈ entries) : findEntry key entries = some value := by
  induction entries with
  | nil => contradiction
  | cons first rest ih =>
      rcases first with ⟨present, old⟩
      rw [List.pairwise_cons] at ordered
      rcases List.mem_cons.mp member with same | later
      · cases same
        rw [findEntry, if_pos rfl]
      · have after := ordered.1 _ later
        rw [findEntry, if_neg fun same => absurd after (by simp [same])]
        exact ih ordered.2 later

theorem mem_of_findEntry {entries : List (κ × ν)} {key : κ} {value : ν}
    (found : findEntry key entries = some value) : (key, value) ∈ entries := by
  induction entries with
  | nil => contradiction
  | cons first rest ih =>
      rcases first with ⟨present, old⟩
      rw [findEntry] at found
      split at found
      · rename_i same
        rw [same, Option.some.inj found]
        exact List.mem_cons_self
      · exact List.mem_cons_of_mem _ (ih found)

theorem entries_ext {left right : List (κ × ν)} (leftOrdered : left.Pairwise fun left right => left.1 < right.1)
    (rightOrdered : right.Pairwise fun left right => left.1 < right.1)
    (same : forall key, findEntry key left = findEntry key right) : left = right := by
  induction left generalizing right with
  | nil =>
      cases right with
      | nil => rfl
      | cons first rest =>
          have found := same first.1
          rw [findEntry, findEntry, if_pos rfl] at found
          contradiction
  | cons first rest ih =>
      cases right with
      | nil =>
          have found := same first.1
          rw [findEntry, findEntry, if_pos rfl] at found
          contradiction
      | cons other others =>
          rw [List.pairwise_cons] at leftOrdered rightOrdered
          have keys : first.1 = other.1 := by
            by_contra different
            rcases lt_or_gt_of_ne different with before | before
            · have found := same first.1
              rw [findEntry, if_pos rfl, findEntry, if_neg different,
                findEntry_of_before fun entry member => lt_trans before (rightOrdered.1 entry member)] at found
              contradiction
            · have found := same other.1
              rw [findEntry, if_neg (Ne.symm different), findEntry, if_pos rfl,
                findEntry_of_before fun entry member => lt_trans before (leftOrdered.1 entry member)] at found
              contradiction
          have values : first.2 = other.2 := by
            have found := same first.1
            rw [findEntry, if_pos rfl, findEntry, if_pos keys, Option.some.injEq] at found
            exact found
          have restSame : rest = others := by
            apply ih leftOrdered.2 rightOrdered.2
            intro key
            by_cases isFirst : key = first.1
            · rw [isFirst, findEntry_of_before leftOrdered.1, keys, findEntry_of_before rightOrdered.1]
            · have found := same key
              rw [findEntry, if_neg isFirst, findEntry, if_neg fun isOther => isFirst (isOther.trans keys.symm)]
                at found
              exact found
          rw [restSame, Prod.ext keys values]

/-! ## Operations -/

def insert (table : Table κ ν) (key : κ) (value : ν) : Table κ ν :=
  ⟨insertEntry key value table.entries, ordered_insertEntry key value table.ordered⟩

def find? (table : Table κ ν) (key : κ) : Option ν :=
  findEntry key table.entries

/-- Drop the entry with a key. -/
def erase (table : Table κ ν) (key : κ) : Table κ ν :=
  ⟨table.entries.filter fun entry => entry.1 ≠ key, table.ordered.filter _⟩

def isEmpty (table : Table κ ν) : Bool :=
  table.entries.isEmpty

/-- Change all values. -/
def map {μ : Type} (table : Table κ ν) (change : κ -> ν -> μ) : Table κ μ :=
  ⟨table.entries.map fun entry => (entry.1, change entry.1 entry.2), table.ordered.map _ fun _ _ before => before⟩

@[simp] theorem find?_empty (key : κ) : (empty : Table κ ν).find? key = none := rfl

theorem find?_insert (table : Table κ ν) (key other : κ) (value : ν) :
    (table.insert key value).find? other = if other = key then some value else table.find? other :=
  findEntry_insertEntry key other value table.entries

@[simp] theorem find?_insert_self (table : Table κ ν) (key : κ) (value : ν) :
    (table.insert key value).find? key = some value := by
  rw [find?_insert, if_pos rfl]

theorem find?_insert_of_ne (table : Table κ ν) {key other : κ} (value : ν) (different : other ≠ key) :
    (table.insert key value).find? other = table.find? other := by
  rw [find?_insert, if_neg different]

theorem find?_erase (table : Table κ ν) (key other : κ) :
    (table.erase key).find? other = if other = key then none else table.find? other := by
  change findEntry other (table.entries.filter fun entry => entry.1 ≠ key) =
    if other = key then none else findEntry other table.entries
  induction table.entries with
  | nil => rw [List.filter_nil, findEntry, ite_self]
  | cons first rest ih =>
      rw [List.filter_cons, findEntry]
      by_cases dropped : first.1 = key
      · rw [if_neg (by simp [dropped]), ih]
        by_cases same : other = key
        · rw [if_pos same, if_pos same]
        · rw [if_neg same, if_neg same, if_neg fun isFirst => same (isFirst.trans dropped)]
      · rw [if_pos (by simp [dropped]), findEntry, ih]
        by_cases isFirst : other = first.1
        · rw [if_pos isFirst, if_pos isFirst, if_neg fun same => dropped (isFirst.symm.trans same)]
        · rw [if_neg isFirst, if_neg isFirst]

@[simp] theorem entries_map {μ : Type} (table : Table κ ν) (change : κ -> ν -> μ) :
    (table.map change).entries = table.entries.map fun entry => (entry.1, change entry.1 entry.2) := rfl

theorem find?_map {μ : Type} (table : Table κ ν) (change : κ -> ν -> μ) (key : κ) :
    (table.map change).find? key = (table.find? key).map (change key) := by
  rw [find?, find?, entries_map]
  induction table.entries with
  | nil => rfl
  | cons first rest ih =>
      rw [List.map_cons, findEntry, findEntry, ih]
      split
      · rename_i same
        rw [same, Option.map_some]
      · rfl

theorem find?_eq_some_of_mem (table : Table κ ν) {entry : κ × ν} (member : entry ∈ table.entries) :
    table.find? entry.1 = some entry.2 :=
  findEntry_of_mem table.ordered member

theorem mem_of_find? (table : Table κ ν) {key : κ} {value : ν} (found : table.find? key = some value) :
    (key, value) ∈ table.entries :=
  mem_of_findEntry found

@[ext] theorem ext {left right : Table κ ν} (same : forall key, left.find? key = right.find? key) :
    left = right := by
  rcases left with ⟨leftEntries, leftOrdered⟩
  rcases right with ⟨rightEntries, rightOrdered⟩
  have entries : leftEntries = rightEntries := entries_ext leftOrdered rightOrdered same
  subst entries
  rfl

theorem values_eq_iff {μ : Type} {left right : Table κ ν} (view : ν -> μ)
    (sameKeys : forall key, (left.find? key).isSome = (right.find? key).isSome) :
    (left.entries.map fun entry => view entry.2) = (right.entries.map fun entry => view entry.2) ↔
      forall key, (left.find? key).map view = (right.find? key).map view := by
  have keys : left.entries.map Prod.fst = right.entries.map Prod.fst := by
    have bare : left.map (fun _ _ => ()) = right.map (fun _ _ => ()) := by
      ext key
      have same := sameKeys key
      rw [find?_map, find?_map]
      cases isLeft : left.find? key with
      | none =>
          cases isRight : right.find? key with
          | none => rfl
          | some value => simp [isLeft, isRight] at same
      | some value =>
          cases isRight : right.find? key with
          | none => simp [isLeft, isRight] at same
          | some other => rfl
    have same := congrArg (fun table => table.entries.map Prod.fst) bare
    simp only [entries_map, List.map_map] at same
    exact same
  constructor
  · intro values key
    have whole : left.map (fun _ => view) = right.map (fun _ => view) := by
      have entries : forall table : Table κ ν, (table.map fun _ => view).entries =
          (table.entries.map Prod.fst).zip (table.entries.map fun entry => view entry.2) := by
        intro table
        rw [entries_map, List.zip_map']
      have same : (left.map fun _ => view).entries = (right.map fun _ => view).entries := by
        rw [entries left, entries right, keys, values]
      exact ext fun key => congrArg (findEntry key) same
    have found := congrArg (fun table => table.find? key) whole
    simpa only [find?_map] using found
  · intro found
    have whole : left.map (fun _ => view) = right.map (fun _ => view) := by
      ext key
      rw [find?_map, find?_map, found key]
    have same := congrArg (fun table => table.entries.map Prod.snd) whole
    simp only [entries_map, List.map_map] at same
    exact same

end Table
end AIBuddy
