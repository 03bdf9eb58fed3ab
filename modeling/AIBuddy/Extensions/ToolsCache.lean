import AIBuddy.Support.Runs
import Mathlib.Data.List.Basic

namespace AIBuddy
namespace Extensions

/-!
# The cache of tool lists

An extension manager keeps the extensions in a map and the tools that they list in a
cache.  A call that finds the cache empty reads the version counter, takes a snapshot
of the map, asks every extension for its tools, and stores the answer unless the
counter has moved.  A change edits the map, moves the counter, and empties the cache.
All calls run at the same time, and each may pause between any two steps.

Next to what the manager stores, the state keeps account of the edits: the maps that
were edited, and for every list how many edits its snapshot had seen.  No step reads
this account.
-/

variable {ε τ : Type}

/-- The map from extension keys to extensions. -/
abbrev ExtensionMap (ε : Type) := List (String × ε)

/-- Insert an extension, replacing the one with its key. -/
def ExtensionMap.insert (extensions : ExtensionMap ε) (key : String) (extension : ε) : ExtensionMap ε :=
  (key, extension) :: extensions.filter fun entry => entry.1 ≠ key

/-- The map without a key. -/
def ExtensionMap.remove (extensions : ExtensionMap ε) (key : String) : ExtensionMap ε :=
  extensions.filter fun entry => entry.1 ≠ key

/-- A list of tools, with the snapshot it was computed from and the number of edits
that the snapshot had seen. -/
structure Listing (ε τ : Type) where
  snapshot : ExtensionMap ε
  edits : Nat
  tools : List τ

/-- Where a call of `get_all_tools_cached` stands. -/
inductive GetPhase (ε τ : Type) where
  | started
  | missed
  | versioned (versionBefore : Nat)
  | snapshotted (versionBefore : Nat) (snapshot : ExtensionMap ε) (edits : Nat)
  | fetched (versionBefore : Nat) (listing : Listing ε τ)
  | returned (listing : Listing ε τ)

/-- A call of `get_all_tools_cached`, with the edits whose calls had returned when it
started. -/
structure Get (ε τ : Type) where
  since : List Nat
  phase : GetPhase ε τ

/-- What a call does to the map.  A server that says that its tools have changed only
has the cache emptied. -/
inductive Edit (ε : Type) where
  | insert (key : String) (extension : ε)
  | remove (key : String)
  | refresh

/-- Where a call that changes the map stands, with the number of its edit. -/
inductive ChangePhase where
  | started
  | edited (number : Nat)
  | bumped (number : Nat)
  | returned (number : Option Nat)
deriving DecidableEq

/-- A call of `add_extension`, `add_client` or `remove_extension`, or the handling of a
notification. -/
structure Change (ε : Type) where
  edit : Edit ε
  phase : ChangePhase

/-- The manager and the calls that run on it.  The version counter has 64 bits and goes up by
one with every change, so it is taken not to come round while a call is under way. -/
structure Manager (ε τ : Type) where
  extensions : ExtensionMap ε
  history : List (ExtensionMap ε)
  toolsCache : Option (Listing ε τ)
  toolsCacheVersion : Nat
  gets : List (Get ε τ)
  changes : List (Change ε)

/-- The number of a change that has returned. -/
def Change.settled (change : Change ε) : Option Nat :=
  match change.phase with
  | .returned number => number
  | _ => none

inductive GetStep (τ : Type) where
  | look
  | readVersion
  | snapshot
  | fetch (tools : List τ)
  | store

inductive ChangeStep where
  | edit
  | bump
  | clear
deriving DecidableEq

/-- A step of a run: a call begins, or a call does what it does next. -/
inductive Step (ε τ : Type) where
  | startGet
  | startChange (edit : Edit ε)
  | get (index : Nat) (step : GetStep τ)
  | change (index : Nat) (step : ChangeStep)

namespace Manager

/-! ## Calls that list the tools -/

/-- A call of `get_all_tools_cached` goes on.  The version is compared and the answer
stored under the lock of the cache, that is in one step. -/
def advanceGet (manager : Manager ε τ) : GetStep τ -> GetPhase ε τ -> Option (GetPhase ε τ × Option (Listing ε τ))
  | .look, .started =>
      match manager.toolsCache with
      | some listing => some (.returned listing, manager.toolsCache)
      | none => some (.missed, manager.toolsCache)
  | .readVersion, .missed => some (.versioned manager.toolsCacheVersion, manager.toolsCache)
  | .snapshot, .versioned versionBefore =>
      some (.snapshotted versionBefore manager.extensions manager.history.length, manager.toolsCache)
  | .fetch tools, .snapshotted versionBefore snapshot edits =>
      some (.fetched versionBefore ⟨snapshot, edits, tools⟩, manager.toolsCache)
  | .store, .fetched versionBefore listing =>
      if manager.toolsCacheVersion = versionBefore ∧ manager.toolsCache.isNone then
        some (.returned listing, some listing)
      else some (.returned listing, manager.toolsCache)
  | _, _ => none

/-! ## Calls that change the map -/

/-- The map and its account behind an edit.  A key that is not there is not removed. -/
def applyEdit (manager : Manager ε τ) : Edit ε -> Option (Manager ε τ)
  | .insert key extension => some { manager with
      extensions := manager.extensions.insert key extension
      history := manager.history ++ [manager.extensions] }
  | .remove key =>
      if manager.extensions.any fun entry => entry.1 = key then some { manager with
        extensions := manager.extensions.remove key
        history := manager.history ++ [manager.extensions] }
      else none
  | .refresh => some manager

/-- A change goes on. -/
def advanceChange (manager : Manager ε τ) (index : Nat) (change : Change ε) :
    ChangeStep -> Option (Manager ε τ)
  | .edit =>
      if change.phase = .started then
        match manager.applyEdit change.edit with
        | some edited => some { edited with
            changes := manager.changes.set index { change with phase := .edited edited.history.length } }
        | none => some { manager with
            changes := manager.changes.set index { change with phase := .returned none } }
      else none
  | .bump =>
      match change.phase with
      | .edited number => some { manager with
          toolsCacheVersion := manager.toolsCacheVersion + 1
          changes := manager.changes.set index { change with phase := .bumped number } }
      | _ => none
  | .clear =>
      match change.phase with
      | .bumped number => some { manager with
          toolsCache := none
          changes := manager.changes.set index { change with phase := .returned (some number) } }
      | _ => none

/-- A step of the manager. -/
def advance (step : Step ε τ) (manager : Manager ε τ) : Except Unit (Manager ε τ) :=
  match step with
  | .startGet => .ok { manager with
      gets := manager.gets ++ [⟨manager.changes.filterMap Change.settled, .started⟩] }
  | .startChange edit => .ok { manager with changes := manager.changes ++ [⟨edit, .started⟩] }
  | .get index step =>
      match manager.gets[index]? with
      | none => .error ()
      | some get =>
          match manager.advanceGet step get.phase with
          | some (phase, cache) => .ok { manager with
              toolsCache := cache
              gets := manager.gets.set index { get with phase := phase } }
          | none => .error ()
  | .change index step =>
      match manager.changes[index]? with
      | none => .error ()
      | some change =>
          match manager.advanceChange index change step with
          | some next => .ok next
          | none => .error ()

/-- A manager on which nothing has been called yet. -/
def fresh (extensions : ExtensionMap ε) : Manager ε τ := ⟨extensions, [], none, 0, [], []⟩

end Manager
end Extensions
end AIBuddy
