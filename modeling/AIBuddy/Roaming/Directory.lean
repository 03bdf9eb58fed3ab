import Mathlib.Data.String.Basic
import AIBuddy.Support.Table

namespace AIBuddy
namespace Roaming

/-!
# The directory of peers

A node keeps an entry for every peer it has been connected with, and how many
connections with the peer are live.  The directory of a process is kept in a map;
a persisted one is also merged into a file that other processes write too.  The
file is kept here as the map that its readers make of it.
-/

/-- Which way a connection was established. -/
inductive Direction where
  | inbound
  | outbound
deriving DecidableEq, Repr

/-- What is known of a peer.  The number of live connections is not written to the
file. -/
structure PeerEntry where
  endpointId : String
  label : Option String
  direction : Direction
  agentId : Option String
  firstSeenMs : Nat
  lastSeenMs : Nat
  connected : Bool
  liveConnections : Nat
deriving DecidableEq, Repr

/-- The entries of a process by the text of the peer's key. -/
abbrev Directory := Table String PeerEntry

/-- The largest number of live connections that is told apart. -/
def maxConnections : Nat := 4294967295

namespace Directory

/-! ## Connections -/

/-- The entry of a peer after another connection with it has started. -/
def connectedEntry (entry : Option PeerEntry) (endpointId : String) (label : Option String)
    (direction : Direction) (agentId : Option String) (nowMs : Nat) : PeerEntry :=
  match entry with
  | some entry =>
      { entry with
        lastSeenMs := nowMs
        connected := true
        liveConnections := min (entry.liveConnections + 1) maxConnections
        label := if label.isSome then label else entry.label
        agentId := if agentId.isSome then agentId else entry.agentId }
  | none =>
      { endpointId := endpointId, label := label, direction := direction, agentId := agentId
        firstSeenMs := nowMs, lastSeenMs := nowMs, connected := true, liveConnections := 1 }

/-- Record the start of a connection. -/
def recordConnect (directory : Directory) (endpointId : String) (label : Option String)
    (direction : Direction) (agentId : Option String) (nowMs : Nat) : Directory :=
  directory.insert endpointId
    (connectedEntry (directory.find? endpointId) endpointId label direction agentId nowMs)

/-- The entry of a peer after a connection with it has ended. -/
def disconnectedEntry (entry : PeerEntry) (nowMs : Nat) : PeerEntry :=
  { entry with
    liveConnections := entry.liveConnections - 1
    connected := decide (0 < entry.liveConnections - 1)
    lastSeenMs := nowMs }

/-- Record that a connection has ended. -/
def recordDisconnect (directory : Directory) (endpointId : String) (nowMs : Nat) : Directory :=
  match directory.find? endpointId with
  | some entry => directory.insert endpointId (disconnectedEntry entry nowMs)
  | none => directory

/-- The number of live connections with a peer. -/
def liveConnections (directory : Directory) (endpointId : String) : Nat :=
  match directory.find? endpointId with
  | some entry => entry.liveConnections
  | none => 0

/-- Whether a peer is reported as connected. -/
def connected (directory : Directory) (endpointId : String) : Bool :=
  match directory.find? endpointId with
  | some entry => entry.connected
  | none => false

theorem find?_recordConnect (directory : Directory) (endpointId other : String) (label : Option String)
    (direction : Direction) (agentId : Option String) (nowMs : Nat) :
    (directory.recordConnect endpointId label direction agentId nowMs).find? other =
      if other = endpointId then
        some (connectedEntry (directory.find? endpointId) endpointId label direction agentId nowMs)
      else directory.find? other :=
  Table.find?_insert directory endpointId other _

theorem find?_recordDisconnect (directory : Directory) (endpointId other : String) (nowMs : Nat) :
    (directory.recordDisconnect endpointId nowMs).find? other =
      if other = endpointId then (directory.find? endpointId).map fun entry => disconnectedEntry entry nowMs
      else directory.find? other := by
  rw [recordDisconnect]
  cases found : directory.find? endpointId with
  | some entry => exact Table.find?_insert directory endpointId other _
  | none =>
      by_cases same : other = endpointId
      · rw [if_pos same, same, found]
        rfl
      · rw [if_neg same]

/-- A start counts one more connection with its peer, up to the largest number. -/
theorem liveConnections_recordConnect (directory : Directory) (endpointId other : String)
    (label : Option String) (direction : Direction) (agentId : Option String) (nowMs : Nat) :
    (directory.recordConnect endpointId label direction agentId nowMs).liveConnections other =
      if other = endpointId then min (directory.liveConnections endpointId + 1) maxConnections
      else directory.liveConnections other := by
  rw [liveConnections, find?_recordConnect]
  by_cases same : other = endpointId
  · rw [if_pos same, if_pos same, liveConnections]
    cases directory.find? endpointId <;> rfl
  · rw [if_neg same, if_neg same]
    rfl

/-- An end counts one connection less with its peer, if there is one. -/
theorem liveConnections_recordDisconnect (directory : Directory) (endpointId other : String) (nowMs : Nat) :
    (directory.recordDisconnect endpointId nowMs).liveConnections other =
      if other = endpointId then directory.liveConnections endpointId - 1
      else directory.liveConnections other := by
  rw [liveConnections, find?_recordDisconnect]
  by_cases same : other = endpointId
  · rw [if_pos same, if_pos same, liveConnections]
    cases directory.find? endpointId <;> rfl
  · rw [if_neg same, if_neg same]
    rfl

/-! ## What a process claims -/

/-- Every entry stands under its own key, and a peer is reported as connected
exactly while it has a live connection. -/
structure Coherent (directory : Directory) : Prop where
  keyed : forall endpointId entry, directory.find? endpointId = some entry -> entry.endpointId = endpointId
  reported : forall endpointId entry, directory.find? endpointId = some entry ->
    entry.connected = decide (0 < entry.liveConnections)

theorem Coherent.connected_eq {directory : Directory} (coherent : Coherent directory) (endpointId : String) :
    directory.connected endpointId = decide (0 < directory.liveConnections endpointId) := by
  rw [connected, liveConnections]
  cases found : directory.find? endpointId with
  | some entry => exact coherent.reported endpointId entry found
  | none => rfl

theorem Coherent.recordConnect {directory : Directory} (coherent : Coherent directory) (endpointId : String)
    (label : Option String) (direction : Direction) (agentId : Option String) (nowMs : Nat) :
    Coherent (directory.recordConnect endpointId label direction agentId nowMs) := by
  constructor
  · intro other entry found
    rw [find?_recordConnect] at found
    split at found
    · rename_i same
      cases found
      cases known : directory.find? endpointId with
      | some entry => exact (coherent.keyed endpointId entry known).trans same.symm
      | none => exact same.symm
    · exact coherent.keyed other entry found
  · intro other entry found
    rw [find?_recordConnect] at found
    split at found
    · cases found
      cases directory.find? endpointId with
      | some entry =>
          have positive : 0 < min (entry.liveConnections + 1) maxConnections := by
            rw [maxConnections]
            omega
          exact (decide_eq_true positive).symm
      | none => rfl
    · exact coherent.reported other entry found

theorem Coherent.recordDisconnect {directory : Directory} (coherent : Coherent directory)
    (endpointId : String) (nowMs : Nat) : Coherent (directory.recordDisconnect endpointId nowMs) := by
  constructor
  · intro other entry found
    rw [find?_recordDisconnect] at found
    split at found
    · rename_i same
      rcases Option.map_eq_some_iff.mp found with ⟨known, atKey, rfl⟩
      exact (coherent.keyed endpointId known atKey).trans same.symm
    · exact coherent.keyed other entry found
  · intro other entry found
    rw [find?_recordDisconnect] at found
    split at found
    · rcases Option.map_eq_some_iff.mp found with ⟨known, atKey, rfl⟩
      rfl
    · exact coherent.reported other entry found

/-! ## The file -/

/-- The directory of a process that starts on a file: nothing in the file is
believed to be connected. -/
def persistent (file : Directory) : Directory :=
  file.map fun _ entry => { entry with connected := false, liveConnections := 0 }

/-- The file once an entry of a process has been merged into it: the stored entry
stays if the process has no live connection with the peer and the stored one is no
older. -/
def mergeEntry (merged : Directory) (entry : PeerEntry) : Directory :=
  match merged.find? entry.endpointId with
  | some existing =>
      if entry.liveConnections = 0 ∧ entry.lastSeenMs ≤ existing.lastSeenMs then merged
      else merged.insert entry.endpointId entry
  | none => merged.insert entry.endpointId entry

/-- The file after a process has merged all its entries into it. -/
def flush (directory file : Directory) : Directory :=
  ((directory.entries.map Prod.snd).foldl mergeEntry file).map fun _ entry =>
    { entry with liveConnections := 0 }

/-- What is stored for a peer once the entry of a process, if it has one, has been
merged with the stored one. -/
def mergedEntry (own stored : Option PeerEntry) : Option PeerEntry :=
  match own, stored with
  | some entry, some existing =>
      if entry.liveConnections = 0 ∧ entry.lastSeenMs ≤ existing.lastSeenMs then some existing
      else some entry
  | some entry, none => some entry
  | none, stored => stored

theorem find?_mergeEntry (merged : Directory) (entry : PeerEntry) (other : String) :
    (mergeEntry merged entry).find? other =
      if other = entry.endpointId then mergedEntry (some entry) (merged.find? other)
      else merged.find? other := by
  by_cases same : other = entry.endpointId
  · rw [if_pos same, same, mergeEntry]
    cases found : merged.find? entry.endpointId with
    | none => simp [mergedEntry]
    | some existing =>
        simp only [mergedEntry]
        split
        · exact found
        · exact Table.find?_insert_self merged entry.endpointId entry
  · rw [if_neg same, mergeEntry]
    cases found : merged.find? entry.endpointId with
    | none => exact Table.find?_insert_of_ne merged entry same
    | some existing =>
        simp only
        split
        · rfl
        · exact Table.find?_insert_of_ne merged entry same

private theorem find?_foldl_mergeEntry {entries : List (String × PeerEntry)}
    (ordered : entries.Pairwise fun left right => left.1 < right.1)
    (keyed : forall item, item ∈ entries -> item.2.endpointId = item.1) (merged : Directory) (other : String) :
    ((entries.map Prod.snd).foldl mergeEntry merged).find? other =
      mergedEntry (Table.findEntry other entries) (merged.find? other) := by
  induction entries generalizing merged with
  | nil => rfl
  | cons first rest ih =>
      rcases first with ⟨key, entry⟩
      have firstKey : entry.endpointId = key := keyed (key, entry) List.mem_cons_self
      rw [List.pairwise_cons] at ordered
      rw [List.map_cons, List.foldl_cons,
        ih ordered.2 (fun item member => keyed item (List.mem_cons_of_mem _ member)),
        find?_mergeEntry, firstKey]
      by_cases same : other = key
      · subst same
        rw [if_pos rfl, Table.findEntry, if_pos rfl, Table.findEntry_of_before ordered.1]
        rfl
      · rw [if_neg same, Table.findEntry, if_neg same]

theorem find?_flush {directory : Directory} (coherent : Coherent directory) (file : Directory)
    (endpointId : String) :
    (flush directory file).find? endpointId =
      (mergedEntry (directory.find? endpointId) (file.find? endpointId)).map fun entry =>
        { entry with liveConnections := 0 } := by
  have keyed : forall item, item ∈ directory.entries -> item.2.endpointId = item.1 := by
    intro item member
    exact coherent.keyed item.1 item.2 (Table.find?_eq_some_of_mem directory member)
  rw [flush, Table.find?_map, find?_foldl_mergeEntry directory.ordered keyed]
  rfl

/-- A process that starts on a file claims no connection. -/
theorem persistent_coherent {file : Directory}
    (keyed : forall endpointId entry, file.find? endpointId = some entry -> entry.endpointId = endpointId) :
    Coherent (persistent file) := by
  constructor
  · intro endpointId entry found
    rw [persistent, Table.find?_map] at found
    rcases Option.map_eq_some_iff.mp found with ⟨stored, atKey, rfl⟩
    exact keyed endpointId stored atKey
  · intro endpointId entry found
    rw [persistent, Table.find?_map] at found
    rcases Option.map_eq_some_iff.mp found with ⟨stored, atKey, rfl⟩
    rfl

end Directory
end Roaming
end AIBuddy
