import AIBuddy.Roaming.Directory
import AIBuddy.Support.Runs

namespace AIBuddy
namespace Roaming

/-!
# A sharing node

A node accepts connections from the peers on its persisted allowlist.  Every
connection has a handler, a task that authorizes the peer, acknowledges, registers
the connection, reads the allowlist again and then serves the stream.  A watcher
polls the allowlist and closes the registered connections of keys that have left it.
All tasks run at the same time, and each may pause between any two steps.
-/

/-! ## The trust book -/

/-- The keys that are accepted, and the keys that are refused whatever else is said. -/
structure TrustBook where
  allowed : List String
  revokedKeys : List String
deriving DecidableEq, Repr

namespace TrustBook

def empty : TrustBook := ⟨[], []⟩

def accept (book : TrustBook) (key : String) : TrustBook where
  allowed := key :: book.allowed
  revokedKeys := book.revokedKeys.filter fun other => other ≠ key

def revokeKey (book : TrustBook) (key : String) : TrustBook where
  allowed := book.allowed.filter fun other => other ≠ key
  revokedKeys := key :: book.revokedKeys

def isKeyRevoked (book : TrustBook) (key : String) : Bool :=
  book.revokedKeys.contains key

def isAllowed (book : TrustBook) (key : String) : Bool :=
  !book.isKeyRevoked key && book.allowed.contains key

@[simp] theorem isAllowed_accept (book : TrustBook) (key other : String) :
    (book.accept key).isAllowed other = (decide (other = key) || book.isAllowed other) := by
  by_cases same : other = key
  · simp [accept, isAllowed, isKeyRevoked, same]
  · simp [accept, isAllowed, isKeyRevoked, same]

@[simp] theorem isAllowed_revokeKey (book : TrustBook) (key other : String) :
    (book.revokeKey key).isAllowed other = (decide (other ≠ key) && book.isAllowed other) := by
  by_cases same : other = key
  · simp [revokeKey, isAllowed, isKeyRevoked, same]
  · simp [revokeKey, isAllowed, isKeyRevoked, same]

end TrustBook

/-- The book on disk and when it was last written. -/
structure TrustFile where
  book : TrustBook
  modified : Nat
deriving DecidableEq, Repr

/-! ## Tasks -/

/-- Where the handler of a connection stands. -/
inductive Phase where
  | arrived
  | rejected (reason : String)
  | authorized
  | acknowledged
  | registered
  | rechecked
  | recorded
  | serving
  | served
  | unregistered
  | refused
  | withdrawn
  | returned
deriving DecidableEq, Repr

/-- An inbound connection and its handler.  The last two fields keep account of what
has been recorded in the directory; no task reads them. -/
structure Connection where
  client : String
  label : Option String
  phase : Phase
  closed : Bool
  wasRecorded : Bool
  endRecorded : Bool
deriving DecidableEq, Repr

/-- Where the watcher stands: between two polls, with the modification time it has
read, with the book it has loaded, or with the connections it has yet to close. -/
inductive Watcher where
  | sleeping
  | polled (modified : Option Nat)
  | loaded (book : TrustBook)
  | closing (pending : List (String × Nat))
  | recording (entry : String × Nat) (pending : List (String × Nat))
deriving DecidableEq, Repr

/-- The connections that the watcher has taken out of the live map and not closed. -/
def Watcher.pending : Watcher -> List (String × Nat)
  | .closing pending | .recording _ pending => pending
  | _ => []

/-- A sharing node with its persisted book. -/
structure Node where
  agentId : String
  file : Option TrustFile
  connections : List Connection
  live : List (String × Nat)
  watcher : Watcher
  lastModified : Option Nat
  directory : Directory

/-- What a handler does next. -/
inductive HandlerStep where
  | authorize (readable : Bool)
  | abandon
  | reject
  | acknowledge
  | registerLive
  | recheck (readable : Bool)
  | recordConnect (nowMs : Nat)
  | serveStream
  | endStream
  | unregisterLive
  | closeRevoked
  | recordDisconnect (nowMs : Nat)
deriving DecidableEq, Repr

/-- What the watcher does next. -/
inductive WatcherStep where
  | readMetadata
  | load (readable : Bool)
  | enforceTrust
  | close (entry : String × Nat)
  | recordDisconnect (nowMs : Nat)
  | finish
deriving DecidableEq, Repr

/-- A step of the node, of a peer, or of somebody who edits the book. -/
inductive NodeStep where
  | accept (key : String) (modified : Nat)
  | revokeKey (key : String) (modified : Nat)
  | connect (client : String) (label : Option String)
  | peerCloses (index : Nat)
  | handler (index : Nat) (step : HandlerStep)
  | watcher (step : WatcherStep)
deriving DecidableEq, Repr

namespace Node

/-! ## Reading the book -/

/-- The book as it stands: a missing file is an empty book. -/
def book (node : Node) : TrustBook :=
  match node.file with
  | some file => file.book
  | none => TrustBook.empty

/-- Load the book, unless it cannot be read. -/
def load (node : Node) (readable : Bool) : Option TrustBook :=
  if readable then some node.book else none

/-- Whether a peer may connect, by the book as loaded. -/
def authorize (loaded : Option TrustBook) (client : String) : Except String Unit :=
  match loaded with
  | none => .error "unavailable"
  | some book =>
      if book.isKeyRevoked client then .error "revoked"
      else if !book.isAllowed client then .error "not_allowlisted"
      else .ok ()

/-- Whether a registered peer is still allowed; a failed load counts as no. -/
def stillAllowed (loaded : Option TrustBook) (client : String) : Bool :=
  match loaded with
  | some book => book.isAllowed client
  | none => false

/-- Change the book on disk.  Every change gives the file another modification time. -/
def update (node : Node) (mutate : TrustBook -> TrustBook) (modified : Nat) : Except Unit Node :=
  if node.file.map TrustFile.modified = some modified then .error ()
  else .ok { node with file := some ⟨mutate node.book, modified⟩ }

/-! ## The handler -/

/-- The phases of a handler. -/
def nextPhase (node : Node) (client : String) : HandlerStep -> Phase -> Option Phase
  | .authorize readable, .arrived =>
      match authorize (node.load readable) client with
      | .ok _ => some .authorized
      | .error reason => some (.rejected reason)
  | .abandon, .arrived | .abandon, .authorized => some .returned
  | .reject, .rejected _ => some .returned
  | .acknowledge, .authorized => some .acknowledged
  | .registerLive, .acknowledged => some .registered
  | .recheck readable, .registered =>
      if stillAllowed (node.load readable) client then some .rechecked else some .refused
  | .unregisterLive, .refused => some .withdrawn
  | .closeRevoked, .withdrawn => some .returned
  | .recordConnect _, .rechecked => some .recorded
  | .serveStream, .recorded => some .serving
  | .endStream, .serving => some .served
  | .unregisterLive, .served => some .unregistered
  | .recordDisconnect _, .unregistered => some .returned
  | _, _ => none

/-- A handler that returns drops its connection, which closes it. -/
def advanceConnection (connection : Connection) (step : HandlerStep) (phase : Phase) : Connection :=
  { connection with
    phase := phase
    closed := connection.closed || decide (phase = .returned)
    wasRecorded := match step with
      | .recordConnect _ => true
      | _ => connection.wasRecorded
    endRecorded := match step with
      | .recordDisconnect _ => true
      | _ => connection.endRecorded }

/-- The live map after a step of a handler. -/
def advanceLive (live : List (String × Nat)) (client : String) (index : Nat) :
    HandlerStep -> List (String × Nat)
  | .registerLive => live ++ [(client, index)]
  | .unregisterLive => live.filter fun entry => entry ≠ (client, index)
  | _ => live

/-- The directory after a step of a handler. -/
def advanceDirectory (node : Node) (connection : Connection) : HandlerStep -> Directory
  | .recordConnect nowMs =>
      node.directory.recordConnect connection.client connection.label .inbound (some node.agentId) nowMs
  | .recordDisconnect nowMs => node.directory.recordDisconnect connection.client nowMs
  | _ => node.directory

def advanceHandler (node : Node) (index : Nat) (step : HandlerStep) : Except Unit Node :=
  match node.connections[index]? with
  | none => .error ()
  | some connection =>
      match node.nextPhase connection.client step connection.phase with
      | none => .error ()
      | some phase => .ok { node with
          connections := node.connections.set index (advanceConnection connection step phase)
          live := advanceLive node.live connection.client index step
          directory := node.advanceDirectory connection step }

/-! ## The watcher -/

/-- Close a connection, whoever does it. -/
def close (connection : Connection) : Connection :=
  { connection with closed := true }

/-- Keep account of an end that the watcher records. -/
def recordEnd (connection : Connection) : Connection :=
  { connection with endRecorded := true }

/-- Close the swept connections one by one and record the end of each. -/
def advanceWatcher (node : Node) : WatcherStep -> Except Unit Node
  | .readMetadata =>
      match node.watcher with
      | .sleeping =>
          let modified := node.file.map TrustFile.modified
          if modified = node.lastModified then .ok node else .ok { node with watcher := .polled modified }
      | _ => .error ()
  | .load readable =>
      match node.watcher with
      | .polled modified =>
          match node.load readable with
          | some book => .ok { node with watcher := .loaded book, lastModified := modified }
          | none => .ok { node with watcher := .sleeping }
      | _ => .error ()
  | .enforceTrust =>
      match node.watcher with
      | .loaded book => .ok { node with
          live := node.live.filter fun entry => book.isAllowed entry.1
          watcher := .closing (node.live.filter fun entry => !book.isAllowed entry.1) }
      | _ => .error ()
  | .close entry =>
      match node.watcher with
      | .closing pending =>
          if entry ∈ pending then .ok { node with
            connections := node.connections.modify entry.2 close
            watcher := .recording entry (pending.erase entry) }
          else .error ()
      | _ => .error ()
  | .recordDisconnect nowMs =>
      match node.watcher with
      | .recording entry pending => .ok { node with
          connections := node.connections.modify entry.2 recordEnd
          directory := node.directory.recordDisconnect entry.1 nowMs
          watcher := .closing pending }
      | _ => .error ()
  | .finish =>
      match node.watcher with
      | .closing [] => .ok { node with watcher := .sleeping }
      | _ => .error ()

/-- A step of a node. -/
def advance (step : NodeStep) (node : Node) : Except Unit Node :=
  match step with
  | .accept key modified => node.update (fun book => book.accept key) modified
  | .revokeKey key modified => node.update (fun book => book.revokeKey key) modified
  | .connect client label => .ok { node with
      connections := node.connections ++ [⟨client, label, .arrived, false, false, false⟩] }
  | .peerCloses index => .ok { node with connections := node.connections.modify index close }
  | .handler index step => node.advanceHandler index step
  | .watcher step => node.advanceWatcher step

/-- A node before its first connection. -/
structure Fresh (node : Node) : Prop where
  noConnection : node.connections = []
  noLive : node.live = []
  asleep : node.watcher = .sleeping

end Node
end Roaming
end AIBuddy
