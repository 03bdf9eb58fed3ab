import AIBuddy.Roaming.Revocation

namespace AIBuddy
namespace Roaming

/-!
# Counting live connections

The directory of a node counts the live connections of every peer.  The count is
compared here with the connections that were recorded as connected and whose end has
not been recorded.  The end of a connection may be recorded by its handler and by the
watcher, and each of them is enough to count the connection as ended.
-/

/-- The connection was recorded as connected, and its end has not been recorded. -/
def Connection.counted (peer : String) (connection : Connection) : Bool :=
  connection.client == peer && connection.wasRecorded && !connection.endRecorded

namespace Node

/-- The number of connections of a peer that were recorded and have not ended. -/
def liveCount (node : Node) (peer : String) : Nat :=
  node.connections.countP (Connection.counted peer)

/-- The directory counts the connections that were recorded and have not ended, and
reports a peer as connected exactly while there is one. -/
structure Balanced (node : Node) : Prop where
  count : forall peer, node.directory.liveConnections peer = node.liveCount peer
  connected : forall peer, node.directory.connected peer = decide (0 < node.liveCount peer)

/-- The end of a connection is recorded once, or while nothing of its peer is live. -/
def EndsOnce (node : Node) (index : Nat) : Prop :=
  forall connection, node.connections[index]? = some connection ->
    connection.counted connection.client = true ∨ node.liveCount connection.client = 0

/-- The start of a connection is recorded before its end is, and the count is not
exhausted. -/
def StartsFirst (node : Node) (index : Nat) : Prop :=
  forall connection, node.connections[index]? = some connection ->
    (connection.endRecorded = false ↔ node.liveCount connection.client < maxConnections)

/-- The condition on a step. -/
def Paired (node : Node) : NodeStep -> Prop
  | .handler index (.recordConnect _) => node.StartsFirst index
  | .handler index (.recordDisconnect _) => node.EndsOnce index
  | .watcher (.recordDisconnect _) =>
      match node.watcher with
      | .recording entry _ => node.EndsOnce entry.2
      | _ => True
  | _ => True

instance decidableEndsOnce (node : Node) (index : Nat) : Decidable (node.EndsOnce index) :=
  decidable_of_iff
    (forall connection, connection ∈ node.connections[index]? ->
      connection.counted connection.client = true ∨ node.liveCount connection.client = 0)
    Iff.rfl

instance decidableStartsFirst (node : Node) (index : Nat) : Decidable (node.StartsFirst index) :=
  decidable_of_iff
    (forall connection, connection ∈ node.connections[index]? ->
      (connection.endRecorded = false ↔ node.liveCount connection.client < maxConnections))
    Iff.rfl

instance decidablePaired (node : Node) (step : NodeStep) : Decidable (node.Paired step) := by
  unfold Paired
  split
  · infer_instance
  · infer_instance
  · split <;> infer_instance
  · infer_instance

/-! ## Counting -/

theorem countP_set_add {connections : List Connection} {index : Nat} {before : Connection}
    (found : connections[index]? = some before) (after : Connection) (peer : String) :
    (connections.set index after).countP (Connection.counted peer) + (before.counted peer).toNat =
      connections.countP (Connection.counted peer) + (after.counted peer).toNat := by
  rcases List.getElem?_eq_some_iff.mp found with ⟨inside, same⟩
  have least := List.boole_getElem_le_countP inside (p := Connection.counted peer)
  rw [same] at least
  rw [List.countP_set inside, same]
  generalize connections.countP (Connection.counted peer) = total at least ⊢
  cases isBefore : before.counted peer <;> cases isAfter : after.counted peer <;>
    simp [isBefore] at least ⊢ <;> omega

theorem countP_set_of_eq {connections : List Connection} {index : Nat} {before : Connection}
    (found : connections[index]? = some before) {after : Connection} {peer : String}
    (same : after.counted peer = before.counted peer) :
    (connections.set index after).countP (Connection.counted peer) =
      connections.countP (Connection.counted peer) := by
  have counts := countP_set_add found after peer
  rw [same] at counts
  omega

theorem modify_eq_set {connections : List Connection} {index : Nat} {before : Connection}
    (found : connections[index]? = some before) (change : Connection -> Connection) :
    connections.modify index change = connections.set index (change before) := by
  rw [List.modify_eq_set_getElem?, found]
  rfl

theorem countP_modify_of_eq (connections : List Connection) (index : Nat)
    {change : Connection -> Connection} {peer : String}
    (same : forall connection, (change connection).counted peer = Connection.counted peer connection) :
    (connections.modify index change).countP (Connection.counted peer) =
      connections.countP (Connection.counted peer) := by
  cases found : connections[index]? with
  | none => rw [List.modify_eq_self (List.getElem?_eq_none_iff.mp found)]
  | some before =>
      rw [modify_eq_set found]
      exact countP_set_of_eq found (same before)

theorem counted_of_ne {connection : Connection} {peer : String} (different : connection.client ≠ peer) :
    connection.counted peer = false := by
  simp [Connection.counted, different]

/-! ## What is kept along every run -/

end Node

namespace Phase

/-- The start of the connection is still to be recorded. -/
def beforeRecord : Phase -> Bool
  | arrived | rejected _ | authorized | acknowledged | registered | rechecked => true
  | _ => false

end Phase

namespace Watcher

/-- The connections that the watcher has taken out of the live map and whose ends it
has not recorded. -/
def taken : Watcher -> List (String × Nat)
  | .closing pending => pending
  | .recording entry pending => entry :: pending
  | _ => []

end Watcher

namespace Node

theorem beforeRecord_of_nextPhase {node : Node} {client : String} {step : HandlerStep} {phase next : Phase}
    (moved : node.nextPhase client step phase = some next) (waiting : next.beforeRecord = true) :
    phase.beforeRecord = true ∧ forall nowMs, step ≠ .recordConnect nowMs := by
  cases step with
  | authorize readable =>
      cases phase <;> simp only [nextPhase] at moved <;> try cases moved
      exact ⟨rfl, fun _ => HandlerStep.noConfusion⟩
  | recheck readable =>
      cases phase <;> simp only [nextPhase] at moved <;> try cases moved
      exact ⟨rfl, fun _ => HandlerStep.noConfusion⟩
  | registerLive | abandon | reject | acknowledge | recordConnect | serveStream | endStream | unregisterLive |
    closeRevoked | recordDisconnect =>
      cases phase <;> simp only [nextPhase] at moved <;> cases moved <;>
        first | exact ⟨rfl, fun _ => HandlerStep.noConfusion⟩ | cases waiting

/-- What holds of a node whatever has happened. -/
structure Accounted (node : Node) : Prop where
  coherent : node.directory.Coherent
  bounded : forall peer, node.directory.liveConnections peer ≤ maxConnections
  unrecorded : forall (index : Nat) connection, node.connections[index]? = some connection ->
    connection.phase.beforeRecord = true -> connection.wasRecorded = false
  owned : forall entry, entry ∈ node.live ∨ entry ∈ node.watcher.taken ->
    Exists fun connection => node.connections[entry.2]? = some connection ∧ connection.client = entry.1

theorem connection_advance {node next : Node} {step : NodeStep} (moved : advance step node = .ok next)
    {index : Nat} {before : Connection} (known : node.connections[index]? = some before) :
    Exists fun after => next.connections[index]? = some after ∧ after.client = before.client := by
  have inside := (List.getElem?_eq_some_iff.mp known).1
  have longer : node.connections.length ≤ next.connections.length := by
    cases step with
    | accept key time | revokeKey key time =>
        simp only [advance, update] at moved
        split at moved
        · cases moved
        · cases moved
          exact Nat.le_refl _
    | connect client label =>
        cases moved
        simp
    | peerCloses other =>
        cases moved
        simp
    | handler other handlerStep =>
        rcases advanceHandler_cases moved with ⟨_, _, _, _, rfl⟩
        simp
    | watcher watcherStep =>
        rcases advanceWatcher_cases moved with ⟨_, _, rfl | rfl⟩ | ⟨_, _, _, rfl⟩ | ⟨_, _, _, rfl⟩ |
          ⟨_, _, _, rfl⟩ | ⟨_, _, _, _, _, rfl⟩ | ⟨_, _, _, _, _, rfl⟩ | ⟨_, _, rfl⟩ <;> simp
  have found : next.connections[index]? = some next.connections[index] := List.getElem?_eq_getElem (by omega)
  refine ⟨_, found, ?_⟩
  rcases follows_of_advance moved found with ⟨unknown, _⟩ | ⟨earlier, known', follows⟩
  · rw [known] at unknown
    cases unknown
  · rw [known] at known'
    cases known'
    exact follows.client

/-- Whatever is in the live map or taken out of it was so before, or has just been
registered by its own handler. -/
theorem taken_of_advance {node next : Node} {step : NodeStep} (moved : advance step node = .ok next)
    {entry : String × Nat} (isTaken : entry ∈ next.live ∨ entry ∈ next.watcher.taken) :
    (entry ∈ node.live ∨ entry ∈ node.watcher.taken) ∨
      Exists fun connection => node.connections[entry.2]? = some connection ∧ connection.client = entry.1 := by
  cases step with
  | accept key time | revokeKey key time =>
      simp only [advance, update] at moved
      split at moved
      · cases moved
      · cases moved
        exact Or.inl isTaken
  | connect client label =>
      cases moved
      exact Or.inl isTaken
  | peerCloses other =>
      cases moved
      exact Or.inl isTaken
  | handler index handlerStep =>
      rcases advanceHandler_cases moved with ⟨before, _, known, _, rfl⟩
      rcases isTaken with inLive | inTaken
      · cases handlerStep with
        | registerLive =>
            rcases List.mem_append.mp inLive with earlier | isNew
            · exact Or.inl (Or.inl earlier)
            · rw [List.mem_singleton.mp isNew]
              exact Or.inr ⟨before, known, rfl⟩
        | unregisterLive => exact Or.inl (Or.inl (List.mem_of_mem_filter inLive))
        | authorize _ | abandon | reject | acknowledge | recheck _ | recordConnect _ | serveStream |
          endStream | closeRevoked | recordDisconnect _ => exact Or.inl (Or.inl inLive)
      · exact Or.inl (Or.inr inTaken)
  | watcher watcherStep =>
      rcases advanceWatcher_cases moved with ⟨_, phase, rfl | rfl⟩ | ⟨_, _, phase, rfl⟩ |
        ⟨_, _, phase, rfl⟩ | ⟨_, _, phase, rfl⟩ | ⟨taken, pending, _, phase, member, rfl⟩ |
        ⟨_, taken, pending, _, phase, rfl⟩ | ⟨_, phase, rfl⟩
      · exact Or.inl isTaken
      · exact Or.inl (isTaken.imp_right fun impossible => absurd impossible List.not_mem_nil)
      · exact Or.inl (isTaken.imp_right fun impossible => absurd impossible List.not_mem_nil)
      · exact Or.inl (isTaken.imp_right fun impossible => absurd impossible List.not_mem_nil)
      · rcases isTaken with kept | swept
        · exact Or.inl (Or.inl (List.mem_of_mem_filter kept))
        · exact Or.inl (Or.inl (List.mem_of_mem_filter swept))
      · rw [phase]
        refine Or.inl (isTaken.imp_right fun inTaken => ?_)
        rcases List.mem_cons.mp inTaken with same | inPending
        · rw [same]
          exact member
        · exact List.mem_of_mem_erase inPending
      · rw [phase]
        exact Or.inl (isTaken.imp_right fun inPending => List.mem_cons_of_mem _ inPending)
      · exact Or.inl (isTaken.imp_right fun impossible => absurd impossible List.not_mem_nil)

theorem record_of_advance {node next : Node} {step : NodeStep} (accounted : node.Accounted)
    (moved : advance step node = .ok next) :
    (next.directory = node.directory ∧ (forall peer, next.liveCount peer = node.liveCount peer) ∧
      node.Paired step) ∨
    (Exists fun index => Exists fun nowMs => Exists fun connection =>
      node.Paired step = node.StartsFirst index ∧ node.connections[index]? = some connection ∧
      connection.phase = .rechecked ∧
      next.connections =
        node.connections.set index (advanceConnection connection (.recordConnect nowMs) .recorded) ∧
      next.directory = node.directory.recordConnect connection.client connection.label .inbound
        (some node.agentId) nowMs) ∨
    (Exists fun index => Exists fun nowMs => Exists fun connection => Exists fun after : Connection =>
      node.Paired step = node.EndsOnce index ∧ node.connections[index]? = some connection ∧
      after.client = connection.client ∧ after.endRecorded = true ∧
      next.connections = node.connections.set index after ∧
      next.directory = node.directory.recordDisconnect connection.client nowMs) := by
  cases step with
  | accept key time | revokeKey key time =>
      simp only [advance, update] at moved
      split at moved
      · cases moved
      · cases moved
        exact Or.inl ⟨rfl, fun _ => rfl, trivial⟩
  | connect client label =>
      cases moved
      refine Or.inl ⟨rfl, fun peer => ?_, trivial⟩
      simp [liveCount, Connection.counted]
  | peerCloses index =>
      cases moved
      exact Or.inl ⟨rfl, fun peer => countP_modify_of_eq node.connections index (fun _ => rfl), trivial⟩
  | handler index handlerStep =>
      rcases advanceHandler_cases moved with ⟨connection, phase, known, phases, rfl⟩
      cases handlerStep with
      | recordConnect nowMs =>
          cases isPhase : connection.phase <;> rw [isPhase] at phases <;> cases phases
          exact Or.inr (Or.inl ⟨index, nowMs, connection, rfl, known, isPhase, rfl, rfl⟩)
      | recordDisconnect nowMs =>
          exact Or.inr (Or.inr ⟨index, nowMs, connection,
            advanceConnection connection (.recordDisconnect nowMs) phase, rfl, known, rfl, rfl, rfl, rfl⟩)
      | authorize _ | abandon | reject | acknowledge | registerLive | recheck _ | serveStream | endStream |
        unregisterLive | closeRevoked =>
          exact Or.inl ⟨rfl, fun peer => countP_set_of_eq known rfl, trivial⟩
  | watcher watcherStep =>
      rcases advanceWatcher_cases moved with ⟨rfl, phase, rfl | rfl⟩ | ⟨_, rfl, phase, rfl⟩ |
        ⟨_, rfl, phase, rfl⟩ | ⟨_, rfl, phase, rfl⟩ | ⟨taken, _, rfl, phase, _, rfl⟩ |
        ⟨nowMs, taken, pending, rfl, phase, rfl⟩ | ⟨rfl, phase, rfl⟩
      · exact Or.inl ⟨rfl, fun _ => rfl, trivial⟩
      · exact Or.inl ⟨rfl, fun _ => rfl, trivial⟩
      · exact Or.inl ⟨rfl, fun _ => rfl, trivial⟩
      · exact Or.inl ⟨rfl, fun _ => rfl, trivial⟩
      · exact Or.inl ⟨rfl, fun _ => rfl, trivial⟩
      · exact Or.inl ⟨rfl, fun peer => countP_modify_of_eq node.connections taken.2 (fun _ => rfl), trivial⟩
      · have isTaken : taken ∈ node.watcher.taken := by
          rw [phase]
          exact List.mem_cons_self
        rcases accounted.owned taken (Or.inr isTaken) with ⟨connection, known, isClient⟩
        refine Or.inr (Or.inr ⟨taken.2, nowMs, connection, recordEnd connection, ?_, known, rfl, rfl, ?_, ?_⟩)
        · simp only [Paired, phase]
        · exact modify_eq_set known recordEnd
        · rw [isClient]
      · exact Or.inl ⟨rfl, fun _ => rfl, trivial⟩

theorem accounted_advance {node next : Node} {step : NodeStep} (accounted : node.Accounted)
    (moved : advance step node = .ok next) : next.Accounted := by
  have unrecorded : forall (index : Nat) connection, next.connections[index]? = some connection ->
      connection.phase.beforeRecord = true -> connection.wasRecorded = false := by
    intro index after found waiting
    rcases follows_of_advance moved found with ⟨_, _, isNew⟩ | ⟨before, known, follows⟩
    · exact isNew
    · rcases follows.recorded with same | ⟨nowMs, isStart⟩
      · rw [same]
        apply accounted.unrecorded index before known
        rcases follows.phase with samePhase | ⟨handlerStep, _, phases⟩
        · rw [← samePhase]
          exact waiting
        · exact (beforeRecord_of_nextPhase phases waiting).1
      · subst isStart
        exact absurd rfl ((beforeRecord_of_nextPhase (phase_of_handler moved known found) waiting).2 nowMs)
  have owned : forall entry, entry ∈ next.live ∨ entry ∈ next.watcher.taken ->
      Exists fun connection => next.connections[entry.2]? = some connection ∧ connection.client = entry.1 := by
    intro entry isTaken
    have before : Exists fun connection =>
        node.connections[entry.2]? = some connection ∧ connection.client = entry.1 := by
      rcases taken_of_advance moved isTaken with earlier | isOwn
      · exact accounted.owned entry earlier
      · exact isOwn
    rcases before with ⟨connection, known, isClient⟩
    rcases connection_advance moved known with ⟨after, found, sameClient⟩
    exact ⟨after, found, sameClient.trans isClient⟩
  rcases record_of_advance accounted moved with ⟨same, _⟩ |
    ⟨index, nowMs, connection, _, _, _, _, started⟩ | ⟨index, nowMs, connection, after, _, _, _, _, _, ended⟩
  · refine ⟨?_, ?_, unrecorded, owned⟩
    · rw [same]
      exact accounted.coherent
    · rw [same]
      exact accounted.bounded
  · refine ⟨?_, ?_, unrecorded, owned⟩
    · rw [started]
      exact accounted.coherent.recordConnect _ _ _ _ _
    · intro peer
      rw [started, Directory.liveConnections_recordConnect]
      split
      · exact Nat.min_le_right _ _
      · exact accounted.bounded peer
  · refine ⟨?_, ?_, unrecorded, owned⟩
    · rw [ended]
      exact accounted.coherent.recordDisconnect _ _
    · intro peer
      rw [ended, Directory.liveConnections_recordDisconnect]
      split
      · exact Nat.le_trans (Nat.sub_le _ _) (accounted.bounded connection.client)
      · exact accounted.bounded peer

/-! ## Balance -/

theorem Accounted.balanced_iff {node : Node} (accounted : node.Accounted) :
    node.Balanced ↔ forall peer, node.directory.liveConnections peer = node.liveCount peer := by
  constructor
  · intro balanced
    exact balanced.count
  · intro count
    refine ⟨count, ?_⟩
    intro peer
    rw [accounted.coherent.connected_eq, count]

section Records

variable {node next : Node} {index : Nat} {before after : Connection}

theorem liveCount_set_of_ne (known : node.connections[index]? = some before)
    (sameClient : after.client = before.client) (isSet : next.connections = node.connections.set index after)
    {peer : String} (different : peer ≠ before.client) : next.liveCount peer = node.liveCount peer := by
  rw [liveCount, isSet]
  apply countP_set_of_eq known
  rw [counted_of_ne (Ne.symm different), counted_of_ne (sameClient ▸ Ne.symm different)]

theorem balanced_start_iff (accounted : node.Accounted) (nextAccounted : next.Accounted)
    (balanced : node.Balanced) {nowMs : Nat} (known : node.connections[index]? = some before)
    (isPhase : before.phase = .rechecked)
    (isSet : next.connections =
      node.connections.set index (advanceConnection before (.recordConnect nowMs) .recorded))
    (started : next.directory = node.directory.recordConnect before.client before.label .inbound
      (some node.agentId) nowMs) :
    next.Balanced ↔ node.StartsFirst index := by
  have notYet : before.wasRecorded = false := accounted.unrecorded index before known (by rw [isPhase]; rfl)
  have uncounted : before.counted before.client = false := by simp [Connection.counted, notYet]
  have counted : (advanceConnection before (.recordConnect nowMs) .recorded).counted before.client =
      !before.endRecorded := by
    simp [Connection.counted, advanceConnection]
  have counts := countP_set_add known (advanceConnection before (.recordConnect nowMs) .recorded) before.client
  rw [← isSet, uncounted, counted] at counts
  change next.liveCount before.client + 0 = node.liveCount before.client + _ at counts
  have room := accounted.bounded before.client
  rw [balanced.count] at room
  rw [nextAccounted.balanced_iff]
  constructor
  · intro count connection found
    rw [known] at found
    cases found
    have atClient := count before.client
    rw [started, Directory.liveConnections_recordConnect, if_pos rfl, balanced.count] at atClient
    cases isEnd : before.endRecorded <;> rw [isEnd] at counts <;>
      simp only [Bool.not_false, Bool.not_true, Bool.toNat_true, Bool.toNat_false] at counts <;>
      simp only [Bool.true_eq_false, false_iff, true_iff] <;> omega
  · intro startsFirst peer
    rw [started, Directory.liveConnections_recordConnect]
    by_cases same : peer = before.client
    · subst same
      have condition := startsFirst before known
      rw [if_pos rfl, balanced.count]
      cases isEnd : before.endRecorded <;> rw [isEnd] at counts condition <;>
        simp only [Bool.not_false, Bool.not_true, Bool.toNat_true, Bool.toNat_false] at counts <;>
        simp only [Bool.true_eq_false, false_iff, true_iff] at condition <;> omega
    · have sameClient : (advanceConnection before (.recordConnect nowMs) .recorded).client =
          before.client := rfl
      rw [if_neg same, balanced.count]
      exact (liveCount_set_of_ne known sameClient isSet same).symm

theorem balanced_end_iff (nextAccounted : next.Accounted) (balanced : node.Balanced) {nowMs : Nat}
    (known : node.connections[index]? = some before) (sameClient : after.client = before.client)
    (isEnded : after.endRecorded = true) (isSet : next.connections = node.connections.set index after)
    (ended : next.directory = node.directory.recordDisconnect before.client nowMs) :
    next.Balanced ↔ node.EndsOnce index := by
  have uncounted : after.counted before.client = false := by simp [Connection.counted, isEnded]
  have counts := countP_set_add known after before.client
  rw [← isSet, uncounted] at counts
  change next.liveCount before.client + _ = node.liveCount before.client + 0 at counts
  rw [nextAccounted.balanced_iff]
  constructor
  · intro count connection found
    rw [known] at found
    cases found
    have atClient := count before.client
    rw [ended, Directory.liveConnections_recordDisconnect, if_pos rfl, balanced.count] at atClient
    cases isCounted : before.counted before.client with
    | true => exact Or.inl rfl
    | false =>
        rw [isCounted, Bool.toNat_false] at counts
        exact Or.inr (by omega)
  · intro endsOnce peer
    rw [ended, Directory.liveConnections_recordDisconnect]
    by_cases same : peer = before.client
    · subst same
      rw [if_pos rfl, balanced.count]
      rcases endsOnce before known with isCounted | nothing
      · rw [isCounted, Bool.toNat_true] at counts
        omega
      · omega
    · rw [if_neg same, balanced.count]
      exact (liveCount_set_of_ne known sameClient isSet same).symm

end Records

theorem balanced_advance_iff {node next : Node} {step : NodeStep} (accounted : node.Accounted)
    (balanced : node.Balanced) (moved : advance step node = .ok next) : next.Balanced ↔ node.Paired step := by
  have nextAccounted := accounted_advance accounted moved
  rcases record_of_advance accounted moved with ⟨same, counts, paired⟩ |
    ⟨index, nowMs, connection, condition, known, isPhase, isSet, started⟩ |
    ⟨index, nowMs, connection, after, condition, known, sameClient, isEnded, isSet, ended⟩
  · refine iff_of_true ?_ paired
    rw [nextAccounted.balanced_iff]
    intro peer
    rw [same, counts, balanced.count]
  · rw [condition]
    exact balanced_start_iff accounted nextAccounted balanced known isPhase isSet started
  · rw [condition]
    exact balanced_end_iff nextAccounted balanced known sameClient isEnded isSet ended

/-! ## Every run -/

/-- A directory that no connection has been recorded in yet. -/
structure Idle (directory : Directory) : Prop where
  coherent : directory.Coherent
  nothing : forall peer, directory.liveConnections peer = 0

theorem Fresh.accounted {node : Node} (fresh : node.Fresh) (idle : Idle node.directory) : node.Accounted := by
  refine ⟨idle.coherent, ?_, ?_, ?_⟩
  · intro peer
    rw [idle.nothing]
    exact Nat.zero_le _
  · intro index connection found
    rw [fresh.noConnection] at found
    cases found
  · intro entry isTaken
    rw [fresh.noLive, fresh.asleep] at isTaken
    rcases isTaken with impossible | impossible <;> cases impossible

theorem Fresh.balanced {node : Node} (fresh : node.Fresh) (idle : Idle node.directory) : node.Balanced := by
  rw [(fresh.accounted idle).balanced_iff]
  intro peer
  rw [idle.nothing, liveCount, fresh.noConnection]
  rfl

/-- In every run whose records are paired, the directory counts the connections of a
peer that were recorded as connected and have not ended, and reports the peer as
connected exactly while there is one. -/
theorem live_count_balanced {start last : Node} {steps : List NodeStep} (fresh : start.Fresh)
    (idle : Idle start.directory) (paired : Runs.Along advance Paired steps start)
    (reached : Runs.run advance steps start = .ok last) : last.Balanced := by
  have both := @Runs.run_invariant _ _ _ advance Paired (fun node => node.Accounted ∧ node.Balanced)
    (fun _ _ _ paired held moved =>
      ⟨accounted_advance held.1 moved, (balanced_advance_iff held.1 held.2 moved).mpr paired⟩)
    _ _ _ paired ⟨fresh.accounted idle, fresh.balanced idle⟩ reached
  exact both.2

theorem quiet_idle : Idle quiet.directory := by
  refine ⟨⟨?_, ?_⟩, fun _ => rfl⟩
  · intro peer entry found
    cases found
  · intro peer entry found
    cases found

/-- A peer that comes, is served and leaves is counted all along. -/
theorem visit_balanced : (after (session ++ departure)).Balanced :=
  @live_count_balanced quiet _ (session ++ departure) ⟨rfl, rfl, rfl⟩ quiet_idle (by decide +kernel) rfl

/-- The peer is revoked and swept while it is served, accepted again, and let in on a
second connection before the handler of the first one goes home. -/
def returningPeer : List NodeStep :=
  session ++ [.revokeKey "peer" 2, .watcher .readMetadata, .watcher (.load true)] ++ sweepOne ++
    [.accept "peer" 3, .connect "peer" none, .handler 1 (.authorize true), .handler 1 .acknowledge,
      .handler 1 .registerLive, .handler 1 (.recheck true), .handler 1 (.recordConnect 7)] ++ departure

/-- The end of the first connection is recorded twice, and the second, live connection
goes uncounted. -/
theorem live_connection_uncounted :
    (after returningPeer).liveCount "peer" = 1 ∧
      (after returningPeer).directory.liveConnections "peer" = 0 ∧
      (after returningPeer).directory.connected "peer" = false := by
  decide +kernel

end Node
end Roaming
end AIBuddy
