import AIBuddy.Roaming.Directory
import AIBuddy.Support.Runs

namespace AIBuddy
namespace Roaming

/-!
# Processes sharing one directory file

Every process keeps its own directory and merges it into the file whenever it
records the start or the end of a connection.  A record and the flush behind it
happen under the lock of the process's map, and the flush under the lock of the
file, so that they are one step here.  The clock never runs backwards, and several
steps may see the same time.
-/

/-- The file, the directories of the processes that have started, and the time of
the last step. -/
structure Shared where
  file : Directory
  processes : List Directory
  clockMs : Nat

inductive DirectoryCall where
  | start
  | recordConnect (process : Nat) (endpointId : String) (label : Option String) (direction : Direction)
      (agentId : Option String) (nowMs : Nat)
  | recordDisconnect (process : Nat) (endpointId : String) (nowMs : Nat)
deriving Repr

namespace Shared

/-- A process changes its directory and flushes it. -/
def record (shared : Shared) (process nowMs : Nat) (change : Directory -> Directory) : Except Unit Shared :=
  match shared.processes[process]? with
  | some directory =>
      if shared.clockMs ≤ nowMs then
        .ok { file := Directory.flush (change directory) shared.file
              processes := shared.processes.set process (change directory)
              clockMs := nowMs }
      else .error ()
  | none => .error ()

/-- The change that a call makes to the directory of its process. -/
def change : DirectoryCall -> Directory -> Directory
  | .start, directory => directory
  | .recordConnect _ endpointId label direction agentId nowMs, directory =>
      directory.recordConnect endpointId label direction agentId nowMs
  | .recordDisconnect _ endpointId nowMs, directory => directory.recordDisconnect endpointId nowMs

def advance (call : DirectoryCall) (shared : Shared) : Except Unit Shared :=
  match call with
  | .start => .ok { shared with processes := shared.processes ++ [Directory.persistent shared.file] }
  | .recordConnect process _ _ _ _ nowMs => shared.record process nowMs (change call)
  | .recordDisconnect process _ nowMs => shared.record process nowMs (change call)

/-! ## What the file should say -/

/-- Some process has a live connection with the peer. -/
def Live (shared : Shared) (endpointId : String) : Prop :=
  Exists fun directory => directory ∈ shared.processes ∧ 0 < directory.liveConnections endpointId

/-- Some other process has a live connection with the peer. -/
def LiveElsewhere (shared : Shared) (process : Nat) (endpointId : String) : Prop :=
  Exists fun other => Exists fun directory =>
    other ≠ process ∧ shared.processes[other]? = some directory ∧ 0 < directory.liveConnections endpointId

/-- The stored entry of every peer is connected exactly when some process has a live
connection with it. -/
def Reported (shared : Shared) : Prop :=
  forall endpointId, shared.file.connected endpointId = true ↔ shared.Live endpointId

/-- Every peer recorded by a process is in the file. -/
def Known (shared : Shared) : Prop :=
  forall directory, directory ∈ shared.processes -> forall endpointId,
    (directory.find? endpointId).isSome = true -> (shared.file.find? endpointId).isSome = true

/-- A file that no process has opened yet, and that reports nobody as connected. -/
structure Fresh (shared : Shared) : Prop where
  unopened : shared.processes = []
  keyed : forall endpointId entry, shared.file.find? endpointId = some entry -> entry.endpointId = endpointId
  silent : forall endpointId, shared.file.connected endpointId = false

/-- The stored entry of a peer is kept when an entry of a process is merged. -/
def Keeps (shared : Shared) (entry : PeerEntry) (endpointId : String) : Prop :=
  Exists fun existing => shared.file.find? endpointId = some existing ∧ entry.lastSeenMs ≤ existing.lastSeenMs

/-- What a flush must find for the entries it writes without a live connection of the
process itself.  A stored entry that is kept must not be about the connection that
has just ended, and one that is replaced must not be about another process. -/
def Settles (shared : Shared) (call : DirectoryCall) (process : Nat) : Prop :=
  forall directory, shared.processes[process]? = some directory -> forall endpointId entry,
    (change call directory).find? endpointId = some entry -> entry.liveConnections = 0 ->
      (shared.Keeps entry endpointId -> 0 < directory.liveConnections endpointId ->
        shared.LiveElsewhere process endpointId) ∧
      (¬ shared.Keeps entry endpointId -> ¬ shared.LiveElsewhere process endpointId)

/-- The condition on a call. -/
def Orderly (shared : Shared) (call : DirectoryCall) : Prop :=
  match call with
  | .start => True
  | .recordConnect process _ _ _ _ _ => shared.Settles call process
  | .recordDisconnect process _ _ => shared.Settles call process

instance decidableLiveElsewhere (shared : Shared) (process : Nat) (endpointId : String) :
    Decidable (shared.LiveElsewhere process endpointId) :=
  decidable_of_iff
    (Exists fun other => other < shared.processes.length ∧ other ≠ process ∧
      Exists fun directory => directory ∈ shared.processes[other]? ∧
        0 < directory.liveConnections endpointId)
    (by
      constructor
      · rintro ⟨other, _, different, directory, found, live⟩
        exact ⟨other, directory, different, found, live⟩
      · rintro ⟨other, directory, different, found, live⟩
        exact ⟨other, (List.getElem?_eq_some_iff.mp found).1, different, directory, found, live⟩)

instance decidableKeeps (shared : Shared) (entry : PeerEntry) (endpointId : String) :
    Decidable (shared.Keeps entry endpointId) :=
  decidable_of_iff
    (Exists fun existing => existing ∈ shared.file.find? endpointId ∧ entry.lastSeenMs ≤ existing.lastSeenMs)
    Iff.rfl

instance decidableSettles (shared : Shared) (call : DirectoryCall) (process : Nat) :
    Decidable (shared.Settles call process) :=
  decidable_of_iff
    (forall directory, directory ∈ shared.processes[process]? ->
      forall item, item ∈ (change call directory).entries -> item.2.liveConnections = 0 ->
        (shared.Keeps item.2 item.1 -> 0 < directory.liveConnections item.1 ->
          shared.LiveElsewhere process item.1) ∧
        (¬ shared.Keeps item.2 item.1 -> ¬ shared.LiveElsewhere process item.1))
    (by
      constructor
      · intro each directory found endpointId entry own idle
        exact each directory found (endpointId, entry) (Table.mem_of_find? _ own) idle
      · intro each directory found item member idle
        exact each directory found item.1 item.2 (Table.find?_eq_some_of_mem _ member) idle)

instance decidableOrderly (shared : Shared) (call : DirectoryCall) : Decidable (shared.Orderly call) :=
  match call with
  | .start => .isTrue trivial
  | .recordConnect process _ _ _ _ _ => decidableSettles shared _ process
  | .recordDisconnect process _ _ => decidableSettles shared _ process

/-! ## One call -/

theorem change_coherent {directory : Directory} (coherent : directory.Coherent) (call : DirectoryCall) :
    (change call directory).Coherent := by
  cases call with
  | start => exact coherent
  | recordConnect process endpointId label direction agentId nowMs =>
      exact coherent.recordConnect endpointId label direction agentId nowMs
  | recordDisconnect process endpointId nowMs => exact coherent.recordDisconnect endpointId nowMs

theorem change_keeps {directory : Directory} {call : DirectoryCall} {endpointId : String}
    (known : (directory.find? endpointId).isSome = true) :
    ((change call directory).find? endpointId).isSome = true := by
  cases call with
  | start => exact known
  | recordConnect process peer label direction agentId nowMs =>
      simp only [change, Directory.find?_recordConnect]
      split
      · rfl
      · exact known
  | recordDisconnect process peer nowMs =>
      simp only [change, Directory.find?_recordDisconnect]
      split
      · rename_i same
        rw [Option.isSome_map, ← same]
        exact known
      · exact known

theorem advance_cases {call : DirectoryCall} {shared next : Shared} (moved : advance call shared = .ok next) :
    (call = .start ∧ next = { shared with processes := shared.processes ++ [Directory.persistent shared.file] }) ∨
      Exists fun process => Exists fun directory => Exists fun nowMs =>
        (shared.Orderly call = shared.Settles call process) ∧
        shared.processes[process]? = some directory ∧
        next = { file := Directory.flush (change call directory) shared.file
                 processes := shared.processes.set process (change call directory)
                 clockMs := nowMs } := by
  have recorded : forall process nowMs, shared.record process nowMs (change call) = .ok next ->
      Exists fun directory => shared.processes[process]? = some directory ∧
        next = { file := Directory.flush (change call directory) shared.file
                 processes := shared.processes.set process (change call directory)
                 clockMs := nowMs } := by
    intro process nowMs done
    rw [record] at done
    cases found : shared.processes[process]? with
    | none => simp [found] at done
    | some directory =>
        simp only [found] at done
        split at done
        · cases done
          exact ⟨directory, rfl, rfl⟩
        · cases done
  cases call with
  | start =>
      cases moved
      exact Or.inl ⟨rfl, rfl⟩
  | recordConnect process endpointId label direction agentId nowMs =>
      rcases recorded process nowMs moved with ⟨directory, found, same⟩
      exact Or.inr ⟨process, directory, nowMs, rfl, found, same⟩
  | recordDisconnect process endpointId nowMs =>
      rcases recorded process nowMs moved with ⟨directory, found, same⟩
      exact Or.inr ⟨process, directory, nowMs, rfl, found, same⟩

/-- What holds of the file and the directories whatever the calls are. -/
structure Sound (shared : Shared) : Prop where
  keyed : forall endpointId entry, shared.file.find? endpointId = some entry -> entry.endpointId = endpointId
  coherent : forall directory, directory ∈ shared.processes -> directory.Coherent
  known : shared.Known

theorem find?_persistent_isSome (file : Directory) (endpointId : String) :
    ((Directory.persistent file).find? endpointId).isSome = (file.find? endpointId).isSome := by
  rw [Directory.persistent, Table.find?_map, Option.isSome_map]

theorem find?_flush_isSome {directory : Directory} (coherent : directory.Coherent) (file : Directory)
    (endpointId : String) :
    ((Directory.flush directory file).find? endpointId).isSome =
      ((directory.find? endpointId).isSome || (file.find? endpointId).isSome) := by
  rw [Directory.find?_flush coherent, Option.isSome_map]
  cases directory.find? endpointId with
  | none => simp [Directory.mergedEntry]
  | some entry =>
      cases file.find? endpointId with
      | none => rfl
      | some existing =>
          simp only [Directory.mergedEntry]
          split <;> rfl

theorem flush_keyed {directory file : Directory} (coherent : directory.Coherent)
    (keyed : forall endpointId entry, file.find? endpointId = some entry -> entry.endpointId = endpointId)
    (endpointId : String) (entry : PeerEntry)
    (found : (Directory.flush directory file).find? endpointId = some entry) : entry.endpointId = endpointId := by
  rw [Directory.find?_flush coherent] at found
  rcases Option.map_eq_some_iff.mp found with ⟨merged, isMerged, rfl⟩
  cases own : directory.find? endpointId with
  | none =>
      rw [own] at isMerged
      exact keyed endpointId merged isMerged
  | some mine =>
      have mineKeyed := coherent.keyed endpointId mine own
      rw [own] at isMerged
      cases stored : file.find? endpointId with
      | none =>
          rw [stored] at isMerged
          cases isMerged
          exact mineKeyed
      | some existing =>
          rw [stored] at isMerged
          simp only [Directory.mergedEntry] at isMerged
          split at isMerged
          · cases isMerged
            have storedKeyed := keyed endpointId _ stored
            exact storedKeyed
          · cases isMerged
            exact mineKeyed

theorem advance_sound {call : DirectoryCall} {shared next : Shared} (sound : shared.Sound)
    (moved : advance call shared = .ok next) : next.Sound := by
  rcases advance_cases moved with ⟨_, rfl⟩ | ⟨process, directory, nowMs, _, found, rfl⟩
  · refine ⟨sound.keyed, ?_, ?_⟩
    · intro directory member
      rcases List.mem_append.mp member with earlier | isNew
      · exact sound.coherent directory earlier
      · rw [List.mem_singleton.mp isNew]
        exact Directory.persistent_coherent sound.keyed
    · intro directory member endpointId known
      rcases List.mem_append.mp member with earlier | isNew
      · exact sound.known directory earlier endpointId known
      · rw [List.mem_singleton.mp isNew, find?_persistent_isSome] at known
        exact known
  · have coherent := change_coherent (sound.coherent directory (List.mem_of_getElem? found)) call
    refine ⟨flush_keyed coherent sound.keyed, ?_, ?_⟩
    · intro other member
      rcases List.mem_or_eq_of_mem_set member with earlier | isNew
      · exact sound.coherent other earlier
      · rw [isNew]
        exact coherent
    · intro other member endpointId known
      rw [find?_flush_isSome coherent, Bool.or_eq_true]
      rcases List.mem_or_eq_of_mem_set member with earlier | isNew
      · exact Or.inr (sound.known other earlier endpointId known)
      · rw [isNew] at known
        exact Or.inl known

/-! ## What a flush reports -/

theorem live_iff {shared : Shared} {process : Nat} {directory : Directory}
    (found : shared.processes[process]? = some directory) (endpointId : String) :
    shared.Live endpointId ↔
      0 < directory.liveConnections endpointId ∨ shared.LiveElsewhere process endpointId := by
  constructor
  · rintro ⟨other, member, live⟩
    rcases List.mem_iff_getElem?.mp member with ⟨index, atIndex⟩
    by_cases same : index = process
    · rw [same, found] at atIndex
      cases atIndex
      exact Or.inl live
    · exact Or.inr ⟨index, other, same, atIndex, live⟩
  · rintro (live | ⟨index, other, _, atIndex, live⟩)
    · exact ⟨directory, List.mem_of_getElem? found, live⟩
    · exact ⟨other, List.mem_of_getElem? atIndex, live⟩

section Flush

variable {shared : Shared} {process : Nat} {directory changed : Directory} {nowMs : Nat}

theorem liveElsewhere_set (file : Directory) (endpointId : String) :
    LiveElsewhere ⟨file, shared.processes.set process changed, nowMs⟩ process endpointId ↔
      shared.LiveElsewhere process endpointId := by
  simp only [LiveElsewhere]
  constructor
  · rintro ⟨index, other, different, atIndex, live⟩
    rw [List.getElem?_set_ne (Ne.symm different)] at atIndex
    exact ⟨index, other, different, atIndex, live⟩
  · rintro ⟨index, other, different, atIndex, live⟩
    refine ⟨index, other, different, ?_, live⟩
    rw [List.getElem?_set_ne (Ne.symm different)]
    exact atIndex

theorem live_set_iff (found : shared.processes[process]? = some directory) (file : Directory)
    (endpointId : String) :
    Live ⟨file, shared.processes.set process changed, nowMs⟩ endpointId ↔
      0 < changed.liveConnections endpointId ∨ shared.LiveElsewhere process endpointId := by
  have inside : process < shared.processes.length := (List.getElem?_eq_some_iff.mp found).1
  have atProcess : (Shared.mk file (shared.processes.set process changed) nowMs).processes[process]? =
      some changed := List.getElem?_set_self inside
  rw [live_iff atProcess, liveElsewhere_set]

/-- A peer that the process has no entry of is reported as before. -/
theorem connected_flush_of_unknown (coherent : changed.Coherent) {endpointId : String}
    (unknown : changed.find? endpointId = none) :
    (Directory.flush changed shared.file).connected endpointId = shared.file.connected endpointId := by
  rw [Directory.connected, Directory.find?_flush coherent, unknown, Directory.connected]
  cases shared.file.find? endpointId <;> rfl

theorem connected_flush_of_live (coherent : changed.Coherent) {endpointId : String} {entry : PeerEntry}
    (found : changed.find? endpointId = some entry) (live : 0 < entry.liveConnections) :
    (Directory.flush changed shared.file).connected endpointId = true := by
  have reported : entry.connected = true := by
    rw [coherent.reported endpointId entry found]
    exact decide_eq_true live
  have busy : ¬ entry.liveConnections = 0 := Nat.pos_iff_ne_zero.mp live
  rw [Directory.connected, Directory.find?_flush coherent, found]
  cases shared.file.find? endpointId with
  | none => exact reported
  | some existing =>
      simp only [Directory.mergedEntry, busy, false_and, if_false]
      exact reported

theorem connected_flush_of_kept (coherent : changed.Coherent) {endpointId : String} {entry : PeerEntry}
    (found : changed.find? endpointId = some entry) (idle : entry.liveConnections = 0)
    (kept : shared.Keeps entry endpointId) :
    (Directory.flush changed shared.file).connected endpointId = shared.file.connected endpointId := by
  rcases kept with ⟨existing, stored, fresh⟩
  rw [Directory.connected, Directory.find?_flush coherent, found, stored, Directory.connected, stored]
  simp only [Directory.mergedEntry, idle, fresh, and_self, if_true]
  rfl

theorem connected_flush_of_replaced (coherent : changed.Coherent) {endpointId : String} {entry : PeerEntry}
    (found : changed.find? endpointId = some entry) (idle : entry.liveConnections = 0)
    (replaced : ¬ shared.Keeps entry endpointId) :
    (Directory.flush changed shared.file).connected endpointId = false := by
  have reported : entry.connected = false := by
    rw [coherent.reported endpointId entry found, idle]
    rfl
  rw [Directory.connected, Directory.find?_flush coherent, found]
  cases stored : shared.file.find? endpointId with
  | none => exact reported
  | some existing =>
      have stale : ¬ entry.lastSeenMs ≤ existing.lastSeenMs := fun fresh => replaced ⟨existing, stored, fresh⟩
      simp only [Directory.mergedEntry, stale, and_false, if_false]
      exact reported

end Flush

theorem liveConnections_of_find? {directory : Directory} {endpointId : String} {entry : PeerEntry}
    (found : directory.find? endpointId = some entry) :
    directory.liveConnections endpointId = entry.liveConnections := by
  rw [Directory.liveConnections, found]

theorem reported_flush_iff {call : DirectoryCall} {shared : Shared} {process : Nat} {directory : Directory}
    (sound : shared.Sound) (reported : shared.Reported)
    (found : shared.processes[process]? = some directory) (nowMs : Nat) :
    Reported { file := Directory.flush (change call directory) shared.file
               processes := shared.processes.set process (change call directory)
               clockMs := nowMs } ↔
      shared.Settles call process := by
  have coherent := change_coherent (sound.coherent directory (List.mem_of_getElem? found)) call
  have before : forall endpointId, shared.file.connected endpointId = true ↔
      0 < directory.liveConnections endpointId ∨ shared.LiveElsewhere process endpointId := by
    intro endpointId
    rw [reported endpointId, live_iff found]
  constructor
  · intro after directory' found' endpointId entry own idle
    rw [found] at found'
    cases found'
    have reportedAfter := after endpointId
    rw [live_set_iff found, liveConnections_of_find? own, idle] at reportedAfter
    constructor
    · intro kept live
      rw [connected_flush_of_kept coherent own idle kept, before] at reportedAfter
      exact (reportedAfter.mp (Or.inl live)).resolve_left (Nat.lt_irrefl 0)
    · intro replaced elsewhere
      rw [connected_flush_of_replaced coherent own idle replaced] at reportedAfter
      exact Bool.false_ne_true (reportedAfter.mpr (Or.inr elsewhere))
  · intro settles endpointId
    rw [live_set_iff found]
    cases own : (change call directory).find? endpointId with
    | none =>
        have unknown : directory.find? endpointId = none := by
          rw [← Option.not_isSome_iff_eq_none]
          intro known
          have kept : ((change call directory).find? endpointId).isSome = true := change_keeps known
          rw [own] at kept
          exact Bool.false_ne_true kept
        rw [connected_flush_of_unknown coherent own, before, Directory.liveConnections, unknown,
          Directory.liveConnections, own]
    | some entry =>
        rw [liveConnections_of_find? own]
        by_cases idle : entry.liveConnections = 0
        · have settled := settles directory found endpointId entry own idle
          by_cases kept : shared.Keeps entry endpointId
          · rw [connected_flush_of_kept coherent own idle kept, before, idle]
            constructor
            · rintro (live | elsewhere)
              · exact Or.inr (settled.1 kept live)
              · exact Or.inr elsewhere
            · rintro (impossible | elsewhere)
              · exact absurd impossible (Nat.lt_irrefl 0)
              · exact Or.inr elsewhere
          · rw [connected_flush_of_replaced coherent own idle kept, idle]
            have nowhere := settled.2 kept
            simp [nowhere]
        · have live : 0 < entry.liveConnections := Nat.pos_of_ne_zero idle
          rw [connected_flush_of_live coherent own live]
          simp [live]

theorem reported_start {shared : Shared} (reported : shared.Reported) :
    Reported { shared with processes := shared.processes ++ [Directory.persistent shared.file] } := by
  have idle : forall endpointId, (Directory.persistent shared.file).liveConnections endpointId = 0 := by
    intro endpointId
    rw [Directory.liveConnections, Directory.persistent, Table.find?_map]
    cases shared.file.find? endpointId <;> rfl
  intro endpointId
  have same := reported endpointId
  simp only [Live, List.mem_append, List.mem_singleton] at same ⊢
  rw [same]
  constructor
  · rintro ⟨directory, member, live⟩
    exact ⟨directory, Or.inl member, live⟩
  · rintro ⟨directory, earlier | isNew, live⟩
    · exact ⟨directory, earlier, live⟩
    · rw [isNew, idle] at live
      exact absurd live (Nat.lt_irrefl 0)

theorem advance_reported_iff {call : DirectoryCall} {shared next : Shared} (sound : shared.Sound)
    (reported : shared.Reported) (moved : advance call shared = .ok next) :
    next.Reported ↔ shared.Orderly call := by
  rcases advance_cases moved with ⟨rfl, rfl⟩ | ⟨process, directory, nowMs, condition, found, rfl⟩
  · exact iff_of_true (reported_start reported) trivial
  · rw [condition]
    exact reported_flush_iff sound reported found nowMs

/-! ## All calls -/

theorem Fresh.sound {shared : Shared} (fresh : shared.Fresh) : shared.Sound := by
  have noProcess : forall directory, directory ∉ shared.processes := by
    rw [fresh.unopened]
    exact fun _ => List.not_mem_nil
  exact ⟨fresh.keyed, fun directory member => absurd member (noProcess directory),
    fun directory member => absurd member (noProcess directory)⟩

theorem Fresh.reported {shared : Shared} (fresh : shared.Fresh) : shared.Reported := by
  intro endpointId
  rw [fresh.silent, Live, fresh.unopened]
  simp

/-- From a fresh file, whatever the calls of the processes are, no recorded peer is
missing from the file; and as long as every call meets the condition, the stored
entry of every peer is connected exactly when some process has a live connection
with it. -/
theorem shared_directory_reported {shared last : Shared} {calls : List DirectoryCall} (fresh : shared.Fresh)
    (reached : Runs.run advance calls shared = .ok last) :
    last.Known ∧ (Runs.Along advance Orderly calls shared -> last.Reported) := by
  have sound : last.Sound :=
    Runs.run_preserved (fun _ _ _ sound moved => advance_sound sound moved) fresh.sound reached
  refine ⟨sound.known, ?_⟩
  intro along
  have both := @Runs.run_invariant _ _ _ advance Orderly (fun shared => shared.Sound ∧ shared.Reported)
    (fun _ _ _ orderly held moved =>
      ⟨advance_sound held.1 moved, (advance_reported_iff held.1 held.2 moved).mpr orderly⟩)
    _ _ _ along ⟨fresh.sound, fresh.reported⟩ reached
  exact both.2

/-! ## Phantom and missing peers -/

/-- A file that does not exist yet. -/
def noFile : Shared :=
  ⟨Table.empty, [], 0⟩

theorem noFile_fresh : noFile.Fresh :=
  ⟨rfl, fun _ _ found => absurd found (Option.some_ne_none _).symm, fun _ => rfl⟩

/-- Two processes that are connected with a peer one after the other. -/
def takenTurns : List DirectoryCall :=
  [.start, .start, .recordConnect 0 "peer" (some "laptop") .inbound (some "agent") 1,
    .recordDisconnect 0 "peer" 2, .recordConnect 1 "peer" none .outbound none 3]

/-- A process whose connection ends within the millisecond in which it started. -/
def shortVisit : List DirectoryCall :=
  [.start, .recordConnect 0 "peer" none .inbound none 5, .recordDisconnect 0 "peer" 5]

/-- A process that drops its connection while another one keeps its own. -/
def oneLeaves : List DirectoryCall :=
  [.start, .start, .recordConnect 0 "peer" none .inbound none 1,
    .recordConnect 1 "peer" none .outbound none 2, .recordDisconnect 1 "peer" 3]

/-- What is stored of a peer, and whether some process is connected with it. -/
def storedAndLive (calls : List DirectoryCall) (endpointId : String) : Option (Option Bool × Bool) :=
  match Runs.run advance calls noFile with
  | .ok last => some
      ((last.file.find? endpointId).map PeerEntry.connected,
        last.processes.any fun directory => decide (0 < directory.liveConnections endpointId))
  | .error _ => none

theorem taken_turns_reported :
    Exists fun last => Runs.run advance takenTurns noFile = .ok last ∧ last.Known ∧ last.Reported := by
  have runs : (storedAndLive takenTurns "peer").isSome = true := by decide +kernel
  have orderly : Runs.Along advance Orderly takenTurns noFile := by decide +kernel
  cases reached : Runs.run advance takenTurns noFile with
  | error failure => simp [storedAndLive, reached] at runs
  | ok last =>
      have kept := shared_directory_reported noFile_fresh reached
      exact ⟨last, rfl, kept.1, kept.2 orderly⟩

/-- A visit within one millisecond leaves a phantom, and a process that leaves hides
the connection that another one still has. -/
theorem phantom_and_missing_peers :
    storedAndLive shortVisit "peer" = some (some true, false) ∧
      storedAndLive oneLeaves "peer" = some (some false, true) := by
  decide +kernel

end Shared
end Roaming
end AIBuddy
