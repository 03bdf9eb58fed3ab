import Mathlib.Data.List.Basic
import AIBuddy.Config.Permission

namespace AIBuddy

/-!
# Managers of one permission file

Any number of managers keep a copy of the permissions of one file.  An operation
holds the lock of its manager's copy, then the lock of the file, reads the file
again, changes what it has read, writes it back and renews the copy.  Operations of
all managers run at the same time, and each of them may pause between any two steps.
-/

/-! ## Managers and their calls -/

/-- A call of an operation through a manager. -/
structure PermissionCall where
  manager : Nat
  operation : PermissionOperation

/-- Where a call stands. -/
inductive PermissionCallPhase where
  | called
  | writing
  | locked
  | loaded (latestMap : PermissionMap)
  | mutated (latestMap : PermissionMap)
  | written (latestMap : PermissionMap)
  | cached
  | unlocked
  | returned

namespace PermissionCallPhase

/-- Whether the call holds the lock of its manager's copy. -/
def holdsMap : PermissionCallPhase -> Bool
  | called | returned => false
  | _ => true

/-- Whether the call holds the lock of the file. -/
def holdsFile : PermissionCallPhase -> Bool
  | locked | loaded _ | mutated _ | written _ | cached => true
  | _ => false

/-- Whether the call has the lock of the file and has not yet written the file. -/
def beforeWrite : PermissionCallPhase -> Bool
  | locked | loaded _ | mutated _ => true
  | _ => false

end PermissionCallPhase

/-- The file, the copies of the managers that exist, and the calls.  The calls in the
order in which they took the lock of the file are kept for the record. -/
structure PermissionState where
  file : Option PermissionMap
  permissionMaps : Nat -> Option PermissionMap
  mapLock : Nat -> Option Nat
  fileLock : Option Nat
  phases : Nat -> PermissionCallPhase
  lockOrder : List Nat

namespace PermissionState

/-- What is read from the file. -/
def loadPermissionMap (state : PermissionState) : PermissionMap :=
  state.file.getD PermissionMap.empty

/-- Move a call to its next phase. -/
def enter (state : PermissionState) (call : Nat) (phase : PermissionCallPhase) :
    PermissionState :=
  { state with phases := fun other => if other = call then phase else state.phases other }

def setMapLock (state : PermissionState) (manager : Nat) (holder : Option Nat) :
    PermissionState :=
  { state with mapLock := fun other => if other = manager then holder else state.mapLock other }

def setPermissionMap (state : PermissionState) (manager : Nat) (map : PermissionMap) :
    PermissionState :=
  { state with permissionMaps := fun other => if other = manager then some map else state.permissionMaps other }

/-- A call takes the lock of the file. -/
def lockFile (state : PermissionState) (call : Nat) : PermissionState :=
  { state with fileLock := some call, lockOrder := state.lockOrder ++ [call] }

def unlockFile (state : PermissionState) : PermissionState :=
  { state with fileLock := none }

def writePermissionMap (state : PermissionState) (map : PermissionMap) :
    PermissionState :=
  { state with file := some map }

/-- The next step of a call.  A call that waits for a lock stays where it is. -/
def mutatePermissionMap (calls : Nat -> PermissionCall) (call : Nat)
    (state : PermissionState) : PermissionState :=
  let manager := (calls call).manager
  match state.phases call with
  | .called =>
      if (state.permissionMaps manager).isNone || (state.mapLock manager).isSome then state
      else (state.setMapLock manager (some call)).enter call .writing
  | .writing =>
      if state.fileLock.isSome then state
      else (state.lockFile call).enter call .locked
  | .locked => state.enter call (.loaded state.loadPermissionMap)
  | .loaded latestMap => state.enter call (.mutated ((calls call).operation.mutation latestMap))
  | .mutated latestMap => (state.writePermissionMap latestMap).enter call (.written latestMap)
  | .written latestMap => (state.setPermissionMap manager latestMap).enter call .cached
  | .cached => state.unlockFile.enter call .unlocked
  | .unlocked => (state.setMapLock manager none).enter call .returned
  | .returned => state

/-- A manager is created with a copy of what the file holds at that time. -/
def new (manager : Nat) (state : PermissionState) : PermissionState :=
  if (state.permissionMaps manager).isSome then state
  else state.setPermissionMap manager state.loadPermissionMap

/-- What a read through a manager returns.  It waits while a call changes the copy of
the manager. -/
def getPermission (state : PermissionState) (manager : Nat) (name principalName : String) :
    Option (Option PermissionLevel) :=
  match state.permissionMaps manager, state.mapLock manager with
  | some map, none => some (map.getPermission name principalName)
  | _, _ => none

end PermissionState

/-- What can happen: a manager is created, or a call takes a step. -/
inductive PermissionEvent where
  | new (manager : Nat)
  | advance (call : Nat)

def PermissionState.step (calls : Nat -> PermissionCall) (state : PermissionState) :
    PermissionEvent -> PermissionState
  | .new manager => state.new manager
  | .advance call => state.mutatePermissionMap calls call

/-- The state after some events, whatever their order. -/
def PermissionState.run (calls : Nat -> PermissionCall) (state : PermissionState)
    (events : List PermissionEvent) : PermissionState :=
  events.foldl (PermissionState.step calls) state

/-- No manager and no call yet, and any file. -/
def PermissionState.initial (file : Option PermissionMap) : PermissionState where
  file := file
  permissionMaps := fun _ => none
  mapLock := fun _ => none
  fileLock := none
  phases := fun _ => .called
  lockOrder := []

/-- The calls that have written the file, in the order in which they took its lock. -/
def PermissionState.writtenOrder (state : PermissionState) : List Nat :=
  match state.fileLock with
  | none => state.lockOrder
  | some call => if (state.phases call).beforeWrite then state.lockOrder.dropLast else state.lockOrder

/-- The operations of some calls one after another. -/
def foldOperations (calls : Nat -> PermissionCall) (order : List Nat)
    (map : PermissionMap) : PermissionMap :=
  (order.map fun call => (calls call).operation).foldl (fun map operation => operation.mutation map) map

theorem foldOperations_concat (calls : Nat -> PermissionCall)
    (order : List Nat) (call : Nat) (map : PermissionMap) :
    foldOperations calls (order ++ [call]) map =
      (calls call).operation.mutation (foldOperations calls order map) := by
  simp [foldOperations]

/-! ## What holds at all times -/

namespace PermissionCallPhase

/-- Whether the call has renewed the copy of its manager. -/
def hasCopied : PermissionCallPhase -> Bool
  | cached | unlocked | returned => true
  | _ => false

/-- Whether the call has asked for the lock of the file yet. -/
def beforeLock : PermissionCallPhase -> Bool
  | called | writing => true
  | _ => false

/-- What the call has in hand, beside what the file holds. -/
def Carries (operation : PermissionOperation) (stored : PermissionMap) : PermissionCallPhase -> Prop
  | loaded latestMap => latestMap = stored
  | mutated latestMap => latestMap = operation.mutation stored
  | written latestMap => latestMap = stored
  | _ => True

end PermissionCallPhase

/-- The file holds the fold of the operations that wrote it, each lock is held by the
call that is at a step under it, and the last call that took the lock of the file
leaves its manager with a true copy. -/
structure PermissionState.Serial (calls : Nat -> PermissionCall) (start : PermissionMap)
    (state : PermissionState) : Prop where
  content : state.loadPermissionMap = foldOperations calls state.writtenOrder start
  fileHolder : forall call, state.fileLock = some call ↔ (state.phases call).holdsFile = true
  mapHolder : forall manager call, state.mapLock manager = some call ↔
    (state.phases call).holdsMap = true ∧ (calls call).manager = manager
  latest : forall call, (state.phases call).holdsFile = true -> state.lockOrder.getLast? = some call
  ordered : forall call, call ∈ state.lockOrder ↔ (state.phases call).beforeLock = false
  once : state.lockOrder.Nodup
  carried : forall call, (state.phases call).Carries (calls call).operation state.loadPermissionMap
  copied : forall call, (state.phases call).hasCopied = true -> state.lockOrder.getLast? = some call ->
    state.permissionMaps (calls call).manager = some state.loadPermissionMap

namespace PermissionState

theorem Serial.initial (calls : Nat -> PermissionCall) (file : Option PermissionMap) :
    (PermissionState.initial file : PermissionState).Serial calls
      (file.getD PermissionMap.empty) where
  content := rfl
  fileHolder := by simp [PermissionState.initial, PermissionCallPhase.holdsFile]
  mapHolder := by simp [PermissionState.initial, PermissionCallPhase.holdsMap]
  latest := by simp [PermissionState.initial, PermissionCallPhase.holdsFile]
  ordered := by simp [PermissionState.initial, PermissionCallPhase.beforeLock]
  once := List.nodup_nil
  carried := by simp [PermissionState.initial, PermissionCallPhase.Carries]
  copied := by simp [PermissionState.initial, PermissionCallPhase.hasCopied]

section Fields

variable (state : PermissionState) (call other : Nat) (phase : PermissionCallPhase)
  (manager : Nat) (holder : Option Nat) (map : PermissionMap)

@[simp] theorem enter_phases : (state.enter call phase).phases other =
    if other = call then phase else state.phases other := rfl

@[simp] theorem enter_fileLock : (state.enter call phase).fileLock = state.fileLock := rfl

@[simp] theorem enter_mapLock : (state.enter call phase).mapLock = state.mapLock := rfl

@[simp] theorem enter_lockOrder : (state.enter call phase).lockOrder = state.lockOrder := rfl

@[simp] theorem enter_permissionMaps : (state.enter call phase).permissionMaps = state.permissionMaps := rfl

@[simp] theorem enter_load : (state.enter call phase).loadPermissionMap = state.loadPermissionMap := rfl

@[simp] theorem setMapLock_phases : (state.setMapLock manager holder).phases = state.phases := rfl

@[simp] theorem setMapLock_fileLock : (state.setMapLock manager holder).fileLock = state.fileLock := rfl

@[simp] theorem setMapLock_mapLock (owner : Nat) : (state.setMapLock manager holder).mapLock owner =
    if owner = manager then holder else state.mapLock owner := rfl

@[simp] theorem setMapLock_lockOrder : (state.setMapLock manager holder).lockOrder = state.lockOrder := rfl

@[simp] theorem setMapLock_permissionMaps :
    (state.setMapLock manager holder).permissionMaps = state.permissionMaps := rfl

@[simp] theorem setMapLock_load :
    (state.setMapLock manager holder).loadPermissionMap = state.loadPermissionMap := rfl

@[simp] theorem setPermissionMap_phases : (state.setPermissionMap manager map).phases = state.phases := rfl

@[simp] theorem setPermissionMap_fileLock :
    (state.setPermissionMap manager map).fileLock = state.fileLock := rfl

@[simp] theorem setPermissionMap_mapLock : (state.setPermissionMap manager map).mapLock = state.mapLock := rfl

@[simp] theorem setPermissionMap_lockOrder :
    (state.setPermissionMap manager map).lockOrder = state.lockOrder := rfl

@[simp] theorem setPermissionMap_permissionMaps (owner : Nat) :
    (state.setPermissionMap manager map).permissionMaps owner =
      if owner = manager then some map else state.permissionMaps owner := rfl

@[simp] theorem setPermissionMap_load :
    (state.setPermissionMap manager map).loadPermissionMap = state.loadPermissionMap := rfl

@[simp] theorem lockFile_phases : (state.lockFile call).phases = state.phases := rfl

@[simp] theorem lockFile_fileLock : (state.lockFile call).fileLock = some call := rfl

@[simp] theorem lockFile_mapLock : (state.lockFile call).mapLock = state.mapLock := rfl

@[simp] theorem lockFile_lockOrder : (state.lockFile call).lockOrder = state.lockOrder ++ [call] := rfl

@[simp] theorem lockFile_load : (state.lockFile call).loadPermissionMap = state.loadPermissionMap := rfl

@[simp] theorem unlockFile_phases : state.unlockFile.phases = state.phases := rfl

@[simp] theorem unlockFile_fileLock : state.unlockFile.fileLock = none := rfl

@[simp] theorem unlockFile_mapLock : state.unlockFile.mapLock = state.mapLock := rfl

@[simp] theorem unlockFile_lockOrder : state.unlockFile.lockOrder = state.lockOrder := rfl

@[simp] theorem unlockFile_permissionMaps : state.unlockFile.permissionMaps = state.permissionMaps := rfl

@[simp] theorem unlockFile_load : state.unlockFile.loadPermissionMap = state.loadPermissionMap := rfl

@[simp] theorem writePermissionMap_phases : (state.writePermissionMap map).phases = state.phases := rfl

@[simp] theorem writePermissionMap_fileLock : (state.writePermissionMap map).fileLock = state.fileLock := rfl

@[simp] theorem writePermissionMap_mapLock : (state.writePermissionMap map).mapLock = state.mapLock := rfl

@[simp] theorem writePermissionMap_lockOrder : (state.writePermissionMap map).lockOrder = state.lockOrder := rfl

@[simp] theorem writePermissionMap_load : (state.writePermissionMap map).loadPermissionMap = map := rfl

end Fields

theorem writtenOrder_enter_of_ne {state : PermissionState} {call : Nat}
    (phase : PermissionCallPhase) (other : state.fileLock ≠ some call) :
    (state.enter call phase).writtenOrder = state.writtenOrder := by
  simp only [writtenOrder, enter]
  cases held : state.fileLock with
  | none => rfl
  | some holder =>
      have different : holder ≠ call := fun same => other (same ▸ held)
      simp only [different, if_false]

theorem writtenOrder_of_holder {state : PermissionState} {call : Nat}
    (held : state.fileLock = some call) :
    state.writtenOrder =
      if (state.phases call).beforeWrite then state.lockOrder.dropLast else state.lockOrder := by
  simp only [writtenOrder, held]

theorem writtenOrder_enter {state : PermissionState} {call : Nat}
    (phase : PermissionCallPhase) (held : state.fileLock = some call) :
    (state.enter call phase).writtenOrder =
      if phase.beforeWrite then state.lockOrder.dropLast else state.lockOrder := by
  simp only [writtenOrder, enter_fileLock, held, enter_phases, if_true, enter_lockOrder]

variable {calls : Nat -> PermissionCall} {start : PermissionMap} {state : PermissionState}

theorem Serial.takeMap (serial : state.Serial calls start) {call : Nat}
    (phase : state.phases call = .called) (free : state.mapLock (calls call).manager = none) :
    ((state.setMapLock (calls call).manager (some call)).enter call .writing).Serial calls start := by
  have notHolder : state.fileLock ≠ some call := by
    rw [ne_eq, serial.fileHolder, phase]
    simp [PermissionCallPhase.holdsFile]
  constructor
  · rw [writtenOrder_enter_of_ne .writing (by exact notHolder)]
    exact serial.content
  · intro other
    by_cases same : other = call
    · simpa [same, PermissionCallPhase.holdsFile] using notHolder
    · simpa [same] using serial.fileHolder other
  · intro manager other
    have holder := serial.mapHolder manager other
    by_cases owned : manager = (calls call).manager
    · rw [owned, free] at holder
      by_cases same : other = call
      · simp [owned, same, PermissionCallPhase.holdsMap]
      · simpa [owned, same, Ne.symm same] using holder
    · by_cases same : other = call
      · simpa [owned, same, phase, PermissionCallPhase.holdsMap, Ne.symm owned] using holder
      · simpa [owned, same] using holder
  · intro other
    by_cases same : other = call
    · simp [same, PermissionCallPhase.holdsFile]
    · simpa [same] using serial.latest other
  · intro other
    have ordered := serial.ordered other
    by_cases same : other = call
    · simpa [same, phase, PermissionCallPhase.beforeLock] using ordered
    · simpa [same] using ordered
  · exact serial.once
  · intro other
    by_cases same : other = call
    · simp [same, PermissionCallPhase.Carries]
    · simpa [same] using serial.carried other
  · intro other
    by_cases same : other = call
    · simp [same, PermissionCallPhase.hasCopied]
    · simpa [same] using serial.copied other

theorem Serial.takeFile (serial : state.Serial calls start) {call : Nat}
    (phase : state.phases call = .writing) (free : state.fileLock = none) :
    ((state.lockFile call).enter call .locked).Serial calls start := by
  have nobody : forall other, (state.phases other).holdsFile = false := by
    intro other
    have holder := serial.fileHolder other
    rw [free] at holder
    simpa using holder
  constructor
  · have before : state.writtenOrder = state.lockOrder := by
      simp only [writtenOrder, free]
    have content := serial.content
    rw [before] at content
    rw [writtenOrder_enter .locked (by rfl)]
    simpa [PermissionCallPhase.beforeWrite] using content
  · intro other
    by_cases same : other = call
    · simp [same, PermissionCallPhase.holdsFile]
    · simp [same, Ne.symm same, nobody other]
  · intro manager other
    have holder := serial.mapHolder manager other
    by_cases same : other = call
    · simpa [same, phase, PermissionCallPhase.holdsMap] using holder
    · simpa [same] using holder
  · intro other
    by_cases same : other = call
    · simp [same]
    · simp [same, nobody other]
  · intro other
    by_cases same : other = call
    · simp [same, PermissionCallPhase.beforeLock]
    · simpa [same] using serial.ordered other
  · have new : call ∉ state.lockOrder := by
      rw [serial.ordered, phase]
      simp [PermissionCallPhase.beforeLock]
    rw [enter_lockOrder, lockFile_lockOrder, List.nodup_append]
    refine ⟨serial.once, List.pairwise_singleton _ call, ?_⟩
    intro other member last isLast same
    rw [List.mem_singleton] at isLast
    exact new (isLast ▸ same ▸ member)
  · intro other
    by_cases same : other = call
    · simp [same, PermissionCallPhase.Carries]
    · simpa [same] using serial.carried other
  · intro other
    by_cases same : other = call
    · simp [same, PermissionCallPhase.hasCopied]
    · simp [same, Ne.symm same]

/-- A call that holds both locks reads the file or changes what it has read. -/
theorem Serial.prepare (serial : state.Serial calls start) {call : Nat} {next : PermissionCallPhase}
    (before : (state.phases call).beforeWrite = true) (after : next.beforeWrite = true)
    (carries : next.Carries (calls call).operation state.loadPermissionMap) :
    (state.enter call next).Serial calls start := by
  have flags : forall phase : PermissionCallPhase, phase.beforeWrite = true ->
      phase.holdsFile = true ∧ phase.holdsMap = true ∧ phase.beforeLock = false ∧
        phase.hasCopied = false := by
    intro phase early
    cases phase <;> first | contradiction | exact ⟨rfl, rfl, rfl, rfl⟩
  have held : state.fileLock = some call := (serial.fileHolder call).mpr (flags _ before).1
  constructor
  · have content := serial.content
    rw [writtenOrder_of_holder held, if_pos before] at content
    rw [writtenOrder_enter next held, if_pos after]
    exact content
  · intro other
    by_cases same : other = call
    · simpa [same, (flags _ after).1] using held
    · simpa [same] using serial.fileHolder other
  · intro manager other
    have holder := serial.mapHolder manager other
    by_cases same : other = call
    · simpa [same, (flags _ after).2.1, (flags _ before).2.1] using holder
    · simpa [same] using holder
  · intro other
    by_cases same : other = call
    · intro _
      rw [same]
      exact serial.latest call (flags _ before).1
    · simpa [same] using serial.latest other
  · intro other
    have ordered := serial.ordered other
    by_cases same : other = call
    · simpa [same, (flags _ after).2.2.1, (flags _ before).2.2.1] using ordered
    · simpa [same] using ordered
  · exact serial.once
  · intro other
    by_cases same : other = call
    · simpa [same] using carries
    · simpa [same] using serial.carried other
  · intro other
    by_cases same : other = call
    · simp [same, (flags _ after).2.2.2]
    · simpa [same] using serial.copied other

theorem Serial.write (serial : state.Serial calls start) {call : Nat} {latestMap : PermissionMap}
    (phase : state.phases call = .mutated latestMap) :
    ((state.writePermissionMap latestMap).enter call (.written latestMap)).Serial calls start := by
  have holds : (state.phases call).holdsFile = true := by
    rw [phase]
    rfl
  have held : state.fileLock = some call := (serial.fileHolder call).mpr holds
  have latest : state.lockOrder.getLast? = some call := serial.latest call holds
  have alone : forall other, other ≠ call -> (state.phases other).holdsFile = false := by
    intro other different
    have holder := serial.fileHolder other
    rw [held] at holder
    simpa [Ne.symm different] using holder
  constructor
  · have mutated : latestMap = (calls call).operation.mutation state.loadPermissionMap := by
      simpa [phase, PermissionCallPhase.Carries] using serial.carried call
    have order : state.lockOrder = state.lockOrder.dropLast ++ [call] :=
      (List.dropLast_append_getLast? call latest).symm
    have content := serial.content
    have early : (PermissionCallPhase.mutated latestMap).beforeWrite = true := rfl
    rw [writtenOrder_of_holder held, phase, if_pos early] at content
    have wrote : (PermissionCallPhase.written latestMap).beforeWrite = false := rfl
    rw [writtenOrder_enter (.written latestMap) (by exact held), wrote, if_neg Bool.false_ne_true,
      writePermissionMap_lockOrder, order, foldOperations_concat, ← content]
    exact mutated
  · intro other
    by_cases same : other = call
    · simpa [same, PermissionCallPhase.holdsFile] using held
    · simpa [same] using serial.fileHolder other
  · intro manager other
    have holder := serial.mapHolder manager other
    by_cases same : other = call
    · simpa [same, phase, PermissionCallPhase.holdsMap] using holder
    · simpa [same] using holder
  · intro other
    by_cases same : other = call
    · intro _
      rw [same]
      exact latest
    · simpa [same] using serial.latest other
  · intro other
    have ordered := serial.ordered other
    by_cases same : other = call
    · simpa [same, phase, PermissionCallPhase.beforeLock] using ordered
    · simpa [same] using ordered
  · exact serial.once
  · intro other
    by_cases same : other = call
    · simp [same, PermissionCallPhase.Carries]
    · have outside := alone other same
      rw [enter_phases, if_neg same]
      cases elsewhere : state.phases other <;>
        simp_all [PermissionCallPhase.holdsFile, PermissionCallPhase.Carries]
  · intro other
    by_cases same : other = call
    · simp [same, PermissionCallPhase.hasCopied]
    · simp [latest, Ne.symm same]

theorem Serial.copy (serial : state.Serial calls start) {call : Nat} {latestMap : PermissionMap}
    (phase : state.phases call = .written latestMap) :
    ((state.setPermissionMap (calls call).manager latestMap).enter call .cached).Serial calls start := by
  have holds : (state.phases call).holdsFile = true := by
    rw [phase]
    rfl
  have held : state.fileLock = some call := (serial.fileHolder call).mpr holds
  have latest : state.lockOrder.getLast? = some call := serial.latest call holds
  constructor
  · have content := serial.content
    rw [writtenOrder_of_holder held, phase] at content
    rw [writtenOrder_enter .cached (by exact held)]
    simpa [PermissionCallPhase.beforeWrite] using content
  · intro other
    by_cases same : other = call
    · simpa [same, PermissionCallPhase.holdsFile] using held
    · simpa [same] using serial.fileHolder other
  · intro manager other
    have holder := serial.mapHolder manager other
    by_cases same : other = call
    · simpa [same, phase, PermissionCallPhase.holdsMap] using holder
    · simpa [same] using holder
  · intro other
    by_cases same : other = call
    · intro _
      rw [same]
      exact latest
    · simpa [same] using serial.latest other
  · intro other
    have ordered := serial.ordered other
    by_cases same : other = call
    · simpa [same, phase, PermissionCallPhase.beforeLock] using ordered
    · simpa [same] using ordered
  · exact serial.once
  · intro other
    by_cases same : other = call
    · simp [same, PermissionCallPhase.Carries]
    · simpa [same] using serial.carried other
  · intro other
    by_cases same : other = call
    · have carried : latestMap = state.loadPermissionMap := by
        simpa [phase, PermissionCallPhase.Carries] using serial.carried call
      simp [same, carried]
    · simp [latest, Ne.symm same]

theorem Serial.releaseFile (serial : state.Serial calls start) {call : Nat}
    (phase : state.phases call = .cached) :
    (state.unlockFile.enter call .unlocked).Serial calls start := by
  have holds : (state.phases call).holdsFile = true := by
    rw [phase]
    rfl
  have held : state.fileLock = some call := (serial.fileHolder call).mpr holds
  constructor
  · have content := serial.content
    rw [writtenOrder_of_holder held, phase] at content
    simpa [PermissionCallPhase.beforeWrite, writtenOrder] using content
  · intro other
    by_cases same : other = call
    · simp [same, PermissionCallPhase.holdsFile]
    · have holder := serial.fileHolder other
      rw [held] at holder
      simpa [same, Ne.symm same] using holder
  · intro manager other
    have holder := serial.mapHolder manager other
    by_cases same : other = call
    · simpa [same, phase, PermissionCallPhase.holdsMap] using holder
    · simpa [same] using holder
  · intro other
    by_cases same : other = call
    · simp [same, PermissionCallPhase.holdsFile]
    · simpa [same] using serial.latest other
  · intro other
    have ordered := serial.ordered other
    by_cases same : other = call
    · simpa [same, phase, PermissionCallPhase.beforeLock] using ordered
    · simpa [same] using ordered
  · exact serial.once
  · intro other
    by_cases same : other = call
    · simp [same, PermissionCallPhase.Carries]
    · simpa [same] using serial.carried other
  · intro other
    by_cases same : other = call
    · intro _ last
      rw [same] at last ⊢
      exact serial.copied call (by rw [phase]; rfl) last
    · simpa [same] using serial.copied other

theorem Serial.releaseMap (serial : state.Serial calls start) {call : Nat}
    (phase : state.phases call = .unlocked) :
    ((state.setMapLock (calls call).manager none).enter call .returned).Serial calls start := by
  have notHolder : state.fileLock ≠ some call := by
    rw [ne_eq, serial.fileHolder, phase]
    simp [PermissionCallPhase.holdsFile]
  have held : state.mapLock (calls call).manager = some call := by
    rw [serial.mapHolder, phase]
    exact ⟨rfl, rfl⟩
  constructor
  · rw [writtenOrder_enter_of_ne .returned (by exact notHolder)]
    exact serial.content
  · intro other
    by_cases same : other = call
    · simpa [same, PermissionCallPhase.holdsFile] using notHolder
    · simpa [same] using serial.fileHolder other
  · intro manager other
    have holder := serial.mapHolder manager other
    by_cases owned : manager = (calls call).manager
    · rw [owned, held] at holder
      by_cases same : other = call
      · simp [owned, same, PermissionCallPhase.holdsMap]
      · simpa [owned, same, Ne.symm same] using holder
    · by_cases same : other = call
      · simpa [owned, same, PermissionCallPhase.holdsMap, Ne.symm owned] using holder
      · simpa [owned, same] using holder
  · intro other
    by_cases same : other = call
    · simp [same, PermissionCallPhase.holdsFile]
    · simpa [same] using serial.latest other
  · intro other
    have ordered := serial.ordered other
    by_cases same : other = call
    · simpa [same, phase, PermissionCallPhase.beforeLock] using ordered
    · simpa [same] using ordered
  · exact serial.once
  · intro other
    by_cases same : other = call
    · simp [same, PermissionCallPhase.Carries]
    · simpa [same] using serial.carried other
  · intro other
    by_cases same : other = call
    · intro _ last
      rw [same] at last ⊢
      exact serial.copied call (by rw [phase]; rfl) last
    · simpa [same] using serial.copied other

/-- A manager that is created reads the file and takes no lock. -/
theorem Serial.new (serial : state.Serial calls start) (manager : Nat) :
    (state.setPermissionMap manager state.loadPermissionMap).Serial calls start := by
  constructor
  · exact serial.content
  · exact serial.fileHolder
  · exact serial.mapHolder
  · exact serial.latest
  · exact serial.ordered
  · exact serial.once
  · exact serial.carried
  · intro call copied last
    by_cases same : (calls call).manager = manager
    · simp [same]
    · simpa [same] using serial.copied call copied last

theorem Serial.advance (serial : state.Serial calls start) (call : Nat) :
    (state.mutatePermissionMap calls call).Serial calls start := by
  unfold mutatePermissionMap
  cases phase : state.phases call with
  | called =>
      simp only
      split
      · exact serial
      · rename_i open'
        have free : state.mapLock (calls call).manager = none := by
          simp only [Bool.or_eq_true, not_or, Option.not_isSome_iff_eq_none] at open'
          exact open'.2
        exact serial.takeMap phase free
  | writing =>
      simp only
      split
      · exact serial
      · rename_i open'
        exact serial.takeFile phase (Option.not_isSome_iff_eq_none.mp open')
  | locked => exact serial.prepare (by rw [phase]; rfl) rfl rfl
  | loaded latestMap =>
      have carried : latestMap = state.loadPermissionMap := by
        simpa [phase, PermissionCallPhase.Carries] using serial.carried call
      exact serial.prepare (by rw [phase]; rfl) rfl (congrArg (calls call).operation.mutation carried)
  | mutated latestMap => exact serial.write phase
  | written latestMap => exact serial.copy phase
  | cached => exact serial.releaseFile phase
  | unlocked => exact serial.releaseMap phase
  | returned => exact serial

theorem Serial.run (serial : state.Serial calls start) (events : List PermissionEvent) :
    (state.run calls events).Serial calls start := by
  induction events generalizing state with
  | nil => exact serial
  | cons event rest ih =>
      apply ih
      cases event with
      | advance call => exact serial.advance call
      | new manager =>
          simp only [step, PermissionState.new]
          split
          · exact serial
          · exact serial.new manager

end PermissionState

/-! ## The file and the reads -/

end AIBuddy
