import AIBuddy.Config.PermissionManager
namespace AIBuddy
namespace PermissionState
/-!
# No call is stuck

A call takes the lock of its manager's copy before the lock of the file, and gives the file's back
first.  So whoever has a lock can go on, and calls never wait for each other.
-/

variable {calls : Nat -> PermissionCall} {start : PermissionMap} {state : PermissionState}

/-- The steps that a call has still to take. -/
def remaining : PermissionCallPhase -> Nat
  | .called => 8
  | .writing => 7
  | .locked => 6
  | .loaded _ => 5
  | .mutated _ => 4
  | .written _ => 3
  | .cached => 2
  | .unlocked => 1
  | .returned => 0

theorem run_append (events more : List PermissionEvent) :
    state.run calls (events ++ more) = (state.run calls events).run calls more :=
  List.foldl_append

/-- A call that has the lock of its manager's copy takes a step, unless another call has the lock of
the file. -/
theorem Serial.moves (serial : state.Serial calls start) {call : Nat}
    (alone : forall other, state.fileLock = some other -> other = call)
    (holds : (state.phases call).holdsMap = true) :
    let next := state.mutatePermissionMap calls call
    remaining (state.phases call) = remaining (next.phases call) + 1 ∧
      (forall other, next.fileLock = some other -> other = call) ∧
        forall other, other ≠ call -> next.phases other = state.phases other := by
  cases phase : state.phases call with
  | called | returned =>
      rw [phase] at holds
      contradiction
  | writing =>
      have free : state.fileLock = none := by
        rw [Option.eq_none_iff_forall_ne_some]
        intro other held
        have locks := (serial.fileHolder call).mp (alone other held ▸ held)
        rw [phase] at locks
        contradiction
      simp only [mutatePermissionMap, phase, free]
      exact ⟨by simp [remaining], by simp, fun other different => by simp [different]⟩
  | cached =>
      simp only [mutatePermissionMap, phase]
      exact ⟨by simp [remaining], by simp, fun other different => by simp [different]⟩
  | locked | loaded | mutated | written | unlocked =>
      simp only [mutatePermissionMap, phase]
      exact ⟨by simp [remaining], by simpa using alone, fun other different => by simp [different]⟩

/-- Such a call returns when it is let run.  No other call moves, and the lock of the file is free
behind it. -/
theorem Serial.finish (serial : state.Serial calls start) {call : Nat}
    (alone : forall other, state.fileLock = some other -> other = call) (entered : state.phases call ≠ .called) :
    Exists fun events => (state.run calls events).phases call = .returned ∧ (state.run calls events).fileLock = none ∧
      forall other, other ≠ call -> (state.run calls events).phases other = state.phases other := by
  induction count : remaining (state.phases call) generalizing state with
  | zero =>
      have returned : state.phases call = .returned := by
        cases phase : state.phases call <;> rw [phase] at count <;> first | rfl | contradiction
      refine ⟨[], returned, ?_, fun other _ => rfl⟩
      refine Option.eq_none_iff_forall_ne_some.mpr fun other held => ?_
      have locks := (serial.fileHolder call).mp (alone other held ▸ held)
      rw [show state.phases call = .returned from returned] at locks
      contradiction
  | succ left ih =>
      have holds : (state.phases call).holdsMap = true := by
        cases phase : state.phases call <;> rw [phase] at count entered <;> first | rfl | contradiction
      rcases serial.moves alone holds with ⟨fewer, stillAlone, still⟩
      have later : (state.mutatePermissionMap calls call).phases call ≠ .called := by
        intro back
        have most : remaining (state.phases call) ≤ 8 := by
          cases state.phases call <;> simp [remaining]
        rw [back, remaining] at fewer
        omega
      rcases ih (serial.advance call) stillAlone later (by omega) with ⟨events, returned, free, same⟩
      exact ⟨.advance call :: events, returned, free, fun other different =>
        (same other different).trans (still other different)⟩

/-- The call that holds a lock returns, and nobody has the lock of the file behind it. -/
theorem Serial.release (serial : state.Serial calls start) (manager : Nat)
    (free : state.fileLock = none) : Exists fun events => (state.run calls events).fileLock = none ∧
      (state.run calls events).mapLock manager = none ∧
        forall call, state.phases call = .called -> (state.run calls events).phases call = .called := by
  cases lock : state.mapLock manager with
  | none => exact ⟨[], free, lock, fun call waits => waits⟩
  | some holder =>
      have holds := ((serial.mapHolder manager holder).mp lock).1
      have entered : state.phases holder ≠ .called := by
        intro waits
        rw [waits] at holds
        contradiction
      rcases serial.finish (by simp [free]) entered with ⟨events, returned, unlocked, same⟩
      refine ⟨events, unlocked, ?_, fun call waits => (same call fun isHolder => entered (isHolder ▸ waits)).trans waits⟩
      refine Option.eq_none_iff_forall_ne_some.mpr fun other later => ?_
      have locks := ((serial.run events).mapHolder manager other).mp later
      by_cases isHolder : other = holder
      · rw [isHolder, returned] at locks
        cases locks.1
      · rw [same other isHolder] at locks
        have owns := (serial.mapHolder manager other).mpr locks
        rw [lock, Option.some.injEq] at owns
        exact isHolder owns.symm

/-- Whoever has the lock of the file gives it back. -/
theorem Serial.freeFile (serial : state.Serial calls start) :
    Exists fun events => (state.run calls events).fileLock = none := by
  cases lock : state.fileLock with
  | none => exact ⟨[], lock⟩
  | some holder =>
      have holds := (serial.fileHolder holder).mp lock
      have entered : state.phases holder ≠ .called := by
        intro waits
        rw [waits] at holds
        contradiction
      rcases serial.finish (by simp [lock]) entered with ⟨events, _, free, _⟩
      exact ⟨events, free⟩

/-- A call begins to write when its manager is there and both locks are free. -/
theorem writing_of_called {call : Nat} (fileFree : state.fileLock = none)
    (mapFree : state.mapLock (calls call).manager = none) (called : state.phases call = .called) :
    let next := state.run calls [.new (calls call).manager, .advance call]
    next.phases call = .writing ∧ next.fileLock = none := by
  cases copy : state.permissionMaps (calls call).manager with
  | some map => simp [run, step, PermissionState.new, mutatePermissionMap, copy, called, mapFree, fileFree]
  | none => simp [run, step, PermissionState.new, mutatePermissionMap, copy, called, mapFree, fileFree]

/-- From every state that is reached, every call can still return: no order of steps leaves calls
waiting for each other's locks. -/
theorem run_can_return (calls : Nat -> PermissionCall) (file : Option PermissionMap) (events : List PermissionEvent)
    (call : Nat) :
    Exists fun more => ((initial file).run calls (events ++ more)).phases call = .returned := by
  have serial := (Serial.initial calls file).run events
  rcases serial.freeFile with ⟨first, free⟩
  have reached := serial.run first
  by_cases called : (((initial file).run calls events).run calls first).phases call = .called
  · rcases reached.release (calls call).manager free with ⟨second, fileFree, mapFree, waits⟩
    rcases writing_of_called fileFree mapFree (waits call called) with ⟨writing, noFile⟩
    have entered := ne_of_eq_of_ne writing (show PermissionCallPhase.writing ≠ .called by simp)
    rcases ((reached.run second).run [.new (calls call).manager, .advance call]).finish (by simp [noFile]) entered with
      ⟨last, returned, _⟩
    refine ⟨first ++ (second ++ ([.new (calls call).manager, .advance call] ++ last)), ?_⟩
    rw [run_append, run_append, run_append, run_append]
    exact returned
  · rcases reached.finish (by simp [free]) called with ⟨last, returned, _⟩
    refine ⟨first ++ last, ?_⟩
    rw [run_append, run_append]
    exact returned

end PermissionState
end AIBuddy
