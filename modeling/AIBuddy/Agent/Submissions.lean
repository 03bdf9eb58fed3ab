import AIBuddy.Agent.ToolConfirmation

namespace AIBuddy

open Runs

/-!
# At most one decision

The lock makes the calls take turns, and a decision is stored only when the turn
has none about its request, so the decisions that are stored are about different
requests.  A call reports the decision that it has stored as a failure when the
turn ended before it could record it.
-/

/-! ## What every event keeps -/

/-- What holds in every state.  Only the call with the lock is at a step under the
lock, and its request has no answer yet.  A decision that is about to be stored is
the first about its request, and the decisions that were stored are about
different requests. -/
structure Orderly (calls : Nat -> Submission) (rows : List Message) (state : SubmissionState) : Prop where
  locked : forall call, (state.phases call).holdsLock = true ↔ state.lockedBy = some call
  unanswered : forall call, state.lockedBy = some call ->
    state.coordinator.answer (calls call).requestId = none
  first : forall call message, (state.phases call).toStore = some message ->
    Decides (calls call) message ∧ (turn? state.session.conversation).isSome ∧
      decidedIn state.session (calls call).requestId = none
  mayHaveStored : forall call, call ∈ state.stored -> (state.phases call).mayHaveStored = true
  decided : forall call, call ∈ state.stored ->
    (decidedIn state.session (calls call).requestId).isSome = true
  distinct : (state.stored.map fun call => (calls call).requestId).Nodup
  added : Exists fun messages => state.session.rows = rows ++ messages ∧
    List.Forall₂ (fun call message => Decides (calls call) message) state.stored messages

namespace Orderly

variable {calls : Nat -> Submission} {rows : List Message} {state next : SubmissionState} {call : Nat}

theorem start (unsubmitted : Unsubmitted state) : Orderly calls state.session.rows state where
  locked := fun call => by simp [unsubmitted.arrived call, unsubmitted.unlocked, SubmissionPhase.holdsLock]
  unanswered := fun call isLocked => by simp [unsubmitted.unlocked] at isLocked
  first := fun call message same => by simp [unsubmitted.arrived call, SubmissionPhase.toStore] at same
  mayHaveStored := fun call member => by simp [unsubmitted.nothing] at member
  decided := fun call member => by simp [unsubmitted.nothing] at member
  distinct := by simp [unsubmitted.nothing]
  added := ⟨[], by simp, by simp [unsubmitted.nothing]⟩

theorem moved (orderly : Orderly calls rows state) {phase : SubmissionPhase}
    (phases : next.phases = (state.enter call phase).phases) (session : next.session = state.session)
    (stored : next.stored = state.stored)
    (locked : next.lockedBy = if phase.holdsLock then some call else
      if (state.phases call).holdsLock then none else state.lockedBy)
    (free : phase.holdsLock = true -> (state.phases call).holdsLock = false -> state.lockedBy = none)
    (unanswered : forall other, next.lockedBy = some other ->
      next.coordinator.answer (calls other).requestId = none)
    (first : forall message, phase.toStore = some message ->
      Decides (calls call) message ∧ (turn? state.session.conversation).isSome ∧
        decidedIn state.session (calls call).requestId = none)
    (late : (state.phases call).mayHaveStored = true -> phase.mayHaveStored = true) :
    Orderly calls rows next := by
  have here : next.phases call = phase := by
    rw [phases]
    simp [SubmissionState.enter]
  have elsewhere : forall other, other ≠ call -> next.phases other = state.phases other := by
    intro other different
    rw [phases]
    simp [SubmissionState.enter, different]
  have holder := orderly.locked call
  refine ⟨?_, unanswered, ?_, ?_, ?_, ?_, ?_⟩
  · intro other
    by_cases same : other = call
    · rw [same, here, locked]
      cases phase.holdsLock with
      | true => simp
      | false =>
          cases held : (state.phases call).holdsLock with
          | true => simp
          | false => simpa [held] using holder
    · have others : state.lockedBy = some call -> state.lockedBy ≠ some other := by
        intro isCall isOther
        exact same (Option.some.inj (isOther.symm.trans isCall))
      rw [elsewhere other same, orderly.locked other, locked]
      cases holds : phase.holdsLock with
      | true =>
          have notOther : state.lockedBy ≠ some other := by
            cases held : (state.phases call).holdsLock with
            | true => exact others (holder.mp held)
            | false =>
                rw [free holds held]
                exact Option.some_ne_none other |>.symm
          simp [notOther, Ne.symm same]
      | false =>
          cases held : (state.phases call).holdsLock with
          | true => simp [others (holder.mp held)]
          | false => simp
  · intro other message entered
    rw [session]
    by_cases same : other = call
    · rw [same] at entered ⊢
      rw [here] at entered
      exact first message entered
    · rw [elsewhere other same] at entered
      exact orderly.first other message entered
  · intro other member
    rw [stored] at member
    have before := orderly.mayHaveStored other member
    by_cases same : other = call
    · rw [same] at before ⊢
      rw [here]
      exact late before
    · rwa [elsewhere other same]
  · rw [session, stored]
    exact orderly.decided
  · rw [stored]
    exact orderly.distinct
  · rw [session, stored]
    exact orderly.added

theorem entered (orderly : Orderly calls rows state) {phase : SubmissionPhase}
    (held : (state.phases call).holdsLock = true) (early : (state.phases call).mayHaveStored = false)
    (holds : phase.holdsLock = true)
    (first : forall message, phase.toStore = some message ->
      Decides (calls call) message ∧ (turn? state.session.conversation).isSome ∧
        decidedIn state.session (calls call).requestId = none) :
    Orderly calls rows (state.enter call phase) := by
  have holder := (orderly.locked call).mp held
  apply orderly.moved rfl rfl rfl _ _ _ first
  · intro stored
    rw [early] at stored
    contradiction
  · rw [holds]
    exact holder
  · intro _ notHeld
    rw [held] at notHeld
    contradiction
  · exact orderly.unanswered

theorem enteredQuietly (orderly : Orderly calls rows state) {phase : SubmissionPhase}
    (held : (state.phases call).holdsLock = true) (early : (state.phases call).mayHaveStored = false)
    (holds : phase.holdsLock = true) (quiet : phase.toStore = none) :
    Orderly calls rows (state.enter call phase) := by
  apply orderly.entered held early holds
  intro message same
  rw [quiet] at same
  contradiction

theorem finished (orderly : Orderly calls rows state) (held : (state.phases call).holdsLock = true)
    (outcome : Except String Unit) : Orderly calls rows (state.finish call outcome) := by
  apply orderly.moved (show (state.finish call outcome).phases = (state.enter call (.returned outcome)).phases from rfl)
    rfl rfl
  · rw [held]
    rfl
  · intro holds
    contradiction
  · intro other isLocked
    contradiction
  · intro message same
    contradiction
  · intro _
    rfl

theorem recorded (orderly : Orderly calls rows state) (held : (state.phases call).holdsLock = true)
    (requestId : String) (answer : ConfirmationAnswer) :
    Orderly calls rows (state.record call requestId answer) := by
  unfold SubmissionState.record
  cases state.coordinator.recordAnswer requestId answer with
  | error error => exact orderly.finished held (.error error)
  | ok coordinator =>
      have done := orderly.finished held (.ok ())
      refine ⟨done.locked, ?_, done.first, done.mayHaveStored, done.decided, done.distinct, done.added⟩
      intro other isLocked
      contradiction

theorem outside (orderly : Orderly calls rows state) {phase : SubmissionPhase}
    (notHeld : (state.phases call).holdsLock = false) (early : (state.phases call).mayHaveStored = false)
    (notHolding : phase.holdsLock = false) (quiet : phase.toStore = none) :
    Orderly calls rows (state.enter call phase) := by
  apply orderly.moved rfl rfl rfl
  · rw [notHolding, notHeld]
    rfl
  · intro holds
    rw [notHolding] at holds
    contradiction
  · exact orderly.unanswered
  · intro message same
    rw [quiet] at same
    contradiction
  · intro stored
    rw [early] at stored
    contradiction

theorem acquired (orderly : Orderly calls rows state) (free : state.lockedBy = none)
    (unanswered : state.coordinator.answer (calls call).requestId = none)
    (early : (state.phases call).mayHaveStored = false) :
    Orderly calls rows { state.enter call .asking with lockedBy := some call } := by
  apply orderly.moved (show SubmissionState.phases { state.enter call .asking with lockedBy := some call } =
    (state.enter call .asking).phases from rfl) rfl rfl rfl (fun _ _ => free)
  · intro other isLocked
    cases isLocked
    exact unanswered
  · intro message same
    contradiction
  · intro stored
    rw [early] at stored
    contradiction

theorem storedDecision (orderly : Orderly calls rows state) {message : Message}
    (held : (state.phases call).holdsLock = true) (early : (state.phases call).mayHaveStored = false)
    (storing : (state.phases call).toStore = some message) :
    Orderly calls rows { state.enter call .recording with
      session := { state.session with rows := addMessage state.session.rows message }
      stored := state.stored ++ [call] } := by
  have holder := (orderly.locked call).mp held
  rcases orderly.first call message storing with ⟨decides, turn, undecided⟩
  have onwards : Orderly calls rows (state.enter call .recording) :=
    orderly.enteredQuietly held early rfl rfl
  have decided := decidedIn_addMessage decides turn
  refine ⟨onwards.locked, onwards.unanswered, ?_, ?_, ?_, ?_, ?_⟩
  · intro other another entered
    have otherHolds := (onwards.locked other).mp (SubmissionPhase.holdsLock_of_toStore entered)
    cases Option.some.inj (otherHolds.symm.trans holder)
    simp [SubmissionState.enter, SubmissionPhase.toStore] at entered
  · intro other member
    rcases List.mem_append.mp member with before | last
    · exact onwards.mayHaveStored other before
    · rw [List.mem_singleton.mp last]
      simp [SubmissionState.enter, SubmissionPhase.mayHaveStored]
  · intro other member
    rw [decided]
    rcases List.mem_append.mp member with before | last
    · split
      · rfl
      · exact orderly.decided other before
    · rw [List.mem_singleton.mp last, if_pos rfl]
      rfl
  · rw [List.map_append, List.nodup_append]
    refine ⟨orderly.distinct, List.nodup_singleton _, ?_⟩
    intro requestId member other isCall same
    rcases List.mem_map.mp member with ⟨earlier, inStored, rfl⟩
    have already := orderly.decided earlier inStored
    rw [same, List.mem_singleton.mp isCall, undecided] at already
    contradiction
  · rcases orderly.added with ⟨messages, whole, pairs⟩
    refine ⟨messages ++ [datedAfter state.session.rows message], ?_, ?_⟩
    · simp only [addMessage_eq, whole, List.append_assoc]
    · exact List.rel_append pairs (.cons (decides.dated _) .nil)

/-- Only the coordinator changes, and it forgets or waits. -/
theorem coordinated (orderly : Orderly calls rows state) {coordinator : SessionToolConfirmationState}
    (unanswered : forall requestId, state.coordinator.answer requestId = none ->
      coordinator.answer requestId = none) :
    Orderly calls rows { state with coordinator := coordinator } :=
  ⟨orderly.locked, fun call isLocked => unanswered _ (orderly.unanswered call isLocked), orderly.first,
    orderly.mayHaveStored, orderly.decided, orderly.distinct, orderly.added⟩

end Orderly

theorem turnEvent_answer {coordinator : SessionToolConfirmationState} {requestId : String}
    (unanswered : coordinator.answer requestId = none) (event : ConfirmationEvent) :
    (turnEvent coordinator event).answer requestId = none := by
  cases event with
  | submit call env => exact unanswered
  | abandon call => exact unanswered
  | startTurn => exact unanswered
  | registerRequest registered =>
      simp only [turnEvent, SessionToolConfirmationState.registerRequest]
      split
      · split
        · exact unanswered
        · unfold SessionToolConfirmationState.answer at unanswered ⊢
          rw [List.lookup_cons]
          split
          · rfl
          · exact unanswered
      · exact unanswered
  | resume =>
      simp only [turnEvent]
      split
      · rfl
      · exact unanswered
  | endTurn => rfl

/-- Wherever a caller goes away, the order is kept. -/
theorem Orderly.left {calls : Nat -> Submission} {rows : List Message} {state : SubmissionState}
    (orderly : Orderly calls rows state) (call : Nat) : Orderly calls rows (abandon call state) := by
  unfold abandon
  split
  · exact orderly
  · have phases : SubmissionState.phases { state.enter call .abandoned with
        lockedBy := if (state.phases call).holdsLock then none else state.lockedBy } =
          (state.enter call .abandoned).phases := rfl
    apply orderly.moved phases rfl rfl rfl
    · intro holds
      contradiction
    · intro other isLocked
      simp only at isLocked
      split at isLocked
      · contradiction
      · exact orderly.unanswered other isLocked
    · intro message same
      contradiction
    · intro _
      rfl

/-! ## One step of a call -/

/-- What a step of a call can do: nothing, a move without the lock, taking the
lock, a move under the lock, returning, recording an answer, or storing a
decision. -/
inductive Steps (calls : Nat -> Submission) (call : Nat) (state : SubmissionState) : SubmissionState -> Prop where
  | waits : Steps calls call state state
  | outside (phase : SubmissionPhase) (notHeld : (state.phases call).holdsLock = false)
      (early : (state.phases call).mayHaveStored = false) (notHolding : phase.holdsLock = false)
      (quiet : phase.toStore = none) : Steps calls call state (state.enter call phase)
  | acquires (early : (state.phases call).mayHaveStored = false) (free : state.lockedBy = none)
      (unanswered : state.coordinator.answer (calls call).requestId = none) :
      Steps calls call state { state.enter call .asking with lockedBy := some call }
  | enters (phase : SubmissionPhase) (held : (state.phases call).holdsLock = true)
      (early : (state.phases call).mayHaveStored = false) (holds : phase.holdsLock = true)
      (quiet : phase.toStore = none) : Steps calls call state (state.enter call phase)
  | decides (message : Message) (held : (state.phases call).holdsLock = true)
      (early : (state.phases call).mayHaveStored = false) (decides : Decides (calls call) message)
      (turn : (turn? state.session.conversation).isSome = true)
      (undecided : decidedIn state.session (calls call).requestId = none) :
      Steps calls call state (state.enter call (.storing (some message)))
  | stores (message : Message) (held : (state.phases call).holdsLock = true)
      (early : (state.phases call).mayHaveStored = false)
      (storing : (state.phases call).toStore = some message) :
      Steps calls call state { state.enter call .recording with
        session := { state.session with rows := addMessage state.session.rows message }
        stored := state.stored ++ [call] }
  | finishes (outcome : Except String Unit) (held : (state.phases call).holdsLock = true)
      (early : (state.phases call).mayHaveStored = false) : Steps calls call state (state.finish call outcome)
  | recordsLive (held : (state.phases call).holdsLock = true)
      (early : (state.phases call).mayHaveStored = false) :
      Steps calls call state (state.record call (calls call).requestId .liveHandled)
  | recordsDecision (held : (state.phases call).holdsLock = true) (recording : state.phases call = .recording) :
      Steps calls call state
        (state.record call (calls call).requestId (.stateMachine (calls call).decision))

theorem submitToolConfirmation_steps (calls : Nat -> Submission) (call : Nat) (env : SubmitEnv)
    (state : SubmissionState) : Steps calls call state (submitToolConfirmation calls call env state) := by
  unfold submitToolConfirmation
  cases phase : state.phases call with
  | arrived =>
      simp only
      split <;> exact .outside _ (by rw [phase]; rfl) (by rw [phase]; rfl) rfl rfl
  | queued =>
      have notHeld : (state.phases call).holdsLock = false := by rw [phase]; rfl
      have early : (state.phases call).mayHaveStored = false := by rw [phase]; rfl
      simp only
      split
      · exact .waits
      · case _ unlocked =>
          cases answer : state.coordinator.answer (calls call).requestId with
          | some answer => exact .outside _ notHeld early rfl rfl
          | none => exact .acquires early (by simpa using unlocked) answer
  | asking =>
      simp only
      split <;> exact .enters _ (by rw [phase]; rfl) (by rw [phase]; rfl) rfl rfl
  | delivering =>
      simp only
      split <;> exact .enters _ (by rw [phase]; rfl) (by rw [phase]; rfl) rfl rfl
  | handled =>
      have held : (state.phases call).holdsLock = true := by rw [phase]; rfl
      have early : (state.phases call).mayHaveStored = false := by rw [phase]; rfl
      simp only
      split
      · exact .enters _ held early rfl rfl
      · exact .finishes _ held early
  | recordingLive => exact .recordsLive (by rw [phase]; rfl) (by rw [phase]; rfl)
  | checking =>
      have held : (state.phases call).holdsLock = true := by rw [phase]; rfl
      have early : (state.phases call).mayHaveStored = false := by rw [phase]; rfl
      simp only
      split
      · exact .enters _ held early rfl rfl
      · exact .finishes _ held early
  | loading =>
      have held : (state.phases call).holdsLock = true := by rw [phase]; rfl
      have early : (state.phases call).mayHaveStored = false := by rw [phase]; rfl
      simp only
      split
      · exact .finishes _ held early
      · split
        · exact .finishes _ held early
        · case _ message decided =>
            cases message with
            | none => exact .enters _ held early rfl rfl
            | some message =>
                rcases confirmationDecision_eq_some decided with ⟨decides, turn, undecided⟩
                exact .decides message held early decides turn undecided
  | storing message =>
      have held : (state.phases call).holdsLock = true := by rw [phase]; rfl
      have early : (state.phases call).mayHaveStored = false := by rw [phase]; rfl
      cases message with
      | none => exact .enters _ held early rfl rfl
      | some message =>
          simp only
          split
          · exact .finishes _ held early
          · exact .stores message held early (by rw [phase]; rfl)
  | recording => exact .recordsDecision (by rw [phase]; rfl) phase
  | returned outcome => exact .waits
  | abandoned => exact .waits

theorem Orderly.steps {calls : Nat -> Submission} {rows : List Message} {state next : SubmissionState} {call : Nat}
    (orderly : Orderly calls rows state) (steps : Steps calls call state next) : Orderly calls rows next := by
  cases steps with
  | waits => exact orderly
  | outside phase notHeld early notHolding quiet => exact orderly.outside notHeld early notHolding quiet
  | acquires early free unanswered => exact orderly.acquired free unanswered early
  | enters phase held early holds quiet => exact orderly.enteredQuietly held early holds quiet
  | decides message held early decides turn undecided =>
      apply orderly.entered held early rfl
      intro stored same
      cases same
      exact ⟨decides, turn, undecided⟩
  | stores message held early storing => exact orderly.storedDecision held early storing
  | finishes outcome held early => exact orderly.finished held outcome
  | recordsLive held early => exact orderly.recorded held _ _
  | recordsDecision held recording => exact orderly.recorded held _ _

/-! ## Runs -/

/-- A call that comes to record a decision that it has stored finds its request
still registered. -/
def RecordsInTime (calls : Nat -> Submission) (state : SubmissionState) : ConfirmationEvent -> Prop
  | .submit call _ => state.phases call = .recording -> call ∈ state.stored ->
      state.coordinator.containsRequest (calls call).requestId = true
  | _ => True

instance (calls : Nat -> Submission) (state : SubmissionState) (event : ConfirmationEvent) :
    Decidable (RecordsInTime calls state event) :=
  match event with
  | .submit _ _ => inferInstanceAs (Decidable (_ -> _ -> _))
  | .abandon _ | .startTurn | .registerRequest _ | .resume | .endTurn => inferInstanceAs (Decidable True)

/-- A call that returned an error has stored nothing. -/
def Honest (state : SubmissionState) : Prop :=
  forall call error, state.phases call = .returned (.error error) -> call ∉ state.stored

theorem Honest.entered {state : SubmissionState} (honest : Honest state) {call : Nat} {phase : SubmissionPhase}
    (returns : forall error, phase = .returned (.error error) -> call ∉ state.stored) :
    Honest (state.enter call phase) := by
  intro other error returned
  by_cases same : other = call
  · rw [same] at returned ⊢
    simp only [SubmissionState.enter, if_true] at returned
    exact returns error returned
  · simp only [SubmissionState.enter, if_neg same] at returned
    exact honest other error returned

theorem recordAnswer_isOk {state : SessionToolConfirmationState} {requestId : String}
    (unanswered : state.answer requestId = none) (registered : state.containsRequest requestId = true)
    (answer : ConfirmationAnswer) : Exists fun next => state.recordAnswer requestId answer = .ok next := by
  unfold SessionToolConfirmationState.answer at unanswered
  unfold SessionToolConfirmationState.containsRequest at registered
  unfold SessionToolConfirmationState.recordAnswer
  cases slot : state.confirmations.lookup requestId with
  | none => simp [slot] at registered
  | some previous =>
      cases previous with
      | some previous => simp [slot] at unanswered
      | none => exact ⟨_, rfl⟩

theorem Honest.steps {calls : Nat -> Submission} {rows : List Message} {state next : SubmissionState} {call : Nat}
    (honest : Honest state) (orderly : Orderly calls rows state) (steps : Steps calls call state next)
    (inTime : state.phases call = .recording -> call ∈ state.stored ->
      state.coordinator.containsRequest (calls call).requestId = true) : Honest next := by
  have notStored : (state.phases call).mayHaveStored = false -> call ∉ state.stored := by
    intro early member
    rw [orderly.mayHaveStored call member] at early
    contradiction
  cases steps with
  | waits => exact honest
  | outside phase notHeld early notHolding quiet => exact honest.entered fun _ _ => notStored early
  | acquires early free unanswered => exact honest.entered fun _ _ => notStored early
  | enters phase held early holds quiet => exact honest.entered fun _ _ => notStored early
  | decides message held early decides turn undecided => exact honest.entered fun _ _ => notStored early
  | stores message held early storing =>
      have entered : Honest (state.enter call .recording) := honest.entered fun _ _ => notStored early
      intro other error returned member
      rcases List.mem_append.mp member with before | last
      · exact entered other error returned before
      · cases List.mem_singleton.mp last
        simp [SubmissionState.enter] at returned
  | finishes outcome held early => exact honest.entered fun _ _ => notStored early
  | recordsLive held early =>
      unfold SubmissionState.record
      split <;> exact honest.entered fun _ _ => notStored early
  | recordsDecision held recording =>
      unfold SubmissionState.record
      split
      · case _ failed =>
          apply honest.entered
          intro error _ member
          have registered := inTime recording member
          have unanswered := orderly.unanswered call ((orderly.locked call).mp held)
          rcases recordAnswer_isOk unanswered registered (.stateMachine (calls call).decision) with ⟨coordinator, done⟩
          rw [done] at failed
          contradiction
      · apply honest.entered
        intro error same
        cases same

theorem Orderly.occurred {calls : Nat -> Submission} {rows : List Message} {state : SubmissionState}
    (orderly : Orderly calls rows state) (event : ConfirmationEvent) :
    Orderly calls rows (state.occur calls event) := by
  cases event with
  | submit call env => exact orderly.steps (submitToolConfirmation_steps calls call env state)
  | abandon call => exact orderly.left call
  | startTurn => exact orderly.coordinated fun _ unanswered => turnEvent_answer unanswered .startTurn
  | registerRequest requestId =>
      exact orderly.coordinated fun _ unanswered => turnEvent_answer unanswered (.registerRequest requestId)
  | resume => exact orderly.coordinated fun _ unanswered => turnEvent_answer unanswered .resume
  | endTurn => exact orderly.coordinated fun _ unanswered => turnEvent_answer unanswered .endTurn

theorem Honest.occurred {calls : Nat -> Submission} {rows : List Message} {state : SubmissionState}
    (honest : Honest state) (orderly : Orderly calls rows state) {event : ConfirmationEvent}
    (inTime : RecordsInTime calls state event) : Honest (state.occur calls event) := by
  cases event with
  | submit call env => exact honest.steps orderly (submitToolConfirmation_steps calls call env state) inTime
  | abandon call =>
      simp only [SubmissionState.occur, abandon]
      split
      · exact honest
      · apply honest.entered
        intro error same
        contradiction
  | startTurn => exact honest
  | registerRequest requestId => exact honest
  | resume => exact honest
  | endTurn => exact honest

/-- What holds in every state of a run in which decisions are recorded in time. -/
structure Settled (calls : Nat -> Submission) (rows : List Message) (state : SubmissionState) : Prop where
  orderly : Orderly calls rows state
  honest : Honest state

theorem Settled.occurred {calls : Nat -> Submission} {rows : List Message} {state : SubmissionState}
    (settled : Settled calls rows state) {event : ConfirmationEvent} (inTime : RecordsInTime calls state event) :
    Settled calls rows (state.occur calls event) :=
  ⟨settled.orderly.occurred event, settled.honest.occurred settled.orderly inTime⟩

theorem Settled.start {calls : Nat -> Submission} {state : SubmissionState} (unsubmitted : Unsubmitted state) :
    Settled calls state.session.rows state := by
  refine ⟨.start unsubmitted, fun call error returned => ?_⟩
  rw [unsubmitted.arrived call] at returned
  contradiction

/-- However calls, the turn and its end are interleaved, the decisions that are
stored are about different requests; and when every call that has stored its
decision finds the request still registered as it comes to record it, no call that
returned an error has stored anything. -/
theorem submissions_decideOnce {calls : Nat -> Submission} {events : List ConfirmationEvent}
    {start final : SubmissionState} (unsubmitted : Unsubmitted start)
    (reached : runSubmissions calls events start = .ok final)
    (inTime : AlongSubmissions calls (RecordsInTime calls) events start) :
    (Exists fun messages => final.session.rows = start.session.rows ++ messages ∧
      List.Forall₂ (fun call message => Decides (calls call) message) final.stored messages) ∧
    (final.stored.map fun call => (calls call).requestId).Nodup ∧
      forall call error, final.phases call = .returned (.error error) -> call ∉ final.stored := by
  have settled : Settled calls start.session.rows final := by
    refine run_invariant (fun state event next condition invariant occurred => ?_) inTime (.start unsubmitted) reached
    cases occurred
    exact invariant.occurred condition
  exact ⟨settled.orderly.added, settled.orderly.distinct, settled.honest⟩

/-! ## A decision that is stored too late -/

namespace SubmissionExample

/-- A turn whose only call awaits confirmation, and nothing submitted. -/
def start : SubmissionState where
  coordinator := ⟨false, []⟩
  session := ⟨"s", [Message.withId ((Message.user 0).withContent (.plainText "hi")) "k",
    ((Message.assistant 0).withContent (.newToolRequest "1" (.ok ⟨"t", none⟩))).withId "a",
    (((Message.assistant 0).withContent
      (.actionRequired (.toolConfirmation "1" "t" [] none))).userOnly).withId "c"], none, .approve, .null⟩
  lockedBy := none
  phases := fun _ => .arrived
  stored := []

theorem unsubmitted : Unsubmitted start :=
  ⟨fun _ => rfl, rfl, rfl⟩

def allow (_call : Nat) : Submission :=
  ⟨"1", .allowOnce⟩

/-- Nobody but the state machine takes the confirmation. -/
def env : SubmitEnv :=
  ⟨.ok (), false, false, .ok (), .ok (), 0, "d"⟩

/-- A turn asks, and a call comes to record its decision. -/
def decided : List ConfirmationEvent :=
  [.startTurn, .registerRequest "1"] ++ List.replicate 7 (.submit 0 env)

end SubmissionExample

/-- When the turn ends between the storing and the recording of a decision, the
call returns an error and its decision is in the store. -/
theorem submissions_storeLate :
    (runSubmissions SubmissionExample.allow (SubmissionExample.decided ++ [.endTurn, .submit 0 SubmissionExample.env])
      SubmissionExample.start).toOption.map (fun state =>
        (state.stored, state.session.rows.map Message.id,
          match state.phases 0 with
          | .returned (.error _) => true
          | _ => false)) =
      some ([0], [some "k", some "a", some "c", some "d"], true) := by
  decide

/-- When the turn goes on, the call returns without an error. -/
theorem submissions_decideOnce_inTime :
    Exists fun final =>
      runSubmissions SubmissionExample.allow (SubmissionExample.decided ++ [.submit 0 SubmissionExample.env])
          SubmissionExample.start = .ok final ∧
        (final.stored.map fun call => (SubmissionExample.allow call).requestId).Nodup ∧
          forall call error, final.phases call = .returned (.error error) -> call ∉ final.stored := by
  have reached : Exists fun final =>
      runSubmissions SubmissionExample.allow (SubmissionExample.decided ++ [.submit 0 SubmissionExample.env])
        SubmissionExample.start = .ok final := ⟨_, rfl⟩
  rcases reached with ⟨final, reached⟩
  have inTime : AlongSubmissions SubmissionExample.allow (RecordsInTime SubmissionExample.allow)
      (SubmissionExample.decided ++ [.submit 0 SubmissionExample.env]) SubmissionExample.start := by
    unfold AlongSubmissions
    decide
  exact ⟨final, reached, (submissions_decideOnce SubmissionExample.unsubmitted reached inTime).2⟩

end AIBuddy
