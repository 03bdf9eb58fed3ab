import Mathlib.Data.List.Forall2
import AIBuddy.Agent.Run
import AIBuddy.Agent.Store

namespace AIBuddy

open LastSuffix
open Runs

/-!
# Submitting confirmations

The user's answers to confirmation requests arrive in concurrent calls.  A lock
lets one call at a time look for an answer, offer the decision to the provider
and to waiting tools, store it, and record it for the turn that waits.  The turn
may end at any moment, and its end is not under the lock.
-/

/-! ## The coordinator -/

inductive ConfirmationAnswer where
  | liveHandled
  | stateMachine (permission : Permission)
deriving DecidableEq, Repr

/-- The requests of the current pause of a turn, with the answers that they have
got. -/
structure SessionToolConfirmationState where
  turnActive : Bool
  confirmations : List (String × Option ConfirmationAnswer)
deriving DecidableEq, Repr

namespace SessionToolConfirmationState

def containsRequest (state : SessionToolConfirmationState) (requestId : String) : Bool :=
  (state.confirmations.lookup requestId).isSome

def answer (state : SessionToolConfirmationState) (requestId : String) : Option ConfirmationAnswer :=
  (state.confirmations.lookup requestId).join

def registerRequest (state : SessionToolConfirmationState) (requestId : String) : SessionToolConfirmationState :=
  if state.containsRequest requestId then state
  else { state with confirmations := (requestId, none) :: state.confirmations }

def recordAnswer (state : SessionToolConfirmationState) (requestId : String) (answer : ConfirmationAnswer) :
    Except String SessionToolConfirmationState :=
  match state.confirmations.lookup requestId with
  | none => .error "tool confirmation request is no longer active"
  | some (some _) => .error "tool confirmation request was already answered"
  | some none => .ok { state with
      confirmations := (requestId, some answer) ::
        state.confirmations.filter fun entry => entry.1 != requestId }

def clearConfirmations (state : SessionToolConfirmationState) : SessionToolConfirmationState :=
  { state with confirmations := [] }

/-- Whether the turn can go on: all requests are answered, and one of the answers
is a decision that has been stored. -/
def resumes (state : SessionToolConfirmationState) : Bool :=
  !state.confirmations.isEmpty && state.confirmations.all (fun entry => entry.2.isSome) &&
    state.confirmations.any fun entry =>
      match entry.2 with
      | some (.stateMachine _) => true
      | _ => false

end SessionToolConfirmationState

/-! ## One call -/

/-- An answer to a confirmation request. -/
structure Submission where
  requestId : String
  permission : Permission

/-- A cancelled call is denied once. -/
def stateMachinePermission : Permission -> Permission
  | .cancel => .denyOnce
  | permission => permission

/-- The decision of a call. -/
def Submission.decision (submission : Submission) : Permission :=
  stateMachinePermission submission.permission

/-- What is to be stored for a decision, if anything. -/
def confirmationDecision (session : Session) (now : Int) (messageId requestId : String) (permission : Permission) :
    Except String (Option Message) := do
  let messages <- messagesSinceKickoff session.conversation
  let approvalState := ApprovalState.fromMessages messages
  if !approvalState.hasConfirmationRequest requestId then
    .error ("Tool request " ++ requestId ++ " is not awaiting confirmation in session " ++ session.id)
  else
    match approvalState.confirmationResponse requestId with
    | some persisted =>
        if persisted = permission then .ok none
        else .error ("Tool request " ++ requestId ++ " already has a different confirmation decision")
    | none =>
        if approvalState.hasToolResponse requestId then
          .error ("Tool request " ++ requestId ++ " already has a response")
        else .ok (some (decisionMessage now messageId requestId permission))

/-- Where a call stands: before the lock, at one of its steps under the lock, or
at its end. -/
inductive SubmissionPhase where
  | arrived
  | queued
  | asking
  | delivering
  | handled
  | recordingLive
  | checking
  | loading
  | storing (message : Option Message)
  | recording
  | returned (outcome : Except String Unit)
  | abandoned
deriving DecidableEq

namespace SubmissionPhase

/-- Whether the call holds the lock. -/
def holdsLock : SubmissionPhase -> Bool
  | asking | delivering | handled | recordingLive | checking | loading | storing _ | recording => true
  | arrived | queued | returned _ | abandoned => false

/-- What the call is about to store. -/
def toStore : SubmissionPhase -> Option Message
  | storing message => message
  | _ => none

/-- Whether the call may have stored its decision. -/
def mayHaveStored : SubmissionPhase -> Bool
  | recording | returned _ | abandoned => true
  | _ => false

theorem holdsLock_of_toStore {phase : SubmissionPhase} {message : Message}
    (stores : phase.toStore = some message) : phase.holdsLock = true := by
  cases phase with
  | storing message => rfl
  | _ => contradiction

end SubmissionPhase

/-- What reaches a step of a call from outside: whether the session is found, who
takes the confirmation, and whether the store can be read and written. -/
structure SubmitEnv where
  sessionFound : Except String Unit
  providerHandles : Bool
  routerDelivers : Bool
  loads : Except String Unit
  writes : Except String Unit
  now : Int
  messageId : String

/-- The coordinator and the session with all calls, and the calls whose decision
was stored. -/
structure SubmissionState where
  coordinator : SessionToolConfirmationState
  session : Session
  lockedBy : Option Nat
  phases : Nat -> SubmissionPhase
  stored : List Nat

namespace SubmissionState

def enter (state : SubmissionState) (call : Nat) (phase : SubmissionPhase) : SubmissionState :=
  { state with phases := fun other => if other = call then phase else state.phases other }

/-- Return from a call and release the lock. -/
def finish (state : SubmissionState) (call : Nat) (outcome : Except String Unit) : SubmissionState :=
  { state.enter call (.returned outcome) with lockedBy := none }

/-- Record an answer for the waiting turn and return. -/
def record (state : SubmissionState) (call : Nat) (requestId : String) (answer : ConfirmationAnswer) :
    SubmissionState :=
  match state.coordinator.recordAnswer requestId answer with
  | .error error => state.finish call (.error error)
  | .ok coordinator => { state.finish call (.ok ()) with coordinator := coordinator }

end SubmissionState

/-- What a call returns when the request has an answer already. -/
def answeredBefore (decision : Permission) : ConfirmationAnswer -> Except String Unit
  | .liveHandled => .error "tool confirmation request was already answered"
  | .stateMachine previous =>
      if previous = decision then .ok ()
      else .error "tool confirmation request already has a different decision"

/-- The next step of a call, up to its next wait.  A call that waits for the lock
stays where it is while another call holds the lock. -/
def submitToolConfirmation (calls : Nat -> Submission) (call : Nat) (env : SubmitEnv) (state : SubmissionState) :
    SubmissionState :=
  let requestId := (calls call).requestId
  match state.phases call with
  | .arrived =>
      match env.sessionFound with
      | .error error => state.enter call (.returned (.error error))
      | .ok () => state.enter call .queued
  | .queued =>
      if state.lockedBy.isSome then state
      else
        match state.coordinator.answer requestId with
        | some answer => state.enter call (.returned (answeredBefore (calls call).decision answer))
        | none => { state.enter call .asking with lockedBy := some call }
  | .asking => state.enter call (if env.providerHandles then .handled else .delivering)
  | .delivering => state.enter call (if env.routerDelivers then .handled else .checking)
  | .handled =>
      if state.coordinator.containsRequest requestId then state.enter call .recordingLive
      else state.finish call (.ok ())
  | .recordingLive => state.record call requestId .liveHandled
  | .checking =>
      if state.coordinator.containsRequest requestId then state.enter call .loading
      else state.finish call (.error ("unknown or stale tool confirmation request " ++ requestId ++
        " for session " ++ state.session.id))
  | .loading =>
      match env.loads with
      | .error error => state.finish call (.error error)
      | .ok () =>
          match confirmationDecision state.session env.now env.messageId requestId (calls call).decision with
          | .error error => state.finish call (.error error)
          | .ok message => state.enter call (.storing message)
  | .storing none => state.enter call .recording
  | .storing (some message) =>
      match env.writes with
      | .error error => state.finish call (.error error)
      | .ok () =>
          { state.enter call .recording with
            session := { state.session with rows := addMessage state.session.rows message }
            stored := state.stored ++ [call] }
  | .recording => state.record call requestId (.stateMachine (calls call).decision)
  | .returned _ | .abandoned => state

/-- A caller goes away. -/
def abandon (call : Nat) (state : SubmissionState) : SubmissionState :=
  match state.phases call with
  | .returned _ => state
  | phase => { state.enter call .abandoned with lockedBy := if phase.holdsLock then none else state.lockedBy }

/-! ## Calls and the turn -/

inductive ConfirmationEvent where
  | submit (call : Nat) (env : SubmitEnv)
  | abandon (call : Nat)
  | startTurn
  | registerRequest (requestId : String)
  | resume
  | endTurn

/-- What an event of the turn does to the coordinator. -/
def turnEvent (coordinator : SessionToolConfirmationState) : ConfirmationEvent -> SessionToolConfirmationState
  | .startTurn => { coordinator with turnActive := true }
  | .registerRequest requestId =>
      if coordinator.turnActive then coordinator.registerRequest requestId else coordinator
  | .resume => if coordinator.turnActive && coordinator.resumes then coordinator.clearConfirmations else coordinator
  | .endTurn => { coordinator.clearConfirmations with turnActive := false }
  | .submit _ _ | .abandon _ => coordinator

/-- The state after an event. -/
def SubmissionState.occur (calls : Nat -> Submission) (event : ConfirmationEvent) (state : SubmissionState) :
    SubmissionState :=
  match event with
  | .submit call env => submitToolConfirmation calls call env state
  | .abandon call => AIBuddy.abandon call state
  | event => { state with coordinator := turnEvent state.coordinator event }

/-- The state after a run of events. -/
def runSubmissions (calls : Nat -> Submission) : List ConfirmationEvent -> SubmissionState ->
    Except String SubmissionState :=
  Runs.run fun event state => .ok (state.occur calls event)

/-- Whether a condition holds before every event of a run. -/
def AlongSubmissions (calls : Nat -> Submission) (condition : SubmissionState -> ConfirmationEvent -> Prop) :
    List ConfirmationEvent -> SubmissionState -> Prop :=
  Runs.Along (fun event state => (.ok (state.occur calls event) : Except String SubmissionState)) condition

/-- Nobody has submitted anything yet. -/
structure Unsubmitted (state : SubmissionState) : Prop where
  arrived : forall call, state.phases call = .arrived
  unlocked : state.lockedBy = none
  nothing : state.stored = []

/-! ## Stored decisions -/

theorem persistToolConfirmationDecision_eq (session : Session) (now : Int) (messageId requestId : String)
    (permission : Permission) :
    persistToolConfirmationDecision session now messageId requestId permission =
      (confirmationDecision session now messageId requestId permission).map fun message =>
        (message.map (addMessage session.rows)).getD session.rows := by
  unfold persistToolConfirmationDecision confirmationDecision
  cases messagesSinceKickoff session.conversation with
  | error error => rfl
  | ok messages =>
      simp only [bind, Except.bind]
      split
      · rfl
      · cases (ApprovalState.fromMessages messages).confirmationResponse requestId with
        | some persisted =>
            simp only
            split <;> rfl
        | none =>
            simp only
            split <;> rfl

/-- The decision of the current turn about a request, if there is one. -/
def decidedIn (session : Session) (requestId : String) : Option Permission :=
  (turn? session.conversation).bind fun turn => confirmationResponse turn requestId

/-- A message that holds the decision of a call. -/
structure Decides (submission : Submission) (message : Message) : Prop where
  content : message.content =
    [.actionRequired (.toolConfirmationResponse submission.requestId submission.decision)]
  notKickoff : isKickoff message = false

theorem decides_decisionMessage (submission : Submission) (now : Int) (messageId : String) :
    Decides submission (decisionMessage now messageId submission.requestId submission.decision) :=
  ⟨rfl, rfl⟩

theorem confirmationDecision_eq_some {session : Session} {submission : Submission} {now : Int} {messageId : String}
    {message : Message}
    (decided : confirmationDecision session now messageId submission.requestId submission.decision =
      .ok (some message)) :
    Decides submission message ∧ (turn? session.conversation).isSome ∧
      decidedIn session submission.requestId = none := by
  simp only [confirmationDecision, bind_eq_ok_iff, messagesSinceKickoff_eq_ok_iff] at decided
  rcases decided with ⟨turn, found, decided⟩
  split at decided
  · contradiction
  · split at decided
    · split at decided
      · cases decided
      · contradiction
    · case _ undecided =>
        split at decided
        · contradiction
        · cases decided
          refine ⟨decides_decisionMessage submission now messageId, ?_, ?_⟩
          · rw [found]
            rfl
          · rw [decidedIn, found]
            exact undecided

theorem Decides.dated {submission : Submission} {message : Message} (decides : Decides submission message)
    (rows : List Message) : Decides submission (datedAfter rows message) :=
  ⟨decides.content, decides.notKickoff⟩

theorem confirmationResponses_of_decides {submission : Submission} {message : Message}
    (decides : Decides submission message) (turn : List Message) :
    confirmationResponses (turn ++ [message]) =
      confirmationResponses turn ++ [(submission.requestId, submission.decision)] := by
  simp [confirmationResponses, decides.content, MessageContentBlock.asActionRequired]

theorem decidedIn_addMessage {session : Session} {submission : Submission} {message : Message}
    (decides : Decides submission message) (turn : (turn? session.conversation).isSome) (requestId : String) :
    decidedIn { session with rows := addMessage session.rows message } requestId =
      if requestId = submission.requestId then some submission.decision else decidedIn session requestId := by
  rcases Option.isSome_iff_exists.mp turn with ⟨messages, found⟩
  have dated := decides.dated session.rows
  have extended : turn? (Session.conversation { session with rows := addMessage session.rows message }) =
      some (messages ++ [datedAfter session.rows message]) := by
    unfold Session.conversation turn?
    rw [getConversation_addMessage, suffixFromLast_concat, dated.notKickoff]
    unfold Session.conversation turn? at found
    rw [found]
    rfl
  unfold decidedIn confirmationResponse
  rw [extended, found, Option.bind_some, Option.bind_some, confirmationResponses_of_decides dated,
    List.reverse_append, List.reverse_singleton, List.singleton_append, List.lookup_cons]
  by_cases same : requestId = submission.requestId
  · simp [same]
  · have notEqual : (requestId == submission.requestId) = false := beq_eq_false_iff_ne.mpr same
    rw [notEqual, if_neg same]

end AIBuddy
