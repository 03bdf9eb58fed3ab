import AIBuddy.Desktop.EditMessage
import AIBuddy.Support.Runs

namespace AIBuddy
namespace Desktop

/-!
# Requests for user input

While a prompt runs, the server asks for permissions and for answers.  Two registries hold the
requests that nobody has resolved, and the store of a session has the identifiers that it waits
for and the state that the chat shows.  Here is one session: its entry of the store and the
requests that the registries hold of it.  A cancelled prompt that could not be cancelled after
all gets the earlier state and identifiers back.
-/

/-- What a cancellation keeps, in case it fails. -/
structure CancellationRestoreState where
  activeRunId : Option String
  chatState : ChatState
  pendingUserInputRequestIds : List String
deriving DecidableEq

/-- The entry of a session in the store. -/
structure StoreEntry where
  chatState : ChatState
  activePromptAttemptId : Option String
  activeRunId : Option String
  pendingCancelPromptAttemptId : Option String
  promptCancellationRestoreState : Option CancellationRestoreState
  pendingUserInputRequestIds : List String
deriving DecidableEq

/-- An entry that was just made. -/
def emptyEntry : StoreEntry :=
  ⟨.idle, none, none, none, none, []⟩

/-- The requests of permissions with their generations and those of elicitations, the entry of
the store, and whether the session is being loaded. -/
structure UserInput where
  permissions : List (String × String)
  elicitations : List String
  entry : Option StoreEntry
  loading : Bool
deriving DecidableEq

def acpPermissionUserInputRequestId (toolCallId : String) : String :=
  "permission:" ++ toolCallId

def acpElicitationUserInputRequestId (elicitationId : String) : String :=
  "elicitation:" ++ elicitationId

/-- Add an identifier to a set of them. -/
def addId (id : String) (ids : List String) : List String :=
  if id ∈ ids then ids else ids ++ [id]

/-- Remove an identifier from a set of them. -/
def removeId (id : String) (ids : List String) : List String :=
  ids.filter fun other => decide (other ≠ id)

/-! ## Actions of the store -/

namespace StoreEntry

/-- A request arrives and the chat waits for it. -/
def request (entry : StoreEntry) (id : String) : StoreEntry :=
  { entry with
    pendingUserInputRequestIds := addId id entry.pendingUserInputRequestIds
    chatState := .waitingForUserInput }

/-- Drop a request from those that are waited for. -/
def dropped (entry : StoreEntry) (id : String) : StoreEntry :=
  { entry with pendingUserInputRequestIds := removeId id entry.pendingUserInputRequestIds }

/-- A request is resolved; the chat goes on after the last one. -/
def resolveUserInputRequest (entry : StoreEntry) (id : String) : StoreEntry :=
  let next := entry.dropped id
  if next.activePromptAttemptId.isSome ∧ next.chatState = .waitingForUserInput ∧ next.pendingUserInputRequestIds = [] then
    { next with chatState := .streaming }
  else next

def startSessionLoad (entry : StoreEntry) : StoreEntry :=
  { entry with
    activeRunId := none
    pendingCancelPromptAttemptId := none
    promptCancellationRestoreState := none
    pendingUserInputRequestIds := []
    chatState := .loadingConversation }

def finishSessionLoad (entry : StoreEntry) : StoreEntry :=
  { entry with chatState := if entry.activePromptAttemptId.isSome then .streaming else .idle }

def failSessionLoad (entry : StoreEntry) : StoreEntry :=
  { entry with chatState := .idle }

def startPromptAttempt (entry : StoreEntry) (promptAttemptId : String) : StoreEntry :=
  { entry with
    activePromptAttemptId := some promptAttemptId
    activeRunId := none
    pendingCancelPromptAttemptId := none
    promptCancellationRestoreState := none
    pendingUserInputRequestIds := []
    chatState := .streaming }

def startPromptCancellation (entry : StoreEntry) (promptAttemptId : String) : StoreEntry :=
  if entry.activePromptAttemptId = some promptAttemptId then
    { entry with
      promptCancellationRestoreState :=
        some ⟨entry.activeRunId, entry.chatState, entry.pendingUserInputRequestIds⟩
      activePromptAttemptId := none
      activeRunId := none
      pendingCancelPromptAttemptId := some promptAttemptId
      pendingUserInputRequestIds := []
      chatState := .idle }
  else entry

def clearPromptCancellation (entry : StoreEntry) (promptAttemptId : String) : StoreEntry :=
  if entry.pendingCancelPromptAttemptId = some promptAttemptId then
    { entry with
      pendingCancelPromptAttemptId := none
      promptCancellationRestoreState := none }
  else entry

/-- What a cancellation that is given up restores, when it is the pending one. -/
def restores (entry : StoreEntry) (promptAttemptId : String) : Option CancellationRestoreState :=
  if entry.pendingCancelPromptAttemptId = some promptAttemptId then entry.promptCancellationRestoreState else none

def restorePromptCancellation (entry : StoreEntry) (promptAttemptId : String) : StoreEntry :=
  match entry.restores promptAttemptId with
  | some kept =>
      { entry with
        activePromptAttemptId := some promptAttemptId
        activeRunId := kept.activeRunId
        pendingCancelPromptAttemptId := none
        promptCancellationRestoreState := none
        pendingUserInputRequestIds := kept.pendingUserInputRequestIds
        chatState := kept.chatState }
  | none => entry

def finishPromptAttemptIfCurrent (entry : StoreEntry) (promptAttemptId : String) : StoreEntry :=
  if entry.activePromptAttemptId = some promptAttemptId then
    { entry with
      activePromptAttemptId := none
      activeRunId := none
      pendingCancelPromptAttemptId := none
      promptCancellationRestoreState := none
      pendingUserInputRequestIds := []
      chatState := .idle }
  else entry

def clearActivePromptAttempt (entry : StoreEntry) : StoreEntry :=
  { entry with
    activePromptAttemptId := none
    activeRunId := none
    pendingUserInputRequestIds := []
    chatState := .idle }

end StoreEntry

namespace UserInput

/-- Change the entry, which is made when it is not there. -/
def onEntry (state : UserInput) (change : StoreEntry -> StoreEntry) : UserInput :=
  { state with entry := some (change (state.entry.getD emptyEntry)) }

/-- Change the entry, if it is there. -/
def ifEntry (state : UserInput) (change : StoreEntry -> StoreEntry) : UserInput :=
  { state with entry := state.entry.map change }

/-! ## Actions of the registries -/

/-- A permission is requested; an earlier request of the same call is answered as cancelled. -/
def requestAcpPermission (state : UserInput) (toolCallId generation : String) : UserInput :=
  { state with
    permissions := (state.permissions.filter fun other => decide (other.1 ≠ toolCallId)) ++ [(toolCallId, generation)]
    entry := some ((state.entry.getD emptyEntry).request (acpPermissionUserInputRequestId toolCallId)) }

/-- A permission is given or denied, if the generation is the one of the request. -/
def resolveAcpPermissionRequest (state : UserInput) (toolCallId : String) (generation : Option String) : UserInput :=
  match truthy generation with
  | none => state
  | some generation =>
      if (toolCallId, generation) ∈ state.permissions then
        { state with
          permissions := state.permissions.filter fun other => decide (other.1 ≠ toolCallId)
          entry := state.entry.map fun entry =>
            entry.resolveUserInputRequest (acpPermissionUserInputRequestId toolCallId) }
      else state

/-- All requests of permissions are answered as cancelled, and the store drops them. -/
def cancelAcpPermissionRequestsForSession (state : UserInput) : UserInput :=
  { state with
    permissions := []
    entry := state.entry.map fun entry =>
      state.permissions.foldl (fun entry request => entry.dropped (acpPermissionUserInputRequestId request.1)) entry }

/-- An answer is requested, under a new identifier. -/
def requestAcpElicitation (state : UserInput) (id : String) : UserInput :=
  { state with
    elicitations := addId id state.elicitations
    entry := some ((state.entry.getD emptyEntry).request (acpElicitationUserInputRequestId id)) }

/-- An answer is given, or its time is over; in both cases the request is resolved. -/
def settleAcpElicitationRequest (state : UserInput) (id : String) : UserInput :=
  if id ∈ state.elicitations then
    { state with
      elicitations := removeId id state.elicitations
      entry := state.entry.map fun entry => entry.resolveUserInputRequest (acpElicitationUserInputRequestId id) }
  else state

/-- All requests of answers are cancelled; the store keeps their identifiers. -/
def cancelAcpElicitationRequestsForSession (state : UserInput) : UserInput :=
  { state with elicitations := [] }

/-! ## Steps -/

inductive Step where
  | requestPermission (toolCallId generation : String)
  | resolvePermission (toolCallId : String) (generation : Option String)
  | cancelPermissions
  | requestElicitation (id : String)
  | resolveElicitation (id : String)
  | timeoutElicitation (id : String)
  | cancelElicitations
  | startSessionLoad
  | finishSessionLoad
  | failSessionLoad
  | startPromptAttempt (promptAttemptId : String)
  | startPromptCancellation (promptAttemptId : String)
  | clearPromptCancellation (promptAttemptId : String)
  | restorePromptCancellation (promptAttemptId : String)
  | finishPromptAttemptIfCurrent (promptAttemptId : String)
  | clearActivePromptAttempt
deriving DecidableEq

def after (state : UserInput) : Step -> UserInput
  | .requestPermission toolCallId generation => state.requestAcpPermission toolCallId generation
  | .resolvePermission toolCallId generation => state.resolveAcpPermissionRequest toolCallId generation
  | .cancelPermissions => state.cancelAcpPermissionRequestsForSession
  | .requestElicitation id => state.requestAcpElicitation id
  | .resolveElicitation id => state.settleAcpElicitationRequest id
  | .timeoutElicitation id => state.settleAcpElicitationRequest id
  | .cancelElicitations => state.cancelAcpElicitationRequestsForSession
  | .startSessionLoad => { state.onEntry StoreEntry.startSessionLoad with loading := true }
  | .finishSessionLoad => { state.onEntry StoreEntry.finishSessionLoad with loading := false }
  | .failSessionLoad => { state.onEntry StoreEntry.failSessionLoad with loading := false }
  | .startPromptAttempt promptAttemptId => state.onEntry fun entry => entry.startPromptAttempt promptAttemptId
  | .startPromptCancellation promptAttemptId =>
      state.ifEntry fun entry => entry.startPromptCancellation promptAttemptId
  | .clearPromptCancellation promptAttemptId =>
      state.ifEntry fun entry => entry.clearPromptCancellation promptAttemptId
  | .restorePromptCancellation promptAttemptId =>
      state.ifEntry fun entry => entry.restorePromptCancellation promptAttemptId
  | .finishPromptAttemptIfCurrent promptAttemptId =>
      state.ifEntry fun entry => entry.finishPromptAttemptIfCurrent promptAttemptId
  | .clearActivePromptAttempt => state.ifEntry StoreEntry.clearActivePromptAttempt

def advance (step : Step) (state : UserInput) : Except Unit UserInput :=
  .ok (state.after step)

/-- Nothing was requested and the store has no entry yet. -/
def start : UserInput :=
  ⟨[], [], none, false⟩

/-- The identifiers of the requests that the registries hold. -/
def unresolved (state : UserInput) : List String :=
  state.permissions.map (fun request => acpPermissionUserInputRequestId request.1) ++
    state.elicitations.map acpElicitationUserInputRequestId

/-- An attempt is active. -/
def active (state : UserInput) : Bool :=
  state.entry.any fun entry => entry.activePromptAttemptId.isSome

/-- Whenever an attempt is active and no load is in progress, the chat waits for the user exactly
when the registries hold a request. -/
def WaitsForRequests (state : UserInput) : Prop :=
  state.loading = false -> forall entry, state.entry = some entry -> entry.activePromptAttemptId.isSome = true ->
    (entry.chatState = .waitingForUserInput ↔ state.unresolved ≠ [])

end UserInput
end Desktop
end AIBuddy
