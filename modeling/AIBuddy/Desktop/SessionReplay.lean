import AIBuddy.Desktop.Adapter
import AIBuddy.Desktop.EditMessage

namespace AIBuddy
namespace Desktop

/-!
# A session that is loaded while it runs

The store keeps the messages of a session beside the adapter that builds them.  While a session
is loaded, the messages are in the adapter only, and the store takes them over at the end.  A
steer message is shown before the server has it: it is put among the messages of the store, and
a new adapter begins with these.  Next to the store there is an adapter that gets every
notification since the beginning of the load and is never made anew.
-/

/-- The entry of a session in the store. -/
structure SessionEntry where
  messages : List Message
  adapter : AdapterState
  chatState : ChatState
  activePromptAttemptId : Option String
  lastSnapshot : Bool
  pendingLocalSteerMessageIds : List String
  preConfirmedSteerMessageIds : List String

/-- The identifiers of messages, as far as they have one. -/
def messageIds (messages : List Message) : List String :=
  messages.filterMap fun message => truthy message.id

namespace SessionEntry

/-- Steer messages that are not among the messages are not pending any more. -/
def retainPendingLocalSteerMessageIds (entry : SessionEntry) : SessionEntry :=
  { entry with
    pendingLocalSteerMessageIds := entry.pendingLocalSteerMessageIds.filter fun id =>
      decide (id ∈ messageIds entry.messages) }

/-- The identifier and the text of a steer message that is not pending. -/
def steerText? (pending : List String) (message : Message) : Option (String × String) :=
  match truthy message.id, message.content with
  | some id, .text text _ _ :: _ => if message.metadata.steer = true ∧ id ∉ pending then some (id, text) else none
  | _, _ => none

def confirmedLocalSteerTextByMessageId (entry : SessionEntry) : Table String String :=
  (entry.messages.filterMap (steerText? entry.pendingLocalSteerMessageIds)).foldl
    (fun texts text => texts.insert text.1 text.2) Table.empty

/-- A new adapter begins with the messages of the entry. -/
def createAdapterForEntry (entry : SessionEntry) : AdapterState :=
  createAcpSessionNotificationAdapter entry.messages entry.confirmedLocalSteerTextByMessageId

def discardPendingLocalSteerMessages (entry : SessionEntry) : SessionEntry :=
  if entry.pendingLocalSteerMessageIds = [] then entry
  else
    let next := { entry with
      messages := entry.messages.filter fun message =>
        !(truthy message.id).any fun id => decide (id ∈ entry.pendingLocalSteerMessageIds)
      pendingLocalSteerMessageIds := [] }
    { next with adapter := next.createAdapterForEntry }

/-- Apply one change to the messages and to the steer messages. -/
def applyChatStateChange (entry : SessionEntry) : AcpChatStateChange -> SessionEntry
  | .messages messages => { entry with messages := messages }.retainPendingLocalSteerMessageIds
  | .localSteerConfirmed id =>
      if id ∈ entry.pendingLocalSteerMessageIds then
        { entry with
          pendingLocalSteerMessageIds := entry.pendingLocalSteerMessageIds.filter fun other => decide (other ≠ id) }
      else { entry with preConfirmedSteerMessageIds := id :: entry.preConfirmedSteerMessageIds }
  | .sessionInfo _ _ => entry

def isMessages : AcpChatStateChange -> Bool
  | .messages _ => true
  | _ => false

/-- Apply a notification.  While the session is loaded, the messages stay in the adapter. -/
def applyAcpSessionNotification (entry : SessionEntry) (now : Int) (update : SessionUpdate) : SessionEntry :=
  let applied := Desktop.applyAcpSessionNotification now entry.adapter update
  let next := { entry with adapter := applied.1 }
  if entry.chatState = .loadingConversation ∧ entry.lastSnapshot = true then
    (applied.2.filter fun change => !isMessages change).foldl applyChatStateChange next
  else { applied.2.foldl applyChatStateChange next with lastSnapshot := true }

/-- Whether a steer message is put among the messages. -/
def adds? (entry : SessionEntry) (message : Message) : Option String :=
  (truthy message.id).filter fun id => decide (id ∉ messageIds entry.messages)

def addPendingLocalSteerMessage (entry : SessionEntry) (message : Message) : SessionEntry :=
  match entry.adds? message with
  | none => { entry with lastSnapshot := true }
  | some id =>
      let confirmed := decide (id ∈ entry.preConfirmedSteerMessageIds)
      let next := { entry with
        messages := entry.messages ++ [message]
        preConfirmedSteerMessageIds := entry.preConfirmedSteerMessageIds.filter fun other => decide (other ≠ id)
        pendingLocalSteerMessageIds :=
          if confirmed ∨ id ∈ entry.pendingLocalSteerMessageIds then entry.pendingLocalSteerMessageIds
          else entry.pendingLocalSteerMessageIds ++ [id]
        lastSnapshot := true }
      { next with adapter := next.createAdapterForEntry }

def startPromptAttempt (entry : SessionEntry) (promptAttemptId : String) : SessionEntry :=
  { entry.discardPendingLocalSteerMessages with
    activePromptAttemptId := some promptAttemptId
    chatState := .streaming
    lastSnapshot := true }

/-- Forget what was shown and replay the conversation. -/
def startSessionLoad (entry : SessionEntry) : SessionEntry :=
  { entry with
    messages := []
    adapter := createAcpSessionNotificationAdapter [] Table.empty
    chatState := .loadingConversation
    lastSnapshot := true
    pendingLocalSteerMessageIds := []
    preConfirmedSteerMessageIds := [] }

/-- Take over the messages of the adapter. -/
def finishSessionLoad (entry : SessionEntry) : SessionEntry :=
  { { entry with messages := entry.adapter.messages }.retainPendingLocalSteerMessageIds with
    chatState := if entry.activePromptAttemptId.isSome then .streaming else .idle
    lastSnapshot := true }

def failSessionLoad (entry : SessionEntry) : SessionEntry :=
  { entry with
    chatState := .idle
    lastSnapshot := true }

end SessionEntry

/-! ## The session and the adapter that is never rebuilt -/

/-- A session since the beginning of a load: the entry, the adapter that is never made anew,
whether the load has finished, the steer messages that were added, and those that were not
discarded. -/
structure Session where
  entry : SessionEntry
  whole : AdapterState
  loaded : Bool
  steered : List String
  kept : List String

namespace Session

inductive Step where
  | notification (now : Int) (update : SessionUpdate)
  | addPendingLocalSteerMessage (message : Message)
  | startPromptAttempt (promptAttemptId : String)
  | startSessionLoad
  | finishSessionLoad
  | failSessionLoad

/-- A load has just begun. -/
def loading (entry : SessionEntry) : Session :=
  ⟨entry.startSessionLoad, createAcpSessionNotificationAdapter [] Table.empty, false, [], []⟩

def after (session : Session) : Step -> Session
  | .notification now update =>
      { session with
        entry := session.entry.applyAcpSessionNotification now update
        whole := (applyAcpSessionNotification now session.whole update).1 }
  | .addPendingLocalSteerMessage message =>
      let added := (session.entry.adds? message).toList
      { session with
        entry := session.entry.addPendingLocalSteerMessage message
        steered := session.steered ++ added
        kept := session.kept ++ added }
  | .startPromptAttempt promptAttemptId =>
      { session with
        entry := session.entry.startPromptAttempt promptAttemptId
        kept := session.kept.filter fun id => decide (id ∉ session.entry.pendingLocalSteerMessageIds) }
  | .startSessionLoad => loading session.entry
  | .finishSessionLoad => { session with entry := session.entry.finishSessionLoad, loaded := true }
  | .failSessionLoad => { session with entry := session.entry.failSessionLoad }

def advance (step : Step) (session : Session) : Except Unit Session :=
  .ok (session.after step)

end Session

/-- Whether a message is one of some steer messages. -/
def isAmong (steered : List String) (message : Message) : Bool :=
  (truthy message.id).any fun id => decide (id ∈ steered)

/-- The messages that are none of some steer messages. -/
def others (steered : List String) (messages : List Message) : List Message :=
  messages.filter fun message => !isAmong steered message

/-- After the load the messages are those of the adapter that is never rebuilt, next to the
steer messages that were added: none that was not discarded is missing, and none that the server
has sent. -/
def Session.Complete (session : Session) : Prop :=
  session.loaded = true ->
    others session.steered session.entry.messages = others session.steered session.whole.messages ∧
      (forall id, id ∈ session.kept -> id ∈ messageIds session.entry.messages) ∧
      (forall id, id ∈ session.steered -> id ∈ messageIds session.whole.messages ->
        id ∈ messageIds session.entry.messages)

end Desktop
end AIBuddy
