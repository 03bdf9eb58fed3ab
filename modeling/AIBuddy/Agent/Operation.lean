import AIBuddy.Agent.Session
import AIBuddy.Conversation.Fix
import AIBuddy.Support.LastSuffix

namespace AIBuddy

open LastSuffix

/-!
# Operations

An operation looks at the conversation and either declines or produces effects.
Its decisions are read off the messages since the kickoff, the last message that
the user wrote and can see.
-/

/-! ## Reading the conversation -/

/-- Whether a message opens a turn. -/
def isKickoff (message : Message) : Bool :=
  message.role == .user && message.isUserVisible && !message.isToolResponse

/-- The current turn, when the conversation has one. -/
def turn? (conversation : List Message) : Option (List Message) :=
  suffixFromLast isKickoff conversation

def messagesSinceKickoff (conversation : List Message) : Except String (List Message) :=
  match turn? conversation with
  | some turn => .ok turn
  | none => .error "state machine conversation has no kickoff message"

theorem messagesSinceKickoff_eq_ok_iff (conversation turn : List Message) :
    messagesSinceKickoff conversation = .ok turn ↔ turn? conversation = some turn := by
  unfold messagesSinceKickoff
  cases turn? conversation <;> simp

def trailingError (conversation : List Message) : Option MessageErrorKind :=
  conversation.getLast?.bind Message.errorKind

def lastEffectiveRole (messages : List Message) : Except String EffectiveRole :=
  match messages.getLast? with
  | some last => .ok (effectiveRole last)
  | none => .error "cannot determine the role of an empty conversation"

/-- The number of maximal blocks of assistant messages. -/
def assistantTurnCount (messages : List Message) : Nat :=
  (messages.foldr (fun message (state : Nat × Bool) =>
    if message.role = .assistant then (if state.2 then state.1 else state.1 + 1, true)
    else (state.1, false)) (0, false)).1

/-- Whether the assistant has finished its turn. -/
def endsTurn (messages : List Message) : Bool :=
  match messages.getLast? with
  | none => false
  | some last =>
      last.role == .assistant && last.errorKind.isNone &&
        !last.content.any fun block => block.asToolRequest.isSome || block.asActionRequired.isSome

def Message.toolRequests (message : Message) : List ToolRequest :=
  message.content.filterMap MessageContentBlock.asToolRequest

/-- The ids answered by the tool responses of a message. -/
def Message.toolResponseIds (message : Message) : List String :=
  message.content.filterMap fun block => block.asToolResponse.map ToolResponse.id

/-- The ids answered anywhere in a list of messages. -/
def answeredIds (messages : List Message) : List String :=
  messages.flatMap Message.toolResponseIds

/-! ## Results of a step -/

/-- The operations of the agent, by the names under which they leave notes. -/
inductive OperationName where
  | entryHook
  | slashCommand
  | steer
  | maxTurns
  | bangShell
  | compaction
  | toolPairCompaction
  | toolApproval
  | doctor
  | project
  | skills
  | recipe
  | toolExecution
  | unknownTool
  | retry
  | stopHook
  | exitOnError
  | llm
deriving DecidableEq, Repr

/-- What a step did.  The requests handed to a tool, and whether the provider was
asked, are recorded beside the effects, because neither leaves a trace in them. -/
structure StepResult where
  effects : List AIBuddyEffect
  appliedStep : Option OperationName := none
  yieldToClient : Bool := false
  dispatched : List ToolRequest := []
  askedProvider : Bool := false
deriving DecidableEq

inductive OperationResult where
  | notApplicable
  | applied (result : StepResult)
deriving DecidableEq

namespace OperationResult

/-- Effects after which the machine goes on. -/
def proceed (effects : List AIBuddyEffect) (dispatched : List ToolRequest := []) : OperationResult :=
  .applied { effects := effects, dispatched := dispatched }

/-- Effects after which the machine returns to its client. -/
def yieldedWith (effects : List AIBuddyEffect) : OperationResult :=
  .applied { effects := effects, yieldToClient := true }

/-- Record that the provider was asked. -/
def asked : OperationResult -> OperationResult
  | notApplicable => notApplicable
  | applied result => applied { result with askedProvider := true }

end OperationResult

/-! ## Replies to slash commands -/

/-- Effects that need the id of the message with the command. -/
def onCommandMessage (missing : String) (conversation : List Message)
    (reply : String -> OperationResult) : Except String OperationResult := do
  let messages <- messagesSinceKickoff conversation
  match messages.head? with
  | none => .error missing
  | some command =>
      match command.id with
      | none => .error "Persisted slash command message has no id"
      | some messageId => .ok (reply messageId)

/-- Hide a message from the agent. -/
def hideFromAgent (messageId : String) : AIBuddyEffect :=
  .conversation (.setMessageVisibility messageId true false)

/-- Answer a command with a message for the user and stop. -/
def commandResponse (missing : String) (conversation : List Message) (response : Message) :
    Except String OperationResult :=
  onCommandMessage missing conversation fun messageId =>
    .yieldedWith [hideFromAgent messageId, .append response.userOnly]

/-- Turn a command into messages for the agent and go on. -/
def commandPrompt (missing : String) (conversation : List Message) (effects : List AIBuddyEffect) :
    Except String OperationResult :=
  onCommandMessage missing conversation fun messageId =>
    .proceed (hideFromAgent messageId :: effects)

end AIBuddy
