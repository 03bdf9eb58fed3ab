import AIBuddy.Agent.Environment

namespace AIBuddy

/-!
# Operations on the course of a turn

Operations that add what the user queued, stop at the turn budget, run a direct
shell command, or decide whether a finished turn may end.
-/

/-- The message as the user sees it, adjacent texts for the same audience joined. -/
def Message.userVisibleContent (message : Message) : Message :=
  let visible := message.content.filterMap fun block =>
    match block with
    | .text _ | .image _ | .toolResponse _ => block.filterForAudience .user
    | _ => some block
  { message with content := visible.foldl pushTextContent [] }

/-! ## Before the turn goes on -/

/-- Hooks at the entry of a turn observe it and change nothing. -/
def entryHookRun (conversation : List Message) : Except String OperationResult := do
  let _messages <- messagesSinceKickoff conversation
  return .notApplicable

def Message.withSteer (message : Message) : Message :=
  { message with metadata := { message.metadata with steer := true } }

def steerRun (env : StepEnv) (conversation : List Message) : Except String OperationResult := do
  let messages <- messagesSinceKickoff conversation
  let role <- lastEffectiveRole messages
  let betweenTurns := endsTurn messages || role == .tool
  return if !betweenTurns || env.steerQueue.isEmpty then .notApplicable
    else .proceed (env.steerQueue.map fun message => .append message.withSteer)

def maxTurnsMessage : String :=
  "I've reached the maximum number of actions I can do without user input. Would you like me to continue?"

def maxTurnsRun (machine : Machine) (env : StepEnv) (conversation : List Message) :
    Except String OperationResult := do
  let messages <- messagesSinceKickoff conversation
  return if assistantTurnCount messages < machine.maxTurns then .notApplicable
    else .yieldedWith [.append (assistantText machine env maxTurnsMessage)]

/-! ## Direct shell commands -/

def shellToolName : String := "shell"

/-- The command of a message that begins with an exclamation mark. -/
def bangShellCommand (message : String) : Option String :=
  ((Text.stripPrefixChar '!' (Text.trimStart message)).map Text.trimStart).filter fun command => command != ""

def bangShellRequest (env : StepEnv) (command : String) : Message :=
  Message.withToolRequest (.assistant env.now) env.bangShellId
    (.ok ⟨shellToolName, some [("command", .string command)]⟩)

def bangShellRun (env : StepEnv) (conversation : List Message) : Except String OperationResult := do
  let messages <- messagesSinceKickoff conversation
  match messages.head? with
  | none => return .notApplicable
  | some kickoff =>
      match bangShellCommand kickoff.userVisibleContent.asConcatText with
      | none => return .notApplicable
      | some command =>
          if messages.length > 1 then
            let role <- lastEffectiveRole messages
            return if role = .tool then .yieldedWith [] else .notApplicable
          else return .proceed [.append (bangShellRequest env command)]

/-! ## Retrying -/

def retryOperationName : String := "retry"
def nudgedNote : String := "nudged"
def attemptsNote : String := "attempts"

def retryError (env : StepEnv) (error : String) : Message :=
  errorMessage env .other ("Retry logic encountered an error: " ++ error)

/-- A natural number, when the value is one. -/
def Json.asNat : Json -> Option Nat
  | .number (.integer value) => if 0 ≤ value then some value.toNat else none
  | _ => none

/-- The attempts noted on the kickoff message. -/
def retryAttempts (messages : List Message) : Nat :=
  ((((messages.head?.bind fun message =>
    message.metadata.operationNote retryOperationName attemptsNote).bind Json.asNat).getD 0)) % UInt32.size

def goalWasNudged (messages : List Message) : Bool :=
  messages.any fun message => (message.metadata.operationNote retryOperationName nudgedNote).isSome

def Message.withNote (message : Message) (operation key : String) (value : Json) : Message :=
  message.withMetadata (message.metadata.setOperationNote operation key value)

def goalNudge (machine : Machine) (env : StepEnv) (goal : String) : Message :=
  (agentNote machine env ("Before finishing, check whether the following goal has been fully met:\n\n**Goal:** " ++
    goal ++ "\n\nIf not, continue working toward it.")).withNote retryOperationName nudgedNote (.bool true)

def grindNudge (machine : Machine) (env : StepEnv) (grind : String) : Message :=
  agentNote machine env ("Keep working. The grind goal is not yet complete:\n\n**Goal:** " ++ grind ++
    "\n\nContinue until it is fully done.")

/-- The conversation up to and including the kickoff, with the attempts noted on
the kickoff. -/
def resetConversation (conversation messages : List Message) (attempts : Nat) : List Message :=
  conversation.take (conversation.length - messages.length) ++
    (messages.take 1).map fun kickoff =>
      kickoff.withNote retryOperationName attemptsNote (.number (.integer (attempts + 1)))

/-- What a finished turn without goals comes to: it may end, fail or start over. -/
def retryChecked (env : StepEnv) (retryConfig : RetryConfig) (conversation messages : List Message) :
    OperationResult :=
  match env.retryChecks with
  | .error error => .proceed [.append (retryError env error)]
  | .ok true => .notApplicable
  | .ok false =>
      let attempts := retryAttempts messages
      if retryConfig.maxRetries ≤ attempts then
        .proceed [.append (errorMessage env .other ("Maximum retry attempts (" ++ toString retryConfig.maxRetries ++
          ") exceeded. Unable to complete the task successfully."))]
      else
        match (retryConfig.onFailure.map env.onFailure).getD (.ok ()) with
        | .error error => .proceed [.append (retryError env error)]
        | .ok () =>
            .proceed [.conversation (.replaceConversation (resetConversation conversation messages attempts))]

/-- Nudge the agent towards its goals, or forget them and check the turn. -/
def retryFinished (machine : Machine) (env : StepEnv) (agent : Agent) (session : Session)
    (conversation messages : List Message) : OperationResult × Agent :=
  match (if goalWasNudged messages then none else agent.goal), agent.grind with
  | some goal, _ => (.proceed [.append (goalNudge machine env goal)], agent)
  | none, some grind => (.proceed [.append (grindNudge machine env grind)], agent)
  | none, none =>
      (match session.recipe.bind Recipe.retry with
        | none => .notApplicable
        | some retryConfig => retryChecked env retryConfig conversation messages,
        { agent with goal := none, grind := none })

def retryRun (machine : Machine) (env : StepEnv) (agent : Agent) (session : Session)
    (conversation : List Message) : Except String (OperationResult × Agent) := do
  let messages <- messagesSinceKickoff conversation
  return if endsTurn messages then retryFinished machine env agent session conversation messages
    else (.notApplicable, agent)

/-! ## Ending the turn -/

def stopHookOperationName : String := "stop_hook"
def deniedNote : String := "denied"

def denialContextMessage (machine : Machine) (env : StepEnv) (plugin reason : String) : Message :=
  (agentNote machine env ("Stop hook `" ++ plugin ++ "` blocked ending this turn:\n\n" ++ reason ++
    "\n\nAddress this policy hook denial before trying to stop again.")).withNote
      stopHookOperationName deniedNote (.bool true)

def blockCapWarning (env : StepEnv) (plugin : String) (cap : Nat) : Message :=
  ((Message.assistant env.now).withContent (.systemNotification ⟨.inlineMessage,
    "Stop hook `" ++ plugin ++ "` blocked the turn from ending more than " ++ toString cap ++
      " consecutive times — overriding and ending turn to avoid an infinite loop. Set " ++
      "AIBUDDY_STOP_HOOK_BLOCK_CAP to raise this limit.", none⟩)).withMetadata MessageMetadata.userOnly

/-- What stop hooks make of a finished turn. -/
def stopHookFinished (machine : Machine) (env : StepEnv) (messages : List Message) : OperationResult :=
  match env.stopHook with
  | .allow => .yieldedWith []
  | .deny reason plugin =>
      let blocks := (messages.filter fun message =>
        (message.metadata.operationNote stopHookOperationName deniedNote).isSome).length + 1
      if machine.stopHookBlockCap < blocks then
        .yieldedWith [.append (blockCapWarning env plugin machine.stopHookBlockCap)]
      else .proceed [.append (denialContextMessage machine env plugin reason)]

def stopHookRun (machine : Machine) (env : StepEnv) (conversation : List Message) :
    Except String OperationResult := do
  let messages <- messagesSinceKickoff conversation
  return if endsTurn messages then stopHookFinished machine env messages else .notApplicable

def exitOnErrorRun (conversation : List Message) : Except String OperationResult :=
  .ok (if (trailingError conversation).isNone then .notApplicable else .yieldedWith [])

end AIBuddy
