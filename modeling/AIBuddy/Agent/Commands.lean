import AIBuddy.Agent.ContextOperations
import AIBuddy.Agent.ToolOperations
import AIBuddy.Agent.TurnOperations

namespace AIBuddy

/-!
# Slash commands

A turn that consists of a slash command alone is offered to the operations in
order; the first one that knows the command answers it.  Replies that are put
together from what lies outside the session, such as the list of installed
skills, are inputs of the step.
-/

def parseSlashCommand (message : String) : Option SlashCommand :=
  let message := Text.trim message
  let message :=
    if message = "/compact" ∨ message = "Please compact this conversation" ∨ message = "/summarize" then "/compact"
    else message
  (Text.stripPrefixChar '/' message).map fun command =>
    match Text.splitOnce ' ' command with
    | some (name, params) => ⟨name, Text.trim params⟩
    | none => ⟨command, ""⟩

/-! ## Compaction commands -/

def compactionMissingKickoff (command : String) : String :=
  command ++ " command conversation has no kickoff message"

/-- Forget the whole conversation except the command itself. -/
def clearCommand (machine : Machine) (env : StepEnv) (conversation : List Message) :
    Except String OperationResult := do
  let messages <- messagesSinceKickoff conversation
  match messages.head? with
  | none => .error (compactionMissingKickoff "clear")
  | some command =>
      return .yieldedWith [.conversation (.replaceConversation []), .append command.userOnly,
        .append (assistantText machine env "Conversation cleared").userOnly]

def compactCommand (machine : Machine) (env : StepEnv) (conversation : List Message) :
    Except String OperationResult :=
  match compactMessages machine env conversation true with
  | .error error =>
      commandResponse (compactionMissingKickoff "compact") conversation (assistantText machine env error)
  | .ok compacted => do
      let messages <- messagesSinceKickoff conversation
      match messages.head? with
      | none => .error (compactionMissingKickoff "compact")
      | some _ =>
          return .yieldedWith [.replaceConversation compacted,
            .append (assistantText machine env "Compaction complete").userOnly]

def compactionCommand (machine : Machine) (env : StepEnv) (command : SlashCommand) (conversation : List Message) :
    Except String OperationResult :=
  if command.command = "clear" then clearCommand machine env conversation
  else if command.command = "compact" then compactCommand machine env conversation
  else .ok .notApplicable

/-! ## Commands answered from outside the session -/

def doctorMissingKickoff : String := "doctor command conversation has no kickoff message"
def skillMissingKickoff : String := "skill command conversation has no kickoff message"
def promptMissingKickoff : String := "prompt command conversation has no kickoff message"
def statusMissingKickoff : String := "status command conversation has no kickoff message"

def doctorCommand (env : StepEnv) (command : SlashCommand) (conversation : List Message) :
    Except String OperationResult :=
  if command.command = "doctor" then
    if env.doctor.role = .assistant then commandResponse doctorMissingKickoff conversation env.doctor
    else commandPrompt doctorMissingKickoff conversation [.append env.doctor.agentOnly]
  else .ok .notApplicable

/-- The reply of a handler, as effects. -/
def commandReply (machine : Machine) (env : StepEnv) (missing : String) (conversation : List Message) :
    CommandReply -> Except String OperationResult
  | .notMine => .ok .notApplicable
  | .respond text => commandResponse missing conversation (assistantText machine env text)
  | .prompt messages =>
      commandPrompt missing conversation (messages.map fun message => .append message.agentOnly)

def skillCommand (machine : Machine) (env : StepEnv) (command : SlashCommand) (conversation : List Message) :
    Except String OperationResult :=
  if command.command = "skills" then
    commandResponse skillMissingKickoff conversation (assistantText machine env env.installedSkills)
  else commandReply machine env skillMissingKickoff conversation (env.skillCommand command)

def Role.debugName : Role -> String
  | .user => "User"
  | .assistant => "Assistant"

/-- The first message of a prompt that breaks the alternation of roles. -/
def misplacedRole (expected : Role) (index : Nat) : List Message -> Option String
  | [] => none
  | message :: rest =>
      if message.role = expected then
        misplacedRole (match expected with | .user => .assistant | .assistant => .user) (index + 1) rest
      else some ("Expected " ++ expected.debugName ++ " message at position " ++ toString index ++
        ", but found " ++ message.role.debugName)

/-- The name of the prompt that a command runs. -/
def promptName (command : SlashCommand) : String :=
  String.ofList (command.paramsStr.toList.takeWhile fun character => !Text.isWhitespace character)

def promptCommand (machine : Machine) (env : StepEnv) (command : SlashCommand) (conversation : List Message) :
    Except String OperationResult :=
  if command.command = "prompts" ∨ command.command = "prompt" then
    match env.promptCommand command with
    | .prompt [] =>
        commandResponse promptMissingKickoff conversation
          (assistantText machine env ("Prompt '" ++ promptName command ++ "' returned no messages"))
    | .prompt messages =>
        match misplacedRole .user 0 messages with
        | some error => commandResponse promptMissingKickoff conversation (assistantText machine env error)
        | none =>
            commandPrompt promptMissingKickoff conversation (messages.map fun message => .append message.agentOnly)
    | reply => commandReply machine env promptMissingKickoff conversation reply
  else .ok .notApplicable

def recipeCommand (machine : Machine) (env : StepEnv) (command : SlashCommand) (conversation : List Message) :
    Except String OperationResult :=
  match env.recipeCommand command with
  | .ok none => .ok .notApplicable
  | .error error => commandResponse recipeMissingKickoff conversation (assistantText machine env error)
  | .ok (some (recipe, prompt)) =>
      match (recipe.response.map (finalOutputToolTryNew env)).getD (.ok .null) with
      | .error error =>
          commandResponse recipeMissingKickoff conversation
            (assistantText machine env ("Recipe is not valid: " ++ error))
      | .ok _ =>
          commandPrompt recipeMissingKickoff conversation
            [.setRecipe (some recipe), .append (agentNote machine env prompt)]

def statusCommand (machine : Machine) (env : StepEnv) (command : SlashCommand) (conversation : List Message) :
    Except String OperationResult :=
  if command.command = "status" then do
    let text <- env.status
    commandResponse statusMissingKickoff conversation (assistantText machine env text)
  else .ok .notApplicable

/-! ## Goal commands -/

/-- What a goal command says and leaves as the goal. -/
def goalReply (command : String) (label : String) (current : Option String) (params : String) :
    String × Option String :=
  if params = "" then
    (match current with
    | some value => "Current " ++ label ++ ": " ++ value
    | none => "No " ++ label ++ " set. Use `/" ++ command ++ " <description>` to set one.", current)
  else if params = "off" ∨ params = "clear" ∨ params = "none" then
    (if command = "goal" then "Goal cleared. The agent will finish normally."
    else "Grind cleared. The agent will finish normally.", none)
  else
    (if command = "goal" then
      "Goal set. The agent will verify this goal is met before finishing:\n\n> " ++ params
    else "Grind goal set. The agent will keep working until max_turns is reached:\n\n> " ++ params, some params)

def goalStartsTurn (params : String) : Bool :=
  decide (params ≠ "" ∧ params ≠ "off" ∧ params ≠ "clear" ∧ params ≠ "none")

def goalMissingKickoff : String := "slash command conversation has no kickoff message"

/-- Say what became of a goal, and start working toward a new one. -/
def goalResponse (machine : Machine) (env : StepEnv) (command : SlashCommand) (text : String)
    (conversation : List Message) : Except String OperationResult :=
  let response := (assistantText machine env text).userOnly
  if goalStartsTurn command.paramsStr then
    commandPrompt goalMissingKickoff conversation [.append response,
      .append (agentNote machine env ("Start working toward this goal now:\n\n**Goal:** " ++ command.paramsStr))]
  else commandResponse goalMissingKickoff conversation response

def goalCommand (machine : Machine) (env : StepEnv) (agent : Agent) (command : SlashCommand)
    (conversation : List Message) : Except String (OperationResult × Agent) :=
  if command.command = "goal" then
    let reply := goalReply command.command "goal" agent.goal command.paramsStr
    (goalResponse machine env command reply.1 conversation).map fun result => (result, { agent with goal := reply.2 })
  else if command.command = "grind" then
    let reply := goalReply command.command "grind goal" agent.grind command.paramsStr
    (goalResponse machine env command reply.1 conversation).map fun result => (result, { agent with grind := reply.2 })
  else .ok (.notApplicable, agent)

/-! ## Dispatch -/

/-- The command handler of an operation. -/
def runCommand (machine : Machine) (env : StepEnv) (agent : Agent) (command : SlashCommand)
    (conversation : List Message) (name : OperationName) : Except String (OperationResult × Agent) :=
  let keeping := fun result : Except String OperationResult => result.map fun result => (result, agent)
  match name with
  | .compaction => keeping (compactionCommand machine env command conversation)
  | .doctor => keeping (doctorCommand env command conversation)
  | .skills => keeping (skillCommand machine env command conversation)
  | .recipe => keeping (recipeCommand machine env command conversation)
  | .toolExecution => keeping (promptCommand machine env command conversation)
  | .retry => goalCommand machine env agent command conversation
  | _ => .ok (.notApplicable, agent)

/-- Offer a command to handlers until one of them applies.  The status handler
comes after all operations. -/
def runCommands (machine : Machine) (env : StepEnv) (agent : Agent) (command : SlashCommand)
    (conversation : List Message) : List OperationName -> Except String (OperationResult × Agent)
  | [] => (statusCommand machine env command conversation).map fun result => (result, agent)
  | name :: rest =>
      match runCommand machine env agent command conversation name with
      | .error error => .error error
      | .ok (.applied result, agent) => .ok (.applied result, agent)
      | .ok (.notApplicable, agent) => runCommands machine env agent command conversation rest

/-- What a turn made of one message comes to. -/
def commandTurn (machine : Machine) (env : StepEnv) (agent : Agent) (handlers : List OperationName)
    (conversation messages : List Message) : Except String (OperationResult × Agent) :=
  match messages with
  | [userMessage] =>
      match parseSlashCommand userMessage.asConcatText with
      | none => .ok (.notApplicable, agent)
      | some command => runCommands machine env agent command conversation handlers
  | _ => .ok (.notApplicable, agent)

def slashCommandRun (machine : Machine) (env : StepEnv) (agent : Agent) (handlers : List OperationName)
    (conversation : List Message) : Except String (OperationResult × Agent) := do
  let messages <- messagesSinceKickoff conversation
  commandTurn machine env agent handlers conversation messages

end AIBuddy
