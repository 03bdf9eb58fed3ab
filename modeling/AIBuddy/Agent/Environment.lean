import AIBuddy.Agent.Inspection

namespace AIBuddy

/-!
# What a step is given

A step is a function of the session, of what its agent holds in memory, and of
everything that happens outside while it runs: the answers of the provider, the
inspectors, the hooks and the tools, generated ids, the clock, and the moment at
which the run is cancelled.  The outside is collected in one record, so that a
run is determined by its first session and one record for each step.
-/

/-! ## The machine and its agent -/

/-- What the machine is built with.  The display of protocol errors and the
printing of JSON come from other packages. -/
structure Machine where
  codec : TextCodec
  displayError : ErrorData -> String
  renderJson : Json -> String
  renderJsonPretty : Json -> String
  maxTurns : Nat
  managesOwnContext : Bool
  toolCallCutoff : Nat
  toolPairCompactionEnabled : Bool
  stopHookBlockCap : Nat
  providerName : String
  supportsBuiltinTools : Bool

/-- What the agent holds in memory between steps. -/
structure Agent where
  aibuddyMode : AIBuddyMode
  goal : Option String
  grind : Option String
deriving DecidableEq

/-- An agent and the session it works on. -/
structure State where
  agent : Agent
  session : Session
deriving DecidableEq

/-! ## The outside -/

/-- A tool result with one text. -/
def textResult (isError : Bool) (text : String) : CallToolResult :=
  { content := [.text ⟨text, none⟩], structuredContent := none, isError := some isError }

/-- A slash command and its parameters. -/
structure SlashCommand where
  command : String
  paramsStr : String
deriving DecidableEq, Repr

/-- How a handler answers a command with what it reads outside the session. -/
inductive CommandReply where
  | notMine
  | respond (text : String)
  | prompt (messages : List Message)

/-- What stop hooks decide about the end of a turn. -/
inductive HookDecision where
  | allow
  | deny (reason plugin : String)
deriving DecidableEq, Repr

/-- A failure of the provider.  Failures that are handled alike are given by
their text. -/
inductive ProviderError where
  | authentication (details : String)
  | contextLengthExceeded (details : String)
  | networkError (details : String)
  | creditsExhausted (details : String)
  | other (display : String)
deriving DecidableEq, Repr

namespace ProviderError

def display : ProviderError -> String
  | authentication details => "Authentication error: " ++ details
  | contextLengthExceeded details => "Context length exceeded: " ++ details
  | networkError details => "Network error: " ++ details
  | creditsExhausted details => "Credits exhausted: " ++ details
  | other display => display

def errorKind : ProviderError -> MessageErrorKind
  | authentication _ => .authentication
  | contextLengthExceeded _ => .contextLengthExceeded
  | creditsExhausted _ => .creditsExhausted
  | _ => .other

end ProviderError

/-- One answer of the provider: an error before the stream starts, or chunks
followed by the end of the stream or an error. -/
structure ProviderTurn where
  inference : InferenceMetadata
  startError : Option ProviderError
  chunks : List Message
  chunkId : Nat -> String
  streamError : Option ProviderError
  reportsUsage : Bool

/-- The moment at which a run is cancelled: inside an operation, after it has
made some progress.  Progress 0 is before the operation starts. -/
structure CancelPoint where
  operation : OperationName
  progress : Nat
deriving DecidableEq, Repr

/-- Everything that reaches a step from outside. -/
structure StepEnv where
  now : Int
  messageId : Nat -> String
  replacedId : Nat -> String
  cancel : Option CancelPoint
  doctor : Message
  installedSkills : String
  skillCommand : SlashCommand -> CommandReply
  recipeCommand : SlashCommand -> Except String (Option (Recipe × String))
  promptCommand : SlashCommand -> CommandReply
  status : Except String String
  steerQueue : List Message
  bangShellId : String
  overThreshold : Bool
  summary : Except String Message
  toolSummary : String -> Except String Message
  inspectionManager : ToolInspectionManager
  preToolUse : ToolRequest -> Option String
  loadSkill : Option JsonObject -> CallToolResult
  schemaError : Json -> Option String
  outputErrors : Json -> Json -> List String
  knownTools : List String
  prepareTools : List String -> List String
  toolResult : Nat -> ToolResult CallToolResult
  arrivalOrder : List Nat
  actionRequired : List Message
  extensionData : Json
  retryChecks : Except String Bool
  onFailure : String -> Except String Unit
  stopHook : HookDecision
  turnContext : Option String
  provider : ProviderTurn

/-- A provider that says nothing. -/
def ProviderTurn.silent : ProviderTurn where
  inference := ⟨"provider", "model", none, none⟩
  startError := none
  chunks := []
  chunkId := fun position => "chunk-" ++ toString position
  streamError := none
  reportsUsage := false

/-- A step during which nothing happens outside: no command is known, no
inspector is registered, and every tool returns an empty text. -/
def StepEnv.still : StepEnv where
  now := 0
  messageId := fun position => "message-" ++ toString position
  replacedId := fun position => "replaced-" ++ toString position
  cancel := none
  doctor := Message.assistant 0
  installedSkills := ""
  skillCommand := fun _ => .notMine
  recipeCommand := fun _ => .ok none
  promptCommand := fun _ => .notMine
  status := .ok ""
  steerQueue := []
  bangShellId := "bang_shell"
  overThreshold := false
  summary := .ok (Message.assistant 0)
  toolSummary := fun _ => .ok (Message.assistant 0)
  inspectionManager := ⟨[]⟩
  preToolUse := fun _ => none
  loadSkill := fun _ => textResult false ""
  schemaError := fun _ => none
  outputErrors := fun _ _ => []
  knownTools := []
  prepareTools := fun names => names
  toolResult := fun _ => .ok (textResult false "")
  arrivalOrder := []
  actionRequired := []
  extensionData := .null
  retryChecks := .ok true
  onFailure := fun _ => .ok ()
  stopHook := .allow
  turnContext := none
  provider := ProviderTurn.silent

/-- A machine with room for ten turns and everything optional switched off. -/
def Machine.plain : Machine where
  codec := TextCodec.ascii
  displayError := ErrorData.message
  renderJson := fun _ => ""
  renderJsonPretty := fun _ => ""
  maxTurns := 10
  managesOwnContext := false
  toolCallCutoff := 10
  toolPairCompactionEnabled := false
  stopHookBlockCap := 3
  providerName := "provider"
  supportsBuiltinTools := true

/-- Whether the run is cancelled by the time an operation has made some
progress, when it was not cancelled before that operation. -/
def StepEnv.cancelledBy (env : StepEnv) (operation : OperationName) (progress : Nat) : Bool :=
  env.cancel.any fun point => point.operation == operation && decide (point.progress ≤ progress)

/-- Whether the run is cancelled before or while an operation runs. -/
def StepEnv.cancelledIn (env : StepEnv) (operation : OperationName) : Bool :=
  env.cancel.any fun point => point.operation == operation

/-! ## Messages that operations write -/

section Messages

variable (machine : Machine) (env : StepEnv)

def userText (text : String) : Message :=
  Message.withText machine.codec (.user env.now) text

def assistantText (text : String) : Message :=
  Message.withText machine.codec (.assistant env.now) text

/-- A text that only the agent sees. -/
def agentNote (text : String) : Message :=
  (userText machine env text).agentOnly

def errorMessage (kind : MessageErrorKind) (text : String) : Message :=
  ((Message.assistant env.now).withContent (.error ⟨kind, text⟩)).withMetadata MessageMetadata.userOnly

def messageFromProviderError (error : ProviderError) : Message :=
  errorMessage env error.errorKind
    (match error with
    | .networkError _ => error.display ++ "\n\nPlease resend your message to try again."
    | .contextLengthExceeded _ =>
        error.display ++ "\n\nThe conversation is too long for the model's context window."
    | _ => "Ran into this error: " ++ error.display ++
        ".\n\nPlease retry if you think this is a transient or recoverable error.")

end Messages

end AIBuddy
