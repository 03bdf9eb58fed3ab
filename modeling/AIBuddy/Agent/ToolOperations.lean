import Mathlib.Data.List.Dedup
import AIBuddy.Agent.Environment

namespace AIBuddy

open LastSuffix

/-!
# Operations on tool requests

Approval marks what may run.  Skills, the recipe and the tools of extensions
each answer the requests that belong to them, and what is left is answered with
an error.  An operation that answers several requests puts all the answers into
one message.
-/

/-! ## Answers -/

structure Answer where
  id : String
  result : ToolResult CallToolResult
  metadata : Option JsonObject
deriving DecidableEq

/-- The message with the given answers. -/
def answerMessage (codec : TextCodec) (now : Int) (answers : List Answer) : Message :=
  answers.foldl (fun message answer => message.addToolResponseWithMetadata codec answer.id answer.result answer.metadata)
    (.user now)

/-- Answer requests in one message. -/
def answerWith (machine : Machine) (env : StepEnv) (answers : List Answer) (dispatched : List ToolRequest := []) :
    OperationResult :=
  .proceed [.append (answerMessage machine.codec env.now answers)] dispatched

def declinedResponse : String :=
  "The user has declined to run this tool. DO NOT attempt to call this tool again. " ++
  "If there are no alternative methods to proceed, clearly explain the situation and STOP."

def chatModeToolSkippedResponse : String :=
  "Let the user know the tool call was skipped in aibuddy chat mode. " ++
  "DO NOT apologize for skipping the tool call. DO NOT say sorry. " ++
  "Provide an explanation of what the tool call would do, structured as a " ++
  "plan for the user. Again, DO NOT apologize. " ++
  "**Example Plan:**\n " ++
  "1. **Identify Task Scope** - Determine the purpose and expected outcome.\n " ++
  "2. **Outline Steps** - Break down the steps.\n " ++
  "If needed, adjust the explanation based on user preferences or questions."

def declinedResult : ToolResult CallToolResult :=
  .ok (textResult true declinedResponse)

def skippedResult : ToolResult CallToolResult :=
  .ok (textResult false chatModeToolSkippedResponse)

def parseErrorResult (machine : Machine) (parseError : ErrorData) (advice : String) : ToolResult CallToolResult :=
  .ok (textResult true ("The tool call could not be parsed: " ++ machine.displayError parseError ++ "." ++ advice))

def correctArgumentsAdvice : String := " Correct the arguments and try again."

def internalErrorCode : Int := -32603
def invalidParamsCode : Int := -32602

/-- The error a hook returns in place of running a call. -/
def hookDenial (env : StepEnv) (request : ToolRequest) : Option ErrorData :=
  (env.preToolUse request).map fun message => ⟨internalErrorCode, message, none⟩

/-- Run the hooks before a call and the call itself if they allow it. -/
def runHooked (env : StepEnv) (request : ToolRequest) (output : ToolResult CallToolResult) :
    ToolResult CallToolResult :=
  match hookDenial env request with
  | some denial => .error denial
  | none => output

/-! ## Approval -/

def markExecutable (toolCallId : String) (executable : Bool) : AIBuddyEffect :=
  .conversation (.patchToolRequestMeta toolCallId (.object [(toolExecutableKey, .bool executable)]))

/-- Write the user's decisions into the requests. -/
def responseEffects (state : ApprovalState) : List AIBuddyEffect :=
  state.responses.filterMap fun pending =>
    let executable := permissionAllows pending.permission
    if pending.executable = some executable then none else some (markExecutable pending.toolCallId executable)

/-- The warning of the first verdict about a request, if it asks for approval. -/
def securityMessage (results : List InspectionResult) (requestId : String) : Option String :=
  (results.find? fun result => result.toolRequestId = requestId).bind fun result =>
    match result.action with
    | .requireApproval message => message
    | _ => none

/-- The message that asks the user about a call. -/
def confirmationMessage (env : StepEnv) (results : List InspectionResult) (requestId : String)
    (toolCall : CallToolRequestParams) : Message :=
  ((Message.assistant env.now).withContent (.actionRequired (.toolConfirmation requestId toolCall.name
    (toolCall.arguments.getD []) (securityMessage results requestId)))).userOnly

/-- Ask the user about requests and keep them from running meanwhile. -/
def needsApprovalEffects (machine : Machine) (env : StepEnv) (results : List InspectionResult) :
    List ToolRequest -> Except String (List AIBuddyEffect)
  | [] => .ok []
  | request :: rest =>
      match request.toolCall with
      | .error parseError => .error (machine.displayError parseError)
      | .ok toolCall => do
          let later <- needsApprovalEffects machine env results rest
          return markExecutable request.id false ::
            .append (confirmationMessage env results request.id toolCall) :: later

/-- Inspect the requests that nobody has looked at yet. -/
def inspectionEffects (machine : Machine) (env : StepEnv) (mode : AIBuddyMode) (conversation : List Message)
    (pending : List ToolRequest) : Except String (List AIBuddyEffect) :=
  if pending.isEmpty then .ok []
  else do
    let results := env.inspectionManager.inspectTools pending conversation mode
    let check := env.inspectionManager.permissionCheck pending results
    let asked <- needsApprovalEffects machine env results check.needsApproval
    return check.denied.map (fun request => markExecutable request.id false) ++ asked

def toolApprovalRun (machine : Machine) (env : StepEnv) (agent : Agent) (conversation : List Message) :
    Except String OperationResult :=
  if agent.aibuddyMode = .chat then .ok .notApplicable
  else do
    let messages <- messagesSinceKickoff conversation
    let state := ApprovalState.fromMessages messages
    let inspected <- inspectionEffects machine env agent.aibuddyMode conversation state.pendingRequests
    let effects := responseEffects state ++ inspected
    return if effects.isEmpty then .notApplicable else .proceed effects

/-! ## Skills -/

def loadSkillToolName : String := "load_skill"

def skillArguments (request : ToolRequest) : Option JsonObject :=
  request.toolCall.toOption.bind CallToolRequestParams.arguments

def skillAnswer (machine : Machine) (env : StepEnv) (session : Session)
    (entry : ToolRequest × ToolDisposition) : Answer where
  id := entry.1.id
  result := match entry.2 with
    | .execute =>
        if session.aibuddyMode = .chat then skippedResult
        else runHooked env entry.1 (.ok (env.loadSkill (skillArguments entry.1)))
    | .decline => declinedResult
    | .parseError parseError => parseErrorResult machine parseError correctArgumentsAdvice
  metadata := entry.1.metadata

/-- The requests of a batch that are run, and not only answered. -/
def dispatchedRequests (env : StepEnv) (pending : List (ToolRequest × ToolDisposition)) : List ToolRequest :=
  (pending.filter fun entry => entry.2 == .execute && (hookDenial env entry.1).isNone).map Prod.fst

def skillRun (machine : Machine) (env : StepEnv) (session : Session) (conversation : List Message) :
    Except String OperationResult := do
  let messages <- messagesSinceKickoff conversation
  let pending := (pendingAdvertisedToolRequests messages).filter fun entry => entry.1.calls loadSkillToolName
  return if pending.isEmpty then .notApplicable
    else answerWith machine env (pending.map (skillAnswer machine env session))
      (if session.aibuddyMode = .chat then [] else dispatchedRequests env pending)

/-! ## The final output of a recipe -/

def finalOutputToolName : String := "recipe__final_output"

def finalOutputSuccessMessage : String := "Final output successfully collected."

def finalOutputContinuationMessage : String :=
  "You MUST call the `final_output` tool NOW with the final output for the user."

def structuredOutputUnsupportedMessage (providerName : String) : String :=
  "This recipe declares a structured `response`, but provider `" ++ providerName ++
    "` can't support it because it never receives aibuddy's built-in `final_output` tool, so the " ++
    "model can never satisfy this recipe. Remove the entire `response` block from the recipe " ++
    "or run it with a different provider."

/-- Check the schema of a recipe's response. -/
def finalOutputToolTryNew (env : StepEnv) (response : Response) : Except String Json :=
  match response.jsonSchema with
  | none => .error "json_schema is required"
  | some (.object fields) =>
      if fields.isEmpty then .error "empty json_schema is not allowed"
      else
        match env.schemaError (.object fields) with
        | some error => .error error
        | none => .ok (.object fields)
  | some _ => .error "json_schema must be an object"

/-- The schema of the final output that the session's recipe asks for. -/
def finalOutput (env : StepEnv) (session : Session) : Except String (Option Json) :=
  match session.recipe.bind Recipe.response with
  | none => .ok none
  | some response => (finalOutputToolTryNew env response).map some

/-- Validate the arguments of a final-output call. -/
def executeFinalOutput (machine : Machine) (env : StepEnv) (schema : Json) (toolCall : CallToolRequestParams) :
    ToolResult CallToolResult :=
  let output := (toolCall.arguments.map Json.object).getD .null
  let errors := env.outputErrors schema output
  if errors.isEmpty then .ok (textResult false finalOutputSuccessMessage)
  else .error ⟨invalidParamsCode,
    "Validation failed:\n" ++ "\n".intercalate errors ++ "\n\nExpected format:\n" ++
      machine.renderJsonPretty schema ++
      "\n\nPlease correct your output to match the expected JSON schema and try again.", none⟩

def isAssistant (message : Message) : Bool :=
  message.role == .assistant

/-- The block of assistant messages around a message. -/
def assistantBlock (before : List Message) (message : Message) (after : List Message) : List Message :=
  (before.reverse.takeWhile isAssistant).reverse ++ message :: after.takeWhile isAssistant

/-- Whether a request that still needs an answer keeps a final-output call
waiting.  Other final-output calls do not. -/
def isUnansweredSibling (messages : List Message) (requestId : String) (request : ToolRequest) : Bool :=
  request.id != requestId && !(answeredIds messages).contains request.id && !request.calls finalOutputToolName

def hasUnansweredSiblings (messages : List Message) (requestId : String) : Bool :=
  let elsewhere := fun message : Message => !message.toolRequests.any fun request => request.id == requestId
  match messages.dropWhile elsewhere with
  | [] => false
  | message :: after =>
      ((assistantBlock (messages.takeWhile elsewhere) message after).flatMap Message.toolRequests).any
        (isUnansweredSibling messages requestId)

/-- Whether a response reports an accepted final output. -/
def reportsFinalOutput (response : ToolResponse) : Bool :=
  match response.toolResult with
  | .ok result =>
      result.isError != some true && result.content.any fun block =>
        match block with
        | .text content => content.text == finalOutputSuccessMessage
        | _ => false
  | .error _ => false

def successfulResponseIds (messages : List Message) : List String :=
  messages.flatMap fun message => message.content.filterMap fun block =>
    match block.asToolResponse with
    | some response => if reportsFinalOutput response then some response.id else none
    | none => none

/-- The accepted final output that a message asked to collect, printed. -/
def collectedOutput (machine : Machine) (successful : List String) (message : Message) : Option String :=
  message.toolRequests.reverse.findSome? fun request =>
    match request.toolCall with
    | .ok toolCall =>
        if successful.contains request.id && toolCall.name == finalOutputToolName then
          some (machine.renderJson (.object (toolCall.arguments.getD [])))
        else none
    | .error _ => none

/-- The accepted final output, once all calls of its block are answered. -/
def successfulFinalOutput (machine : Machine) (messages : List Message) : Option String :=
  let collected := collectedOutput machine (successfulResponseIds messages)
  match suffixFromLast (fun message => (collected message).isSome) messages with
  | none | some [] => none
  | some (message :: after) =>
      let block := assistantBlock (messages.take (messages.length - (after.length + 1))) message after
      if (block.flatMap Message.toolRequests).all fun request => (answeredIds messages).contains request.id then
        collected message
      else none

/-- The first final-output call that may be executed. -/
def pendingFinalOutput (messages : List Message) : Option ToolRequest :=
  ((pendingAdvertisedToolRequests messages).find? fun entry =>
    entry.2 == .execute && entry.1.calls finalOutputToolName).map Prod.fst

def recipeMissingKickoff : String := "recipe command conversation has no kickoff message"

/-- What the recipe does while its final output is declared by the given schema. -/
def recipeRunActive (machine : Machine) (env : StepEnv) (session : Session) (schema : Json)
    (messages : List Message) : Except String OperationResult :=
  match pendingFinalOutput messages with
  | some request =>
      if session.aibuddyMode = .chat then
        .ok (answerWith machine env [⟨request.id, skippedResult, request.metadata⟩])
      else if hasUnansweredSiblings messages request.id then .ok .notApplicable
      else
        match request.toolCall with
        | .error parseError =>
            .error ("final output tool call could not be parsed: " ++ machine.displayError parseError)
        | .ok toolCall =>
            let output := runHooked env request (executeFinalOutput machine env schema toolCall)
            .ok (answerWith machine env [⟨request.id, output, request.metadata⟩]
              (if (hookDenial env request).isNone then [request] else []))
  | none =>
      match successfulFinalOutput machine messages with
      | some output => do
          let role <- lastEffectiveRole messages
          return if role = .tool then .proceed [.append (assistantText machine env output)] else .notApplicable
      | none =>
          .ok (if endsTurn messages then
            .proceed [.append (userText machine env finalOutputContinuationMessage)] else .notApplicable)

def recipeRun (machine : Machine) (env : StepEnv) (session : Session) (conversation : List Message) :
    Except String OperationResult := do
  match <- finalOutput env session with
  | none => return .notApplicable
  | some schema =>
      if !machine.supportsBuiltinTools then
        commandResponse recipeMissingKickoff conversation
          (assistantText machine env (structuredOutputUnsupportedMessage machine.providerName))
      else
        let messages <- messagesSinceKickoff conversation
        recipeRunActive machine env session schema messages

/-! ## The tools of extensions -/

def manageExtensionsToolNameComplete : String := "extensionmanager__manage_extensions"

/-- How many results had arrived when the run was cancelled, if it was. -/
def arrivalsBeforeCancel (env : StepEnv) : Option Nat :=
  match env.cancel with
  | some point => if point.operation = .toolExecution then some (point.progress - 1) else none
  | none => none

/-- The positions of the running calls in the order in which they finish. -/
def finishingOrder (env : StepEnv) (running : Nat) : List Nat :=
  let announced := (env.arrivalOrder.filter (· < running)).dedup
  announced ++ (List.range running).filter fun position => !announced.contains position

/-- The positions of the calls that finish before the run is cancelled. -/
def finished (env : StepEnv) (running : Nat) : List Nat :=
  match arrivalsBeforeCancel env with
  | some count => (finishingOrder env running).take count
  | none => finishingOrder env running

/-- What a finished call returned. -/
def finishedAnswer (env : StepEnv) (requests running : List ToolRequest) (position : Nat) : Option Answer :=
  running[position]?.map fun request =>
    { id := request.id
      result := runHooked env request (env.toolResult position)
      metadata := (requests.find? fun candidate => candidate.id = request.id).bind ToolRequest.metadata }

def refusedAnswer (machine : Machine) (entry : ToolRequest × ToolDisposition) : Option Answer :=
  match entry.2 with
  | .execute => none
  | .decline => some ⟨entry.1.id, declinedResult, entry.1.metadata⟩
  | .parseError parseError =>
      some ⟨entry.1.id, parseErrorResult machine parseError correctArgumentsAdvice, entry.1.metadata⟩

def interruptedResult : ToolResult CallToolResult :=
  .ok (textResult true "Tool call was interrupted before completing")

def chatModeAnswer (machine : Machine) (entry : ToolRequest × ToolDisposition) : Answer where
  id := entry.1.id
  result := match entry.2 with
    | .parseError parseError => parseErrorResult machine parseError ""
    | _ => skippedResult
  metadata := entry.1.metadata

/-- The pending requests for the tools of extensions. -/
def extensionRequests (env : StepEnv) (messages : List Message) : List (ToolRequest × ToolDisposition) :=
  (pendingAdvertisedToolRequests messages).filter fun entry =>
    match entry.1.toolCall with
    | .ok toolCall => env.knownTools.contains toolCall.name
    | .error _ => false

/-- The answers of one batch of calls: the refusals, what the finished calls
returned, and an interruption for every other request. -/
def executionAnswers (machine : Machine) (env : StepEnv) (pending : List (ToolRequest × ToolDisposition)) :
    List Answer :=
  let requests := pending.map Prod.fst
  let running := (pending.filter fun entry => entry.2 == .execute).map Prod.fst
  let given := pending.filterMap (refusedAnswer machine) ++
    (finished env running.length).filterMap (finishedAnswer env requests running)
  let interrupted := requests.filter fun request => !(given.map Answer.id).contains request.id
  given ++ interrupted.map fun request => ⟨request.id, interruptedResult, request.metadata⟩

/-- Whether a batch changed the set of extensions without a failure. -/
def extensionsChanged (env : StepEnv) (pending : List (ToolRequest × ToolDisposition)) : Bool :=
  let manageIds := (pending.filter fun entry => entry.1.calls manageExtensionsToolNameComplete).map fun entry =>
    entry.1.id
  let running := (pending.filter fun entry => entry.2 == .execute).map Prod.fst
  let failed := ((finished env running.length).filterMap (finishedAnswer env [] running)).any fun answer =>
    manageIds.contains answer.id && !answer.result.isOk
  !manageIds.isEmpty && !failed

def toolExecutionRun (machine : Machine) (env : StepEnv) (agent : Agent) (conversation : List Message) :
    Except String OperationResult := do
  let messages <- messagesSinceKickoff conversation
  let pending := extensionRequests env messages
  return if pending.isEmpty then .notApplicable
    else if agent.aibuddyMode = .chat then answerWith machine env (pending.map (chatModeAnswer machine))
    else
      .proceed (env.actionRequired.map .append ++
          (if extensionsChanged env pending then [.setExtensionData env.extensionData] else []) ++
          [.append (answerMessage machine.codec env.now (executionAnswers machine env pending))])
        (dispatchedRequests env pending)

/-! ## Requests that nobody else answers -/

def unclaimedToolError : String := "aibuddy.unclaimed_tool"

/-- Whether the recipe of the session asks for a final output. -/
def activeFinalOutput (session : Session) : Bool :=
  session.recipe.any fun recipe => recipe.response.isSome

/-- Whether a pending request is left to the recipe. -/
def reservedForRecipe (session : Session) (messages : List Message)
    (entry : ToolRequest × ToolDisposition) : Bool :=
  activeFinalOutput session && entry.2 == .execute && requestWasAdvertised messages entry.1 &&
    entry.1.calls finalOutputToolName

def ToolRequest.toolName (request : ToolRequest) : String :=
  match request.toolCall with
  | .ok toolCall => toolCall.name
  | .error _ => "unknown"

def notAvailableResult (toolName : String) : ToolResult CallToolResult :=
  .ok (textResult true ("Tool '" ++ toolName ++ "' is not available."))

/-- The answer to a request that no operation claims, and whether the answer
names the tools that are available. -/
def unknownToolResult (machine : Machine) (env : StepEnv) (session : Session) (messages : List Message)
    (entry : ToolRequest × ToolDisposition) : ToolResult CallToolResult × Bool :=
  match entry.2 with
  | .parseError parseError => (parseErrorResult machine parseError correctArgumentsAdvice, false)
  | .decline => (declinedResult, false)
  | .execute =>
      if !requestWasAdvertised messages entry.1 then (notAvailableResult entry.1.toolName, true)
      else if session.aibuddyMode = .chat then (skippedResult, false)
      else
        match entry.1.toolCall with
        | .error parseError => (parseErrorResult machine parseError "", false)
        | .ok toolCall =>
            match hookDenial env entry.1 with
            | some denial => (.error denial, false)
            | none =>
                if toolCall.name == finalOutputToolName && !activeFinalOutput session then
                  (.error ⟨internalErrorCode, "Final output tool not defined", none⟩, false)
                else (notAvailableResult toolCall.name, true)

def unknownToolAnswer (machine : Machine) (env : StepEnv) (session : Session) (messages : List Message)
    (entry : ToolRequest × ToolDisposition) : Answer :=
  let outcome := unknownToolResult machine env session messages entry
  { id := entry.1.id
    result := outcome.1
    metadata :=
      if outcome.2 then some (JsonObject.insert (entry.1.metadata.getD []) unclaimedToolError (.bool true))
      else entry.1.metadata }

def unknownToolRun (machine : Machine) (env : StepEnv) (session : Session) (conversation : List Message) :
    Except String OperationResult := do
  let messages <- messagesSinceKickoff conversation
  let pending := (pendingToolRequests messages).filter fun entry => !reservedForRecipe session messages entry
  return if pending.isEmpty then .notApplicable
    else answerWith machine env (pending.map (unknownToolAnswer machine env session messages))

end AIBuddy
