import AIBuddy.Agent.Operation

namespace AIBuddy

/-!
# Pending tool requests

Which requests of a turn still need an answer, and which of them may run.  The
decision about a request is carried by a flag in its metadata and by the
confirmation messages of the turn; every operation reads both again.
-/

/-! ## Flags of a request -/

def toolExecutableKey : String := "aibuddy.executable"

def toolMetaExternalDispatchKey : String := "aibuddy.external_dispatch"

def ToolRequest.metaFlag (request : ToolRequest) (key : String) : Option Bool :=
  (request.toolMeta.bind fun toolMeta => toolMeta.get key).bind Json.asBool

/-- Whether the provider has already run the call itself. -/
def ToolRequest.wasExecutedExternally (request : ToolRequest) : Bool :=
  (request.metaFlag toolMetaExternalDispatchKey).getD false

/-- The flag that the approval of a request left on it. -/
def requestExecutable (request : ToolRequest) : Option Bool :=
  request.metaFlag toolExecutableKey

/-- Whether a request calls the given tool. -/
def ToolRequest.calls (request : ToolRequest) (toolName : String) : Bool :=
  match request.toolCall with
  | .ok toolCall => toolCall.name == toolName
  | .error _ => false

/-! ## Confirmations -/

/-- The requests for which a confirmation was asked. -/
def confirmationRequestIds (messages : List Message) : List String :=
  messages.flatMap fun message => message.content.filterMap fun block =>
    match block.asActionRequired with
    | some (.toolConfirmation id _ _ _) => some id
    | _ => none

/-- The decisions of the user, in order. -/
def confirmationResponses (messages : List Message) : List (String × Permission) :=
  messages.flatMap fun message => message.content.filterMap fun block =>
    match block.asActionRequired with
    | some (.toolConfirmationResponse id permission) => some (id, permission)
    | _ => none

/-- The latest decision about a request. -/
def confirmationResponse (messages : List Message) (id : String) : Option Permission :=
  (confirmationResponses messages).reverse.lookup id

def permissionAllows : Permission -> Bool
  | .allowOnce | .alwaysAllow => true
  | _ => false

def approvalDenied : Option Permission -> Bool
  | some .denyOnce | some .alwaysDeny | some .cancel => true
  | _ => false

/-! ## Dispositions -/

/-- What is to be done with a pending request.  The text of a parse error is
rendered where it is reported. -/
inductive ToolDisposition where
  | execute
  | decline
  | parseError (error : ErrorData)
deriving DecidableEq

/-- The disposition of an unanswered request, unless a confirmation is awaited. -/
def toolDisposition (messages : List Message) (request : ToolRequest) : Option ToolDisposition :=
  match request.toolCall with
  | .error parseError => some (.parseError parseError)
  | .ok _ =>
      if (requestExecutable request).getD true then some .execute
      else if request.id ∈ confirmationRequestIds messages ∧
          approvalDenied (confirmationResponse messages request.id) = false then none
      else some .decline

/-- The requests of assistant messages that are neither answered nor waiting. -/
def pendingToolRequests (messages : List Message) : List (ToolRequest × ToolDisposition) :=
  (messages.filter fun message => message.role == .assistant).flatMap fun message =>
    message.toolRequests.filterMap fun request =>
      if request.wasExecutedExternally then none
      else if request.id ∈ answeredIds messages then none
      else (toolDisposition messages request).map fun disposition => (request, disposition)

/-! ## Advertised tools -/

def llmOperationName : String := "llm"

def advertisedToolsNote : String := "advertised_tools"

/-- Whether the tool of a request was offered to the model that asked for it.
The offer is looked up on the first assistant message with a request of the same
id, and messages without inference metadata offer everything. -/
def requestWasAdvertised (messages : List Message) (request : ToolRequest) : Bool :=
  match request.toolCall with
  | .error _ => true
  | .ok toolCall =>
      match messages.find? fun message =>
          message.role == .assistant && message.toolRequests.any fun item => item.id == request.id with
      | none => false
      | some message =>
          if message.metadata.inference.isNone then true
          else
            match (message.metadata.operationNote llmOperationName advertisedToolsNote).bind Json.asArray with
            | none => false
            | some tools => tools.any fun tool => tool.asStr == some toolCall.name

def pendingAdvertisedToolRequests (messages : List Message) : List (ToolRequest × ToolDisposition) :=
  (pendingToolRequests messages).filter fun entry => requestWasAdvertised messages entry.1

/-! ## The state of the approvals -/

structure ApprovalState where
  answered : List String
  approvalRequests : List String
  approvalResponses : List (String × Permission)
  toolRequests : List ToolRequest

structure PendingResponse where
  toolCallId : String
  toolName : Option String
  permission : Permission
  executable : Option Bool
deriving DecidableEq

namespace ApprovalState

def fromMessages (messages : List Message) : ApprovalState where
  answered := answeredIds messages
  approvalRequests := confirmationRequestIds messages
  approvalResponses := confirmationResponses messages
  toolRequests := messages.flatMap fun message =>
    message.toolRequests.filter (requestWasAdvertised messages)

def confirmationResponse (state : ApprovalState) (id : String) : Option Permission :=
  state.approvalResponses.reverse.lookup id

/-- The decisions about requests that are not answered yet. -/
def responses (state : ApprovalState) : List PendingResponse :=
  state.toolRequests.filterMap fun request =>
    if request.id ∈ state.answered then none
    else
      (state.confirmationResponse request.id).map fun permission =>
        { toolCallId := request.id
          toolName := request.toolCall.toOption.map CallToolRequestParams.name
          permission := permission
          executable := requestExecutable request }

/-- The requests that nobody has looked at yet. -/
def pendingRequests (state : ApprovalState) : List ToolRequest :=
  state.toolRequests.filter fun request =>
    !(decide (request.id ∈ state.answered) || decide (request.id ∈ state.approvalRequests) ||
      (state.confirmationResponse request.id).isSome || request.wasExecutedExternally ||
      requestExecutable request == some false || !request.toolCall.isOk)

def hasConfirmationRequest (state : ApprovalState) (requestId : String) : Bool :=
  decide (requestId ∈ state.approvalRequests) &&
    state.toolRequests.any fun request => request.id == requestId

def hasToolResponse (state : ApprovalState) (requestId : String) : Bool :=
  decide (requestId ∈ state.answered)

end ApprovalState

/-! ## What pending means -/

theorem mem_pendingToolRequests_iff (messages : List Message) (request : ToolRequest)
    (disposition : ToolDisposition) :
    (request, disposition) ∈ pendingToolRequests messages ↔
      (Exists fun message => message ∈ messages ∧ message.role = .assistant ∧
        request ∈ message.toolRequests) ∧
      request.wasExecutedExternally = false ∧ request.id ∉ answeredIds messages ∧
        toolDisposition messages request = some disposition := by
  simp only [pendingToolRequests, List.mem_flatMap, List.mem_filter, beq_iff_eq, List.mem_filterMap]
  constructor
  · rintro ⟨message, ⟨member, assistant⟩, found, asked, pending⟩
    split at pending
    · contradiction
    split at pending
    · contradiction
    case _ inside unanswered =>
      simp only [Option.map_eq_some_iff, Prod.mk.injEq] at pending
      rcases pending with ⟨_, decided, rfl, rfl⟩
      exact ⟨⟨message, member, assistant, asked⟩, by simpa using inside, unanswered, decided⟩
  · rintro ⟨⟨message, member, assistant, asked⟩, inside, unanswered, decided⟩
    refine ⟨message, ⟨member, assistant⟩, request, asked, ?_⟩
    simp [inside, unanswered, decided]

theorem toolDisposition_execute_iff (messages : List Message) (request : ToolRequest) :
    toolDisposition messages request = some .execute ↔
      request.toolCall.isOk ∧ requestExecutable request ≠ some false := by
  unfold toolDisposition
  cases request.toolCall with
  | error parseError => simp [Except.isOk, Except.toBool]
  | ok toolCall =>
      rcases flag : requestExecutable request with _ | _ | _
      · simp [Except.isOk, Except.toBool]
      · simp only [Option.getD_some, Bool.false_eq_true, if_false]
        split <;> simp [Except.isOk, Except.toBool]
      · simp [Except.isOk, Except.toBool]

end AIBuddy
