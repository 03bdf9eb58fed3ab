import AIBuddy.Agent.Environment

namespace AIBuddy

open LastSuffix

/-!
# Operations on the length of the conversation

Compaction hides the whole conversation from the agent and goes on from a
summary.  Tool pair compaction hides one batch of old calls and goes on from
their summaries.  The summaries themselves come from the provider.
-/

/-! ## Compaction -/

def conversationContinuationText : String :=
  "Your context was compacted. The previous message contains a summary of the conversation so far.
Do not mention that you read a summary or that conversation summarization occurred.
Just continue the conversation naturally based on the summarized context."

def toolLoopContinuationText : String :=
  "Your context was compacted. The previous message contains a summary of the conversation so far.
Do not mention that you read a summary or that conversation summarization occurred.
Continue calling tools as necessary to complete the task."

def manualCompactContinuationText : String :=
  "Your context was compacted at the user's request. The previous message contains a summary of the conversation so far.
Do not mention that you read a summary or that conversation summarization occurred.
Just continue the conversation naturally based on the summarized context."

def hasTextOnly (message : Message) : Bool :=
  message.content.any (fun block => block.asText.isSome) &&
    !message.content.any fun block => block.asToolRequest.isSome || block.asToolResponse.isSome

/-- The texts of a user message that the agent sees, as a message for the agent. -/
def preservedText (now : Int) (message : Message) : Option Message :=
  if !message.isAgentVisible || message.metadata.turnContext || message.role != .user then none
  else
    let projected := message.agentVisibleContent
    if hasTextOnly projected then
      some { Message.user now with
        content := projected.content.filter fun block => block.asText.isSome
        metadata := MessageMetadata.agentOnly }
    else none

/-- The copy of the turn context that outlives a compaction, dated last. -/
def carriedTurnContext (after compacted : List Message) : Option Message :=
  (after.reverse.find? fun message => message.metadata.turnContext && message.isAgentVisible).map fun context =>
    { context with id := none, created := max context.created ((latestCreated compacted).getD context.created) }

/-- Hide every message from the agent and append the summary, the continuation,
the user text to preserve and the context that belongs to it. -/
def compactMessages (machine : Machine) (env : StepEnv) (messages : List Message) (manualCompact : Bool) :
    Except String (List Message) := do
  let suffix :=
    if manualCompact then none
    else suffixFromLast (fun message => (preservedText env.now message).isSome) messages
  let after := (suffix.map List.tail).getD []
  let isMostRecent := suffix.isSome && after.all fun message => message.metadata.turnContext
  let summary <- env.summary
  let continuationText :=
    if manualCompact then manualCompactContinuationText
    else if isMostRecent then conversationContinuationText
    else toolLoopContinuationText
  let continuation := (assistantText machine env continuationText).withMetadata MessageMetadata.agentOnly
  let hidden := messages.map fun message =>
    message.withMetadata { message.metadata with agentVisible := false }
  let summarized := (mergeConsecutiveMessages
    [{ summary with role := .user, metadata := MessageMetadata.agentOnly }, continuation]).1
  let preserved := ((suffix.bind List.head?).bind (preservedText env.now)).toList
  let compacted := hidden ++ summarized ++ preserved
  return compacted ++ (carriedTurnContext after compacted).toList

def maxContextErrorCompactions : Nat := 2

/-- Hide the last message from the agent. -/
def hideLast : List Message -> List Message
  | [] => []
  | [last] => [last.withMetadata { last.metadata with agentVisible := false }]
  | first :: rest => first :: hideLast rest

/-- Whether the conversation is to be compacted: after an error about its length,
or when the user's message finds it over the threshold. -/
def compactionDue (env : StepEnv) (conversation messages : List Message) : Except String Bool :=
  if trailingError conversation = some .contextLengthExceeded then
    let contextErrors := (messages.filter fun message =>
      message.errorKind == some .contextLengthExceeded && !message.isAgentVisible).length
    .ok (decide (contextErrors ≤ maxContextErrorCompactions))
  else (lastEffectiveRole messages).map fun role => role == .user && env.overThreshold

def compactionRun (machine : Machine) (env : StepEnv) (conversation : List Message) :
    Except String OperationResult :=
  if machine.managesOwnContext then .ok .notApplicable
  else do
    let messages <- messagesSinceKickoff conversation
    let due <- compactionDue env conversation messages
    let visible :=
      if trailingError conversation = some .contextLengthExceeded then hideLast conversation else conversation
    return if !due then .notApplicable
      else
        match compactMessages machine env visible false with
        | .ok compacted => .proceed [.replaceConversation compacted]
        | .error _ => .yieldedWith []

/-! ## Tool pair compaction -/

def toolCallSummarizationBatchSize : Nat := 10

/-- The oldest tool calls that the agent sees, when there are enough of them
besides the protected last ones. -/
def toolIdsToSummarize (conversation : List Message) (cutoff protectLastN : Nat) : List String :=
  let toolCallIds := (conversation.filter Message.isAgentVisible).flatMap fun message =>
    message.toolRequests.map ToolRequest.id
  if toolCallIds.length - protectLastN ≤ cutoff + toolCallSummarizationBatchSize then []
  else toolCallIds.take toolCallSummarizationBatchSize

def Message.toolRequestIds (message : Message) : List String :=
  message.toolRequests.map ToolRequest.id

def Message.mentionsTool (message : Message) (toolId : String) : Bool :=
  message.toolRequestIds.contains toolId || message.toolResponseIds.contains toolId

/-- A summary of a tool call, dated like the messages that it replaces. -/
def summarizeToolCall (env : StepEnv) (conversation : List Message) (toolId : String) :
    Except String Message := do
  let matching := ((conversation.filter fun message => message.mentionsTool toolId).filter
    Message.isAgentVisible).map Message.agentVisibleContent
  let visible := matching.filter fun message => !message.content.isEmpty
  if visible.any (fun message => message.toolRequestIds.contains toolId) &&
      visible.any (fun message => message.toolResponseIds.contains toolId) then do
    let response <- env.toolSummary toolId
    return { response with
      id := none
      role := .user
      created := (visible.getLast?.map Message.created).getD response.created
      metadata := MessageMetadata.agentOnly }
  else .error ("No agent-visible tool pair found for tool id: " ++ toolId)

/-- Whether two lists of ids have the same members. -/
def sameIds (left right : List String) : Bool :=
  left.all right.contains && right.all left.contains

/-- Hide the request and the response of one call and append their summary. -/
def summarizePair (env : StepEnv) (conversation : List Message)
    (state : List AIBuddyEffect × List String) (toolId : String) : List AIBuddyEffect × List String :=
  let pair := conversation.filter fun message => message.id.isSome && message.mentionsTool toolId
  let pairIds := pair.filterMap Message.id
  if pair.length != 2 || pairIds.any state.2.contains ||
      !sameIds (pair.flatMap Message.toolRequestIds) (pair.flatMap Message.toolResponseIds) then state
  else
    match summarizeToolCall env conversation toolId with
    | .error _ => state
    | .ok summary =>
        let hide := pair.filterMap fun message => message.id.map fun messageId =>
          AIBuddyEffect.conversation (.setMessageVisibility messageId message.isUserVisible false)
        (state.1 ++ hide ++ [.append summary], state.2 ++ pairIds)

def toolPairCompactionRun (machine : Machine) (env : StepEnv) (conversation : List Message) :
    Except String OperationResult :=
  if !machine.toolPairCompactionEnabled then .ok .notApplicable
  else do
    let messages <- messagesSinceKickoff conversation
    let protectLastN := (messages.flatMap Message.toolRequests).length
    let toolIds := toolIdsToSummarize conversation machine.toolCallCutoff protectLastN
    let effects := (toolIds.foldl (summarizePair env conversation) ([], [])).1
    return if effects.isEmpty then .notApplicable else .proceed effects

end AIBuddy
