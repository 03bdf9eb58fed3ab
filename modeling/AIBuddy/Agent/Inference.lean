import AIBuddy.Agent.ToolOperations
import Mathlib.Data.List.Sort

namespace AIBuddy

/-!
# Inference

The step that reaches the provider.  It applies when the last message that the
provider would see is the user's, collects the stream into messages, and answers
the requests that a cancellation leaves behind.
-/

/-! ## What the provider sees -/

/-- The conversation as the provider sees it.  Requests that an earlier turn
left unanswered are dropped. -/
def messagesForProvider (conversation turn : List Message) : List Message :=
  let start := conversation.length - turn.length
  let answered := answeredIds conversation
  let project := fun (earlier : Bool) (message : Message) =>
    let visible := message.agentVisibleContent
    if earlier then
      { visible with
        content := visible.content.filter fun block =>
          match block.asToolRequest with
          | some request => answered.contains request.id
          | none => true }
    else visible
  (((conversation.take start).filter Message.isAgentVisible).map (project true) ++
    ((conversation.drop start).filter Message.isAgentVisible).map (project false)).filter
      fun message => !message.content.isEmpty

def endsWithProviderTurn (messages : List Message) : Bool :=
  messages.getLast?.any fun message => effectiveRole message == .user || effectiveRole message == .tool

/-- Whether the next step would reach the provider. -/
def inferenceApplies (conversation : List Message) : Bool :=
  match turn? conversation with
  | none => false
  | some turn =>
      (trailingError conversation).isNone && endsWithProviderTurn (messagesForProvider conversation turn)

/-! ## Tools offered to the provider -/

/-- The names of the tools that the operations contribute, in order. -/
def inferenceToolNames (env : StepEnv) (session : Session) : Except String (List String) := do
  let schema <- finalOutput env session
  return [loadSkillToolName] ++ (if schema.isSome then [finalOutputToolName] else []) ++ env.knownTools

/-- The first name that is registered again. -/
def duplicateName (registered : List String) : List String -> Option String
  | [] => none
  | name :: rest =>
      if registered.contains name then some name else duplicateName (name :: registered) rest

/-- The names of all tools, as they are offered to the provider.  Two operations
may not register the same name. -/
def collectInferenceTools (env : StepEnv) (session : Session) : Except String (List String) := do
  let names <- inferenceToolNames env session
  match duplicateName [] names with
  | some name => .error ("multiple operations registered tool '" ++ name ++ "'")
  | none => return env.prepareTools names

/-- Note on an assistant message which tools were offered. -/
def noteAdvertisedTools (names : List String) (message : Message) : Message :=
  if message.role = .assistant then
    message.withMetadata (message.metadata.setOperationNote llmOperationName advertisedToolsNote
      (.array ((names.dedup.insertionSort (· ≤ ·)).map Json.string)))
  else message

/-! ## Collecting the stream -/

def withInferenceIfAssistant (inference : InferenceMetadata) (message : Message) : Message :=
  if message.role = .assistant ∧ message.metadata.inference = none then
    message.withMetadata { message.metadata with inference := some inference }
  else message

/-- Keep the requests whose ids have not been seen in this stream. -/
def retainNewRequests (seen : List String) : List MessageContentBlock -> List MessageContentBlock × List String
  | [] => ([], seen)
  | block :: rest =>
      match block.asToolRequest with
      | none =>
          let kept := retainNewRequests seen rest
          (block :: kept.1, kept.2)
      | some request =>
          if request.id ∈ seen then retainNewRequests seen rest
          else
            let kept := retainNewRequests (request.id :: seen) rest
            (block :: kept.1, kept.2)

def isThinking : MessageContentBlock -> Bool
  | .thinking _ | .redactedThinking _ => true
  | _ => false

/-- Whether a message gives its thinking to a chunk that requests tools. -/
def lendsThinking (chunk message : Message) : Bool :=
  message.role == chunk.role && message.toolRequests.isEmpty

/-- Insert blocks before the first tool request. -/
def insertBeforeRequest (blocks : List MessageContentBlock) : List MessageContentBlock -> List MessageContentBlock
  | [] => []
  | block :: rest =>
      if block.asToolRequest.isSome then blocks ++ block :: rest else block :: insertBeforeRequest blocks rest

/-- Move the thinking that came before a tool request into its message, unless
that message brings its own. -/
def normalizeToolCallThinking (accumulator : List Message) (chunk : Message) : List Message × Message :=
  if chunk.toolRequests.isEmpty then (accumulator, chunk)
  else
    let priorThinking := (accumulator.filter (lendsThinking chunk)).flatMap fun message =>
      message.content.filter isThinking
    let stripped := accumulator.map fun message =>
      if lendsThinking chunk message then
        { message with content := message.content.filter fun block => !isThinking block }
      else message
    let remaining := stripped.filter fun message => !message.content.isEmpty
    if chunk.content.any isThinking then (remaining, chunk)
    else (remaining, { chunk with content := insertBeforeRequest priorThinking chunk.content })

/-- Join the only block of a message to the last block of another, when both are
texts for one audience or parts of one thinking block. -/
def joinBlocks (last new : MessageContentBlock) : Option MessageContentBlock :=
  match last, new with
  | .text last, .text new =>
      if last.audience = new.audience then some (.text { last with text := last.text ++ new.text }) else none
  | .thinking last, .thinking new =>
      if last.signature = "" ∨ new.signature = last.signature then
        some (.thinking
          { thinking := last.thinking ++ new.thinking
            signature := if new.signature = "" then last.signature else new.signature })
      else none
  | _, _ => none

/-- The content of a message with a chunk of the same message behind it. -/
def extendContent (last new : List MessageContentBlock) : List MessageContentBlock :=
  match last.getLast?, new with
  | some lastBlock, [newBlock] =>
      match joinBlocks lastBlock newBlock with
      | some joined => last.dropLast ++ [joined]
      | none => last ++ new
  | _, _ => last ++ new

/-- Take over the metadata of a chunk. -/
def absorbMetadata (existing : MessageMetadata) (chunk : MessageMetadata) : MessageMetadata :=
  { existing with
    inference := if chunk.inference.isSome then chunk.inference else existing.inference
    outputTokenLimitReached := existing.outputTokenLimitReached || chunk.outputTokenLimitReached }

/-- Whether an empty chunk reports about an existing message. -/
def reportsAbout (chunk existing : Message) : Bool :=
  existing.role == chunk.role && existing.isUserVisible &&
    (!chunk.metadata.outputTokenLimitReached || (chunk.id.isSome && existing.id == chunk.id))

/-- Apply a function to the last element that satisfies a predicate. -/
def modifyLast (matching : Message -> Bool) (change : Message -> Message) (messages : List Message) : List Message :=
  match messages with
  | [] => []
  | first :: rest =>
      if rest.any matching then first :: modifyLast matching change rest
      else if matching first then change first :: rest
      else first :: rest

/-- Append a message to a conversation, merging chunks of one message. -/
def pushMessage (messages : List Message) (message : Message) : List Message :=
  if message.content.isEmpty && (message.metadata.inference.isSome || message.metadata.outputTokenLimitReached) then
    if messages.any (reportsAbout message) then
      modifyLast (reportsAbout message)
        (fun existing => existing.withMetadata (absorbMetadata existing.metadata message.metadata)) messages
    else if message.metadata.outputTokenLimitReached then messages ++ [message.userOnly]
    else messages
  else
    match messages.getLast? with
    | some last =>
        if last.id.isSome ∧ last.id = message.id then
          messages.dropLast ++ [{ last with
            metadata := absorbMetadata last.metadata message.metadata
            content := extendContent last.content message.content }]
        else messages ++ [message]
    | none => [message]

/-- The messages collected so far and the request ids seen in the stream. -/
structure Accumulator where
  messages : List Message := []
  seen : List String := []

/-- Take in one chunk. -/
def receiveChunk (turn : ProviderTurn) (names : List String) (state : Accumulator)
    (entry : Message × Nat) : Accumulator :=
  let chunk := withInferenceIfAssistant turn.inference (noteAdvertisedTools names entry.1)
  let retained := retainNewRequests state.seen chunk.content
  let normalized := normalizeToolCallThinking state.messages { chunk with content := retained.1 }
  let chunk :=
    if normalized.2.content.isEmpty && !normalized.2.metadata.outputTokenLimitReached then normalized.2
    else ensureId (turn.chunkId entry.2) normalized.2
  { messages := pushMessage normalized.1 chunk, seen := retained.2 }

def receiveChunks (turn : ProviderTurn) (names : List String) (chunks : List Message) : List Message :=
  (chunks.zipIdx.foldl (receiveChunk turn names) {}).messages

/-! ## Cancellation -/

def cancelledToolResponse : String := "Tool call was cancelled before execution"

/-- The first request with each id. -/
def firstRequests : List ToolRequest -> List ToolRequest
  | [] => []
  | request :: rest =>
      request :: (firstRequests rest).filter fun later => later.id != request.id

/-- The answers to every request that has none. -/
def cancellationAnswers (persisted pending : List Message) : List Answer :=
  let answered := answeredIds (persisted ++ pending)
  ((firstRequests ((persisted ++ pending).flatMap Message.toolRequests)).filter
      fun request => !answered.contains request.id).map fun request =>
    ⟨request.id, .ok (textResult true cancelledToolResponse), request.metadata⟩

def cancellationResponse (codec : TextCodec) (now : Int) (persisted pending : List Message) : Option Message :=
  let answers := cancellationAnswers persisted pending
  if answers.isEmpty then none else some (answerMessage codec now answers)

/-! ## The operation -/

def emptyResponseMessage : String :=
  "The model returned an empty response. Please resend your message to continue."

/-- Whether a message says nothing. -/
def isBlankMessage (message : Message) : Bool :=
  message.content.all fun block =>
    match block with
    | .text content => Text.isBlank content.text
    | .thinking content => Text.isBlank content.thinking
    | _ => false

/-- The context of the turn, unless the turn has already been told. -/
def turnContextEvent (machine : Machine) (env : StepEnv) (turn : List Message) : List Message :=
  match env.turnContext with
  | none => []
  | some text =>
      let event := (userText machine env text).withMetadata { MessageMetadata.agentOnly with turnContext := true }
      let last := (turn.reverse.find? fun message => message.metadata.turnContext).map Message.asConcatText
      if some event.asConcatText = last then [] else [event]

/-- How many chunks arrive before the stream is cancelled.  Progress 1 is before
the request is sent, and each chunk is one more. -/
def chunksBeforeCancel (env : StepEnv) : Option Nat :=
  match env.cancel with
  | some point => if point.operation = .llm then some (point.progress - 2) else none
  | none => none

/-- Whether the stream is left because of a cancellation. -/
def streamCancelled (env : StepEnv) : Bool :=
  (chunksBeforeCancel env).any fun count => decide (count ≤ env.provider.chunks.length)

/-- Whether the run is cancelled when the stream has ended. -/
def cancelledAtStreamEnd (env : StepEnv) : Bool :=
  (chunksBeforeCancel env).any fun count => decide (count ≤ env.provider.chunks.length + 1)

/-- The chunks that are received before the stream ends or is cancelled. -/
def receivedChunks (env : StepEnv) : List Message :=
  match chunksBeforeCancel env with
  | some count => env.provider.chunks.take count
  | none => env.provider.chunks

def usageEffects (env : StepEnv) : List AIBuddyEffect :=
  if env.provider.reportsUsage then [.recordUsage] else []

/-- What a stream that was read to its end, or cancelled, amounts to. -/
def finishStream (machine : Machine) (env : StepEnv) (turn collected : List Message)
    (before : List AIBuddyEffect) : OperationResult :=
  let settled :=
    if cancelledAtStreamEnd env then
      match cancellationResponse machine.codec env.now turn collected with
      | some response => pushMessage collected (ensureId (env.provider.chunkId env.provider.chunks.length) response)
      | none => collected
    else collected
  let emptyResponse := !streamCancelled env &&
    (!settled.any fun message => message.metadata.outputTokenLimitReached) && settled.all isBlankMessage
  if emptyResponse then
    .yieldedWith (before ++ usageEffects env ++ [.append (assistantText machine env emptyResponseMessage)])
  else .proceed (before ++ usageEffects env ++ settled.map .append)

def inferOn (machine : Machine) (env : StepEnv) (names : List String) (turn : List Message) : OperationResult :=
  let before := (turnContextEvent machine env turn).map AIBuddyEffect.append
  match env.provider.startError with
  | some error => .proceed (before ++ [.append (messageFromProviderError env error)])
  | none =>
      let collected := receiveChunks env.provider names (receivedChunks env)
      match env.provider.streamError with
      | some error =>
          if streamCancelled env then finishStream machine env turn collected before
          else
            .proceed (before ++ usageEffects env ++ collected.map .append ++
              [.append (messageFromProviderError env error)])
      | none => finishStream machine env turn collected before

def infer (machine : Machine) (env : StepEnv) (names : List String) (conversation : List Message) :
    Except String OperationResult := do
  let turn <- messagesSinceKickoff conversation
  return if !inferenceApplies conversation then .notApplicable else (inferOn machine env names turn).asked

/-- On a cancelled run, answer what the turn leaves unanswered. -/
def inferenceCancel (machine : Machine) (env : StepEnv) (conversation : List Message) :
    OperationResult -> Except String OperationResult
  | .applied result => .ok (.applied result)
  | .notApplicable => do
      let turn <- messagesSinceKickoff conversation
      match cancellationResponse machine.codec env.now turn [] with
      | some response => return .proceed [.append response]
      | none => return .notApplicable

end AIBuddy
