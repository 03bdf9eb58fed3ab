import Mathlib.Algebra.Order.Ring.Int
import AIBuddy.Provider.MessageStream
import AIBuddy.Provider.ThinkFilter
import AIBuddy.Provider.ToolArguments
import AIBuddy.Support.Table

namespace AIBuddy
namespace OpenAi

/-!
# The decoder of OpenAI chat streams

A chat stream is a sequence of chunks.  Text and reasoning are yielded as they come.
The first chunk with a tool call starts an inner loop that reads on from the same
stream until the calls of the response are complete.
-/

/-! ## Chunks -/

structure DeltaToolCallFunction where
  name : Option String
  arguments : String
deriving DecidableEq, Repr

structure DeltaToolCall where
  id : Option String
  function : DeltaToolCallFunction
  index : Option Int
  extra : Option JsonObject
deriving DecidableEq, Repr

structure ContentBlockPart where
  type : String
  text : Option String
  thoughtSignature : Option String
deriving DecidableEq, Repr

inductive DeltaContentBlock where
  | string (text : String)
  | array (parts : List ContentBlockPart)
deriving DecidableEq, Repr

structure Delta where
  content : Option DeltaContentBlock
  toolCalls : Option (List DeltaToolCall)
  reasoning : Option String
  reasoningContent : Option String
deriving DecidableEq, Repr

/-- The reasoning of a delta.  Empty values do not count. -/
def Delta.reasoningText (delta : Delta) : Option String :=
  (delta.reasoningContent.filter (· ≠ "")).or (delta.reasoning.filter (· ≠ ""))

structure StreamingChoice where
  delta : Delta
  finishReason : Option String
deriving DecidableEq, Repr

structure StreamingChunk where
  choices : List StreamingChoice
  id : Option String
  usage : Option Json
  model : Option String
deriving DecidableEq, Repr

/-- The JSON parser and printer, with the derived reader of chunks. -/
structure Reader extends JsonParser where
  toText : Json -> String
  fromValue : Json -> Except String StreamingChunk

/-- The text of a delta, and the signature of its thought. -/
def extractContentAndSignature : Option DeltaContentBlock -> Option String × Option String
  | some (.string text) => (some text, none)
  | some (.array parts) =>
      let textParts := parts.filter fun part => part.type == "text"
      let text := String.join (textParts.filterMap ContentBlockPart.text)
      (if text = "" then none else some text, textParts.findSome? ContentBlockPart.thoughtSignature)
  | none => (none, none)

/-! ## Usage -/

/-- An integer that fits into 64 bits. -/
def asI64 : Json -> Option Int
  | .number (.integer value) =>
      if -9223372036854775808 ≤ value ∧ value ≤ 9223372036854775807 then some value else none
  | _ => none

/-- The lower 32 bits of an integer. -/
def toI32 (value : Int) : Int :=
  Int.bmod value 4294967296

/-- The counts of a usage, under the names of OpenAI or those of Ollama. -/
def getUsage (usage : Json) : Usage :=
  let usage := ((usage.get "usage").filter Json.isObject).getD usage
  let count := fun key => (usage.get key).bind asI64
  let detail := fun key => ((usage.get "prompt_tokens_details").bind fun details => details.get key).bind asI64
  let inputTokens := ((count "prompt_tokens").or (count "prompt_eval_count")).map toI32
  let outputTokens := ((count "completion_tokens").or (count "eval_count")).map toI32
  let cacheRead := ((count "cache_read_input_tokens").or (detail "cached_tokens")).map toI32
  let cacheWrite := ((count "cache_creation_input_tokens").or (detail "cache_write_tokens")).map toI32
  let totalTokens := ((count "total_tokens").map toI32).or
    (inputTokens.bind fun input => outputTokens.map fun output => saturate (input + output))
  (Usage.new inputTokens outputTokens totalTokens).withCacheTokens cacheRead cacheWrite

/-- The usage of a chunk, when it counts output tokens. -/
def extractUsageWithOutputTokens (chunk : StreamingChunk) (fallbackModel : Option String) : Option ProviderUsage :=
  (chunk.usage.bind fun usage => (chunk.model.or fallbackModel).map fun model =>
    ProviderUsage.new model (getUsage usage)).filter fun usage => usage.usage.outputTokens.isSome

/-! ## Lines -/

/-- The payload of a data line. -/
def stripDataPrefix (line : String) : Option String :=
  ((Text.stripPrefix "data: " line).or (Text.stripPrefix "data:" line)).map Text.trim

def maxStreamErrorLen : Nat := 500

/-- The text of a single error value. -/
def errorText (reader : Reader) (value : Json) : Option String :=
  match value with
  | .string text => some text
  | .object _ => (((value.get "msg").or (value.get "message")).bind Json.asStr).or (some (reader.toText value))
  | .null => none
  | other => some (reader.toText other)

/-- The text of an error payload, cut to a length that can be shown. -/
def streamErrorText (reader : Reader) (value : Json) : Option String :=
  let text :=
    match value with
    | .array items =>
        match items.filterMap (errorText reader) with
        | [] => none
        | parts => some ("; ".intercalate parts)
    | other => errorText reader other
  (text.filter (· ≠ "")).map fun text =>
    if text.length > maxStreamErrorLen then String.ofList (text.toList.take maxStreamErrorLen) ++ "…" else text

/-- The value of decimal digits. -/
def digitsValue (digits : List Char) : Option Int :=
  if !digits.isEmpty && digits.all Char.isDigit then
    some (digits.foldl (fun value digit => value * 10 + (digit.toNat - 48 : Nat)) 0)
  else none

/-- A text as an integer that fits into 64 bits. -/
def parseI64 (text : String) : Option Int :=
  let value :=
    match text.toList with
    | '-' :: digits => (digitsValue digits).map fun value => -value
    | '+' :: digits => digitsValue digits
    | digits => digitsValue digits
  value.bind fun value => asI64 (.number (.integer value))

/-- The failure that a frame without choices reports, if it reports one. -/
def classifyChoicelessFrame (reader : Reader) (value : Json) : Option StreamError :=
  let status := ["status", "statusCode", "code"].findSome? fun key =>
    (value.get key).bind fun raw => (asI64 raw).or (raw.asStr.bind parseI64)
  let hasErrorSignal := status.any (fun status => decide (status ≥ 400)) ||
    (value.get "type").bind Json.asStr == some "error" || (value.get "detail").any fun detail => detail != .null
  if !hasErrorSignal then none
  else
    let details := (((value.get "message").bind (streamErrorText reader)).or
      ((value.get "detail").bind (streamErrorText reader))).or ((value.get "error").bind (streamErrorText reader))
    let fallback :=
      match status with
      | some status => "Gateway returned status " ++ toString status ++ " mid-stream"
      | none => "Unknown server error"
    some (.server (details.getD fallback))

/-- The text of an error object. -/
def serverMessage (value : Json) : String :=
  ((value.get "message").bind Json.asStr).getD "Unknown server error"

def lacksChoices : Json -> Bool
  | .object fields => (fields.lookup "choices").isNone
  | _ => false

/-- The chunk of a payload.  A frame without choices is metadata. -/
def parseStreamingChunk (reader : Reader) (line : String) : Except StreamError (Option StreamingChunk) :=
  match reader.fromStr line with
  | .error reason => .error (.decode "streaming chunk" reason line)
  | .ok value =>
      match value.get "error" with
      | some error => .error (.server (serverMessage error))
      | none =>
          if (value.get "object").bind Json.asStr = some "error" then .error (.server (serverMessage value))
          else if lacksChoices value then
            match classifyChoicelessFrame reader value with
            | some error => .error error
            | none => .ok none
          else
            match reader.fromValue value with
            | .error reason => .error (.decode "streaming chunk" reason line)
            | .ok chunk => .ok (some chunk)

/-! ## Tool calls -/

/-- A tool call as far as it has been streamed. -/
structure StreamedCall where
  id : String
  name : String
  arguments : String
  extra : Option JsonObject
deriving DecidableEq, Repr

abbrev ToolCallData := Table Int StreamedCall

/-- The call that a delta starts, when it has an identifier and a name. -/
def DeltaToolCall.opens (delta : DeltaToolCall) : Option StreamedCall :=
  delta.id.bind fun id => delta.function.name.map fun name => ⟨id, name, delta.function.arguments, delta.extra⟩

/-- Take in the deltas of the first chunk with tool calls, from a position on. -/
def openCalls (position : Nat) (data : ToolCallData) : List DeltaToolCall -> ToolCallData
  | [] => data
  | delta :: rest =>
      match delta.opens with
      | some call => openCalls (position + 1) (data.insert (delta.index.getD position) call) rest
      | none => openCalls (position + 1) data rest

/-- Extra fields, with those of a later delta that are new. -/
def mergeExtra (extra later : Option JsonObject) : Option JsonObject :=
  match extra, later with
  | none, later => later
  | some existing, none => some existing
  | some existing, some fields =>
      some (fields.foldl (fun merged field =>
        if (merged.lookup field.1).isSome then merged else merged ++ [field]) existing)

/-- A call with what a later delta says about it. -/
def StreamedCall.extend (call : StreamedCall) (delta : DeltaToolCall) : StreamedCall where
  id := call.id
  name := (delta.function.name.filter (· ≠ "")).getD call.name
  arguments := call.arguments ++ delta.function.arguments
  extra := mergeExtra call.extra delta.extra

/-- Take in a delta of a later chunk. -/
def laterDelta (data : ToolCallData) (delta : DeltaToolCall) : ToolCallData :=
  match delta.index with
  | none => data
  | some index =>
      match data.find? index with
      | some call => data.insert index (call.extend delta)
      | none =>
          match delta.opens with
          | some call => data.insert index call
          | none => data

def outputTokenLimitToolError (functionName id : String) : ErrorData :=
  ⟨invalidParams, "Tool arguments for " ++ functionName ++ " (id " ++ id ++
    ") were truncated because the model reached its output token limit", none⟩

/-- What is made of the arguments of a call that was streamed completely. -/
def readArguments (json : JsonParser) (functionName id arguments : String) : ToolResult CallToolRequestParams :=
  match parseToolArguments json arguments with
  | some (.object fields) => callWith functionName fields
  | some other =>
      .error ⟨invalidParams, "Tool arguments for " ++ functionName ++ " (id " ++ id ++
        ") must be a JSON object, got " ++ describeJsonValue other ++ ". Raw arguments: '" ++ arguments ++ "'", none⟩
  | none =>
      .error ⟨invalidParams, (truncationErrorMessage json arguments).getD
        ("Could not interpret tool use parameters for id " ++ id), none⟩

/-- The tool call that is yielded for a streamed one. -/
def streamedToolCall (json : JsonParser) (limitReached : Bool) (call : StreamedCall) :
    ToolResult CallToolRequestParams :=
  if limitReached then .error (outputTokenLimitToolError call.name call.id)
  else if call.arguments = "" then callWith call.name []
  else readArguments json call.name call.id call.arguments

/-! ## The state of the decoder -/

structure State where
  accumulatedReasoningContent : List Char
  thinkFilter : ThinkFilter
  sawStructuredReasoning : Bool
  yieldedReasoningContentLen : Nat
  lastSignature : Option String
  pendingInlineThinking : List Char
  lastSeenModel : Option String
  lastResponseId : Option String
  lastFinishReason : Option String
  outputTokenLimitReached : Bool
  outputTokenLimitMetadataEmitted : Bool
  usageEmitted : Bool
deriving DecidableEq

def State.start : State :=
  ⟨[], ThinkFilter.new, false, 0, none, [], none, none, none, false, false, false⟩

/-- What the inner loop has collected, for the chunk that started it. -/
structure Collecting where
  calls : ToolCallData
  chunkId : Option String
  usage : Option ProviderUsage

namespace State

/-- Take the reasoning of a delta in. -/
def noteReasoning (state : State) (delta : Delta) : State :=
  match delta.reasoningText with
  | some reasoning =>
      { state with
        accumulatedReasoningContent := state.accumulatedReasoningContent ++ reasoning.toList
        sawStructuredReasoning := true
        pendingInlineThinking := [] }
  | none => state

/-- Take in what a chunk says about the response. -/
def noteChunk (state : State) (chunk : StreamingChunk) : State :=
  { state with
    lastSeenModel := chunk.model.or state.lastSeenModel
    lastResponseId := chunk.id.or state.lastResponseId
    lastFinishReason := (chunk.choices.head?.bind StreamingChoice.finishReason).or state.lastFinishReason }

/-- The usage of a chunk with what is known of the response. -/
def usageOf (state : State) (chunk : StreamingChunk) : Option ProviderUsage :=
  (extractUsageWithOutputTokens chunk state.lastSeenModel).map fun usage =>
    { usage with
      finishReasons := (state.lastFinishReason.map fun reason => [reason]).or usage.finishReasons
      responseId := state.lastResponseId.or usage.responseId }

end State

/-- What stands behind so many bytes of a text, when a character begins there. -/
def dropBytes : Nat -> List Char -> Option (List Char)
  | 0, text => some text
  | _ + 1, [] => none
  | bytes + 1, character :: rest =>
      if character.utf8Size ≤ bytes + 1 then dropBytes (bytes + 1 - character.utf8Size) rest else none

def thinkingBlock (text : List Char) (signature : String) : MessageContentBlock :=
  .thinking ⟨String.ofList text, signature⟩

def textBlock (text : List Char) : MessageContentBlock :=
  .plainText (String.ofList text)

/-- Text and thinking that a filter let go, as far as there is any. -/
def flushedBlocks (content thinking : List Char) : List MessageContentBlock :=
  (if content.isEmpty then [] else [textBlock content]) ++
    if thinking.isEmpty then [] else [thinkingBlock thinking ""]

/-- The thinking that is to be yielded: none, once structured reasoning was seen. -/
def State.inlineThinking (state : State) (filtered : List Char) : List Char :=
  if state.sawStructuredReasoning then [] else state.pendingInlineThinking ++ filtered

/-! ## Yielding -/

/-- The metadata of a request: its extra fields and the last signature. -/
def callMetadata (lastSignature : Option String) (extra : Option JsonObject) : Option JsonObject :=
  match lastSignature with
  | some signature => some ((extra.getD []).insert "thoughtSignature" (.string signature))
  | none => extra.filter fun fields => !fields.isEmpty

def requestBlock (json : JsonParser) (state : State) (entry : Int × StreamedCall) : MessageContentBlock :=
  .indexedToolRequest entry.2.id (streamedToolCall json state.outputTokenLimitReached entry.2)
    (callMetadata state.lastSignature entry.2.extra) entry.1

/-- The reasoning that was accumulated and not yielded yet. -/
def unyieldedReasoning (state : State) : List MessageContentBlock :=
  if state.yieldedReasoningContentLen < utf8Length state.accumulatedReasoningContent then
    match dropBytes state.yieldedReasoningContentLen state.accumulatedReasoningContent with
    | some unyielded => if unyielded.isEmpty then [] else [thinkingBlock unyielded ""]
    | none => []
  else []

/-- Yield the calls that the inner loop collected. -/
def emitCalls (json : JsonParser) (now : Int) (state : State) (collecting : Collecting) : State × List StreamItem :=
  let pushed := state.thinkFilter.push []
  let flushed := flushedBlocks pushed.2.content (state.inlineThinking pushed.2.thinking)
  let contents := unyieldedReasoning state ++ collecting.calls.entries.map (requestBlock json state)
  let message :=
    { assistantMessage now collecting.chunkId contents with
      metadata := { outputTokenLimitReached := state.outputTokenLimitReached } }
  ({ state with
      thinkFilter := pushed.1
      pendingInlineThinking := []
      accumulatedReasoningContent := []
      yieldedReasoningContentLen := 0
      outputTokenLimitMetadataEmitted := state.outputTokenLimitMetadataEmitted || state.outputTokenLimitReached
      usageEmitted := state.usageEmitted || collecting.usage.isSome },
    (if flushed.isEmpty then [] else [⟨some (assistantMessage now collecting.chunkId flushed), none⟩]) ++
      [⟨some message, collecting.usage⟩])

/-- Yield a usage without a message, if there is one. -/
def yieldUsage (state : State) (usage : Option ProviderUsage) : State × List StreamItem :=
  if usage.isSome then ({ state with usageEmitted := true }, [⟨none, usage⟩]) else (state, [])

/-- Push the text of a delta through the filter. -/
def pushText (state : State) (delta : Delta) : ThinkFilter × FilterOut :=
  ((extractContentAndSignature delta.content).1.map fun text => state.thinkFilter.push text.toList).getD
    (state.thinkFilter, FilterOut.empty)

/-- The state behind a delta without tool calls. -/
def afterText (state : State) (delta : Delta) : State :=
  { state with
    yieldedReasoningContentLen :=
      if delta.reasoningText.isSome then utf8Length state.accumulatedReasoningContent
      else state.yieldedReasoningContentLen
    lastSignature := (extractContentAndSignature delta.content).2.or state.lastSignature
    thinkFilter := (pushText state delta).1
    pendingInlineThinking :=
      if state.sawStructuredReasoning then state.pendingInlineThinking
      else state.pendingInlineThinking ++ (pushText state delta).2.thinking }

/-- The reasoning and the text of a delta without tool calls. -/
def textContent (state : State) (delta : Delta) : List MessageContentBlock :=
  (delta.reasoningText.map fun reasoning =>
    thinkingBlock reasoning.toList (state.lastSignature.getD "")).toList ++ flushedBlocks (pushText state delta).2.content []

/-- Yield the text and the reasoning of a chunk without tool calls. -/
def emitText (now : Int) (state : State) (chunk : StreamingChunk) (choice : StreamingChoice)
    (usage : Option ProviderUsage) : State × List StreamItem :=
  let next := afterText state choice.delta
  let content := textContent state choice.delta
  if content.isEmpty then yieldUsage next usage
  else
    let finalUsage := if choice.finishReason.isSome then usage else none
    ({ next with usageEmitted := next.usageEmitted || finalUsage.isSome },
      [⟨some (assistantMessage now chunk.id content), finalUsage⟩])

/-! ## The loops -/

/-- Where the decoder is: in the outer loop, or collecting tool calls. -/
inductive Mode where
  | outer
  | collecting (collecting : Collecting)

inductive Outcome where
  | goOn (state : State) (mode : Mode) (items : List StreamItem)
  | stop (state : State)
  | fail (error : StreamError)

/-- Leave the inner loop: yield its calls and go on with the outer one. -/
def leaveInner (json : JsonParser) (now : Int) (state : State) (collecting : Collecting) : Outcome :=
  let emitted := emitCalls json now state collecting
  .goOn emitted.1 .outer emitted.2

/-- A finish reason with which the first chunk of the calls is also the last one. -/
def isComplete (finishReason : Option String) : Bool :=
  finishReason == some "tool_calls" || finishReason == some "length"

def startsCalls (choice : StreamingChoice) : Bool :=
  choice.delta.toolCalls.any fun calls => !calls.isEmpty

/-- Take in a chunk of the outer loop, with its reasoning. -/
def State.receive (earlier : State) (chunk : StreamingChunk) : State :=
  let noted := earlier.noteChunk chunk
  let state :=
    match chunk.choices with
    | [] => noted
    | choice :: _ => noted.noteReasoning choice.delta
  { state with
    outputTokenLimitReached := state.outputTokenLimitReached || state.lastFinishReason == some "length" }

/-- A chunk in the outer loop. -/
def outerChunk (json : JsonParser) (now : Int) (earlier : State) (chunk : StreamingChunk) : Outcome :=
  let state := earlier.receive chunk
  let usage := state.usageOf chunk
  match chunk.choices with
  | [] => .goOn { state with usageEmitted := state.usageEmitted || usage.isSome } .outer [⟨none, usage⟩]
  | choice :: _ =>
      if startsCalls choice then
        let collecting : Collecting := ⟨openCalls 0 Table.empty (choice.delta.toolCalls.getD []), chunk.id, usage⟩
        if isComplete choice.finishReason then leaveInner json now state collecting
        else .goOn state (.collecting collecting) []
      else if choice.delta.content.isSome || choice.delta.reasoningText.isSome then
        let emitted := emitText now state chunk choice usage
        .goOn emitted.1 .outer emitted.2
      else
        let emitted := yieldUsage state usage
        .goOn emitted.1 .outer emitted.2

/-- Take in a chunk of the inner loop, with its reasoning. -/
def State.receiveInner (earlier : State) (chunk : StreamingChunk) : State :=
  let noted := earlier.noteChunk chunk
  match chunk.choices with
  | [] => noted
  | choice :: _ =>
      { noted with
        outputTokenLimitReached := noted.outputTokenLimitReached || choice.finishReason == some "length"
      }.noteReasoning choice.delta

/-- A chunk in the inner loop. -/
def innerChunk (json : JsonParser) (now : Int) (earlier : State) (collecting : Collecting)
    (chunk : StreamingChunk) : Outcome :=
  let state := earlier.receiveInner chunk
  let usage := (state.usageOf chunk).or collecting.usage
  match chunk.choices with
  | [] => leaveInner json now state { collecting with usage := usage }
  | choice :: _ =>
      let collected : Collecting :=
        ⟨(choice.delta.toolCalls.getD []).foldl laterDelta collecting.calls, collecting.chunkId, usage⟩
      if choice.finishReason.isSome then leaveInner json now state collected
      else .goOn state (.collecting collected) []

/-- A line in the outer loop, where blank data lines are skipped. -/
def outerLine (reader : Reader) (now : Int) (state : State) : StreamLine -> Outcome
  | .error text => .fail (.transport text)
  | .ok line =>
      match stripDataPrefix line with
      | none => .goOn state .outer []
      | some payload =>
          if payload = "[DONE]" then .stop state
          else if payload = "" then .goOn state .outer []
          else
            match parseStreamingChunk reader payload with
            | .error error => .fail error
            | .ok none => .goOn state .outer []
            | .ok (some chunk) => outerChunk reader.toJsonParser now state chunk

/-- A line in the inner loop, where the end mark leaves both loops. -/
def innerLine (reader : Reader) (now : Int) (state : State) (collecting : Collecting) : StreamLine -> Outcome
  | .error text => .fail (.transport text)
  | .ok line =>
      match stripDataPrefix line with
      | none => .goOn state (.collecting collecting) []
      | some payload =>
          if payload = "[DONE]" then .stop state
          else
            match parseStreamingChunk reader payload with
            | .error error => .fail error
            | .ok none => .goOn state (.collecting collecting) []
            | .ok (some chunk) => innerChunk reader.toJsonParser now state collecting chunk

/-- What is yielded when both loops are over. -/
def finish (now : Int) (state : State) : List StreamItem :=
  let filtered := state.thinkFilter.finish
  let flushed := flushedBlocks filtered.content (state.inlineThinking filtered.thinking)
  let marksLimit := state.outputTokenLimitReached && !state.outputTokenLimitMetadataEmitted
  let trailer :=
    if flushed.isEmpty then []
    else [(⟨some { assistantMessage now state.lastResponseId flushed with
      metadata := { outputTokenLimitReached := marksLimit } }, none⟩ : StreamItem)]
  let marker :=
    if marksLimit && flushed.isEmpty then
      [(⟨some (outputTokenLimitMarker now state.lastResponseId), none⟩ : StreamItem)]
    else []
  let usage : ProviderUsage :=
    { ProviderUsage.new (state.lastSeenModel.getD "unknown") Usage.default with
      finishReasons := state.lastFinishReason.map fun reason => [reason], responseId := state.lastResponseId }
  let lastUsage :=
    if !state.usageEmitted && (state.lastResponseId.isSome || state.lastFinishReason.isSome) then
      [(⟨none, some usage⟩ : StreamItem)]
    else []
  trailer ++ marker ++ lastUsage

def readLines (reader : Reader) (now : Int) (state : State) : Mode -> List StreamLine -> Decoded
  | .outer, [] => ⟨finish now state, none⟩
  | .collecting collecting, [] =>
      let emitted := emitCalls reader.toJsonParser now state collecting
      ⟨emitted.2 ++ finish now emitted.1, none⟩
  | mode, line :: rest =>
      let outcome :=
        match mode with
        | .outer => outerLine reader now state line
        | .collecting collecting => innerLine reader now state collecting line
      match outcome with
      | .goOn next nextMode items => (readLines reader now next nextMode rest).after items
      | .stop next => ⟨finish now next, none⟩
      | .fail error => .failed error

def responseToStreamingMessage (reader : Reader) (now : Int) (lines : List StreamLine) : Decoded :=
  readLines reader now State.start .outer lines

end OpenAi
end AIBuddy
