import AIBuddy.Provider.MessageStream
import AIBuddy.Provider.ToolArguments

namespace AIBuddy
namespace Responses

/-!
# The decoder of the Responses API

A Responses stream is a sequence of events.  Text is yielded as it comes.  The other
items of the output are collected, and become one message when the stream is over.
-/

/-! ## Events -/

structure ResponseIncompleteDetails where
  reason : Option String
deriving DecidableEq, Repr

structure InputTokensDetails where
  cachedTokens : Option Int
deriving DecidableEq, Repr

structure ResponseUsage where
  inputTokens : Int
  outputTokens : Int
  totalTokens : Int
  inputTokensDetails : Option InputTokensDetails
deriving DecidableEq, Repr

def ResponseUsage.toUsage (usage : ResponseUsage) : Usage :=
  (Usage.new (some usage.inputTokens) (some usage.outputTokens) (some usage.totalTokens)).withCacheTokens
    (usage.inputTokensDetails.bind InputTokensDetails.cachedTokens) none

inductive ContentBlockPart where
  | outputText (text : String)
  | refusal (refusal : String)
  | reasoningText (text : String)
  | toolCall (id name arguments : String)
deriving DecidableEq, Repr

inductive ResponseOutputItemInfo where
  | reasoning (summary : List String)
  | message (content : List ContentBlockPart)
  | functionCall (id status callId : Option String) (name arguments : String)
deriving DecidableEq, Repr

structure ResponseMetadata where
  id : String
  status : String
  model : String
  output : List ResponseOutputItemInfo
  usage : Option ResponseUsage
  incompleteDetails : Option ResponseIncompleteDetails
deriving DecidableEq, Repr

inductive ResponsesStreamEvent where
  | responseCreated (response : ResponseMetadata)
  | responseInProgress (response : ResponseMetadata)
  | outputItemAdded
  | contentBlockPartAdded
  | outputTextDelta (delta : String)
  | outputItemDone (item : ResponseOutputItemInfo)
  | contentBlockPartDone
  | outputTextDone
  | responseCompleted (response : ResponseMetadata)
  | responseIncomplete (response : ResponseMetadata)
  | responseFailed (error : Json)
  | functionCallArgumentsDelta
  | functionCallArgumentsDone
  | refusalDelta (delta : String)
  | refusalDone
  | error (error : Json)
  | keepalive
deriving DecidableEq

/-- The JSON parser, with the derived reader of events. -/
structure Reader extends JsonParser where
  fromValue : Json -> Except String ResponsesStreamEvent

def isOutputTokenLimitIncompleteReason (reason : String) : Bool :=
  reason == "max_output_tokens" || reason == "max_tokens"

def responseReachedOutputTokenLimit (status : String) (details : Option ResponseIncompleteDetails) : Bool :=
  status == "incomplete" &&
    (details.bind ResponseIncompleteDetails.reason).any isOutputTokenLimitIncompleteReason

def knownEventTypes : List String :=
  ["response.created", "response.in_progress", "response.output_item.added", "response.content_part.added",
    "response.output_text.delta", "response.output_item.done", "response.content_part.done",
    "response.output_text.done", "response.completed", "response.incomplete", "response.failed",
    "response.function_call_arguments.delta", "response.function_call_arguments.done",
    "response.refusal.delta", "response.refusal.done", "error", "keepalive"]

/-- The event of a data line.  Events of other types are none. -/
def parseResponsesStreamEvent (reader : Reader) (dataLine : String) :
    Except StreamError (Option ResponsesStreamEvent) :=
  match reader.fromStr dataLine with
  | .error reason => .error (.decode "Responses stream event" reason dataLine)
  | .ok rawEvent =>
      match (rawEvent.get "type").bind Json.asStr with
      | none => .ok none
      | some eventType =>
          if !knownEventTypes.contains eventType then .ok none
          else
            match reader.fromValue rawEvent with
            | .error reason => .error (.decode "Responses stream event" reason dataLine)
            | .ok event => .ok (some event)

/-! ## Lines -/

def isFieldCharacter (character : Char) : Bool :=
  character.isAlphanum || character == '-' || character == '_'

/-- The field name of a line, when the line looks like a field. -/
def sseFieldName (line : String) : Option String :=
  let field := ((Text.splitOnce ':' line).map Prod.fst).getD line
  if field = "" then some ""
  else if field.toList.all isFieldCharacter then some field
  else none

/-- The payload of a line.  Blank lines, comments and other fields have none, and a
line that is no field is a payload itself. -/
def dataLine? (line : String) : Option String :=
  if Text.isBlank line then none
  else if Text.startsWith ":" line then none
  else
    match Text.stripPrefix "data: " line with
    | some payload => some payload
    | none =>
        match Text.stripPrefix "data:" line with
        | some payload => some payload
        | none => if (sseFieldName line).any (fun field => field != "data") then none else some line

theorem dataLine?_data (payload : String) : dataLine? ("data: " ++ payload) = some payload := by
  have letter : Text.isBlank ("data: " ++ payload) = false := by
    rw [Text.isBlank_append]
    rfl
  have noComment : Text.startsWith ":" ("data: " ++ payload) = false := by
    rw [Text.startsWith, String.toList_append]
    rfl
  simp [dataLine?, letter, noComment]

/-! ## Output items -/

mutual

/-- Strip Unicode tags from all texts of a value. -/
def sanitizeToolArguments : Json -> Except StreamError Json
  | .string text => .ok (.string (stripUnicodeTags text))
  | .array values => (sanitizeValues values).map .array
  | .object values => (sanitizeMembers [] values).map .object
  | value => .ok value

def sanitizeValues : List Json -> Except StreamError (List Json)
  | [] => .ok []
  | value :: rest =>
      match sanitizeToolArguments value with
      | .error error => .error error
      | .ok first => (sanitizeValues rest).map fun others => first :: others

/-- Sanitize the members of an object, which fails when two keys become the same. -/
def sanitizeMembers (sanitized : JsonObject) : List (String × Json) -> Except StreamError JsonObject
  | [] => .ok sanitized
  | (key, value) :: rest =>
      if (sanitized.map Prod.fst).contains (stripUnicodeTags key) then
        .error (.invalid "Responses tool arguments contain duplicate key after Unicode tag sanitization")
      else
        match sanitizeToolArguments value with
        | .error error => .error error
        | .ok clean => sanitizeMembers (sanitized ++ [(stripUnicodeTags key, clean)]) rest

end

/-- The arguments of a call.  What is not JSON counts as the empty object. -/
def parseToolArguments (json : JsonParser) (arguments : String) : Except StreamError Json :=
  if arguments = "" then .ok (.object [])
  else
    match json.fromStr arguments with
    | .ok value => sanitizeToolArguments value
    | .error _ => .ok (.object [])

/-- A sanitized identifier, with those seen so far. -/
def sanitizeToolRequestId (id : String) (seenIds : List String) : Except StreamError (String × List String) :=
  let clean := stripUnicodeTags id
  if seenIds.contains clean then
    .error (.invalid "Responses tool calls contain duplicate ID after Unicode tag sanitization")
  else .ok (clean, clean :: seenIds)

/-- The request of a call, with the identifiers seen so far. -/
def streamedRequest (json : JsonParser) (id name arguments : String) (seenIds : List String) :
    Except StreamError (MessageContentBlock × List String) :=
  match sanitizeToolRequestId id seenIds with
  | .error error => .error error
  | .ok (requestId, seen) =>
      match parseToolArguments json arguments with
      | .error error => .error error
      | .ok parsed =>
          .ok (.newToolRequest requestId (callWith (stripUnicodeTags name) parsed.toObject), seen)

def reasoningFromSummary (codec : TextCodec) (summary : List String) : List MessageContentBlock :=
  let text := "\n".intercalate (summary.map (sanitizeUnicodeTags codec))
  if text = "" then [] else [.thinking ⟨text, ""⟩]

/-- A text of the output, unless it was streamed before. -/
def outputText (codec : TextCodec) (isTextResponse : Bool) (text : String) : List MessageContentBlock :=
  let clean := sanitizeUnicodeTags codec text
  if clean ≠ "" ∧ isTextResponse = false then [.plainText clean] else []

def reasoningText (codec : TextCodec) (text : String) : List MessageContentBlock :=
  let clean := sanitizeUnicodeTags codec text
  if clean = "" then [] else [.thinking ⟨clean, ""⟩]

/-- The blocks of the parts of a message, with the identifiers seen so far. -/
def processParts (codec : TextCodec) (json : JsonParser) (isTextResponse : Bool) (seenIds : List String) :
    List ContentBlockPart -> Except StreamError (List MessageContentBlock × List String)
  | [] => .ok ([], seenIds)
  | .outputText text :: rest =>
      (processParts codec json isTextResponse seenIds rest).map fun result =>
        (outputText codec isTextResponse text ++ result.1, result.2)
  | .refusal refusal :: rest =>
      (processParts codec json isTextResponse seenIds rest).map fun result =>
        (outputText codec isTextResponse refusal ++ result.1, result.2)
  | .reasoningText text :: rest =>
      (processParts codec json isTextResponse seenIds rest).map fun result =>
        (reasoningText codec text ++ result.1, result.2)
  | .toolCall id name arguments :: rest =>
      match streamedRequest json id name arguments seenIds with
      | .error error => .error error
      | .ok (request, seen) =>
          (processParts codec json isTextResponse seen rest).map fun result => (request :: result.1, result.2)

/-- The blocks of an item, with the identifiers seen so far. -/
def processItem (codec : TextCodec) (json : JsonParser) (isTextResponse : Bool) (seenIds : List String) :
    ResponseOutputItemInfo -> Except StreamError (List MessageContentBlock × List String)
  | .reasoning summary => .ok (reasoningFromSummary codec summary, seenIds)
  | .message content => processParts codec json isTextResponse seenIds content
  | .functionCall id _ callId name arguments =>
      match callId.or id with
      | none => .error (.invalid "Responses function_call output missing call_id and id")
      | some requestId =>
          (streamedRequest json requestId name arguments seenIds).map fun result => ([result.1], result.2)

def processItems (codec : TextCodec) (json : JsonParser) (isTextResponse : Bool) (seenIds : List String) :
    List ResponseOutputItemInfo -> Except StreamError (List MessageContentBlock)
  | [] => .ok []
  | item :: rest =>
      match processItem codec json isTextResponse seenIds item with
      | .error error => .error error
      | .ok (blocks, seen) =>
          (processItems codec json isTextResponse seen rest).map fun others => blocks ++ others

def processStreamingOutputItems (codec : TextCodec) (json : JsonParser) (items : List ResponseOutputItemInfo)
    (isTextResponse : Bool) : Except StreamError (List MessageContentBlock) :=
  processItems codec json isTextResponse [] items

/-! ## The stream -/

structure State where
  responseId : Option String
  modelName : Option String
  finalUsage : Option ProviderUsage
  outputItems : List ResponseOutputItemInfo
  isTextResponse : Bool
  outputTokenLimitReached : Bool
deriving DecidableEq

def State.start : State := ⟨none, none, none, [], false, false⟩

/-- What an event means for the stream. -/
inductive Outcome where
  | goOn (state : State) (items : List StreamItem)
  | stop (state : State)
  | fail (error : StreamError)

/-- The usage that the last event reports. -/
def finalUsage (state : State) (response : ResponseMetadata) (reason : String) : ProviderUsage :=
  let usage := (response.usage.map ResponseUsage.toUsage).getD Usage.default
  { ProviderUsage.new (state.modelName.getD response.model) usage with
    finishReasons := some [reason], responseId := some response.id }

/-- Whether the last event of a truncated response keeps an item. -/
def keptWhenIncomplete : ResponseOutputItemInfo -> Bool
  | .functionCall _ status _ _ _ => status == some "completed"
  | _ => true

def receiveDelta (now : Int) (state : State) (delta : String) : Outcome :=
  let text := stripUnicodeTags delta
  .goOn { state with isTextResponse := true }
    (if text = "" then [] else [⟨some (assistantMessage now state.responseId [.plainText text]), none⟩])

def receiveEvent (now : Int) (state : State) : ResponsesStreamEvent -> Outcome
  | .responseCreated response | .responseInProgress response =>
      .goOn { state with responseId := some response.id, modelName := some response.model } []
  | .outputTextDelta delta | .refusalDelta delta => receiveDelta now state delta
  | .outputItemDone item => .goOn { state with outputItems := state.outputItems ++ [item] } []
  | .responseCompleted response =>
      .stop { state with
        finalUsage := some (finalUsage state response response.status)
        outputItems := if response.output.isEmpty then state.outputItems else response.output }
  | .responseIncomplete response =>
      .stop { state with
        finalUsage := some (finalUsage state response
          ((response.incompleteDetails.bind ResponseIncompleteDetails.reason).getD response.status))
        responseId := some response.id
        outputTokenLimitReached := responseReachedOutputTokenLimit response.status response.incompleteDetails
        outputItems :=
          if response.output.isEmpty then state.outputItems else response.output.filter keptWhenIncomplete }
  | .responseFailed error => .fail (.requestFailed "Responses API failed" error)
  | .error error => .fail (.requestFailed "Responses API error" error)
  | _ => .goOn state []

/-- What a line is read as. -/
inductive LineReading where
  | nothing
  | done
  | event (event : ResponsesStreamEvent)
  | broken (error : StreamError)
deriving DecidableEq

def readLine (reader : Reader) : StreamLine -> LineReading
  | .error text => .broken (.transport text)
  | .ok line =>
      match dataLine? line with
      | none => .nothing
      | some payload =>
          if payload = "[DONE]" then .done
          else
            match parseResponsesStreamEvent reader payload with
            | .error error => .broken error
            | .ok none => .nothing
            | .ok (some event) => .event event

def receiveLine (reader : Reader) (now : Int) (state : State) (line : StreamLine) : Outcome :=
  match readLine reader line with
  | .nothing => .goOn state []
  | .done => .stop state
  | .event event => receiveEvent now state event
  | .broken error => .fail error

/-- What is yielded when the stream is over. -/
def finish (codec : TextCodec) (json : JsonParser) (now : Int) (state : State) : Decoded :=
  match processStreamingOutputItems codec json state.outputItems state.isTextResponse with
  | .error error => .failed error
  | .ok content =>
      if !content.isEmpty then
        let message := assistantMessage now state.responseId content
        ⟨[⟨some { message with metadata := { outputTokenLimitReached := state.outputTokenLimitReached } },
          state.finalUsage⟩], none⟩
      else if state.outputTokenLimitReached then
        ⟨[⟨some (outputTokenLimitMarker now state.responseId), state.finalUsage⟩], none⟩
      else
        match state.finalUsage with
        | some usage => ⟨[⟨none, some usage⟩], none⟩
        | none => ⟨[], none⟩

def readLines (codec : TextCodec) (reader : Reader) (now : Int) (state : State) : List StreamLine -> Decoded
  | [] => finish codec reader.toJsonParser now state
  | line :: rest =>
      match receiveLine reader now state line with
      | .goOn next items => (readLines codec reader now next rest).after items
      | .stop next => finish codec reader.toJsonParser now next
      | .fail error => .failed error

def responsesApiToStreamingMessage (codec : TextCodec) (reader : Reader) (now : Int) (lines : List StreamLine) :
    Decoded :=
  readLines codec reader now State.start lines

end Responses
end AIBuddy
