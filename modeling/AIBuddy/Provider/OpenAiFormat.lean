import AIBuddy.Provider.FormatMedia

namespace AIBuddy
namespace OpenAi

/-!
# Chat completion requests

A conversation is written as the messages of a chat completion request.  Every message
becomes at most one message of its own role, with its texts and its tool calls, and
behind it one message for each tool result and for each image of a result.  Messages
that were split from one turn of the model are then merged back.
-/

inductive ThinkingPreservationFormat where
  | reasoningContent
  | contentPrepend
  | contentXml
deriving DecidableEq, Repr

structure FormatOptions where
  preserveThinkingContext : Bool
  supportsVision : Bool
  thinkingPreservationFormat : Option ThinkingPreservationFormat
deriving DecidableEq, Repr

/-! ## Messages of a request -/

inductive SpecContent where
  | null
  | text (text : String)
  | parts (parts : List Json)
deriving DecidableEq, Repr

/-- A message of a request.  A turn without tool calls has no `tool_calls` entry. -/
inductive SpecMessage where
  | turn (role : Role) (content : Option SpecContent) (toolCalls : List JsonObject) (reasoning : Option String)
  | tool (content : String) (toolCallId : String)
deriving DecidableEq, Repr

def textPart (text : String) : Json :=
  .object [("type", .string "text"), ("text", .string text)]

/-- The message for an image of a tool result. -/
def imageMessage (imageFormat : ImageFormat) (image : ImageContent) : SpecMessage :=
  .turn .user (some (.parts [convertImage image imageFormat])) [] none

/-! ## Content blocks -/

section Blocks

variable (env : FormatEnv) (imageFormat : ImageFormat) (options : FormatOptions)

/-- The content parts of a text, with the image that a text of the user points at. -/
def textParts (role : Role) (text : String) : List Json :=
  if text = "" then []
  else if role = .user ∧ options.supportsVision = true then
    match (env.detectImagePath text).bind env.loadImageFile with
    | some image => [textPart text, convertImage image imageFormat]
    | none => [textPart text]
  else [textPart text]

def imageParts (role : Role) (image : ImageContent) : List Json :=
  if role = .user then
    if options.supportsVision then [convertImage image imageFormat]
    else [textPart "[image omitted: model does not support vision]"]
  else [textPart "[Image content removed - not supported in assistant messages]"]

def documentParts (role : Role) (document : DocumentContent) : List Json :=
  if role ≠ .user then [textPart (unsupportedDocumentText document assistantRoleReason)]
  else if documentMediaTypeIsSupported document.mimeType then [convertDocument document .openAi]
  else [textPart (unsupportedDocumentText document unsupportedMediaTypeReason)]

/-- What a block adds to the content of its message. -/
def contentParts (role : Role) : MessageContentBlock -> List Json
  | .text content => textParts env imageFormat options role content.text
  | .image image => imageParts imageFormat options role image
  | .document document => documentParts role document
  | _ => []

/-- Whether a block adds something that is not a text. -/
def addsNonText (role : Role) : MessageContentBlock -> Bool
  | .text content => (textParts env imageFormat options role content.text).length == 2
  | .image _ => role == .user && options.supportsVision
  | .document document => role == .user && documentMediaTypeIsSupported document.mimeType
  | _ => false

end Blocks

/-- The call item of a request.  The metadata of the provider is written over it. -/
def toolCallJson (env : FormatEnv) (request : ToolRequest) : JsonObject :=
  match request.toolCall with
  | .ok toolCall =>
      (request.metadata.getD []).foldl (fun object entry => JsonObject.insert object entry.1 entry.2)
        [("id", .string request.id), ("type", .string "function"),
          ("function", .object [("name", .string (sanitizeFunctionName toolCall.name)),
            ("arguments", .string ((toolCall.arguments.map env.writeJson).getD "\x7b\x7d"))])]
  | .error _ =>
      [("id", .string request.id), ("type", .string "function"),
        ("function", .object [("name", .string "unparseable_tool_call"), ("arguments", .string "\x7b\x7d")])]

/-- The text that stands for a block of a tool result. -/
def resultText (env : FormatEnv) (options : FormatOptions) : ContentBlock -> String
  | .image _ =>
      if options.supportsVision then "This tool result included an image that is uploaded in the next message."
      else "This tool result included an image that was omitted as the model does not support vision."
  | .resource content => extractTextFromResource env.codec content.resource
  | .text content => content.text
  | _ => ""

def resultImage : ContentBlock -> Option ImageContent
  | .image image => some image
  | _ => none

/-- The messages of a tool result: the result, and the images that follow it. -/
def toolResultMessages (env : FormatEnv) (imageFormat : ImageFormat) (options : FormatOptions)
    (response : ToolResponse) : List SpecMessage :=
  match response.toolResult with
  | .ok result =>
      .tool (" ".intercalate (result.content.map (resultText env options))) response.id ::
        (if options.supportsVision then
          (result.content.filterMap resultImage).map (imageMessage imageFormat)
        else [])
  | .error error =>
      [.tool ("The tool call returned the following error:\n" ++ env.displayError error) response.id]

/-- The thinking of a block. -/
def reasoningText : MessageContentBlock -> String
  | .thinking content => content.thinking
  | _ => ""

/-! ## Messages -/

/-- The reasoning that is carried from one message to the next. -/
structure FormatState where
  pendingAssistantReasoning : String
  toolCallTurnReasoning : String
  sawToolResponse : Bool
deriving DecidableEq, Repr

def FormatState.start : FormatState := ⟨"", "", false⟩

def mergeReasoningText (front back : String) : String :=
  if front = "" then back
  else if back = "" then front
  else if Text.startsWith front back then back
  else if (Text.stripSuffix back front).isSome then front
  else front ++ back

/-- What a message does to the carried reasoning before it is converted. -/
def enterMessage (options : FormatOptions) (state : FormatState) (message : Message) : FormatState :=
  if options.preserveThinkingContext = false then state
  else
    match message.role with
    | .user =>
        if message.isToolResponse then { state with pendingAssistantReasoning := "", sawToolResponse := true }
        else ⟨"", "", false⟩
    | .assistant =>
        if state.sawToolResponse then { state with toolCallTurnReasoning := "", sawToolResponse := false }
        else state

/-- The content of the message that is converted from a message. -/
def messageContent (env : FormatEnv) (imageFormat : ImageFormat) (options : FormatOptions) (message : Message) :
    Option SpecContent :=
  let parts := message.content.flatMap (contentParts env imageFormat options message.role)
  let calls := message.content.filterMap MessageContentBlock.asToolRequest
  if parts ≠ [] then
    if message.content.any (addsNonText env imageFormat options message.role) then some (.parts parts)
    else some (.text ("\n".intercalate (parts.filterMap fun part => (part.get "text").bind Json.asStr)))
  else if message.role = .assistant ∧ calls ≠ [] then some .null
  else none

/-- The reasoning of an assistant message, and what it carries on. -/
def carryReasoning (state : FormatState) (hasToolCalls : Bool) (reasoning : String) : String × FormatState :=
  let merged :=
    if state.pendingAssistantReasoning = "" then reasoning
    else mergeReasoningText state.pendingAssistantReasoning reasoning
  let state := { state with pendingAssistantReasoning := "" }
  if hasToolCalls = true ∧ merged = "" then (state.toolCallTurnReasoning, state)
  else (merged, { state with toolCallTurnReasoning := merged })

/-- The messages of a request for one message. -/
def formatMessage (env : FormatEnv) (imageFormat : ImageFormat) (options : FormatOptions) (state : FormatState)
    (message : Message) : List SpecMessage × FormatState :=
  let state := enterMessage options state message
  let content := messageContent env imageFormat options message
  let calls := (message.content.filterMap MessageContentBlock.asToolRequest).map (toolCallJson env)
  let output := (message.content.filterMap MessageContentBlock.asToolResponse).flatMap
    (toolResultMessages env imageFormat options)
  let reasoning := String.join (message.content.map reasoningText)
  let hasPayload := content.isSome || !calls.isEmpty
  if options.preserveThinkingContext = true ∧ message.role = .assistant then
    if hasPayload = false ∧ output = [] ∧ reasoning ≠ "" then
      ([], { state with pendingAssistantReasoning := state.pendingAssistantReasoning ++ reasoning })
    else
      let (merged, state) := carryReasoning state (!calls.isEmpty) reasoning
      ((if hasPayload then
          [.turn message.role content calls (if merged = "" then none else some merged)]
        else []) ++ output, state)
  else
    ((if hasPayload then
        [.turn message.role content calls
          (if options.preserveThinkingContext = true ∧ reasoning ≠ "" then some reasoning else none)]
      else []) ++ output, state)

def formatFrom (env : FormatEnv) (imageFormat : ImageFormat) (options : FormatOptions) :
    FormatState -> List Message -> List SpecMessage
  | _, [] => []
  | state, message :: rest =>
      let formatted := formatMessage env imageFormat options state message
      formatted.1 ++ formatFrom env imageFormat options formatted.2 rest

/-! ## Merging split turns -/

/-- A message that carries nothing but images. -/
def isImageOnlyUserMessage : SpecMessage -> Bool
  | .turn .user (some (.parts parts)) _ _ =>
      !parts.isEmpty && parts.all fun part => part.get "type" == some (.string "image_url")
  | _ => false

def hasNoContent : Option SpecContent -> Bool
  | none | some .null => true
  | some (.text text) => text == ""
  | some (.parts parts) => parts.isEmpty

/-- The call items of an assistant message without content that repeats a reasoning. -/
def splitCalls (baseReasoning : String) : SpecMessage -> Option (List JsonObject)
  | .turn .assistant content (call :: calls) reasoning =>
      if hasNoContent content = true ∧ reasoning = some baseReasoning then some (call :: calls) else none
  | _ => none

def isToolMessage : SpecMessage -> Bool
  | .tool .. => true
  | _ => false

/-- What belongs to a turn behind its first message: the calls of its other messages,
the results between these with the images that follow them, and the rest. -/
structure SplitTurn where
  extraToolCalls : List JsonObject
  collected : List SpecMessage
  rest : List SpecMessage
deriving DecidableEq, Repr

def scanSplit (baseReasoning : String) : Nat -> List SpecMessage -> SplitTurn
  | 0, messages => ⟨[], [], messages⟩
  | _ + 1, [] => ⟨[], [], []⟩
  | fuel + 1, result :: after =>
      match isToolMessage result, after.dropWhile isImageOnlyUserMessage with
      | true, next :: later =>
          match splitCalls baseReasoning next with
          | some calls =>
              let turn := scanSplit baseReasoning fuel later
              ⟨calls ++ turn.extraToolCalls,
                result :: after.takeWhile isImageOnlyUserMessage ++ turn.collected, turn.rest⟩
          | none => ⟨[], [], result :: after⟩
      | _, _ => ⟨[], [], result :: after⟩

/-- Merge the messages of split turns, from the front on. -/
def mergeSplit : Nat -> List SpecMessage -> List SpecMessage
  | 0, messages => messages
  | _ + 1, [] => []
  | fuel + 1, .turn .assistant content (call :: calls) (some baseReasoning) :: rest =>
      let turn := scanSplit baseReasoning fuel rest
      .turn .assistant content (call :: calls ++ turn.extraToolCalls) (some baseReasoning) ::
        turn.collected ++ mergeSplit fuel turn.rest
  | fuel + 1, first :: rest => first :: mergeSplit fuel rest

def mergeSplitToolCallMessages (messages : List SpecMessage) : List SpecMessage :=
  mergeSplit messages.length messages

/-! ## Reasoning in the content -/

/-- The reasoning as a text in front of the content. -/
def wrapReasoning (reasoning : String) : ThinkingPreservationFormat -> Option String
  | .reasoningContent => none
  | .contentPrepend => some (reasoning ++ "\n\n")
  | .contentXml => some ("<think>\n" ++ reasoning ++ "\n</think>\n\n")

def prependContent (wrapped : String) : Option SpecContent -> SpecContent
  | some (.text text) => .text (wrapped ++ text)
  | some (.parts parts) => .parts (textPart wrapped :: parts)
  | none | some .null => .text (Text.trimEnd wrapped)

def inlineReasoningMessage (format : ThinkingPreservationFormat) : SpecMessage -> SpecMessage
  | .turn role content toolCalls (some reasoning) =>
      match wrapReasoning reasoning format with
      | some wrapped => .turn role (some (prependContent wrapped content)) toolCalls none
      | none => .turn role content toolCalls (some reasoning)
  | message => message

def inlineReasoningContent (format : ThinkingPreservationFormat) (messages : List SpecMessage) : List SpecMessage :=
  messages.map (inlineReasoningMessage format)

/-- The messages of a chat completion request. -/
def formatMessagesWithOptions (env : FormatEnv) (messages : List Message) (imageFormat : ImageFormat)
    (options : FormatOptions) : List SpecMessage :=
  let merged := mergeSplitToolCallMessages (formatFrom env imageFormat options FormatState.start messages)
  match options.thinkingPreservationFormat with
  | some format => inlineReasoningContent format merged
  | none => merged

end OpenAi
end AIBuddy
