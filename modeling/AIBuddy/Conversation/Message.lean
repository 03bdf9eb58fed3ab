import AIBuddy.Support.Json

namespace AIBuddy

/-!
# Messages

A conversation is a list of messages, and a message a list of content blocks
with the metadata that says who sees it.  Tool results carry their own content
blocks, each with an optional audience; a block without an audience is for
everybody.

Unicode normalization and base64 decoding come from other packages and are
passed in.  Nothing is assumed about them except that normalization leaves
ASCII text alone.
-/

instance decidableEqExcept {ε α : Type} [DecidableEq ε] [DecidableEq α] : DecidableEq (Except ε α)
  | .ok left, .ok right => decidable_of_iff (left = right) (by simp)
  | .error left, .error right => decidable_of_iff (left = right) (by simp)
  | .ok _, .error _ | .error _, .ok _ => isFalse (by simp)

/-- The text transformations of other packages. -/
structure TextCodec where
  nfc : String -> String
  decodeBase64 : String -> Option ByteArray
  encodeBase64 : ByteArray -> String
  nfc_ascii : forall text : String,
    (forall character, character ∈ text.toList -> character.toNat < 128) -> nfc text = text

/-- The codec of plain ASCII text without binary attachments. -/
def TextCodec.ascii : TextCodec :=
  ⟨fun text => text, fun _ => none, fun _ => "", fun _ _ => rfl⟩

/-- Drop the characters of the Unicode tag block. -/
def stripUnicodeTags (text : String) : String :=
  String.ofList (text.toList.filter fun character =>
    !(0xE0000 ≤ character.toNat && character.toNat ≤ 0xE007F))

/-- Normalize a text and drop its tag characters. -/
def sanitizeUnicodeTags (codec : TextCodec) (text : String) : String :=
  stripUnicodeTags (codec.nfc text)

theorem sanitizeUnicodeTags_ascii (codec : TextCodec) (text : String)
    (ascii : forall character, character ∈ text.toList -> character.toNat < 128) :
    sanitizeUnicodeTags codec text = text := by
  have kept : text.toList.filter (fun character =>
      !(0xE0000 ≤ character.toNat && character.toNat ≤ 0xE007F)) = text.toList := by
    rw [List.filter_eq_self]
    intro character member
    have small := ascii character member
    simp only [Bool.not_eq_true', Bool.and_eq_false_iff, decide_eq_false_iff_not]
    omega
  rw [sanitizeUnicodeTags, codec.nfc_ascii text ascii, stripUnicodeTags, kept, String.ofList_toList]

/-! ## Content of tool results -/

/-- The two parties of a conversation. -/
inductive Role where
  | user
  | assistant
deriving DecidableEq, Repr

structure Annotations where
  audience : Option (List Role)
deriving DecidableEq, Repr

structure TextContent where
  text : String
  annotations : Option Annotations
deriving DecidableEq, Repr

/-- The audience of a text, when its annotations name one. -/
def TextContent.audience (content : TextContent) : Option (List Role) :=
  content.annotations.bind Annotations.audience

structure ImageContent where
  data : String
  mimeType : String
  annotations : Option Annotations
deriving DecidableEq, Repr

inductive ResourceContents where
  | textResourceContents (uri : String) (mimeType : Option String) (text : String)
  | blobResourceContents (uri : String) (mimeType : Option String) (blob : String)
  | unknown
deriving DecidableEq, Repr

structure EmbeddedResource where
  resource : ResourceContents
  annotations : Option Annotations
deriving DecidableEq, Repr

/-- A content block of a tool result. -/
inductive ContentBlock where
  | text (content : TextContent)
  | image (content : ImageContent)
  | audio (annotations : Option Annotations)
  | resource (content : EmbeddedResource)
  | resourceLink (annotations : Option Annotations)
  | unknown
deriving DecidableEq, Repr

/-- The audience of a block of a tool result. -/
def contentAudience : ContentBlock -> Option (List Role)
  | .text content => content.audience
  | .image content => content.annotations.bind Annotations.audience
  | .audio annotations => annotations.bind Annotations.audience
  | .resource content => content.annotations.bind Annotations.audience
  | .resourceLink annotations => annotations.bind Annotations.audience
  | .unknown => none

/-- The text of a resource: its own text, or what its blob decodes to. -/
def extractTextFromResource (codec : TextCodec) : ResourceContents -> String
  | .textResourceContents _ _ text => sanitizeUnicodeTags codec text
  | .blobResourceContents _ mimeType blob =>
      match codec.decodeBase64 blob with
      | some bytes =>
          match String.fromUTF8? bytes with
          | some text => sanitizeUnicodeTags codec text
          | none => "[Binary content (" ++ mimeType.getD "application/octet-stream" ++ ") - " ++
              toString bytes.size ++ " bytes]"
      | none => sanitizeUnicodeTags codec blob
  | .unknown => ""

/-- A protocol error. -/
structure ErrorData where
  code : Int
  message : String
  data : Option Json
deriving DecidableEq, Repr

/-- A tool call: the tool's name and its arguments. -/
structure CallToolRequestParams where
  name : String
  arguments : Option JsonObject
deriving DecidableEq, Repr

structure CallToolResult where
  content : List ContentBlock
  structuredContent : Option Json
  isError : Option Bool
deriving DecidableEq, Repr

abbrev ToolResult (α : Type) := Except ErrorData α

/-- A blob is sanitized when it is text in disguise. -/
def sanitizeResource (codec : TextCodec) : ResourceContents -> ResourceContents
  | .textResourceContents uri mimeType text =>
      .textResourceContents uri mimeType (sanitizeUnicodeTags codec text)
  | .blobResourceContents uri mimeType blob =>
      match codec.decodeBase64 blob with
      | none => .blobResourceContents uri mimeType (sanitizeUnicodeTags codec blob)
      | some bytes =>
          match String.fromUTF8? bytes with
          | none => .blobResourceContents uri mimeType blob
          | some text =>
              let sanitized := sanitizeUnicodeTags codec text
              if text = sanitized then .blobResourceContents uri mimeType blob
              else .blobResourceContents uri mimeType (codec.encodeBase64 sanitized.toUTF8)
  | .unknown => .unknown

def sanitizeContentBlock (codec : TextCodec) : ContentBlock -> ContentBlock
  | .text content => .text { content with text := sanitizeUnicodeTags codec content.text }
  | .resource content => .resource { content with resource := sanitizeResource codec content.resource }
  | block => block

def sanitizeToolResult (codec : TextCodec) : ToolResult CallToolResult -> ToolResult CallToolResult
  | .ok result => .ok { result with content := result.content.map (sanitizeContentBlock codec) }
  | .error error => .error { error with message := sanitizeUnicodeTags codec error.message }

/-! ## Content of messages -/

structure ToolRequest where
  id : String
  toolCall : ToolResult CallToolRequestParams
  metadata : Option JsonObject
  toolMeta : Option Json
deriving DecidableEq

structure ToolResponse where
  id : String
  toolResult : ToolResult CallToolResult
  metadata : Option JsonObject
deriving DecidableEq

structure ToolConfirmationRequest where
  id : String
  toolName : String
  arguments : JsonObject
  prompt : Option String
deriving DecidableEq, Repr

/-- A user's decision about a tool call. -/
inductive Permission where
  | alwaysAllow
  | allowOnce
  | cancel
  | denyOnce
  | alwaysDeny
deriving DecidableEq, Repr

inductive ElicitationAction where
  | accept
  | decline
  | cancel
deriving DecidableEq, Repr

inductive ActionRequiredData where
  | toolConfirmation (id toolName : String) (arguments : JsonObject) (prompt : Option String)
  | elicitation (id message : String) (requestedSchema : Json)
  | elicitationResponse (id : String) (userData : Json) (action : ElicitationAction)
  | toolConfirmationResponse (id : String) (permission : Permission)
deriving DecidableEq, Repr

structure ThinkingContentBlock where
  thinking : String
  signature : String
deriving DecidableEq, Repr

inductive SystemNotificationType where
  | thinkingMessage
  | progressMessage
  | inlineMessage
  | creditsExhausted
deriving DecidableEq, Repr

structure SystemNotificationContent where
  notificationType : SystemNotificationType
  msg : String
  data : Option Json
deriving DecidableEq, Repr

inductive MessageErrorKind where
  | authentication
  | contextLengthExceeded
  | creditsExhausted
  | other
deriving DecidableEq, Repr

structure ErrorContent where
  kind : MessageErrorKind
  message : String
deriving DecidableEq, Repr

structure DocumentContent where
  data : String
  mimeType : String
  name : Option String
deriving DecidableEq, Repr

/-- Content passed inside a message, both simple content and tool content. -/
inductive MessageContentBlock where
  | text (content : TextContent)
  | image (content : ImageContent)
  | document (content : DocumentContent)
  | toolRequest (request : ToolRequest)
  | toolResponse (response : ToolResponse)
  | toolConfirmationRequest (request : ToolConfirmationRequest)
  | actionRequired (data : ActionRequiredData)
  | thinking (content : ThinkingContentBlock)
  | redactedThinking (data : String)
  | systemNotification (content : SystemNotificationContent)
  | error (content : ErrorContent)
deriving DecidableEq

namespace MessageContentBlock

/-- A text block without annotations. -/
def plainText (text : String) : MessageContentBlock :=
  .text ⟨text, none⟩

/-- A request that nothing is known about yet. -/
def newToolRequest (id : String) (toolCall : ToolResult CallToolRequestParams) : MessageContentBlock :=
  .toolRequest ⟨id, toolCall, none, none⟩

def toolResponseWithMetadata (codec : TextCodec) (id : String) (result : ToolResult CallToolResult)
    (metadata : Option JsonObject) : MessageContentBlock :=
  .toolResponse ⟨id, sanitizeToolResult codec result, metadata⟩

def asText : MessageContentBlock -> Option String
  | text content => some content.text
  | _ => none

def asToolRequest : MessageContentBlock -> Option ToolRequest
  | toolRequest request => some request
  | _ => none

def asToolResponse : MessageContentBlock -> Option ToolResponse
  | toolResponse response => some response
  | _ => none

def asActionRequired : MessageContentBlock -> Option ActionRequiredData
  | actionRequired data => some data
  | _ => none

def asError : MessageContentBlock -> Option ErrorContent
  | error content => some content
  | _ => none

end MessageContentBlock

/-- Whether an audience, when there is one, includes a role. -/
def audienceAdmits (audience : Option (List Role)) (role : Role) : Bool :=
  (audience.map fun roles => roles.contains role).getD true

namespace MessageContentBlock

/-- The part of a block that an audience may see.  A tool response survives even
when none of its content does, because some providers need the empty response. -/
def filterForAudience (audience : Role) (block : MessageContentBlock) : Option MessageContentBlock :=
  match block with
  | .text content => if audienceAdmits content.audience audience then some block else none
  | .image content =>
      if audienceAdmits (content.annotations.bind Annotations.audience) audience then some block else none
  | .toolResponse response =>
      match response.toolResult with
      | .error _ => some block
      | .ok result =>
          some (.toolResponse { response with
            toolResult := .ok { result with
              content := result.content.filter fun content =>
                audienceAdmits (contentAudience content) audience } })
  | .thinking _ | .redactedThinking _ => if audience = .assistant then some block else none
  | _ => some block

end MessageContentBlock

/-! ## Metadata -/

structure InferenceMetadata where
  provider : String
  requestedModel : String
  resolvedModel : Option String
  providerSessionId : Option String
deriving DecidableEq, Repr

/-- Notes that operations left on a message, keyed by operation name. -/
abbrev OperationNotes := List (String × JsonObject)

structure MessageMetadata where
  userVisible : Bool := true
  agentVisible : Bool := true
  inference : Option InferenceMetadata := none
  outputTokenLimitReached : Bool := false
  steer : Bool := false
  turnContext : Bool := false
  operations : Option OperationNotes := none
deriving DecidableEq, Repr

namespace MessageMetadata

def agentOnly : MessageMetadata :=
  { userVisible := false, agentVisible := true }

def userOnly : MessageMetadata :=
  { userVisible := true, agentVisible := false }

/-- The note an operation left under a key. -/
def operationNote (metadata : MessageMetadata) (operation key : String) : Option Json :=
  (metadata.operations.bind fun notes => notes.lookup operation).bind fun note => note.lookup key

/-- Leave a note under a key, keeping the notes of other operations and keys. -/
def setOperationNote (metadata : MessageMetadata) (operation key : String) (value : Json) :
    MessageMetadata :=
  let notes := metadata.operations.getD []
  let note := JsonObject.insert ((notes.lookup operation).getD []) key value
  { metadata with operations := some ((operation, note) :: notes.filter fun entry => entry.1 != operation) }

end MessageMetadata

/-! ## Messages -/

/-- A message to or from a model. -/
structure Message where
  id : Option String
  role : Role
  created : Int
  content : List MessageContentBlock
  metadata : MessageMetadata
deriving DecidableEq

namespace Message

/-- An empty user message created at a given time. -/
def user (now : Int) : Message :=
  { id := none, role := .user, created := now, content := [], metadata := {} }

/-- An empty assistant message created at a given time. -/
def assistant (now : Int) : Message :=
  { id := none, role := .assistant, created := now, content := [], metadata := {} }

def withId (message : Message) (id : String) : Message :=
  { message with id := some id }

def withContent (message : Message) (block : MessageContentBlock) : Message :=
  { message with content := message.content ++ [block] }

def withText (codec : TextCodec) (message : Message) (text : String) : Message :=
  message.withContent (.plainText (sanitizeUnicodeTags codec text))

def withToolRequest (message : Message) (id : String) (toolCall : ToolResult CallToolRequestParams) : Message :=
  message.withContent (.newToolRequest id toolCall)

def addToolResponseWithMetadata (codec : TextCodec) (message : Message) (id : String)
    (result : ToolResult CallToolResult) (metadata : Option JsonObject) : Message :=
  message.withContent (.toolResponseWithMetadata codec id result metadata)

def withToolResponse (codec : TextCodec) (message : Message) (id : String)
    (result : ToolResult CallToolResult) : Message :=
  addToolResponseWithMetadata codec message id result none

def withMetadata (message : Message) (metadata : MessageMetadata) : Message :=
  { message with metadata := metadata }

def withVisibility (message : Message) (userVisible agentVisible : Bool) : Message :=
  { message with
    metadata := { message.metadata with userVisible := userVisible, agentVisible := agentVisible } }

def userOnly (message : Message) : Message :=
  message.withVisibility true false

def agentOnly (message : Message) : Message :=
  message.withVisibility false true

def isUserVisible (message : Message) : Bool :=
  message.metadata.userVisible

def isAgentVisible (message : Message) : Bool :=
  message.metadata.agentVisible

/-- The message as the agent sees it. -/
def agentVisibleContent (message : Message) : Message :=
  { message with content := message.content.filterMap (MessageContentBlock.filterForAudience .assistant) }

/-- The texts of the message, one to a line. -/
def asConcatText (message : Message) : String :=
  "\n".intercalate (message.content.filterMap MessageContentBlock.asText)

def isToolCall (message : Message) : Bool :=
  message.content.any fun block => block.asToolRequest.isSome

def isToolResponse (message : Message) : Bool :=
  message.content.any fun block => block.asToolResponse.isSome

/-- The kind of the message's first error block. -/
def errorKind (message : Message) : Option MessageErrorKind :=
  message.content.findSome? fun block => block.asError.map ErrorContent.kind

end Message

/-- A conversation is its messages in order. -/
structure Conversation where
  messages : List Message
deriving DecidableEq

end AIBuddy
