import AIBuddy.Conversation.Message
import AIBuddy.Support.Text

namespace AIBuddy
namespace Desktop

/-!
# Messages of the desktop

The desktop keeps its own list of messages, which it builds from what the server sends.  A
message that a person wrote is made here; the others grow block by block.  Values that are only
passed on are kept as JSON.
-/

/-- What a resource holds. -/
inductive ResourceBody where
  | text (text : String)
  | blob (blob : String)
deriving DecidableEq

/-- A block of content that the protocol transports. -/
inductive ContentBlock where
  | text (text : String) (annotations metaFields : Option Json)
  | image (data mimeType : String) (annotations metaFields : Option Json)
  | audio (data mimeType : String)
  | resourceLink (uri name : String) (description mimeType : Option String) (size : Option Nat)
      (title : Option String) (metaFields : Option Json)
  | resource (uri : String) (body : ResourceBody) (mimeType : Option String) (contentsMeta metaFields : Option Json)
deriving DecidableEq

/-- An item of a tool call's content; only blocks are shown. -/
inductive ToolCallContent where
  | content (block : ContentBlock)
  | other (value : Json)
deriving DecidableEq

inductive ToolCallStatus where
  | pending
  | inProgress
  | completed
  | failed
deriving DecidableEq

/-- What is shown beside a tool request or response. -/
structure ToolMetadata where
  title : Option String
  status : Option ToolCallStatus
  extensionName : Option String
  kind : Option String
  locations : Option Json
  rawOutput : Option Json
  content : Option (List ToolCallContent)
deriving DecidableEq

/-- The app of a tool result. -/
structure McpAppMeta where
  resourceUri : String
  extensionName : Option String
  toolName : Option String
  toolNameIsActual : Option Bool
deriving DecidableEq

inductive ToolResult where
  | success (content : List ContentBlock) (structuredContent : Option Json) (mcpApp : Option McpAppMeta)
  | error (message : String)
deriving DecidableEq

inductive ActionRequiredData where
  | toolConfirmation (generation : Option String) (id toolName : String) (arguments : Json) (prompt : Option String)
  | elicitation (id message : String) (requestedSchema : Json) (isSubmitted isCancelled : Bool)
  | elicitationResponse (id : String) (userData : Json)
deriving DecidableEq

/-- A block of a message. -/
inductive MessageContent where
  | text (text : String) (annotations metaFields : Option Json)
  | image (data mimeType : String) (annotations metaFields : Option Json)
  | toolRequest (id name : String) (arguments : Json) (metadata : Option ToolMetadata) (metaFields : Option Json)
  | toolResponse (id : String) (result : ToolResult) (metadata : Option ToolMetadata)
  | toolConfirmationRequest (id toolName : String) (arguments : Json) (prompt : Option String)
  | actionRequired (data : ActionRequiredData)
  | thinking (thinking signature : String)
  | redactedThinking (data : String)
  | systemNotification (notificationType msg : String) (data : Option Json)
deriving DecidableEq

structure MessageMetadata where
  userVisible : Bool
  agentVisible : Bool
  steer : Bool
  outputTokenLimitReached : Bool
  fallbackContent : Bool
  usage : Option Json
deriving DecidableEq

/-- The metadata of a message that both parties see. -/
def defaultVisibleMessageMetadata : MessageMetadata :=
  ⟨true, true, false, false, false, none⟩

structure Message where
  id : Option String
  role : Role
  created : Int
  content : List MessageContent
  metadata : MessageMetadata
deriving DecidableEq

/-- An absent text and an empty one count the same. -/
def truthy (text : Option String) : Option String :=
  text.filter fun text => text != ""

theorem truthy_some (text : String) (present : text ≠ "") : truthy (some text) = some text := by
  simp [truthy, present]

/-! ## Messages of the user -/

/-- An image that was attached to a prompt. -/
structure ImageData where
  data : String
  mimeType : String
  annotations : Option Json
  metaFields : Option Json
deriving DecidableEq

/-- What `trim` takes for white space. -/
def isTrimmed (character : Char) : Bool :=
  (Text.isWhitespace character && character != '\u0085') || character == '\uFEFF'

/-- A message with a text and images; a blank text is left out. -/
def createUserMessage (id : String) (now : Int) (text : String) (images : List ImageData) : Message where
  id := some id
  role := .user
  created := now
  content := (if text.toList.all isTrimmed then [] else [.text text none none]) ++
    images.map fun image => .image image.data image.mimeType image.annotations image.metaFields
  metadata := defaultVisibleMessageMetadata

/-! ## Confirmations that are awaited -/

/-- The calls that a message has responses of. -/
def getToolResponseIds (message : Message) : List String :=
  message.content.filterMap fun content =>
    match content with
    | .toolResponse id _ _ => some id
    | _ => none

/-- The call that a message asks to confirm: an old confirmation request goes first. -/
def getAnyToolConfirmationId (message : Message) : Option String :=
  (message.content.findSome? fun content =>
    match content with
    | .toolConfirmationRequest id _ _ _ => some id
    | _ => none).or
  (message.content.findSome? fun content =>
    match content with
    | .actionRequired (.toolConfirmation _ id _ _ _) => some id
    | _ => none)

/-- The calls that are to be confirmed and have no response. -/
def getPendingToolConfirmationIds (messages : List Message) : List String :=
  (messages.filterMap getAnyToolConfirmationId).filter fun id =>
    !(messages.flatMap getToolResponseIds).contains id

end Desktop
end AIBuddy
