import AIBuddy.Provider.FormatMedia

namespace AIBuddy
namespace Anthropic

/-!
# Anthropic requests

Every message with something to say becomes one message of its role, block by block.
The last two messages of the user carry the marks of the prompt cache.
-/

inductive CacheTtl where
  | fiveMinutes
  | oneHour
deriving DecidableEq, Repr

/-- The options that the messages of a request depend on. -/
structure FormatOptions where
  preserveUnsignedThinking : Bool
  thinkingDisabled : Bool
  currentModel : Option String
  promptCacheDisabled : Bool
  cacheTtl : Option CacheTtl
deriving DecidableEq, Repr

/-- The mark of the prompt cache; only the long lifetime is written out. -/
def FormatOptions.cacheControl (options : FormatOptions) : Json :=
  match options.cacheTtl with
  | some .oneHour => .object [("type", .string "ephemeral"), ("ttl", .string "1h")]
  | _ => .object [("type", .string "ephemeral")]

/-- Whether the signed thinking of a message comes from another model. -/
def thinkingBlockIsStale (message : Message) (currentModel : Option String) : Bool :=
  match currentModel, message.metadata.inference with
  | some currentModel, some inference =>
      let resolved := inference.resolvedModel.getD ""
      !(inference.requestedModel == "" && resolved == "") &&
        currentModel != inference.requestedModel && currentModel != resolved
  | _, _ => false

/-! ## Messages of a request -/

inductive SpecBlock where
  | text (text : String)
  | toolUse (id name : String) (input : JsonObject)
  | toolResult (toolUseId : String) (content : Json) (isError : Bool)
  | thinking (thinking : String) (signature : Option String)
  | redactedThinking (data : String)
  | media (block : Json)
deriving DecidableEq, Repr

/-- A block with its mark of the prompt cache. -/
structure MarkedBlock where
  block : SpecBlock
  cacheControl : Option Json
deriving DecidableEq, Repr

structure SpecMessage where
  role : Role
  content : List MarkedBlock
deriving DecidableEq, Repr

/-! ## Tool results -/

def isImageMediaType (mimeType : String) : Bool :=
  ["image/jpeg", "image/png", "image/gif", "image/webp"].contains mimeType

/-- What a block of a tool result is written as: texts, blocks, and whether it is media. -/
structure ResultPart where
  texts : List String
  blocks : List Json
  isMedia : Bool

def textBlock (text : String) : Json :=
  .object [("type", .string "text"), ("text", .string text)]

def mediaBlock (kind mimeType data : String) : Json :=
  .object [("type", .string kind), ("source", base64Source mimeType data)]

/-- The text of a resource that is not sent as media. -/
def resourceText (env : FormatEnv) (resource : ResourceContents) : ResultPart :=
  let text := extractTextFromResource env.codec resource
  if text = "" then ⟨[], [], false⟩ else ⟨[text], [textBlock text], false⟩

def resourcePart (env : FormatEnv) (resource : ResourceContents) : ResultPart :=
  match resource with
  | .blobResourceContents _ mimeType blob =>
      let mime := mimeType.getD ""
      if isImageMediaType mime then ⟨[], [mediaBlock "image" mime blob], true⟩
      else if mime = "application/pdf" then ⟨[], [mediaBlock "document" mime blob], true⟩
      else resourceText env resource
  | _ => resourceText env resource

def resultPart (env : FormatEnv) : ContentBlock -> ResultPart
  | .text content => ⟨[content.text], if content.text = "" then [] else [textBlock content.text], false⟩
  | .resource content => resourcePart env content.resource
  | .image image =>
      if isImageMediaType image.mimeType then ⟨[], [convertImage image .anthropic], true⟩
      else
        let marker := "[Image: " ++ image.mimeType ++ "]"
        ⟨[marker], [textBlock marker], false⟩
  | _ => ⟨[], [], false⟩

/-- The content of a tool result: blocks if there are media, else one text. -/
def resultContent (env : FormatEnv) (content : List ContentBlock) : Json :=
  let parts := content.map (resultPart env)
  if parts.any ResultPart.isMedia then .array (parts.flatMap ResultPart.blocks)
  else .string ("\n".intercalate (parts.flatMap ResultPart.texts))

/-! ## Blocks -/

/-- A call; a call that could not be read keeps its place under a name of its own. -/
def toolUseBlock (request : ToolRequest) : SpecBlock :=
  match request.toolCall with
  | .ok toolCall => .toolUse request.id toolCall.name (toolCall.arguments.getD [])
  | .error _ => .toolUse request.id "unparseable_tool_call" []

def toolResultBlock (env : FormatEnv) (response : ToolResponse) : SpecBlock :=
  match response.toolResult with
  | .ok result => .toolResult response.id (resultContent env result.content) false
  | .error error => .toolResult response.id (.string ("Error: " ++ env.displayError error)) true

def thinkingBlocks (options : FormatOptions) (isStale : Bool) (content : ThinkingContentBlock) : List SpecBlock :=
  if options.thinkingDisabled then []
  else if content.signature ≠ "" then
    if isStale then [] else [.thinking content.thinking (some content.signature)]
  else if options.preserveUnsignedThinking = true ∧ content.thinking ≠ "" then [.thinking content.thinking none]
  else []

def documentBlock (role : Role) (document : DocumentContent) : SpecBlock :=
  if role ≠ .user then .text (unsupportedDocumentText document assistantRoleReason)
  else if documentMediaTypeIsSupported document.mimeType then .media (convertDocument document .anthropic)
  else .text (unsupportedDocumentText document unsupportedMediaTypeReason)

def formatBlock (env : FormatEnv) (options : FormatOptions) (role : Role) (isStale : Bool) :
    MessageContentBlock -> List SpecBlock
  | .text content => if Text.isBlank content.text then [] else [.text content.text]
  | .toolRequest request => [toolUseBlock request]
  | .toolResponse response => [toolResultBlock env response]
  | .thinking content => thinkingBlocks options isStale content
  | .redactedThinking data =>
      if options.thinkingDisabled = false ∧ isStale = false then [.redactedThinking data] else []
  | .image image => [.media (convertImage image .anthropic)]
  | .document document => [documentBlock role document]
  | .toolConfirmationRequest _ | .actionRequired _ | .systemNotification _ | .error _ => []

/-! ## Messages -/

def formatMessage (env : FormatEnv) (options : FormatOptions) (message : Message) : Option SpecMessage :=
  let isStale := thinkingBlockIsStale message options.currentModel
  let content := message.content.flatMap (formatBlock env options message.role isStale)
  if content = [] then none else some ⟨message.role, content.map fun block => ⟨block, none⟩⟩

/-- The message of a conversation that has nothing to say. -/
def ignoreMessage : SpecMessage :=
  ⟨.user, [⟨.text "Ignore", none⟩]⟩

/-- Mark the last block of a message. -/
def markLast (control : Json) (content : List MarkedBlock) : List MarkedBlock :=
  match content.getLast? with
  | some last => content.dropLast ++ [{ last with cacheControl := some control }]
  | none => content

/-- Mark the first messages of the user of a list, up to a number. -/
def markUsers (control : Json) : Nat -> List SpecMessage -> List SpecMessage
  | 0, messages => messages
  | _ + 1, [] => []
  | count + 1, message :: rest =>
      if message.role = .user ∧ message.content ≠ [] then
        { message with content := markLast control message.content } :: markUsers control count rest
      else message :: markUsers control (count + 1) rest

/-- The messages of an Anthropic request. -/
def formatMessagesWithOptions (env : FormatEnv) (messages : List Message) (options : FormatOptions) :
    List SpecMessage :=
  let formatted := messages.filterMap (formatMessage env options)
  let formatted := if formatted = [] then [ignoreMessage] else formatted
  if options.promptCacheDisabled then formatted
  else (markUsers options.cacheControl 2 formatted.reverse).reverse

end Anthropic
end AIBuddy
