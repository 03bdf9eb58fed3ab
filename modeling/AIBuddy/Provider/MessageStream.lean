import AIBuddy.Conversation.Message

namespace AIBuddy

/-!
# Streams of messages

A decoder reads the lines that a provider sends and yields messages and usages on
the way.  It may also fail: what was yielded before then stands.
-/

/-! ## Usage -/

/-- The token counts of a response. -/
structure Usage where
  inputTokens : Option Int
  outputTokens : Option Int
  totalTokens : Option Int
  cacheReadInputTokens : Option Int
  cacheWriteInputTokens : Option Int
deriving DecidableEq, Repr

/-- The bounds of a count. -/
def saturate (value : Int) : Int :=
  max (-2147483648) (min 2147483647 value)

namespace Usage

/-- A usage without cache counts.  The total is added up when it is not reported. -/
def new (inputTokens outputTokens totalTokens : Option Int) : Usage :=
  let calculatedTotal :=
    match totalTokens, inputTokens, outputTokens with
    | some total, _, _ => some total
    | none, some input, some output => some (saturate (input + output))
    | none, some input, none => some input
    | none, none, output => output
  ⟨inputTokens, outputTokens, calculatedTotal, none, none⟩

def withCacheTokens (usage : Usage) (read write : Option Int) : Usage :=
  { usage with cacheReadInputTokens := read, cacheWriteInputTokens := write }

def default : Usage := ⟨none, none, none, none, none⟩

end Usage

/-- The usage of a response, with what the provider says about the response. -/
structure ProviderUsage where
  model : String
  usage : Usage
  finishReasons : Option (List String)
  responseId : Option String
  additionalData : Option JsonObject
deriving DecidableEq

def ProviderUsage.new (model : String) (usage : Usage) : ProviderUsage :=
  ⟨model, usage, none, none, none⟩

/-! ## Decoders -/

/-- The errors of decoders.  A payload is a part of the error's text. -/
inductive StreamError where
  | transport (text : String)
  | decode (expected reason line : String)
  | requestFailed (context : String) (payload : Json)
  | server (text : String)
  | refusal (details : String) (category : Option String)
  | invalid (text : String)
deriving DecidableEq

/-- A line of a stream, unless the connection fails. -/
abbrev StreamLine := Except String String

structure StreamItem where
  message : Option Message
  usage : Option ProviderUsage
deriving DecidableEq

/-- All that a decoder yields, and the error that ends it, if one does. -/
structure Decoded where
  items : List StreamItem
  error : Option StreamError
deriving DecidableEq

namespace Decoded

def failed (error : StreamError) : Decoded := ⟨[], some error⟩

/-- Put what was yielded earlier in front. -/
def after (earlier : List StreamItem) (decoded : Decoded) : Decoded :=
  { decoded with items := earlier ++ decoded.items }

/-- The content of all messages that are yielded. -/
def content (decoded : Decoded) : List MessageContentBlock :=
  decoded.items.flatMap fun item => (item.message.map Message.content).getD []

def toolRequests (decoded : Decoded) : List ToolRequest :=
  decoded.content.filterMap MessageContentBlock.asToolRequest

end Decoded

/-- The content of a list of items. -/
def itemsContent (items : List StreamItem) : List MessageContentBlock :=
  items.flatMap fun item => (item.message.map Message.content).getD []

@[simp] theorem itemsContent_nil : itemsContent [] = [] := rfl

@[simp] theorem itemsContent_cons (item : StreamItem) (rest : List StreamItem) :
    itemsContent (item :: rest) = (item.message.map Message.content).getD [] ++ itemsContent rest := rfl

@[simp] theorem itemsContent_append (earlier later : List StreamItem) :
    itemsContent (earlier ++ later) = itemsContent earlier ++ itemsContent later := by
  simp [itemsContent]

namespace Decoded

theorem content_eq (decoded : Decoded) : decoded.content = itemsContent decoded.items := rfl

@[simp] theorem content_failed (error : StreamError) : (failed error).content = [] := rfl

@[simp] theorem content_after (earlier : List StreamItem) (decoded : Decoded) :
    (decoded.after earlier).content = itemsContent earlier ++ decoded.content := by
  simp [content_eq, after]

@[simp] theorem after_nil (decoded : Decoded) : decoded.after [] = decoded := rfl

theorem after_after (first second : List StreamItem) (decoded : Decoded) :
    (decoded.after second).after first = decoded.after (first ++ second) := by
  simp [after]

end Decoded

/-- A new message of the assistant with some content, under an identifier if there is
one. -/
def assistantMessage (now : Int) (id : Option String) (content : List MessageContentBlock) : Message :=
  { Message.assistant now with id := id, content := content }

@[simp] theorem content_assistantMessage (now : Int) (id : Option String) (content : List MessageContentBlock) :
    (assistantMessage now id content).content = content := rfl

/-- The empty message that says that the output token limit was reached. -/
def outputTokenLimitMarker (now : Int) (id : Option String) : Message :=
  { Message.assistant now with id := id, metadata := { outputTokenLimitReached := true } }

@[simp] theorem content_outputTokenLimitMarker (now : Int) (id : Option String) :
    (outputTokenLimitMarker now id).content = [] := rfl

/-- A request of the call at an index of the provider's response. -/
def MessageContentBlock.indexedToolRequest (id : String) (toolCall : ToolResult CallToolRequestParams)
    (metadata : Option JsonObject) (providerIndex : Int) : MessageContentBlock :=
  .toolRequest ⟨id, toolCall, metadata,
    some (.object [("aibuddy.toolCall.providerIndex", .number (.integer providerIndex))])⟩

end AIBuddy
