import AIBuddy.Conversation.Message

namespace AIBuddy

/-!
# Sessions and their message store

A session keeps its messages as rows in the order in which they were inserted.
Reading the conversation sorts the rows by creation time and breaks ties by
insertion order.  An appended message is never dated before a stored one, so it
is read back last.

Usage accounting is left out: no operation of the machine reads it except to
decide whether a conversation is too long, and that decision is an input of the
step that takes it.
-/

/-! ## Session data -/

/-- When a tool call may run. -/
inductive AIBuddyMode where
  | auto
  | approve
  | smartApprove
  | chat
deriving DecidableEq, Repr

/-- What a recipe declares about its final output. -/
structure Response where
  jsonSchema : Option Json
deriving DecidableEq

structure RetryConfig where
  maxRetries : Nat
  onFailure : Option String
deriving DecidableEq

structure Recipe where
  response : Option Response
  retry : Option RetryConfig
deriving DecidableEq

structure Session where
  id : String
  rows : List Message
  recipe : Option Recipe
  aibuddyMode : AIBuddyMode
  extensionData : Json
deriving DecidableEq

/-! ## Reading -/

/-- Place a row behind every row that is not younger. -/
def insertByCreated (row : Message) : List Message -> List Message
  | [] => [row]
  | first :: rest =>
      if row.created < first.created then row :: first :: rest else first :: insertByCreated row rest

/-- Rows ordered by creation time, then by insertion. -/
def getConversation (rows : List Message) : List Message :=
  rows.foldl (fun sorted row => insertByCreated row sorted) []

def Session.conversation (session : Session) : List Message :=
  getConversation session.rows

/-! ## Writing -/

/-- The youngest creation time in the store. -/
def latestCreated : List Message -> Option Int
  | [] => none
  | row :: rest => some (((latestCreated rest).map (max row.created)).getD row.created)

/-- Append a message, dated no earlier than what is already stored. -/
def addMessage (rows : List Message) (message : Message) : List Message :=
  rows ++ [{ message with created := max message.created ((latestCreated rows).getD message.created) }]

/-- Rewrite the metadata of a message.  The metadata of the first row with the
message id is rewritten and stored in every row with that id. -/
def updateMessageMetadata (rows : List Message) (messageId : String)
    (update : MessageMetadata -> MessageMetadata) : Except String (List Message) :=
  match rows.find? fun row => row.id = some messageId with
  | none => .error "no rows returned by a query that expected to return at least one row"
  | some first =>
      .ok (rows.map fun row =>
        if row.id = some messageId then { row with metadata := update first.metadata } else row)

/-- Merge an object into existing tool metadata, keeping its other keys. -/
def mergeToolMeta (existing : Option Json) (patch : Json) : Json :=
  let base := match existing with
    | some (.object fields) => fields
    | _ => []
  match patch with
  | .object fields => .object (fields.foldl (fun merged field => JsonObject.insert merged field.1 field.2) base)
  | _ => .object base

def hasToolRequest (content : List MessageContentBlock) (toolCallId : String) : Bool :=
  content.any fun block => block.asToolRequest.any fun request => request.id = toolCallId

/-- Patch the first request with the given id. -/
def patchToolRequest (toolCallId : String) (patch : Json) :
    List MessageContentBlock -> List MessageContentBlock
  | [] => []
  | .toolRequest request :: rest =>
      if request.id = toolCallId then
        .toolRequest { request with toolMeta := some (mergeToolMeta request.toolMeta patch) } :: rest
      else .toolRequest request :: patchToolRequest toolCallId patch rest
  | block :: rest => block :: patchToolRequest toolCallId patch rest

/-- Patch the first row with the given message id that holds the request. -/
def patchFirstRow (messageId toolCallId : String) (patch : Json) : List Message -> List Message
  | [] => []
  | row :: rest =>
      if row.id = some messageId ∧ hasToolRequest row.content toolCallId then
        { row with content := patchToolRequest toolCallId patch row.content } :: rest
      else row :: patchFirstRow messageId toolCallId patch rest

/-- How many of the latest rows are searched for a request. -/
def toolRequestSearchWindow : Nat := 100

/-- Patch the tool metadata of a request.  Only the latest rows are searched,
and a request that is not found there is left alone. -/
def updateToolRequestMeta (rows : List Message) (toolCallId : String) (patch : Json) : List Message :=
  match (rows.reverse.take toolRequestSearchWindow).find? fun row => hasToolRequest row.content toolCallId with
  | none => rows
  | some found =>
      match found.id with
      | none => rows
      | some messageId => patchFirstRow messageId toolCallId patch rows

/-! ## Effects -/

inductive ConversationEffect where
  | appendMessage (message : Message)
  | replaceConversation (messages : List Message)
  | patchToolRequestMeta (toolCallId : String) (patch : Json)
  | setMessageVisibility (messageId : String) (userVisible agentVisible : Bool)
deriving DecidableEq

/-- What a step asks its runtime to persist. -/
inductive AIBuddyEffect where
  | conversation (effect : ConversationEffect)
  | replaceConversation (messages : List Message)
  | setRecipe (recipe : Option Recipe)
  | setExtensionData (data : Json)
  | recordUsage
deriving DecidableEq

namespace AIBuddyEffect

/-- A message as an effect appends it. -/
abbrev append (message : Message) : AIBuddyEffect :=
  .conversation (.appendMessage message)

end AIBuddyEffect

/-- Give a message an id if it has none. -/
def ensureId (id : String) (message : Message) : Message :=
  if message.id.isSome then message else message.withId id

/-- Give ids to the messages of an effect. -/
def ensureMessageIds (appendedId : String) (replacedId : Nat -> String) : AIBuddyEffect -> AIBuddyEffect
  | .conversation (.appendMessage message) => .append (ensureId appendedId message)
  | .conversation (.replaceConversation messages) =>
      .conversation (.replaceConversation
        (messages.zipIdx.map fun entry => ensureId (replacedId entry.2) entry.1))
  | .replaceConversation messages =>
      .replaceConversation (messages.zipIdx.map fun entry => ensureId (replacedId entry.2) entry.1)
  | effect => effect

def applyEffect (session : Session) : AIBuddyEffect -> Except String Session
  | .conversation (.appendMessage message) => .ok { session with rows := addMessage session.rows message }
  | .conversation (.replaceConversation messages) => .ok { session with rows := messages }
  | .conversation (.patchToolRequestMeta toolCallId patch) =>
      .ok { session with rows := updateToolRequestMeta session.rows toolCallId patch }
  | .conversation (.setMessageVisibility messageId userVisible agentVisible) => do
      let rows <- updateMessageMetadata session.rows messageId fun metadata =>
        { metadata with userVisible := userVisible, agentVisible := agentVisible }
      return { session with rows := rows }
  | .replaceConversation messages => .ok { session with rows := messages }
  | .setRecipe recipe => .ok { session with recipe := recipe }
  | .setExtensionData data => .ok { session with extensionData := data }
  | .recordUsage => .ok session

/-- Persist effects one after the other. -/
def applyEffects (session : Session) : List AIBuddyEffect -> Except String Session
  | [] => .ok session
  | effect :: rest => do
      let next <- applyEffect session effect
      applyEffects next rest

end AIBuddy
