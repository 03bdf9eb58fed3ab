import Mathlib.Data.List.Sort
import AIBuddy.Conversation.Message
import AIBuddy.Support.Gather
import AIBuddy.Support.LikePattern
import AIBuddy.Support.LowerCase
import AIBuddy.Toolshim.ToolNames

namespace AIBuddy

/-!
# Search in the chat history

The words of a query become patterns of a generated query, which looks for them in the stored JSON
of the messages.  What it finds is decoded, filtered once more for the assistant and gathered by
sessions.  Messages are stored as they are serialized, so a row holds the message itself, and the
fields of its JSON that the query reads are computed from it.
-/

namespace ChatHistorySearch

open LikePattern

/-- A stored message, with its session. -/
structure StoredMessage where
  sessionId : String
  sessionType : String
  timestamp : Int
  message : Message

/-- A search.  The limit is a word of the machine. -/
structure Search where
  query : String
  limit : UInt64
  afterDate : Option Int
  beforeDate : Option Int
  excludeSessionId : Option String
  sessionTypes : List String

/-! ## Stored JSON -/

def roleName : Role -> String
  | .user => "user"
  | .assistant => "assistant"

def annotationsJson (annotations : Annotations) : Json :=
  .object ((annotations.audience.map fun roles =>
    ("audience", Json.array (roles.map fun role => .string (roleName role)))).toList)

/-- The type of a block that is not text. -/
def typeName : MessageContentBlock -> String
  | .text _ => "text"
  | .image _ => "image"
  | .document _ => "document"
  | .toolRequest _ => "toolRequest"
  | .toolResponse _ => "toolResponse"
  | .toolConfirmationRequest _ => "toolConfirmationRequest"
  | .actionRequired _ => "actionRequired"
  | .thinking _ => "thinking"
  | .redactedThinking _ => "redactedThinking"
  | .systemNotification _ => "systemNotification"
  | .error _ => "error"

/-- The fields of a stored block that the query reads. -/
def blockJson : MessageContentBlock -> Json
  | .text content => .object ([("type", .string "text"), ("text", .string content.text)] ++
      (content.annotations.map fun annotations => ("annotations", annotationsJson annotations)).toList)
  | block => .object [("type", .string (typeName block))]

/-! ## The generated query -/

/-- The patterns of the words of a query. -/
def parseKeywords (unicode : UnicodeCase) (query : String) : List (List Char) :=
  (Toolshim.splitWhitespace query).map fun word => '%' :: (unicode.toLowercase word.toList ++ ['%'])

/-- Whether the query takes a block for one that the assistant may see. -/
def audienceMatches (value : Json) : Bool :=
  match (value.get "annotations").bind fun annotations => annotations.get "audience" with
  | none => true
  | some (.array roles) => roles.any fun role => role = .string "assistant"
  | some (.object members) => members.any fun member => member.2 = .string "assistant"
  | some other => other = .string "assistant"

/-- The condition on a block. -/
def contentMatches (keywords : List (List Char)) (value : Json) : Bool :=
  value.get "type" = some (.string "text") && audienceMatches value &&
    match (value.get "text").bind Json.asStr with
    | some text => keywords.any fun keyword => like keyword (text.toList.map Char.toLower)
    | none => false

/-- The conditions on a session and on the time of a message. -/
def admits (search : Search) (row : StoredMessage) : Bool :=
  (search.excludeSessionId.map fun excluded => decide (row.sessionId ≠ excluded)).getD true &&
    (search.sessionTypes.isEmpty || search.sessionTypes.contains row.sessionType) &&
      (search.afterDate.map fun date => decide (row.timestamp ≥ date)).getD true &&
        (search.beforeDate.map fun date => decide (row.timestamp ≤ date)).getD true

def rowMatches (search : Search) (keywords : List (List Char)) (row : StoredMessage) : Bool :=
  row.message.metadata.agentVisible && !row.message.metadata.turnContext &&
    (row.message.content.any fun block => contentMatches keywords (blockJson block)) && admits search row

/-- The rows that match, the latest first, up to the limit.  A limit that turns negative as a
signed number is none. -/
def fetchRows (search : Search) (keywords : List (List Char)) (rows : List StoredMessage) : List StoredMessage :=
  let sorted := (rows.filter (rowMatches search keywords)).mergeSort fun left right =>
    decide (right.timestamp ≤ left.timestamp)
  if search.limit.toNat < 9223372036854775808 then sorted.take search.limit.toNat else sorted

/-! ## Results -/

/-- What is told of a block. -/
def textPart (readable : ToolRequest -> String) : MessageContentBlock -> Option String
  | .text content => some content.text
  | .toolRequest request => some ("[Tool: " ++ readable request ++ "]")
  | .toolResponse _ => some "[Tool Response]"
  | .thinking content => some ("[Thinking: " ++ content.thinking ++ "]")
  | _ => none

/-- What is told of the part of a message that the assistant may see. -/
def textParts (readable : ToolRequest -> String) (row : StoredMessage) : List String :=
  (row.message.content.filterMap (MessageContentBlock.filterForAudience .assistant)).filterMap (textPart readable)

structure ChatRecallMessage where
  role : Role
  content : String
  timestamp : Int

structure ChatRecallResult where
  sessionId : String
  messages : List ChatRecallMessage

def recalled (readable : ToolRequest -> String) (row : StoredMessage) : ChatRecallMessage :=
  ⟨row.message.role, "\n".intercalate (textParts readable row), row.timestamp⟩

/-- How rows are gathered by their sessions. -/
def sessionRule (readable : ToolRequest -> String) : Gathering StoredMessage ChatRecallResult String where
  label := StoredMessage.sessionId
  key := ChatRecallResult.sessionId
  start row := ⟨row.sessionId, [recalled readable row]⟩
  extend result row := { result with messages := result.messages ++ [recalled readable row] }
  key_start _ := rfl
  key_extend _ _ := rfl

/-- The rows that a search finds. -/
def found (unicode : UnicodeCase) (readable : ToolRequest -> String) (search : Search) (rows : List StoredMessage) :
    List StoredMessage :=
  let keywords := parseKeywords unicode search.query
  if keywords.isEmpty then []
  else (fetchRows search keywords rows).filter fun row => !(textParts readable row).isEmpty

/-- The time of the last message of a result. -/
def lastActivity (result : ChatRecallResult) : Option Int :=
  (result.messages.map ChatRecallMessage.timestamp).max?

/-- A search: what it finds, by sessions, the one with the latest message first. -/
def execute (unicode : UnicodeCase) (readable : ToolRequest -> String) (search : Search) (rows : List StoredMessage) :
    List ChatRecallResult :=
  ((found unicode readable search rows).foldl (sessionRule readable).deliver []).mergeSort fun left right =>
    decide ((lastActivity right).getD 0 ≤ (lastActivity left).getD 0)

end ChatHistorySearch

end AIBuddy
