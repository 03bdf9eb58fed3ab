import AIBuddy.Provider.OpenAiStream
import AIBuddy.Provider.ResponsesStream

namespace AIBuddy
namespace ImportFormats

/-!
# Importers of foreign sessions

Transcripts of three other agents are read line by line, each line a JSON value, and converted to
a session.  What they have in common is stated once: the lines that are read, the counts of
their usage records, which are added up in 64 bits and narrowed at the end, and the blocks that
texts and tool results become.  The JSON parser and writer, the reader of output items and the
clock are outside.
-/

open OpenAi (asI64 toI32)

/-! ## Output items -/

/-- A part of a message in an output item. -/
inductive ResponseContentBlock where
  | outputText (text : String)
  | refusal (refusal : String)
  | reasoningText (text : String)
  | toolCall (id name : String) (input : Json)

/-- An item of the output of a response. -/
inductive ResponseOutputItem where
  | reasoning (summary : List String)
  | message (content : List ResponseContentBlock)
  | functionCall (id callId : Option String) (name arguments : String)

/-- What is used of other parts. -/
structure Services where
  codec : TextCodec
  json : JsonParser
  render : Json -> String
  readOutputItem : Json -> Option ResponseOutputItem
  parseTimestamp : String -> Option Int
  now : Int
  currentDir : String

/-! ## Lines and fields -/

/-- The lines of a text, without their ends. -/
def textLines (text : String) : List String :=
  let pieces := text.toList.splitOn '\n'
  let ended := pieces.dropLast.map fun line => if line.getLast? = some '\r' then line.dropLast else line
  let last := (pieces.getLast?.filter (· != [])).toList
  (ended ++ last).map String.ofList

def isShown (line : String) : Bool :=
  !Text.isBlank line

/-- The values of the lines that can be parsed. -/
def jsonLines (services : Services) (content : String) : List Json :=
  ((textLines content).filter isShown).filterMap services.json.value?

def asObject : Json -> Option JsonObject
  | .object fields => some fields
  | _ => none

def textField (value : Json) (key : String) : Option String :=
  (value.get key).bind Json.asStr

/-- The type of a line or a block. -/
def typeOf (value : Json) : String :=
  (textField value "type").getD ""

/-- The time of a line, in nanoseconds. -/
def timestampOf (services : Services) (line : Json) : Option Int :=
  (textField line "timestamp").bind services.parseTimestamp

/-- The second at which a message is said to be made. -/
def createdAt (services : Services) (line : Json) : Int :=
  ((timestampOf services line).getD services.now).fdiv 1000000000

/-! ## Usage -/

/-- The totals of the usage records that were read. -/
structure Totals where
  input : Int
  output : Int
  cacheRead : Int
  cacheWrite : Int
deriving DecidableEq

/-- The names of the counts of a usage record, and whether the cached tokens are added to the
input. -/
structure UsageKeys where
  input : String
  output : String
  cacheRead : String
  cacheWrite : Option String
  folds : Bool

/-- An addition in 64 bits. -/
def addI64 (left right : Int) : Option Int :=
  if -9223372036854775808 ≤ left + right ∧ left + right ≤ 9223372036854775807 then some (left + right) else none

def countOf (record : JsonObject) (key : String) : Int :=
  ((record.lookup key).bind asI64).getD 0

/-- The counts of a record, by a way to read them. -/
def countsBy (count : String -> Int) (keys : UsageKeys) : Totals where
  input := count keys.input
  output := count keys.output
  cacheRead := count keys.cacheRead
  cacheWrite := (keys.cacheWrite.map count).getD 0

def addCounts (keys : UsageKeys) (totals counts : Totals) : Option Totals :=
  (addI64 totals.input counts.input).bind fun input =>
    (if keys.folds then (addI64 counts.cacheWrite counts.cacheRead).bind (addI64 input) else some input).bind fun folded =>
      (addI64 totals.cacheWrite counts.cacheWrite).bind fun cacheWrite =>
        (addI64 totals.cacheRead counts.cacheRead).bind fun cacheRead =>
          (addI64 totals.output counts.output).map fun output => ⟨folded, output, cacheRead, cacheWrite⟩

/-- Add a usage record to the totals. -/
def addUsage (keys : UsageKeys) (totals : Totals) (record : JsonObject) : Option Totals :=
  addCounts keys totals (countsBy (countOf record) keys)

/-- The totals of all usage records, unless an addition overflows. -/
def addUsages (keys : UsageKeys) (records : List JsonObject) : Option Totals :=
  records.foldl (fun totals record => totals.bind fun totals => addUsage keys totals record) (some ⟨0, 0, 0, 0⟩)

/-- A total as a figure of 32 bits, when it is positive. -/
def positiveFigure (total : Int) : Option Int :=
  if total > 0 then some (toI32 total) else none

/-! ## Sessions -/

structure ImportedSession where
  sessionId : String
  workingDir : String
  name : String
  createdAt : Int
  updatedAt : Int
  usage : Usage
  conversation : List Message
deriving DecidableEq

/-- Why a transcript is not converted. -/
inductive ImportError where
  | invalid (message : String)
  | overflow
deriving DecidableEq

/-- The session that is built from the totals, when there are any. -/
def withTotals (build : Totals -> ImportedSession) : Option Totals -> Except ImportError ImportedSession
  | none => .error .overflow
  | some totals => .ok (build totals)

/-- A session name from the first line of a text that is not blank. -/
def summarizeFirstLine (text : String) : String :=
  let line := Text.trim (((textLines text).find? isShown).getD text)
  if line.toList.length ≤ 80 then line else String.ofList (line.toList.take 77) ++ "..."

def extractFirstText (message : Message) : Option String :=
  message.content.findSome? MessageContentBlock.asText

/-- A message with some content, unless there is none. -/
def messageWith (role : Role) (created : Int) (content : List MessageContentBlock) : Option Message :=
  if content = [] then none else some ⟨none, role, created, content, {}⟩

/-! ## Blocks -/

def textBlock (services : Services) (text : String) : MessageContentBlock :=
  .plainText (sanitizeUnicodeTags services.codec text)

def successText (text : String) : ToolResult CallToolResult :=
  .ok ⟨[.text ⟨text, none⟩], none, some false⟩

def toolResponse (services : Services) (id : String) (result : ToolResult CallToolResult) : MessageContentBlock :=
  .toolResponseWithMetadata services.codec id result none

def toolRequest (id name : String) (arguments : JsonObject) : MessageContentBlock :=
  .newToolRequest id (.ok ⟨name, some arguments⟩)

/-- The result of a tool, from the text of its blocks. -/
def buildToolResult (services : Services) (blockText : Json -> Option String) (content : Option Json) (isError : Bool)
    (change : String -> String) : ToolResult CallToolResult :=
  let text :=
    match content with
    | some (.string text) => text
    | some (.array blocks) => "\n".intercalate (blocks.filterMap blockText)
    | some other => services.render other
    | none => ""
  if isError then .error ⟨-32603, change text, none⟩ else successText (change text)

/-! ## Claude Code -/

namespace ClaudeCode

def usageKeys : UsageKeys where
  input := "input_tokens"
  output := "output_tokens"
  cacheRead := "cache_read_input_tokens"
  cacheWrite := some "cache_creation_input_tokens"
  folds := true

def toolResultText (services : Services) (block : Json) : Option String :=
  if typeOf block = "text" then textField block "text"
  else if typeOf block = "tool_reference" then
    (textField block "tool_name").map fun name => "[tool_reference: " ++ name ++ "]"
  else some (services.render block)

def userBlock (services : Services) (block : Json) : Option MessageContentBlock :=
  if typeOf block = "text" then (textField block "text").map (textBlock services)
  else if typeOf block = "tool_result" then
    let isError := ((block.get "is_error").bind Json.asBool).getD false
    some (toolResponse services ((textField block "tool_use_id").getD "")
      (buildToolResult services (toolResultText services) (block.get "content") isError id))
  else if typeOf block = "image" then
    ((block.get "source").bind fun source => textField source "data").bind fun data =>
      ((block.get "source").bind fun source => textField source "media_type").map fun mime => .image ⟨data, mime, none⟩
  else none

def convertUserMessage (services : Services) (line : Json) : Option Message :=
  ((line.get "message").bind fun message => message.get "content").bind fun content =>
    messageWith .user (createdAt services line)
      (match content with
      | .string text => [textBlock services text]
      | .array blocks => blocks.filterMap (userBlock services)
      | _ => [])

def assistantBlock (services : Services) (block : Json) : Option MessageContentBlock :=
  if typeOf block = "text" then ((textField block "text").filter (· != "")).map (textBlock services)
  else if typeOf block = "thinking" then
    let thinking := (textField block "thinking").getD ""
    if thinking = "" then none else some (.thinking ⟨thinking, (textField block "signature").getD ""⟩)
  else if typeOf block = "tool_use" then
    some (toolRequest ((textField block "id").getD "") ((textField block "name").getD "unknown_tool")
      (((block.get "input").bind asObject).getD []))
  else none

def convertAssistantMessage (services : Services) (line : Json) : Option Message :=
  (((line.get "message").bind fun message => message.get "content").bind Json.asArray).bind fun blocks =>
    messageWith .assistant (createdAt services line) (blocks.filterMap (assistantBlock services))

def convertLine (services : Services) (line : Json) : Option Message :=
  if typeOf line = "user" then convertUserMessage services line
  else if typeOf line = "assistant" then convertAssistantMessage services line
  else none

/-- The usage record of a line of the assistant. -/
def usageRecord (line : Json) : Option JsonObject :=
  if typeOf line = "assistant" then
    ((line.get "message").bind fun message => message.get "usage").bind asObject
  else none

/-- The usage record that is counted for a line: that of a line with a message. -/
def countedRecord (services : Services) (line : Json) : Option JsonObject :=
  if (convertAssistantMessage services line).isSome then usageRecord line else none

def session (services : Services) (lines : List Json) (totals : Totals) : ImportedSession :=
  let sessionId := (lines.findSome? fun line => textField line "sessionId").getD "imported"
  let cwd := (lines.findSome? fun line => textField line "cwd").getD ""
  let aiTitle := lines.findSome? fun line => if typeOf line = "ai-title" then textField line "aiTitle" else none
  let userText := lines.findSome? fun line =>
    if typeOf line = "user" then (convertUserMessage services line).bind extractFirstText else none
  let times := lines.filterMap (timestampOf services)
  let created := times.head?.getD services.now
  { sessionId := sessionId
    workingDir := if cwd = "" then services.currentDir else cwd
    name := (aiTitle.or (userText.map summarizeFirstLine)).getD ("Imported Claude Code session " ++ sessionId)
    createdAt := created
    updatedAt := times.getLast?.getD created
    usage := (Usage.new (some (toI32 totals.input)) (some (toI32 totals.output)) none).withCacheTokens
      (positiveFigure totals.cacheRead) (positiveFigure totals.cacheWrite)
    conversation := lines.filterMap (convertLine services) }

def convert (services : Services) (content : String) : Except ImportError ImportedSession :=
  let lines := jsonLines services content
  if lines = [] then .error (.invalid "Claude Code import: no parseable JSON lines")
  else withTotals (session services lines) (addUsages usageKeys (lines.filterMap (countedRecord services)))

end ClaudeCode

/-! ## Codex -/

namespace Codex

def usageKeys : UsageKeys where
  input := "input_tokens"
  output := "output_tokens"
  cacheRead := "cached_input_tokens"
  cacheWrite := none
  folds := false

/-- The usage record of an event. -/
def usageRecord (line : Json) : Option JsonObject :=
  if typeOf line = "event_msg" then
    ((line.get "payload").bind fun payload => payload.get "usage").bind asObject
  else none

def collectUserText (content : Option Json) : String :=
  match content with
  | some (.array blocks) =>
      "\n".intercalate ((blocks.filter fun block =>
        ["input_text", "text", "output_text"].contains (typeOf block)).filterMap fun block => textField block "text")
  | other => (other.bind Json.asStr).getD ""

def isContextBlob (text : String) : Bool :=
  let text := Text.trimStart text
  Text.startsWith "<environment_context>" text || Text.startsWith "<app-context>" text ||
    Text.startsWith "<permissions instructions>" text || Text.startsWith "# AGENTS.md" text

/-- The text that a block of a message becomes, when it is not empty. -/
def nonemptyText (services : Services) (text : String) (build : String -> MessageContentBlock) :
    List MessageContentBlock :=
  let clean := sanitizeUnicodeTags services.codec text
  if clean = "" then [] else [build clean]

/-- The parts of a message, with the identifiers of calls seen so far. -/
def decodeParts (services : Services) (seenIds : List String) :
    List ResponseContentBlock -> Option (List MessageContentBlock)
  | [] => some []
  | .outputText text :: rest =>
      (decodeParts services seenIds rest).map (nonemptyText services text .plainText ++ ·)
  | .refusal refusal :: rest =>
      (decodeParts services seenIds rest).map (nonemptyText services refusal .plainText ++ ·)
  | .reasoningText text :: rest =>
      (decodeParts services seenIds rest).map (nonemptyText services text (fun clean => .thinking ⟨clean, ""⟩) ++ ·)
  | .toolCall id name input :: rest =>
      (Responses.sanitizeToolRequestId id seenIds).toOption.bind fun seen =>
        (Responses.sanitizeToolArguments input).toOption.bind fun arguments =>
          (decodeParts services seen.2 rest).map
            (toolRequest seen.1 (stripUnicodeTags name) arguments.toObject :: ·)

/-- The content that the decoder of responses makes of one item, unless it fails. -/
def responsesApiToMessage (services : Services) : ResponseOutputItem -> Option (List MessageContentBlock)
  | .reasoning summary => some (Responses.reasoningFromSummary services.codec summary)
  | .message content => decodeParts services [] content
  | .functionCall id callId name arguments =>
      (callId.or id).bind fun requestId =>
        (Responses.parseToolArguments services.json arguments).toOption.map fun parsed =>
          [toolRequest (stripUnicodeTags requestId) (stripUnicodeTags name) parsed.toObject]

/-- The arguments of a search: what it looked for, and where. -/
def searchArguments (payload : Json) : JsonObject :=
  let member := fun key =>
    ((((payload.get "action").bind fun action => textField action key).filter (· != "")).map fun text =>
      (key, Json.string text)).toList
  member "query" ++ member "url"

/-- The messages of the items that the provider does not know. -/
def ownItem (services : Services) (created : Int) (place : Nat) (payload : Json) : List Message :=
  if typeOf payload = "function_call_output" then
    (messageWith .user created [toolResponse services ((textField payload "call_id").getD "")
      (successText ((textField payload "output").getD ""))]).toList
  else if typeOf payload = "web_search_call" then
    let id := "codex_websearch_" ++ toString place
    (messageWith .assistant created [toolRequest id "web_search" (searchArguments payload)]).toList ++
      (messageWith .user created [toolResponse services id
        (successText ("[web_search " ++ (textField payload "status").getD "completed" ++ "]"))]).toList
  else []

/-- The text of a user's item. -/
def userText (line : Json) : Option String :=
  if typeOf line = "response_item" then
    (line.get "payload").bind fun payload =>
      if textField payload "role" = some "user" then
        let text := collectUserText (payload.get "content")
        if Text.isBlank text then none else some text
      else none
  else none

/-- The messages of a line. -/
def convertLine (services : Services) (place : Nat) (line : Json) : List Message :=
  if typeOf line = "response_item" then
    match line.get "payload" with
    | none => []
    | some payload =>
        if textField payload "role" = some "developer" ∨ textField payload "role" = some "system" then []
        else if textField payload "role" = some "user" then
          ((userText line).bind fun text => messageWith .user (createdAt services line) [textBlock services text]).toList
        else
          match ((services.readOutputItem payload).bind (responsesApiToMessage services)).bind
              (messageWith .assistant (createdAt services line)) with
          | some message => [message]
          | none => ownItem services (createdAt services line) place payload
  else []

def session (services : Services) (lines : List Json) (totals : Totals) : ImportedSession :=
  let header := (lines.find? fun line => textField line "type" = some "session_meta").bind fun line => line.get "payload"
  let sessionId := (header.bind fun header => textField header "id").getD "imported"
  let cwd := (header.bind fun header => textField header "cwd").getD ""
  let title := (lines.filterMap userText).find? fun text => !isContextBlob text
  let times := lines.filterMap (timestampOf services)
  let created := times.head?.getD services.now
  { sessionId := sessionId
    workingDir := if cwd = "" then services.currentDir else cwd
    name := (title.map summarizeFirstLine).getD ("Imported Codex session " ++ sessionId)
    createdAt := created
    updatedAt := times.getLast?.getD created
    usage := (Usage.new (positiveFigure totals.input) (positiveFigure totals.output) none).withCacheTokens
      (positiveFigure totals.cacheRead) none
    conversation := lines.zipIdx.flatMap fun entry => convertLine services entry.2 entry.1 }

def convert (services : Services) (content : String) : Except ImportError ImportedSession :=
  let lines := jsonLines services content
  if lines = [] then .error (.invalid "Codex import: no parseable JSON lines")
  else withTotals (session services lines) (addUsages usageKeys (lines.filterMap usageRecord))

end Codex

/-! ## Pi -/

namespace Pi

def usageKeys : UsageKeys where
  input := "input"
  output := "output"
  cacheRead := "cacheRead"
  cacheWrite := some "cacheWrite"
  folds := true

/-- The message of an entry. -/
def innerOf (entry : Json) : Option Json :=
  if typeOf entry = "message" then entry.get "message" else none

def usageRecord (entry : Json) : Option JsonObject :=
  ((innerOf entry).bind fun inner => inner.get "usage").bind asObject

def sanitize (services : Services) (text : String) : String :=
  sanitizeUnicodeTags services.codec text

mutual

/-- Sanitize all texts of a value. -/
def sanitizeJsonStrings (services : Services) : Json -> Json
  | .string text => .string (sanitize services text)
  | .array values => .array (sanitizeItems services values)
  | .object members => .object (sanitizeMembers services [] members)
  | value => value

def sanitizeItems (services : Services) : List Json -> List Json
  | [] => []
  | value :: rest => sanitizeJsonStrings services value :: sanitizeItems services rest

/-- The members of an object with sanitized keys; the last of the members with one key counts. -/
def sanitizeMembers (services : Services) (sanitized : JsonObject) : List (String × Json) -> JsonObject
  | [] => sanitized
  | (key, value) :: rest =>
      sanitizeMembers services (sanitized.insert (sanitize services key) (sanitizeJsonStrings services value)) rest

end

def toolResultText (services : Services) (block : Json) : Option String :=
  if typeOf block = "text" then textField block "text" else some (services.render block)

def userBlock (services : Services) (block : Json) : Option MessageContentBlock :=
  if typeOf block = "text" then (textField block "text").map (textBlock services)
  else if typeOf block = "image" then
    (textField block "data").bind fun data => (textField block "mimeType").map fun mime => .image ⟨data, mime, none⟩
  else none

def userContent (services : Services) (content : Option Json) : List MessageContentBlock :=
  match content with
  | some (.string text) => [textBlock services text]
  | some (.array blocks) => blocks.filterMap (userBlock services)
  | _ => []

def assistantBlock (services : Services) (block : Json) : Option MessageContentBlock :=
  if typeOf block = "text" then ((textField block "text").filter (· != "")).map (textBlock services)
  else if typeOf block = "thinking" then
    ((textField block "thinking").filter (· != "")).map fun thinking => .thinking ⟨sanitize services thinking, ""⟩
  else if typeOf block = "toolCall" then
    some (toolRequest (sanitize services ((textField block "id").getD ""))
      (sanitize services ((textField block "name").getD "unknown_tool"))
      (sanitizeMembers services [] (((block.get "arguments").bind asObject).getD [])))
  else none

def assistantContent (services : Services) (content : Option Json) : List MessageContentBlock :=
  match content with
  | some (.string text) => [textBlock services text]
  | some (.array blocks) => blocks.filterMap (assistantBlock services)
  | _ => []

/-- The call and the answer that a shell command becomes. -/
def bashExecution (services : Services) (created : Int) (place : Nat) (inner : Json) : List Message :=
  let id := "pi_bash_" ++ toString place
  let command := sanitize services ((textField inner "command").getD "")
  let output := (textField inner "output").getD ""
  let result :=
    match (inner.get "exitCode").bind asI64 with
    | some code => if code = 0 then output else "exit " ++ toString code ++ "\n" ++ output
    | none => output
  (messageWith .assistant created [toolRequest id "bash" [("command", .string command)]]).toList ++
    (messageWith .user created [toolResponse services id (successText (sanitize services result))]).toList

/-- The messages of an entry. -/
def convertEntry (services : Services) (place : Nat) (entry : Json) : List Message :=
  match innerOf entry with
  | none => []
  | some inner =>
      let role := (textField inner "role").getD ""
      let created := createdAt services entry
      if role = "user" then (messageWith .user created (userContent services (inner.get "content"))).toList
      else if role = "assistant" then
        (messageWith .assistant created (assistantContent services (inner.get "content"))).toList
      else if role = "toolResult" then
        let isError := ((inner.get "isError").bind Json.asBool).getD false
        (messageWith .user created [toolResponse services (sanitize services ((textField inner "toolCallId").getD ""))
          (buildToolResult services (toolResultText services) (inner.get "content") isError (sanitize services))]).toList
      else if role = "bashExecution" then bashExecution services created place inner
      else
        ((textField inner "summary").bind fun summary =>
          messageWith .assistant created [textBlock services ("[" ++ role ++ "] " ++ summary)]).toList

/-- The text of an entry of the user. -/
def userText (services : Services) (entry : Json) : Option String :=
  (innerOf entry).bind fun inner =>
    if textField inner "role" = some "user" then
      (messageWith .user 0 (userContent services (inner.get "content"))).bind extractFirstText
    else none

def session (services : Services) (header : Json) (entries : List Json) (totals : Totals) : ImportedSession :=
  let sessionId := (textField header "id").getD "imported"
  let cwd := (textField header "cwd").getD ""
  let title := entries.findSome? (userText services)
  let times := (header :: entries).filterMap (timestampOf services)
  let created := times.head?.getD services.now
  { sessionId := sessionId
    workingDir := if cwd = "" then services.currentDir else cwd
    name := (title.map summarizeFirstLine).getD ("Imported pi session " ++ sessionId)
    createdAt := created
    updatedAt := times.getLast?.getD created
    usage := (Usage.new (some (toI32 totals.input)) (some (toI32 totals.output)) none).withCacheTokens
      (positiveFigure totals.cacheRead) (positiveFigure totals.cacheWrite)
    conversation := entries.zipIdx.flatMap fun entry => convertEntry services entry.2 entry.1 }

def convert (services : Services) (content : String) : Except ImportError ImportedSession :=
  match (textLines content).filter isShown with
  | [] => .error (.invalid "Pi import: empty file")
  | first :: rest =>
      match services.json.fromStr first with
      | .error error => .error (.invalid ("Pi import: header is not valid JSON: " ++ error))
      | .ok header =>
          if textField header "type" ≠ some "session" then .error (.invalid "Pi import: missing session header")
          else
            let entries := rest.filterMap services.json.value?
            withTotals (session services header entries) (addUsages usageKeys (entries.filterMap usageRecord))

end Pi

end ImportFormats
end AIBuddy
