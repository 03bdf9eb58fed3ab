import Mathlib.Data.String.Basic
import AIBuddy.Desktop.Message
import AIBuddy.Support.Table

namespace AIBuddy
namespace Desktop

/-!
# The adapter of session notifications

An adapter builds the messages of a session from the notifications of the server.  Chunks of
text, images and thinking are put into the message that they belong to, tool calls become
requests, and their updates are collected until the call ends and its response is made.  What is
read from the metadata of a notification is part of the notification here.
-/

/-- What a notification says about the message that it is for. -/
structure AIBuddyMessageMeta where
  messageId : Option String
  created : Option Int
  outputTokenLimitReached : Bool
  fallbackContent : Bool
  steer : Bool
deriving DecidableEq

structure ContentChunk where
  content : ContentBlock
  messageId : Option String
  aibuddyMeta : AIBuddyMessageMeta
deriving DecidableEq

/-- The fields of a tool call, as far as they are known. -/
structure ToolCallState where
  title : Option String
  kind : Option String
  status : Option ToolCallStatus
  content : Option (List ToolCallContent)
  locations : Option Json
  rawInput : Option Json
  rawOutput : Option Json
deriving DecidableEq

/-- A tool call or an update of one, with the fields that it has. -/
structure ToolCallUpdate where
  toolCallId : String
  fields : ToolCallState
  aibuddyMeta : AIBuddyMessageMeta
  toolName : Option String
  extensionName : Option String
  mcpApp : Option McpAppMeta
  metaFields : Option Json
deriving DecidableEq

/-- The updates of a session. -/
inductive SessionUpdate where
  | userMessageChunk (chunk : ContentChunk)
  | agentMessageChunk (chunk : ContentChunk)
  | agentThoughtChunk (chunk : ContentChunk)
  | toolCall (update : ToolCallUpdate)
  | toolCallUpdate (update : ToolCallUpdate)
  | sessionInfoUpdate (title : Option String) (activeRunId : Option (Option String)) (queuedSteer : Option String)
  | other
deriving DecidableEq

structure AdapterState where
  messages : List Message
  localSteerTextByMessageId : Table String String
  toolCallStatesById : Table String ToolCallState

/-- What a notification changes for the rest of the desktop. -/
inductive AcpChatStateChange where
  | messages (messages : List Message)
  | sessionInfo (name : Option String) (activeRunId : Option (Option String))
  | localSteerConfirmed (messageId : String)
deriving DecidableEq

def messagesChange (state : AdapterState) : List AcpChatStateChange :=
  [.messages state.messages]

/-! ## Finding the message of a chunk -/

/-- A message within its list. -/
structure Focus where
  before : List Message
  message : Message
  after : List Message

/-- The list with another message in the place. -/
def Focus.replaced (focus : Focus) (message : Message) : List Message :=
  focus.before ++ message :: focus.after

/-- The first message that meets a condition. -/
def focus? (condition : Message -> Bool) : List Message -> Option Focus
  | [] => none
  | message :: rest =>
      if condition message then some ⟨[], message, rest⟩
      else (focus? condition rest).map fun focus => { focus with before := message :: focus.before }

theorem focus?_eq_some {condition : Message -> Bool} {messages : List Message} {focus : Focus}
    (found : focus? condition messages = some focus) :
    messages = focus.before ++ focus.message :: focus.after ∧ condition focus.message = true ∧
      forall other, other ∈ focus.before -> condition other = false := by
  induction messages generalizing focus with
  | nil => contradiction
  | cons message rest ih =>
      rw [focus?] at found
      split at found
      · rename_i meets
        cases found
        exact ⟨rfl, meets, fun other member => absurd member List.not_mem_nil⟩
      · rename_i fails
        rw [Option.map_eq_some_iff] at found
        rcases found with ⟨inner, deeper, rfl⟩
        rcases ih deeper with ⟨split, meets, earlier⟩
        refine ⟨congrArg (List.cons message) split, meets, fun other member => ?_⟩
        rcases List.mem_cons.mp member with rfl | later
        · exact Bool.eq_false_iff.mpr fails
        · exact earlier other later

theorem focus?_eq_none {condition : Message -> Bool} {messages : List Message}
    (found : focus? condition messages = none) (message : Message) (member : message ∈ messages) :
    condition message = false := by
  induction messages with
  | nil => exact absurd member List.not_mem_nil
  | cons first rest ih =>
      rw [focus?] at found
      split at found
      · contradiction
      · rename_i fails
        rcases List.mem_cons.mp member with rfl | later
        · exact Bool.eq_false_iff.mpr fails
        · exact ih (Option.map_eq_none_iff.mp found) later

/-- The last message, when it has the role and the agent sees it. -/
def lastMergeableMessageWithRole (messages : List Message) (role : Role) : Option Focus :=
  match messages.getLast? with
  | some last =>
      if last.role = role ∧ last.metadata.agentVisible = true then some ⟨messages.dropLast, last, []⟩ else none
  | none => none

theorem mem_of_lastMergeable {messages : List Message} {role : Role} {focus : Focus}
    (found : lastMergeableMessageWithRole messages role = some focus) : focus.message ∈ messages := by
  rw [lastMergeableMessageWithRole] at found
  split at found
  · rename_i last same
    split at found
    · cases found
      exact List.mem_of_getLast? same
    · contradiction
  · contradiction

/-- The message that a chunk is for.  A chunk with an identifier is for the message that has it
and the role, or else for a last message that has no identifier and gets this one. -/
def findMessageForChunk (messages : List Message) (role : Role) (messageId : Option String)
    (created : Option Int) : Option Focus :=
  match truthy messageId with
  | none => lastMergeableMessageWithRole messages role
  | some id =>
      match focus? (fun message => decide (message.id = some id) && decide (message.role = role)) messages with
      | some focus => some focus
      | none =>
          match lastMergeableMessageWithRole messages role with
          | some pending =>
              if (truthy pending.message.id).isNone then
                some { pending with
                  message := { pending.message with
                    id := some id
                    created := created.getD pending.message.created } }
              else none
          | none => none

/-! ## Text, images and thinking -/

/-- The content of a chunk, if it is shown. -/
def messageContentFromAcpContentBlock : ContentBlock -> Option MessageContent
  | .text text annotations metaFields => some (.text text annotations metaFields)
  | .image data mimeType annotations metaFields => some (.image data mimeType annotations metaFields)
  | _ => none

/-- Whether an image is among the content. -/
def hasImageContent (content : List MessageContent) (data mimeType : String) : Bool :=
  content.any fun block =>
    match block with
    | .image otherData otherType _ _ => decide (otherData = data) && decide (otherType = mimeType)
    | _ => false

/-- Put a chunk behind the content: a text continues a text, and an image that is already there
is left out. -/
def appendContent (content : List MessageContent) (chunk : MessageContent) : List MessageContent :=
  match content.getLast?, chunk with
  | some (.text text annotations metaFields), .text next _ _ =>
      content.dropLast ++ [.text (text ++ next) annotations metaFields]
  | _, .image data mimeType _ _ => if hasImageContent content data mimeType then content else content ++ [chunk]
  | _, _ => content ++ [chunk]

/-- The text of a steer message that is shown already is replaced by what the server has sent of
it so far. -/
def reconcileLocalSteerTextChunk (steerTexts : Table String String) (message : Message) (content : MessageContent)
    (steer : Bool) : Option (Message × Table String String) :=
  if steer ∧ message.metadata.steer = true ∧ message.role = .user then
    match content, message.content with
    | .text chunk annotations metaFields, .text _ _ _ :: rest =>
        match truthy message.id with
        | some id =>
            let nextText := (steerTexts.find? id).getD "" ++ chunk
            some ({ message with content := .text nextText annotations metaFields :: rest },
              steerTexts.insert id nextText)
        | none => some ({ message with content := .text chunk annotations metaFields :: rest }, steerTexts)
    | _, _ => none
  else none

/-- The changes of a chunk, which confirms a steer message when it is part of one. -/
def messagesChangeWithLocalSteerConfirmation (state : AdapterState) (message : Message) (steer : Bool) :
    List AcpChatStateChange :=
  messagesChange state ++
    if steer ∧ message.metadata.steer = true ∧ message.role = .user then
      ((truthy message.id).map AcpChatStateChange.localSteerConfirmed).toList
    else []

/-- Put a chunk into a message that exists. -/
def extendMessage (state : AdapterState) (focus : Focus) (content : MessageContent) (flags : AIBuddyMessageMeta) :
    AdapterState × List AcpChatStateChange :=
  let skipFallback := flags.outputTokenLimitReached && flags.fallbackContent && !focus.message.content.isEmpty
  let existing := { focus.message with
    metadata := { focus.message.metadata with
      outputTokenLimitReached := flags.outputTokenLimitReached
      fallbackContent := !skipFallback && flags.fallbackContent } }
  let (message, steerTexts) :=
    if skipFallback then (existing, state.localSteerTextByMessageId)
    else
      match reconcileLocalSteerTextChunk state.localSteerTextByMessageId existing content flags.steer with
      | some reconciled => reconciled
      | none => ({ existing with content := appendContent existing.content content }, state.localSteerTextByMessageId)
  let next := { state with messages := focus.replaced message, localSteerTextByMessageId := steerTexts }
  (next, messagesChangeWithLocalSteerConfirmation next message flags.steer)

/-- Apply a chunk of text or an image. -/
def applyContentChunk (now : Int) (state : AdapterState) (role : Role) (chunk : ContentChunk) :
    AdapterState × List AcpChatStateChange :=
  match messageContentFromAcpContentBlock chunk.content with
  | none => (state, [])
  | some content =>
      let flags := chunk.aibuddyMeta
      let messageId := chunk.messageId.or flags.messageId
      match findMessageForChunk state.messages role messageId flags.created with
      | some focus => extendMessage state focus content flags
      | none =>
          let message : Message := {
            id := truthy messageId
            role := role
            created := flags.created.getD now
            content := [content]
            metadata := { defaultVisibleMessageMetadata with
              steer := flags.steer
              outputTokenLimitReached := flags.outputTokenLimitReached
              fallbackContent := flags.fallbackContent } }
          let next := { state with messages := state.messages ++ [message] }
          (next, messagesChange next)

/-- Put a thought behind the content: it continues a thinking block. -/
def appendThinking (content : List MessageContent) (text : String) : List MessageContent :=
  match content.getLast? with
  | some (.thinking thinking signature) => content.dropLast ++ [.thinking (thinking ++ text) signature]
  | _ => content ++ [.thinking text ""]

/-- The message of the assistant that an update is for, or a new one. -/
def getOrCreateMessage (now : Int) (messages : List Message) (role : Role) (found : Option Focus)
    (messageId : Option String) (created : Option Int) : Focus :=
  found.getD ⟨messages, ⟨truthy messageId, role, created.getD now, [], defaultVisibleMessageMetadata⟩, []⟩

/-- Apply a chunk of thinking, which is the assistant's. -/
def applyThoughtChunk (now : Int) (state : AdapterState) (chunk : ContentChunk) :
    AdapterState × List AcpChatStateChange :=
  match chunk.content with
  | .text text _ _ =>
      let flags := chunk.aibuddyMeta
      let messageId := chunk.messageId.or flags.messageId
      let focus := getOrCreateMessage now state.messages .assistant
        (findMessageForChunk state.messages .assistant messageId flags.created) messageId flags.created
      let message := { focus.message with
        content := appendThinking focus.message.content text
        metadata := { focus.message.metadata with outputTokenLimitReached := flags.outputTokenLimitReached } }
      let next := { state with messages := focus.replaced message }
      (next, messagesChange next)
  | _ => (state, [])

/-! ## Tool calls -/

/-- The known fields, with those of an update put over them. -/
def mergeToolCallState (previous : Option ToolCallState) (update : ToolCallState) : ToolCallState :=
  match previous with
  | none => update
  | some previous =>
      ⟨update.title.or previous.title, update.kind.or previous.kind, update.status.or previous.status,
        update.content.or previous.content, update.locations.or previous.locations,
        update.rawInput.or previous.rawInput, update.rawOutput.or previous.rawOutput⟩

def updateToolCallState (state : AdapterState) (update : ToolCallUpdate) : AdapterState × ToolCallState :=
  let merged := mergeToolCallState (state.toolCallStatesById.find? update.toolCallId) update.fields
  ({ state with toolCallStatesById := state.toolCallStatesById.insert update.toolCallId merged }, merged)

/-- The metadata of a request or a response, unless there is none. -/
def toolMetadata (fields : ToolCallState) (extensionName : Option String) (rawOutput : Option Json)
    (content : Option (List ToolCallContent)) : Option ToolMetadata :=
  let metadata : ToolMetadata :=
    ⟨truthy fields.title, fields.status, truthy extensionName, truthy fields.kind, fields.locations, rawOutput, content⟩
  if metadata = ⟨none, none, none, none, none, none, none⟩ then none else some metadata

/-- Arguments are objects; arrays pass for them. -/
def rawInputToArguments : Option Json -> Json
  | some (.object fields) => .object fields
  | some (.array items) => .array items
  | _ => .object []

def hasToolRequest (content : List MessageContent) (toolCallId : String) : Bool :=
  content.any fun block =>
    match block with
    | .toolRequest id _ _ _ _ => decide (id = toolCallId)
    | _ => false

/-- Apply a tool call. -/
def applyToolCall (now : Int) (state : AdapterState) (update : ToolCallUpdate) :
    AdapterState × List AcpChatStateChange :=
  let (state, _) := updateToolCallState state update
  let flags := update.aibuddyMeta
  let focus := getOrCreateMessage now state.messages .assistant
    (findMessageForChunk state.messages .assistant flags.messageId flags.created) flags.messageId flags.created
  let message :=
    if hasToolRequest focus.message.content update.toolCallId then focus.message
    else { focus.message with
      content := focus.message.content ++
        [.toolRequest update.toolCallId (update.toolName.or update.fields.title |>.getD "")
          (rawInputToArguments update.fields.rawInput)
          (toolMetadata update.fields update.extensionName none none) update.metaFields] }
  let next := { state with messages := focus.replaced message }
  (next, messagesChange next)

/-- A block as the content of a tool result has it. -/
def apiContentBlockFromAcpContentBlock : ContentBlock -> ContentBlock
  | .text text _ metaFields => .text text none metaFields
  | .image data mimeType _ metaFields => .image data mimeType none metaFields
  | block => block

/-- The blocks of a call's content, or its raw output when that is a text and there are none. -/
def toolResultContent (fields : ToolCallState) : List ContentBlock :=
  let content := (fields.content.getD []).filterMap fun item =>
    match item with
    | .content block => some (apiContentBlockFromAcpContentBlock block)
    | .other _ => none
  match content, fields.rawOutput with
  | [], some (.string text) => [.text text none none]
  | content, _ => content

/-- The message of a call that failed. -/
def toolError (fields : ToolCallState) : String :=
  let contentText := String.intercalate "\n" ((toolResultContent fields).filterMap fun block =>
    match block with
    | .text text _ _ => if text.toList.all isTrimmed then none else some text
    | _ => none)
  let fallback := if contentText = "" then fields.title.getD "Tool call failed" else contentText
  match fields.rawOutput with
  | some (.string text) => if text.toList.all isTrimmed then fallback else text
  | _ => fallback

/-- Whether a block is the response of a call. -/
def isToolResponseOf (toolCallId : String) : MessageContent -> Bool
  | .toolResponse id _ _ => decide (id = toolCallId)
  | _ => false

def hasToolResponse (messages : List Message) (toolCallId : String) : Bool :=
  messages.any fun message => message.content.any (isToolResponseOf toolCallId)

/-- The response of a call that has ended. -/
def toolResponse (update : ToolCallUpdate) (fields : ToolCallState) : MessageContent :=
  .toolResponse update.toolCallId
    (if fields.status = some .failed then .error (toolError fields)
    else .success (toolResultContent fields) fields.rawOutput update.mcpApp)
    (toolMetadata fields update.extensionName fields.rawOutput fields.content)

/-- Apply an update of a tool call, which makes a response when the call ends. -/
def applyToolCallUpdate (now : Int) (state : AdapterState) (update : ToolCallUpdate) :
    AdapterState × List AcpChatStateChange :=
  let (state, fields) := updateToolCallState state update
  if fields.status = some .completed ∨ fields.status = some .failed then
    let settled := { state with toolCallStatesById := state.toolCallStatesById.erase update.toolCallId }
    if hasToolResponse state.messages update.toolCallId then (settled, messagesChange settled)
    else
      let flags := update.aibuddyMeta
      let found := (truthy flags.messageId).bind fun id =>
        focus? (fun message => decide (message.id = some id) && decide (message.role = .user)) state.messages
      let focus := getOrCreateMessage now state.messages .user found flags.messageId flags.created
      let message := { focus.message with content := focus.message.content ++ [toolResponse update fields] }
      let next := { settled with messages := focus.replaced message }
      (next, messagesChange next)
  else (state, [])

/-! ## Notifications -/

/-- Apply a notification, at some second. -/
def applyAcpSessionNotification (now : Int) (state : AdapterState) (update : SessionUpdate) :
    AdapterState × List AcpChatStateChange :=
  match update with
  | .userMessageChunk chunk => applyContentChunk now state .user chunk
  | .agentMessageChunk chunk => applyContentChunk now state .assistant chunk
  | .agentThoughtChunk chunk => applyThoughtChunk now state chunk
  | .toolCall update => applyToolCall now state update
  | .toolCallUpdate update => applyToolCallUpdate now state update
  | .sessionInfoUpdate title activeRunId queuedSteer =>
      (state,
        (if (truthy title).isSome ∨ activeRunId.isSome then [.sessionInfo (truthy title) activeRunId] else []) ++
          ((truthy queuedSteer).map AcpChatStateChange.localSteerConfirmed).toList)
  | .other => (state, [])

/-- An adapter that was just created, with the messages and steer texts that it begins with. -/
def createAcpSessionNotificationAdapter (messages : List Message) (steerTexts : Table String String) : AdapterState :=
  ⟨messages, steerTexts, Table.empty⟩

end Desktop
end AIBuddy
