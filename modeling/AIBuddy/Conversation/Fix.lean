import AIBuddy.Conversation.Message
import AIBuddy.Support.Pass
import AIBuddy.Support.Text
import Mathlib.Data.Finset.Basic

namespace AIBuddy

/-!
# Repairing a conversation for a provider

`fixConversation` prepares a conversation for a model.  Only the messages that
the agent sees are repaired; the others keep their places through a map of
slots.  The repair is a sequence of passes, each of which returns the messages
it leaves and a list of issues it met.

Most passes look at one message at a time and are written as a rewriting of a
single message.  The pairing of tool calls walks the whole conversation with
the set of unanswered request identifiers.
-/

/-- A repair pass: the messages it leaves and the issues it reports. -/
abbrev FixPass := Pass (List Message) String

/-- Repair every message on its own. -/
def fixEachMessage (repair : Message -> Message) (issues : Message -> List String) : FixPass :=
  fun messages => (messages.map repair, messages.flatMap issues)

/-! ## Text of assistant messages -/

/-- Append a block, joining a text to a preceding text for the same audience. -/
def pushTextContent (content : List MessageContentBlock) (item : MessageContentBlock) :
    List MessageContentBlock :=
  match item, content.getLast? with
  | .text text, some (.text last) =>
      if last.audience = text.audience then
        content.dropLast ++ [.text { last with text := last.text ++ text.text }]
      else content ++ [item]
  | _, _ => content ++ [item]

def mergeTextContentInMessage (msg : Message) : Message :=
  if msg.role = .assistant then { msg with content := msg.content.foldl pushTextContent [] } else msg

def mergeTextContentItems : FixPass :=
  fixEachMessage mergeTextContentInMessage fun message =>
    if message.content.length = (mergeTextContentInMessage message).content.length then []
    else ["Merged text content"]

/-- Trim a text block; every other block stays. -/
def trimTextBlock : MessageContentBlock -> MessageContentBlock
  | .text content => .text { content with text := Text.trimEnd content.text }
  | block => block

/-- Whether trimming shortens a block. -/
def trimsTextBlock : MessageContentBlock -> Bool
  | .text content => (Text.trimEnd content.text).length != content.text.length
  | _ => false

def trimAssistantTextWhitespace : FixPass :=
  fixEachMessage
    (fun message =>
      if message.role = .assistant then { message with content := message.content.map trimTextBlock }
      else message)
    (fun message =>
      if message.role = .assistant then
        (message.content.filter trimsTextBlock).map fun _ =>
          "Trimmed trailing whitespace from assistant message"
      else [])

/-! ## Empty messages and empty tool results -/

/-- A message that has nothing but empty texts. -/
def isEmptyMessage (message : Message) : Bool :=
  message.content.all fun block => block.asText == some ""

def removeEmptyMessages : FixPass :=
  fun messages =>
    (messages.filter fun message => !isEmptyMessage message,
      (messages.filter isEmptyMessage).map fun _ => "Removed empty message")

/-- Whether the content of a tool result has any meaningful payload. -/
def hasToolResultContent (codec : TextCodec) (content : List ContentBlock) : Bool :=
  content.any fun
    | .text text => text.text != ""
    | .resource resource => extractTextFromResource codec resource.resource != ""
    | .image _ => true
    | _ => false

/-- The result that an empty tool result lacks. -/
def emptyToolResult (codec : TextCodec) : MessageContentBlock -> Option (ToolResponse × CallToolResult)
  | .toolResponse response =>
      match response.toolResult with
      | .ok result => if hasToolResultContent codec result.content then none else some (response, result)
      | .error _ => none
  | _ => none

def fixEmptyToolResult (codec : TextCodec) (block : MessageContentBlock) : MessageContentBlock :=
  match emptyToolResult codec block with
  | some (response, result) =>
      .toolResponse { response with
        toolResult := .ok { result with
          content := result.content ++ [.text ⟨"(empty result)", none⟩] } }
  | none => block

def fixEmptyToolResults (codec : TextCodec) : FixPass :=
  fixEachMessage
    (fun message => { message with content := message.content.map (fixEmptyToolResult codec) })
    (fun message => message.content.filterMap fun block =>
      (emptyToolResult codec block).map fun found =>
        "Added placeholder to empty tool result '" ++ found.1.id ++ "'")

/-! ## Tool calls and their answers -/

/-- Scan a block of a user message: why it is removed, if it is, and the
identifiers that are still pending after it. -/
def scanUserBlock (pending : Finset String) : MessageContentBlock -> Option String × Finset String
  | .toolRequest request =>
      (some ("Removed tool request '" ++ request.id ++ "' from user message"), pending)
  | .toolConfirmationRequest request =>
      (some ("Removed tool confirmation request '" ++ request.id ++ "' from user message"), pending)
  | .thinking _ | .redactedThinking _ => (some "Removed thinking content from user message", pending)
  | .toolResponse response =>
      if response.id ∈ pending then (none, pending.erase response.id)
      else (some ("Removed orphaned tool response '" ++ response.id ++ "'"), pending)
  | _ => (none, pending)

/-- Scan a block of an assistant message in the same way. -/
def scanAssistantBlock (pending : Finset String) : MessageContentBlock -> Option String × Finset String
  | .toolResponse response =>
      (some ("Removed tool response '" ++ response.id ++ "' from assistant message"), pending)
  | .toolRequest request => (none, insert request.id pending)
  | _ => (none, pending)

def scanBlock : Role -> Finset String -> MessageContentBlock -> Option String × Finset String
  | .user => scanUserBlock
  | .assistant => scanAssistantBlock

/-- What scanning leaves behind. -/
structure ToolScan (α : Type) where
  kept : List α
  issues : List String
  pending : Finset String

def scanContent (role : Role) (pending : Finset String) :
    List MessageContentBlock -> ToolScan MessageContentBlock
  | [] => ⟨[], [], pending⟩
  | block :: rest =>
      let scanned := scanBlock role pending block
      let later := scanContent role scanned.2 rest
      match scanned.1 with
      | some issue => { later with issues := issue :: later.issues }
      | none => { later with kept := block :: later.kept }

def scanMessages (pending : Finset String) : List Message -> ToolScan Message
  | [] => ⟨[], [], pending⟩
  | message :: rest =>
      let scanned := scanContent message.role pending message.content
      let later := scanMessages scanned.pending rest
      { kept := { message with content := scanned.kept } :: later.kept
        issues := scanned.issues ++ later.issues
        pending := later.pending }

/-- The request of a block that nothing answered. -/
def orphanedRequest (pending : Finset String) (block : MessageContentBlock) : Option ToolRequest :=
  block.asToolRequest.filter fun request => decide (request.id ∈ pending)

def dropOrphanedRequests (pending : Finset String) : FixPass :=
  fixEachMessage
    (fun message =>
      if message.role = .assistant then
        { message with content := message.content.filter fun block =>
            (orphanedRequest pending block).isNone }
      else message)
    (fun message =>
      if message.role = .assistant then
        message.content.filterMap fun block => (orphanedRequest pending block).map fun request =>
          "Removed orphaned tool request '" ++ request.id ++ "'"
      else [])

def fixToolCalling : FixPass :=
  fun messages =>
    let scan := scanMessages ∅ messages
    let dropped := dropOrphanedRequests scan.pending scan.kept
    let cleaned := removeEmptyMessages dropped.1
    (cleaned.1, scan.issues ++ dropped.2 ++ cleaned.2)

/-! ## Consecutive messages -/

inductive EffectiveRole where
  | user
  | assistant
  | tool
deriving DecidableEq, Repr

namespace EffectiveRole

def display : EffectiveRole -> String
  | user => "user"
  | assistant => "assistant"
  | tool => "tool"

end EffectiveRole

def hasToolResponse (message : Message) : Bool :=
  message.content.any fun block => block.asToolResponse.isSome

def effectiveRole (message : Message) : EffectiveRole :=
  if message.role = .user ∧ hasToolResponse message then .tool
  else
    match message.role with
    | .user => .user
    | .assistant => .assistant

/-- Whether a message is merged into the last one kept. -/
def mergesInto (acrossVisibility : Bool) (last message : Message) : Bool :=
  effectiveRole last == effectiveRole message &&
    (acrossVisibility ||
      (last.metadata.userVisible == message.metadata.userVisible &&
        last.metadata.turnContext == message.metadata.turnContext))

def mergeConsecutiveStep (acrossVisibility : Bool) (state : List Message × List String)
    (message : Message) : List Message × List String :=
  match state.1.getLast? with
  | some last =>
      if mergesInto acrossVisibility last message then
        (state.1.dropLast ++ [{ last with content := last.content ++ message.content }],
          state.2 ++ ["Merged consecutive " ++ (effectiveRole message).display ++ " messages"])
      else (state.1 ++ [message], state.2)
  | none => ([message], state.2)

def mergeConsecutive (acrossVisibility : Bool) : FixPass :=
  fun messages => messages.foldl (mergeConsecutiveStep acrossVisibility) ([], [])

/-- Merging that stops at visibility and turn-context boundaries, so that its
result may be persisted. -/
def mergeConsecutiveMessages : FixPass :=
  mergeConsecutive false

/-! ## Signed thinking -/

def isSignedThinking : MessageContentBlock -> Bool
  | .thinking content => content.signature != ""
  | .redactedThinking _ => true
  | _ => false

/-- Drop the signed blocks that were seen before, and extend what was seen. -/
def dedupeContent (seen : List MessageContentBlock) :
    List MessageContentBlock -> List MessageContentBlock × List MessageContentBlock
  | [] => ([], seen)
  | block :: rest =>
      if isSignedThinking block && seen.contains block then dedupeContent seen rest
      else
        let later := dedupeContent (if isSignedThinking block then seen ++ [block] else seen) rest
        (block :: later.1, later.2)

def dedupeFrom (seen : List MessageContentBlock) : FixPass
  | [] => ([], [])
  | message :: rest =>
      if message.role = .assistant then
        let deduped := dedupeContent seen message.content
        let later := dedupeFrom deduped.2 rest
        if deduped.1.length = message.content.length then (message :: later.1, later.2)
        else
          ({ message with content := deduped.1 } :: later.1,
            "Removed duplicate signed thinking block" :: later.2)
      else
        let later := dedupeFrom seen rest
        (message :: later.1, later.2)

/-- Keep the first of equal signed blocks across the whole conversation. -/
def dedupeSignedThinking : FixPass :=
  dedupeFrom []

/-! ## Ends of the conversation -/

def fixLead : FixPass
  | first :: rest =>
      if first.role = .assistant then (rest, ["Removed leading assistant message"]) else (first :: rest, [])
  | [] => ([], [])

def fixTrail : FixPass :=
  fun messages =>
    match messages.getLast? with
    | some last =>
        if last.role = .assistant then (messages.dropLast, ["Removed trailing assistant message"])
        else (messages, [])
    | none => (messages, [])

def fixLeadTrail : FixPass :=
  fun messages =>
    let lead := fixLead messages
    let trail := fixTrail lead.1
    (trail.1, lead.2 ++ trail.2)

def placeholderUserMessage : String := "Hello"

def populateIfEmpty (codec : TextCodec) (now : Int) : FixPass :=
  fun messages =>
    if messages.isEmpty then
      (messages ++ [(Message.user now).withText codec placeholderUserMessage],
        ["Added placeholder user message to empty conversation"])
    else (messages, [])

/-! ## The whole repair -/

def fixPasses (codec : TextCodec) (now : Int) : List FixPass :=
  [mergeTextContentItems, trimAssistantTextWhitespace, removeEmptyMessages, fixEmptyToolResults codec,
    fixToolCalling, mergeConsecutiveMessages, dedupeSignedThinking, fixLeadTrail,
    populateIfEmpty codec now]

def fixMessages (codec : TextCodec) (now : Int) : FixPass :=
  Pass.run (fixPasses codec now)

/-- A place in the conversation: of a visible message, by its number among
these, or of a message that passes through unchanged. -/
inductive MessageSlot where
  | visible (index : Nat)
  | nonVisible (message : Message)

/-- The slots of a conversation whose visible messages are numbered from `next`. -/
def shadowMap (next : Nat) : List Message -> List MessageSlot
  | [] => []
  | message :: rest =>
      if message.isAgentVisible then .visible next :: shadowMap (next + 1) rest
      else .nonVisible message :: shadowMap next rest

def fillSlot (fixedVisible : List Message) : MessageSlot -> Option Message
  | .visible index => fixedVisible[index]?
  | .nonVisible message => some message

/-- The messages that the agent sees. -/
def Conversation.visible (conversation : Conversation) : List Message :=
  conversation.messages.filter Message.isAgentVisible

/-- The messages that the agent does not see. -/
def Conversation.hidden (conversation : Conversation) : List Message :=
  conversation.messages.filter fun message => !message.isAgentVisible

/-- Fix a conversation that is about to be sent to a model. -/
def fixConversation (codec : TextCodec) (now : Int) (conversation : Conversation) :
    Conversation × List String :=
  let fixed := fixMessages codec now conversation.visible
  (⟨(shadowMap 0 conversation.messages).filterMap (fillSlot fixed.1)⟩, fixed.2)

end AIBuddy
