import AIBuddy.Support.CallOrder
import AIBuddy.Provider.OpenAiFormat
import AIBuddy.Provider.AnthropicFormat
import AIBuddy.Provider.ResponsesFormat
import AIBuddy.Provider.GoogleFormat

namespace AIBuddy
namespace CallReplay

/-!
# Calls and results in provider requests

A provider accepts a request only if every call in it has one result, behind it, and
every result a call.  For a conversation whose calls are answered once, this asks of a
request format that it writes one call item for every tool request, under its
identifier, and one result item for its response.  A call that could not be read is
where the formats differ.
-/

open CallEvent CallLedger

/-! ## Conversations -/

/-- The requests and responses of a message, in order. -/
def blockExchange : MessageContentBlock -> Option (CallEvent String)
  | .toolRequest call => some (request call.id)
  | .toolResponse answer => some (response answer.id)
  | _ => none

def exchange (messages : List Message) : List (CallEvent String) :=
  messages.flatMap fun message => message.content.filterMap blockExchange

/-- The requests of a conversation. -/
def requests (messages : List Message) : List ToolRequest :=
  messages.flatMap fun message => message.content.filterMap MessageContentBlock.asToolRequest

/-- The agent sees every message, requests are the assistant's, and every one has its
own identifier and one response, behind it. -/
structure Paired (messages : List Message) : Prop where
  visible : forall message, message ∈ messages -> message.isAgentVisible = true
  byAssistant : forall message, message ∈ messages -> forall call,
    MessageContentBlock.toolRequest call ∈ message.content -> message.role = .assistant
  answered : forall id, id ∈ requestIds (exchange messages) -> history id (exchange messages) = [true, false]

/-- The call items are those of the requests, one for each, and behind it there is the
one result item with its identifier. -/
def Replays (messages : List Message) (items : List (CallEvent String)) : Prop :=
  requestIds items = (requests messages).map ToolRequest.id ∧
    forall call, call ∈ requests messages -> history call.id items = [true, false]

/-- A call that was read. -/
def WasRead (call : ToolRequest) : Prop :=
  call.toolCall.toOption.isSome = true

/-- What the metadata of a request puts in place of its identifier.  Metadata has one
entry for a key, so that the last one is the only one. -/
def overridingId (call : ToolRequest) : Option Json :=
  (call.metadata.getD []).reverse.lookup "id"

/-- The metadata leaves the identifier alone. -/
def KeepsId (call : ToolRequest) : Prop :=
  forall value, overridingId call = some value -> value = .string call.id

/-! ## What a format carries over -/

theorem filterMap_eq_map_iff {α β : Type} (view : α -> Option β) (label : α -> β) (items : List α) :
    items.filterMap view = items.map label ↔ forall item, item ∈ items -> view item = some (label item) := by
  induction items with
  | nil => exact ⟨fun _ _ member => absurd member List.not_mem_nil, fun _ => rfl⟩
  | cons first rest ih =>
      rw [List.filterMap_cons, List.map_cons, List.forall_mem_cons]
      cases viewed : view first with
      | none =>
          constructor
          · intro same
            have tail : rest.filterMap view = label first :: rest.map label := same
            have short := List.length_filterMap_le view rest
            rw [tail, List.length_cons, List.length_map] at short
            omega
          · rintro ⟨impossible, _⟩
            cases impossible
      | some value =>
          rw [List.cons_eq_cons, ih, Option.some_inj]

theorem requestIds_blocks (blocks : List MessageContentBlock) :
    requestIds (blocks.filterMap blockExchange) =
      (blocks.filterMap MessageContentBlock.asToolRequest).map ToolRequest.id := by
  rw [requestIds, List.filterMap_filterMap, List.map_filterMap]
  congr 1
  funext block
  cases block <;> rfl

theorem requestIds_exchange (messages : List Message) :
    requestIds (exchange messages) = (requests messages).map ToolRequest.id := by
  induction messages with
  | nil => rfl
  | cons message rest ih =>
      rw [exchange, List.flatMap_cons, requestIds_append, requestIds_blocks, requests, List.flatMap_cons,
        List.map_append]
      exact congrArg _ ih

theorem Paired.history_eq {messages : List Message} (paired : Paired messages) {call : ToolRequest}
    (member : call ∈ requests messages) : history call.id (exchange messages) = [true, false] := by
  apply paired.answered
  rw [requestIds_exchange]
  exact List.mem_map_of_mem member

theorem replays_iff_carried {messages : List Message} (paired : Paired messages) {items : List (CallEvent String)}
    {carried : ToolRequest -> Option String} (ids : requestIds items = (requests messages).filterMap carried)
    (moved : (forall call, call ∈ requests messages -> carried call = some call.id) ->
      Hoists (exchange messages) items) :
    Replays messages items ↔ forall call, call ∈ requests messages -> carried call = some call.id := by
  rw [Replays, ids, filterMap_eq_map_iff]
  constructor
  · exact And.left
  · intro kept
    exact ⟨kept, fun call member => (moved kept).history_eq (paired.history_eq member)⟩

/-! ## Anthropic -/

def anthropicItem (marked : Anthropic.MarkedBlock) : Option (CallEvent String) :=
  match marked.block with
  | .toolUse id _ _ => some (request id)
  | .toolResult toolUseId _ _ => some (response toolUseId)
  | _ => none

def anthropicMessageItems (message : Anthropic.SpecMessage) : List (CallEvent String) :=
  message.content.filterMap anthropicItem

/-- The call and result items of an Anthropic request. -/
def anthropicItems (messages : List Anthropic.SpecMessage) : List (CallEvent String) :=
  messages.flatMap anthropicMessageItems

theorem anthropicItems_block (env : FormatEnv) (options : Anthropic.FormatOptions) (role : Role) (isStale : Bool)
    (block : MessageContentBlock) :
    ((Anthropic.formatBlock env options role isStale block).map fun block => ⟨block, none⟩).filterMap anthropicItem =
      (blockExchange block).toList := by
  cases block with
  | toolRequest call =>
      rw [Anthropic.formatBlock, Anthropic.toolUseBlock]
      cases call.toolCall <;> rfl
  | toolResponse answer =>
      rw [Anthropic.formatBlock, Anthropic.toolResultBlock]
      cases answer.toolResult <;> rfl
  | text content =>
      rw [Anthropic.formatBlock]
      split <;> rfl
  | thinking content =>
      rw [Anthropic.formatBlock, Anthropic.thinkingBlocks]
      repeat' split
      all_goals rfl
  | redactedThinking data =>
      rw [Anthropic.formatBlock]
      split <;> rfl
  | document document =>
      rw [Anthropic.formatBlock, Anthropic.documentBlock]
      repeat' split
      all_goals rfl
  | image _ | toolConfirmationRequest _ | actionRequired _ | systemNotification _ | error _ => rfl

theorem anthropicMessage_items (env : FormatEnv) (options : Anthropic.FormatOptions) (message : Message) :
    (Anthropic.formatMessage env options message).toList.flatMap anthropicMessageItems =
      message.content.filterMap blockExchange := by
  have blocks : forall content : List MessageContentBlock,
      ((content.flatMap (Anthropic.formatBlock env options message.role
        (Anthropic.thinkingBlockIsStale message options.currentModel))).map fun block => ⟨block, none⟩).filterMap
          anthropicItem = content.filterMap blockExchange := by
    intro content
    induction content with
    | nil => rfl
    | cons block rest ih =>
        rw [List.flatMap_cons, List.map_append, List.filterMap_append, ih, anthropicItems_block,
          List.filterMap_cons]
        cases blockExchange block <;> rfl
  have whole := blocks message.content
  rw [Anthropic.formatMessage]
  by_cases silent : message.content.flatMap (Anthropic.formatBlock env options message.role
      (Anthropic.thinkingBlockIsStale message options.currentModel)) = []
  · rw [silent] at whole
    rw [if_pos silent]
    exact whole
  · rw [if_neg silent, Option.toList_some, List.flatMap_singleton]
    exact whole

theorem anthropicItems_filterMap (env : FormatEnv) (options : Anthropic.FormatOptions) (messages : List Message) :
    anthropicItems (messages.filterMap (Anthropic.formatMessage env options)) = exchange messages := by
  induction messages with
  | nil => rfl
  | cons message rest ih =>
      have first := anthropicMessage_items env options message
      rw [exchange, List.flatMap_cons, ← first, List.filterMap_cons]
      rw [exchange] at ih
      rw [← ih]
      cases Anthropic.formatMessage env options message with
      | none => rfl
      | some formatted => rw [Option.toList_some, List.flatMap_singleton]; rfl

theorem markLast_items (control : Json) (content : List Anthropic.MarkedBlock) :
    (Anthropic.markLast control content).filterMap anthropicItem = content.filterMap anthropicItem := by
  rw [Anthropic.markLast]
  split
  · rename_i last found
    rcases List.getLast?_eq_some_iff.mp found with ⟨front, rfl⟩
    rw [List.dropLast_concat, List.filterMap_append, List.filterMap_append]
    rfl
  · rfl

theorem markUsers_items (control : Json) (count : Nat) (messages : List Anthropic.SpecMessage) :
    (Anthropic.markUsers control count messages).map anthropicMessageItems =
      messages.map anthropicMessageItems := by
  induction messages generalizing count with
  | nil => cases count <;> rfl
  | cons message rest ih =>
      cases count with
      | zero => rfl
      | succ count =>
          rw [Anthropic.markUsers]
          split
          · rw [List.map_cons, List.map_cons, ih, anthropicMessageItems, markLast_items]
            rfl
          · rw [List.map_cons, List.map_cons, ih]

/-- An Anthropic request has the calls and results of the conversation, in order. -/
theorem anthropicItems_eq (env : FormatEnv) (messages : List Message) (options : Anthropic.FormatOptions) :
    anthropicItems (Anthropic.formatMessagesWithOptions env messages options) = exchange messages := by
  have formatted : anthropicItems (if messages.filterMap (Anthropic.formatMessage env options) = [] then
      [Anthropic.ignoreMessage] else messages.filterMap (Anthropic.formatMessage env options)) =
        exchange messages := by
    rw [← anthropicItems_filterMap env options messages]
    split
    · rename_i silent
      rw [silent]
      rfl
    · rfl
  rw [Anthropic.formatMessagesWithOptions]
  split
  · exact formatted
  · rw [anthropicItems, List.flatMap_def, List.map_reverse, markUsers_items, List.map_reverse, List.reverse_reverse,
      ← List.flatMap_def]
    exact formatted

theorem anthropic_replays {messages : List Message} (paired : Paired messages) (env : FormatEnv)
    (options : Anthropic.FormatOptions) :
    Replays messages (anthropicItems (Anthropic.formatMessagesWithOptions env messages options)) := by
  rw [anthropicItems_eq]
  exact ⟨requestIds_exchange messages, fun _ member => paired.history_eq member⟩

/-! ## Responses -/

def responsesItem : Responses.InputItem -> Option (CallEvent String)
  | .message .. => none
  | .functionCall callId .. => some (request callId)
  | .functionCallOutput callId _ => some (response callId)

/-- The call and result items of a Responses request. -/
def responsesItems (items : List Responses.InputItem) : List (CallEvent String) :=
  items.filterMap responsesItem

/-- The identifier of a call that was read. -/
def readId (call : ToolRequest) : Option String :=
  call.toolCall.toOption.map fun _ => call.id

theorem readId_eq_some_iff (call : ToolRequest) : readId call = some call.id ↔ WasRead call := by
  rw [readId, WasRead]
  cases call.toolCall.toOption with
  | none => exact iff_of_false (fun same => by cases same) (fun same => by cases same)
  | some _ => exact ⟨fun _ => rfl, fun _ => rfl⟩

/-- The requests and responses of a message, with the requests that were not read as
responses. -/
def outputExchange : MessageContentBlock -> Option (CallEvent String)
  | .toolRequest call => some (if call.toolCall.toOption.isSome then request call.id else response call.id)
  | .toolResponse answer => some (response answer.id)
  | _ => none

theorem responsesItem_ownItem (env : FormatEnv) (supportsVision : Bool) {role : Role} {block : MessageContentBlock}
    (byAssistant : forall call, block = .toolRequest call -> role = .assistant) :
    (Responses.ownItem env supportsVision role block).bind responsesItem = outputExchange block := by
  cases block with
  | toolRequest call =>
      rw [Responses.ownItem, if_pos (byAssistant call rfl), Responses.requestItem, outputExchange]
      cases call.toolCall <;> rfl
  | toolResponse answer =>
      rw [Responses.ownItem, Responses.responseItem]
      cases answer.toolResult <;> rfl
  | text _ | image _ | document _ | toolConfirmationRequest _ | actionRequired _ | thinking _ | redactedThinking _
  | systemNotification _ | error _ => rfl

theorem responsesItems_flushTexts (role : Role) (texts : List Json) :
    responsesItems (Responses.flushTexts role texts) = [] := by
  rw [Responses.flushTexts]
  split <;> rfl

theorem responsesItems_blocks (env : FormatEnv) (supportsVision : Bool) {role : Role}
    {blocks : List MessageContentBlock}
    (byAssistant : forall call, MessageContentBlock.toolRequest call ∈ blocks -> role = .assistant)
    (texts : List Json) :
    responsesItems (Responses.blockItems env supportsVision role texts blocks) = blocks.filterMap outputExchange := by
  induction blocks generalizing texts with
  | nil => exact responsesItems_flushTexts role texts
  | cons block rest ih =>
      have later := ih fun call member => byAssistant call (List.mem_cons_of_mem _ member)
      have own := responsesItem_ownItem env supportsVision
        fun call same => byAssistant call (List.mem_cons.mpr (Or.inl same.symm))
      rw [Responses.blockItems, List.filterMap_cons, ← own]
      cases Responses.ownItem env supportsVision role block with
      | none => exact later _
      | some item =>
          have front := responsesItems_flushTexts role texts
          rw [responsesItems] at front ⊢
          rw [List.filterMap_append, front, List.nil_append, List.filterMap_cons, Option.bind_some, ← responsesItems,
            later]

theorem responsesItems_eq {messages : List Message} (paired : Paired messages) (env : FormatEnv)
    (supportsVision : Bool) :
    responsesItems (Responses.addMessageItems env messages supportsVision) =
      messages.flatMap fun message => message.content.filterMap outputExchange := by
  have visible : messages.filter Message.isAgentVisible = messages :=
    List.filter_eq_self.mpr paired.visible
  rw [Responses.addMessageItems, visible, responsesItems, List.filterMap_flatMap]
  apply List.flatMap_congr
  intro message member
  exact responsesItems_blocks env supportsVision (paired.byAssistant message member) []

theorem requestIds_outputExchange (messages : List Message) :
    requestIds (messages.flatMap fun message => message.content.filterMap outputExchange) =
      (requests messages).filterMap readId := by
  rw [requestIds, List.filterMap_flatMap, requests, List.filterMap_flatMap]
  congr 1
  funext message
  rw [List.filterMap_filterMap, List.filterMap_filterMap]
  congr 1
  funext block
  cases block with
  | toolRequest call =>
      rw [outputExchange, MessageContentBlock.asToolRequest, Option.bind_some, Option.bind_some, readId]
      cases call.toolCall.toOption <;> rfl
  | toolResponse _ | text _ | image _ | document _ | toolConfirmationRequest _ | actionRequired _ | thinking _
  | redactedThinking _ | systemNotification _ | error _ => rfl

theorem flatMap_eq_exchange {messages : List Message} (view : MessageContentBlock -> Option (CallEvent String))
    (same : forall block, (forall call, block = .toolRequest call -> WasRead call) -> view block = blockExchange block)
    (read : forall call, call ∈ requests messages -> WasRead call) :
    (messages.flatMap fun message => message.content.filterMap view) = exchange messages := by
  apply List.flatMap_congr
  intro message member
  apply List.filterMap_congr
  intro block inside
  apply same
  rintro call rfl
  exact read call (List.mem_flatMap.mpr ⟨message, member, List.mem_filterMap.mpr ⟨_, inside, rfl⟩⟩)

theorem outputExchange_eq {block : MessageContentBlock}
    (read : forall call, block = .toolRequest call -> WasRead call) : outputExchange block = blockExchange block := by
  cases block with
  | toolRequest call => exact congrArg some (if_pos (read call rfl))
  | toolResponse _ | text _ | image _ | document _ | toolConfirmationRequest _ | actionRequired _ | thinking _
  | redactedThinking _ | systemNotification _ | error _ => rfl

theorem forall_readId_iff (messages : List Message) :
    (forall call, call ∈ requests messages -> readId call = some call.id) ↔
      forall call, call ∈ requests messages -> WasRead call :=
  forall₂_congr fun call _ => readId_eq_some_iff call

theorem responses_replays_iff {messages : List Message} (paired : Paired messages) (env : FormatEnv)
    (supportsVision : Bool) :
    Replays messages (responsesItems (Responses.addMessageItems env messages supportsVision)) ↔
      forall call, call ∈ requests messages -> WasRead call := by
  rw [responsesItems_eq paired, ← forall_readId_iff]
  apply replays_iff_carried paired (requestIds_outputExchange messages)
  intro read
  apply Hoists.of_eq
  exact (flatMap_eq_exchange outputExchange (fun _ => outputExchange_eq) ((forall_readId_iff messages).mp read)).symm

/-! ## Google -/

def googlePart : Google.SpecPart -> Option (CallEvent String)
  | .functionCall id .. => some (request id)
  | .functionResponse id .. => some (response id)
  | .text _ | .inlineData .. => none

/-- The call and result parts of a Google request. -/
def googleItems (messages : List Google.SpecMessage) : List (CallEvent String) :=
  messages.flatMap fun message => message.parts.filterMap googlePart

/-- The requests and responses of a message without the requests that were not read. -/
def readExchange : MessageContentBlock -> Option (CallEvent String)
  | .toolRequest call => (readId call).map request
  | .toolResponse answer => some (response answer.id)
  | _ => none

theorem googlePart_requestPart (env : FormatEnv) (includeSignature needsSynthetic : Bool) (call : ToolRequest) :
    googlePart (Google.requestPart env includeSignature needsSynthetic call) = (readId call).map request := by
  rw [Google.requestPart, readId]
  cases call.toolCall <;> rfl

theorem googlePart_responseParts (env : FormatEnv) (nestedMedia includeSignature : Bool) (name : String)
    (answer : ToolResponse) :
    (Google.responseParts env nestedMedia includeSignature name answer).filterMap googlePart =
      [response answer.id] := by
  have media : forall items : List (String × String),
      (items.map fun item => Google.SpecPart.inlineData item.1 item.2).filterMap googlePart = [] := by
    intro items
    rw [List.filterMap_map]
    exact List.filterMap_none items
  cases result : answer.toolResult with
  | error error =>
      simp only [Google.responseParts, result]
      rfl
  | ok contents =>
      simp only [Google.responseParts, result]
      split
      · rfl
      · rw [List.filterMap_append, media]
        rfl

theorem googlePart_blockParts (env : FormatEnv) (nestedMedia includeSignature : Bool)
    (names : String -> Option String) (needsSynthetic : Bool) (blocks : List MessageContentBlock) :
    (Google.blockParts env nestedMedia includeSignature names needsSynthetic blocks).filterMap googlePart =
      blocks.filterMap readExchange := by
  induction blocks generalizing needsSynthetic with
  | nil => rfl
  | cons block rest ih =>
      rw [List.filterMap_cons]
      cases block with
      | toolRequest call =>
          rw [Google.blockParts, List.filterMap_cons, googlePart_requestPart, ih]
          rfl
      | toolResponse answer =>
          rw [Google.blockParts, List.filterMap_append, googlePart_responseParts, ih]
          rfl
      | text content =>
          rw [Google.blockParts, List.filterMap_append, ih]
          split <;> rfl
      | document document =>
          have part : googlePart (Google.documentPart document) = none := by
            rw [Google.documentPart]
            split <;> rfl
          rw [Google.blockParts, List.filterMap_cons, part]
          exact ih _
      | image _ | toolConfirmationRequest _ | actionRequired _ | thinking _ | redactedThinking _
      | systemNotification _ | error _ => exact ih _

theorem googleItems_formatMessage (env : FormatEnv) (nestedMedia includeSignature : Bool)
    (names : String -> Option String) (message : Message) :
    googleItems (Google.formatMessage env nestedMedia includeSignature names message).toList =
      message.content.filterMap readExchange := by
  rw [Google.formatMessage, ← googlePart_blockParts env nestedMedia includeSignature names
    (includeSignature && message.role != .user)]
  split
  · rename_i silent
    rw [silent]
    rfl
  · rw [Option.toList_some, googleItems, List.flatMap_singleton]

/-- Messages that are left out have no calls or results. -/
theorem readExchange_filtered {messages : List Message} (paired : Paired messages) :
    ((Google.filtered messages).flatMap fun message => message.content.filterMap readExchange) =
      messages.flatMap fun message => message.content.filterMap readExchange := by
  have visible : messages.filter Message.isAgentVisible = messages :=
    List.filter_eq_self.mpr paired.visible
  rw [Google.filtered, visible]
  clear visible paired
  induction messages with
  | nil => rfl
  | cons message rest ih =>
      rw [List.filter_cons, List.flatMap_cons, ← ih]
      split
      · rfl
      · rename_i empty
        have silent : message.content.filterMap readExchange = [] := by
          rw [List.filterMap_eq_nil_iff]
          intro block member
          rw [Google.hasContent, List.any_eq_true] at empty
          cases block with
          | toolRequest _ | toolResponse _ => exact absurd ⟨_, member, rfl⟩ empty
          | text _ | image _ | document _ | toolConfirmationRequest _ | actionRequired _ | thinking _
          | redactedThinking _ | systemNotification _ | error _ => rfl
        rw [silent, List.nil_append]

theorem googleItems_zipIdx (env : FormatEnv) (nestedMedia : Bool) (names : String -> Option String)
    (includes : Nat -> Bool) (messages : List Message) (start : Nat) :
    googleItems ((messages.zipIdx start).filterMap fun entry =>
        Google.formatMessage env nestedMedia (includes entry.2) names entry.1) =
      messages.flatMap fun message => message.content.filterMap readExchange := by
  induction messages generalizing start with
  | nil => rfl
  | cons message rest ih =>
      have first := googleItems_formatMessage env nestedMedia (includes start) names message
      rw [List.zipIdx_cons, List.filterMap_cons, List.flatMap_cons, ← ih (start + 1), ← first]
      cases Google.formatMessage env nestedMedia (includes start) names message with
      | none => rfl
      | some formatted =>
          simp only [googleItems, Option.toList_some, List.flatMap_cons, List.flatMap_nil, List.append_nil]

theorem requestIds_readExchange (messages : List Message) :
    requestIds (messages.flatMap fun message => message.content.filterMap readExchange) =
      (requests messages).filterMap readId := by
  rw [requestIds, List.filterMap_flatMap, requests, List.filterMap_flatMap]
  congr 1
  funext message
  rw [List.filterMap_filterMap, List.filterMap_filterMap]
  congr 1
  funext block
  cases block with
  | toolRequest call =>
      rw [readExchange, MessageContentBlock.asToolRequest, Option.bind_some]
      cases readId call <;> rfl
  | toolResponse _ | text _ | image _ | document _ | toolConfirmationRequest _ | actionRequired _ | thinking _
  | redactedThinking _ | systemNotification _ | error _ => rfl

theorem readExchange_eq {block : MessageContentBlock}
    (read : forall call, block = .toolRequest call -> WasRead call) : readExchange block = blockExchange block := by
  cases block with
  | toolRequest call => rw [readExchange, (readId_eq_some_iff call).mpr (read call rfl)]; rfl
  | toolResponse _ | text _ | image _ | document _ | toolConfirmationRequest _ | actionRequired _ | thinking _
  | redactedThinking _ | systemNotification _ | error _ => rfl

theorem google_replays_iff {messages : List Message} (paired : Paired messages) (env : FormatEnv)
    (nestedMedia : Bool) :
    Replays messages (googleItems (Google.formatMessages env messages nestedMedia)) ↔
      forall call, call ∈ requests messages -> WasRead call := by
  have items : googleItems (Google.formatMessages env messages nestedMedia) =
      messages.flatMap fun message => message.content.filterMap readExchange := by
    rw [← readExchange_filtered paired]
    exact googleItems_zipIdx env nestedMedia (Google.toolName (Google.filtered messages))
      (fun index => (Google.lastIndexOf Google.isUserLoopBoundary (Google.filtered messages)).all
        fun start => decide (start ≤ index)) (Google.filtered messages) 0
  rw [items, ← forall_readId_iff]
  apply replays_iff_carried paired (requestIds_readExchange messages)
  intro read
  apply Hoists.of_eq
  exact (flatMap_eq_exchange readExchange (fun _ => readExchange_eq) ((forall_readId_iff messages).mp read)).symm

end CallReplay
end AIBuddy
