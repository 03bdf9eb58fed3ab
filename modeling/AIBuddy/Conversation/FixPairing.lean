import AIBuddy.Conversation.FixVisibility
import AIBuddy.Support.CallLedger

namespace AIBuddy

open CallEvent CallLedger

/-!
# Pairing of tool calls

The requests of assistant messages and the responses of user messages form a
transcript of calls.  Every pass but two leaves this transcript alone: the
pairing pass is the ledger pass over it, and the pass over the ends removes
whole messages.  Reusing an identifier after it was answered is the one thing
the ledger pass does not sort out.
-/

/-! ## The transcript of a conversation -/

/-- The call event of a block, when it stands in a message of the right role. -/
def blockEvent : Role -> MessageContentBlock -> Option (CallEvent String)
  | .assistant, .toolRequest call => some (.request call.id)
  | .user, .toolResponse answer => some (.response answer.id)
  | _, _ => none

def messageEvents (message : Message) : List (CallEvent String) :=
  message.content.filterMap (blockEvent message.role)

/-- Requests of assistant messages and responses of user messages, in order. -/
def callEvents (messages : List Message) : List (CallEvent String) :=
  messages.flatMap messageEvents

@[simp] theorem callEvents_nil : callEvents [] = [] := rfl

@[simp] theorem callEvents_cons (message : Message) (rest : List Message) :
    callEvents (message :: rest) = messageEvents message ++ callEvents rest := rfl

@[simp] theorem callEvents_append (front back : List Message) :
    callEvents (front ++ back) = callEvents front ++ callEvents back :=
  List.flatMap_append

/-- A tool request or response with the role of its message. -/
def blockSite (role : Role) : MessageContentBlock -> Option (Role × CallEvent String)
  | .toolRequest call => some (role, .request call.id)
  | .toolResponse answer => some (role, .response answer.id)
  | _ => none

/-- Every tool request and response, wherever it stands. -/
def callSites (messages : List Message) : List (Role × CallEvent String) :=
  messages.flatMap fun message => message.content.filterMap (blockSite message.role)

/-- Every request sits in an assistant message and is followed by exactly one
response with its identifier, which sits in a user message; every response is
preceded by a request with its identifier. -/
def CallsPaired (messages : List Message) : Prop :=
  (forall before role id after, callSites messages = before ++ (role, request id) :: after ->
    role = .assistant ∧ after.filter (fun site => site.2 = response id) = [(.user, response id)]) ∧
    forall before role id after, callSites messages = before ++ (role, response id) :: after ->
      Exists fun requester => (requester, request id) ∈ before

/-! ## Passes that leave the transcript alone -/

theorem callEvents_fixEachMessage {repair : Message -> Message} {issues : Message -> List String}
    (kept : forall message, messageEvents (repair message) = messageEvents message)
    (messages : List Message) :
    callEvents (fixEachMessage repair issues messages).1 = callEvents messages := by
  simp [callEvents, fixEachMessage, List.flatMap_map, kept]

theorem filterMap_blockEvent_collect (role : Role) (content : List MessageContentBlock) :
    (textJoining.collect content).filterMap (blockEvent role) = content.filterMap (blockEvent role) := by
  have parts : forall blocks : List MessageContentBlock,
      blocks.filterMap (blockEvent role) = blocks.flatMap fun block => (blockEvent role block).toList := by
    intro blocks
    induction blocks with
    | nil => rfl
    | cons block rest ih =>
        cases event : blockEvent role block <;> simp [event, ih]
  rw [parts, parts]
  apply textJoining.flatMap_collect
  intro first second joined
  rcases (textJoining.joins_iff first second).mp joined with ⟨key, firstKey, secondKey⟩
  cases first <;> cases second <;> cases role <;>
    simp [textJoining, blockEvent] at firstKey secondKey ⊢

theorem messageEvents_mergeTextContent (message : Message) :
    messageEvents (mergeTextContentInMessage message) = messageEvents message := by
  rw [mergeTextContentInMessage]
  split
  · rw [messageEvents, mergeTextContent_eq]
    exact filterMap_blockEvent_collect message.role message.content
  · rfl

theorem blockEvent_trimTextBlock (role : Role) (block : MessageContentBlock) :
    blockEvent role (trimTextBlock block) = blockEvent role block := by
  cases role <;> cases block <;> rfl

theorem blockEvent_fixEmptyToolResult (codec : TextCodec) (role : Role) (block : MessageContentBlock) :
    blockEvent role (fixEmptyToolResult codec block) = blockEvent role block := by
  rcases fixEmptyToolResult_cases codec block with same | ⟨before, after, rfl, fixed, sameId⟩
  · rw [same]
  · rw [fixed]
    cases role <;> simp [blockEvent, sameId]

theorem messageEvents_of_isEmptyMessage (message : Message) (empty : isEmptyMessage message = true) :
    messageEvents message = [] := by
  rw [messageEvents, List.filterMap_eq_nil_iff]
  intro block member
  have blank := List.all_eq_true.mp empty block member
  cases block with
  | text content => cases message.role <;> rfl
  | _ => simp [MessageContentBlock.asText] at blank

theorem callEvents_removeEmptyMessages (messages : List Message) :
    callEvents (removeEmptyMessages messages).1 = callEvents messages := by
  induction messages with
  | nil => rfl
  | cons message rest ih =>
      simp only [removeEmptyMessages] at ih
      cases empty : isEmptyMessage message with
      | false => simp [removeEmptyMessages, empty, ih]
      | true =>
          simp [removeEmptyMessages, empty, ih, messageEvents_of_isEmptyMessage message empty]

theorem messageEvents_trimTextBlock (message : Message) :
    messageEvents { message with content := message.content.map trimTextBlock } = messageEvents message := by
  simp [messageEvents, List.filterMap_map, blockEvent_trimTextBlock]

theorem messageEvents_fixEmptyToolResult (codec : TextCodec) (message : Message) :
    messageEvents { message with content := message.content.map (fixEmptyToolResult codec) } =
      messageEvents message := by
  simp [messageEvents, List.filterMap_map, blockEvent_fixEmptyToolResult]

theorem callEvents_preparedMessages (codec : TextCodec) (messages : List Message) :
    callEvents (preparedMessages codec messages) = callEvents messages := by
  rw [preparedMessages, fixEmptyToolResults, callEvents_fixEachMessage (messageEvents_fixEmptyToolResult codec),
    callEvents_removeEmptyMessages, trimAssistantTextWhitespace, callEvents_fixEachMessage,
    mergeTextContentItems, callEvents_fixEachMessage messageEvents_mergeTextContent]
  intro message
  split
  · exact messageEvents_trimTextBlock message
  · rfl

theorem callEvents_mergeConsecutive (messages : List Message) :
    callEvents (mergeConsecutiveMessages messages).1 = callEvents messages := by
  rw [mergeConsecutiveMessages_fst]
  apply messageJoining.flatMap_collect
  intro first second joined
  have sameRole := role_eq_of_joins joined
  simp [messageEvents, messageJoining, appendContent, sameRole]

theorem filterMap_dedupeContent {β : Type} (view : MessageContentBlock -> Option β)
    (unsigned : forall block, isSignedThinking block = true -> view block = none)
    (seen content : List MessageContentBlock) :
    (dedupeContent seen content).1.filterMap view = content.filterMap view := by
  induction content generalizing seen with
  | nil => rfl
  | cons block rest ih =>
      rw [dedupeContent]
      split
      · rename_i dropped
        have signed := (Bool.and_eq_true_iff.mp dropped).1
        rw [ih, List.filterMap_cons, unsigned block signed]
      · simp only [List.filterMap_cons, ih]

theorem callEvents_dedupeFrom (seen : List MessageContentBlock) (messages : List Message) :
    callEvents (dedupeFrom seen messages).1 = callEvents messages := by
  induction messages generalizing seen with
  | nil => rfl
  | cons message rest ih =>
      rw [dedupeFrom]
      split
      · simp only
        split
        · simp [ih]
        · have same := filterMap_dedupeContent (blockEvent message.role)
            (fun block signed => by cases message.role <;> cases block <;> first | rfl | simp [isSignedThinking] at signed)
            seen message.content
          simp [ih, messageEvents, same]
      · simp [ih]

/-! ## The pairing pass -/

theorem scanBlock_pending (role : Role) (pending : Finset String) (block : MessageContentBlock) :
    (scanBlock role pending block).2 = ((blockEvent role block).toList).foldl record pending := by
  cases role with
  | assistant => cases block <;> rfl
  | user =>
      cases block with
      | toolResponse answer =>
          by_cases member : answer.id ∈ pending <;>
            simp [scanBlock, scanUserBlock, blockEvent, record, member]
      | _ => rfl

theorem scanBlock_event (role : Role) (pending : Finset String) (block : MessageContentBlock) :
    settle (fun _ => false) pending (blockEvent role block).toList =
      if (scanBlock role pending block).1.isSome then [] else (blockEvent role block).toList := by
  cases role with
  | assistant => cases block <;> rfl
  | user =>
      cases block with
      | toolResponse answer =>
          by_cases member : answer.id ∈ pending <;>
            simp [scanBlock, scanUserBlock, blockEvent, settle, member]
      | _ => rfl

theorem scanContent_pending (role : Role) (pending : Finset String) (content : List MessageContentBlock) :
    (scanContent role pending content).pending =
      (content.filterMap (blockEvent role)).foldl record pending := by
  induction content generalizing pending with
  | nil => rfl
  | cons block rest ih =>
      have stepPending := scanBlock_pending role pending block
      have both : (scanContent role pending (block :: rest)).pending =
          (scanContent role (scanBlock role pending block).2 rest).pending := by
        rw [scanContent]
        cases (scanBlock role pending block).1 <;> rfl
      rw [both, ih, stepPending]
      cases event : blockEvent role block <;> simp [event]

theorem scanContent_events (role : Role) (pending : Finset String) (content : List MessageContentBlock) :
    (scanContent role pending content).kept.filterMap (blockEvent role) =
      settle (fun _ => false) pending (content.filterMap (blockEvent role)) := by
  induction content generalizing pending with
  | nil => rfl
  | cons block rest ih =>
      have split : (block :: rest).filterMap (blockEvent role) =
          (blockEvent role block).toList ++ rest.filterMap (blockEvent role) := by
        cases event : blockEvent role block <;> simp [event]
      rw [split, settle_append, scanBlock_event, ← scanBlock_pending, ← ih, scanContent]
      cases verdict : (scanBlock role pending block).1 with
      | some issue => simp
      | none => cases event : blockEvent role block <;> simp [event]

theorem scanMessages_pending (pending : Finset String) (messages : List Message) :
    (scanMessages pending messages).pending = (callEvents messages).foldl record pending := by
  induction messages generalizing pending with
  | nil => rfl
  | cons message rest ih =>
      have here := scanContent_pending message.role pending message.content
      rw [callEvents_cons, List.foldl_append, messageEvents, ← here, ← ih, scanMessages]

theorem scanMessages_events (pending : Finset String) (messages : List Message) :
    callEvents (scanMessages pending messages).kept =
      settle (fun _ => false) pending (callEvents messages) := by
  induction messages generalizing pending with
  | nil => rfl
  | cons message rest ih =>
      have here := scanContent_events message.role pending message.content
      have pendingHere := scanContent_pending message.role pending message.content
      rw [callEvents_cons, settle_append, messageEvents, ← here, ← pendingHere, ← ih,
        scanMessages, callEvents_cons]
      rfl

theorem orphanedRequest_isNone (pending : Finset String) (block : MessageContentBlock) :
    (orphanedRequest pending block).isNone = (blockEvent .assistant block).all fun event =>
      !(event.isRequest && decide (event.callId ∈ pending)) := by
  cases block with
  | toolRequest call =>
      by_cases member : call.id ∈ pending <;>
        simp [orphanedRequest, MessageContentBlock.asToolRequest, blockEvent, isRequest, callId, member,
          Option.filter]
  | _ => rfl

theorem filterMap_filter_all {α β : Type} (view : α -> Option β) (keep : β -> Bool) (items : List α) :
    (items.filter fun item => (view item).all keep).filterMap view = (items.filterMap view).filter keep := by
  induction items with
  | nil => rfl
  | cons item rest ih =>
      cases seen : view item with
      | none => simp [seen, ih]
      | some value => cases kept : keep value <;> simp [seen, kept, ih]

theorem dropOrphanedRequests_events (pending : Finset String) (messages : List Message) :
    callEvents (dropOrphanedRequests pending messages).1 =
      (callEvents messages).filter fun event => !(event.isRequest && decide (event.callId ∈ pending)) := by
  have answers : forall content : List MessageContentBlock,
      (content.filterMap (blockEvent .user)).filter (fun event =>
        !(event.isRequest && decide (event.callId ∈ pending))) = content.filterMap (blockEvent .user) := by
    intro content
    rw [List.filter_eq_self]
    intro event member
    rcases List.mem_filterMap.mp member with ⟨block, _, found⟩
    cases block with
    | toolResponse answer =>
        have same : response answer.id = event := Option.some.inj found
        rw [← same]
        rfl
    | _ => exact absurd found (by simp [blockEvent])
  induction messages with
  | nil => rfl
  | cons message rest ih =>
      rw [callEvents_cons, List.filter_append, ← ih]
      refine congrArg (· ++ callEvents (dropOrphanedRequests pending rest).1) ?_
      cases role : message.role with
      | user => simp only [messageEvents, role, reduceCtorEq, if_false, answers]
      | assistant =>
          simp only [messageEvents, role, if_true, orphanedRequest_isNone]
          exact filterMap_filter_all _ _ _

/-- The pairing pass is the ledger pass over the transcript. -/
theorem callEvents_fixToolCalling (messages : List Message) :
    callEvents (fixToolCalling messages).1 =
      settle (fun id => decide (id ∈ (callEvents messages).foldl record ∅)) ∅ (callEvents messages) := by
  rw [fixToolCalling, callEvents_removeEmptyMessages, dropOrphanedRequests_events, scanMessages_events,
    scanMessages_pending, settle_eq_filter (fun id => decide _)]

/-! ## Blocks in the wrong place -/

/-- A block that no message of the role may keep. -/
def isForeign : Role -> MessageContentBlock -> Bool
  | .user, .toolRequest _ | .user, .toolConfirmationRequest _ => true
  | .user, .thinking _ | .user, .redactedThinking _ => true
  | .assistant, .toolResponse _ => true
  | _, _ => false

/-- Every block of every message has a property that may depend on the role. -/
def AllBlocks (holds : Role -> MessageContentBlock -> Prop) (messages : List Message) : Prop :=
  forall message, message ∈ messages -> forall block, block ∈ message.content -> holds message.role block

/-- No message has a block in the wrong place. -/
def WellPlaced (messages : List Message) : Prop :=
  AllBlocks (fun role block => isForeign role block = false) messages

namespace AllBlocks

variable {holds : Role -> MessageContentBlock -> Prop}

theorem of_subset {before after : List Message} (all : AllBlocks holds before)
    (origin : forall message, message ∈ after -> Exists fun source =>
      source ∈ before ∧ message.role = source.role ∧ message.content ⊆ source.content) :
    AllBlocks holds after := by
  intro message member block inside
  rcases origin message member with ⟨source, sourceMember, sameRole, subset⟩
  rw [sameRole]
  exact all source sourceMember block (subset inside)

theorem mergeConsecutive {messages : List Message} (all : AllBlocks holds messages) :
    AllBlocks holds (mergeConsecutiveMessages messages).1 := by
  rw [mergeConsecutiveMessages_fst]
  refine messageJoining.forall_collect (fun first second joined firstAll secondAll => ?_) all
  have sameRole := role_eq_of_joins joined
  intro block inside
  rcases List.mem_append.mp inside with inFirst | inSecond
  · exact firstAll block inFirst
  · have holdsSecond := secondAll block inSecond
    rw [← sameRole] at holdsSecond
    exact holdsSecond

end AllBlocks

theorem scanContent_sublist (role : Role) (pending : Finset String) (content : List MessageContentBlock) :
    (scanContent role pending content).kept.Sublist content := by
  induction content generalizing pending with
  | nil => exact List.Sublist.refl _
  | cons block rest ih =>
      rw [scanContent]
      cases (scanBlock role pending block).1 with
      | some issue => exact (ih _).cons block
      | none => exact (ih _).cons_cons block

theorem scanMessages_origin (pending : Finset String) (messages : List Message) :
    forall message, message ∈ (scanMessages pending messages).kept -> Exists fun source =>
      source ∈ messages ∧ message.role = source.role ∧ message.content ⊆ source.content := by
  induction messages generalizing pending with
  | nil => simp [scanMessages]
  | cons first rest ih =>
      refine List.forall_mem_cons.mpr
        ⟨⟨first, List.mem_cons_self, rfl, (scanContent_sublist _ _ first.content).subset⟩, ?_⟩
      intro message member
      rcases ih _ message member with ⟨source, sourceMember, kept⟩
      exact ⟨source, List.mem_cons_of_mem first sourceMember, kept⟩

/-- The pairing pass only removes blocks after its scan. -/
theorem fixToolCalling_origin (messages : List Message) :
    forall message, message ∈ (fixToolCalling messages).1 -> Exists fun source =>
      source ∈ (scanMessages ∅ messages).kept ∧ message.role = source.role ∧
        message.content ⊆ source.content := by
  intro message member
  rcases List.mem_map.mp (List.mem_filter.mp member).1 with ⟨source, sourceMember, same⟩
  refine ⟨source, sourceMember, ?_⟩
  rw [← same]
  split
  · exact ⟨rfl, List.filter_sublist.subset⟩
  · exact ⟨rfl, List.Subset.refl _⟩

theorem scanContent_wellPlaced (role : Role) (pending : Finset String) (content : List MessageContentBlock) :
    forall block, block ∈ (scanContent role pending content).kept -> isForeign role block = false := by
  induction content generalizing pending with
  | nil => simp [scanContent]
  | cons block rest ih =>
      rw [scanContent]
      cases verdict : (scanBlock role pending block).1 with
      | some issue => exact ih _
      | none =>
          refine List.forall_mem_cons.mpr ⟨?_, ih _⟩
          cases role <;> cases block <;>
            first
            | rfl
            | exact absurd verdict (by simp [scanBlock, scanUserBlock, scanAssistantBlock])

theorem scanMessages_wellPlaced (pending : Finset String) (messages : List Message) :
    WellPlaced (scanMessages pending messages).kept := by
  induction messages generalizing pending with
  | nil => simp [WellPlaced, AllBlocks, scanMessages]
  | cons message rest ih =>
      exact List.forall_mem_cons.mpr
        ⟨scanContent_wellPlaced message.role pending message.content, ih _⟩

theorem fixToolCalling_wellPlaced (messages : List Message) : WellPlaced (fixToolCalling messages).1 :=
  AllBlocks.of_subset (scanMessages_wellPlaced ∅ messages) (fixToolCalling_origin messages)

theorem dedupeContent_sublist (seen content : List MessageContentBlock) :
    (dedupeContent seen content).1.Sublist content := by
  induction content generalizing seen with
  | nil => exact List.Sublist.refl _
  | cons block rest ih =>
      rw [dedupeContent]
      split
      · exact (ih seen).cons block
      · exact (ih _).cons_cons block

theorem dedupeFrom_origin (seen : List MessageContentBlock) (messages : List Message) :
    forall message, message ∈ (dedupeFrom seen messages).1 -> Exists fun source =>
      source ∈ messages ∧ message.role = source.role ∧ message.content ⊆ source.content := by
  induction messages generalizing seen with
  | nil => simp [dedupeFrom]
  | cons first rest ih =>
      have later : forall seen message, message ∈ (dedupeFrom seen rest).1 -> Exists fun source =>
          source ∈ first :: rest ∧ message.role = source.role ∧ message.content ⊆ source.content := by
        intro seen message member
        rcases ih seen message member with ⟨source, sourceMember, kept⟩
        exact ⟨source, List.mem_cons_of_mem first sourceMember, kept⟩
      rw [dedupeFrom]
      split
      · simp only
        split
        · exact List.forall_mem_cons.mpr
            ⟨⟨first, List.mem_cons_self, rfl, List.Subset.refl _⟩, later _⟩
        · exact List.forall_mem_cons.mpr
            ⟨⟨first, List.mem_cons_self, rfl, (dedupeContent_sublist seen first.content).subset⟩, later _⟩
      · exact List.forall_mem_cons.mpr
          ⟨⟨first, List.mem_cons_self, rfl, List.Subset.refl _⟩, later _⟩

theorem AllBlocks.fixLeadTrail {codec : TextCodec} {messages : List Message}
    {holds : Role -> MessageContentBlock -> Prop} (all : AllBlocks holds (pairedMessages codec messages)) :
    AllBlocks holds (AIBuddy.fixLeadTrail (mergedMessages codec messages)).1 := by
  have merged : AllBlocks holds (mergedMessages codec messages) :=
    all.mergeConsecutive.of_subset (dedupeFrom_origin [] _)
  exact fun message member => merged message ((fixLeadTrail_sublist _).mem member)

theorem fixLeadTrail_wellPlaced (codec : TextCodec) (messages : List Message) :
    WellPlaced (fixLeadTrail (mergedMessages codec messages)).1 :=
  AllBlocks.fixLeadTrail (fixToolCalling_wellPlaced (preparedMessages codec messages))

/-! ## A conversation that the user opens -/

/-- A user message with a text that is not empty. -/
def HasUserText (message : Message) : Prop :=
  message.role = .user ∧ Exists fun content : TextContent =>
    .text content ∈ message.content ∧ content.text ≠ ""

/-- The first message is the user's and has text. -/
def OpensWithUserText (messages : List Message) : Prop :=
  Exists fun first => Exists fun rest => messages = first :: rest ∧ HasUserText first

instance (message : Message) : Decidable (HasUserText message) :=
  decidable_of_iff (message.role = .user ∧ message.content.any fun
      | .text content => content.text != ""
      | _ => false) (by
    simp only [HasUserText, List.any_eq_true]
    refine and_congr_right fun _ => ⟨?_, ?_⟩
    · rintro ⟨block, member, filled⟩
      cases block with
      | text content => exact ⟨content, member, by simpa using filled⟩
      | _ => exact absurd filled (by simp)
    · rintro ⟨content, member, filled⟩
      exact ⟨_, member, by simpa using filled⟩)

theorem OpensWithUserText.map {messages : List Message} (opens : OpensWithUserText messages)
    {repair : Message -> Message} (kept : forall message, HasUserText message -> HasUserText (repair message)) :
    OpensWithUserText (messages.map repair) := by
  rcases opens with ⟨first, rest, rfl, text⟩
  exact ⟨repair first, rest.map repair, rfl, kept first text⟩

theorem OpensWithUserText.removeEmptyMessages {messages : List Message}
    (opens : OpensWithUserText messages) : OpensWithUserText (removeEmptyMessages messages).1 := by
  rcases opens with ⟨first, rest, rfl, role, content, member, filled⟩
  have stays : isEmptyMessage first = false := by
    rw [isEmptyMessage, List.all_eq_false]
    exact ⟨_, member, by simpa [MessageContentBlock.asText] using filled⟩
  exact ⟨first, rest.filter fun message => !isEmptyMessage message,
    by simp [AIBuddy.removeEmptyMessages, stays], role, content, member, filled⟩

theorem HasUserText.scanContent {message : Message} (text : HasUserText message) (pending : Finset String) :
    HasUserText { message with content := (scanContent message.role pending message.content).kept } := by
  rcases text with ⟨role, content, member, filled⟩
  refine ⟨role, content, ?_, filled⟩
  have kept : forall (pending : Finset String) (blocks : List MessageContentBlock),
      .text content ∈ blocks -> .text content ∈ (AIBuddy.scanContent .user pending blocks).kept := by
    intro pending blocks inside
    induction blocks generalizing pending with
    | nil => exact absurd inside List.not_mem_nil
    | cons block rest ih =>
        rw [AIBuddy.scanContent]
        rcases List.mem_cons.mp inside with same | later
        · rw [← same]
          exact List.mem_cons_self
        · have tail := ih (scanBlock .user pending block).2 later
          cases (scanBlock .user pending block).1 with
          | some issue => exact tail
          | none => exact List.mem_cons_of_mem block tail
  simpa [role] using kept pending message.content member

theorem pairedMessages_opens (codec : TextCodec) {messages : List Message}
    (opens : OpensWithUserText messages) : OpensWithUserText (pairedMessages codec messages) := by
  have prepared : OpensWithUserText (preparedMessages codec messages) := by
    refine ((((opens.map ?_).map ?_).removeEmptyMessages).map ?_)
    · intro message text
      simpa [mergeTextContentInMessage, text.1] using text
    · intro message text
      simpa [text.1] using text
    · rintro message ⟨role, content, member, filled⟩
      exact ⟨role, content, List.mem_map.mpr ⟨_, member, rfl⟩, filled⟩
  rcases prepared with ⟨first, rest, split, text⟩
  refine OpensWithUserText.removeEmptyMessages (OpensWithUserText.map ?_ ?_)
  · rw [split]
    exact ⟨_, _, rfl, text.scanContent ∅⟩
  · intro message kept
    simpa [kept.1] using kept

theorem mergedMessages_opens (codec : TextCodec) {messages : List Message}
    (opens : OpensWithUserText messages) : OpensWithUserText (mergedMessages codec messages) := by
  rcases pairedMessages_opens codec opens with ⟨first, rest, split, text⟩
  have extends' : forall before after, HasUserText before -> HasUserText (messageJoining.combine before after) := by
    rintro before after ⟨role, content, member, filled⟩
    exact ⟨role, content, List.mem_append_left _ member, filled⟩
  rcases messageJoining.collectFrom_head extends' first rest text with ⟨head, tail, collected, headText⟩
  rw [mergedMessages, mergeConsecutiveMessages_fst, split, Joining.collect, collected, dedupeSignedThinking,
    dedupeFrom]
  simp only [headText.1, reduceCtorEq, if_false]
  exact ⟨head, _, rfl, headText⟩

/-! ## The transcript that the repair leaves -/

theorem callEvents_mergedMessages (codec : TextCodec) (messages : List Message) :
    callEvents (mergedMessages codec messages) =
      settle (fun id => decide (id ∈ (callEvents messages).foldl record ∅)) ∅ (callEvents messages) := by
  rw [mergedMessages, dedupeSignedThinking, callEvents_dedupeFrom, callEvents_mergeConsecutive, pairedMessages,
    callEvents_fixToolCalling, callEvents_preparedMessages]

theorem messageEvents_assistant {message : Message} (role : message.role = .assistant)
    {event : CallEvent String} (member : event ∈ messageEvents message) :
    Exists fun id => event = request id := by
  rcases List.mem_filterMap.mp member with ⟨block, _, found⟩
  rw [role] at found
  cases block with
  | toolRequest call => exact ⟨call.id, (Option.some.inj found).symm⟩
  | _ => exact absurd found (by simp [blockEvent])

theorem callEvents_trail (codec : TextCodec) (messages : List Message) {front trail : List Message}
    (split : mergedMessages codec messages = front ++ trail)
    (assistants : forall message, message ∈ trail -> message.role = .assistant) : callEvents trail = [] := by
  rcases List.eq_nil_or_concat' (callEvents trail) with none | ⟨earlier, event, ends⟩
  · exact none
  · have member : event ∈ callEvents trail := by simp [ends]
    rcases List.mem_flatMap.mp member with ⟨message, messageMember, inside⟩
    rcases messageEvents_assistant (assistants message messageMember) inside with ⟨id, isRequest⟩
    exfalso
    apply settle_getLast_ne_request (callEvents messages) id
    rw [← callEvents_mergedMessages codec, split, callEvents_append, ends, isRequest]
    simp

theorem callEvents_fixTrail (codec : TextCodec) (messages : List Message) :
    callEvents (fixTrail (mergedMessages codec messages)).1 = callEvents (mergedMessages codec messages) := by
  rcases List.eq_nil_or_concat' (mergedMessages codec messages) with empty | ⟨front, last, split⟩
  · rw [empty]
    rfl
  · have noCalls := callEvents_trail codec messages split
    rw [split]
    simp only [fixTrail, List.getLast?_concat, List.dropLast_concat]
    split
    · rename_i role
      rw [callEvents_append, noCalls (by simpa using role), List.append_nil]
    · rfl

theorem fixLeadTrail_of_opens {messages : List Message} (opens : OpensWithUserText messages) :
    (fixLeadTrail messages).1 = (fixTrail messages).1 ∧ (fixTrail messages).1 ≠ [] := by
  rcases opens with ⟨first, rest, rfl, text⟩
  refine ⟨by simp [fixLeadTrail, fixLead, text.1], ?_⟩
  rcases List.eq_nil_or_concat' rest with rfl | ⟨front, last, rfl⟩
  · simp [fixTrail, text.1]
  · have split : first :: (front ++ [last]) = (first :: front) ++ [last] := rfl
    rw [split]
    simp only [fixTrail, List.getLast?_concat, List.dropLast_concat]
    split <;> simp

/-- The site of an event that stands where it belongs. -/
def eventSite (event : CallEvent String) : Role × CallEvent String :=
  (if event.isRequest then .assistant else .user, event)

theorem blockSite_eq {role : Role} {block : MessageContentBlock} (fits : isForeign role block = false) :
    blockSite role block = (blockEvent role block).map eventSite := by
  cases role <;> cases block <;> first | rfl | exact absurd fits (by simp [isForeign])

theorem callSites_eq {messages : List Message} (placed : WellPlaced messages) :
    callSites messages = (callEvents messages).map eventSite := by
  induction messages with
  | nil => rfl
  | cons message rest ih =>
      have tail := ih fun later member => placed later (List.mem_cons_of_mem message member)
      have here : message.content.filterMap (blockSite message.role) =
          (messageEvents message).map eventSite := by
        rw [messageEvents, List.map_filterMap]
        exact List.filterMap_congr fun block inside => blockSite_eq (placed message List.mem_cons_self block inside)
      rw [callEvents_cons, List.map_append, ← tail, ← here]
      rfl

theorem filter_map_eventSite (id : String) (events : List (CallEvent String)) :
    (events.map eventSite).filter (fun site => site.2 = response id) =
      List.replicate (events.count (response id)) (.user, response id) := by
  induction events with
  | nil => rfl
  | cons event rest ih =>
      by_cases same : event = response id
      · subst same
        simp [eventSite, isRequest, List.replicate_succ, ih]
      · simp [eventSite, same, ih]

theorem mem_map_eventSite (id : String) (events : List (CallEvent String)) :
    (Exists fun role => (role, request id) ∈ events.map eventSite) ↔ request id ∈ events := by
  constructor
  · rintro ⟨role, member⟩
    rcases List.mem_map.mp member with ⟨event, inside, same⟩
    have isThis : event = request id := congrArg Prod.snd same
    exact isThis ▸ inside
  · intro inside
    exact ⟨_, List.mem_map_of_mem inside⟩

theorem callsPaired_iff {messages : List Message} (placed : WellPlaced messages) :
    CallsPaired messages ↔ AnsweredOnce (callEvents messages) := by
  rw [CallsPaired, callSites_eq placed, AnsweredOnce]
  refine and_congr ⟨fun paired before id after split => ?_, fun once before role id after split => ?_⟩
    ⟨fun preceded before id after split => ?_, fun preceded before role id after split => ?_⟩
  · have answered := (paired (before.map eventSite) .assistant id (after.map eventSite) (by rw [split]; simp [eventSite, isRequest])).2
    rw [filter_map_eventSite] at answered
    simpa using congrArg List.length answered
  · rcases List.map_eq_append_iff.mp split with ⟨front, rest, same, _, restEq⟩
    rcases List.map_eq_cons_iff.mp restEq with ⟨event, back, rfl, site, rfl⟩
    have isThis : event = request id := congrArg Prod.snd site
    subst isThis
    refine ⟨(congrArg Prod.fst site).symm, ?_⟩
    rw [filter_map_eventSite, once front id back same]
    rfl
  · have requested := preceded (before.map eventSite) .user id (after.map eventSite) (by rw [split]; simp [eventSite, isRequest])
    exact (mem_map_eventSite id before).mp requested
  · rcases List.map_eq_append_iff.mp split with ⟨front, rest, same, rfl, restEq⟩
    rcases List.map_eq_cons_iff.mp restEq with ⟨event, back, rfl, site, _⟩
    have isThis : event = response id := congrArg Prod.snd site
    subst isThis
    exact (mem_map_eventSite id front).mpr (preceded front id back same)

/-- For a conversation that the user opens, the repair pairs up all calls
exactly when no identifier is requested again after it was answered. -/
theorem fixConversation_callsPaired_iff (codec : TextCodec) (now : Int) (conversation : Conversation)
    (opens : OpensWithUserText conversation.visible) :
    CallsPaired (fixConversation codec now conversation).1.visible ↔
      forall id, ¬ [request id, response id, request id].Sublist (callEvents conversation.visible) := by
  have nonempty : conversation.visible ≠ [] := by
    rcases opens with ⟨first, rest, split, _⟩
    rw [split]
    exact List.cons_ne_nil first rest
  rcases fixLeadTrail_of_opens (mergedMessages_opens codec opens) with ⟨kept, filled⟩
  have placed := fixLeadTrail_wellPlaced codec conversation.visible
  rw [kept] at placed
  rw [fixConversation_visible codec now conversation nonempty, fixMessages_fst, populateIfEmpty_fst, kept,
    if_neg filled, callsPaired_iff placed, callEvents_fixTrail, callEvents_mergedMessages]
  exact settle_answeredOnce_iff (callEvents conversation.visible)

theorem fixConversation_callsPaired_one_dropped :
    let conversation : Conversation :=
      ⟨[{ Message.user 0 with content := [.plainText "hi"] },
        ((Message.assistant 0).withToolRequest "a" (.ok ⟨"shell", none⟩)).withToolRequest "b" (.ok ⟨"shell", none⟩),
        Message.withToolResponse .ascii (Message.user 0) "a" (.ok ⟨[], none, none⟩)]⟩
    CallsPaired (fixConversation .ascii 0 conversation).1.visible ↔
      forall id, ¬ [request id, response id, request id].Sublist (callEvents conversation.visible) :=
  fixConversation_callsPaired_iff .ascii 0 _ ⟨_, _, rfl, by decide⟩

/-- When an identifier is answered and requested again, both of its requests are
dropped as unanswered and its response is left. -/
theorem fixConversation_orphans_response :
    let conversation : Conversation :=
      ⟨[{ Message.user 0 with content := [.plainText "hi"] },
        (Message.assistant 0).withToolRequest "a" (.ok ⟨"shell", none⟩),
        Message.withToolResponse .ascii (Message.user 0) "a" (.ok ⟨[], none, none⟩),
        (Message.assistant 0).withToolRequest "a" (.ok ⟨"shell", none⟩),
        { Message.user 0 with content := [.plainText "next"] }]⟩
    OpensWithUserText conversation.visible ∧
      ¬ CallsPaired (fixConversation .ascii 0 conversation).1.visible := by
  refine ⟨⟨_, _, rfl, by decide⟩, fun paired => ?_⟩
  have sites : callSites (fixConversation .ascii 0
      ⟨[{ Message.user 0 with content := [.plainText "hi"] },
        (Message.assistant 0).withToolRequest "a" (.ok ⟨"shell", none⟩),
        Message.withToolResponse .ascii (Message.user 0) "a" (.ok ⟨[], none, none⟩),
        (Message.assistant 0).withToolRequest "a" (.ok ⟨"shell", none⟩),
        { Message.user 0 with content := [.plainText "next"] }]⟩).1.visible = [(.user, response "a")] := by
    decide
  rcases paired.2 [] .user "a" [] sites with ⟨requester, member⟩
  exact List.not_mem_nil member

end AIBuddy
