import AIBuddy.Conversation.FixPairing

namespace AIBuddy

open CallEvent CallLedger

/-!
# The ends of a repaired conversation

The repair pops one message from each end, after merging what it may merge.
Which messages are there to be merged can be read off the input: a message
survives when some block of it survives the pairing of calls and is not an
empty text.  The repaired conversation then begins and ends with the user
exactly when the surviving assistant messages at either end form one run of a
single visibility.
-/

/-! ## Which messages survive -/

/-- A block of a user message that is left and is not an empty text.  A response
is left when its call was still open. -/
def userBlockStays (earlier : List (CallEvent String)) : MessageContentBlock -> Bool
  | .text content => content.text != ""
  | .toolResponse answer => decide (IsOpen answer.id earlier)
  | .toolRequest _ | .toolConfirmationRequest _ | .thinking _ | .redactedThinking _ => false
  | .image _ | .document _ | .actionRequired _ | .systemNotification _ | .error _ => true

/-- A block of an assistant message that is not removed.  A request is kept when
its call does not end open. -/
def assistantBlockKept (whole : List (CallEvent String)) : MessageContentBlock -> Bool
  | .toolRequest call => !decide (IsOpen call.id whole)
  | .toolResponse _ => false
  | _ => true

/-- A block of an assistant message that is kept and is not a blank text. -/
def assistantBlockStays (whole : List (CallEvent String)) : MessageContentBlock -> Bool
  | .text content => !Text.isBlank content.text
  | block => assistantBlockKept whole block

/-- Whether some block of a user message stays, given the events before it. -/
def userSurvives (earlier : List (CallEvent String)) : List MessageContentBlock -> Bool
  | [] => false
  | block :: rest =>
      userBlockStays earlier block || userSurvives (earlier ++ (blockEvent .user block).toList) rest

/-- Whether a message is left, given the events of the whole conversation and
those before the message. -/
def survives (whole earlier : List (CallEvent String)) (message : Message) : Bool :=
  match message.role with
  | .user => userSurvives earlier message.content
  | .assistant => message.content.any (assistantBlockStays whole)

/-- The surviving messages, each with the events before it. -/
def survivorsFrom (whole earlier : List (CallEvent String)) :
    List Message -> List (List (CallEvent String) × Message)
  | [] => []
  | message :: rest =>
      let later := survivorsFrom whole (earlier ++ messageEvents message) rest
      if survives whole earlier message then (earlier, message) :: later else later

/-- The messages that survive the pairing of calls. -/
def survivors (messages : List Message) : List Message :=
  (survivorsFrom (callEvents messages) [] messages).map Prod.snd

/-! ## What becomes of a message -/

/-- A message before its calls are paired. -/
def prepareMessage (codec : TextCodec) (message : Message) : Message :=
  let merged := mergeTextContentInMessage message
  let trimmed := if merged.role = .assistant then { merged with content := merged.content.map trimTextBlock } else merged
  { trimmed with content := trimmed.content.map (fixEmptyToolResult codec) }

/-- A message once its calls are paired, given the identifiers pending before it
and at the end. -/
def pairMessage (final pending : Finset String) (message : Message) : Message :=
  let scanned := { message with content := (scanContent message.role pending message.content).kept }
  if scanned.role = .assistant then
    { scanned with content := scanned.content.filter fun block => (orphanedRequest final block).isNone }
  else scanned

def pairFrom (final pending : Finset String) : List Message -> List Message
  | [] => []
  | message :: rest =>
      pairMessage final pending message ::
        pairFrom final (scanContent message.role pending message.content).pending rest

/-- What the first five passes leave of a message, if it survives. -/
def settledMessage (codec : TextCodec) (whole earlier : List (CallEvent String)) (message : Message) : Message :=
  pairMessage (whole.foldl record ∅) (earlier.foldl record ∅) (prepareMessage codec message)

theorem settledMessage_header (codec : TextCodec) (whole earlier : List (CallEvent String)) (message : Message) :
    (settledMessage codec whole earlier message).header = message.header := by
  cases role : message.role <;>
    simp [settledMessage, pairMessage, prepareMessage, mergeTextContentInMessage, Message.header, role]

/-! ### Emptiness is decided before and after -/

theorem isEmptyMessage_fixEmptyToolResults (codec : TextCodec) (message : Message) :
    isEmptyMessage { message with content := message.content.map (fixEmptyToolResult codec) } =
      isEmptyMessage message := by
  have blocks : forall block : MessageContentBlock,
      (fixEmptyToolResult codec block).asText = block.asText := by
    intro block
    rcases fixEmptyToolResult_cases codec block with same | ⟨before, after, rfl, fixed, _⟩
    · rw [same]
    · rw [fixed]
      rfl
  simp [isEmptyMessage, List.all_map, Function.comp_def, blocks]

theorem preparedMessages_eq (codec : TextCodec) (messages : List Message) :
    preparedMessages codec messages =
      (messages.map (prepareMessage codec)).filter fun message => !isEmptyMessage message := by
  have commute : forall kept : List Message,
      (fixEmptyToolResults codec (removeEmptyMessages kept).1).1 =
        ((kept.map fun message =>
          { message with content := message.content.map (fixEmptyToolResult codec) }).filter fun message =>
            !isEmptyMessage message) := by
    intro kept
    rw [List.filter_map]
    simp only [Function.comp_def, isEmptyMessage_fixEmptyToolResults]
    rfl
  rw [preparedMessages, commute]
  simp only [trimAssistantTextWhitespace, mergeTextContentItems, fixEachMessage, List.map_map]
  rfl

theorem scanMessages_drop (final pending : Finset String) (messages : List Message) :
    (dropOrphanedRequests final (scanMessages pending messages).kept).1 = pairFrom final pending messages := by
  induction messages generalizing pending with
  | nil => rfl
  | cons message rest ih =>
      rw [pairFrom, ← ih]
      rfl

theorem scanContent_of_isEmptyMessage (message : Message) (empty : isEmptyMessage message = true)
    (pending : Finset String) :
    (scanContent message.role pending message.content).kept = message.content ∧
      (scanContent message.role pending message.content).pending = pending := by
  have texts : forall blocks : List MessageContentBlock,
      (blocks.all fun block => block.asText == some "") = true ->
        (scanContent message.role pending blocks).kept = blocks ∧
          (scanContent message.role pending blocks).pending = pending := by
    intro blocks blank
    induction blocks with
    | nil => exact ⟨rfl, rfl⟩
    | cons block rest ih =>
        rw [List.all_cons, Bool.and_eq_true] at blank
        rcases ih blank.2 with ⟨kept, same⟩
        cases block with
        | text content =>
            cases role : message.role <;> rw [role] at kept same <;>
              simp [scanContent, scanBlock, scanUserBlock, scanAssistantBlock, kept, same]
        | _ => exact absurd blank.1 (by simp [MessageContentBlock.asText])
  exact texts message.content empty

theorem pairMessage_of_isEmptyMessage (message : Message) (empty : isEmptyMessage message = true)
    (final pending : Finset String) : isEmptyMessage (pairMessage final pending message) = true := by
  have kept := (scanContent_of_isEmptyMessage message empty pending).1
  rw [pairMessage, kept]
  simp only
  split
  · rw [isEmptyMessage, List.all_eq_true]
    intro block member
    exact List.all_eq_true.mp empty block (List.mem_filter.mp member).1
  · exact empty

theorem pairFrom_filter (final pending : Finset String) (messages : List Message) :
    ((pairFrom final pending (messages.filter fun message => !isEmptyMessage message)).filter
        fun message => !isEmptyMessage message) =
      (pairFrom final pending messages).filter fun message => !isEmptyMessage message := by
  induction messages generalizing pending with
  | nil => rfl
  | cons message rest ih =>
      cases empty : isEmptyMessage message with
      | false => simp [empty, pairFrom, ih, List.filter_cons]
      | true =>
          have gone := pairMessage_of_isEmptyMessage message empty final pending
          have samePending := (scanContent_of_isEmptyMessage message empty pending).2
          simp [empty, pairFrom, gone, samePending, ih]

/-! ### The content of a survivor -/

theorem messageEvents_prepareMessage (codec : TextCodec) (message : Message) :
    messageEvents (prepareMessage codec message) = messageEvents message := by
  rw [prepareMessage, messageEvents_fixEmptyToolResult]
  split
  · rw [messageEvents_trimTextBlock, messageEvents_mergeTextContent]
  · exact messageEvents_mergeTextContent message

theorem scanBlock_fixEmptyToolResult (codec : TextCodec) (role : Role) (pending : Finset String)
    (block : MessageContentBlock) :
    scanBlock role pending (fixEmptyToolResult codec block) = scanBlock role pending block := by
  rcases fixEmptyToolResult_cases codec block with same | ⟨before, after, rfl, fixed, sameId⟩
  · rw [same]
  · rw [fixed]
    cases role <;> simp [scanBlock, scanUserBlock, scanAssistantBlock, sameId]

theorem userBlockStays_eq (codec : TextCodec) (earlier : List (CallEvent String)) (block : MessageContentBlock) :
    userBlockStays earlier block =
      ((scanBlock .user (earlier.foldl record ∅) block).1.isNone &&
        !((fixEmptyToolResult codec block).asText == some "")) := by
  cases block with
  | text content =>
      rw [Bool.eq_iff_iff]
      simp [userBlockStays, scanBlock, scanUserBlock, fixEmptyToolResult, emptyToolResult,
        MessageContentBlock.asText]
  | toolResponse answer =>
      have noText : (fixEmptyToolResult codec (.toolResponse answer)).asText = none := by
        rcases fixEmptyToolResult_cases codec (.toolResponse answer) with same | ⟨_, after, _, fixed, _⟩
        · rw [same]
          rfl
        · rw [fixed]
          rfl
      by_cases isOpen : answer.id ∈ earlier.foldl record ∅
      · have known := (mem_pending_iff answer.id earlier).mp isOpen
        simp [userBlockStays, scanBlock, scanUserBlock, isOpen, known, noText]
      · have unknown : ¬ IsOpen answer.id earlier := fun known => isOpen ((mem_pending_iff answer.id earlier).mpr known)
        simp [userBlockStays, scanBlock, scanUserBlock, isOpen, unknown]
  | _ => rfl

theorem scanContent_user_empty (codec : TextCodec) (earlier : List (CallEvent String))
    (blocks : List MessageContentBlock) :
    ((scanContent .user (earlier.foldl record ∅) (blocks.map (fixEmptyToolResult codec))).kept.all
        fun block => block.asText == some "") = !userSurvives earlier blocks := by
  induction blocks generalizing earlier with
  | nil => rfl
  | cons block rest ih =>
      have pendingAfter : (scanBlock .user (earlier.foldl record ∅) block).2 =
          (earlier ++ (blockEvent .user block).toList).foldl record ∅ := by
        rw [scanBlock_pending, List.foldl_append]
      have tail := ih (earlier ++ (blockEvent .user block).toList)
      rw [List.map_cons, scanContent, scanBlock_fixEmptyToolResult, pendingAfter, userSurvives,
        userBlockStays_eq codec, Bool.not_or, ← tail]
      cases (scanBlock .user (earlier.foldl record ∅) block).1 <;> simp

theorem scanContent_assistant (pending : Finset String) (blocks : List MessageContentBlock) :
    (scanContent .assistant pending blocks).kept = blocks.filter fun block => block.asToolResponse.isNone := by
  induction blocks generalizing pending with
  | nil => rfl
  | cons block rest ih =>
      cases block <;>
        simp [scanContent, scanBlock, scanAssistantBlock, MessageContentBlock.asToolResponse, ih]

theorem assistantBlockKept_eq (whole : List (CallEvent String)) (block : MessageContentBlock) :
    assistantBlockKept whole block =
      (block.asToolResponse.isNone && (orphanedRequest (whole.foldl record ∅) block).isNone) := by
  cases block with
  | toolRequest call =>
      by_cases isOpen : call.id ∈ whole.foldl record ∅
      · have known := (mem_pending_iff call.id whole).mp isOpen
        simp [assistantBlockKept, MessageContentBlock.asToolResponse, orphanedRequest,
          MessageContentBlock.asToolRequest, Option.filter, isOpen, known]
      · have unknown : ¬ IsOpen call.id whole := fun known => isOpen ((mem_pending_iff call.id whole).mpr known)
        simp [assistantBlockKept, MessageContentBlock.asToolResponse, orphanedRequest,
          MessageContentBlock.asToolRequest, Option.filter, isOpen, unknown]
  | _ => rfl

theorem settledMessage_assistant (codec : TextCodec) (whole earlier : List (CallEvent String))
    {message : Message} (role : message.role = .assistant) :
    (settledMessage codec whole earlier message).content =
      ((textJoining.collect message.content).filter (assistantBlockKept whole)).map trimTextBlock := by
  have trimKeeps : forall block, assistantBlockKept whole (trimTextBlock block) = assistantBlockKept whole block := by
    intro block
    cases block <;> rfl
  have fixKeeps : forall block,
      assistantBlockKept whole (fixEmptyToolResult codec block) = assistantBlockKept whole block := by
    intro block
    rcases fixEmptyToolResult_cases codec block with same | ⟨before, after, rfl, fixed, _⟩
    · rw [same]
    · rw [fixed]
      rfl
  have fixFixes : forall block, assistantBlockKept whole block = true -> fixEmptyToolResult codec block = block := by
    intro block kept
    rcases fixEmptyToolResult_cases codec block with same | ⟨before, after, rfl, _, _⟩
    · exact same
    · exact absurd kept (by simp [assistantBlockKept])
  have filters : forall blocks : List MessageContentBlock,
      (blocks.filter fun block => block.asToolResponse.isNone).filter
          (fun block => (orphanedRequest (whole.foldl record ∅) block).isNone) =
        blocks.filter (assistantBlockKept whole) := by
    intro blocks
    rw [List.filter_filter]
    exact List.filter_congr fun block _ => by rw [assistantBlockKept_eq, Bool.and_comm]
  simp only [settledMessage, pairMessage, prepareMessage, mergeTextContentInMessage, role, if_true,
    mergeTextContent_eq, scanContent_assistant, filters]
  rw [filter_map_of_fixed fixKeeps fixFixes, List.filter_map]
  exact congrArg _ (List.filter_congr fun block _ => trimKeeps block)

theorem assistantBlockStays_eq (whole : List (CallEvent String)) (block : MessageContentBlock) :
    assistantBlockStays whole block =
      (assistantBlockKept whole block && !((trimTextBlock block).asText == some "")) := by
  cases block with
  | text content =>
      rw [Bool.eq_iff_iff]
      simp [assistantBlockStays, assistantBlockKept, trimTextBlock, MessageContentBlock.asText,
        Text.trimEnd_eq_empty_iff]
  | _ => simp [assistantBlockStays, trimTextBlock, MessageContentBlock.asText]

theorem assistantBlockStays_collect (whole : List (CallEvent String)) (blocks : List MessageContentBlock) :
    (textJoining.collect blocks).any (assistantBlockStays whole) = blocks.any (assistantBlockStays whole) := by
  apply textJoining.any_collect
  intro first second joined
  rcases (textJoining.joins_iff first second).mp joined with ⟨key, firstKey, secondKey⟩
  cases first with
  | text left =>
      cases second with
      | text right => simp [textJoining, assistantBlockStays, Bool.not_and]
      | _ => exact absurd secondKey (by simp [textJoining])
  | _ => exact absurd firstKey (by simp [textJoining])

/-- Survival says whether anything is left. -/
theorem isEmptyMessage_settledMessage (codec : TextCodec) (whole earlier : List (CallEvent String))
    (message : Message) :
    isEmptyMessage (settledMessage codec whole earlier message) = !survives whole earlier message := by
  cases role : message.role with
  | user =>
      rw [survives, role, ← scanContent_user_empty codec]
      simp [settledMessage, pairMessage, prepareMessage, mergeTextContentInMessage, role, isEmptyMessage]
  | assistant =>
      rw [isEmptyMessage, settledMessage_assistant codec whole earlier role, survives, role,
        ← assistantBlockStays_collect]
      simp only [List.all_map, List.all_filter, List.not_any_eq_all_not]
      congr 1
      funext block
      rw [assistantBlockStays_eq]
      cases assistantBlockKept whole block <;> simp

theorem pairedMessages_eq (codec : TextCodec) (messages : List Message) :
    pairedMessages codec messages =
      (survivorsFrom (callEvents messages) [] messages).map fun survivor =>
        settledMessage codec (callEvents messages) survivor.1 survivor.2 := by
  have settled : forall earlier kept,
      (pairFrom ((callEvents messages).foldl record ∅) (earlier.foldl record ∅)
          (kept.map (prepareMessage codec))).filter (fun message => !isEmptyMessage message) =
        (survivorsFrom (callEvents messages) earlier kept).map fun survivor =>
          settledMessage codec (callEvents messages) survivor.1 survivor.2 := by
    intro earlier kept
    induction kept generalizing earlier with
    | nil => rfl
    | cons message rest ih =>
        have sameEvents := messageEvents_prepareMessage codec message
        have pendingAfter : (scanContent (prepareMessage codec message).role (earlier.foldl record ∅)
            (prepareMessage codec message).content).pending =
              (earlier ++ messageEvents message).foldl record ∅ := by
          rw [scanContent_pending, List.foldl_append, ← sameEvents]
          rfl
        rw [List.map_cons, pairFrom, pendingAfter, List.filter_cons, ih, survivorsFrom]
        have emptiness := isEmptyMessage_settledMessage codec (callEvents messages) earlier message
        rw [settledMessage] at emptiness
        rw [emptiness, Bool.not_not]
        split <;> rfl
  simp only [pairedMessages, fixToolCalling, scanMessages_drop, scanMessages_pending,
    callEvents_preparedMessages]
  rw [preparedMessages_eq]
  exact (pairFrom_filter _ ∅ _).trans (settled [] messages)

/-! ## Ends of a conversation -/

/-- Assistant messages of one visibility. -/
def AssistantRun (messages : List Message) : Prop :=
  (forall message, message ∈ messages -> message.role = .assistant) ∧
    forall first, first ∈ messages -> forall second, second ∈ messages ->
      first.metadata.userVisible = second.metadata.userVisible ∧
        first.metadata.turnContext = second.metadata.turnContext

/-- The first and the last message are the user's. -/
def BoundedByUser (messages : List Message) : Prop :=
  (Exists fun first => messages.head? = some first ∧ first.role = .user) ∧
    Exists fun last => messages.getLast? = some last ∧ last.role = .user

/-- Between one run of assistant messages at each end, the conversation is empty
or bounded by the user. -/
def EndsSettle (messages : List Message) : Prop :=
  Exists fun lead => Exists fun middle => Exists fun trail =>
    messages = lead ++ middle ++ trail ∧ AssistantRun lead ∧ AssistantRun trail ∧
      (middle = [] ∨ BoundedByUser middle)

/-- Two views of the same items with the same headers. -/
structure SameHeaders {α : Type} (left right : α -> Message) : Prop where
  header : forall item, (left item).header = (right item).header

namespace SameHeaders

variable {α : Type} {left right : α -> Message}

theorem symm (same : SameHeaders left right) : SameHeaders right left :=
  ⟨fun item => (same.header item).symm⟩

theorem role (same : SameHeaders left right) (item : α) : (left item).role = (right item).role :=
  congrArg Prod.fst (same.header item)

theorem metadata (same : SameHeaders left right) (item : α) : (left item).metadata = (right item).metadata :=
  congrArg Prod.snd (same.header item)

theorem assistantRun (same : SameHeaders left right) {items : List α}
    (run : AssistantRun (items.map left)) : AssistantRun (items.map right) := by
  refine ⟨fun message member => ?_, fun first firstMember second secondMember => ?_⟩
  · rcases List.mem_map.mp member with ⟨item, inside, rfl⟩
    rw [← same.role item]
    exact run.1 _ (List.mem_map_of_mem inside)
  · rcases List.mem_map.mp firstMember with ⟨item, inside, rfl⟩
    rcases List.mem_map.mp secondMember with ⟨other, otherInside, rfl⟩
    rw [← same.metadata item, ← same.metadata other]
    exact run.2 _ (List.mem_map_of_mem inside) _ (List.mem_map_of_mem otherInside)

theorem boundedByUser (same : SameHeaders left right) {items : List α}
    (bounded : BoundedByUser (items.map left)) : BoundedByUser (items.map right) := by
  rcases bounded with ⟨⟨first, firstEq, firstRole⟩, last, lastEq, lastRole⟩
  rw [List.head?_map, Option.map_eq_some_iff] at firstEq
  rw [List.getLast?_map, Option.map_eq_some_iff] at lastEq
  rcases firstEq with ⟨item, itemEq, rfl⟩
  rcases lastEq with ⟨other, otherEq, rfl⟩
  exact ⟨⟨right item, by simp [itemEq], by rw [← same.role, firstRole]⟩,
    right other, by simp [otherEq], by rw [← same.role, lastRole]⟩

theorem endsSettle (same : SameHeaders left right) {items : List α}
    (settle : EndsSettle (items.map left)) : EndsSettle (items.map right) := by
  rcases settle with ⟨lead, middle, trail, split, leadRun, trailRun, bounded⟩
  rcases List.map_eq_append_iff.mp split with ⟨front, last, rfl, frontEq, rfl⟩
  rcases List.map_eq_append_iff.mp frontEq with ⟨first, center, rfl, rfl, rfl⟩
  refine ⟨first.map right, center.map right, last.map right, by simp, same.assistantRun leadRun,
    same.assistantRun trailRun, ?_⟩
  rcases bounded with none | bounded
  · exact Or.inl (by rw [List.map_eq_nil_iff.mp none]; rfl)
  · exact Or.inr (same.boundedByUser bounded)

end SameHeaders

/-! ### Popping the ends -/

theorem fixLeadTrail_split (messages : List Message) :
    Exists fun lead => Exists fun trail => messages = lead ++ (fixLeadTrail messages).1 ++ trail ∧
      (lead.length ≤ 1 ∧ forall message, message ∈ lead -> message.role = .assistant) ∧
      trail.length ≤ 1 ∧ forall message, message ∈ trail -> message.role = .assistant := by
  have leads : forall kept, Exists fun lead => kept = lead ++ (fixLead kept).1 ∧
      lead.length ≤ 1 ∧ forall message, message ∈ lead -> message.role = .assistant := by
    intro kept
    cases kept with
    | nil => exact ⟨[], rfl, by simp, by simp⟩
    | cons first rest =>
        rw [fixLead]
        split
        · rename_i role
          exact ⟨[first], rfl, by simp, by simpa using role⟩
        · exact ⟨[], rfl, by simp, by simp⟩
  have trails : forall kept, Exists fun trail => kept = (fixTrail kept).1 ++ trail ∧
      trail.length ≤ 1 ∧ forall message, message ∈ trail -> message.role = .assistant := by
    intro kept
    rcases List.eq_nil_or_concat' kept with rfl | ⟨front, last, rfl⟩
    · exact ⟨[], rfl, by simp, by simp⟩
    · simp only [fixTrail, List.getLast?_concat, List.dropLast_concat]
      split
      · rename_i role
        exact ⟨[last], rfl, by simp, by simpa using role⟩
      · exact ⟨[], by simp, by simp, by simp⟩
  rcases leads messages with ⟨lead, leadEq, leadShort⟩
  rcases trails (fixLead messages).1 with ⟨trail, trailEq, trailShort⟩
  refine ⟨lead, trail, ?_, leadShort, trailShort⟩
  rw [List.append_assoc]
  exact leadEq.trans (congrArg (lead ++ ·) trailEq)

theorem fixLead_of_user {first : Message} (role : first.role = .user) (rest : List Message) :
    (fixLead (first :: rest)).1 = first :: rest := by
  simp [fixLead, role]

theorem fixLead_of_assistant {first : Message} (role : first.role = .assistant) (rest : List Message) :
    (fixLead (first :: rest)).1 = rest := by
  simp [fixLead, role]

theorem fixTrail_of_user {last : Message} (role : last.role = .user) (front : List Message) :
    (fixTrail (front ++ [last])).1 = front ++ [last] := by
  simp [fixTrail, role]

theorem fixTrail_of_assistant {last : Message} (role : last.role = .assistant) (front : List Message) :
    (fixTrail (front ++ [last])).1 = front := by
  simp [fixTrail, role]

theorem fixLeadTrail_of_bounded {lead middle trail : List Message} (bounded : BoundedByUser middle)
    (leadShort : lead.length ≤ 1) (leadRoles : forall message, message ∈ lead -> message.role = .assistant)
    (trailShort : trail.length ≤ 1) (trailRoles : forall message, message ∈ trail -> message.role = .assistant) :
    (fixLeadTrail (lead ++ middle ++ trail)).1 = middle := by
  rcases bounded with ⟨⟨first, firstEq, firstRole⟩, last, lastEq, lastRole⟩
  rcases List.head?_eq_some_iff.mp firstEq with ⟨rest, shape⟩
  rcases List.getLast?_eq_some_iff.mp lastEq with ⟨front, reversed⟩
  have leadPopped : (fixLead (lead ++ middle ++ trail)).1 = middle ++ trail := by
    rw [List.append_assoc]
    cases lead with
    | nil =>
        rw [List.nil_append, shape]
        exact fixLead_of_user firstRole _
    | cons only others =>
        have none : others = [] := List.length_eq_zero_iff.mp (by simpa using leadShort)
        rw [none]
        exact fixLead_of_assistant (leadRoles only List.mem_cons_self) _
  have trailPopped : (fixTrail (middle ++ trail)).1 = middle := by
    cases trail with
    | nil =>
        rw [List.append_nil, reversed]
        exact fixTrail_of_user lastRole front
    | cons only others =>
        have none : others = [] := List.length_eq_zero_iff.mp (by simpa using trailShort)
        rw [none]
        exact fixTrail_of_assistant (trailRoles only List.mem_cons_self) _
  rw [fixLeadTrail, leadPopped]
  exact trailPopped

theorem fixLeadTrail_of_short {messages : List Message} (short : messages.length ≤ 2)
    (roles : forall message, message ∈ messages -> message.role = .assistant) :
    (fixLeadTrail messages).1 = [] := by
  cases messages with
  | nil => rfl
  | cons first rest =>
      have leadPopped := fixLead_of_assistant (roles first List.mem_cons_self) rest
      rw [fixLeadTrail, leadPopped]
      cases rest with
      | nil => rfl
      | cons second others =>
          have none : others = [] := List.length_eq_zero_iff.mp (by simpa using short)
          rw [none]
          exact fixTrail_of_assistant (roles second (List.mem_cons_of_mem first List.mem_cons_self)) []

/-! ### Merging and the ends -/

theorem messageJoining_total (message : Message) : (messageJoining.key message).isSome = true := rfl

theorem key_eq_of_run {messages : List Message} (run : AssistantRun messages) {first second : Message}
    (firstMember : first ∈ messages) (secondMember : second ∈ messages) :
    messageJoining.key first = messageJoining.key second := by
  rcases run.2 first firstMember second secondMember with ⟨sameVisible, sameContext⟩
  have firstRole := (effectiveRole_eq_assistant_iff first).mpr (run.1 first firstMember)
  have secondRole := (effectiveRole_eq_assistant_iff second).mpr (run.1 second secondMember)
  simp [messageJoining, messageKey, firstRole, secondRole, sameVisible, sameContext]

theorem role_eq_of_key {first second : Message}
    (same : messageJoining.key first = messageJoining.key second) : first.role = second.role := by
  have sameRole : effectiveRole first = effectiveRole second := congrArg Prod.fst (Option.some.inj same)
  rw [← role_effectiveRole first, sameRole, role_effectiveRole]

theorem assistantRun_iff (messages : List Message) :
    AssistantRun messages ↔ (messageJoining.collect messages).length ≤ 1 ∧
      forall message, message ∈ messageJoining.collect messages -> message.role = .assistant := by
  rw [messageJoining.collect_length_le_one_iff messageJoining_total]
  constructor
  · intro run
    refine ⟨fun first firstMember second secondMember => key_eq_of_run run firstMember secondMember, ?_⟩
    intro message member
    rcases messageJoining.key_of_mem_collect messages message member with ⟨source, sourceMember, same⟩
    rw [← role_eq_of_key same]
    exact run.1 source sourceMember
  · rintro ⟨uniform, roles⟩
    refine ⟨fun message member => ?_, fun first firstMember second secondMember => ?_⟩
    · rcases messageJoining.key_of_mem member with ⟨kept, keptMember, same⟩
      rw [← role_eq_of_key same]
      exact roles kept keptMember
    · have same := Option.some.inj (uniform first firstMember second secondMember)
      exact ⟨congrArg (fun key => key.2.1) same, congrArg (fun key => key.2.2) same⟩

theorem boundedByUser_collect (messages : List Message) :
    BoundedByUser (messageJoining.collect messages) ↔ BoundedByUser messages := by
  rcases messageJoining.collect_ends messages with ⟨headKey, lastKey⟩
  have transfer : forall {left right : Option Message},
      left.map messageJoining.key = right.map messageJoining.key ->
        (Exists fun message => left = some message ∧ message.role = .user) ->
          Exists fun message => right = some message ∧ message.role = .user := by
    rintro left right same ⟨message, rfl, role⟩
    cases right with
    | none => exact absurd same (by simp)
    | some other => exact ⟨other, rfl, by rw [← role_eq_of_key (Option.some.inj same), role]⟩
  exact and_congr ⟨transfer headKey, transfer headKey.symm⟩ ⟨transfer lastKey, transfer lastKey.symm⟩

theorem collect_eq_nil_iff (messages : List Message) : messageJoining.collect messages = [] ↔ messages = [] := by
  constructor
  · intro empty
    cases messages with
    | nil => rfl
    | cons first rest =>
        rcases messageJoining.key_of_mem (List.mem_cons_self : first ∈ first :: rest) with ⟨kept, member, _⟩
        rw [empty] at member
        exact absurd member List.not_mem_nil
  · rintro rfl
    rfl

theorem joins_eq_false_iff (first second : Message) :
    messageJoining.joins first second = false ↔ messageJoining.key first ≠ messageJoining.key second := by
  simp [Joining.joins, messageJoining]

theorem joins_of_role_ne {first second : Message} (different : first.role ≠ second.role) :
    messageJoining.joins first second = false :=
  (joins_eq_false_iff first second).mpr fun same => different (role_eq_of_key same)

theorem fixLeadTrail_bounded_iff (messages : List Message) :
    ((fixLeadTrail (messageJoining.collect messages)).1 = [] ∨
        BoundedByUser (fixLeadTrail (messageJoining.collect messages)).1) ↔ EndsSettle messages := by
  constructor
  · intro result
    rcases fixLeadTrail_split (messageJoining.collect messages) with
        ⟨lead, trail, split, ⟨leadShort, leadRoles⟩, trailShort, trailRoles⟩
    rcases messageJoining.collect_cut split with ⟨front, back, rfl, frontEq, backEq⟩
    rcases messageJoining.collect_cut frontEq with ⟨first, center, rfl, firstEq, centerEq⟩
    refine ⟨first, center, back, rfl, (assistantRun_iff first).mpr (by rw [firstEq]; exact ⟨leadShort, leadRoles⟩),
      (assistantRun_iff back).mpr (by rw [backEq]; exact ⟨trailShort, trailRoles⟩), ?_⟩
    rw [← centerEq] at result
    exact result.imp (collect_eq_nil_iff center).mp (boundedByUser_collect center).mp
  · rintro ⟨lead, middle, trail, rfl, leadRun, trailRun, bounded⟩
    rcases (assistantRun_iff lead).mp leadRun with ⟨leadShort, leadRoles⟩
    rcases (assistantRun_iff trail).mp trailRun with ⟨trailShort, trailRoles⟩
    rcases bounded with rfl | bounded
    · left
      rw [List.append_nil]
      have roles : forall message, message ∈ messageJoining.collect (lead ++ trail) -> message.role = .assistant := by
        intro message member
        rcases messageJoining.key_of_mem_collect _ message member with ⟨source, sourceMember, same⟩
        rw [← role_eq_of_key same]
        exact (List.mem_append.mp sourceMember).elim (leadRun.1 source) (trailRun.1 source)
      refine fixLeadTrail_of_short ?_ roles
      by_cases apart : forall last, last ∈ lead.getLast? -> forall next, next ∈ trail.head? ->
          messageJoining.joins last next = false
      · rw [messageJoining.collect_append lead trail apart, List.length_append]
        omega
      · have joined : Exists fun last => last ∈ lead.getLast? ∧ Exists fun next => next ∈ trail.head? ∧
            messageJoining.key last = messageJoining.key next := by
          by_contra none
          exact apart fun last lastMember next nextMember => (joins_eq_false_iff last next).mpr fun same =>
            none ⟨last, lastMember, next, nextMember, same⟩
        rcases joined with ⟨last, lastMember, next, nextMember, same⟩
        have whole : (messageJoining.collect (lead ++ trail)).length ≤ 1 := by
          rw [messageJoining.collect_length_le_one_iff messageJoining_total]
          have keyed : forall message, message ∈ lead ++ trail ->
              messageJoining.key message = messageJoining.key last := by
            intro message member
            rcases List.mem_append.mp member with inLead | inTrail
            · exact key_eq_of_run leadRun inLead (List.mem_of_getLast? lastMember)
            · rw [same]
              exact key_eq_of_run trailRun inTrail (List.mem_of_head? nextMember)
          intro first firstMember second secondMember
          rw [keyed first firstMember, keyed second secondMember]
        omega
    · right
      have merged := (boundedByUser_collect middle).mpr bounded
      rcases bounded with ⟨⟨first, firstEq, firstRole⟩, last, lastEq, lastRole⟩
      have split : messageJoining.collect (lead ++ middle ++ trail) =
          messageJoining.collect lead ++ messageJoining.collect middle ++ messageJoining.collect trail := by
        rw [messageJoining.collect_append (lead ++ middle) trail, messageJoining.collect_append lead middle]
        · intro before beforeMember next nextMember
          have nextUser : next.role = .user := by
            rw [← firstRole, Option.some.inj (nextMember.symm.trans firstEq)]
          exact joins_of_role_ne (by rw [leadRun.1 before (List.mem_of_getLast? beforeMember), nextUser]; decide)
        · intro before beforeMember next nextMember
          have beforeUser : before.role = .user := by
            rw [List.getLast?_append, lastEq] at beforeMember
            rw [← lastRole, Option.some.inj beforeMember]
          exact joins_of_role_ne (by rw [trailRun.1 next (List.mem_of_head? nextMember), beforeUser]; decide)
      rw [split, fixLeadTrail_of_bounded merged leadShort leadRoles trailShort trailRoles]
      exact merged

/-! ### Only roles matter at the ends -/

theorem boundedByUser_iff_roles (messages : List Message) :
    BoundedByUser messages ↔ (messages.map Message.role).head? = some .user ∧
      (messages.map Message.role).getLast? = some .user := by
  simp [BoundedByUser]

instance (messages : List Message) : Decidable (BoundedByUser messages) :=
  decidable_of_iff _ (boundedByUser_iff_roles messages).symm

theorem fixLeadTrail_roles {left right : List Message} (same : left.map Message.role = right.map Message.role) :
    (fixLeadTrail left).1.map Message.role = (fixLeadTrail right).1.map Message.role := by
  have lead : (fixLead left).1.map Message.role = (fixLead right).1.map Message.role := by
    cases left with
    | nil => rw [List.map_eq_nil_iff.mp same.symm]
    | cons first rest =>
        rcases List.map_eq_cons_iff.mp same.symm with ⟨other, others, rfl, sameRole, sameRest⟩
        cases role : first.role with
        | user => rw [fixLead_of_user role, fixLead_of_user (sameRole.trans role), same]
        | assistant => rw [fixLead_of_assistant role, fixLead_of_assistant (sameRole.trans role), sameRest]
  have trail : forall {front back : List Message}, front.map Message.role = back.map Message.role ->
      (fixTrail front).1.map Message.role = (fixTrail back).1.map Message.role := by
    intro front back same
    rcases List.eq_nil_or_concat' front with rfl | ⟨before, last, rfl⟩
    · rw [List.map_eq_nil_iff.mp same.symm]
    · rw [List.map_append] at same
      rcases List.map_eq_append_iff.mp same.symm with ⟨others, ends, rfl, sameOthers, sameEnds⟩
      rcases List.map_eq_cons_iff.mp sameEnds with ⟨other, none, rfl, sameRole, noneEq⟩
      rw [List.map_eq_nil_iff.mp noneEq]
      cases role : last.role with
      | user => rw [fixTrail_of_user role, fixTrail_of_user (sameRole.trans role)]; simp [sameOthers, sameRole]
      | assistant => rw [fixTrail_of_assistant role, fixTrail_of_assistant (sameRole.trans role), sameOthers]
  exact trail lead

theorem sameHeaders_settledMessage (codec : TextCodec) (whole : List (CallEvent String)) :
    SameHeaders (fun survivor : List (CallEvent String) × Message =>
      settledMessage codec whole survivor.1 survivor.2) Prod.snd :=
  ⟨fun survivor => settledMessage_header codec whole survivor.1 survivor.2⟩

theorem endsSettle_survivors_iff (codec : TextCodec) (messages : List Message) :
    ((fixLeadTrail (mergedMessages codec messages)).1 = [] ∨
      BoundedByUser (fixLeadTrail (mergedMessages codec messages)).1) ↔ EndsSettle (survivors messages) := by
  have sameRoles : (mergedMessages codec messages).map Message.role =
      (messageJoining.collect (pairedMessages codec messages)).map Message.role := by
    have headers := congrArg (List.map Prod.fst)
      (dedupeFrom_headers [] (mergeConsecutiveMessages (pairedMessages codec messages)).1)
    rw [mergeConsecutiveMessages_fst] at headers
    rw [mergedMessages, dedupeSignedThinking, mergeConsecutiveMessages_fst]
    simpa [List.map_map, Function.comp_def, Message.header] using headers
  have sameShown := fixLeadTrail_roles sameRoles
  have sameHeaders := sameHeaders_settledMessage codec (callEvents messages)
  have ends : EndsSettle (pairedMessages codec messages) ↔ EndsSettle (survivors messages) := by
    rw [pairedMessages_eq, survivors]
    exact ⟨sameHeaders.endsSettle, sameHeaders.symm.endsSettle⟩
  rw [← ends, ← fixLeadTrail_bounded_iff, boundedByUser_iff_roles, boundedByUser_iff_roles, sameShown,
    ← List.map_eq_nil_iff (f := Message.role), sameShown, List.map_eq_nil_iff]

/-- What the repair shows the agent begins and ends with the user exactly when
there is something to show and the surviving messages settle at both ends. -/
theorem fixConversation_boundedByUser_iff (codec : TextCodec) (now : Int) (conversation : Conversation) :
    BoundedByUser (fixConversation codec now conversation).1.visible ↔
      conversation.visible ≠ [] ∧ EndsSettle (survivors conversation.visible) := by
  by_cases nonempty : conversation.visible = []
  · rw [fixConversation_visible_nil codec now conversation nonempty]
    simp [boundedByUser_iff_roles, nonempty]
  rw [fixConversation_visible codec now conversation nonempty, fixMessages_fst, populateIfEmpty_fst,
    ← endsSettle_survivors_iff codec]
  simp only [ne_eq, nonempty, not_false_eq_true, true_and]
  split
  · rename_i empty
    simp only [empty, true_or, iff_true]
    exact (boundedByUser_iff_roles _).mpr ⟨rfl, rfl⟩
  · rename_i filled
    simp [filled]

/-- Two trailing assistant messages of different visibility are not merged, and
only the last of them is popped. -/
theorem fixConversation_leaves_trailing_assistant :
    ¬ BoundedByUser (fixConversation .ascii 0
      ⟨[{ Message.user 0 with content := [.plainText "hi"] },
        { Message.assistant 0 with content := [.plainText "x"] },
        { Message.assistant 0 with content := [.plainText "y"] }.agentOnly]⟩).1.visible := by
  decide

end AIBuddy
