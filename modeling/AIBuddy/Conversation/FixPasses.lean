import AIBuddy.Conversation.Fix
import AIBuddy.Support.Coalesce

namespace AIBuddy

/-!
# What each repair pass does

The two merging passes are compactions of adjacent elements: texts for the same
audience inside an assistant message, and messages of one effective role and
one visibility in the conversation.  No pass invents a role or a visibility:
what it leaves has the roles and metadata of some of its messages, in order.
-/

theorem filter_map_of_fixed {α : Type} {rewrite : α -> α} {keep : α -> Bool}
    (same : forall item, keep (rewrite item) = keep item)
    (fixed : forall item, keep item = true -> rewrite item = item) (items : List α) :
    (items.map rewrite).filter keep = items.filter keep := by
  induction items with
  | nil => rfl
  | cons item rest ih =>
      cases kept : keep item with
      | false => simp [same, kept, ih]
      | true => simp [fixed item kept, kept, ih]

theorem emptyToolResult_eq_some {codec : TextCodec} {block : MessageContentBlock}
    {found : ToolResponse × CallToolResult} (empty : emptyToolResult codec block = some found) :
    block = .toolResponse found.1 := by
  cases block with
  | toolResponse answer =>
      simp only [emptyToolResult] at empty
      split at empty
      · split at empty
        · exact absurd empty (by simp)
        · rw [← Option.some.inj empty]
      · exact absurd empty (by simp)
  | _ => exact absurd empty (by simp [emptyToolResult])

theorem fixEmptyToolResult_cases (codec : TextCodec) (block : MessageContentBlock) :
    fixEmptyToolResult codec block = block ∨
      Exists fun before => Exists fun after => block = .toolResponse before ∧
        fixEmptyToolResult codec block = .toolResponse after ∧ after.id = before.id := by
  rw [fixEmptyToolResult]
  split
  · rename_i found
    exact Or.inr ⟨_, _, emptyToolResult_eq_some found, rfl, rfl⟩
  · exact Or.inl rfl

/-! ## Merging as compaction -/

/-- Texts of one audience join; every other block stands alone. -/
def textJoining : Joining MessageContentBlock (Option (List Role)) where
  key
    | .text content => some content.audience
    | _ => none
  combine
    | .text first, .text second => .text { first with text := first.text ++ second.text }
    | first, _ => first
  key_combine first second _ := by
    cases first <;> cases second <;> rfl

/-- Messages of one effective role join within one visibility. -/
def messageKey (message : Message) : EffectiveRole × Bool × Bool :=
  (effectiveRole message, message.metadata.userVisible, message.metadata.turnContext)

theorem effectiveRole_eq_assistant_iff (message : Message) :
    effectiveRole message = .assistant ↔ message.role = .assistant := by
  cases role : message.role <;> cases answers : hasToolResponse message <;>
    simp [effectiveRole, role, answers]

/-- The role that an effective role belongs to. -/
def EffectiveRole.role : EffectiveRole -> Role
  | assistant => .assistant
  | user | tool => .user

@[simp] theorem role_effectiveRole (message : Message) : (effectiveRole message).role = message.role := by
  cases role : message.role <;> cases answers : hasToolResponse message <;>
    simp [effectiveRole, role, answers, EffectiveRole.role]

/-- Append the content of one message to another. -/
def appendContent (first second : Message) : Message :=
  { first with content := first.content ++ second.content }

theorem effectiveRole_appendContent (first second : Message)
    (same : effectiveRole first = effectiveRole second) :
    effectiveRole (appendContent first second) = effectiveRole first := by
  have sameRole : first.role = second.role := by
    rw [← role_effectiveRole first, same, role_effectiveRole]
  have answers : hasToolResponse (appendContent first second) =
      (hasToolResponse first || hasToolResponse second) := by
    simp [hasToolResponse, appendContent]
  cases role : first.role with
  | assistant => simp [effectiveRole, appendContent, role]
  | user =>
      rw [role] at sameRole
      cases firstAnswers : hasToolResponse first <;> cases secondAnswers : hasToolResponse second <;>
        simp_all [effectiveRole, appendContent]

def messageJoining : Joining Message (EffectiveRole × Bool × Bool) where
  key message := some (messageKey message)
  combine := appendContent
  key_combine first second same := by
    have sameRole : effectiveRole first = effectiveRole second :=
      congrArg Prod.fst (Option.some.inj same)
    rw [messageKey, effectiveRole_appendContent first second sameRole]
    rfl

theorem role_eq_of_joins {first second : Message} (joined : messageJoining.joins first second = true) :
    first.role = second.role := by
  rcases (messageJoining.joins_iff first second).mp joined with ⟨key, firstKey, secondKey⟩
  have same : effectiveRole first = effectiveRole second :=
    congrArg Prod.fst (Option.some.inj (firstKey.trans secondKey.symm))
  rw [← role_effectiveRole first, same, role_effectiveRole]

theorem pushTextContent_eq (content : List MessageContentBlock) (item : MessageContentBlock) :
    pushTextContent content item = textJoining.push content item := by
  rcases List.eq_nil_or_concat' content with rfl | ⟨done, last, rfl⟩
  · cases item <;> rfl
  · cases item <;> cases last <;>
      simp [pushTextContent, Joining.push, Joining.joins, textJoining]

theorem mergeTextContent_eq (content : List MessageContentBlock) :
    content.foldl pushTextContent [] = textJoining.collect content := by
  rw [← Joining.foldl_push]
  congr 1
  funext done item
  exact pushTextContent_eq done item

theorem mergesInto_false (last message : Message) :
    mergesInto false last message = messageJoining.joins last message := by
  rw [Bool.eq_iff_iff]
  simp [mergesInto, Joining.joins, messageJoining, messageKey]

theorem mergeConsecutiveStep_eq (state : List Message × List String) (message : Message) :
    (mergeConsecutiveStep false state message).1 = messageJoining.push state.1 message := by
  rcases state with ⟨messages, issues⟩
  rcases List.eq_nil_or_concat' messages with rfl | ⟨done, last, rfl⟩
  · rfl
  · cases joined : messageJoining.joins last message with
    | false => simp [mergeConsecutiveStep, Joining.push, mergesInto_false, joined]
    | true =>
        simp only [mergeConsecutiveStep, Joining.push, List.getLast?_concat, mergesInto_false, joined,
          if_true]
        rfl

theorem mergeConsecutiveStep_count (state : List Message × List String) (message : Message) :
    (mergeConsecutiveStep false state message).1.length +
      (mergeConsecutiveStep false state message).2.length =
        state.1.length + state.2.length + 1 := by
  rcases state with ⟨messages, issues⟩
  rcases List.eq_nil_or_concat' messages with rfl | ⟨done, last, rfl⟩
  · simp [mergeConsecutiveStep]
    omega
  · cases joined : mergesInto false last message <;>
      simp [mergeConsecutiveStep, joined] <;> omega

private theorem foldl_mergeConsecutiveStep (state : List Message × List String)
    (messages : List Message) :
    (messages.foldl (mergeConsecutiveStep false) state).1 =
        messages.foldl messageJoining.push state.1 ∧
      (messages.foldl (mergeConsecutiveStep false) state).1.length +
        (messages.foldl (mergeConsecutiveStep false) state).2.length =
          state.1.length + state.2.length + messages.length := by
  induction messages generalizing state with
  | nil => simp
  | cons message rest ih =>
      rcases ih (mergeConsecutiveStep false state message) with ⟨sameMessages, counted⟩
      refine ⟨?_, ?_⟩
      · rw [List.foldl_cons, sameMessages, mergeConsecutiveStep_eq, List.foldl_cons]
      · rw [List.foldl_cons, counted, mergeConsecutiveStep_count, List.length_cons]
        omega

theorem mergeConsecutiveMessages_fst (messages : List Message) :
    (mergeConsecutiveMessages messages).1 = messageJoining.collect messages := by
  rw [← Joining.foldl_push]
  exact (foldl_mergeConsecutiveStep ([], []) messages).1

/-- It reports nothing exactly when no neighbours join. -/
theorem mergeConsecutiveMessages_quiet_iff (messages : List Message) :
    (mergeConsecutiveMessages messages).2 = [] ↔ messageJoining.Compact messages := by
  have counted := (foldl_mergeConsecutiveStep ([], []) messages).2
  have compacted := mergeConsecutiveMessages_fst messages
  rw [← Joining.collect_length_eq_iff, ← compacted, ← List.length_eq_zero_iff]
  simp only [mergeConsecutiveMessages, mergeConsecutive, List.length_nil, Nat.zero_add] at counted ⊢
  omega

/-! ## Roles and metadata -/

/-- The role of a message and everything that says who sees it. -/
def Message.header (message : Message) : Role × MessageMetadata :=
  (message.role, message.metadata)

/-- A pass that leaves the roles and metadata of some of its messages, in order. -/
def KeepsHeaders (pass : FixPass) : Prop :=
  forall messages, ((pass messages).1.map Message.header).Sublist (messages.map Message.header)

theorem fixEachMessage_keepsHeaders {repair : Message -> Message} {issues : Message -> List String}
    (kept : forall message, (repair message).header = message.header) :
    KeepsHeaders (fixEachMessage repair issues) := by
  intro messages
  have same : (messages.map repair).map Message.header = messages.map Message.header := by
    rw [List.map_map]
    exact List.map_congr_left fun message _ => kept message
  simp [fixEachMessage, same]

theorem mergeTextContentItems_keepsHeaders : KeepsHeaders mergeTextContentItems :=
  fixEachMessage_keepsHeaders fun message => by
    rw [mergeTextContentInMessage]
    split <;> rfl

theorem trimAssistantTextWhitespace_keepsHeaders : KeepsHeaders trimAssistantTextWhitespace :=
  fixEachMessage_keepsHeaders fun message => by
    split <;> rfl

theorem removeEmptyMessages_keepsHeaders : KeepsHeaders removeEmptyMessages :=
  fun _ => List.Sublist.map _ List.filter_sublist

theorem fixEmptyToolResults_keepsHeaders (codec : TextCodec) :
    KeepsHeaders (fixEmptyToolResults codec) :=
  fixEachMessage_keepsHeaders fun _ => rfl

theorem scanMessages_headers (pending : Finset String) (messages : List Message) :
    (scanMessages pending messages).kept.map Message.header = messages.map Message.header := by
  induction messages generalizing pending with
  | nil => rfl
  | cons message rest ih =>
      simp only [scanMessages, List.map_cons, ih]
      rfl

theorem dropOrphanedRequests_keepsHeaders (pending : Finset String) :
    KeepsHeaders (dropOrphanedRequests pending) :=
  fixEachMessage_keepsHeaders fun message => by
    split <;> rfl

theorem fixToolCalling_keepsHeaders : KeepsHeaders fixToolCalling := by
  intro messages
  have scanned := scanMessages_headers ∅ messages
  have dropped := dropOrphanedRequests_keepsHeaders (scanMessages ∅ messages).pending
    (scanMessages ∅ messages).kept
  rw [scanned] at dropped
  exact (removeEmptyMessages_keepsHeaders _).trans dropped

theorem mergeConsecutiveMessages_keepsHeaders : KeepsHeaders mergeConsecutiveMessages := by
  intro messages
  rw [mergeConsecutiveMessages_fst]
  exact messageJoining.map_collect_sublist Message.header (fun _ _ => rfl) messages

theorem dedupeFrom_headers (seen : List MessageContentBlock) (messages : List Message) :
    (dedupeFrom seen messages).1.map Message.header = messages.map Message.header := by
  induction messages generalizing seen with
  | nil => rfl
  | cons message rest ih =>
      rw [dedupeFrom]
      split
      · simp only
        split <;> simp [ih, Message.header]
      · simp [ih]

theorem dedupeSignedThinking_keepsHeaders : KeepsHeaders dedupeSignedThinking := by
  intro messages
  rw [dedupeSignedThinking, dedupeFrom_headers]

theorem fixLead_sublist (messages : List Message) : (fixLead messages).1.Sublist messages := by
  cases messages with
  | nil => exact List.Sublist.refl _
  | cons first rest =>
      rw [fixLead]
      split
      · exact List.sublist_cons_self first rest
      · exact List.Sublist.refl _

theorem fixTrail_sublist (messages : List Message) : (fixTrail messages).1.Sublist messages := by
  rw [fixTrail]
  split
  · split
    · exact List.dropLast_sublist messages
    · exact List.Sublist.refl _
  · exact List.Sublist.refl _

theorem fixLeadTrail_sublist (messages : List Message) : (fixLeadTrail messages).1.Sublist messages :=
  (fixTrail_sublist _).trans (fixLead_sublist messages)

theorem fixLeadTrail_keepsHeaders : KeepsHeaders fixLeadTrail :=
  fun messages => (fixLeadTrail_sublist messages).map _

/-! ## The passes in sequence -/

section Sequence

variable (codec : TextCodec) (now : Int)

/-- The conversation before the tool calls are paired. -/
def preparedMessages (messages : List Message) : List Message :=
  (fixEmptyToolResults codec
    (removeEmptyMessages (trimAssistantTextWhitespace (mergeTextContentItems messages).1).1).1).1

/-- The conversation once its tool calls are paired. -/
def pairedMessages (messages : List Message) : List Message :=
  (fixToolCalling (preparedMessages codec messages)).1

/-- The conversation before its ends are looked at. -/
def mergedMessages (messages : List Message) : List Message :=
  (dedupeSignedThinking (mergeConsecutiveMessages (pairedMessages codec messages)).1).1

theorem fixMessages_fst (messages : List Message) :
    (fixMessages codec now messages).1 =
      (populateIfEmpty codec now (fixLeadTrail (mergedMessages codec messages)).1).1 := rfl

theorem preparedMessages_headers (messages : List Message) :
    ((preparedMessages codec messages).map Message.header).Sublist (messages.map Message.header) :=
  (fixEmptyToolResults_keepsHeaders codec _).trans
    ((removeEmptyMessages_keepsHeaders _).trans
      ((trimAssistantTextWhitespace_keepsHeaders _).trans (mergeTextContentItems_keepsHeaders messages)))

theorem pairedMessages_headers (messages : List Message) :
    ((pairedMessages codec messages).map Message.header).Sublist (messages.map Message.header) :=
  (fixToolCalling_keepsHeaders _).trans (preparedMessages_headers codec messages)

theorem mergedMessages_headers (messages : List Message) :
    ((mergedMessages codec messages).map Message.header).Sublist (messages.map Message.header) :=
  (dedupeSignedThinking_keepsHeaders _).trans
    ((mergeConsecutiveMessages_keepsHeaders _).trans (pairedMessages_headers codec messages))

theorem fixLeadTrail_headers (messages : List Message) :
    ((fixLeadTrail (mergedMessages codec messages)).1.map Message.header).Sublist
      (messages.map Message.header) :=
  (fixLeadTrail_keepsHeaders _).trans (mergedMessages_headers codec messages)

/-- The placeholder is added exactly to an empty conversation. -/
theorem populateIfEmpty_fst (messages : List Message) :
    (populateIfEmpty codec now messages).1 =
      if messages = [] then [(Message.user now).withText codec placeholderUserMessage] else messages := by
  cases messages <;> simp [populateIfEmpty]

end Sequence
end AIBuddy
