import AIBuddy.Conversation.FixPasses

namespace AIBuddy

/-!
# What the repair keeps

Messages that the agent does not see pass through the repair in their places.
The messages that it does see are exactly the repaired ones: the map of slots
has room for all of them, because no pass lengthens a conversation that has a
message.  Whatever the user wrote, attached or showed survives every pass.
-/

/-! ## The map of slots -/

theorem shadowMap_hidden (fixed messages : List Message) (next : Nat)
    (visible : forall message, message ∈ fixed -> message.isAgentVisible = true) :
    ((shadowMap next messages).filterMap (fillSlot fixed)).filter (fun message => !message.isAgentVisible) =
      messages.filter fun message => !message.isAgentVisible := by
  induction messages generalizing next with
  | nil => rfl
  | cons message rest ih =>
      cases seen : message.isAgentVisible with
      | false => simp [shadowMap, seen, fillSlot, ih next]
      | true =>
          have tail := ih (next + 1)
          cases found : fixed[next]? with
          | none => simpa [shadowMap, seen, fillSlot, found] using tail
          | some repaired =>
              have repairedVisible := visible repaired (List.mem_of_getElem? found)
              simpa [shadowMap, seen, fillSlot, found, repairedVisible] using tail

theorem shadowMap_visible (fixed messages : List Message) (next : Nat)
    (visible : forall message, message ∈ fixed -> message.isAgentVisible = true) :
    ((shadowMap next messages).filterMap (fillSlot fixed)).filter Message.isAgentVisible =
      (fixed.drop next).take (messages.filter Message.isAgentVisible).length := by
  induction messages generalizing next with
  | nil => simp [shadowMap]
  | cons message rest ih =>
      cases seen : message.isAgentVisible with
      | false => simpa [shadowMap, seen, fillSlot] using ih next
      | true =>
          have tail := ih (next + 1)
          cases found : fixed[next]? with
          | none =>
              have past : fixed.length ≤ next := List.getElem?_eq_none_iff.mp found
              have done : fixed.drop (next + 1) = [] := List.drop_eq_nil_of_le (by omega)
              rw [done] at tail
              simpa [shadowMap, seen, fillSlot, found, List.drop_eq_nil_of_le past] using tail
          | some repaired =>
              have repairedVisible := visible repaired (List.mem_of_getElem? found)
              rcases List.getElem?_eq_some_iff.mp found with ⟨bound, here⟩
              have split : fixed.drop next = repaired :: fixed.drop (next + 1) := by
                rw [List.drop_eq_getElem_cons bound, here]
              simpa [shadowMap, seen, fillSlot, found, repairedVisible, split] using tail

/-! ## Visible messages stay visible -/

theorem fixMessages_visible (codec : TextCodec) (now : Int) (messages : List Message)
    (visible : forall message, message ∈ messages -> message.isAgentVisible = true) :
    forall message, message ∈ (fixMessages codec now messages).1 -> message.isAgentVisible = true := by
  intro message member
  rw [fixMessages_fst, populateIfEmpty_fst] at member
  split at member
  · rw [List.mem_singleton] at member
    subst member
    rfl
  · have header := (fixLeadTrail_headers codec messages).mem (List.mem_map_of_mem member)
    rcases List.mem_map.mp header with ⟨origin, originMember, same⟩
    have sameMetadata : origin.metadata = message.metadata := congrArg Prod.snd same
    rw [Message.isAgentVisible, ← sameMetadata]
    exact visible origin originMember

theorem fixMessages_length_le (codec : TextCodec) (now : Int) (messages : List Message)
    (nonempty : messages ≠ []) :
    (fixMessages codec now messages).1.length ≤ messages.length := by
  rw [fixMessages_fst, populateIfEmpty_fst]
  split
  · exact List.length_pos_iff.mpr nonempty
  · simpa using (fixLeadTrail_headers codec messages).length_le

theorem fixConversation_hidden (codec : TextCodec) (now : Int) (conversation : Conversation) :
    (fixConversation codec now conversation).1.hidden = conversation.hidden :=
  shadowMap_hidden _ _ 0 (fixMessages_visible codec now _ fun _ member => (List.mem_filter.mp member).2)

/-- With something to see, the agent sees exactly the repaired messages. -/
theorem fixConversation_visible (codec : TextCodec) (now : Int) (conversation : Conversation)
    (nonempty : conversation.visible ≠ []) :
    (fixConversation codec now conversation).1.visible =
      (fixMessages codec now conversation.visible).1 := by
  have filled := shadowMap_visible (fixMessages codec now conversation.visible).1 conversation.messages 0
    (fixMessages_visible codec now _ fun _ member => (List.mem_filter.mp member).2)
  rw [List.drop_zero] at filled
  rw [Conversation.visible, fixConversation, filled]
  exact List.take_of_length_le (fixMessages_length_le codec now _ nonempty)

/-- With nothing to see, the placeholder finds no slot. -/
theorem fixConversation_visible_nil (codec : TextCodec) (now : Int) (conversation : Conversation)
    (empty : conversation.visible = []) :
    (fixConversation codec now conversation).1.visible = [] := by
  have filled := shadowMap_visible (fixMessages codec now conversation.visible).1 conversation.messages 0
    (fixMessages_visible codec now _ fun _ member => (List.mem_filter.mp member).2)
  rw [Conversation.visible, fixConversation, filled]
  change List.take conversation.visible.length _ = []
  rw [empty]
  rfl

/-! ## What the user wrote -/

/-- A text that is not blank, an image or a document. -/
def isUserMaterial : MessageContentBlock -> Bool
  | .text content => !Text.isBlank content.text
  | .image _ | .document _ => true
  | _ => false

def messageMaterial (message : Message) : List MessageContentBlock :=
  if message.role = .user then message.content.filter isUserMaterial else []

/-- The texts, images and documents of user messages, in order. -/
def userMaterial (messages : List Message) : List MessageContentBlock :=
  messages.flatMap messageMaterial

theorem userMaterial_fixEachMessage {repair : Message -> Message} {issues : Message -> List String}
    (kept : forall message, messageMaterial (repair message) = messageMaterial message)
    (messages : List Message) :
    userMaterial (fixEachMessage repair issues messages).1 = userMaterial messages := by
  simp [userMaterial, fixEachMessage, List.flatMap_map, kept]

theorem userMaterial_filter {keep : Message -> Bool}
    (bare : forall message, keep message = false -> messageMaterial message = [])
    (messages : List Message) : userMaterial (messages.filter keep) = userMaterial messages := by
  induction messages with
  | nil => rfl
  | cons message rest ih =>
      simp only [userMaterial] at ih
      cases kept : keep message with
      | false => simp [userMaterial, kept, bare message kept, ih]
      | true => simp [userMaterial, kept, ih]

theorem messageMaterial_of_isEmptyMessage (message : Message) (empty : isEmptyMessage message = true) :
    messageMaterial message = [] := by
  rw [messageMaterial]
  split
  · rw [List.filter_eq_nil_iff]
    intro block member
    have blank := List.all_eq_true.mp empty block member
    cases block with
    | text content =>
        have noText : content.text = "" := by simpa [MessageContentBlock.asText] using blank
        simp [isUserMaterial, noText]
    | _ => simp [MessageContentBlock.asText] at blank ⊢
  · rfl

theorem userMaterial_removeEmptyMessages (messages : List Message) :
    userMaterial (removeEmptyMessages messages).1 = userMaterial messages :=
  userMaterial_filter (fun message dropped => messageMaterial_of_isEmptyMessage message (by simpa using dropped))
    messages

theorem filter_fixEmptyToolResult (codec : TextCodec) (content : List MessageContentBlock) :
    (content.map (fixEmptyToolResult codec)).filter isUserMaterial = content.filter isUserMaterial := by
  apply filter_map_of_fixed
  · intro block
    rcases fixEmptyToolResult_cases codec block with same | ⟨before, after, rfl, fixed, _⟩
    · rw [same]
    · rw [fixed]
      rfl
  · intro block material
    rcases fixEmptyToolResult_cases codec block with same | ⟨before, after, rfl, _, _⟩
    · exact same
    · exact absurd material (by simp [isUserMaterial])

theorem filter_scanContent (pending : Finset String) (content : List MessageContentBlock) :
    (scanContent .user pending content).kept.filter isUserMaterial = content.filter isUserMaterial := by
  induction content generalizing pending with
  | nil => rfl
  | cons block rest ih =>
      rw [scanContent]
      cases verdict : (scanBlock .user pending block).1 with
      | none =>
          rw [List.filter_cons, List.filter_cons, ih]
      | some issue =>
          have removed : isUserMaterial block = false := by
            cases block <;> first | rfl | simp [scanBlock, scanUserBlock] at verdict
          simp [removed, ih]

theorem userMaterial_scanMessages (pending : Finset String) (messages : List Message) :
    userMaterial (scanMessages pending messages).kept = userMaterial messages := by
  induction messages generalizing pending with
  | nil => rfl
  | cons message rest ih =>
      have same : messageMaterial { message with
          content := (scanContent message.role pending message.content).kept } = messageMaterial message := by
        cases role : message.role with
        | user => simp [messageMaterial, role, filter_scanContent]
        | assistant => simp [messageMaterial, role]
      have tail := ih (scanContent message.role pending message.content).pending
      simp only [userMaterial] at tail
      simp [userMaterial, scanMessages, same, tail]

theorem userMaterial_fixToolCalling (messages : List Message) :
    userMaterial (fixToolCalling messages).1 = userMaterial messages := by
  have dropped : forall pending kept, userMaterial (dropOrphanedRequests pending kept).1 = userMaterial kept :=
    fun pending kept => userMaterial_fixEachMessage (fun message => by
      cases role : message.role <;> simp [messageMaterial, role]) kept
  rw [fixToolCalling, userMaterial_removeEmptyMessages, dropped, userMaterial_scanMessages]

theorem userMaterial_mergeConsecutive (messages : List Message) :
    userMaterial (mergeConsecutiveMessages messages).1 = userMaterial messages := by
  rw [mergeConsecutiveMessages_fst]
  apply messageJoining.flatMap_collect
  intro first second joined
  have sameRole := role_eq_of_joins joined
  cases role : first.role <;> rw [role] at sameRole <;>
    simp [messageMaterial, messageJoining, appendContent, role, ← sameRole]

theorem userMaterial_dedupeFrom (seen : List MessageContentBlock) (messages : List Message) :
    userMaterial (dedupeFrom seen messages).1 = userMaterial messages := by
  induction messages generalizing seen with
  | nil => rfl
  | cons message rest ih =>
      simp only [userMaterial] at ih
      rw [dedupeFrom]
      split
      · rename_i role
        simp only
        split <;> simp [userMaterial, messageMaterial, role, ih]
      · simp [userMaterial, ih]

theorem userMaterial_fixLeadTrail (messages : List Message) :
    userMaterial (fixLeadTrail messages).1 = userMaterial messages := by
  have lead : forall kept, userMaterial (fixLead kept).1 = userMaterial kept := by
    intro kept
    cases kept with
    | nil => rfl
    | cons first rest =>
        rw [fixLead]
        split
        · rename_i role
          simp [userMaterial, messageMaterial, role]
        · rfl
  have trail : forall kept, userMaterial (fixTrail kept).1 = userMaterial kept := by
    intro kept
    rcases List.eq_nil_or_concat' kept with rfl | ⟨front, last, rfl⟩
    · rfl
    · simp only [fixTrail, List.getLast?_concat, List.dropLast_concat]
      split
      · rename_i role
        simp [userMaterial, messageMaterial, role]
      · rfl
  rw [fixLeadTrail, trail, lead]

/-- No pass before the placeholder touches what the user wrote. -/
theorem userMaterial_fixLeadTrail_merged (codec : TextCodec) (messages : List Message) :
    userMaterial (fixLeadTrail (mergedMessages codec messages)).1 = userMaterial messages := by
  have merged : userMaterial (mergeTextContentItems messages).1 = userMaterial messages :=
    userMaterial_fixEachMessage (fun message => by
      cases role : message.role <;> simp [mergeTextContentInMessage, messageMaterial, role]) messages
  rw [userMaterial_fixLeadTrail, mergedMessages, dedupeSignedThinking, userMaterial_dedupeFrom,
    userMaterial_mergeConsecutive, pairedMessages, userMaterial_fixToolCalling, preparedMessages,
    fixEmptyToolResults, userMaterial_fixEachMessage, userMaterial_removeEmptyMessages,
    trimAssistantTextWhitespace, userMaterial_fixEachMessage]
  · exact merged
  · intro message
    cases role : message.role <;> simp [messageMaterial, role]
  · intro message
    cases role : message.role <;> simp [messageMaterial, role, filter_fixEmptyToolResult]

/-- The repair of a conversation with something to see keeps hidden messages in
place, repairs exactly the visible ones, and loses nothing of what the user
wrote; the placeholder comes in only where there was nothing of the user's. -/
theorem fixConversation_preserves (codec : TextCodec) (now : Int) (conversation : Conversation)
    (nonempty : conversation.visible ≠ []) :
    (fixConversation codec now conversation).1.hidden = conversation.hidden ∧
      (fixConversation codec now conversation).1.visible =
        (fixMessages codec now conversation.visible).1 ∧
      (userMaterial (fixConversation codec now conversation).1.visible =
          userMaterial conversation.visible ∨
        userMaterial conversation.visible = [] ∧
          (fixConversation codec now conversation).1.visible =
            [(Message.user now).withText codec placeholderUserMessage]) := by
  refine ⟨fixConversation_hidden codec now conversation,
    fixConversation_visible codec now conversation nonempty, ?_⟩
  have material := userMaterial_fixLeadTrail_merged codec conversation.visible
  rw [fixConversation_visible codec now conversation nonempty, fixMessages_fst, populateIfEmpty_fst]
  split
  · rename_i empty
    right
    rw [empty] at material
    exact ⟨material.symm, rfl⟩
  · left
    exact material

theorem fixConversation_preserves_attached_note :
    let conversation : Conversation :=
      ⟨[{ Message.user 0 with content := [.plainText "read this", .document ⟨"cGRm", "application/pdf", none⟩] },
        (Message.user 1).userOnly,
        { Message.assistant 2 with content := [.plainText "done"] }]⟩
    (fixConversation .ascii 3 conversation).1.hidden = [(Message.user 1).userOnly] ∧
      (fixConversation .ascii 3 conversation).1.visible = (fixMessages .ascii 3 conversation.visible).1 ∧
      (userMaterial (fixConversation .ascii 3 conversation).1.visible = userMaterial conversation.visible ∨
        userMaterial conversation.visible = [] ∧
          (fixConversation .ascii 3 conversation).1.visible =
            [(Message.user 3).withText .ascii placeholderUserMessage]) :=
  fixConversation_preserves .ascii 3 _ (by decide)

end AIBuddy
