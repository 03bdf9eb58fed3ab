import AIBuddy.Desktop.Message
import AIBuddy.Session.MessageTable

namespace AIBuddy
namespace Desktop

/-!
# Editing a message in place

A message is edited by cutting the conversation in front of it and prompting again.  The server
deletes rows and the desktop filters its own list, and both compare the second in which a
message was created with the second of the edited one.  The cut falls in front of the message
on both sides exactly when its second separates the messages before it from the rest.
-/

inductive ChatState where
  | idle
  | thinking
  | streaming
  | waitingForUserInput
  | compacting
  | loadingConversation
  | restartingAgent
deriving DecidableEq

/-- What the desktop knows of a session when a message is edited. -/
structure Snapshot where
  messages : List Message
  chatState : ChatState
  activePromptAttemptId : Option String
  pendingCancelPromptAttemptId : Option String
deriving DecidableEq

inductive EditType where
  | fork
  | edit
deriving DecidableEq

/-- What the requests to the server fail with, if they fail. -/
structure EditReplies where
  cancelError : Option String
  truncateError : Option String

/-- What an edit comes to: another session is forked before a second, nothing happens, or the
conversation is cut and the list of the desktop ends with the new prompt. -/
inductive EditOutcome (content : Type) where
  | forked (conversationBefore : Int)
  | ignored
  | edited (table : MessageTable content) (messages : List Message)

section Update

variable {content : Type}

/-- The attempt whose tool permission is awaited, when that is what the session waits for. -/
def pendingToolPermissionPromptAttemptId (editSnapshot stored : Option Snapshot) : Option String :=
  match editSnapshot with
  | none => none
  | some snapshot =>
      if snapshot.chatState = .waitingForUserInput ∧ getPendingToolConfirmationIds snapshot.messages ≠ [] then
        stored.bind Snapshot.activePromptAttemptId
      else none

/-- Cut the conversation and the list of the desktop at a second. -/
def cutAndPrompt (messages : List Message) (message prompt : Message) (server : MessageTable content)
    (replies : EditReplies) : Except String (EditOutcome content) :=
  match replies.truncateError with
  | some error => .error error
  | none =>
      .ok (.edited (server.truncateConversation message.created)
        ((messages.filter fun other => decide (other.created < message.created)) ++ [prompt]))

/-- Edit a message, with the table that the server has when the conversation is cut. -/
def updateMessage (current stored : Option Snapshot) (messageId : String) (editType : EditType) (prompt : Message)
    (server : MessageTable content) (replies : EditReplies) : Except String (EditOutcome content) :=
  if (truthy (stored.bind Snapshot.pendingCancelPromptAttemptId)).isSome then
    .error "Cannot submit while prompt cancellation is pending"
  else
    let messages := (current.map Snapshot.messages).getD []
    match messages.find? fun message => decide (message.id = some messageId) with
    | none => .error ("Message with id " ++ messageId ++ " not found in current messages")
    | some message =>
        match editType with
        | .fork => .ok (.forked message.created)
        | .edit =>
            let editSnapshot := current.or stored
            match pendingToolPermissionPromptAttemptId editSnapshot stored with
            | some _ =>
                match replies.cancelError with
                | some _ => .error "Cannot update message because the active prompt could not be cancelled"
                | none => cutAndPrompt messages message prompt server replies
            | none =>
                if editSnapshot.map Snapshot.chatState = some .idle then
                  cutAndPrompt messages message prompt server replies
                else .ok .ignored

theorem cutAndPrompt_edited (messages : List Message) (message prompt : Message) (server : MessageTable content)
    (replies : EditReplies) (table : MessageTable content) (shown : List Message)
    (edited : cutAndPrompt messages message prompt server replies = .ok (.edited table shown)) :
    table = server.truncateConversation message.created ∧
      shown = (messages.filter fun other => decide (other.created < message.created)) ++ [prompt] := by
  rw [cutAndPrompt] at edited
  split at edited
  · contradiction
  · simp only [Except.ok.injEq, EditOutcome.edited.injEq] at edited
    exact ⟨edited.1.symm, edited.2.symm⟩

/-- An edit that is carried out cuts both sides at the second of the first message that has
the identifier. -/
theorem updateMessage_edited (snapshot : Snapshot) (stored : Option Snapshot) (messageId : String)
    (editType : EditType) (prompt : Message) (server : MessageTable content) (replies : EditReplies)
    (table : MessageTable content) (shown : List Message)
    (edited : updateMessage (some snapshot) stored messageId editType prompt server replies =
      .ok (.edited table shown)) :
    Exists fun message =>
      snapshot.messages.find? (fun other => decide (other.id = some messageId)) = some message ∧
        table = server.truncateConversation message.created ∧
        shown = (snapshot.messages.filter fun other => decide (other.created < message.created)) ++ [prompt] := by
  rw [updateMessage] at edited
  split at edited
  · contradiction
  · simp only [Option.map_some, Option.getD_some] at edited
    split at edited
    · contradiction
    · rename_i message found
      refine ⟨message, found, ?_⟩
      cases editType with
      | fork => cases edited
      | edit =>
          simp only at edited
          split at edited
          · split at edited
            · contradiction
            · exact cutAndPrompt_edited _ _ _ _ _ _ _ edited
          · split at edited
            · exact cutAndPrompt_edited _ _ _ _ _ _ _ edited
            · cases edited

end Update

/-! ## Where the cut falls -/

section Cut

variable {content : Type}

/-- A second is later than what was created before and no later than the rest, on the server and
in the copies that the desktop has. -/
def CutsAt (copy : MessageRow content -> Option Message) (second : Int)
    (before rest : List (MessageRow content)) : Prop :=
  (forall row, row ∈ before -> row.createdTimestamp < second ∧
    forall message, copy row = some message -> message.created < second) ∧
  (forall row, row ∈ rest -> second ≤ row.createdTimestamp ∧
    forall message, copy row = some message -> second ≤ message.created)

/-- A filter leaves the first part of a list just when it accepts that part and rejects the rest. -/
theorem filter_append_eq_left_iff {α : Type} (keep : α -> Bool) (front back : List α) :
    (front ++ back).filter keep = front ↔
      (forall value, value ∈ front -> keep value = true) ∧ forall value, value ∈ back -> keep value = false := by
  constructor
  · intro same
    have kept : forall value, value ∈ front -> keep value = true := by
      intro value member
      rw [← same] at member
      exact (List.mem_filter.mp member).2
    refine ⟨kept, fun value member => ?_⟩
    rw [List.filter_append, List.filter_eq_self.mpr kept, List.append_right_eq_self, List.filter_eq_nil_iff] at same
    exact Bool.not_eq_true _ ▸ same value member
  · rintro ⟨kept, dropped⟩
    rw [List.filter_append, List.filter_eq_self.mpr kept, List.filter_eq_nil_iff.mpr, List.append_nil]
    intro value member accepted
    rw [dropped value member] at accepted
    contradiction

/-- Messages that the server adds one after the other, with their identifiers and seconds. -/
def addMessages (table : MessageTable content) (added : List (Option String × Int × content)) :
    MessageTable content :=
  added.foldl (fun table message => table.addMessage message.1 message.2.1 message.2.2) table

theorem read_addMessages (table : MessageTable content) (added : List (Option String × Int × content)) :
    Exists fun later =>
      (addMessages table added).getConversation = table.getConversation ++ later ∧
        forall old, old ∈ later -> forall row, row ∈ table.getConversation ->
          row.createdTimestamp ≤ old.createdTimestamp := by
  induction added generalizing table with
  | nil => exact ⟨[], (List.append_nil _).symm, fun old member => absurd member List.not_mem_nil⟩
  | cons message added ih =>
      rcases ih (table.addMessage message.1 message.2.1 message.2.2) with ⟨later, read, latest⟩
      rw [MessageTable.getConversation_addMessage] at read latest
      refine ⟨table.addedRow message.1 message.2.1 message.2.2 :: later, ?_, ?_⟩
      · rw [addMessages, List.foldl_cons]
        rw [addMessages] at read
        rw [read, List.append_assoc, List.singleton_append]
      · intro old member row stored
        rcases List.mem_cons.mp member with rfl | behind
        · exact MessageTable.createdTimestamp_le_addedRow _ _ _ _ _ ((table.mem_getConversation row).mp stored)
        · exact latest old behind row (List.mem_append_left _ stored)

theorem find?_copies (copy : MessageRow content -> Option Message) (messageId : String)
    (before after : List (MessageRow content)) (row : MessageRow content) (message : Message)
    (copied : copy row = some message) (named : message.id = some messageId)
    (first : forall other, other ∈ before.filterMap copy -> other.id ≠ some messageId) :
    ((before ++ row :: after).filterMap copy).find? (fun other => decide (other.id = some messageId)) =
      some message := by
  rw [List.filterMap_append, List.filterMap_cons_some copied, List.find?_append, List.find?_eq_none.mpr,
    Option.none_or, List.find?_cons_of_pos (by simp [named])]
  intro other member
  simp [first other member]

/-- A message is edited in place.  The server is left with just the messages before it, and the
desktop with the copies of these and the new prompt, exactly when the second of the message
falls between the messages before it and the rest.  The server may have got further messages
since the desktop took its copies. -/
theorem updateMessage_cuts_iff (loaded : MessageTable content) (copy : MessageRow content -> Option Message)
    (added : List (Option String × Int × content)) (before after : List (MessageRow content))
    (row : MessageRow content) (message : Message) (messageId : String) (snapshot : Snapshot)
    (stored : Option Snapshot) (editType : EditType) (prompt : Message) (replies : EditReplies)
    (table : MessageTable content) (shown : List Message)
    (conversation : loaded.getConversation = before ++ row :: after)
    (shows : snapshot.messages = loaded.getConversation.filterMap copy)
    (copied : copy row = some message) (named : message.id = some messageId)
    (first : forall other, other ∈ before.filterMap copy -> other.id ≠ some messageId)
    (edited : updateMessage (some snapshot) stored messageId editType prompt (addMessages loaded added) replies =
      .ok (.edited table shown)) :
    (table.getConversation = before ∧ shown = before.filterMap copy ++ [prompt]) ↔
      CutsAt copy message.created before (row :: after) := by
  rcases updateMessage_edited _ _ _ _ _ _ _ _ _ edited with ⟨target, found, rfl, rfl⟩
  rw [shows, conversation, find?_copies copy messageId before after row message copied named first,
    Option.some.injEq] at found
  subst found
  rcases read_addMessages loaded added with ⟨later, read, latest⟩
  rw [MessageTable.getConversation_truncateConversation, read, conversation, List.append_assoc,
    filter_append_eq_left_iff, shows, conversation, List.filterMap_append, List.append_left_inj,
    filter_append_eq_left_iff]
  simp only [decide_eq_true_eq, decide_eq_false_iff_not, Int.not_lt, List.mem_filterMap, forall_exists_index, and_imp]
  constructor
  · rintro ⟨⟨older, newer⟩, olderCopies, newerCopies⟩
    refine ⟨fun other member => ⟨older other member, fun seen same => olderCopies seen other member same⟩,
      fun other member => ⟨newer other (List.mem_append_left _ member), fun seen same =>
        newerCopies seen other member same⟩⟩
  · rintro ⟨older, newer⟩
    refine ⟨⟨fun other member => (older other member).1, ?_⟩, fun seen other member same =>
      (older other member).2 seen same, fun seen other member same => (newer other member).2 seen same⟩
    intro other member
    rcases List.mem_append.mp member with known | fresh
    · exact (newer other known).1
    · have second := (newer row List.mem_cons_self).1
      exact Int.le_trans second (latest other fresh row (by rw [conversation]; simp))

theorem cutsAt_iff_of_stamped (loaded : MessageTable content) (copy : MessageRow content -> Option Message)
    (before after : List (MessageRow content)) (row : MessageRow content)
    (conversation : loaded.getConversation = before ++ row :: after)
    (stamped : forall other message, copy other = some message -> message.created = other.createdTimestamp) :
    CutsAt copy row.createdTimestamp before (row :: after) ↔
      forall other, other ∈ before -> other.createdTimestamp ≠ row.createdTimestamp := by
  have ordered := loaded.getConversation_pairwise
  rw [conversation, List.pairwise_append, List.pairwise_cons] at ordered
  rcases ordered with ⟨-, ⟨later, -⟩, across⟩
  constructor
  · rintro ⟨older, -⟩ other member
    exact Int.ne_of_lt (older other member).1
  · intro distinct
    have older : forall other, other ∈ before -> other.createdTimestamp < row.createdTimestamp := by
      intro other member
      have order := MessageRow.createdTimestamp_le _ _ (across other member row List.mem_cons_self)
      have apart := distinct other member
      omega
    have newer : forall other, other ∈ row :: after -> row.createdTimestamp ≤ other.createdTimestamp := by
      intro other member
      rcases List.mem_cons.mp member with rfl | behind
      · exact Int.le_refl _
      · exact MessageRow.createdTimestamp_le _ _ (later other behind)
    refine ⟨fun other member => ⟨older other member, fun message same => ?_⟩,
      fun other member => ⟨newer other member, fun message same => ?_⟩⟩
    · rw [stamped other message same]
      exact older other member
    · rw [stamped other message same]
      exact newer other member

end Cut

/-! ## Two messages of one second -/

/-- An answer and the next prompt, created in the same second. -/
def sameSecond : MessageTable String :=
  (((MessageTable.empty.addMessage (some "msg_1") 100 "assistant").addMessage (some "msg_2") 200 "assistant").addMessage
    (some "msg_3") 200 "user")

/-- The copy that a load makes of a row. -/
def loadedCopy (row : MessageRow String) : Option Message :=
  some ⟨row.messageId, if row.body = "user" then .user else .assistant, row.createdTimestamp,
    [.text row.body none none], defaultVisibleMessageMetadata⟩

/-- The session is idle and shows the whole conversation. -/
def idleSnapshot (table : MessageTable String) : Snapshot :=
  ⟨table.getConversation.filterMap loadedCopy, .idle, none, none⟩

theorem sameSecond_getConversation : sameSecond.getConversation = sameSecond.rows :=
  List.mergeSort_of_pairwise (by decide)

/-- The prompt is edited, and the answer of its second is lost on both sides. -/
theorem sameSecond_answer_lost :
    Exists fun table => Exists fun shown =>
      updateMessage (some (idleSnapshot sameSecond)) none "msg_3" .edit (createUserMessage "msg_4" 300 "again" [])
          sameSecond ⟨none, none⟩ = .ok (.edited table shown) ∧
        table.getConversation = sameSecond.rows.take 1 ∧
        sameSecond.getConversation.take 2 = sameSecond.rows.take 2 ∧
        shown.map Message.id = [some "msg_1", some "msg_4"] := by
  refine ⟨sameSecond.truncateConversation 200,
    (idleSnapshot sameSecond).messages.take 1 ++ [createUserMessage "msg_4" 300 "again" []], ?_, ?_, ?_, ?_⟩
  · rw [idleSnapshot, sameSecond_getConversation]
    rfl
  · rw [MessageTable.getConversation_truncateConversation, sameSecond_getConversation]
    rfl
  · rw [sameSecond_getConversation]
  · rw [idleSnapshot, sameSecond_getConversation]
    rfl

/-- The answer is the first message of its second, and is edited as it should be. -/
theorem sameSecond_answer_edited :
    Exists fun table => Exists fun shown =>
      updateMessage (some (idleSnapshot sameSecond)) none "msg_2" .edit (createUserMessage "msg_4" 300 "again" [])
          sameSecond ⟨none, none⟩ = .ok (.edited table shown) ∧
        table.getConversation = sameSecond.rows.take 1 ∧
        shown = (sameSecond.rows.take 1).filterMap loadedCopy ++ [createUserMessage "msg_4" 300 "again" []] := by
  refine ⟨sameSecond.truncateConversation 200,
    (idleSnapshot sameSecond).messages.take 1 ++ [createUserMessage "msg_4" 300 "again" []], ?_, ?_⟩
  · rw [idleSnapshot, sameSecond_getConversation]
    rfl
  · refine (updateMessage_cuts_iff sameSecond loadedCopy [] (sameSecond.rows.take 1) (sameSecond.rows.drop 2)
      ⟨2, some "msg_2", 200, "assistant"⟩ ⟨some "msg_2", .assistant, 200, [.text "assistant" none none],
        defaultVisibleMessageMetadata⟩ "msg_2" (idleSnapshot sameSecond) none .edit
      (createUserMessage "msg_4" 300 "again" []) ⟨none, none⟩ _ _ ?_ rfl rfl rfl ?_ ?_).mpr ?_
    · rw [sameSecond_getConversation]
      rfl
    · decide
    · rw [idleSnapshot, sameSecond_getConversation]
      rfl
    · rw [CutsAt]
      decide

end Desktop
end AIBuddy
