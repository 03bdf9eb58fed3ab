import AIBuddy.Conversation.FixPasses

namespace AIBuddy

/-!
# Boundaries that merging keeps

Merging moves the blocks of a message into the message before it.  A block is looked at with what
says who may see it: the role, the visibility and the turn context of its message.
-/

/-- What says who may see the blocks of a message. -/
def visibilityMarks (message : Message) : Role × Bool × Bool × Bool :=
  (message.role, message.metadata.userVisible, message.metadata.agentVisible, message.metadata.turnContext)

/-- All blocks in order, each with the marks of its message. -/
def markedBlocks (messages : List Message) : List (MessageContentBlock × Role × Bool × Bool × Bool) :=
  messages.flatMap fun message => message.content.map fun block => (block, visibilityMarks message)

/-- In a run of messages that merge into a first one, those with content are visible to the agent
as the first is. -/
def AgentVisibleAlike (first : Message) : List Message -> Prop
  | [] => True
  | message :: rest =>
      if messageKey first = messageKey message then
        (message.content ≠ [] -> message.metadata.agentVisible = first.metadata.agentVisible) ∧
          AgentVisibleAlike first rest
      else AgentVisibleAlike message rest

/-- Runs of messages have content of one visibility to the agent. -/
def RunsVisibleAlike : List Message -> Prop
  | [] => True
  | first :: rest => AgentVisibleAlike first rest

/-- The blocks of a message, with the marks of the one that they are moved into. -/
def movedBlocks (first second : Message) : List (MessageContentBlock × Role × Bool × Bool × Bool) :=
  second.content.map fun block => (block, visibilityMarks first)

theorem joins_iff_messageKey (first second : Message) :
    messageJoining.joins first second = true ↔ messageKey first = messageKey second := by
  simp [Joining.joins, messageJoining]

theorem visibilityMarks_eq_iff {first second : Message} (joined : messageJoining.joins first second = true) :
    visibilityMarks first = visibilityMarks second ↔ second.metadata.agentVisible = first.metadata.agentVisible := by
  have sameRole := role_eq_of_joins joined
  have sameKey := (joins_iff_messageKey first second).mp joined
  simp only [messageKey, Prod.mk.injEq] at sameKey
  simp only [visibilityMarks, Prod.mk.injEq, sameRole, sameKey.2.1, sameKey.2.2, true_and, and_true]
  exact eq_comm

theorem leaves_iff (first : Message) (messages : List Message) :
    messageJoining.Leaves (fun message => message.content.map fun block => (block, visibilityMarks message)) movedBlocks
        first messages ↔ AgentVisibleAlike first messages := by
  induction messages generalizing first with
  | nil => exact Iff.rfl
  | cons message rest ih =>
      rw [Joining.Leaves, AgentVisibleAlike]
      by_cases joined : messageJoining.joins first message = true
      · rw [if_pos joined, if_pos ((joins_iff_messageKey first message).mp joined), ih,
          ← visibilityMarks_eq_iff joined, movedBlocks]
        apply and_congr_left'
        cases message.content with
        | nil => simp
        | cons block blocks =>
            constructor
            · intro same _
              exact congrArg Prod.snd (List.cons.inj same).1
            · intro same
              rw [same (List.cons_ne_nil block blocks)]
      · rw [if_neg joined, if_neg fun same => joined ((joins_iff_messageKey first message).mpr same)]
        exact ih message

/-- Merging keeps all blocks in order and moves none into a message with other marks exactly when
every run has content of one visibility to the agent. -/
theorem mergeConsecutive_keeps_marks_iff (messages : List Message) :
    markedBlocks (mergeConsecutiveMessages messages).1 = markedBlocks messages ↔ RunsVisibleAlike messages := by
  rw [mergeConsecutiveMessages_fst, markedBlocks, markedBlocks]
  cases messages with
  | nil => exact iff_of_true rfl trivial
  | cons first rest =>
      rw [RunsVisibleAlike, ← leaves_iff]
      apply messageJoining.flatMap_collect_eq_iff
      · intro first second
        exact List.map_append
      · intro first second
        rw [movedBlocks, List.length_map, List.length_map]
      · intro first second third
        rfl

/-- A message that only the user sees is followed by one that the agent sees too. -/
def hiddenThenShown : List Message :=
  [{ Message.user 1 with content := [.plainText "secret"], metadata := MessageMetadata.userOnly },
    { Message.user 2 with content := [.plainText "hello"] }]

/-- What the agent should see is moved into the message that it does not see. -/
theorem mergeConsecutive_hides_text :
    (mergeConsecutiveMessages hiddenThenShown).1.map Message.content = [[.plainText "secret", .plainText "hello"]] ∧
      (mergeConsecutiveMessages hiddenThenShown).1.map (fun message => message.metadata.agentVisible) = [false] ∧
      markedBlocks (mergeConsecutiveMessages hiddenThenShown).1 ≠ markedBlocks hiddenThenShown := by
  decide +kernel

end AIBuddy
