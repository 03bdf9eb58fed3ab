import AIBuddy.Conversation.FixShape

namespace AIBuddy

open CallEvent CallLedger

/-!
# Conversations that need no repair

Every pass reports what it changes, so the repair is silent on a conversation
exactly when each pass is.  What each pass looks for is collected in one
predicate on conversations, `Clean`.
-/

/-! ## Passes over single messages -/

theorem fixEachMessage_quiet_iff (repair : Message -> Message) (issues : Message -> List String)
    (messages : List Message) :
    (fixEachMessage repair issues).Quiet messages ↔ forall message, message ∈ messages -> issues message = [] := by
  simp [Pass.Quiet, fixEachMessage]

theorem fixEachMessage_honest {repair : Message -> Message} {issues : Message -> List String}
    (honest : forall message, issues message = [] -> repair message = message) :
    (fixEachMessage repair issues).Honest := by
  intro messages quiet
  have silent := (fixEachMessage_quiet_iff repair issues messages).mp quiet
  exact (List.map_congr_left fun message member => honest message (silent message member)).trans (List.map_id _)

theorem mergeTextContentInMessage_length_iff {message : Message} (role : message.role = .assistant) :
    message.content.length = (mergeTextContentInMessage message).content.length ↔
      textJoining.Compact message.content := by
  rw [mergeTextContentInMessage, if_pos role]
  simp only [mergeTextContent_eq]
  rw [eq_comm]
  exact textJoining.collect_length_eq_iff message.content

theorem mergeTextContentItems_quiet_iff (messages : List Message) :
    mergeTextContentItems.Quiet messages ↔ forall message, message ∈ messages ->
      message.role = .assistant -> textJoining.Compact message.content := by
  rw [mergeTextContentItems, fixEachMessage_quiet_iff]
  refine forall₂_congr fun message _ => ?_
  cases role : message.role with
  | user => simp [mergeTextContentInMessage, role]
  | assistant =>
      have lengths := mergeTextContentInMessage_length_iff role
      rw [← lengths]
      simp

theorem mergeTextContentItems_honest : mergeTextContentItems.Honest := by
  refine fixEachMessage_honest fun message silent => ?_
  cases role : message.role with
  | user => simp [mergeTextContentInMessage, role]
  | assistant =>
      have compact := (mergeTextContentInMessage_length_iff role).mp (by simpa using silent)
      rw [mergeTextContentInMessage, if_pos role, mergeTextContent_eq, compact.collect_eq]

theorem trimTextBlock_of_not_trims {block : MessageContentBlock} (kept : trimsTextBlock block = false) :
    trimTextBlock block = block := by
  cases block with
  | text content =>
      have same : Text.trimEnd content.text = content.text :=
        (Text.trimEnd_length_eq_iff content.text).mp (by simpa [trimsTextBlock] using kept)
      simp [trimTextBlock, same]
  | _ => rfl

theorem trimAssistantTextWhitespace_quiet_iff (messages : List Message) :
    trimAssistantTextWhitespace.Quiet messages ↔ forall message, message ∈ messages ->
      message.role = .assistant -> forall block, block ∈ message.content -> trimsTextBlock block = false := by
  rw [trimAssistantTextWhitespace, fixEachMessage_quiet_iff]
  refine forall₂_congr fun message _ => ?_
  cases role : message.role <;> simp

theorem trimAssistantTextWhitespace_honest : trimAssistantTextWhitespace.Honest := by
  refine fixEachMessage_honest fun message silent => ?_
  cases role : message.role with
  | user => simp
  | assistant =>
      have kept : forall block, block ∈ message.content -> trimsTextBlock block = false := by
        simpa [role] using silent
      have same : message.content.map trimTextBlock = message.content :=
        (List.map_congr_left fun block member => trimTextBlock_of_not_trims (kept block member)).trans
          (List.map_id _)
      rw [if_pos rfl, same, ← role]

theorem removeEmptyMessages_quiet_iff (messages : List Message) :
    Pass.Quiet removeEmptyMessages messages ↔
      forall message, message ∈ messages -> isEmptyMessage message = false := by
  simp [Pass.Quiet, removeEmptyMessages]

theorem removeEmptyMessages_honest : Pass.Honest removeEmptyMessages := by
  intro messages quiet
  have filled := (removeEmptyMessages_quiet_iff messages).mp quiet
  exact List.filter_eq_self.mpr fun message member => by rw [filled message member]; rfl

theorem fixEmptyToolResults_quiet_iff (codec : TextCodec) (messages : List Message) :
    (fixEmptyToolResults codec).Quiet messages ↔ forall message, message ∈ messages ->
      forall block, block ∈ message.content -> emptyToolResult codec block = none := by
  rw [fixEmptyToolResults, fixEachMessage_quiet_iff]
  refine forall₂_congr fun message _ => ?_
  simp

theorem fixEmptyToolResults_honest (codec : TextCodec) : (fixEmptyToolResults codec).Honest := by
  refine fixEachMessage_honest fun message silent => ?_
  have kept : forall block, block ∈ message.content -> emptyToolResult codec block = none := by
    simpa using silent
  have same : message.content.map (fixEmptyToolResult codec) = message.content :=
    (List.map_congr_left fun block member => by rw [fixEmptyToolResult, kept block member]; rfl).trans
      (List.map_id _)
  simp [same]

/-! ## The pairing pass -/

theorem scanContent_issues_iff (role : Role) (pending : Finset String) (content : List MessageContentBlock) :
    (scanContent role pending content).issues = [] ↔
      (forall block, block ∈ content -> isForeign role block = false) ∧
        settle (fun _ => false) pending (content.filterMap (blockEvent role)) =
          content.filterMap (blockEvent role) := by
  induction content generalizing pending with
  | nil => simp [scanContent, settle]
  | cons block rest ih =>
      have here : (scanBlock role pending block).1 = none ↔ isForeign role block = false ∧
          settle (fun _ => false) pending (blockEvent role block).toList = (blockEvent role block).toList := by
        cases role with
        | assistant => cases block <;>
            simp [scanBlock, scanAssistantBlock, isForeign, blockEvent, settle]
        | user =>
            cases block with
            | toolResponse answer =>
                by_cases member : answer.id ∈ pending <;>
                  simp [scanBlock, scanUserBlock, isForeign, blockEvent, settle, member]
            | _ => simp [scanBlock, scanUserBlock, isForeign, blockEvent, settle]
      have split : (block :: rest).filterMap (blockEvent role) =
          (blockEvent role block).toList ++ rest.filterMap (blockEvent role) := by
        cases event : blockEvent role block <;> simp [event]
      rw [split, settle_append_eq_iff, ← scanBlock_pending, List.forall_mem_cons]
      have tail := ih (scanBlock role pending block).2
      rw [scanContent]
      cases verdict : (scanBlock role pending block).1 with
      | some issue =>
          have noisy : ¬ (isForeign role block = false ∧
              settle (fun _ => false) pending (blockEvent role block).toList = (blockEvent role block).toList) := by
            rw [← here, verdict]
            simp
          simp only [reduceCtorEq, false_iff]
          tauto
      | none =>
          have quiet := here.mp verdict
          simp only [tail]
          tauto

theorem scanMessages_issues_iff (pending : Finset String) (messages : List Message) :
    (scanMessages pending messages).issues = [] ↔ WellPlaced messages ∧
      settle (fun _ => false) pending (callEvents messages) = callEvents messages := by
  induction messages generalizing pending with
  | nil => simp [scanMessages, WellPlaced, AllBlocks, settle]
  | cons message rest ih =>
      have here := scanContent_issues_iff message.role pending message.content
      have tail := ih (scanContent message.role pending message.content).pending
      have pendingHere := scanContent_pending message.role pending message.content
      rw [callEvents_cons, settle_append_eq_iff, messageEvents, ← pendingHere, WellPlaced, AllBlocks, List.forall_mem_cons]
      simp only [scanMessages, List.append_eq_nil_iff, here, tail, WellPlaced, AllBlocks]
      tauto

theorem scanContent_kept_of_quiet (role : Role) (pending : Finset String) (content : List MessageContentBlock)
    (quiet : (scanContent role pending content).issues = []) :
    (scanContent role pending content).kept = content := by
  induction content generalizing pending with
  | nil => rfl
  | cons block rest ih =>
      rw [scanContent] at quiet ⊢
      cases verdict : (scanBlock role pending block).1 with
      | some issue => simp [verdict] at quiet
      | none =>
          simp only [verdict] at quiet ⊢
          rw [ih _ quiet]

theorem scanMessages_kept_of_quiet (pending : Finset String) (messages : List Message)
    (quiet : (scanMessages pending messages).issues = []) : (scanMessages pending messages).kept = messages := by
  induction messages generalizing pending with
  | nil => rfl
  | cons message rest ih =>
      simp only [scanMessages, List.append_eq_nil_iff] at quiet ⊢
      rw [scanContent_kept_of_quiet _ _ _ quiet.1, ih _ quiet.2]

theorem dropOrphanedRequests_quiet_iff (pending : Finset String) (messages : List Message) :
    (dropOrphanedRequests pending).Quiet messages ↔ forall event, event ∈ callEvents messages ->
      (event.isRequest && decide (event.callId ∈ pending)) = false := by
  have blocks : forall block : MessageContentBlock, orphanedRequest pending block = none ↔
      forall event, blockEvent .assistant block = some event ->
        (event.isRequest && decide (event.callId ∈ pending)) = false := by
    intro block
    rw [← Option.isNone_iff_eq_none, orphanedRequest_isNone]
    cases blockEvent .assistant block with
    | none => simp
    | some event => simp only [Option.all_some, Bool.not_eq_true', Option.some.injEq, forall_eq']
  have answers : forall (block : MessageContentBlock) event, blockEvent .user block = some event ->
      (event.isRequest && decide (event.callId ∈ pending)) = false := by
    intro block event found
    cases block with
    | toolResponse answer =>
        rw [← Option.some.inj found]
        rfl
    | _ => exact absurd found (by simp [blockEvent])
  have perMessage : forall message : Message,
      (if message.role = .assistant then
        message.content.filterMap fun block => (orphanedRequest pending block).map fun request =>
          "Removed orphaned tool request '" ++ request.id ++ "'"
      else []) = [] ↔ forall event, event ∈ messageEvents message ->
        (event.isRequest && decide (event.callId ∈ pending)) = false := by
    intro message
    simp only [messageEvents, List.mem_filterMap]
    cases role : message.role with
    | user =>
        simp only [reduceCtorEq, if_false, true_iff]
        rintro event ⟨block, _, found⟩
        exact answers block event found
    | assistant =>
        simp only [if_true, List.filterMap_eq_nil_iff, Option.map_eq_none_iff, blocks]
        constructor
        · rintro all event ⟨block, member, found⟩
          exact all block member event found
        · intro all block member event found
          exact all event ⟨block, member, found⟩
  rw [dropOrphanedRequests, fixEachMessage_quiet_iff]
  simp only [perMessage, callEvents, List.mem_flatMap]
  constructor
  · rintro all event ⟨message, member, inside⟩
    exact all message member event inside
  · intro all message member event inside
    exact all event ⟨message, member, inside⟩

theorem dropOrphanedRequests_honest (pending : Finset String) : (dropOrphanedRequests pending).Honest := by
  refine fixEachMessage_honest fun message silent => ?_
  cases role : message.role with
  | user => simp
  | assistant =>
      have kept : forall block, block ∈ message.content -> orphanedRequest pending block = none := by
        simpa [role] using silent
      have same : (message.content.filter fun block => (orphanedRequest pending block).isNone) = message.content :=
        List.filter_eq_self.mpr fun block member => by rw [kept block member]; rfl
      rw [if_pos rfl, same, ← role]

/-- The identifiers open at the end of a conversation. -/
def openCalls (messages : List Message) : String -> Bool :=
  fun id => decide (id ∈ (callEvents messages).foldl record ∅)

theorem fixToolCalling_quiet_iff (messages : List Message) :
    Pass.Quiet fixToolCalling messages ↔ WellPlaced messages ∧
      settle (openCalls messages) ∅ (callEvents messages) = callEvents messages ∧
        forall message, message ∈ messages -> isEmptyMessage message = false := by
  have steps : Pass.Quiet fixToolCalling messages ↔ (scanMessages ∅ messages).issues = [] ∧
      (dropOrphanedRequests (scanMessages ∅ messages).pending).Quiet messages ∧
        Pass.Quiet removeEmptyMessages messages := by
    simp only [Pass.Quiet, fixToolCalling, List.append_eq_nil_iff, and_assoc]
    refine and_congr_right fun scanned => ?_
    rw [scanMessages_kept_of_quiet ∅ messages scanned]
    refine and_congr_right fun dropped => ?_
    rw [dropOrphanedRequests_honest _ messages dropped]
  rw [steps, scanMessages_issues_iff, dropOrphanedRequests_quiet_iff, removeEmptyMessages_quiet_iff,
    scanMessages_pending, settle_eq_self_iff (openCalls messages)]
  simp only [openCalls, and_assoc]

theorem fixToolCalling_honest : Pass.Honest fixToolCalling := by
  intro messages quiet
  simp only [fixToolCalling, List.append_eq_nil_iff] at quiet ⊢
  rcases quiet with ⟨⟨scanned, dropped⟩, cleaned⟩
  rw [scanMessages_kept_of_quiet ∅ messages scanned] at dropped cleaned ⊢
  rw [dropOrphanedRequests_honest _ messages dropped] at cleaned ⊢
  exact removeEmptyMessages_honest messages cleaned

/-! ## Merging -/

theorem mergeConsecutiveMessages_honest : mergeConsecutiveMessages.Honest := by
  intro messages quiet
  rw [mergeConsecutiveMessages_fst]
  exact ((mergeConsecutiveMessages_quiet_iff messages).mp quiet).collect_eq

/-! ## Signed thinking -/

/-- The signed blocks of a message that are subject to removal. -/
def messageSigned (message : Message) : List MessageContentBlock :=
  if message.role = .assistant then message.content.filter isSignedThinking else []

/-- The signed blocks of assistant messages. -/
def signedBlocks (messages : List Message) : List MessageContentBlock :=
  messages.flatMap messageSigned

/-- The signed blocks are new and differ from each other. -/
def Fresh (seen signed : List MessageContentBlock) : Prop :=
  signed.Nodup ∧ forall block, block ∈ signed -> block ∉ seen

theorem fresh_cons_iff (seen rest : List MessageContentBlock) (block : MessageContentBlock) :
    Fresh seen (block :: rest) ↔ block ∉ seen ∧ Fresh (seen ++ [block]) rest := by
  simp only [Fresh, List.nodup_cons, List.forall_mem_cons, List.mem_append, List.mem_singleton, not_or]
  constructor
  · rintro ⟨⟨absent, nodup⟩, new, later⟩
    exact ⟨new, nodup, fun other member => ⟨later other member, fun same => absent (same ▸ member)⟩⟩
  · rintro ⟨new, nodup, later⟩
    exact ⟨⟨fun member => (later block member).2 rfl, nodup⟩, new, fun other member => (later other member).1⟩

theorem fresh_append_iff (seen front back : List MessageContentBlock) :
    Fresh seen (front ++ back) ↔ Fresh seen front ∧ Fresh (seen ++ front) back := by
  induction front generalizing seen with
  | nil => simp [Fresh]
  | cons block rest ih =>
      rw [List.cons_append, fresh_cons_iff, fresh_cons_iff, ih, List.append_assoc,
        List.singleton_append, and_assoc]

theorem dedupeContent_seen (seen content : List MessageContentBlock) :
    (dedupeContent seen content).2 = seen ++ (dedupeContent seen content).1.filter isSignedThinking := by
  induction content generalizing seen with
  | nil => simp [dedupeContent]
  | cons block rest ih =>
      rw [dedupeContent]
      split
      · exact ih seen
      · simp only [ih]
        cases signed : isSignedThinking block <;> simp [signed]

theorem dedupeContent_fresh (seen content : List MessageContentBlock) :
    Fresh seen ((dedupeContent seen content).1.filter isSignedThinking) := by
  induction content generalizing seen with
  | nil => simp [dedupeContent, Fresh]
  | cons block rest ih =>
      rw [dedupeContent]
      split
      · exact ih seen
      · rename_i kept
        cases signed : isSignedThinking block with
        | false => simpa [signed] using ih seen
        | true =>
            have new : block ∉ seen := by simpa [signed] using kept
            simp only [signed, if_true, List.filter_cons]
            exact (fresh_cons_iff _ _ _).mpr ⟨new, ih _⟩

theorem dedupeContent_length_iff (seen content : List MessageContentBlock) :
    (dedupeContent seen content).1.length = content.length ↔ Fresh seen (content.filter isSignedThinking) := by
  induction content generalizing seen with
  | nil => simp [dedupeContent, Fresh]
  | cons block rest ih =>
      rw [dedupeContent]
      split
      · rename_i dropped
        rcases Bool.and_eq_true_iff.mp dropped with ⟨signed, member⟩
        have shorter := (dedupeContent_sublist seen rest).length_le
        have old : block ∈ seen := by simpa using member
        rw [List.filter_cons_of_pos signed, fresh_cons_iff]
        constructor
        · intro same
          rw [List.length_cons] at same
          omega
        · rintro ⟨new, _⟩
          exact absurd old new
      · rename_i kept
        cases signed : isSignedThinking block with
        | false => simpa [signed] using ih seen
        | true =>
            have new : block ∉ seen := by simpa [signed] using kept
            rw [List.filter_cons_of_pos signed, fresh_cons_iff]
            simpa [new] using ih (seen ++ [block])

theorem dedupeContent_of_length {seen content : List MessageContentBlock}
    (full : (dedupeContent seen content).1.length = content.length) : (dedupeContent seen content).1 = content :=
  (dedupeContent_sublist seen content).eq_of_length full

theorem dedupeFrom_quiet_iff (seen : List MessageContentBlock) (messages : List Message) :
    (dedupeFrom seen).Quiet messages ↔ Fresh seen (signedBlocks messages) := by
  induction messages generalizing seen with
  | nil => simp [Pass.Quiet, dedupeFrom, signedBlocks, Fresh]
  | cons message rest ih =>
      have split : signedBlocks (message :: rest) = messageSigned message ++ signedBlocks rest := rfl
      rw [split, fresh_append_iff, messageSigned]
      simp only [Pass.Quiet] at ih ⊢
      rw [dedupeFrom]
      cases role : message.role with
      | user => simpa [Fresh] using ih seen
      | assistant =>
          simp only [if_true]
          split
          · rename_i full
            have fresh := (dedupeContent_length_iff seen message.content).mp full
            simp only [ih, dedupeContent_seen, dedupeContent_of_length full, fresh, true_and]
          · rename_i short
            have stale := (dedupeContent_length_iff seen message.content).not.mp short
            simp [stale]

theorem dedupeFrom_honest (seen : List MessageContentBlock) : (dedupeFrom seen).Honest := by
  intro messages quiet
  induction messages generalizing seen with
  | nil => rfl
  | cons message rest ih =>
      rw [dedupeFrom] at quiet ⊢
      split at quiet
      · rename_i role
        simp only [role, if_true] at quiet ⊢
        split at quiet
        · rename_i full
          rw [if_pos full]
          simp only [ih _ quiet]
        · exact absurd quiet (by simp)
      · rename_i role
        simp only [if_neg role] at quiet ⊢
        rw [ih seen quiet]

/-! ## Ends and placeholder -/

theorem fixLead_quiet_iff (messages : List Message) :
    Pass.Quiet fixLead messages ↔ forall first, messages.head? = some first -> first.role = .user := by
  cases messages with
  | nil => simp [Pass.Quiet, fixLead]
  | cons first rest => cases role : first.role <;> simp [Pass.Quiet, fixLead, role]

theorem fixLead_honest : Pass.Honest fixLead := by
  intro messages quiet
  cases messages with
  | nil => rfl
  | cons first rest => exact fixLead_of_user ((fixLead_quiet_iff _).mp quiet first rfl) rest

theorem fixTrail_quiet_iff (messages : List Message) :
    Pass.Quiet fixTrail messages ↔ forall last, messages.getLast? = some last -> last.role = .user := by
  rcases List.eq_nil_or_concat' messages with rfl | ⟨front, last, rfl⟩
  · simp [Pass.Quiet, fixTrail]
  · cases role : last.role <;> simp [Pass.Quiet, fixTrail, role]

theorem fixTrail_honest : Pass.Honest fixTrail := by
  intro messages quiet
  rcases List.eq_nil_or_concat' messages with rfl | ⟨front, last, rfl⟩
  · rfl
  · exact fixTrail_of_user ((fixTrail_quiet_iff _).mp quiet last (by simp)) front

theorem fixLeadTrail_quiet_iff (messages : List Message) :
    Pass.Quiet fixLeadTrail messages ↔ messages = [] ∨ BoundedByUser messages := by
  have both : Pass.Quiet fixLeadTrail messages ↔ Pass.Quiet fixLead messages ∧ Pass.Quiet fixTrail messages :=
    Pass.andThen_quiet_iff fixLead_honest messages
  rw [both, fixLead_quiet_iff, fixTrail_quiet_iff, BoundedByUser]
  cases messages with
  | nil => simp
  | cons first rest =>
      cases last : (first :: rest).getLast? with
      | none => simp at last
      | some last => simp

theorem fixLeadTrail_honest : Pass.Honest fixLeadTrail := by
  intro messages quiet
  have both : Pass.Quiet fixLead messages ∧ Pass.Quiet fixTrail messages :=
    (Pass.andThen_quiet_iff fixLead_honest messages).mp quiet
  have lead := fixLead_honest messages both.1
  have trail := fixTrail_honest messages both.2
  rw [fixLeadTrail, lead]
  exact trail

theorem populateIfEmpty_quiet_iff (codec : TextCodec) (now : Int) (messages : List Message) :
    (populateIfEmpty codec now).Quiet messages ↔ messages ≠ [] := by
  cases messages <;> simp [Pass.Quiet, populateIfEmpty]

theorem populateIfEmpty_honest (codec : TextCodec) (now : Int) : (populateIfEmpty codec now).Honest := by
  intro messages quiet
  have filled := (populateIfEmpty_quiet_iff codec now messages).mp quiet
  rw [populateIfEmpty_fst, if_neg filled]

/-! ## The whole repair -/

/-- What the repair looks for, all at once. -/
structure Clean (codec : TextCodec) (messages : List Message) : Prop where
  texts : forall message, message ∈ messages -> message.role = .assistant -> textJoining.Compact message.content
  trimmed : forall message, message ∈ messages -> message.role = .assistant ->
    forall block, block ∈ message.content -> trimsTextBlock block = false
  filled : forall message, message ∈ messages -> isEmptyMessage message = false
  answered : forall message, message ∈ messages ->
    forall block, block ∈ message.content -> emptyToolResult codec block = none
  placed : WellPlaced messages
  settled : settle (openCalls messages) ∅ (callEvents messages) = callEvents messages
  merged : messageJoining.Compact messages
  signed : Fresh [] (signedBlocks messages)
  bounded : BoundedByUser messages

theorem fixPasses_honest (codec : TextCodec) (now : Int) :
    forall pass, pass ∈ fixPasses codec now -> Pass.Honest pass := by
  simp only [fixPasses, List.forall_mem_cons, List.not_mem_nil, false_implies, implies_true, and_true]
  exact ⟨mergeTextContentItems_honest, trimAssistantTextWhitespace_honest, removeEmptyMessages_honest,
    fixEmptyToolResults_honest codec, fixToolCalling_honest, mergeConsecutiveMessages_honest,
    dedupeFrom_honest [], fixLeadTrail_honest, populateIfEmpty_honest codec now⟩

theorem fixMessages_honest (codec : TextCodec) (now : Int) : (fixMessages codec now).Honest :=
  Pass.run_honest (fixPasses_honest codec now)

theorem fixMessages_quiet_iff (codec : TextCodec) (now : Int) (messages : List Message) :
    (fixMessages codec now).Quiet messages ↔ Clean codec messages := by
  rw [fixMessages, Pass.run_quiet_iff (fixPasses_honest codec now)]
  simp only [fixPasses, List.forall_mem_cons, List.not_mem_nil, false_implies, implies_true, and_true,
    mergeTextContentItems_quiet_iff, trimAssistantTextWhitespace_quiet_iff, removeEmptyMessages_quiet_iff,
    fixEmptyToolResults_quiet_iff, fixToolCalling_quiet_iff, fixLeadTrail_quiet_iff,
    populateIfEmpty_quiet_iff, dedupeSignedThinking, dedupeFrom_quiet_iff]
  constructor
  · rintro ⟨texts, trimmed, filled, answered, ⟨placed, settled, _⟩, merged, signed, ends, nonempty⟩
    exact ⟨texts, trimmed, filled, answered, placed, settled,
      (mergeConsecutiveMessages_quiet_iff messages).mp merged, signed, ends.resolve_left nonempty⟩
  · intro clean
    have nonempty : messages ≠ [] := by
      rintro rfl
      exact absurd clean.bounded (by decide)
    exact ⟨clean.texts, clean.trimmed, clean.filled, clean.answered,
      ⟨clean.placed, clean.settled, clean.filled⟩,
      (mergeConsecutiveMessages_quiet_iff messages).mpr clean.merged, clean.signed, Or.inr clean.bounded, nonempty⟩

end AIBuddy
