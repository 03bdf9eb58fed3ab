import AIBuddy.Conversation.FixMiddle

namespace AIBuddy

open CallEvent CallLedger

/-!
# Repairing a repaired conversation

A second repair finds nothing to do when the first one left a clean
conversation.  Most of what a clean conversation needs is there whatever the
input was.  The exceptions are the ends, the calls around an opening assistant
message that was popped, and the texts of assistant messages merged across a
removed block.  When they are in order is said of the input.
-/

/-! ## Inputs on which the repair settles -/

/-- The first surviving message of the user, with the calls before it. -/
def firstUserSurvivor (messages : List Message) : Option (List (CallEvent String) × Message) :=
  (survivorsFrom (callEvents messages) [] messages).find? fun survivor => decide (survivor.2.role = .user)

/-- An identifier that stays open was never answered, and one that was requested
before the cut and closed later is requested again before it is answered. -/
def CallsSettle (earlier later : List (CallEvent String)) : Prop :=
  forall id, if IsOpen id (earlier ++ later) then ¬ [request id, response id].Sublist (earlier ++ later)
    else request id ∈ earlier -> (history id later).head? ≠ some false

/-- No inner run has a seam, and each is left with something. -/
def RunsSettle (whole : List (CallEvent String)) (messages : List Message) : Prop :=
  forall before run after, InnerRun messages before run after ->
    Mark.SeamFree none false (runMarks whole ((signedBlocks before).foldl remember []) run) ∧
      HasSubstance whole ((signedBlocks before).foldl remember []) run

/-- What the messages need for one repair to be enough. -/
structure Settles (messages : List Message) : Prop where
  filled : messages ≠ []
  ends : EndsSettle (survivors messages)
  calls : forall opening, opening ∈ firstUserSurvivor messages ->
    CallsSettle opening.1 ((callEvents messages).drop opening.1.length)
  runs : RunsSettle (callEvents messages) (survivors messages)

/-! ## What is clean whatever the input was -/

section Always

variable (codec : TextCodec) (messages : List Message)

theorem pairedMessages_trimmed :
    AllBlocks (fun role block => role = .assistant -> trimsTextBlock block = false) (pairedMessages codec messages) := by
  rw [pairedMessages_eq]
  intro message member block inside
  rcases List.mem_map.mp member with ⟨survivor, _, rfl⟩
  intro role
  have survivorRole : survivor.2.role = .assistant := by
    rw [← role]
    exact ((sameHeaders_settledMessage codec (callEvents messages)).role survivor).symm
  rw [settledMessage_assistant codec _ _ survivorRole] at inside
  rcases List.mem_map.mp inside with ⟨source, _, rfl⟩
  cases source <;> simp [trimTextBlock, trimsTextBlock]

theorem emptyToolResult_fixEmptyToolResult (block : MessageContentBlock) :
    emptyToolResult codec (fixEmptyToolResult codec block) = none := by
  rw [fixEmptyToolResult]
  split
  · rename_i answer result found
    simp [emptyToolResult, hasToolResultContent]
  · assumption

theorem pairedMessages_answered :
    AllBlocks (fun _ block => emptyToolResult codec block = none) (pairedMessages codec messages) := by
  have prepared : AllBlocks (fun _ block => emptyToolResult codec block = none) (preparedMessages codec messages) := by
    intro message member block inside
    rcases List.mem_map.mp member with ⟨source, _, rfl⟩
    rcases List.mem_map.mp inside with ⟨original, _, rfl⟩
    exact emptyToolResult_fixEmptyToolResult codec original
  have scanned := prepared.of_subset (scanMessages_origin ∅ (preparedMessages codec messages))
  exact scanned.of_subset (fixToolCalling_origin (preparedMessages codec messages))

theorem mergedMessages_eq :
    mergedMessages codec messages =
      (dedupeFrom [] (messageJoining.collect (pairedMessages codec messages))).1 := by
  rw [mergedMessages, dedupeSignedThinking, mergeConsecutiveMessages_fst]

theorem dedupeFrom_keys (seen : List MessageContentBlock) (kept : List Message) :
    (dedupeFrom seen kept).1.map messageJoining.key = kept.map messageJoining.key := by
  induction kept generalizing seen with
  | nil => rfl
  | cons message rest ih =>
      rw [dedupeFrom_cons, List.map_cons, List.map_cons, ih]
      congr 1
      cases role : message.role <;> simp [messageJoining, messageKey, effectiveRole, role]

theorem compact_of_keys {left right : List Message}
    (same : left.map messageJoining.key = right.map messageJoining.key)
    (compact : messageJoining.Compact right) : messageJoining.Compact left := by
  have keys : forall kept : List Message, messageJoining.Compact kept ↔
      (kept.map messageJoining.key).IsChain fun first second => first ≠ second := by
    intro kept
    rw [List.isChain_map, Joining.Compact]
    exact List.IsChain.iff fun first second => joins_eq_false_iff first second
  rw [keys, same, ← keys]
  exact compact

theorem fixLeadTrail_merged_compact :
    messageJoining.Compact (fixLeadTrail (mergedMessages codec messages)).1 := by
  rcases fixLeadTrail_split (mergedMessages codec messages) with ⟨lead, trail, split, _, _⟩
  have whole : messageJoining.Compact (mergedMessages codec messages) := by
    rw [mergedMessages_eq]
    exact compact_of_keys (dedupeFrom_keys [] _) (messageJoining.collect_compact _)
  rw [Joining.Compact, split] at whole
  exact whole.left_of_append.right_of_append

theorem fixLeadTrail_merged_fresh : Fresh [] (signedBlocks (fixLeadTrail (mergedMessages codec messages)).1) := by
  rcases fixLeadTrail_split (mergedMessages codec messages) with ⟨lead, trail, split, _, _⟩
  have whole : Fresh [] (signedBlocks (mergedMessages codec messages)) := by
    rw [mergedMessages_eq]
    exact dedupeFrom_fresh [] _
  rw [split, signedBlocks_append, signedBlocks_append] at whole
  exact ⟨(List.nodup_append.mp (List.nodup_append.mp whole.1).1).2.1, by simp⟩

theorem fixLeadTrail_user_filled : forall message, message ∈ (fixLeadTrail (mergedMessages codec messages)).1 ->
    message.role = .user -> isEmptyMessage message = false := by
  have paired : forall message, message ∈ pairedMessages codec messages -> isEmptyMessage message = false := by
    intro message member
    simpa using (List.mem_filter.mp member).2
  have merged : forall message, message ∈ messageJoining.collect (pairedMessages codec messages) ->
      isEmptyMessage message = false :=
    messageJoining.forall_collect (fun first second _ firstFilled secondFilled => by
      simp only [isEmptyMessage] at firstFilled
      simp [isEmptyMessage, messageJoining, appendContent, firstFilled]) paired
  have deduped : forall seen (kept : List Message), (forall message, message ∈ kept -> isEmptyMessage message = false) ->
      forall message, message ∈ (dedupeFrom seen kept).1 -> message.role = .user -> isEmptyMessage message = false := by
    intro seen kept filled
    induction kept generalizing seen with
    | nil => simp [dedupeFrom]
    | cons first rest ih =>
        rw [dedupeFrom_cons]
        refine List.forall_mem_cons.mpr ⟨fun role => ?_,
          ih _ fun message member => filled message (List.mem_cons_of_mem first member)⟩
        cases firstRole : first.role with
        | user => simpa using filled first List.mem_cons_self
        | assistant => simp [firstRole] at role
  intro message member
  rw [mergedMessages_eq] at member
  exact deduped [] _ merged message ((fixLeadTrail_sublist _).mem member)

end Always

/-! ## The calls of the middle -/

theorem assistants_before_user {front left : List Message} {first second : Message} {rest others : List Message}
    (same : front ++ first :: rest = left ++ second :: others)
    (frontAssistants : forall message, message ∈ front -> message.role = .assistant)
    (leftAssistants : forall message, message ∈ left -> message.role = .assistant)
    (firstRole : first.role = .user) (secondRole : second.role = .user) : front = left := by
  have taken : forall (lead : List Message) (next : Message) (tail : List Message),
      (forall message, message ∈ lead -> message.role = .assistant) -> next.role = .user ->
        (lead ++ next :: tail).takeWhile (fun message => decide (message.role = .assistant)) = lead := by
    intro lead next tail assistants role
    rw [List.takeWhile_append_of_pos fun message member => by simpa using assistants message member]
    simp [role]
  rw [← taken front first rest frontAssistants firstRole, same, taken left second others leftAssistants secondRole]

theorem dedupeFrom_role_of_mem {seen : List MessageContentBlock} {messages : List Message} {role : Role}
    (all : forall message, message ∈ messages -> message.role = role) :
    forall message, message ∈ (dedupeFrom seen messages).1 -> message.role = role := by
  intro message member
  rcases dedupeFrom_origin seen messages message member with ⟨source, sourceMember, same, _⟩
  rw [same]
  exact all source sourceMember

theorem collect_role_of_mem {messages : List Message} {role : Role}
    (all : forall message, message ∈ messages -> message.role = role) :
    forall message, message ∈ messageJoining.collect messages -> message.role = role := by
  intro message member
  rcases messageJoining.key_of_mem_collect messages message member with ⟨source, sourceMember, same⟩
  rw [← role_eq_of_key same]
  exact all source sourceMember

theorem callEvents_collect (messages : List Message) :
    callEvents (messageJoining.collect messages) = callEvents messages := by
  rw [← mergeConsecutiveMessages_fst, callEvents_mergeConsecutive]

section Calls

variable (codec : TextCodec) {messages : List Message}

theorem callEvents_shown {opening : List (CallEvent String) × Message}
    (opens : opening ∈ firstUserSurvivor messages)
    (bounded : BoundedByUser (fixLeadTrail (mergedMessages codec messages)).1) :
    Exists fun later => callEvents messages = opening.1 ++ later ∧
      (forall id, response id ∉ settle (droppedIn (callEvents messages)) ∅ opening.1) ∧
      callEvents (fixLeadTrail (mergedMessages codec messages)).1 =
        settle (droppedIn (callEvents messages)) (opening.1.foldl record ∅) later := by
  rcases List.find?_eq_some_iff_append.mp opens with ⟨openingRole, front, rest, survivorsEq, frontRoles⟩
  have openingUser : opening.2.role = .user := by simpa using openingRole
  rcases survivorsFrom_cut _ survivorsEq with ⟨before, after, split, sameEvents, frontEq⟩
  rw [List.nil_append] at sameEvents
  let settled := fun survivor : List (CallEvent String) × Message =>
    settledMessage codec (callEvents messages) survivor.1 survivor.2
  have headers := sameHeaders_settledMessage codec (callEvents messages)
  have frontAssistants : forall message, message ∈ front.map settled -> message.role = .assistant := by
    intro message member
    rcases List.mem_map.mp member with ⟨survivor, inside, rfl⟩
    have notUser := frontRoles survivor inside
    have survivorRole : survivor.2.role = .assistant := by
      cases role : survivor.2.role with
      | assistant => rfl
      | user => simp [role] at notUser
    exact (headers.role survivor).trans survivorRole
  have frontEvents : callEvents (front.map settled) =
      settle (droppedIn (callEvents messages)) ∅ opening.1 := by
    rw [sameEvents, ← frontEq]
    exact callEvents_survivorsFrom codec (callEvents messages) [] before
  have openingSettled : (settled opening).role = .user := (headers.role opening).trans openingUser
  have pairedEq : pairedMessages codec messages = front.map settled ++ settled opening :: rest.map settled := by
    rw [pairedMessages_eq, survivorsEq, List.map_append, List.map_cons]
  have mergedEq : mergedMessages codec messages = (dedupeFrom [] (messageJoining.collect (front.map settled))).1 ++
      (dedupeFrom ((signedBlocks (messageJoining.collect (front.map settled))).foldl remember [])
        (messageJoining.collect (settled opening :: rest.map settled))).1 := by
    rw [mergedMessages_eq, pairedEq, messageJoining.collect_append, dedupeFrom_append]
    intro last lastMember next nextMember
    have nextEq : settled opening = next := Option.some.inj nextMember
    refine joins_of_role_ne ?_
    rw [frontAssistants last (List.mem_of_getLast? lastMember), ← nextEq, openingSettled]
    decide
  have keepsUser : forall first second : Message, first.role = .user ->
      (messageJoining.combine first second).role = .user := fun _ _ role => role
  rcases messageJoining.collectFrom_head keepsUser (settled opening) (rest.map settled) openingSettled with
      ⟨first, others, openEq, firstRole⟩
  rcases fixLeadTrail_split (mergedMessages codec messages) with
      ⟨lead, trail, cut, ⟨_, leadAssistants⟩, _, trailAssistants⟩
  have trailEvents := callEvents_trail codec messages cut trailAssistants
  rcases bounded with ⟨⟨shown, shownEq, shownRole⟩, _⟩
  rcases List.head?_eq_some_iff.mp shownEq with ⟨shownRest, shownSplit⟩
  have sameLead : (dedupeFrom [] (messageJoining.collect (front.map settled))).1 = lead := by
    rw [Joining.collect, openEq, dedupeFrom_cons] at mergedEq
    rw [shownSplit, mergedEq, List.append_assoc, List.cons_append] at cut
    refine assistants_before_user cut (dedupeFrom_role_of_mem (collect_role_of_mem frontAssistants))
      leadAssistants ?_ shownRole
    simp [firstRole]
  have leadEvents : callEvents lead = settle (droppedIn (callEvents messages)) ∅ opening.1 := by
    rw [← sameLead, callEvents_dedupeFrom, callEvents_collect, frontEvents]
  have laterEvents : callEvents messages = opening.1 ++ callEvents after := by
    rw [sameEvents, ← callEvents_append, ← split]
  refine ⟨callEvents after, laterEvents, fun id => ?_, ?_⟩
  · rw [← frontEvents]
    intro member
    rcases List.mem_flatMap.mp member with ⟨message, messageMember, inside⟩
    rcases messageEvents_assistant (frontAssistants message messageMember) inside with ⟨other, isRequest⟩
    exact absurd isRequest (by simp)
  · have whole := callEvents_mergedMessages codec messages
    rw [cut, callEvents_append, callEvents_append, trailEvents, List.append_nil, leadEvents] at whole
    have parts := settle_append (droppedIn (callEvents messages)) ∅ opening.1 (callEvents after)
    rw [← laterEvents] at parts
    exact List.append_cancel_left (whole.trans parts)

theorem shown_settled_iff {opening : List (CallEvent String) × Message}
    (opens : opening ∈ firstUserSurvivor messages)
    (bounded : BoundedByUser (fixLeadTrail (mergedMessages codec messages)).1) :
    settle (openCalls (fixLeadTrail (mergedMessages codec messages)).1) ∅
        (callEvents (fixLeadTrail (mergedMessages codec messages)).1) =
      callEvents (fixLeadTrail (mergedMessages codec messages)).1 ↔
        CallsSettle opening.1 ((callEvents messages).drop opening.1.length) := by
  rcases callEvents_shown codec opens bounded with ⟨later, split, answerless, shownEvents⟩
  have dropped : (callEvents messages).drop opening.1.length = later := by
    rw [split, List.drop_left]
  rw [dropped]
  exact settle_cut_iff opening.1 later (droppedIn (callEvents messages)) (by rw [← split]; rfl) answerless _ shownEvents

end Calls

/-! ## The runs of the middle -/

section Runs

variable (codec : TextCodec) (messages : List Message)

theorem signedBlocks_settled (whole : List (CallEvent String)) (kept : List (List (CallEvent String) × Message)) :
    signedBlocks (kept.map fun survivor => settledMessage codec whole survivor.1 survivor.2) =
      signedBlocks (kept.map Prod.snd) := by
  have headers := sameHeaders_settledMessage codec whole
  have perMessage : forall survivor : List (CallEvent String) × Message,
      messageSigned (settledMessage codec whole survivor.1 survivor.2) = messageSigned survivor.2 := by
    intro survivor
    have sameRole := headers.role survivor
    cases role : survivor.2.role with
    | user => simp only [messageSigned, sameRole, role, reduceCtorEq, if_false]
    | assistant =>
        simp only [messageSigned, sameRole, role, if_true]
        rw [settledMessage_assistant codec whole survivor.1 role]
        exact signed_settledContent whole survivor.2
  simp [signedBlocks, List.flatMap_map, perMessage]

theorem forall_run_iff (holds : List MessageContentBlock -> Prop) :
    (forall before run after, InnerRun (pairedMessages codec messages) before run after ->
        holds (runContent before run)) ↔
      forall before run after, InnerRun (survivors messages) before run after ->
        holds (dedupeContent ((signedBlocks before).foldl remember [])
          (run.flatMap (settledContent (callEvents messages)))).1 := by
  have headers := sameHeaders_settledMessage codec (callEvents messages)
  have sameContent : forall before run : List (List (CallEvent String) × Message),
      AssistantRun (run.map Prod.snd) ->
        runContent (before.map fun survivor => settledMessage codec (callEvents messages) survivor.1 survivor.2)
            (run.map fun survivor => settledMessage codec (callEvents messages) survivor.1 survivor.2) =
          (dedupeContent ((signedBlocks (before.map Prod.snd)).foldl remember [])
            ((run.map Prod.snd).flatMap (settledContent (callEvents messages)))).1 := by
    intro before run assistants
    rw [runContent, signedBlocks_settled, List.flatMap_map, List.flatMap_map]
    have content : (run.flatMap fun survivor =>
          (settledMessage codec (callEvents messages) survivor.1 survivor.2).content) =
        run.flatMap fun survivor => settledContent (callEvents messages) survivor.2 :=
      List.flatMap_congr fun survivor member =>
        settledMessage_assistant codec _ _ (assistants.1 _ (List.mem_map_of_mem member))
    rw [content]
  rw [pairedMessages_eq, survivors]
  constructor
  · intro all before run after inner
    rcases List.map_eq_append_iff.mp inner.split with ⟨front, last, itemsEq, frontEq, rfl⟩
    rcases List.map_eq_append_iff.mp frontEq with ⟨first, center, rfl, rfl, rfl⟩
    rw [← sameContent first center inner.assistants]
    exact all _ _ _ (headers.symm.innerRun inner itemsEq)
  · intro all before run after inner
    rcases List.map_eq_append_iff.mp inner.split with ⟨front, last, itemsEq, frontEq, rfl⟩
    rcases List.map_eq_append_iff.mp frontEq with ⟨first, center, rfl, rfl, rfl⟩
    rw [sameContent first center (headers.assistantRun inner.assistants)]
    exact all _ _ _ (headers.innerRun inner itemsEq)

theorem shown_runs_iff (bounded : BoundedByUser (fixLeadTrail (mergedMessages codec messages)).1) :
    ((forall message, message ∈ (fixLeadTrail (mergedMessages codec messages)).1 ->
          message.role = .assistant -> textJoining.Compact message.content) ∧
        forall message, message ∈ (fixLeadTrail (mergedMessages codec messages)).1 ->
          isEmptyMessage message = false) ↔
      RunsSettle (callEvents messages) (survivors messages) := by
  have assistants : ((forall message, message ∈ (fixLeadTrail (mergedMessages codec messages)).1 ->
          message.role = .assistant -> textJoining.Compact message.content) ∧
        forall message, message ∈ (fixLeadTrail (mergedMessages codec messages)).1 ->
          isEmptyMessage message = false) ↔
      forall message, message ∈ (fixLeadTrail (mergedMessages codec messages)).1 -> message.role = .assistant ->
        textJoining.Compact message.content ∧ (message.content.all fun block => block.asText == some "") = false := by
    constructor
    · rintro ⟨texts, filled⟩ message member role
      exact ⟨texts message member role, filled message member⟩
    · intro both
      refine ⟨fun message member role => (both message member role).1, fun message member => ?_⟩
      cases role : message.role with
      | user => exact fixLeadTrail_user_filled codec messages message member role
      | assistant => exact (both message member role).2
  rw [assistants, forall_shown_iff (fun content => textJoining.Compact content ∧
      (content.all fun block => block.asText == some "") = false) bounded, mergedMessages_eq,
    forall_inner_iff (fun content => textJoining.Compact content ∧
      (content.all fun block => block.asText == some "") = false),
    forall_run_iff codec messages (fun content => textJoining.Compact content ∧
      (content.all fun block => block.asText == some "") = false)]
  simp only [dedupeContent_compact_iff, dedupeContent_filled_iff, RunsSettle]

end Runs

/-! ## Clean results -/

section Clean

variable (codec : TextCodec) {messages : List Message}

theorem placeholder_clean (now : Int) :
    Clean codec [(Message.user now).withText codec placeholderUserMessage] := by
  have same : sanitizeUnicodeTags codec placeholderUserMessage = "Hello" :=
    sanitizeUnicodeTags_ascii codec _ (by simp [placeholderUserMessage])
  have shape : (Message.user now).withText codec placeholderUserMessage =
      { Message.user now with content := [.plainText "Hello"] } := by
    rw [Message.withText, same]
    rfl
  rw [shape]
  refine ⟨?_, ?_, ?_, ?_, ?_, by rfl, List.isChain_singleton _, by simp [Fresh, signedBlocks, messageSigned, Message.user], ?_⟩
  · simp [Message.user]
  · simp [Message.user]
  · simp [isEmptyMessage, MessageContentBlock.plainText, MessageContentBlock.asText]
  · simp [MessageContentBlock.plainText, emptyToolResult]
  · simp [WellPlaced, AllBlocks, MessageContentBlock.plainText, isForeign]
  · exact ⟨⟨_, rfl, rfl⟩, _, rfl, rfl⟩

theorem mem_merged_role_iff (role : Role) :
    (Exists fun message => message ∈ mergedMessages codec messages ∧ message.role = role) ↔
      Exists fun survivor => survivor ∈ survivorsFrom (callEvents messages) [] messages ∧ survivor.2.role = role := by
  have headers := sameHeaders_settledMessage codec (callEvents messages)
  have keys := dedupeFrom_keys [] (messageJoining.collect (pairedMessages codec messages))
  rw [← mergedMessages_eq] at keys
  constructor
  · rintro ⟨message, member, rfl⟩
    have keyed := List.mem_map_of_mem (f := messageJoining.key) member
    rw [keys] at keyed
    rcases List.mem_map.mp keyed with ⟨merged, mergedMember, sameKey⟩
    rcases messageJoining.key_of_mem_collect _ merged mergedMember with ⟨source, sourceMember, sourceKey⟩
    rw [pairedMessages_eq] at sourceMember
    rcases List.mem_map.mp sourceMember with ⟨survivor, inside, rfl⟩
    exact ⟨survivor, inside, by rw [← headers.role, role_eq_of_key sourceKey, role_eq_of_key sameKey]⟩
  · rintro ⟨survivor, inside, rfl⟩
    have paired : settledMessage codec (callEvents messages) survivor.1 survivor.2 ∈ pairedMessages codec messages := by
      rw [pairedMessages_eq]
      exact List.mem_map_of_mem inside
    rcases messageJoining.key_of_mem paired with ⟨merged, mergedMember, mergedKey⟩
    have keyed := List.mem_map_of_mem (f := messageJoining.key) mergedMember
    rw [← keys] at keyed
    rcases List.mem_map.mp keyed with ⟨message, member, sameKey⟩
    exact ⟨message, member, by rw [role_eq_of_key sameKey, role_eq_of_key mergedKey, headers.role]⟩

theorem merged_user_of_opening {opening : List (CallEvent String) × Message}
    (opens : opening ∈ firstUserSurvivor messages) :
    Exists fun message => message ∈ mergedMessages codec messages ∧ message.role = .user :=
  (mem_merged_role_iff codec .user).mpr
    ⟨opening, List.mem_of_find?_eq_some opens, by simpa using List.find?_some opens⟩

theorem firstUserSurvivor_isSome (bounded : BoundedByUser (fixLeadTrail (mergedMessages codec messages)).1) :
    Exists fun opening => opening ∈ firstUserSurvivor messages := by
  rcases bounded with ⟨⟨shown, shownEq, role⟩, _⟩
  have member := (fixLeadTrail_sublist _).mem (List.mem_of_head? shownEq)
  rcases (mem_merged_role_iff codec .user).mp ⟨shown, member, role⟩ with ⟨survivor, inside, survivorRole⟩
  have found : (firstUserSurvivor messages).isSome = true :=
    List.find?_isSome.mpr ⟨survivor, inside, by simpa using survivorRole⟩
  exact Option.isSome_iff_exists.mp found

theorem shown_clean_iff (bounded : BoundedByUser (fixLeadTrail (mergedMessages codec messages)).1) :
    Clean codec (fixLeadTrail (mergedMessages codec messages)).1 ↔
      (forall opening, opening ∈ firstUserSurvivor messages ->
        CallsSettle opening.1 ((callEvents messages).drop opening.1.length)) ∧
      RunsSettle (callEvents messages) (survivors messages) := by
  have runs := shown_runs_iff codec messages bounded
  constructor
  · intro clean
    exact ⟨fun opening opens => (shown_settled_iff codec opens bounded).mp clean.settled,
      runs.mp ⟨clean.texts, clean.filled⟩⟩
  · rintro ⟨calls, settledRuns⟩
    rcases runs.mpr settledRuns with ⟨texts, filled⟩
    rcases firstUserSurvivor_isSome codec bounded with ⟨opening, opens⟩
    exact {
      texts := texts
      trimmed := fun message member role block inside =>
        AllBlocks.fixLeadTrail (pairedMessages_trimmed codec messages) message member block inside role
      filled := filled
      answered := AllBlocks.fixLeadTrail (pairedMessages_answered codec messages)
      placed := fixLeadTrail_wellPlaced codec messages
      settled := (shown_settled_iff codec opens bounded).mpr (calls opening opens)
      merged := fixLeadTrail_merged_compact codec messages
      signed := fixLeadTrail_merged_fresh codec messages
      bounded := bounded }

/-- Where nothing is left, no user message survived and no run is inside. -/
theorem settles_of_shown_nil (filled : messages ≠ [])
    (empty : (fixLeadTrail (mergedMessages codec messages)).1 = []) : Settles messages := by
  rcases fixLeadTrail_split (mergedMessages codec messages) with
      ⟨lead, trail, cut, ⟨leadShort, leadAssistants⟩, trailShort, trailAssistants⟩
  rw [empty, List.append_nil] at cut
  have assistants : forall message, message ∈ mergedMessages codec messages -> message.role = .assistant := by
    intro message member
    rw [cut] at member
    exact (List.mem_append.mp member).elim (leadAssistants message) (trailAssistants message)
  have noInner : forall before run after, ¬ InnerRun (survivors messages) before run after := by
    have none := (forall_run_iff codec messages fun _ => False).mp
    refine none ((forall_inner_iff (fun _ => False) _).mp fun front shown back inner notFirst notLast _ => ?_)
    rw [← mergedMessages_eq, cut] at inner
    have inside : lead ++ [] ++ trail = front ++ shown :: back := by
      rw [List.append_nil]
      exact inner
    have member := mem_of_inner leadShort trailShort inside notFirst notLast
    exact List.not_mem_nil member
  refine ⟨filled, (endsSettle_survivors_iff codec messages).mp (Or.inl empty), fun opening opens => ?_,
    fun before run after inner => absurd inner (noInner before run after)⟩
  rcases merged_user_of_opening codec opens with ⟨message, member, role⟩
  exact absurd (assistants message member) (by rw [role]; decide)

end Clean

/-! ## Repairing twice -/

theorem shadowMap_self (messages front : List Message) :
    (shadowMap front.length messages).filterMap
      (fillSlot (front ++ messages.filter Message.isAgentVisible)) = messages := by
  induction messages generalizing front with
  | nil => rfl
  | cons message rest ih =>
      cases seen : message.isAgentVisible with
      | false => simpa [shadowMap, seen, fillSlot] using ih front
      | true =>
          have tail := ih (front ++ [message])
          simpa [shadowMap, seen, fillSlot] using tail

theorem fixConversation_fixed_iff (codec : TextCodec) (now : Int) (conversation : Conversation) :
    fixConversation codec now conversation = (conversation, []) ↔ Clean codec conversation.visible := by
  rw [← fixMessages_quiet_iff codec now]
  constructor
  · intro fixed
    exact congrArg Prod.snd fixed
  · intro quiet
    have same := fixMessages_honest codec now conversation.visible quiet
    have filled := shadowMap_self conversation.messages []
    rw [List.length_nil, List.nil_append] at filled
    simp only [fixConversation, same]
    exact Prod.ext (congrArg Conversation.mk filled) quiet

/-- A second repair finds nothing to do exactly when the visible messages
settle. -/
theorem fixConversation_idempotent_iff (codec : TextCodec) (now later : Int) (conversation : Conversation) :
    fixConversation codec later (fixConversation codec now conversation).1 =
      ((fixConversation codec now conversation).1, []) ↔ Settles conversation.visible := by
  rw [fixConversation_fixed_iff]
  by_cases nonempty : conversation.visible = []
  · rw [fixConversation_visible_nil codec now conversation nonempty]
    constructor
    · intro clean
      exact absurd clean.bounded (by decide)
    · intro settles
      exact absurd nonempty settles.filled
  · rw [fixConversation_visible codec now conversation nonempty, fixMessages_fst, populateIfEmpty_fst]
    split
    · rename_i empty
      exact iff_of_true (placeholder_clean codec now) (settles_of_shown_nil codec nonempty empty)
    · rename_i filled
      have ends := endsSettle_survivors_iff codec conversation.visible
      simp only [filled, false_or] at ends
      constructor
      · intro clean
        rcases (shown_clean_iff codec clean.bounded).mp clean with ⟨calls, runs⟩
        exact ⟨nonempty, ends.mp clean.bounded, calls, runs⟩
      · intro settles
        exact (shown_clean_iff codec (ends.mpr settles.ends)).mpr ⟨settles.calls, settles.runs⟩

/-- Two assistant messages that merge between user messages leave texts side by
side, which a second repair merges. -/
theorem fixConversation_merges_again :
    let conversation : Conversation :=
      ⟨[{ Message.user 0 with content := [.plainText "hi"] },
        { Message.assistant 0 with content := [.plainText "x"] },
        { Message.assistant 0 with content := [.plainText "y"] },
        { Message.user 0 with content := [.plainText "more"] }]⟩
    (fixConversation .ascii 0 (fixConversation .ascii 0 conversation).1).2 = ["Merged text content"] ∧
      fixConversation .ascii 0 (fixConversation .ascii 0 conversation).1 ≠
        ((fixConversation .ascii 0 conversation).1, []) := by
  decide

/-! ## What a repair reports and leaves -/

/-- A repair that reports nothing has nothing to change: the visible messages were clean. -/
theorem fixConversation_silent_iff (codec : TextCodec) (now : Int) (conversation : Conversation) :
    (fixConversation codec now conversation).2 = [] ↔
      Clean codec conversation.visible ∧ (fixConversation codec now conversation).1 = conversation := by
  constructor
  · intro silent
    have clean := (fixMessages_quiet_iff codec now conversation.visible).mp silent
    exact ⟨clean, congrArg Prod.fst ((fixConversation_fixed_iff codec now conversation).mpr clean)⟩
  · rintro ⟨clean, _⟩
    exact (fixMessages_quiet_iff codec now conversation.visible).mpr clean

/-- What the agent sees after a repair, whatever it saw before: no two neighbours could still be
merged, no signed block of thinking is there twice, no block stands in a message of the wrong
role, no text of the assistant ends in whitespace, and no result of a tool is empty. -/
theorem fixConversation_tidy (codec : TextCodec) (now : Int) (conversation : Conversation) :
    let shown := (fixConversation codec now conversation).1.visible
    shown.IsChain (fun first second => mergesInto false first second = false) ∧ (signedBlocks shown).Nodup ∧
      WellPlaced shown ∧ AllBlocks (fun role block => role = .assistant -> trimsTextBlock block = false) shown ∧
        AllBlocks (fun _ block => emptyToolResult codec block = none) shown := by
  intro shown
  simp only [mergesInto_false]
  by_cases nothing : conversation.visible = []
  · have empty : shown = [] := fixConversation_visible_nil codec now conversation nothing
    rw [empty]
    exact ⟨.nil, List.nodup_nil, by simp [WellPlaced, AllBlocks], by simp [AllBlocks], by simp [AllBlocks]⟩
  · have repaired : shown = (fixMessages codec now conversation.visible).1 :=
      fixConversation_visible codec now conversation nothing
    rw [repaired, fixMessages_fst, populateIfEmpty_fst]
    split
    · have clean := placeholder_clean codec now
      exact ⟨clean.merged, clean.signed.1, clean.placed, fun message member block inside role =>
        clean.trimmed message member role block inside, clean.answered⟩
    · exact ⟨fixLeadTrail_merged_compact codec _, (fixLeadTrail_merged_fresh codec _).1,
        fixLeadTrail_wellPlaced codec _, AllBlocks.fixLeadTrail (pairedMessages_trimmed codec _),
        AllBlocks.fixLeadTrail (pairedMessages_answered codec _)⟩

end AIBuddy
