import AIBuddy.Provider.OpenAiText

namespace AIBuddy
namespace OpenAi

/-!
# The thinking of a chat stream

Thinking comes as reasoning deltas or inside of the text.  Reasoning is yielded with its
chunk or with the tool calls behind it.  Thinking inside of the text waits, and is
dropped as soon as reasoning comes.
-/

/-! ## Thinking -/

def thinkingOf : MessageContentBlock -> List Char
  | .thinking content => content.thinking.toList
  | _ => []

/-- The text of all thinking blocks. -/
def thinkingText (content : List MessageContentBlock) : List Char :=
  content.flatMap thinkingOf

@[simp] theorem thinkingText_append (left right : List MessageContentBlock) :
    thinkingText (left ++ right) = thinkingText left ++ thinkingText right := by
  simp [thinkingText]

theorem thinkingText_flushedBlocks (content thinking : List Char) :
    thinkingText (flushedBlocks content thinking) = thinking := by
  rw [flushedBlocks, thinkingText_append]
  have none : thinkingText (if content.isEmpty then [] else [textBlock content]) = [] := by
    split
    · rfl
    · rfl
  rw [none, List.nil_append]
  split
  · rename_i empty
    rw [List.isEmpty_iff.mp empty]
    rfl
  · simp [thinkingText, thinkingOf, thinkingBlock]

theorem thinkingText_requests (json : JsonParser) (state : State) (entries : List (Int × StreamedCall)) :
    thinkingText (entries.map (requestBlock json state)) = [] := by
  induction entries with
  | nil => rfl
  | cons entry rest ih => exact ih

/-- The thinking of items. -/
def itemsThinking (items : List StreamItem) : List Char :=
  thinkingText (itemsContent items)

@[simp] theorem itemsThinking_append (earlier later : List StreamItem) :
    itemsThinking (earlier ++ later) = itemsThinking earlier ++ itemsThinking later := by
  simp [itemsThinking]

/-- The reasoning delta of a frame. -/
def Frame.reasoning (frame : Frame) : List Char :=
  ((frame.choice?.bind fun choice => choice.delta.reasoningText).getD "").toList

def reasoningOf (frames : List Frame) : List Char :=
  frames.flatMap Frame.reasoning

theorem Delta.reasoningText_ne_empty {delta : Delta} {reasoning : String}
    (said : delta.reasoningText = some reasoning) : reasoning ≠ "" := by
  rw [Delta.reasoningText, Option.or_eq_some_iff] at said
  rcases said with first | ⟨_, second⟩
  · simpa using (Option.filter_eq_some_iff.mp first).2
  · simpa using (Option.filter_eq_some_iff.mp second).2

/-! ## What is owed -/

theorem dropBytes_append (before after : List Char) : dropBytes (utf8Length before) (before ++ after) = some after := by
  induction before with
  | nil => simp [utf8Length, dropBytes]
  | cons character rest ih =>
      have size := Char.utf8Size_pos character
      have length : utf8Length (character :: rest) = character.utf8Size + utf8Length rest := by
        simp [utf8Length]
      have filled : character.utf8Size + utf8Length rest ≠ 0 := by omega
      rcases Nat.exists_eq_succ_of_ne_zero filled with ⟨bytes, same⟩
      rw [length, same, List.cons_append, dropBytes, if_pos (by omega)]
      have left : bytes + 1 - character.utf8Size = utf8Length rest := by omega
      rw [left, ih]

theorem utf8Length_pos {text : List Char} (filled : text ≠ []) : 0 < utf8Length text := by
  cases text with
  | nil => contradiction
  | cons character rest =>
      have size := Char.utf8Size_pos character
      simp only [utf8Length, List.map_cons, List.sum_cons]
      omega

/-- What of the accumulated reasoning was not yielded yet.  Thinking of the text does not
wait any longer once reasoning was seen. -/
structure Owes (state : State) (owed : List Char) : Prop where
  yielded : Exists fun yielded => state.accumulatedReasoningContent = yielded ++ owed ∧
    state.yieldedReasoningContentLen = utf8Length yielded
  dropped : state.sawStructuredReasoning = true -> state.pendingInlineThinking = []
  unseen : state.sawStructuredReasoning = false -> state.accumulatedReasoningContent = []

theorem Owes.nothing {state : State} {owed : List Char} (owes : Owes state owed)
    (unseen : state.sawStructuredReasoning = false) : owed = [] := by
  rcases owes.yielded with ⟨yielded, same, _⟩
  rw [owes.unseen unseen] at same
  exact (List.append_eq_nil_iff.mp same.symm).2

theorem thinkingText_unyieldedReasoning {state : State} {owed : List Char} (owes : Owes state owed) :
    thinkingText (unyieldedReasoning state) = owed := by
  rcases owes.yielded with ⟨yielded, accumulated, length⟩
  rw [unyieldedReasoning, accumulated, length, dropBytes_append, utf8Length_append]
  cases owed with
  | nil =>
      rw [if_neg (by simp [utf8Length])]
      rfl
  | cons character rest =>
      have filled := utf8Length_pos (List.cons_ne_nil character rest)
      rw [if_pos (by omega)]
      simp [thinkingText, thinkingOf, thinkingBlock]

/-- How taking in a chunk changes what is known of the reasoning. -/
structure Listens (before after : State) (reasoning : List Char) : Prop where
  accumulated : after.accumulatedReasoningContent = before.accumulatedReasoningContent ++ reasoning
  length : after.yieldedReasoningContentLen = before.yieldedReasoningContentLen
  saw : after.sawStructuredReasoning = (before.sawStructuredReasoning || !reasoning.isEmpty)
  pending : after.pendingInlineThinking = if reasoning.isEmpty then before.pendingInlineThinking else []
  filter : after.thinkFilter = before.thinkFilter

theorem listens_nothing (before : State) {after : State}
    (accumulated : after.accumulatedReasoningContent = before.accumulatedReasoningContent)
    (length : after.yieldedReasoningContentLen = before.yieldedReasoningContentLen)
    (saw : after.sawStructuredReasoning = before.sawStructuredReasoning)
    (pending : after.pendingInlineThinking = before.pendingInlineThinking)
    (filter : after.thinkFilter = before.thinkFilter) : Listens before after [] :=
  ⟨accumulated.trans (List.append_nil _).symm, length, by simp [saw], by simp [pending], filter⟩

theorem listens_noteReasoning (state : State) (delta : Delta) :
    Listens state (state.noteReasoning delta) (delta.reasoningText.getD "").toList := by
  rw [State.noteReasoning]
  cases said : delta.reasoningText with
  | none => exact listens_nothing state rfl rfl rfl rfl rfl
  | some reasoning =>
      have filled : reasoning.toList.isEmpty = false := by
        simpa using Delta.reasoningText_ne_empty said
      exact ⟨rfl, rfl, by simp [filled], by simp [filled], rfl⟩

theorem listens_receive (state : State) (chunk : StreamingChunk) :
    Listens state (state.receive chunk) (Frame.chunk chunk).reasoning := by
  rcases chunk with ⟨choices, id, usage, model⟩
  cases choices with
  | nil => exact listens_nothing state rfl rfl rfl rfl rfl
  | cons choice others =>
      have noted := listens_noteReasoning (state.noteChunk ⟨choice :: others, id, usage, model⟩) choice.delta
      exact ⟨noted.accumulated, noted.length, noted.saw, noted.pending, noted.filter⟩

theorem listens_receiveInner (state : State) (chunk : StreamingChunk) :
    Listens state (state.receiveInner chunk) (Frame.chunk chunk).reasoning := by
  rcases chunk with ⟨choices, id, usage, model⟩
  cases choices with
  | nil => exact listens_nothing state rfl rfl rfl rfl rfl
  | cons choice others =>
      exact ⟨(listens_noteReasoning _ _).accumulated, (listens_noteReasoning _ _).length,
        (listens_noteReasoning _ _).saw, (listens_noteReasoning _ _).pending, (listens_noteReasoning _ _).filter⟩

theorem Owes.listen {before after : State} {owed reasoning : List Char} (owes : Owes before owed)
    (listens : Listens before after reasoning) : Owes after (owed ++ reasoning) := by
  rcases owes.yielded with ⟨yielded, same, length⟩
  refine ⟨⟨yielded, ?_, listens.length.trans length⟩, ?_, ?_⟩
  · rw [listens.accumulated, same, List.append_assoc]
  · intro saw
    rw [listens.pending]
    cases empty : reasoning.isEmpty with
    | false => rfl
    | true =>
        rw [listens.saw, empty, Bool.not_true, Bool.or_false] at saw
        exact owes.dropped saw
  · intro unseen
    rw [listens.saw, Bool.or_eq_false_iff, Bool.not_eq_false', List.isEmpty_iff] at unseen
    rw [listens.accumulated, owes.unseen unseen.1, unseen.2]
    rfl

/-! ## Yielding -/

theorem itemsThinking_emitCalls (json : JsonParser) (now : Int) {state : State} {owed : List Char}
    (owes : Owes state owed) (rest : state.thinkFilter.AtRest) (collecting : Collecting) :
    itemsThinking (emitCalls json now state collecting).2 =
      if state.sawStructuredReasoning then owed else state.pendingInlineThinking := by
  rw [ThinkFilter.AtRest] at rest
  simp only [emitCalls, rest, FilterOut.empty, itemsThinking_append]
  have calls : itemsThinking [⟨some { assistantMessage now collecting.chunkId (unyieldedReasoning state ++
      collecting.calls.entries.map (requestBlock json state)) with
        metadata := { outputTokenLimitReached := state.outputTokenLimitReached } }, collecting.usage⟩] = owed := by
    simp [itemsThinking, thinkingText_unyieldedReasoning owes, thinkingText_requests]
  have waiting : itemsThinking (if (flushedBlocks [] (state.inlineThinking [])).isEmpty then []
      else [⟨some (assistantMessage now collecting.chunkId (flushedBlocks [] (state.inlineThinking []))), none⟩]) =
        state.inlineThinking [] := by
    have flushed := thinkingText_flushedBlocks [] (state.inlineThinking [])
    split
    · rename_i empty
      rw [List.isEmpty_iff.mp empty] at flushed
      exact flushed
    · simpa [itemsThinking] using flushed
  rw [calls, waiting, State.inlineThinking]
  cases saw : state.sawStructuredReasoning with
  | true => rfl
  | false => simp [owes.nothing saw]

/-- The thinking that is left when both loops are over. -/
def State.lastThinking (state : State) : List Char :=
  state.inlineThinking state.thinkFilter.finish.thinking

theorem itemsThinking_finish (now : Int) (state : State) : itemsThinking (finish now state) = state.lastThinking := by
  have bare : forall condition : Bool, forall item : StreamItem, itemsThinking [item] = [] ->
      itemsThinking (if condition then [item] else []) = [] := by
    intro condition item silent
    cases condition with
    | true => exact silent
    | false => rfl
  simp only [finish, itemsThinking_append]
  rw [bare _ _ rfl, bare _ _ rfl, List.append_nil, List.append_nil]
  have flushed := thinkingText_flushedBlocks state.thinkFilter.finish.content state.lastThinking
  split
  · rename_i empty
    rw [← State.lastThinking, List.isEmpty_iff] at empty
    rw [empty] at flushed
    exact flushed
  · simp only [itemsThinking, itemsContent_cons, itemsContent_nil, List.append_nil, Option.map_some, Option.getD_some,
      content_assistantMessage]
    exact flushed

theorem itemsThinking_yieldUsage (state : State) (usage : Option ProviderUsage) :
    itemsThinking (yieldUsage state usage).2 = [] := by
  rw [yieldUsage]
  split
  · rfl
  · rfl

theorem itemsThinking_emitText (now : Int) (state : State) (chunk : StreamingChunk) (choice : StreamingChoice)
    (usage : Option ProviderUsage) :
    itemsThinking (emitText now state chunk choice usage).2 = (choice.delta.reasoningText.getD "").toList := by
  have content : thinkingText (textContent state choice.delta) = (choice.delta.reasoningText.getD "").toList := by
    rw [textContent, thinkingText_append, thinkingText_flushedBlocks, List.append_nil]
    cases choice.delta.reasoningText with
    | none => rfl
    | some reasoning => simp [thinkingText, thinkingOf, thinkingBlock]
  simp only [emitText]
  split
  · rename_i empty
    rw [List.isEmpty_iff.mp empty] at content
    exact (itemsThinking_yieldUsage _ _).trans content
  · simp only [itemsThinking, itemsContent_cons, itemsContent_nil, List.append_nil, Option.map_some, Option.getD_some,
      content_assistantMessage]
    exact content

/-! ## Frames without tool calls -/

/-- What a frame without tool calls changes: its reasoning is yielded, and thinking of
its text waits unless reasoning was seen. -/
structure Speaks (state next : State) (items : List StreamItem) (frame : Frame) : Prop where
  said : itemsThinking items = frame.reasoning
  owes : Owes next []
  saw : next.sawStructuredReasoning = (state.sawStructuredReasoning || !frame.reasoning.isEmpty)
  pending : next.sawStructuredReasoning = false -> next.pendingInlineThinking =
    state.pendingInlineThinking ++ (state.thinkFilter.push frame.text).2.thinking
  filter : next.thinkFilter = (state.thinkFilter.push frame.text).1

theorem speaks_nothing {state : State} (owes : Owes state []) (rest : state.thinkFilter.AtRest) {frame : Frame}
    (mute : frame.choice? = none) : Speaks state state [] frame := by
  have reasoning : frame.reasoning = [] := by simp [Frame.reasoning, mute]
  have text : frame.text = [] := by simp [Frame.text, mute]
  refine ⟨reasoning.symm, owes, by simp [reasoning], fun _ => ?_, ?_⟩
  · rw [text, rest]
    exact (List.append_nil _).symm
  · rw [text, rest]

theorem yieldUsage_state (state : State) (usage : Option ProviderUsage) :
    Exists fun emitted : Bool => (yieldUsage state usage).1 = { state with usageEmitted := emitted } := by
  rw [yieldUsage]
  split
  · exact ⟨true, rfl⟩
  · exact ⟨state.usageEmitted, rfl⟩

theorem emitText_state (now : Int) (state : State) (chunk : StreamingChunk) (choice : StreamingChoice)
    (usage : Option ProviderUsage) :
    Exists fun emitted : Bool =>
      (emitText now state chunk choice usage).1 = { afterText state choice.delta with usageEmitted := emitted } := by
  simp only [emitText]
  split
  · exact yieldUsage_state _ _
  · exact ⟨_, rfl⟩

theorem owes_afterText {state : State} {delta : Delta} (owes : Owes state (delta.reasoningText.getD "").toList) :
    Owes (afterText state delta) [] := by
  refine ⟨?_, ?_, owes.unseen⟩
  · cases said : delta.reasoningText with
    | none =>
        rcases owes.yielded with ⟨yielded, accumulated, length⟩
        refine ⟨yielded, ?_, ?_⟩
        · simpa [afterText, said] using accumulated
        · simpa [afterText, said] using length
    | some reasoning =>
        refine ⟨state.accumulatedReasoningContent, (List.append_nil _).symm, ?_⟩
        simp [afterText, said]
  · intro saw
    have seen : state.sawStructuredReasoning = true := saw
    simp only [afterText, seen, if_true]
    exact owes.dropped seen

theorem outerChunk_speaks (json : JsonParser) (now : Int) {state : State} (owes : Owes state [])
    (rest : state.thinkFilter.AtRest) {chunk : StreamingChunk} (quiet : (Frame.chunk chunk).deltas = []) :
    Exists fun next : State => Exists fun items : List StreamItem =>
      Speaks state next items (.chunk chunk) ∧ outerChunk json now state chunk = .goOn next .outer items := by
  have listens := listens_receive state chunk
  have received := owes.listen listens
  rcases chunk with ⟨choices, id, usage, model⟩
  cases choices with
  | nil =>
      refine ⟨_, _, ?_, rfl⟩
      have nothing : Speaks state state [] (.chunk ⟨[], id, usage, model⟩) := speaks_nothing owes rest rfl
      exact ⟨rfl, ⟨received.yielded, received.dropped, received.unseen⟩, nothing.saw, nothing.pending, nothing.filter⟩
  | cons choice others =>
      have idle : startsCalls choice = false := by
        rw [Bool.eq_false_iff, Ne, startsCalls_iff]
        exact fun starts => starts quiet
      simp only [outerChunk, idle, Bool.false_eq_true, if_false]
      have atRest : (state.receive ⟨choice :: others, id, usage, model⟩).thinkFilter.AtRest := by
        rw [listens.filter]
        exact rest
      have pushed := pushText_eq atRest choice.delta
      rw [listens.filter] at pushed
      split
      · refine ⟨_, _, ?_, rfl⟩
        rcases emitText_state now (state.receive ⟨choice :: others, id, usage, model⟩) ⟨choice :: others, id, usage, model⟩
          choice ((state.receive ⟨choice :: others, id, usage, model⟩).usageOf ⟨choice :: others, id, usage, model⟩)
          with ⟨emitted, after⟩
        have paid := owes_afterText received
        refine ⟨itemsThinking_emitText _ _ _ _ _, ?_, ?_, ?_, ?_⟩
        · rw [after]
          exact ⟨paid.yielded, paid.dropped, paid.unseen⟩
        · rw [after]
          exact listens.saw
        · intro unseen
          rw [after] at unseen ⊢
          have waits : (state.receive ⟨choice :: others, id, usage, model⟩).sawStructuredReasoning = false := unseen
          have pending := listens.pending
          rw [listens.saw, Bool.or_eq_false_iff, Bool.not_eq_false'] at waits
          rw [if_pos waits.2] at pending
          have unsaw : (state.receive ⟨choice :: others, id, usage, model⟩).sawStructuredReasoning = false := unseen
          simp only [afterText, unsaw, Bool.false_eq_true, if_false, pending, pushed]
          rfl
        · rw [after]
          exact congrArg Prod.fst pushed
      · rename_i bare
        rw [Bool.or_eq_true, not_or] at bare
        have missing : choice.delta.content = none := by simpa using bare.1
        have unreasoned : choice.delta.reasoningText = none := by simpa using bare.2
        have text : (Frame.chunk ⟨choice :: others, id, usage, model⟩).text = [] := by
          simp [Frame.text, Frame.choice?, missing, extractContentAndSignature]
        have reasoning : (Frame.chunk ⟨choice :: others, id, usage, model⟩).reasoning = [] := by
          simp [Frame.reasoning, Frame.choice?, unreasoned]
        rw [reasoning] at listens received
        have kept := yieldUsage_state (state.receive ⟨choice :: others, id, usage, model⟩)
          ((state.receive ⟨choice :: others, id, usage, model⟩).usageOf ⟨choice :: others, id, usage, model⟩)
        rcases kept with ⟨emitted, after⟩
        refine ⟨_, _, ?_, rfl⟩
        refine ⟨?_, ?_, ?_, ?_, ?_⟩
        · rw [reasoning]
          exact itemsThinking_yieldUsage _ _
        · rw [after]
          exact ⟨received.yielded, received.dropped, received.unseen⟩
        · rw [after, reasoning]
          exact listens.saw
        · intro _
          rw [after, text, rest]
          exact listens.pending.trans (List.append_nil _).symm
        · rw [after, text, rest]
          exact listens.filter

theorem outerFrame_speaks (json : JsonParser) (now : Int) {state : State} (owes : Owes state [])
    (rest : state.thinkFilter.AtRest) {frame : Frame} (goesOn : frame.goesOn = true) (quiet : frame.deltas = []) :
    Exists fun next : State => Exists fun items : List StreamItem =>
      Speaks state next items frame ∧ frameOutcome json now state .outer frame = .goOn next .outer items := by
  cases frame with
  | other => exact ⟨state, [], speaks_nothing owes rest rfl, rfl⟩
  | blank => exact ⟨state, [], speaks_nothing owes rest rfl, rfl⟩
  | metadata => exact ⟨state, [], speaks_nothing owes rest rfl, rfl⟩
  | done => contradiction
  | broken error => contradiction
  | chunk chunk => exact outerChunk_speaks json now owes rest quiet

/-! ## The thinking of a response -/

section Run

variable {json : JsonParser} {now : Int}

/-- The thinking of all that is yielded for some frames. -/
def thinkingOfRun (json : JsonParser) (now : Int) (state : State) (mode : Mode) (frames : List Frame) : List Char :=
  thinkingText (readFrames json now state mode frames).content

theorem thinking_goOn {state next : State} {mode nextMode : Mode} {frame : Frame} {items : List StreamItem}
    (step : frameOutcome json now state mode frame = .goOn next nextMode items) (rest : List Frame) :
    thinkingOfRun json now state mode (frame :: rest) =
      itemsThinking items ++ thinkingOfRun json now next nextMode rest := by
  rw [thinkingOfRun, readFrames, step]
  simp [itemsThinking, thinkingOfRun]

theorem thinking_stop {state next : State} {mode : Mode} {frame : Frame}
    (step : frameOutcome json now state mode frame = .stop next) (rest : List Frame) :
    thinkingOfRun json now state mode (frame :: rest) = next.lastThinking := by
  rw [thinkingOfRun, readFrames, step]
  exact itemsThinking_finish now next

theorem lastThinking_eq {state other : State} (saw : other.sawStructuredReasoning = state.sawStructuredReasoning)
    (pending : other.pendingInlineThinking = state.pendingInlineThinking)
    (filter : other.thinkFilter = state.thinkFilter) : other.lastThinking = state.lastThinking := by
  rw [State.lastThinking, State.inlineThinking, saw, pending, filter]
  rfl

theorem thinking_trailing {trailer : List Frame} (trails : forall frame, frame ∈ trailer -> frame.trails = true)
    (mark : Option (List Frame)) (state : State) :
    thinkingOfRun json now state .outer (trailer ++ markFrames mark) = state.lastThinking := by
  induction trailer generalizing state with
  | nil =>
      cases mark with
      | none => exact itemsThinking_finish now state
      | some ignored => exact thinking_stop rfl ignored
  | cons frame rest ih =>
      have own := trails frame List.mem_cons_self
      have restTrails := fun later member => trails later (List.mem_cons_of_mem frame member)
      cases frame with
      | other =>
          rw [List.cons_append, thinking_goOn (by rfl)]
          exact ih restTrails state
      | blank =>
          rw [List.cons_append, thinking_goOn (by rfl)]
          exact ih restTrails state
      | metadata =>
          rw [List.cons_append, thinking_goOn (by rfl)]
          exact ih restTrails state
      | done => contradiction
      | broken error => contradiction
      | chunk chunk =>
          rcases chunk with ⟨choices, id, usage, model⟩
          cases choices with
          | nil =>
              rw [List.cons_append, thinking_goOn (by rfl), ih restTrails]
              exact lastThinking_eq rfl rfl rfl
          | cons choice others => contradiction

/-- What is yielded of the thinking when the calls are emitted and nothing follows. -/
def State.paid (state : State) (owed : List Char) : List Char :=
  if state.sawStructuredReasoning then owed else state.pendingInlineThinking ++ state.thinkFilter.finish.thinking

theorem thinking_emitCalls {state : State} {owed : List Char} (owes : Owes state owed)
    (atRest : state.thinkFilter.AtRest) (collecting : Collecting) :
    itemsThinking (emitCalls json now state collecting).2 ++ (emitCalls json now state collecting).1.lastThinking =
      state.paid owed := by
  rw [itemsThinking_emitCalls json now owes atRest, State.paid, State.lastThinking, State.inlineThinking]
  have filter := (itemsText_emitCalls json now atRest collecting).2
  rw [filter]
  cases saw : state.sawStructuredReasoning with
  | true => simp [emitCalls, saw]
  | false => simp [emitCalls, saw]

theorem thinking_leaveInner {state next : State} {mode : Mode} {frame : Frame} {collecting : Collecting}
    {owed : List Char} (step : frameOutcome json now state mode frame = leaveInner json now next collecting)
    (owes : Owes next owed) (atRest : next.thinkFilter.AtRest) {trailer : List Frame}
    (trails : forall frame, frame ∈ trailer -> frame.trails = true) (mark : Option (List Frame)) :
    thinkingOfRun json now state mode (frame :: (trailer ++ markFrames mark)) = next.paid owed := by
  rw [thinking_goOn step, thinking_trailing trails]
  exact thinking_emitCalls owes atRest collecting

theorem thinking_inner_trailing {trailer : List Frame}
    (trails : forall frame, frame ∈ trailer -> frame.trails = true) (mark : Option (List Frame))
    (reaches : reachesEnd (trailer ++ markFrames mark) = true) {state : State} {owed : List Char}
    (owes : Owes state owed) (atRest : state.thinkFilter.AtRest) (collecting : Collecting) :
    thinkingOfRun json now state (.collecting collecting) (trailer ++ markFrames mark) = state.paid owed := by
  induction trailer with
  | nil =>
      cases mark with
      | none =>
          have ended : thinkingOfRun json now state (.collecting collecting) [] =
              itemsThinking ((emitCalls json now state collecting).2 ++
                finish now (emitCalls json now state collecting).1) := rfl
          rw [markFrames, List.append_nil, ended, itemsThinking_append, itemsThinking_finish]
          exact thinking_emitCalls owes atRest collecting
      | some ignored => contradiction
  | cons frame rest ih =>
      have own := trails frame List.mem_cons_self
      have restTrails := fun later member => trails later (List.mem_cons_of_mem frame member)
      cases frame with
      | other =>
          rw [List.cons_append, thinking_goOn (by rfl)]
          exact ih restTrails reaches
      | blank => contradiction
      | metadata =>
          rw [List.cons_append, thinking_goOn (by rfl)]
          exact ih restTrails reaches
      | done => contradiction
      | broken error => contradiction
      | chunk chunk =>
          rcases chunk with ⟨choices, id, usage, model⟩
          cases choices with
          | nil =>
              rcases innerChunk_cases state collecting ⟨[], id, usage, model⟩ with ⟨collected, _, step⟩
              have leaves : frameOutcome json now state (.collecting collecting) (.chunk ⟨[], id, usage, model⟩) =
                leaveInner json now (state.receiveInner ⟨[], id, usage, model⟩) collected := step
              have listens := listens_receiveInner state ⟨[], id, usage, model⟩
              have received := owes.listen listens
              have filter : (state.receiveInner ⟨[], id, usage, model⟩).thinkFilter.AtRest := atRest
              rw [List.cons_append, thinking_leaveInner leaves received filter restTrails]
              have silent : (Frame.chunk ⟨[], id, usage, model⟩).reasoning = [] := rfl
              rw [silent, List.append_nil]
              rfl
          | cons choice others => contradiction

/-- What is yielded of the thinking when more reasoning comes before the calls are
emitted. -/
def State.paidAfter (state : State) (owed reasoning : List Char) : List Char :=
  if state.sawStructuredReasoning || !reasoning.isEmpty then owed ++ reasoning
  else state.pendingInlineThinking ++ state.thinkFilter.finish.thinking

theorem paid_listens {state next : State} {owed reasoning : List Char} (listens : Listens state next reasoning) :
    next.paid (owed ++ reasoning) = state.paidAfter owed reasoning := by
  rw [State.paid, State.paidAfter, listens.saw, listens.pending, listens.filter]
  cases empty : reasoning.isEmpty with
  | true => rfl
  | false => simp

theorem paidAfter_listens {state next : State} {owed reasoning : List Char} (listens : Listens state next reasoning)
    (later : List Char) : next.paidAfter (owed ++ reasoning) later = state.paidAfter owed (reasoning ++ later) := by
  rw [State.paidAfter, State.paidAfter, listens.saw, listens.pending, listens.filter, List.append_assoc]
  cases empty : reasoning.isEmpty with
  | true =>
      rw [List.isEmpty_iff] at empty
      simp [empty]
  | false =>
      have filled : (reasoning ++ later).isEmpty = false := by
        rw [Bool.eq_false_iff, Ne, List.isEmpty_iff] at empty ⊢
        exact fun none => empty (List.append_eq_nil_iff.mp none).1
      simp [filled]

theorem paidAfter_nil (state : State) (owed : List Char) : state.paidAfter owed [] = state.paid owed := by
  rw [State.paidAfter, State.paid]
  simp

theorem lastFrames_some {stream : ToolCallStream} {chunk : StreamingChunk} (last : stream.last = some chunk) :
    stream.ending = .chunk chunk :: (stream.trailer ++ markFrames stream.mark) := by
  rw [ToolCallStream.ending, last]
  rfl

theorem lastFrames_none {stream : ToolCallStream} (last : stream.last = none) :
    stream.ending = stream.trailer ++ markFrames stream.mark := by
  rw [ToolCallStream.ending, last]
  rfl

theorem thinking_inner (stream : ToolCallStream) {body : List Frame}
    (goesOn : forall frame, frame ∈ body -> frame.goesOn = true) (reaches : reachesEnd (body ++ stream.ending) = true)
    {state : State} {owed : List Char} (owes : Owes state owed) (atRest : state.thinkFilter.AtRest)
    (collecting : Collecting) :
    thinkingOfRun json now state (.collecting collecting) (body ++ stream.ending) =
      state.paidAfter owed (reasoningOf (body ++ lastFrames stream.last)) := by
  induction body generalizing state owed collecting with
  | nil =>
      rw [List.nil_append] at reaches
      rw [List.nil_append, List.nil_append]
      cases last : stream.last with
      | none =>
          rw [lastFrames_none last] at reaches ⊢
          rw [thinking_inner_trailing stream.trailer_trails stream.mark reaches owes atRest]
          exact (paidAfter_nil state owed).symm
      | some chunk =>
          have finishes := stream.last_finishes chunk last
          have ends : chunk.endsCalls = true := by rw [StreamingChunk.endsCalls, finishes, Bool.or_true]
          rcases innerChunk_cases state collecting chunk with ⟨collected, _, step⟩
          have leaves : frameOutcome json now state (.collecting collecting) (.chunk chunk) =
              leaveInner json now (state.receiveInner chunk) collected := step.trans (if_pos ends)
          have listens := listens_receiveInner state chunk
          have filter : (state.receiveInner chunk).thinkFilter.AtRest := by
            rw [listens.filter]
            exact atRest
          rw [lastFrames_some last, thinking_leaveInner leaves (owes.listen listens) filter stream.trailer_trails,
            paid_listens listens]
          simp [lastFrames, reasoningOf]
  | cons frame rest ih =>
      have own := goesOn frame List.mem_cons_self
      have restGoesOn := fun later member => goesOn later (List.mem_cons_of_mem frame member)
      cases frame with
      | other =>
          rw [List.cons_append, thinking_goOn (by rfl)]
          exact ih restGoesOn reaches owes atRest collecting
      | blank => contradiction
      | metadata =>
          rw [List.cons_append, thinking_goOn (by rfl)]
          exact ih restGoesOn reaches owes atRest collecting
      | done => contradiction
      | broken error => contradiction
      | chunk chunk =>
          have stays := StreamingChunk.endsCalls_goesOn own
          rcases innerChunk_cases state collecting chunk with ⟨collected, _, step⟩
          have next : frameOutcome json now state (.collecting collecting) (.chunk chunk) =
              .goOn (state.receiveInner chunk) (.collecting collected) [] := step.trans (if_neg (by simp [stays]))
          have listens := listens_receiveInner state chunk
          have filter : (state.receiveInner chunk).thinkFilter.AtRest := by
            rw [listens.filter]
            exact atRest
          rw [List.cons_append, reachesEnd, stays, Bool.false_or] at reaches
          rw [List.cons_append, thinking_goOn next,
            ih restGoesOn reaches (owes.listen listens) filter collected, paidAfter_listens listens]
          rfl

/-- The texts before the first frame with tool calls. -/
def openingTexts : List Frame -> List (List Char)
  | [] => []
  | frame :: rest => if frame.deltas = [] then frame.text :: openingTexts rest else []

/-- The thinking that comes of a state: reasoning, or what waits and what the filter
finds in more texts. -/
def State.thinks (state : State) (reasoning : List Char) (texts : List (List Char)) : List Char :=
  if state.sawStructuredReasoning || !reasoning.isEmpty then reasoning
  else state.pendingInlineThinking ++ (state.thinkFilter.run texts).thinking

theorem thinks_speaks {state next : State} {items : List StreamItem} {frame : Frame}
    (speaks : Speaks state next items frame) (reasoning : List Char) (texts : List (List Char)) :
    itemsThinking items ++ next.thinks reasoning texts =
      state.thinks (frame.reasoning ++ reasoning) (frame.text :: texts) := by
  rw [State.thinks, State.thinks, speaks.said]
  have saw := speaks.saw
  cases seen : next.sawStructuredReasoning with
  | true =>
      rw [seen] at saw
      have heard : (state.sawStructuredReasoning || !(frame.reasoning ++ reasoning).isEmpty) = true := by
        rw [Bool.or_eq_true]
        rcases (Bool.or_eq_true ..).mp saw.symm with before | now
        · exact Or.inl before
        · right
          rw [Bool.not_eq_true', Bool.eq_false_iff, Ne, List.isEmpty_iff] at now ⊢
          exact fun none => now (List.append_eq_nil_iff.mp none).1
      rw [heard]
      rfl
  | false =>
      rw [seen, eq_comm, Bool.or_eq_false_iff, Bool.not_eq_false', List.isEmpty_iff] at saw
      rw [saw.1, saw.2, List.nil_append, List.nil_append]
      cases reasoning.isEmpty with
      | true =>
          rw [speaks.pending seen, speaks.filter]
          simp [ThinkFilter.run, FilterOut.append]
      | false => rfl

theorem thinks_nothing (state : State) : state.thinks [] [] = state.lastThinking := by
  rw [State.thinks, State.lastThinking, State.inlineThinking]
  simp [ThinkFilter.run]

theorem thinking_first (stream : ToolCallStream) {body : List Frame}
    (goesOn : forall frame, frame ∈ body -> frame.goesOn = true) {chunk : StreamingChunk}
    (own : (Frame.chunk chunk).goesOn = true) (spoken : (Frame.chunk chunk).deltas ≠ [])
    (reaches : reachesEnd (body ++ stream.ending) = true) {state : State} (owes : Owes state [])
    (atRest : state.thinkFilter.AtRest) :
    thinkingOfRun json now state .outer (.chunk chunk :: (body ++ stream.ending)) =
      state.thinks ((Frame.chunk chunk).reasoning ++ reasoningOf (body ++ lastFrames stream.last)) [] := by
  have incomplete : isComplete (Frame.chunk chunk).finishReason = false := by
    rw [Frame.goesOn_chunk own]
    rfl
  rcases outerChunk_calls json now state spoken with ⟨collecting, _, step⟩
  have stays : frameOutcome json now state .outer (.chunk chunk) =
      .goOn (state.receive chunk) (.collecting collecting) [] := step.trans (if_neg (by simp [incomplete]))
  have listens := listens_receive state chunk
  have filter : (state.receive chunk).thinkFilter.AtRest := by
    rw [listens.filter]
    exact atRest
  rw [thinking_goOn stays, thinking_inner stream goesOn reaches (owes.listen listens) filter, paidAfter_listens listens]
  simp [State.paidAfter, State.thinks, itemsThinking, thinkingText, ThinkFilter.run]

theorem thinking_last (stream : ToolCallStream) (survive : callsSurvive stream.ending = true) {state : State}
    (owes : Owes state []) (atRest : state.thinkFilter.AtRest) :
    thinkingOfRun json now state .outer stream.ending =
      state.thinks (reasoningOf (lastFrames stream.last)) (openingTexts (lastFrames stream.last)) := by
  cases last : stream.last with
  | none =>
      rw [lastFrames_none last, thinking_trailing stream.trailer_trails]
      exact (thinks_nothing state).symm
  | some chunk =>
      rw [lastFrames_some last] at survive ⊢
      have alone : reasoningOf (lastFrames (some chunk)) = (Frame.chunk chunk).reasoning ++ [] := by
        simp [lastFrames, reasoningOf]
      rw [alone]
      by_cases quiet : (Frame.chunk chunk).deltas = []
      · rcases outerChunk_speaks json now owes atRest quiet with ⟨next, items, speaks, step⟩
        have stays : frameOutcome json now state .outer (.chunk chunk) = .goOn next .outer items := step
        rw [thinking_goOn stays, thinking_trailing stream.trailer_trails, ← thinks_nothing, thinks_speaks speaks]
        simp only [lastFrames, Option.map_some, Option.toList_some, openingTexts, if_pos quiet]
      · have none : openingTexts (lastFrames (some chunk)) = [] := by
          simp [lastFrames, openingTexts, quiet]
        rw [none]
        have listens := listens_receive state chunk
        have received := owes.listen listens
        have filter : (state.receive chunk).thinkFilter.AtRest := by
          rw [listens.filter]
          exact atRest
        have paid : (state.receive chunk).paid ([] ++ (Frame.chunk chunk).reasoning) =
            state.thinks ((Frame.chunk chunk).reasoning ++ []) [] := by
          rw [paid_listens listens]
          simp [State.paidAfter, State.thinks, ThinkFilter.run]
        rcases outerChunk_calls json now state quiet with ⟨collecting, _, step⟩
        rw [callsSurvive_calls quiet] at survive
        by_cases complete : isComplete (Frame.chunk chunk).finishReason = true
        · have leaves : frameOutcome json now state .outer (.chunk chunk) =
              leaveInner json now (state.receive chunk) collecting := step.trans (if_pos complete)
          rw [thinking_leaveInner leaves received filter stream.trailer_trails, paid]
        · have stays : frameOutcome json now state .outer (.chunk chunk) =
              .goOn (state.receive chunk) (.collecting collecting) [] := step.trans (if_neg complete)
          have reaches := (Bool.or_eq_true ..).mp survive |>.resolve_left complete
          rw [thinking_goOn stays, thinking_inner_trailing stream.trailer_trails stream.mark reaches received filter,
            paid]
          rfl

theorem thinking_response (stream : ToolCallStream) {body : List Frame}
    (goesOn : forall frame, frame ∈ body -> frame.goesOn = true)
    (survive : callsSurvive (body ++ stream.ending) = true) {state : State} (owes : Owes state [])
    (atRest : state.thinkFilter.AtRest) :
    thinkingOfRun json now state .outer (body ++ stream.ending) =
      state.thinks (reasoningOf (body ++ lastFrames stream.last)) (openingTexts (body ++ lastFrames stream.last)) := by
  induction body generalizing state with
  | nil => exact thinking_last stream survive owes atRest
  | cons frame rest ih =>
      have own := goesOn frame List.mem_cons_self
      have restGoesOn := fun later member => goesOn later (List.mem_cons_of_mem frame member)
      have running : frame ≠ .done := by
        intro mark
        rw [mark] at own
        contradiction
      have reasoning : reasoningOf (frame :: rest ++ lastFrames stream.last) =
          frame.reasoning ++ reasoningOf (rest ++ lastFrames stream.last) := rfl
      rw [reasoning, List.cons_append, List.cons_append, openingTexts]
      rw [List.cons_append] at survive
      by_cases quiet : frame.deltas = []
      · rcases outerFrame_speaks json now owes atRest own quiet with ⟨next, items, speaks, step⟩
        have nextRest : next.thinkFilter.AtRest := by
          rw [speaks.filter]
          exact ThinkFilter.atRest_push _ _
        rw [callsSurvive_quiet running quiet] at survive
        rw [thinking_goOn step, ih restGoesOn survive speaks.owes nextRest, thinks_speaks speaks,
          if_pos quiet]
      · cases frame with
        | other => contradiction
        | blank => contradiction
        | metadata => contradiction
        | done => contradiction
        | broken error => contradiction
        | chunk chunk =>
            rw [callsSurvive_calls quiet, Frame.goesOn_chunk own] at survive
            have reaches : reachesEnd (rest ++ stream.ending) = true := survive
            rw [thinking_first stream restGoesOn own quiet reaches owes atRest, if_neg quiet]

end Run

end OpenAi
end AIBuddy
