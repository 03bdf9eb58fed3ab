import AIBuddy.Provider.OpenAiCalls
import AIBuddy.Provider.ThinkChunks

namespace AIBuddy
namespace OpenAi

open Scanner

/-!
# The text of a chat stream

Text goes through the think filter on its way out.  The decoder hears the text of those
chunks only that carry no tool calls and that the outer loop reads.  What the other
chunks say is lost.
-/

/-! ## What the decoder hears -/

/-- The text deltas of a stream up to its end mark. -/
def allText : List Frame -> List Char
  | [] | .done :: _ => []
  | frame :: rest => frame.text ++ allText rest

/-- What becomes of the text deltas: those that the filter gets, the text of the others,
and whether the stream fails. -/
structure Heard where
  kept : List (List Char)
  passedOver : List Char
  fails : Bool
deriving DecidableEq

namespace Heard

def keep (text : List Char) (heard : Heard) : Heard :=
  { heard with kept := text :: heard.kept }

def passOver (text : List Char) (heard : Heard) : Heard :=
  { heard with passedOver := text ++ heard.passedOver }

/-- The visible text that a filter makes of what is heard.  When the stream fails, what
is held back is lost. -/
def content (filter : ThinkFilter) (fails : Bool) : List (List Char) -> List Char
  | [] => if fails then [] else filter.finish.content
  | text :: rest => (filter.push text).2.content ++ content (filter.push text).1 fails rest

end Heard

/-- What is heard of some frames, in the inner loop or in the outer one. -/
def hear (collecting : Bool) : List Frame -> Heard
  | [] | .done :: _ => ⟨[], [], false⟩
  | .broken _ :: rest => ⟨[], allText rest, true⟩
  | .other :: rest | .metadata :: rest => hear collecting rest
  | .blank :: rest => if collecting then ⟨[], allText rest, true⟩ else hear false rest
  | .chunk chunk :: rest =>
      if collecting then (hear (!chunk.endsCalls) rest).passOver (Frame.chunk chunk).text
      else if (Frame.chunk chunk).deltas = [] then (hear false rest).keep (Frame.chunk chunk).text
      else (hear (!isComplete (Frame.chunk chunk).finishReason) rest).passOver (Frame.chunk chunk).text

theorem length_hear (frames : List Frame) (collecting : Bool) :
    (hear collecting frames).kept.flatten.length + (hear collecting frames).passedOver.length =
      (allText frames).length := by
  induction frames generalizing collecting with
  | nil => rfl
  | cons frame rest ih =>
      cases frame with
      | done => rfl
      | broken error => simp [hear, allText, Frame.text, Frame.choice?]
      | other => exact ih collecting
      | metadata => exact ih collecting
      | blank =>
          cases collecting with
          | true => simp [hear, allText, Frame.text, Frame.choice?]
          | false => exact ih false
      | chunk chunk =>
          rw [hear]
          simp only [allText]
          split
          · have later := ih (!chunk.endsCalls)
            simp only [Heard.passOver, List.length_append]
            omega
          · split
            · have later := ih false
              simp only [Heard.keep, List.flatten_cons, List.length_append]
              omega
            · have later := ih (!isComplete (Frame.chunk chunk).finishReason)
              simp only [Heard.passOver, List.length_append]
              omega

theorem kept_hear {frames : List Frame} {collecting : Bool} (none : (hear collecting frames).passedOver = []) :
    (hear collecting frames).kept.flatten = allText frames := by
  induction frames generalizing collecting with
  | nil => rfl
  | cons frame rest ih =>
      cases frame with
      | done => rfl
      | broken error => exact none.symm
      | other => exact ih none
      | metadata => exact ih none
      | blank =>
          cases collecting with
          | true => exact none.symm
          | false => exact ih none
      | chunk chunk =>
          rw [hear] at none ⊢
          simp only [allText]
          split at none
          · rename_i inner
            rw [Heard.passOver, List.append_eq_nil_iff] at none
            rw [if_pos inner, none.1]
            exact ih none.2
          · rename_i outer
            rw [if_neg outer]
            split at none
            · rename_i quiet
              rw [if_pos quiet, Heard.keep, List.flatten_cons, ih none]
            · rename_i spoken
              rw [Heard.passOver, List.append_eq_nil_iff] at none
              rw [if_neg spoken, none.1]
              exact ih none.2

theorem content_run (texts : List (List Char)) (filter : ThinkFilter) :
    Heard.content filter false texts = (filter.run texts).content := by
  induction texts generalizing filter with
  | nil => rfl
  | cons text rest ih =>
      rw [Heard.content, ThinkFilter.run, ih]
      rfl

/-! ## What is visible -/

/-- The text of all text blocks. -/
def visibleText (content : List MessageContentBlock) : List Char :=
  content.flatMap fun block => (block.asText.getD "").toList

@[simp] theorem visibleText_append (left right : List MessageContentBlock) :
    visibleText (left ++ right) = visibleText left ++ visibleText right := by
  simp [visibleText]

theorem visibleText_flushedBlocks (content thinking : List Char) :
    visibleText (flushedBlocks content thinking) = content := by
  rw [flushedBlocks, visibleText_append]
  have none : visibleText (if thinking.isEmpty then [] else [thinkingBlock thinking ""]) = [] := by
    split
    · rfl
    · rfl
  rw [none, List.append_nil]
  split
  · rename_i empty
    rw [List.isEmpty_iff.mp empty]
    rfl
  · simp [visibleText, textBlock, MessageContentBlock.plainText, MessageContentBlock.asText]

theorem visibleText_unyieldedReasoning (state : State) : visibleText (unyieldedReasoning state) = [] := by
  rw [unyieldedReasoning]
  split
  · split
    · split
      · rfl
      · rfl
    · rfl
  · rfl

theorem visibleText_requests (json : JsonParser) (state : State) (entries : List (Int × StreamedCall)) :
    visibleText (entries.map (requestBlock json state)) = [] := by
  induction entries with
  | nil => rfl
  | cons entry rest ih => exact ih

/-- The visible text of items. -/
def itemsText (items : List StreamItem) : List Char :=
  visibleText (itemsContent items)

@[simp] theorem itemsText_append (earlier later : List StreamItem) :
    itemsText (earlier ++ later) = itemsText earlier ++ itemsText later := by
  simp [itemsText]

theorem itemsText_emitCalls (json : JsonParser) (now : Int) {state : State} (rest : state.thinkFilter.AtRest)
    (collecting : Collecting) :
    itemsText (emitCalls json now state collecting).2 = [] ∧
      (emitCalls json now state collecting).1.thinkFilter = state.thinkFilter := by
  rw [ThinkFilter.AtRest] at rest
  simp only [emitCalls, rest, FilterOut.empty, itemsText_append]
  refine ⟨?_, trivial⟩
  have calls : itemsText [⟨some { assistantMessage now collecting.chunkId (unyieldedReasoning state ++
      collecting.calls.entries.map (requestBlock json state)) with
        metadata := { outputTokenLimitReached := state.outputTokenLimitReached } }, collecting.usage⟩] = [] := by
    simp [itemsText, visibleText_unyieldedReasoning, visibleText_requests]
  rw [calls, List.append_nil]
  split
  · rfl
  · simp [itemsText, visibleText_flushedBlocks]

theorem itemsText_finish (now : Int) (state : State) :
    itemsText (finish now state) = state.thinkFilter.finish.content := by
  have bare : forall condition : Bool, forall item : StreamItem, itemsText [item] = [] ->
      itemsText (if condition then [item] else []) = [] := by
    intro condition item silent
    cases condition with
    | true => exact silent
    | false => rfl
  simp only [finish, itemsText_append]
  rw [bare _ _ rfl, bare _ _ rfl, List.append_nil, List.append_nil]
  have flushed := visibleText_flushedBlocks state.thinkFilter.finish.content
    (state.inlineThinking state.thinkFilter.finish.thinking)
  split
  · rename_i empty
    rw [List.isEmpty_iff.mp empty] at flushed
    exact flushed
  · simp only [itemsText, itemsContent_cons, itemsContent_nil, List.append_nil, Option.map_some, Option.getD_some,
      content_assistantMessage]
    exact flushed

theorem itemsText_yieldUsage (state : State) (usage : Option ProviderUsage) :
    itemsText (yieldUsage state usage).2 = [] ∧ (yieldUsage state usage).1.thinkFilter = state.thinkFilter := by
  rw [yieldUsage]
  split
  · exact ⟨rfl, rfl⟩
  · exact ⟨rfl, rfl⟩

theorem itemsText_emitText (now : Int) (state : State) (chunk : StreamingChunk) (choice : StreamingChoice)
    (usage : Option ProviderUsage) :
    itemsText (emitText now state chunk choice usage).2 = (pushText state choice.delta).2.content ∧
      (emitText now state chunk choice usage).1.thinkFilter = (pushText state choice.delta).1 := by
  have content : visibleText (textContent state choice.delta) = (pushText state choice.delta).2.content := by
    rw [textContent, visibleText_append, visibleText_flushedBlocks]
    cases choice.delta.reasoningText with
    | none => rfl
    | some reasoning => rfl
  simp only [emitText]
  split
  · rename_i empty
    rw [List.isEmpty_iff.mp empty] at content
    have silent := itemsText_yieldUsage (afterText state choice.delta) usage
    exact ⟨silent.1.trans content, silent.2⟩
  · refine ⟨?_, rfl⟩
    simp only [itemsText, itemsContent_cons, itemsContent_nil, List.append_nil, Option.map_some, Option.getD_some,
      content_assistantMessage]
    exact content

theorem pushText_eq {state : State} (rest : state.thinkFilter.AtRest) (delta : Delta) :
    pushText state delta =
      state.thinkFilter.push ((extractContentAndSignature delta.content).1.getD "").toList := by
  rw [pushText]
  cases (extractContentAndSignature delta.content).1 with
  | none => exact rest.symm
  | some text => rfl

/-! ## What is yielded -/

theorem thinkFilter_noteReasoning (state : State) (delta : Delta) :
    (state.noteReasoning delta).thinkFilter = state.thinkFilter := by
  rw [State.noteReasoning]
  split
  · rfl
  · rfl

theorem thinkFilter_receive (state : State) (chunk : StreamingChunk) :
    (state.receive chunk).thinkFilter = state.thinkFilter := by
  rcases chunk with ⟨choices, id, usage, model⟩
  cases choices with
  | nil => rfl
  | cons choice others => exact thinkFilter_noteReasoning _ _

theorem outerChunk_text (json : JsonParser) (now : Int) {state : State} (rest : state.thinkFilter.AtRest)
    {chunk : StreamingChunk} (quiet : (Frame.chunk chunk).deltas = []) :
    Exists fun next : State => Exists fun items : List StreamItem =>
      itemsText items = (state.thinkFilter.push (Frame.chunk chunk).text).2.content ∧
        next.thinkFilter = (state.thinkFilter.push (Frame.chunk chunk).text).1 ∧
        outerChunk json now state chunk = .goOn next .outer items := by
  have same := thinkFilter_receive state chunk
  have received : (state.receive chunk).thinkFilter.AtRest := by
    rw [same]
    exact rest
  rcases chunk with ⟨choices, id, usage, model⟩
  cases choices with
  | nil =>
      refine ⟨_, _, ?_, ?_, rfl⟩
      · exact congrArg (fun pushed => pushed.2.content) rest.symm
      · exact congrArg Prod.fst rest.symm
  | cons choice others =>
      have idle : startsCalls choice = false := by
        rw [Bool.eq_false_iff, Ne, startsCalls_iff]
        exact fun starts => starts quiet
      simp only [outerChunk, idle, Bool.false_eq_true, if_false]
      split
      · refine ⟨_, _, ?_, ?_, rfl⟩
        · rw [(itemsText_emitText _ _ _ _ _).1, pushText_eq received, same]
          rfl
        · rw [(itemsText_emitText _ _ _ _ _).2, pushText_eq received, same]
          rfl
      · rename_i bare
        have silent : (Frame.chunk ⟨choice :: others, id, usage, model⟩).text = [] := by
          rw [Bool.or_eq_true, not_or] at bare
          have missing : choice.delta.content = none := by simpa using bare.1
          simp [Frame.text, Frame.choice?, missing, extractContentAndSignature]
        rw [silent, rest]
        refine ⟨_, _, ?_, ?_, rfl⟩
        · exact (itemsText_yieldUsage _ _).1
        · rw [(itemsText_yieldUsage _ _).2, same]

theorem thinkFilter_receiveInner (state : State) (chunk : StreamingChunk) :
    (state.receiveInner chunk).thinkFilter = state.thinkFilter := by
  rcases chunk with ⟨choices, id, usage, model⟩
  cases choices with
  | nil => rfl
  | cons choice others => exact thinkFilter_noteReasoning _ _

section Run

variable {json : JsonParser} {now : Int}

theorem visibleText_goOn {state next : State} {mode nextMode : Mode} {frame : Frame} {items : List StreamItem}
    (step : frameOutcome json now state mode frame = .goOn next nextMode items) (rest : List Frame) :
    visibleText (readFrames json now state mode (frame :: rest)).content =
      itemsText items ++ visibleText (readFrames json now next nextMode rest).content := by
  rw [readFrames, step]
  simp [itemsText]

theorem visibleText_stop {state next : State} {mode : Mode} {frame : Frame}
    (step : frameOutcome json now state mode frame = .stop next) (rest : List Frame) :
    visibleText (readFrames json now state mode (frame :: rest)).content = next.thinkFilter.finish.content := by
  rw [readFrames, step]
  exact itemsText_finish now next

theorem visibleText_fail {state : State} {mode : Mode} {frame : Frame} {error : StreamError}
    (step : frameOutcome json now state mode frame = .fail error) (rest : List Frame) :
    visibleText (readFrames json now state mode (frame :: rest)).content = [] := by
  rw [readFrames, step]
  rfl

theorem visibleText_leaveInner {state next : State} {mode : Mode} {frame : Frame} {collecting : Collecting}
    (step : frameOutcome json now state mode frame = leaveInner json now next collecting)
    (atRest : next.thinkFilter.AtRest) (rest : List Frame) :
    Exists fun after : State => after.thinkFilter = next.thinkFilter ∧
      visibleText (readFrames json now state mode (frame :: rest)).content =
        visibleText (readFrames json now after .outer rest).content := by
  have emitted := itemsText_emitCalls json now atRest collecting
  refine ⟨(emitCalls json now next collecting).1, emitted.2, ?_⟩
  rw [visibleText_goOn step, emitted.1, List.nil_append]

def Mode.isCollecting : Mode -> Bool
  | .outer => false
  | .collecting _ => true

theorem visibleText_readFrames (frames : List Frame) {state : State} (mode : Mode)
    (rest : state.thinkFilter.AtRest) :
    visibleText (readFrames json now state mode frames).content =
      Heard.content state.thinkFilter (hear mode.isCollecting frames).fails (hear mode.isCollecting frames).kept := by
  induction frames generalizing state mode with
  | nil =>
      cases mode with
      | outer => exact itemsText_finish now state
      | collecting collecting =>
          have emitted := itemsText_emitCalls json now rest collecting
          have ended : visibleText (readFrames json now state (.collecting collecting) []).content =
              itemsText ((emitCalls json now state collecting).2 ++
                finish now (emitCalls json now state collecting).1) := rfl
          rw [ended, itemsText_append, emitted.1, itemsText_finish, emitted.2]
          rfl
  | cons frame later ih =>
      cases mode with
      | outer =>
          cases frame with
          | other =>
              rw [visibleText_goOn (by rfl)]
              exact ih .outer rest
          | metadata =>
              rw [visibleText_goOn (by rfl)]
              exact ih .outer rest
          | blank =>
              rw [visibleText_goOn (by rfl)]
              exact ih .outer rest
          | done => exact visibleText_stop rfl later
          | broken error => exact visibleText_fail rfl later
          | chunk chunk =>
              by_cases quiet : (Frame.chunk chunk).deltas = []
              · rcases outerChunk_text json now rest quiet with ⟨next, items, said, filter, step⟩
                have stays : frameOutcome json now state .outer (.chunk chunk) = .goOn next .outer items := step
                have nextRest : next.thinkFilter.AtRest := by
                  rw [filter]
                  exact ThinkFilter.atRest_push _ _
                rw [visibleText_goOn stays, said, ih .outer nextRest, filter]
                simp only [hear, Mode.isCollecting, Bool.false_eq_true, if_false, if_pos quiet, Heard.keep, Heard.content]
              · rcases outerChunk_calls json now state quiet with ⟨collecting, _, step⟩
                have filter := thinkFilter_receive state chunk
                have received : (state.receive chunk).thinkFilter.AtRest := by
                  rw [filter]
                  exact rest
                by_cases complete : isComplete (Frame.chunk chunk).finishReason = true
                · have leaves : frameOutcome json now state .outer (.chunk chunk) =
                      leaveInner json now (state.receive chunk) collecting := step.trans (if_pos complete)
                  rcases visibleText_leaveInner leaves received later with ⟨after, kept, same⟩
                  have afterRest : after.thinkFilter.AtRest := by
                    rw [kept]
                    exact received
                  rw [same, ih .outer afterRest, kept, filter]
                  simp only [hear, Mode.isCollecting, Bool.false_eq_true, if_false, if_neg quiet, complete, Bool.not_true,
                    Heard.passOver]
                · have stays : frameOutcome json now state .outer (.chunk chunk) =
                      .goOn (state.receive chunk) (.collecting collecting) [] := step.trans (if_neg complete)
                  rw [visibleText_goOn stays, ih (.collecting collecting) received, filter]
                  rw [Bool.not_eq_true] at complete
                  simp only [hear, Mode.isCollecting, Bool.false_eq_true, if_false, if_neg quiet, complete, Bool.not_false,
                    Heard.passOver]
                  rfl
      | collecting collecting =>
          cases frame with
          | other =>
              rw [visibleText_goOn (by rfl)]
              exact ih (.collecting collecting) rest
          | metadata =>
              rw [visibleText_goOn (by rfl)]
              exact ih (.collecting collecting) rest
          | blank => exact visibleText_fail rfl later
          | done => exact visibleText_stop rfl later
          | broken error => exact visibleText_fail rfl later
          | chunk chunk =>
              rcases innerChunk_cases state collecting chunk with ⟨collected, _, step⟩
              have filter := thinkFilter_receiveInner state chunk
              have received : (state.receiveInner chunk).thinkFilter.AtRest := by
                rw [filter]
                exact rest
              by_cases ends : chunk.endsCalls = true
              · have leaves : frameOutcome json now state (.collecting collecting) (.chunk chunk) =
                    leaveInner json now (state.receiveInner chunk) collected := step.trans (if_pos ends)
                rcases visibleText_leaveInner leaves received later with ⟨after, kept, same⟩
                have afterRest : after.thinkFilter.AtRest := by
                  rw [kept]
                  exact received
                rw [same, ih .outer afterRest, kept, filter]
                simp only [hear, Mode.isCollecting, if_true, ends, Bool.not_true, Heard.passOver]
              · have stays : frameOutcome json now state (.collecting collecting) (.chunk chunk) =
                    .goOn (state.receiveInner chunk) (.collecting collected) [] := step.trans (if_neg ends)
                rw [visibleText_goOn stays, ih (.collecting collected) received, filter]
                rw [Bool.not_eq_true] at ends
                simp only [hear, Mode.isCollecting, if_true, ends, Bool.not_false, Heard.passOver]
                rfl

end Run

/-! ## No text is lost -/

theorem visibleText_streamed (reader : Reader) (now : Int) (lines : List StreamLine) :
    visibleText (responseToStreamingMessage reader now lines).content =
      Heard.content ThinkFilter.new (hear false (lines.map (frameOf reader))).fails
        (hear false (lines.map (frameOf reader))).kept := by
  rw [responseToStreamingMessage_eq]
  have fresh : State.start.thinkFilter.AtRest := ThinkFilter.atRest_new
  exact visibleText_readFrames _ .outer fresh

/-- The visible text of a stream is what the filter makes of all its text, just if the
filter makes the same of what the decoder hears.  When the stream does not fail and its
text has no opening tag, that is the case just if no text is passed over.  When no text
is passed over and all cuts are settled, it is the case up to the buffer limit. -/
theorem visible_text_streamed (reader : Reader) (now : Int) (lines : List StreamLine) :
    let frames := lines.map (frameOf reader)
    let heard := hear false frames
    let whole := (splitThinkBlocks (allText frames)).1
    let visible := visibleText (responseToStreamingMessage reader now lines).content
    (visible = whole ↔ Heard.content ThinkFilter.new heard.fails heard.kept = whole) ∧
      (heard.fails = false -> ¬ ContainsOpening (allText frames) -> (visible = whole ↔ heard.passedOver = [])) ∧
      (heard.fails = false -> heard.passedOver = [] -> utf8Length (allText frames) ≤ maxBufferedThinkTagBytes ->
        SettledPieces thinkLook ThinkState.outside [] heard.kept -> visible = whole) := by
  intro frames heard whole visible
  have equation : visible = Heard.content ThinkFilter.new heard.fails heard.kept :=
    visibleText_streamed reader now lines
  have fresh : ThinkFilter.new = ThinkFilter.of ThinkState.outside [] := rfl
  refine ⟨by rw [equation], ?_, ?_⟩
  · intro complete quiet
    rw [equation, complete, content_run]
    have all : whole = allText frames := by
      simp only [whole, splitThinkBlocks_eq]
      rw [readAll_quiet ThinkState.outside _ rfl quiet, filterOut_readIn]
      rfl
    rw [all]
    constructor
    · intro same
      have bound := ThinkFilter.length_run_le heard.kept ThinkState.outside []
      have lengths : heard.kept.flatten.length + heard.passedOver.length = (allText frames).length :=
        length_hear frames false
      rw [← fresh, same, List.length_nil] at bound
      exact List.eq_nil_of_length_eq_zero (by omega)
    · intro none
      have kept : heard.kept.flatten = allText frames := kept_hear none
      rw [fresh, ThinkFilter.run_quiet heard.kept ThinkState.outside [] rfl (by rw [List.nil_append, kept]; exact quiet),
        List.nil_append, kept]
  · intro complete none fits settled
    have kept : heard.kept.flatten = allText frames := kept_hear none
    rw [equation, complete, content_run, new_run_eq (by rw [kept]; exact fits),
      readPieces_eq thinkLook_final heard.kept [] (by simp) settled, List.nil_append, kept]
    simp only [whole, splitThinkBlocks_eq]

/-! ## A greeting -/

namespace Greeting

def callDelta : DeltaToolCall := ⟨some "call_1", ⟨some "shell", ""⟩, some 0, some []⟩

/-- A chunk that only has text. -/
def alone : SentChunk where
  text := "[\x7b\"delta\":\x7b\"content\":\"Hi\"\x7d\x7d]"
  choices := .array [.object [("delta", .object [("content", .string "Hi")])]]
  chunk := ⟨[⟨⟨some (.string "Hi"), none, none, none⟩, none⟩], none, none, none⟩

/-- A chunk with the same text and a tool call. -/
def withCall : SentChunk where
  text := "[\x7b\"delta\":\x7b\"content\":\"Hi\",\"tool_calls\":[\x7b\"index\":0,\"id\":\"call_1\"," ++
    "\"function\":\x7b\"name\":\"shell\",\"arguments\":\"\"\x7d\x7d]\x7d,\"finish_reason\":\"tool_calls\"\x7d]"
  choices := .array [.object [("delta", .object [("content", .string "Hi"), ("tool_calls", .array [.object
    [("index", .number (.integer 0)), ("id", .string "call_1"), ("function", .object [("name", .string "shell"),
      ("arguments", .string "")])]])]), ("finish_reason", .string "tool_calls")]]
  chunk := ⟨[⟨⟨some (.string "Hi"), some [callDelta], none, none⟩, some "tool_calls"⟩], none, none, none⟩

def reader : Reader := Reader.ofSent [alone, withCall] (by decide +kernel)

theorem frameOf_alone : frameOf reader alone.line = .chunk alone.chunk := by
  rw [SentChunk.line, frameOf, SentChunk.payload, stripDataPrefix_braced]
  decide +kernel

theorem frameOf_withCall : frameOf reader withCall.line = .chunk withCall.chunk := by
  rw [SentChunk.line, frameOf, SentChunk.payload, stripDataPrefix_braced]
  decide +kernel

end Greeting

/-- Text that comes alone is shown. -/
theorem visible_text_streamed_alone :
    visibleText (responseToStreamingMessage Greeting.reader 0 [Greeting.alone.line]).content =
      (splitThinkBlocks "Hi".toList).1 := by
  have parts := visible_text_streamed Greeting.reader 0 [Greeting.alone.line]
  simp only [List.map_cons, List.map_nil, Greeting.frameOf_alone] at parts
  have text : allText [.chunk Greeting.alone.chunk] = "Hi".toList := by decide
  rw [text] at parts
  refine (parts.2.1 (by decide) ?_).mpr (by decide)
  rintro ⟨place, kind, length, inside, found, _⟩
  have none : forall place, place ∈ "Hi".toList.tails -> parseThinkTag place = none := by decide
  rw [none place ((List.mem_tails _ _).mpr inside)] at found
  contradiction

/-- Text that comes with a tool call is lost. -/
theorem text_with_call_lost : ¬ (forall (reader : Reader) (now : Int) (lines : List StreamLine),
    (forall line, line ∈ lines -> Exists fun chunk => frameOf reader line = .chunk chunk) ->
      visibleText (responseToStreamingMessage reader now lines).content =
        (splitThinkBlocks (allText (lines.map (frameOf reader)))).1) := by
  intro shown
  have chunks : forall line, line ∈ [Greeting.withCall.line] ->
      Exists fun chunk => frameOf Greeting.reader line = .chunk chunk := by
    intro line member
    rw [List.mem_singleton.mp member]
    exact ⟨_, Greeting.frameOf_withCall⟩
  have claimed := shown Greeting.reader 0 [Greeting.withCall.line] chunks
  rw [visibleText_streamed] at claimed
  simp only [List.map_cons, List.map_nil, Greeting.frameOf_withCall] at claimed
  exact absurd claimed (by decide)

end OpenAi
end AIBuddy
