import AIBuddy.Provider.OpenAiMessage
import AIBuddy.Provider.OpenAiThinking

namespace AIBuddy
namespace OpenAi

/-!
# Both OpenAI decoders

A response says the same thinking, the same text and the same tool calls whether it
comes as a whole or in chunks, as far as the two decoders agree.  They have different
rules for empty names and for the fields of the reasoning, and the decoder of streams
loses text and calls.
-/

/-! ## The text of a response -/

/-- Nothing but empty texts, and no failure. -/
def Heard.Silent (heard : Heard) : Prop :=
  heard.fails = false ∧ forall text, text ∈ heard.kept -> text = []

theorem content_silent {heard : Heard} (silent : heard.Silent) {filter : ThinkFilter} (atRest : filter.AtRest) :
    Heard.content filter heard.fails heard.kept = filter.finish.content := by
  rcases heard with ⟨kept, passedOver, fails⟩
  rcases silent with ⟨complete, empty⟩
  simp only at complete empty ⊢
  subst complete
  induction kept with
  | nil => rfl
  | cons text rest ih =>
      rw [empty text List.mem_cons_self, Heard.content, atRest]
      exact ih fun later member => empty later (List.mem_cons_of_mem _ member)

theorem Heard.Silent.passOver {heard : Heard} (silent : heard.Silent) (text : List Char) :
    (heard.passOver text).Silent := silent

theorem Heard.Silent.keep {heard : Heard} (silent : heard.Silent) : (heard.keep []).Silent := by
  refine ⟨silent.1, fun text member => ?_⟩
  rcases List.mem_cons.mp member with same | later
  · exact same
  · exact silent.2 text later

theorem hear_trailing {trailer : List Frame} (trails : forall frame, frame ∈ trailer -> frame.trails = true)
    (mark : Option (List Frame)) : (hear false (trailer ++ markFrames mark)).Silent := by
  have quiet := isQuiet_trailing trails mark
  induction trailer with
  | nil =>
      cases mark with
      | none => exact ⟨rfl, by simp [markFrames, hear]⟩
      | some ignored => exact ⟨rfl, by simp [markFrames, hear]⟩
  | cons frame rest ih =>
      have own := trails frame List.mem_cons_self
      have restTrails := fun later member => trails later (List.mem_cons_of_mem frame member)
      have later := ih restTrails (isQuiet_trailing restTrails mark)
      cases frame with
      | other => exact later
      | blank => exact later
      | metadata => exact later
      | done => contradiction
      | broken error => contradiction
      | chunk chunk =>
          rcases chunk with ⟨choices, id, usage, model⟩
          cases choices with
          | nil => exact later.keep
          | cons choice others => contradiction

theorem hear_inner_trailing {trailer : List Frame}
    (trails : forall frame, frame ∈ trailer -> frame.trails = true) (mark : Option (List Frame))
    (reaches : reachesEnd (trailer ++ markFrames mark) = true) :
    (hear true (trailer ++ markFrames mark)).Silent := by
  induction trailer with
  | nil =>
      cases mark with
      | none => exact ⟨rfl, by simp [markFrames, hear]⟩
      | some ignored => contradiction
  | cons frame rest ih =>
      have own := trails frame List.mem_cons_self
      have restTrails := fun later member => trails later (List.mem_cons_of_mem frame member)
      cases frame with
      | other => exact ih restTrails reaches
      | blank => contradiction
      | metadata => exact ih restTrails reaches
      | done => contradiction
      | broken error => contradiction
      | chunk chunk =>
          rcases chunk with ⟨choices, id, usage, model⟩
          cases choices with
          | nil => exact (hear_trailing restTrails mark).passOver _
          | cons choice others => contradiction

theorem hear_inner (stream : ToolCallStream) {body : List Frame}
    (goesOn : forall frame, frame ∈ body -> frame.goesOn = true) (reaches : reachesEnd (body ++ stream.ending) = true) :
    (hear true (body ++ stream.ending)).Silent := by
  induction body with
  | nil =>
      rw [List.nil_append] at reaches ⊢
      cases last : stream.last with
      | none =>
          rw [lastFrames_none last] at reaches ⊢
          exact hear_inner_trailing stream.trailer_trails stream.mark reaches
      | some chunk =>
          have finishes := stream.last_finishes chunk last
          have ends : chunk.endsCalls = true := by rw [StreamingChunk.endsCalls, finishes, Bool.or_true]
          rw [lastFrames_some last, hear, if_pos rfl, ends]
          exact (hear_trailing stream.trailer_trails stream.mark).passOver _
  | cons frame rest ih =>
      have own := goesOn frame List.mem_cons_self
      have restGoesOn := fun later member => goesOn later (List.mem_cons_of_mem frame member)
      cases frame with
      | other => exact ih restGoesOn reaches
      | blank => contradiction
      | metadata => exact ih restGoesOn reaches
      | done => contradiction
      | broken error => contradiction
      | chunk chunk =>
          have stays := StreamingChunk.endsCalls_goesOn own
          rw [List.cons_append, reachesEnd, stays, Bool.false_or] at reaches
          rw [List.cons_append, hear, if_pos rfl, stays]
          exact (ih restGoesOn reaches).passOver _

theorem content_response (stream : ToolCallStream) {body : List Frame}
    (goesOn : forall frame, frame ∈ body -> frame.goesOn = true)
    (survive : callsSurvive (body ++ stream.ending) = true) {filter : ThinkFilter} (atRest : filter.AtRest) :
    Heard.content filter (hear false (body ++ stream.ending)).fails (hear false (body ++ stream.ending)).kept =
      (filter.run (openingTexts (body ++ lastFrames stream.last))).content := by
  induction body generalizing filter with
  | nil =>
      rw [List.nil_append] at survive
      rw [List.nil_append, List.nil_append]
      have trailing := hear_trailing stream.trailer_trails stream.mark
      cases last : stream.last with
      | none =>
          rw [lastFrames_none last, content_silent trailing atRest]
          rfl
      | some chunk =>
          rw [lastFrames_some last] at survive ⊢
          simp only [lastFrames, Option.map_some, Option.toList_some, openingTexts]
          rw [hear, if_neg Bool.false_ne_true]
          by_cases quiet : (Frame.chunk chunk).deltas = []
          · rw [if_pos quiet, if_pos quiet]
            simp only [Heard.keep, Heard.content, ThinkFilter.run]
            rw [content_silent trailing (ThinkFilter.atRest_push _ _)]
            rfl
          · rw [if_neg quiet, if_neg quiet]
            rw [callsSurvive_calls quiet] at survive
            cases complete : isComplete (Frame.chunk chunk).finishReason with
            | true =>
                rw [Bool.not_true]
                exact content_silent (trailing.passOver _) atRest
            | false =>
                rw [complete, Bool.false_or] at survive
                rw [Bool.not_false]
                exact content_silent ((hear_inner_trailing stream.trailer_trails stream.mark survive).passOver _) atRest
  | cons frame rest ih =>
      have own := goesOn frame List.mem_cons_self
      have restGoesOn := fun later member => goesOn later (List.mem_cons_of_mem frame member)
      have running : frame ≠ .done := by
        intro mark
        rw [mark] at own
        contradiction
      rw [List.cons_append] at survive
      rw [List.cons_append, List.cons_append, openingTexts]
      by_cases quiet : frame.deltas = []
      · rw [callsSurvive_quiet running quiet] at survive
        rw [if_pos quiet]
        have mute : frame.text = [] -> (filter.run (frame.text :: openingTexts (rest ++ lastFrames stream.last))).content =
            (filter.run (openingTexts (rest ++ lastFrames stream.last))).content := by
          intro empty
          rw [empty, ThinkFilter.run, atRest]
          rfl
        cases frame with
        | other => exact (ih restGoesOn survive atRest).trans (mute rfl).symm
        | blank => exact (ih restGoesOn survive atRest).trans (mute rfl).symm
        | metadata => exact (ih restGoesOn survive atRest).trans (mute rfl).symm
        | done => contradiction
        | broken error => contradiction
        | chunk chunk =>
            rw [hear, if_neg Bool.false_ne_true, if_pos quiet]
            simp only [Heard.keep, Heard.content, ThinkFilter.run]
            rw [ih restGoesOn survive (ThinkFilter.atRest_push _ _)]
            rfl
      · cases frame with
        | other => contradiction
        | blank => contradiction
        | metadata => contradiction
        | done => contradiction
        | broken error => contradiction
        | chunk chunk =>
            rw [callsSurvive_calls quiet, Frame.goesOn_chunk own] at survive
            have reaches : reachesEnd (rest ++ stream.ending) = true := survive
            rw [if_neg quiet, hear, if_neg Bool.false_ne_true, if_neg quiet, Frame.goesOn_chunk own]
            exact content_silent ((hear_inner stream restGoesOn reaches).passOver _) atRest

/-! ## What a message says -/

/-- What a message says: its thinking, its text, and its calls as far as they can be
run. -/
structure Summary where
  thinking : List Char
  text : List Char
  calls : List (String × Option CallToolRequestParams)
deriving DecidableEq

def summary (content : List MessageContentBlock) : Summary where
  thinking := thinkingText content
  text := visibleText content
  calls := (content.filterMap MessageContentBlock.asToolRequest).map fun request =>
    (request.id, request.toolCall.toOption)

/-- The object that is read of the arguments of a call. -/
def argumentsObject (json : JsonParser) (arguments : String) : Option JsonObject :=
  match parseToolArguments json arguments with
  | some (.object fields) => some fields
  | _ => none

theorem readArguments_toOption (json : JsonParser) (name id arguments : String) :
    (readArguments json name id arguments).toOption =
      (argumentsObject json arguments).map fun fields => ⟨name, some fields⟩ := by
  rw [readArguments, argumentsObject]
  split
  · rename_i fields read
    rw [read]
    rfl
  · rename_i other notObject read
    rw [read]
    cases other with
    | object fields => exact absurd rfl (notObject fields)
    | _ => rfl
  · rename_i read
    rw [read]
    rfl

theorem streamedToolCall_toOption (json : JsonParser) (limitReached : Bool) (call : StreamedCall) :
    (streamedToolCall json limitReached call).toOption =
      if limitReached then none
      else (argumentsObject json call.arguments).map fun fields => ⟨call.name, some fields⟩ := by
  rw [streamedToolCall]
  split
  · rfl
  · split
    · rename_i empty
      rw [empty]
      rfl
    · exact readArguments_toOption json call.name call.id call.arguments

theorem plainToolCall_toOption (json : JsonParser) (limitReached : Bool) (name id arguments : String) :
    (plainToolCall json limitReached name id arguments).toOption =
      if limitReached then none
      else if name = "" then none
      else (argumentsObject json arguments).map fun fields => ⟨name, some fields⟩ := by
  simp only [plainToolCall]
  split
  · rfl
  · split
    · rfl
    · rw [readArguments_toOption]
      split
      · rename_i empty
        rw [empty, argumentsObject, argumentsObject, parseToolArguments_of_value json.value?_emptyObject]
        rfl
      · rfl

/-! ## Responses in chunks -/

/-- The calls of a response at their positions. -/
def numberCalls (position : Nat) : List ChatCall -> List (Int × StreamedCall)
  | [] => []
  | call :: rest => ((position : Int), ⟨call.id, call.name, call.arguments, none⟩) :: numberCalls (position + 1) rest

theorem le_numberCalls {position : Nat} {toolCalls : List ChatCall} {entry : Int × StreamedCall}
    (member : entry ∈ numberCalls position toolCalls) : (position : Int) ≤ entry.1 := by
  induction toolCalls generalizing position with
  | nil => contradiction
  | cons call rest ih =>
      rcases List.mem_cons.mp member with same | later
      · rw [same]
      · have after := ih later
        omega

theorem ordered_numberCalls (position : Nat) (toolCalls : List ChatCall) :
    (numberCalls position toolCalls).Pairwise fun left right => left.1 < right.1 := by
  induction toolCalls generalizing position with
  | nil => exact List.Pairwise.nil
  | cons call rest ih =>
      refine List.pairwise_cons.mpr ⟨fun entry member => ?_, ih (position + 1)⟩
      have after := le_numberCalls member
      simp only
      omega

/-- The calls of a response, each at its position. -/
def ChatResponse.table (response : ChatResponse) : ToolCallData :=
  ⟨numberCalls 0 response.toolCalls, ordered_numberCalls 0 response.toolCalls⟩

theorem map_numberCalls {μ : Type} (view : StreamedCall -> μ) (position : Nat) (toolCalls : List ChatCall) :
    ((numberCalls position toolCalls).map fun entry => view entry.2) =
      toolCalls.map fun call => view ⟨call.id, call.name, call.arguments, none⟩ := by
  induction toolCalls generalizing position with
  | nil => rfl
  | cons call rest ih => rw [numberCalls, List.map_cons, ih, List.map_cons]

/-- The deltas of the two reasoning fields of a frame. -/
def Frame.reasoningContentDelta (frame : Frame) : List Char :=
  ((frame.choice?.bind fun choice => choice.delta.reasoningContent).getD "").toList

def Frame.reasoningDelta (frame : Frame) : List Char :=
  ((frame.choice?.bind fun choice => choice.delta.reasoning).getD "").toList

/-- A stream whose deltas spell the parts of a response. -/
structure ChatResponse.Streams (response : ChatResponse) (stream : ToolCallStream) : Prop where
  reasoningContent : stream.spoken.flatMap Frame.reasoningContentDelta = response.reasoningContent.content.toList
  reasoning : stream.spoken.flatMap Frame.reasoningDelta = response.reasoning.content.toList
  text : stream.spoken.flatMap Frame.text = response.text.content.toList
  toolCalls : Serializes response.table stream.deltas
  finishReason : (stream.last.bind fun chunk => (Frame.chunk chunk).finishReason) = response.finishReason

/-! ## The thinking of both -/

/-- The thinking of a stream: its reasoning deltas, or what the filter finds in the texts
before the first tool calls. -/
def ToolCallStream.thinking (stream : ToolCallStream) : List Char :=
  State.start.thinks (reasoningOf stream.spoken) (openingTexts stream.spoken)

theorem ToolCallStream.thinking_eq (stream : ToolCallStream) :
    stream.thinking = if reasoningOf stream.spoken = [] then
      (ThinkFilter.new.run (openingTexts stream.spoken)).thinking else reasoningOf stream.spoken := by
  rw [thinking, State.thinks]
  cases reasoningOf stream.spoken with
  | nil => rfl
  | cons character rest => rfl

theorem Frame.reasoning_eq (frame : Frame) :
    frame.reasoning = if frame.reasoningContentDelta = [] then frame.reasoningDelta else frame.reasoningContentDelta := by
  rw [Frame.reasoning, Frame.reasoningContentDelta, Frame.reasoningDelta]
  cases frame.choice? with
  | none => rfl
  | some choice =>
      simp only [Option.bind_some, Delta.reasoningText]
      have filtered : forall field : Option String,
          ((field.filter (· ≠ "")).getD "").toList = (field.getD "").toList := by
        intro field
        cases field with
        | none => rfl
        | some value =>
            by_cases empty : value = ""
            · rw [empty]
              rfl
            · simp [Option.filter, empty]
      cases field : choice.delta.reasoningContent with
      | none =>
          simp only [Option.filter_none, Option.none_or, Option.getD_none]
          exact filtered _
      | some value =>
          by_cases empty : value = ""
          · rw [empty]
            exact filtered _
          · have chars : value.toList ≠ [] := by simpa using empty
            simp [Option.filter, empty, chars]

theorem length_content_le (frames : List Frame) :
    (frames.flatMap Frame.reasoningContentDelta).length ≤ (reasoningOf frames).length := by
  induction frames with
  | nil => exact Nat.le_refl 0
  | cons frame rest ih =>
      rw [reasoningOf] at ih ⊢
      rw [List.flatMap_cons, List.flatMap_cons, List.length_append, List.length_append, frame.reasoning_eq]
      split
      · rename_i empty
        rw [empty, List.length_nil]
        omega
      · omega

theorem reasoningOf_content (frames : List Frame) :
    reasoningOf frames = frames.flatMap Frame.reasoningContentDelta ↔
      forall frame, frame ∈ frames -> frame.reasoningContentDelta = [] -> frame.reasoningDelta = [] := by
  induction frames with
  | nil => simp [reasoningOf]
  | cons frame rest ih =>
      have tail := length_content_le rest
      rw [List.forall_mem_cons]
      refine Iff.trans ?_ (and_congr Iff.rfl ih)
      rw [reasoningOf] at tail ⊢
      rw [reasoningOf, List.flatMap_cons, List.flatMap_cons, frame.reasoning_eq]
      by_cases empty : frame.reasoningContentDelta = []
      · rw [if_pos empty, empty, List.nil_append]
        constructor
        · intro same
          have lengths := congrArg List.length same
          rw [List.length_append] at lengths
          have none : frame.reasoningDelta = [] := List.eq_nil_of_length_eq_zero (by omega)
          rw [none, List.nil_append] at same
          exact ⟨fun _ => none, same⟩
        · intro both
          rw [both.1 rfl, List.nil_append, both.2]
      · rw [if_neg empty, List.append_right_inj]
        exact ⟨fun same => ⟨fun none => absurd none empty, same⟩, fun both => both.2⟩

theorem reasoningOf_reasoning {frames : List Frame} (none : frames.flatMap Frame.reasoningContentDelta = []) :
    reasoningOf frames = frames.flatMap Frame.reasoningDelta := by
  rw [List.flatMap_eq_nil_iff] at none
  rw [reasoningOf]
  apply List.flatMap_congr
  intro frame member
  rw [frame.reasoning_eq, if_pos (none frame member)]

/-- When the thinking agrees.  If the whole response has reasoning, that is the case
unless the field `reasoning_content` counts and some chunk carries the field `reasoning`
alone.  If it has none, the thinking of the stream has to be that of the text. -/
def ChatResponse.ThinkingAgrees (response : ChatResponse) (stream : ToolCallStream) : Prop :=
  if response.plainReasoning = "" then stream.thinking = (splitThinkBlocks response.text.content.toList).2
  else response.reasoningContent = .absent ∨
    forall frame, frame ∈ stream.spoken -> frame.reasoningContentDelta = [] -> frame.reasoningDelta = []

theorem thinkingAgrees_iff {response : ChatResponse} {stream : ToolCallStream} (streams : response.Streams stream) :
    stream.thinking = response.plainThinking ↔ response.ThinkingAgrees stream := by
  rw [ChatResponse.ThinkingAgrees, ChatResponse.plainThinking]
  by_cases silent : response.plainReasoning = ""
  · rw [if_pos silent, if_pos silent]
  · rw [if_neg silent, if_neg silent, ToolCallStream.thinking_eq]
    have loud : response.plainReasoning.toList ≠ [] := by simpa using silent
    cases field : response.reasoningContent with
    | absent =>
        have none : stream.spoken.flatMap Frame.reasoningContentDelta = [] := by
          rw [streams.reasoningContent, field]
          rfl
        have reasoning : reasoningOf stream.spoken = response.plainReasoning.toList := by
          rw [reasoningOf_reasoning none, streams.reasoning, ChatResponse.plainReasoning, field]
        rw [reasoning, if_neg loud]
        exact iff_of_true rfl (Or.inl rfl)
    | null => exact absurd (by rw [ChatResponse.plainReasoning, field]; rfl) silent
    | text value =>
        have whole : response.plainReasoning = value := by
          rw [ChatResponse.plainReasoning, field]
          rfl
        have content : stream.spoken.flatMap Frame.reasoningContentDelta = value.toList := by
          rw [streams.reasoningContent, field]
          rfl
        have heard : reasoningOf stream.spoken ≠ [] := by
          intro none
          have bound := length_content_le stream.spoken
          rw [none, content, List.length_nil] at bound
          rw [whole] at loud
          exact loud (List.eq_nil_of_length_eq_zero (Nat.le_zero.mp bound))
        rw [if_neg heard, ← reasoningOf_content, content, whole]
        simp

/-! ## The calls of both -/

/-- When the calls agree: at the token limit none can be run, and otherwise the arguments
that the stream keeps are read as the whole ones, or as no object for a call without a
name. -/
def ChatResponse.CallsAgree (response : ChatResponse) (json : JsonParser) (stream : ToolCallStream) : Prop :=
  response.limited = true ∨ forall index call, response.table.find? index = some call ->
    argumentsObject json (argumentText (stream.kept index)) =
      if call.name = "" then none else argumentsObject json call.arguments

/-- The calls of a whole response in a summary. -/
def ChatResponse.plainCalls (response : ChatResponse) (json : JsonParser) :
    List (String × Option CallToolRequestParams) :=
  response.toolCalls.map fun call =>
    (call.id, (plainToolCall json response.limited call.name call.id call.arguments).toOption)

theorem callsAgree_iff (json : JsonParser) {response : ChatResponse} {stream : ToolCallStream}
    (streams : response.Streams stream) :
    ((tableCalls json stream.limited stream.collected).map fun call => (call.1, call.2.toOption)) =
      response.plainCalls json ↔ response.CallsAgree json stream := by
  have limited : stream.limited = response.limited := by
    rw [ToolCallStream.limited, streams.finishReason, ChatResponse.limited]
  have serializes : Serializes response.table (openingDeltas stream.spoken ++ followingDeltas stream.spoken) := by
    rw [openingDeltas_append_following]
    exact streams.toolCalls
  have spelled : forall index, (stream.collected.find? index).map (fun call => call.withArguments call.arguments) =
      (response.table.find? index).map fun call => call.withArguments (argumentText (stream.kept index)) :=
    collected_find? serializes
  have sameKeys := fun index => congrArg Option.isSome (spelled index)
  simp only [Option.isSome_map] at sameKeys
  let streamed := fun call : StreamedCall => (call.id, (streamedToolCall json response.limited call).toOption)
  let plain := fun call : StreamedCall =>
    (call.id, (plainToolCall json response.limited call.name call.id call.arguments).toOption)
  have left : ((tableCalls json stream.limited stream.collected).map fun call => (call.1, call.2.toOption)) =
      (stream.collected.map fun _ => streamed).entries.map fun entry => entry.2 := by
    rw [tableCalls, limited, List.map_map, Table.entries_map, List.map_map]
    rfl
  have right : response.plainCalls json = (response.table.map fun _ => plain).entries.map fun entry => entry.2 := by
    rw [Table.entries_map, List.map_map]
    exact (map_numberCalls plain 0 response.toolCalls).symm
  have mapped : forall index, ((stream.collected.map fun _ => streamed).find? index).isSome =
      ((response.table.map fun _ => plain).find? index).isSome := by
    intro index
    rw [Table.find?_map, Table.find?_map, Option.isSome_map, Option.isSome_map, sameKeys]
  rw [left, right, Table.values_eq_iff (fun call => call) mapped]
  have view : forall index, (stream.collected.find? index).map streamed =
      (response.table.find? index).map fun call => streamed (call.withArguments (argumentText (stream.kept index))) := by
    intro index
    have own := congrArg (Option.map streamed) (spelled index)
    simp only [Option.map_map] at own
    exact own
  have each : forall call arguments, streamed (call.withArguments arguments) = plain call ↔
      response.limited = true ∨ argumentsObject json arguments =
        if call.name = "" then none else argumentsObject json call.arguments := by
    intro call arguments
    simp only [streamed, plain, streamedToolCall_toOption, plainToolCall_toOption, StreamedCall.withArguments,
      Prod.mk.injEq, true_and]
    cases response.limited with
    | true => simp
    | false =>
        simp only [Bool.false_eq_true, if_false, false_or]
        by_cases unnamed : call.name = ""
        · simp [unnamed]
        · rw [if_neg unnamed, if_neg unnamed]
          refine Function.Injective.eq_iff (Option.map_injective ?_)
          intro first second same
          simpa using same
  simp only [Option.map_id', Table.find?_map, view]
  constructor
  · intro same
    by_cases limit : response.limited = true
    · exact Or.inl limit
    · refine Or.inr fun index call found => ?_
      have own := same index
      rw [found, Option.map_some, Option.map_some, Option.some.injEq, each] at own
      exact own.resolve_left limit
  · intro agrees index
    cases found : response.table.find? index with
    | none => rfl
    | some call =>
        rw [Option.map_some, Option.map_some, Option.some.injEq, each]
        rcases agrees with limit | same
        · exact Or.inl limit
        · exact Or.inr (same index call found)

/-! ## Agreement -/

theorem summary_append (left right : List MessageContentBlock) :
    summary (left ++ right) = ⟨(summary left).thinking ++ (summary right).thinking,
      (summary left).text ++ (summary right).text, (summary left).calls ++ (summary right).calls⟩ := by
  simp [summary]

theorem summary_flushedBlocks (content thinking : List Char) :
    summary (flushedBlocks content thinking) = ⟨thinking, content, []⟩ := by
  rw [summary, thinkingText_flushedBlocks, visibleText_flushedBlocks, flushedBlocks_silent]
  rfl

theorem summary_thinkingBlock (text : List Char) : summary [thinkingBlock text ""] = ⟨text, [], []⟩ := by
  simp [summary, thinkingText, thinkingOf, thinkingBlock, visibleText, MessageContentBlock.asText,
    MessageContentBlock.asToolRequest]

theorem summary_responseText (response : ChatResponse) :
    summary (responseText response.message) =
      ⟨response.plainThinking, (splitThinkBlocks response.text.content.toList).1, []⟩ := by
  rw [responseText, response.structuredReasoning_message, response.get_message.2.2.1, ChatResponse.plainThinking]
  by_cases silent : response.plainReasoning = ""
  · rw [if_pos silent, silent]
    cases response.text with
    | absent => rfl
    | null => rfl
    | text value =>
        have inline : (if !(splitThinkBlocks value.toList).2.isEmpty then
            [thinkingBlock (splitThinkBlocks value.toList).2 ""] else []) =
              flushedBlocks [] (splitThinkBlocks value.toList).2 := by
          rw [flushedBlocks]
          cases (splitThinkBlocks value.toList).2.isEmpty with
          | true => rfl
          | false => rfl
        have both : summary (flushedBlocks [] (splitThinkBlocks value.toList).2 ++
            flushedBlocks (splitThinkBlocks value.toList).1 []) =
              ⟨(splitThinkBlocks value.toList).2, (splitThinkBlocks value.toList).1, []⟩ := by
          rw [summary_append, summary_flushedBlocks, summary_flushedBlocks]
          simp
        rw [← inline] at both
        exact both
  · have filtered : (some response.plainReasoning).filter (· ≠ "") = some response.plainReasoning := by
      simp [Option.filter, silent]
    rw [if_neg silent, filtered]
    have alone := summary_thinkingBlock response.plainReasoning.toList
    cases response.text with
    | absent => exact alone
    | null => exact alone
    | text value =>
        have both : summary ([thinkingBlock response.plainReasoning.toList ""] ++
            flushedBlocks (splitThinkBlocks value.toList).1 []) =
              ⟨response.plainReasoning.toList, (splitThinkBlocks value.toList).1, []⟩ := by
          rw [summary_append, alone, summary_flushedBlocks]
          simp
        exact both

theorem summary_requests (json : JsonParser) (response : ChatResponse) :
    summary (response.requests json) = ⟨[], [], response.plainCalls json⟩ := by
  rw [ChatResponse.requests, ChatResponse.plainCalls]
  induction response.toolCalls with
  | nil => rfl
  | cons call rest ih =>
      rw [summary, Summary.mk.injEq] at ih ⊢
      refine ⟨ih.1, ih.2.1, ?_⟩
      rw [List.map_cons, List.map_cons, ← ih.2.2]
      rfl

theorem summary_plain (json : JsonParser) (now : Int) (response : ChatResponse) :
    Exists fun message => responseToMessage json now response.toJson = .ok message ∧
      summary message.content = ⟨response.plainThinking, (splitThinkBlocks response.text.content.toList).1,
        response.plainCalls json⟩ := by
  rcases response.responseToMessage_toJson json now with ⟨message, decoded, content⟩
  refine ⟨message, decoded, ?_⟩
  rw [content, summary_append, summary_responseText, summary_requests]
  simp

theorem summary_streamed (reader : Reader) (now : Int) {stream : ToolCallStream} {lines : List StreamLine}
    (read : lines.map (frameOf reader) = stream.frames) (survive : callsSurvive stream.frames = true) :
    summary (responseToStreamingMessage reader now lines).content =
      ⟨stream.thinking, (ThinkFilter.new.run (openingTexts stream.spoken)).content,
        (tableCalls reader.toJsonParser stream.limited stream.collected).map fun call => (call.1, call.2.toOption)⟩ := by
  have frames : stream.frames = stream.body ++ stream.ending := rfl
  have fresh : ThinkFilter.new.AtRest := ThinkFilter.atRest_new
  have owes : Owes State.start [] := ⟨⟨[], rfl, rfl⟩, fun _ => rfl, fun _ => rfl⟩
  have untruncated : State.start.Untruncated := ⟨rfl, rfl⟩
  have thinking : thinkingOfRun reader.toJsonParser now State.start .outer stream.frames = stream.thinking :=
    thinking_response stream stream.body_goesOn survive owes fresh
  have text := visibleText_streamed reader now lines
  have found := calls_response reader.toJsonParser now stream stream.body_goesOn untruncated
  rw [read, frames, content_response stream stream.body_goesOn survive fresh] at text
  rw [frames] at survive
  rw [if_pos survive] at found
  rw [summary, Summary.mk.injEq]
  refine ⟨?_, text, ?_⟩
  · rw [responseToStreamingMessage_eq, read]
    exact thinking
  · rw [responseToStreamingMessage_eq, read, frames, ToolCallStream.collected, ToolCallStream.spoken, ← found, calls,
      List.map_map]
    rfl

theorem calls_lost (reader : Reader) (now : Int) {stream : ToolCallStream} {lines : List StreamLine}
    (read : lines.map (frameOf reader) = stream.frames) (lost : callsSurvive stream.frames = false) :
    (summary (responseToStreamingMessage reader now lines).content).calls = [] := by
  have untruncated : State.start.Untruncated := ⟨rfl, rfl⟩
  have found := calls_response reader.toJsonParser now stream stream.body_goesOn untruncated
  have none : calls (responseToStreamingMessage reader now lines) = [] := by
    rw [responseToStreamingMessage_eq, read]
    exact found.trans (if_neg (by rw [show callsSurvive (stream.body ++ stream.ending) = false from lost]; decide))
  have same : (summary (responseToStreamingMessage reader now lines).content).calls =
      (calls (responseToStreamingMessage reader now lines)).map fun call => (call.1, call.2.toOption) := by
    rw [calls, List.map_map]
    rfl
  rw [same, none]
  rfl

/-- Both decoders say the same of a response just if the calls of its stream survive,
the calls and the thinking agree, and the filter finds the text of the whole response in
the texts before the first tool calls. -/
theorem decoders_agree_iff (reader : Reader) (now : Int) (response : ChatResponse) (stream : ToolCallStream)
    (lines : List StreamLine) (read : lines.map (frameOf reader) = stream.frames)
    (streams : response.Streams stream) :
    (Exists fun message => responseToMessage reader.toJsonParser now response.toJson = .ok message ∧
      summary (responseToStreamingMessage reader now lines).content = summary message.content) ↔
      callsSurvive stream.frames = true ∧ response.CallsAgree reader.toJsonParser stream ∧
        (ThinkFilter.new.run (openingTexts stream.spoken)).content =
          (splitThinkBlocks response.text.content.toList).1 ∧ response.ThinkingAgrees stream := by
  rcases summary_plain reader.toJsonParser now response with ⟨message, decoded, plain⟩
  have unique : (Exists fun message => responseToMessage reader.toJsonParser now response.toJson = .ok message ∧
      summary (responseToStreamingMessage reader now lines).content = summary message.content) ↔
        summary (responseToStreamingMessage reader now lines).content = summary message.content := by
    constructor
    · rintro ⟨found, same, agrees⟩
      rw [decoded, Except.ok.injEq] at same
      rw [same]
      exact agrees
    · exact fun agrees => ⟨message, decoded, agrees⟩
  rw [unique, plain]
  cases survive : callsSurvive stream.frames with
  | true =>
      rw [summary_streamed reader now read survive, Summary.mk.injEq, callsAgree_iff reader.toJsonParser streams,
        thinkingAgrees_iff streams]
      simp only [true_and]
      exact ⟨fun ⟨thinking, text, calls⟩ => ⟨calls, text, thinking⟩, fun ⟨calls, text, thinking⟩ => ⟨thinking, text, calls⟩⟩
  | false =>
      refine iff_of_false (fun same => ?_) fun condition => Bool.false_ne_true condition.1
      have calls := congrArg Summary.calls same
      rw [calls_lost reader now read survive] at calls
      have empty : response.toolCalls = [] := List.map_eq_nil_iff.mp calls.symm
      have numbered : response.table.entries = numberCalls 0 response.toolCalls := rfl
      have none : response.table.entries = [] := by
        rw [numbered, empty]
        rfl
      rw [callsSurvive_of_empty streams.toolCalls none] at survive
      contradiction

/-! ## A named and an unnamed call -/

/-- The response of the stream of a call. -/
def ShellCall.response : ChatResponse :=
  ⟨.absent, .absent, .absent, [⟨"call_1", "shell", "\x7b\x7d"⟩], some "tool_calls"⟩

theorem ShellCall.streams_finished : ShellCall.response.Streams ShellCall.finishedStream where
  reasoningContent := by decide
  reasoning := by decide
  text := by decide
  toolCalls := ShellCall.serializes_deltas
  finishReason := by decide

/-- A call with a name is the same for both decoders. -/
theorem decoders_agree_shell :
    Exists fun message => responseToMessage ShellCall.reader.toJsonParser 0 ShellCall.response.toJson = .ok message ∧
      summary (responseToStreamingMessage ShellCall.reader 0
        [ShellCall.opening.line, ShellCall.arguments.line, ShellCall.finish.line]).content =
          summary message.content := by
  refine (decoders_agree_iff ShellCall.reader 0 ShellCall.response ShellCall.finishedStream _ ?_
    ShellCall.streams_finished).mpr ⟨by decide, Or.inr ?_, by decide, ?_⟩
  · simp only [List.map_cons, List.map_nil, ShellCall.frameOf_opening, ShellCall.frameOf_arguments,
      ShellCall.frameOf_finish]
    rfl
  · intro index call found
    have entry := Table.mem_of_find? _ found
    have single : ShellCall.response.table.entries =
        [(0, (⟨"call_1", "shell", "\x7b\x7d", none⟩ : StreamedCall))] := rfl
    rw [single, List.mem_singleton, Prod.mk.injEq] at entry
    rw [entry.1, entry.2]
    decide +kernel
  · rw [ChatResponse.ThinkingAgrees, if_pos (by decide)]
    decide

namespace Unnamed

def delta : DeltaToolCall := ⟨some "call_1", ⟨some "", ""⟩, some 0, some []⟩

def chunk : StreamingChunk := ⟨[⟨⟨none, some [delta], none, none⟩, some "tool_calls"⟩], none, none, none⟩

/-- A chunk with a call that names no tool. -/
def sent : SentChunk where
  text := "[\x7b\"delta\":\x7b\"tool_calls\":[\x7b\"index\":0,\"id\":\"call_1\"," ++
    "\"function\":\x7b\"name\":\"\",\"arguments\":\"\"\x7d\x7d]\x7d,\"finish_reason\":\"tool_calls\"\x7d]"
  choices := .array [.object [("delta", .object [("tool_calls", .array [.object [("index", .number (.integer 0)),
    ("id", .string "call_1"), ("function", .object [("name", .string ""), ("arguments", .string "")])]])]),
      ("finish_reason", .string "tool_calls")]]
  chunk := chunk

def reader : Reader := Reader.ofSent [sent] (by decide +kernel)

def response : ChatResponse := ⟨.absent, .absent, .absent, [⟨"call_1", "", ""⟩], some "tool_calls"⟩

theorem chunk_finishes (other : StreamingChunk) (same : some chunk = some other) :
    (Frame.chunk other).finishReason.isSome = true := by
  cases same
  rfl

theorem nothing_goesOn (frame : Frame) (member : frame ∈ ([] : List Frame)) : frame.goesOn = true := by
  cases member

theorem nothing_trails (frame : Frame) (member : frame ∈ ([] : List Frame)) : frame.trails = true := by
  cases member

def stream : ToolCallStream :=
  ⟨[], some chunk, [], none, nothing_goesOn, chunk_finishes, nothing_trails, fun _ => rfl⟩

theorem frameOf_sent : frameOf reader sent.line = .chunk chunk := by
  rw [SentChunk.line, frameOf, SentChunk.payload, stripDataPrefix_braced]
  decide +kernel

theorem streams : response.Streams stream where
  reasoningContent := by decide
  reasoning := by decide
  text := by decide
  finishReason := by decide
  toolCalls := by
    refine ⟨fun delta member => ?_, fun index call found => ?_⟩
    · rw [List.mem_singleton.mp member]
      exact ⟨0, rfl, rfl⟩
    · have entry := Table.mem_of_find? _ found
      have single : response.table.entries = [(0, (⟨"call_1", "", "", none⟩ : StreamedCall))] := rfl
      rw [single, List.mem_singleton, Prod.mk.injEq] at entry
      rw [entry.1, entry.2]
      exact ⟨rfl, rfl, by simp, by decide⟩

end Unnamed

/-- A call without a name fails in a whole response, and can be run in a stream. -/
theorem decoders_disagree : ¬ (forall (reader : Reader) (now : Int) (response : ChatResponse)
    (stream : ToolCallStream) (lines : List StreamLine), lines.map (frameOf reader) = stream.frames ->
      response.Streams stream ->
      Exists fun message => responseToMessage reader.toJsonParser now response.toJson = .ok message ∧
        summary (responseToStreamingMessage reader now lines).content = summary message.content) := by
  intro agree
  have read : [Unnamed.sent.line].map (frameOf Unnamed.reader) = Unnamed.stream.frames := by
    rw [List.map_cons, List.map_nil, Unnamed.frameOf_sent]
    rfl
  rcases agree Unnamed.reader 0 Unnamed.response Unnamed.stream _ read Unnamed.streams with ⟨message, decoded, same⟩
  rcases summary_plain Unnamed.reader.toJsonParser 0 Unnamed.response with ⟨plain, alsoDecoded, said⟩
  rw [decoded, Except.ok.injEq] at alsoDecoded
  rw [alsoDecoded, said, summary_streamed Unnamed.reader 0 read (by decide)] at same
  exact absurd (congrArg Summary.calls same) (by decide +kernel)

end OpenAi
end AIBuddy
