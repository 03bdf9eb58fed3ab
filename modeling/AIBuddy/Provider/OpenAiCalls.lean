import AIBuddy.Provider.OpenAiFrames

namespace AIBuddy
namespace OpenAi

/-!
# Tool calls of a chat stream

The deltas of a tool call are spread over the frames of a stream.  The decoder puts
them together again, unless the inner loop is left by an end mark or by a blank data
line, or the first chunk of the calls has more than one delta for a call.
-/

/-! ## Putting deltas together -/

/-- What a later delta does to the call at its index. -/
def joinDelta (found : Option StreamedCall) (delta : DeltaToolCall) : Option StreamedCall :=
  match found with
  | some call => some (call.extend delta)
  | none => delta.opens

def DeltaToolCall.isAt (index : Int) (delta : DeltaToolCall) : Bool :=
  delta.index == some index

theorem find?_laterDelta (data : ToolCallData) (delta : DeltaToolCall) (index : Int) :
    (laterDelta data delta).find? index =
      if delta.isAt index then joinDelta (data.find? index) delta else data.find? index := by
  rw [laterDelta, DeltaToolCall.isAt]
  cases place : delta.index with
  | none => simp
  | some own =>
      simp only [beq_iff_eq, Option.some.injEq]
      by_cases same : own = index
      · subst same
        rw [if_pos rfl]
        cases found : data.find? own with
        | some call => simp [joinDelta]
        | none =>
            simp only [joinDelta]
            cases delta.opens with
            | some call => simp
            | none => simpa using found
      · rw [if_neg same]
        cases data.find? own with
        | some call => exact Table.find?_insert_of_ne data _ (Ne.symm same)
        | none =>
            simp only
            cases delta.opens with
            | some call => exact Table.find?_insert_of_ne data _ (Ne.symm same)
            | none => rfl

theorem find?_laterDeltas (deltas : List DeltaToolCall) (data : ToolCallData) (index : Int) :
    (deltas.foldl laterDelta data).find? index =
      (deltas.filter (DeltaToolCall.isAt index)).foldl joinDelta (data.find? index) := by
  induction deltas generalizing data with
  | nil => rfl
  | cons delta rest ih =>
      rw [List.foldl_cons, ih, find?_laterDelta, List.filter_cons]
      split
      · rw [List.foldl_cons]
      · rfl

theorem find?_openCalls (deltas : List DeltaToolCall) (position : Nat) (data : ToolCallData) (index : Int)
    (placed : forall delta, delta ∈ deltas -> delta.index.isSome = true) :
    (openCalls position data deltas).find? index =
      (deltas.filter (DeltaToolCall.isAt index)).foldl (fun found delta => delta.opens.or found)
        (data.find? index) := by
  induction deltas generalizing position data with
  | nil => rfl
  | cons delta rest ih =>
      have restPlaced := fun other member => placed other (List.mem_cons_of_mem _ member)
      rcases Option.isSome_iff_exists.mp (placed delta List.mem_cons_self) with ⟨own, place⟩
      rw [openCalls, List.filter_cons]
      cases opened : delta.opens with
      | none =>
          simp only [ih _ _ restPlaced]
          split
          · rw [List.foldl_cons, opened, Option.none_or]
          · rfl
      | some call =>
          simp only [ih _ _ restPlaced, DeltaToolCall.isAt, place, Option.getD_some, beq_iff_eq,
            Option.some.injEq]
          by_cases same : own = index
          · rw [if_pos same, List.foldl_cons, opened, Option.some_or, same, Table.find?_insert_self]
          · rw [if_neg same, Table.find?_insert_of_ne data call (Ne.symm same)]

/-! ## Serializations -/

/-- A delta that only carries arguments. -/
def DeltaToolCall.Continues (delta : DeltaToolCall) : Prop :=
  delta.id = none ∧ delta.function.name.filter (· ≠ "") = none

/-- The text that deltas carry. -/
def argumentText (deltas : List DeltaToolCall) : String :=
  String.join (deltas.map fun delta => delta.function.arguments)

/-- The first delta names the call, and all deltas together carry its arguments. -/
def Spells (call : StreamedCall) : List DeltaToolCall -> Prop
  | [] => False
  | first :: later =>
      first.id = some call.id ∧ first.function.name = some call.name ∧
        (forall delta, delta ∈ later -> delta.Continues) ∧ call.arguments = argumentText (first :: later)

/-- Deltas in any order spell the calls of a table. -/
structure Serializes (calls : ToolCallData) (deltas : List DeltaToolCall) : Prop where
  placed : forall delta, delta ∈ deltas -> Exists fun index =>
    delta.index = some index ∧ (calls.find? index).isSome = true
  spelled : forall index call, calls.find? index = some call ->
    Spells call (deltas.filter (DeltaToolCall.isAt index))

/-- A call with other arguments and without extra fields. -/
def StreamedCall.withArguments (call : StreamedCall) (arguments : String) : StreamedCall :=
  { call with arguments := arguments, extra := none }

theorem argumentText_cons (first : DeltaToolCall) (later : List DeltaToolCall) :
    argumentText (first :: later) = first.function.arguments ++ argumentText later := by
  rw [argumentText, List.map_cons, ← List.singleton_append, String.join_append, argumentText]
  simp

theorem foldl_joinDelta (deltas : List DeltaToolCall) (call : StreamedCall)
    (continues : forall delta, delta ∈ deltas -> delta.Continues) :
    (deltas.foldl joinDelta (some call)).map (fun joined => joined.withArguments joined.arguments) =
      some (call.withArguments (call.arguments ++ argumentText deltas)) := by
  induction deltas generalizing call with
  | nil => simp [argumentText]
  | cons delta rest ih =>
      have own := continues delta List.mem_cons_self
      have later := fun other member => continues other (List.mem_cons_of_mem delta member)
      rw [List.foldl_cons, joinDelta, ih _ later]
      have sameName : (call.extend delta).name = call.name := by
        rw [StreamedCall.extend, own.2, Option.getD_none]
      simp only [StreamedCall.withArguments, sameName, argumentText_cons]
      simp only [StreamedCall.extend, String.append_assoc]

/-- In the first chunk, deltas that only carry arguments are passed over. -/
theorem foldl_opens (deltas : List DeltaToolCall) (found : Option StreamedCall)
    (continues : forall delta, delta ∈ deltas -> delta.Continues) :
    deltas.foldl (fun found delta => delta.opens.or found) found = found := by
  induction deltas with
  | nil => rfl
  | cons delta rest ih =>
      have own := continues delta List.mem_cons_self
      have closed : delta.opens = none := by rw [DeltaToolCall.opens, own.1]; rfl
      rw [List.foldl_cons, closed, Option.none_or]
      exact ih fun other member => continues other (List.mem_cons_of_mem _ member)

/-! ## What is kept of the arguments -/

/-- The deltas at an index that the decoder takes in: the first one of the first chunk,
and all of later chunks. -/
def keptDeltas (opening following : List DeltaToolCall) (index : Int) : List DeltaToolCall :=
  (opening.filter (DeltaToolCall.isAt index)).take 1 ++ following.filter (DeltaToolCall.isAt index)

theorem collected_find? {calls : ToolCallData} {opening following : List DeltaToolCall}
    (serializes : Serializes calls (opening ++ following)) (index : Int) :
    ((following.foldl laterDelta (openCalls 0 Table.empty opening)).find? index).map
        (fun call => call.withArguments call.arguments) =
      (calls.find? index).map fun call => call.withArguments (argumentText (keptDeltas opening following index)) := by
  have placed : forall delta, delta ∈ opening -> delta.index.isSome = true := by
    intro delta member
    rcases serializes.placed delta (List.mem_append_left _ member) with ⟨own, place, _⟩
    rw [place]
    rfl
  rw [find?_laterDeltas, find?_openCalls opening 0 Table.empty index placed, Table.find?_empty, keptDeltas]
  cases found : calls.find? index with
  | none =>
      have nowhere : forall deltas : List DeltaToolCall,
          (forall delta, delta ∈ deltas -> delta ∈ opening ++ following) -> deltas.filter (DeltaToolCall.isAt index) = [] := by
        intro deltas within
        rw [List.filter_eq_nil_iff]
        intro delta member here
        rcases serializes.placed delta (within delta member) with ⟨own, place, known⟩
        rw [DeltaToolCall.isAt, place, beq_iff_eq, Option.some.injEq] at here
        rw [here, found] at known
        contradiction
      rw [nowhere opening fun delta member => List.mem_append_left _ member,
        nowhere following fun delta member => List.mem_append_right _ member]
      rfl
  | some call =>
      have spelled := serializes.spelled index call found
      rw [List.filter_append] at spelled
      cases first : opening.filter (DeltaToolCall.isAt index) with
      | cons delta rest =>
          rw [first, List.cons_append] at spelled
          rcases spelled with ⟨isNamed, isCalled, continues, _⟩
          have opened : delta.opens = some ⟨call.id, call.name, delta.function.arguments, delta.extra⟩ := by
            rw [DeltaToolCall.opens, isNamed, isCalled]
            rfl
          rw [List.foldl_cons, opened, Option.some_or,
            foldl_opens rest _ fun other member => continues other (List.mem_append_left _ member),
            foldl_joinDelta _ _ fun other member => continues other (List.mem_append_right _ member)]
          simp [StreamedCall.withArguments, argumentText_cons]
      | nil =>
          rw [first, List.nil_append] at spelled
          cases later : following.filter (DeltaToolCall.isAt index) with
          | nil =>
              rw [later] at spelled
              exact absurd spelled id
          | cons delta rest =>
              rw [later] at spelled
              rcases spelled with ⟨isNamed, isCalled, continues, _⟩
              have opened : delta.opens = some ⟨call.id, call.name, delta.function.arguments, delta.extra⟩ := by
                rw [DeltaToolCall.opens, isNamed, isCalled]
                rfl
              rw [List.foldl_nil, List.foldl_cons, joinDelta, opened, foldl_joinDelta _ _ continues]
              simp [StreamedCall.withArguments, argumentText_cons]

/-! ## Streams of tool calls -/

/-- A frame before the last chunk of a response. -/
def Frame.goesOn : Frame -> Bool
  | .other | .blank | .metadata => true
  | .chunk received => received.choices.head?.any fun choice => choice.finishReason.isNone
  | .done | .broken _ => false

/-- A frame behind the last chunk of a response. -/
def Frame.trails : Frame -> Bool
  | .other | .blank | .metadata => true
  | .chunk received => received.choices.isEmpty
  | .done | .broken _ => false

/-- The frames of a response.  It ends with a chunk that has a finish reason, with an
end mark, with both, or with neither. -/
structure ToolCallStream where
  body : List Frame
  last : Option StreamingChunk
  trailer : List Frame
  mark : Option (List Frame)
  body_goesOn : forall frame, frame ∈ body -> frame.goesOn = true
  last_finishes : forall chunk, last = some chunk -> (Frame.chunk chunk).finishReason.isSome = true
  trailer_trails : forall frame, frame ∈ trailer -> frame.trails = true
  trailer_follows : last = none -> trailer = []

/-- The end mark, with what stands behind it. -/
def markFrames : Option (List Frame) -> List Frame
  | none => []
  | some ignored => .done :: ignored

def lastFrames (last : Option StreamingChunk) : List Frame :=
  (last.map Frame.chunk).toList

namespace ToolCallStream

/-- The frames up to the last chunk. -/
def spoken (stream : ToolCallStream) : List Frame :=
  stream.body ++ lastFrames stream.last

def frames (stream : ToolCallStream) : List Frame :=
  stream.body ++ (lastFrames stream.last ++ (stream.trailer ++ markFrames stream.mark))

def deltas (stream : ToolCallStream) : List DeltaToolCall :=
  stream.spoken.flatMap Frame.deltas

/-- Whether the response was cut off at the token limit. -/
def limited (stream : ToolCallStream) : Bool :=
  (stream.last.bind fun chunk => (Frame.chunk chunk).finishReason) == some "length"

end ToolCallStream

/-- The deltas of the first frame that has any. -/
def openingDeltas : List Frame -> List DeltaToolCall
  | [] => []
  | frame :: rest => if frame.deltas = [] then openingDeltas rest else frame.deltas

/-- The deltas of the frames behind the first one that has any. -/
def followingDeltas : List Frame -> List DeltaToolCall
  | [] => []
  | frame :: rest => if frame.deltas = [] then followingDeltas rest else rest.flatMap Frame.deltas

theorem openingDeltas_append_following (frames : List Frame) :
    openingDeltas frames ++ followingDeltas frames = frames.flatMap Frame.deltas := by
  induction frames with
  | nil => rfl
  | cons frame rest ih =>
      rw [openingDeltas, followingDeltas, List.flatMap_cons]
      split
      · rename_i quiet
        rw [ih, quiet, List.nil_append]
      · rfl

/-! ## The inner loop -/

/-- A chunk that ends the inner loop: one with a finish reason or without choices. -/
def StreamingChunk.endsCalls (chunk : StreamingChunk) : Bool :=
  chunk.choices.isEmpty || (Frame.chunk chunk).finishReason.isSome

/-- Whether the inner loop comes to a chunk that ends it, or to the end of the stream. -/
def reachesEnd : List Frame -> Bool
  | [] => true
  | .other :: rest | .metadata :: rest => reachesEnd rest
  | .blank :: _ | .done :: _ | .broken _ :: _ => false
  | .chunk chunk :: rest => chunk.endsCalls || reachesEnd rest

/-- The frames behind those that the inner loop reads. -/
def innerRest : List Frame -> List Frame
  | [] => []
  | .chunk chunk :: rest => if chunk.endsCalls then rest else innerRest rest
  | _ :: rest => innerRest rest

/-- The frames that the inner loop reads. -/
def innerFrames : List Frame -> List Frame
  | [] => []
  | .chunk chunk :: rest => if chunk.endsCalls then [.chunk chunk] else .chunk chunk :: innerFrames rest
  | frame :: rest => frame :: innerFrames rest

/-- Whether one of some frames has the finish reason of the token limit. -/
def anyLimited (frames : List Frame) : Bool :=
  frames.any fun frame => frame.finishReason == some "length"

/-- The calls of a table as they are yielded. -/
def tableCalls (json : JsonParser) (limitReached : Bool) (table : ToolCallData) :
    List (String × ToolResult CallToolRequestParams) :=
  table.entries.map fun entry => (entry.2.id, streamedToolCall json limitReached entry.2)

section Inner

variable {json : JsonParser} {now : Int}

theorem readFrames_goOn {state next : State} {mode nextMode : Mode} {frame : Frame} {items : List StreamItem}
    (step : frameOutcome json now state mode frame = .goOn next nextMode items) (rest : List Frame) :
    calls (readFrames json now state mode (frame :: rest)) =
      itemCalls items ++ calls (readFrames json now next nextMode rest) := by
  rw [readFrames, step]
  exact calls_after _ _

theorem readFrames_stop {state next : State} {mode : Mode} {frame : Frame}
    (step : frameOutcome json now state mode frame = .stop next) (rest : List Frame) :
    calls (readFrames json now state mode (frame :: rest)) = [] := by
  rw [readFrames, step]
  exact itemCalls_finish now next

theorem readFrames_fail {state : State} {mode : Mode} {frame : Frame} {error : StreamError}
    (step : frameOutcome json now state mode frame = .fail error) (rest : List Frame) :
    calls (readFrames json now state mode (frame :: rest)) = [] := by
  rw [readFrames, step]
  rfl

theorem innerChunk_cases (state : State) (collecting : Collecting) (chunk : StreamingChunk) :
    Exists fun collected : Collecting =>
      collected.calls = (Frame.chunk chunk).deltas.foldl laterDelta collecting.calls ∧
        innerChunk json now state collecting chunk =
          if chunk.endsCalls then leaveInner json now (state.receiveInner chunk) collected
          else .goOn (state.receiveInner chunk) (.collecting collected) [] := by
  rcases chunk with ⟨choices, id, usage, model⟩
  cases choices with
  | nil =>
      refine ⟨_, ?_, rfl⟩
      rfl
  | cons choice rest =>
      refine ⟨_, ?_, rfl⟩
      rfl

theorem calls_leaveInner {state : State} {mode : Mode} {frame : Frame} {next : State} {collecting : Collecting}
    (step : frameOutcome json now state mode frame = leaveInner json now next collecting) (rest : List Frame) :
    Exists fun after : State =>
      calls (readFrames json now state mode (frame :: rest)) =
        tableCalls json next.outputTokenLimitReached collecting.calls ++
          calls (readFrames json now after .outer rest) := by
  refine ⟨(emitCalls json now next collecting).1, ?_⟩
  rw [readFrames_goOn step, itemCalls_emitCalls]
  rfl

theorem calls_inner_lost (frames : List Frame) (state : State) (collecting : Collecting)
    (lost : reachesEnd frames = false) :
    calls (readFrames json now state (.collecting collecting) frames) = [] := by
  induction frames generalizing state collecting with
  | nil => contradiction
  | cons frame rest ih =>
      cases frame with
      | other =>
          rw [readFrames_goOn (by rfl)]
          exact ih state collecting lost
      | metadata =>
          rw [readFrames_goOn (by rfl)]
          exact ih state collecting lost
      | blank => exact readFrames_fail rfl rest
      | done => exact readFrames_stop rfl rest
      | broken error => exact readFrames_fail rfl rest
      | chunk chunk =>
          rcases innerChunk_cases state collecting chunk with ⟨collected, _, step⟩
          rw [reachesEnd, Bool.or_eq_false_iff] at lost
          have stays : frameOutcome json now state (.collecting collecting) (.chunk chunk) =
              .goOn (state.receiveInner chunk) (.collecting collected) [] := step.trans (if_neg (by simp [lost.1]))
          rw [readFrames_goOn stays]
          exact ih _ collected lost.2

theorem calls_inner_read (frames : List Frame) (state : State) (collecting : Collecting)
    (reaches : reachesEnd frames = true) :
    Exists fun after : State =>
      calls (readFrames json now state (.collecting collecting) frames) =
        tableCalls json (state.outputTokenLimitReached || anyLimited (innerFrames frames))
            (((innerFrames frames).flatMap Frame.deltas).foldl laterDelta collecting.calls) ++
          calls (readFrames json now after .outer (innerRest frames)) := by
  induction frames generalizing state collecting with
  | nil =>
      refine ⟨(emitCalls json now state collecting).1, ?_⟩
      rw [readFrames, endOfStream, calls_items]
      simp only [itemCalls_append, itemCalls_emitCalls]
      simp [innerFrames, innerRest, anyLimited, readFrames, calls_items, endOfStream, tableCalls]
  | cons frame rest ih =>
      cases frame with
      | other =>
          rcases ih state collecting reaches with ⟨after, same⟩
          refine ⟨after, ?_⟩
          rw [readFrames_goOn (by rfl), same]
          rfl
      | metadata =>
          rcases ih state collecting reaches with ⟨after, same⟩
          refine ⟨after, ?_⟩
          rw [readFrames_goOn (by rfl), same]
          rfl
      | blank => contradiction
      | done => contradiction
      | broken error => contradiction
      | chunk chunk =>
          rcases innerChunk_cases state collecting chunk with ⟨collected, joined, step⟩
          by_cases ends : chunk.endsCalls = true
          · have leaves : frameOutcome json now state (.collecting collecting) (.chunk chunk) =
                leaveInner json now (state.receiveInner chunk) collected := step.trans (if_pos ends)
            rcases calls_leaveInner leaves rest with ⟨after, same⟩
            refine ⟨after, ?_⟩
            rw [same, outputTokenLimitReached_receiveInner, joined, innerFrames, innerRest, if_pos ends, if_pos ends]
            simp [anyLimited]
          · have stays : frameOutcome json now state (.collecting collecting) (.chunk chunk) =
                .goOn (state.receiveInner chunk) (.collecting collected) [] := step.trans (if_neg ends)
            have restReaches : reachesEnd rest = true := by
              rw [reachesEnd, Bool.or_eq_true] at reaches
              exact reaches.resolve_left ends
            rcases ih (state.receiveInner chunk) collected restReaches with ⟨after, same⟩
            refine ⟨after, ?_⟩
            rw [readFrames_goOn stays, same, outputTokenLimitReached_receiveInner, joined, innerFrames, innerRest,
              if_neg ends, if_neg ends]
            simp [anyLimited, Bool.or_assoc]

/-! ## The outer loop -/

/-- What is known of the response has the finish reason of none of its chunks. -/
def State.Untruncated (state : State) : Prop :=
  state.lastFinishReason = none ∧ state.outputTokenLimitReached = false

theorem untruncated_emitText {state : State} (untruncated : state.Untruncated) (chunk : StreamingChunk)
    (choice : StreamingChoice) (usage : Option ProviderUsage) :
    (emitText now state chunk choice usage).1.Untruncated := by
  simp only [emitText, yieldUsage]
  split
  · split
    · exact untruncated
    · exact untruncated
  · exact untruncated

theorem outerChunk_quiet (json : JsonParser) (now : Int) (state : State) {chunk : StreamingChunk}
    (quiet : (Frame.chunk chunk).deltas = []) :
    Exists fun next : State => Exists fun items : List StreamItem =>
      itemCalls items = [] ∧ ((state.receive chunk).Untruncated -> next.Untruncated) ∧
        outerChunk json now state chunk = .goOn next .outer items := by
  rcases chunk with ⟨choices, id, usage, model⟩
  cases choices with
  | nil =>
      refine ⟨_, _, ?_, ?_, rfl⟩
      · rfl
      · exact fun untruncated => untruncated
  | cons choice others =>
      have idle : startsCalls choice = false := by
        rw [Bool.eq_false_iff, Ne, startsCalls_iff]
        exact fun starts => starts quiet
      simp only [outerChunk, idle, Bool.false_eq_true, if_false]
      split
      · exact ⟨_, _, itemCalls_emitText .., fun untruncated => untruncated_emitText untruncated .., rfl⟩
      · refine ⟨_, _, itemCalls_yieldUsage _ _, fun untruncated => ?_, rfl⟩
        rw [yieldUsage]
        split
        · exact untruncated
        · exact untruncated

theorem outerChunk_calls (json : JsonParser) (now : Int) (state : State) {chunk : StreamingChunk}
    (spoken : (Frame.chunk chunk).deltas ≠ []) :
    Exists fun collecting : Collecting =>
      collecting.calls = openCalls 0 Table.empty (Frame.chunk chunk).deltas ∧
        outerChunk json now state chunk =
          if isComplete (Frame.chunk chunk).finishReason then leaveInner json now (state.receive chunk) collecting
          else .goOn (state.receive chunk) (.collecting collecting) [] := by
  rcases chunk with ⟨choices, id, usage, model⟩
  cases choices with
  | nil => contradiction
  | cons choice others =>
      have starts : startsCalls choice = true := (startsCalls_iff choice).mpr spoken
      simp only [outerChunk, starts, if_true]
      refine ⟨_, ?_, rfl⟩
      rfl

/-- Frames without tool calls, up to the end mark. -/
def isQuiet : List Frame -> Bool
  | [] | .done :: _ => true
  | frame :: rest => frame.deltas.isEmpty && isQuiet rest

theorem calls_outer_quiet (frames : List Frame) (state : State) (quiet : isQuiet frames = true) :
    calls (readFrames json now state .outer frames) = [] := by
  induction frames generalizing state with
  | nil => exact itemCalls_finish now state
  | cons frame rest ih =>
      cases frame with
      | done => exact readFrames_stop rfl rest
      | broken error => exact readFrames_fail rfl rest
      | other =>
          rw [readFrames_goOn (by rfl)]
          exact ih state quiet
      | blank =>
          rw [readFrames_goOn (by rfl)]
          exact ih state quiet
      | metadata =>
          rw [readFrames_goOn (by rfl)]
          exact ih state quiet
      | chunk chunk =>
          simp only [isQuiet, Bool.and_eq_true, List.isEmpty_iff] at quiet
          rcases outerChunk_quiet json now state quiet.1 with ⟨next, items, silent, _, step⟩
          have stays : frameOutcome json now state .outer (.chunk chunk) = .goOn next .outer items := step
          rw [readFrames_goOn stays, silent]
          exact ih next quiet.2

theorem calls_inner (frames : List Frame) (state : State) (collecting : Collecting)
    (quiet : reachesEnd frames = true -> isQuiet (innerRest frames) = true) :
    calls (readFrames json now state (.collecting collecting) frames) =
      if reachesEnd frames then
        tableCalls json (state.outputTokenLimitReached || anyLimited (innerFrames frames))
          (((innerFrames frames).flatMap Frame.deltas).foldl laterDelta collecting.calls)
      else [] := by
  cases reaches : reachesEnd frames with
  | false => exact calls_inner_lost frames state collecting reaches
  | true =>
      rcases calls_inner_read frames state collecting reaches with ⟨after, same⟩
      rw [same, calls_outer_quiet _ after (quiet reaches), List.append_nil, if_pos rfl]

end Inner

/-! ## The end of a response -/

theorem isQuiet_trailing {trailer : List Frame} (trails : forall frame, frame ∈ trailer -> frame.trails = true)
    (mark : Option (List Frame)) : isQuiet (trailer ++ markFrames mark) = true := by
  induction trailer with
  | nil =>
      cases mark with
      | none => rfl
      | some ignored => rfl
  | cons frame rest ih =>
      have own := trails frame List.mem_cons_self
      have later := ih fun frame member => trails frame (List.mem_cons_of_mem _ member)
      cases frame with
      | other => exact later
      | blank => exact later
      | metadata => exact later
      | done => contradiction
      | broken error => contradiction
      | chunk chunk =>
          rcases chunk with ⟨choices, id, usage, model⟩
          cases choices with
          | nil => exact later
          | cons choice others => contradiction

/-- Behind the last chunk nothing is added to the calls. -/
theorem innerFrames_trailing {trailer : List Frame} (trails : forall frame, frame ∈ trailer -> frame.trails = true)
    (mark : Option (List Frame)) (reaches : reachesEnd (trailer ++ markFrames mark) = true) :
    (innerFrames (trailer ++ markFrames mark)).flatMap Frame.deltas = [] ∧
      anyLimited (innerFrames (trailer ++ markFrames mark)) = false ∧
      isQuiet (innerRest (trailer ++ markFrames mark)) = true := by
  induction trailer with
  | nil =>
      cases mark with
      | none => exact ⟨rfl, rfl, rfl⟩
      | some ignored => contradiction
  | cons frame rest ih =>
      have own := trails frame List.mem_cons_self
      have restTrails := fun later member => trails later (List.mem_cons_of_mem frame member)
      cases frame with
      | other => exact ih restTrails reaches
      | blank => contradiction
      | metadata => exact ih restTrails reaches
      | done => contradiction
      | broken error => contradiction
      | chunk chunk =>
          rcases chunk with ⟨choices, id, usage, model⟩
          cases choices with
          | nil => exact ⟨rfl, rfl, isQuiet_trailing restTrails mark⟩
          | cons choice others => contradiction

namespace ToolCallStream

/-- What stands behind the body of a response. -/
def ending (stream : ToolCallStream) : List Frame :=
  lastFrames stream.last ++ (stream.trailer ++ markFrames stream.mark)

theorem innerFrames_ending (stream : ToolCallStream) (reaches : reachesEnd stream.ending = true) :
    (innerFrames stream.ending).flatMap Frame.deltas = (lastFrames stream.last).flatMap Frame.deltas ∧
      anyLimited (innerFrames stream.ending) = stream.limited ∧ isQuiet (innerRest stream.ending) = true := by
  rw [ending] at reaches ⊢
  rw [limited]
  cases last : stream.last with
  | none =>
      rw [last] at reaches
      exact innerFrames_trailing stream.trailer_trails stream.mark reaches
  | some chunk =>
      have finishes := stream.last_finishes chunk last
      have ends : chunk.endsCalls = true := by rw [StreamingChunk.endsCalls, finishes, Bool.or_true]
      simp only [lastFrames, Option.map_some, Option.toList_some, List.singleton_append]
      rw [innerFrames, if_pos ends, innerRest, if_pos ends]
      exact ⟨rfl, by simp [anyLimited], isQuiet_trailing stream.trailer_trails stream.mark⟩

end ToolCallStream

theorem Frame.goesOn_chunk {chunk : StreamingChunk} (goesOn : (Frame.chunk chunk).goesOn = true) :
    (Frame.chunk chunk).finishReason = none := by
  rcases chunk with ⟨choices, id, usage, model⟩
  cases choices with
  | nil => contradiction
  | cons choice others =>
      simp only [Frame.goesOn, List.head?_cons, Option.any_some, Option.isNone_iff_eq_none] at goesOn
      exact goesOn

theorem StreamingChunk.endsCalls_goesOn {chunk : StreamingChunk} (goesOn : (Frame.chunk chunk).goesOn = true) :
    chunk.endsCalls = false := by
  have unfinished := Frame.goesOn_chunk goesOn
  rcases chunk with ⟨choices, id, usage, model⟩
  cases choices with
  | nil => contradiction
  | cons choice others =>
      rw [StreamingChunk.endsCalls, unfinished]
      rfl

theorem innerFrames_body {body : List Frame} (goesOn : forall frame, frame ∈ body -> frame.goesOn = true)
    (ending : List Frame) (reaches : reachesEnd (body ++ ending) = true) :
    innerFrames (body ++ ending) = body ++ innerFrames ending ∧ innerRest (body ++ ending) = innerRest ending ∧
      anyLimited body = false ∧ reachesEnd ending = true := by
  induction body with
  | nil => exact ⟨rfl, rfl, rfl, reaches⟩
  | cons frame rest ih =>
      have own := goesOn frame List.mem_cons_self
      have restGoesOn := fun later member => goesOn later (List.mem_cons_of_mem frame member)
      cases frame with
      | other =>
          have later := ih restGoesOn reaches
          exact ⟨congrArg _ later.1, later.2⟩
      | blank => contradiction
      | metadata =>
          have later := ih restGoesOn reaches
          exact ⟨congrArg _ later.1, later.2⟩
      | done => contradiction
      | broken error => contradiction
      | chunk chunk =>
          have unfinished := Frame.goesOn_chunk own
          have stays := StreamingChunk.endsCalls_goesOn own
          rw [List.cons_append, reachesEnd, stays, Bool.false_or] at reaches
          have later := ih restGoesOn reaches
          refine ⟨?_, ?_, ?_, later.2.2.2⟩
          · rw [List.cons_append, innerFrames, if_neg (by simp [stays]), later.1, List.cons_append]
          · rw [List.cons_append, innerRest, if_neg (by simp [stays]), later.2.1]
          · rw [anyLimited, List.any_cons, unfinished]
            exact later.2.2.1

/-! ## Calls that survive -/

section Response

variable {json : JsonParser} {now : Int}

theorem untruncated_receive {state : State} (untruncated : state.Untruncated) {chunk : StreamingChunk}
    (unfinished : (Frame.chunk chunk).finishReason = none) : (state.receive chunk).Untruncated := by
  constructor
  · rw [lastFinishReason_receive, unfinished, untruncated.1]
    rfl
  · rw [outputTokenLimitReached_receive, unfinished, untruncated.1, untruncated.2]
    rfl

theorem outerFrame_quiet (json : JsonParser) (now : Int) {state : State} (untruncated : state.Untruncated)
    {frame : Frame} (goesOn : frame.goesOn = true) (quiet : frame.deltas = []) :
    Exists fun next : State => Exists fun items : List StreamItem =>
      itemCalls items = [] ∧ next.Untruncated ∧
        frameOutcome json now state .outer frame = .goOn next .outer items := by
  cases frame with
  | other => exact ⟨state, [], rfl, untruncated, rfl⟩
  | blank => exact ⟨state, [], rfl, untruncated, rfl⟩
  | metadata => exact ⟨state, [], rfl, untruncated, rfl⟩
  | done => contradiction
  | broken error => contradiction
  | chunk chunk =>
      rcases outerChunk_quiet json now state quiet with ⟨next, items, silent, kept, step⟩
      exact ⟨next, items, silent, kept (untruncated_receive untruncated (Frame.goesOn_chunk goesOn)), step⟩

theorem calls_first_complete {state : State} (untruncated : state.Untruncated) {chunk : StreamingChunk}
    (spoken : (Frame.chunk chunk).deltas ≠ []) (complete : isComplete (Frame.chunk chunk).finishReason = true)
    {rest : List Frame} (quiet : isQuiet rest = true) :
    calls (readFrames json now state .outer (.chunk chunk :: rest)) =
      tableCalls json ((Frame.chunk chunk).finishReason == some "length")
        (openCalls 0 Table.empty (Frame.chunk chunk).deltas) := by
  rcases outerChunk_calls json now state spoken with ⟨collecting, opened, step⟩
  have leaves : frameOutcome json now state .outer (.chunk chunk) =
      leaveInner json now (state.receive chunk) collecting := step.trans (if_pos complete)
  rcases calls_leaveInner leaves rest with ⟨after, same⟩
  rw [same, calls_outer_quiet rest after quiet, List.append_nil, opened, outputTokenLimitReached_receive,
    untruncated.1, untruncated.2, Option.or_none, Bool.false_or]

theorem calls_first_collecting {state : State} (untruncated : state.Untruncated) {chunk : StreamingChunk}
    (spoken : (Frame.chunk chunk).deltas ≠ []) (incomplete : isComplete (Frame.chunk chunk).finishReason = false)
    {rest : List Frame} (quiet : reachesEnd rest = true -> isQuiet (innerRest rest) = true) :
    calls (readFrames json now state .outer (.chunk chunk :: rest)) =
      if reachesEnd rest then
        tableCalls json (anyLimited (innerFrames rest))
          (((innerFrames rest).flatMap Frame.deltas).foldl laterDelta
            (openCalls 0 Table.empty (Frame.chunk chunk).deltas))
      else [] := by
  rcases outerChunk_calls json now state spoken with ⟨collecting, opened, step⟩
  have stays : frameOutcome json now state .outer (.chunk chunk) =
      .goOn (state.receive chunk) (.collecting collecting) [] := step.trans (if_neg (by simp [incomplete]))
  have unlimited : (state.receive chunk).outputTokenLimitReached = false := by
    rw [isComplete, Bool.or_eq_false_iff] at incomplete
    rw [outputTokenLimitReached_receive, untruncated.1, untruncated.2, Option.or_none, Bool.false_or]
    exact incomplete.2
  rw [readFrames_goOn stays, calls_inner rest _ _ quiet, opened, unlimited, Bool.false_or]
  rfl

end Response

/-- Whether the calls that start in some frames are yielded. -/
def callsSurvive : List Frame -> Bool
  | [] | .done :: _ => true
  | frame :: rest =>
      if frame.deltas = [] then callsSurvive rest else isComplete frame.finishReason || reachesEnd rest

theorem callsSurvive_quiet {frame : Frame} (running : frame ≠ .done) (quiet : frame.deltas = [])
    (rest : List Frame) : callsSurvive (frame :: rest) = callsSurvive rest := by
  cases frame with
  | done => contradiction
  | broken error => rfl
  | other => rfl
  | blank => rfl
  | metadata => rfl
  | chunk chunk => simp only [callsSurvive, if_pos quiet]

theorem callsSurvive_calls {frame : Frame} (spoken : frame.deltas ≠ []) (rest : List Frame) :
    callsSurvive (frame :: rest) = (isComplete frame.finishReason || reachesEnd rest) := by
  cases frame with
  | done => contradiction
  | broken error => contradiction
  | other => contradiction
  | blank => contradiction
  | metadata => contradiction
  | chunk chunk => simp only [callsSurvive, if_neg spoken]

theorem callsSurvive_of_isQuiet {frames : List Frame} (quiet : isQuiet frames = true) :
    callsSurvive frames = true := by
  induction frames with
  | nil => rfl
  | cons frame rest ih =>
      by_cases mark : frame = .done
      · rw [mark]
        rfl
      · have bare : frame.deltas = [] ∧ isQuiet rest = true := by
          cases frame with
          | done => contradiction
          | broken error => exact ⟨rfl, quiet⟩
          | other => exact ⟨rfl, quiet⟩
          | blank => exact ⟨rfl, quiet⟩
          | metadata => exact ⟨rfl, quiet⟩
          | chunk chunk => simpa only [isQuiet, Bool.and_eq_true, List.isEmpty_iff] using quiet
        rw [callsSurvive_quiet mark bare.1]
        exact ih bare.2

theorem ite_tableCalls_empty (json : JsonParser) (limitReached survive : Bool) :
    (if survive then tableCalls json limitReached Table.empty else []) = [] := by
  cases survive with
  | false => rfl
  | true => rfl

theorem calls_ending (json : JsonParser) (now : Int) (stream : ToolCallStream) (state : State)
    (untruncated : state.Untruncated) :
    calls (readFrames json now state .outer stream.ending) =
      if callsSurvive stream.ending then
        tableCalls json stream.limited
          ((followingDeltas (lastFrames stream.last)).foldl laterDelta
            (openCalls 0 Table.empty (openingDeltas (lastFrames stream.last))))
      else [] := by
  rw [ToolCallStream.ending, ToolCallStream.limited]
  have trailing := isQuiet_trailing stream.trailer_trails stream.mark
  cases last : stream.last with
  | none =>
      rw [lastFrames, Option.map_none, Option.toList_none, List.nil_append, calls_outer_quiet _ state trailing]
      exact (ite_tableCalls_empty ..).symm
  | some chunk =>
      simp only [lastFrames, Option.map_some, Option.toList_some, List.singleton_append, openingDeltas, followingDeltas,
        List.flatMap_nil, Option.bind_some]
      by_cases quiet : (Frame.chunk chunk).deltas = []
      · rw [calls_outer_quiet _ state (by simp [isQuiet, quiet, trailing])]
        simp only [if_pos quiet]
        exact (ite_tableCalls_empty ..).symm
      · rw [callsSurvive_calls quiet]
        simp only [if_neg quiet, List.foldl_nil]
        cases complete : isComplete (Frame.chunk chunk).finishReason with
        | true =>
            rw [calls_first_complete untruncated quiet complete trailing]
            rfl
        | false =>
            have behind := innerFrames_trailing stream.trailer_trails stream.mark
            rw [calls_first_collecting untruncated quiet complete fun reaches => (behind reaches).2.2, Bool.false_or]
            cases reaches : reachesEnd (stream.trailer ++ markFrames stream.mark) with
            | false => rfl
            | true =>
                rw [isComplete, Bool.or_eq_false_iff] at complete
                rw [(behind reaches).1, (behind reaches).2.1, complete.2]
                rfl

theorem calls_response (json : JsonParser) (now : Int) (stream : ToolCallStream) {body : List Frame}
    (goesOn : forall frame, frame ∈ body -> frame.goesOn = true) {state : State} (untruncated : state.Untruncated) :
    calls (readFrames json now state .outer (body ++ stream.ending)) =
      if callsSurvive (body ++ stream.ending) then
        tableCalls json stream.limited
          ((followingDeltas (body ++ lastFrames stream.last)).foldl laterDelta
            (openCalls 0 Table.empty (openingDeltas (body ++ lastFrames stream.last))))
      else [] := by
  induction body generalizing state with
  | nil => exact calls_ending json now stream state untruncated
  | cons frame rest ih =>
      have own := goesOn frame List.mem_cons_self
      have restGoesOn := fun later member => goesOn later (List.mem_cons_of_mem frame member)
      have running : frame ≠ .done := by
        intro mark
        rw [mark] at own
        contradiction
      simp only [List.cons_append, openingDeltas, followingDeltas]
      by_cases quiet : frame.deltas = []
      · rcases outerFrame_quiet json now untruncated own quiet with
          ⟨next, items, silent, kept, step⟩
        rw [readFrames_goOn step, silent, List.nil_append, ih restGoesOn kept,
          callsSurvive_quiet running quiet]
        simp only [if_pos quiet]
      · rw [callsSurvive_calls quiet]
        cases frame with
        | other => contradiction
        | blank => contradiction
        | metadata => contradiction
        | done => contradiction
        | broken error => contradiction
        | chunk chunk =>
            have incomplete : isComplete (Frame.chunk chunk).finishReason = false := by
              rw [Frame.goesOn_chunk own]
              rfl
            have behind := innerFrames_body restGoesOn stream.ending
            have ending := stream.innerFrames_ending
            rw [calls_first_collecting untruncated quiet incomplete fun reaches => by
              rw [(behind reaches).2.1]
              exact (ending (behind reaches).2.2.2).2.2]
            simp only [if_neg quiet, incomplete, Bool.false_or]
            cases reaches : reachesEnd (rest ++ stream.ending) with
            | false => rfl
            | true =>
                have inner := behind reaches
                have last := ending inner.2.2.2
                rw [inner.1, List.flatMap_append, last.1, List.flatMap_append, anyLimited, List.any_append]
                rw [← anyLimited, inner.2.2.1, Bool.false_or, ← anyLimited, last.2.1]

/-! ## No call is lost -/

namespace ToolCallStream

/-- The deltas at an index that the decoder takes in. -/
def kept (stream : ToolCallStream) (index : Int) : List DeltaToolCall :=
  keptDeltas (openingDeltas stream.spoken) (followingDeltas stream.spoken) index

/-- The calls that the decoder collects. -/
def collected (stream : ToolCallStream) : ToolCallData :=
  (followingDeltas stream.spoken).foldl laterDelta (openCalls 0 Table.empty (openingDeltas stream.spoken))

/-- A delta that the first chunk with calls holds in excess makes no difference to what
is made of the arguments. -/
def KeepsArguments (json : JsonParser) (stream : ToolCallStream) (table : ToolCallData) : Prop :=
  forall index call, table.find? index = some call ->
    streamedToolCall json stream.limited (call.withArguments (argumentText (stream.kept index))) =
      streamedToolCall json stream.limited call

theorem tableCalls_collected_iff (json : JsonParser) (stream : ToolCallStream) {table : ToolCallData}
    (serializes : Serializes table stream.deltas) :
    tableCalls json stream.limited stream.collected = tableCalls json stream.limited table ↔
      stream.KeepsArguments json table := by
  have serializes : Serializes table (openingDeltas stream.spoken ++ followingDeltas stream.spoken) := by
    rw [openingDeltas_append_following]
    exact serializes
  have spelled : forall index, (stream.collected.find? index).map (fun call => call.withArguments call.arguments) =
      (table.find? index).map fun call => call.withArguments (argumentText (stream.kept index)) :=
    collected_find? serializes
  have sameKeys := fun index => congrArg Option.isSome (spelled index)
  simp only [Option.isSome_map] at sameKeys
  rw [tableCalls, tableCalls, Table.values_eq_iff
    (fun call => (call.id, streamedToolCall json stream.limited call)) sameKeys]
  have view : forall index,
      (stream.collected.find? index).map (fun call => (call.id, streamedToolCall json stream.limited call)) =
        (table.find? index).map fun call => (call.id, streamedToolCall json stream.limited
          (call.withArguments (argumentText (stream.kept index)))) := by
    intro index
    have own := congrArg (Option.map fun call => (call.id, streamedToolCall json stream.limited call)) (spelled index)
    simp only [Option.map_map] at own
    exact own
  constructor
  · intro same index call found
    have own := same index
    rw [view, found, Option.map_some, Option.map_some, Option.some.injEq] at own
    exact congrArg Prod.snd own
  · intro keeps index
    rw [view]
    cases found : table.find? index with
    | none => rfl
    | some call => rw [Option.map_some, Option.map_some, keeps index call found]

end ToolCallStream

theorem callsSurvive_of_empty {table : ToolCallData} {stream : ToolCallStream}
    (serializes : Serializes table stream.deltas) (none : table.entries = []) :
    callsSurvive stream.frames = true := by
  have silent : forall frame, frame ∈ stream.spoken -> frame.deltas = [] := by
    intro frame member
    rw [List.eq_nil_iff_forall_not_mem]
    intro delta inFrame
    rcases serializes.placed delta (List.mem_flatMap.mpr ⟨frame, member, inFrame⟩) with ⟨index, _, known⟩
    rcases Option.isSome_iff_exists.mp known with ⟨call, found⟩
    have entry := Table.mem_of_find? table found
    rw [none] at entry
    contradiction
  have running : forall frame, frame ∈ stream.spoken -> frame ≠ .done := by
    intro frame member mark
    rw [mark] at member
    rcases List.mem_append.mp member with inBody | isLast
    · exact absurd (stream.body_goesOn _ inBody) (by decide)
    · cases last : stream.last with
      | none => simp [lastFrames, last] at isLast
      | some chunk => simp [lastFrames, last] at isLast
  have whole : stream.frames = stream.spoken ++ (stream.trailer ++ markFrames stream.mark) :=
    (List.append_assoc _ _ _).symm
  rw [whole]
  have ending := callsSurvive_of_isQuiet (isQuiet_trailing stream.trailer_trails stream.mark)
  revert silent running
  induction stream.spoken with
  | nil => exact fun _ _ => ending
  | cons frame rest ih =>
      intro silent running
      rw [List.cons_append, callsSurvive_quiet (running frame List.mem_cons_self) (silent frame List.mem_cons_self)]
      exact ih (fun later member => silent later (List.mem_cons_of_mem _ member))
        fun later member => running later (List.mem_cons_of_mem _ member)

/-- A stream that spells the calls of a table yields one request for each of them, in the
order of their indices and with all of its arguments, just if the first chunk with calls
is not followed by an end mark or a blank data line before the calls are complete, and
has nothing to say twice about one call. -/
theorem tool_calls_streamed_iff (reader : Reader) (now : Int) (stream : ToolCallStream) (table : ToolCallData)
    (lines : List StreamLine) (read : lines.map (frameOf reader) = stream.frames)
    (serializes : Serializes table stream.deltas) :
    calls (responseToStreamingMessage reader now lines) = tableCalls reader.toJsonParser stream.limited table ↔
      callsSurvive stream.frames = true ∧ stream.KeepsArguments reader.toJsonParser table := by
  have untruncated : State.start.Untruncated := ⟨rfl, rfl⟩
  have equation := calls_response reader.toJsonParser now stream stream.body_goesOn untruncated
  rw [responseToStreamingMessage_eq, read]
  rw [← stream.tableCalls_collected_iff reader.toJsonParser serializes]
  have same : stream.frames = stream.body ++ stream.ending := rfl
  rw [same, equation]
  cases survives : callsSurvive (stream.body ++ stream.ending) with
  | true =>
      rw [if_pos rfl]
      exact ⟨fun kept => ⟨rfl, kept⟩, fun kept => kept.2⟩
  | false =>
      rw [if_neg Bool.false_ne_true]
      refine iff_of_false (fun lost => ?_) fun kept => Bool.false_ne_true kept.1
      have none : table.entries = [] := List.map_eq_nil_iff.mp lost.symm
      have survived := callsSurvive_of_empty serializes none
      rw [same, survives] at survived
      contradiction

/-! ## A call without arguments -/

namespace ShellCall

/-- The table of one call. -/
def table : ToolCallData :=
  Table.empty.insert 0 ⟨"call_1", "shell", "\x7b\x7d", none⟩

def openingDelta : DeltaToolCall := ⟨some "call_1", ⟨some "shell", ""⟩, some 0, some []⟩

def argumentDelta : DeltaToolCall := ⟨none, ⟨none, "\x7b\x7d"⟩, some 0, some []⟩

def opening : SentChunk where
  text := "[\x7b\"delta\":\x7b\"tool_calls\":[\x7b\"index\":0,\"id\":\"call_1\"," ++
    "\"function\":\x7b\"name\":\"shell\",\"arguments\":\"\"\x7d\x7d]\x7d\x7d]"
  choices := .array [.object [("delta", .object [("tool_calls", .array [.object [("index", .number (.integer 0)),
    ("id", .string "call_1"), ("function", .object [("name", .string "shell"), ("arguments", .string "")])]])])]]
  chunk := ⟨[⟨⟨none, some [openingDelta], none, none⟩, none⟩], none, none, none⟩

def arguments : SentChunk where
  text := "[\x7b\"delta\":\x7b\"tool_calls\":[\x7b\"index\":0," ++
    "\"function\":\x7b\"arguments\":\"\x7b\x7d\"\x7d\x7d]\x7d\x7d]"
  choices := .array [.object [("delta", .object [("tool_calls", .array [.object [("index", .number (.integer 0)),
    ("function", .object [("arguments", .string "\x7b\x7d")])]])])]]
  chunk := ⟨[⟨⟨none, some [argumentDelta], none, none⟩, none⟩], none, none, none⟩

def finished : StreamingChunk :=
  ⟨[⟨⟨none, none, none, none⟩, some "tool_calls"⟩], none, none, none⟩

def finish : SentChunk where
  text := "[\x7b\"delta\":\x7b\x7d,\"finish_reason\":\"tool_calls\"\x7d]"
  choices := .array [.object [("delta", .object []), ("finish_reason", .string "tool_calls")]]
  chunk := finished

def reader : Reader := Reader.ofSent [opening, arguments, finish] (by decide +kernel)

theorem frameOf_opening : frameOf reader opening.line = .chunk opening.chunk := by
  rw [SentChunk.line, frameOf, SentChunk.payload, stripDataPrefix_braced]
  decide +kernel

theorem frameOf_arguments : frameOf reader arguments.line = .chunk arguments.chunk := by
  rw [SentChunk.line, frameOf, SentChunk.payload, stripDataPrefix_braced]
  decide +kernel

theorem frameOf_finish : frameOf reader finish.line = .chunk finished := by
  rw [SentChunk.line, frameOf, SentChunk.payload, stripDataPrefix_braced]
  decide +kernel

/-- The frames of the call, up to a last chunk or an end mark. -/
def stream (last : Option StreamingChunk) (mark : Option (List Frame))
    (finishes : forall chunk, last = some chunk -> (Frame.chunk chunk).finishReason.isSome = true) :
    ToolCallStream where
  body := [.chunk opening.chunk, .chunk arguments.chunk]
  last := last
  trailer := []
  mark := mark
  body_goesOn := by decide
  last_finishes := finishes
  trailer_trails := by simp
  trailer_follows _ := rfl

def finishedStream : ToolCallStream :=
  stream (some finished) none fun chunk same => by
    rw [← Option.some.inj same]
    rfl

def markedStream : ToolCallStream := stream none (some []) (by simp)

theorem serializes_deltas : Serializes table [openingDelta, argumentDelta] where
  placed delta member := by
    refine ⟨0, ?_, rfl⟩
    rcases List.mem_cons.mp member with same | later
    · rw [same]
      rfl
    · rw [List.mem_singleton.mp later]
      rfl
  spelled index call found := by
    rw [table, Table.find?_insert] at found
    split at found
    · rename_i same
      subst same
      rw [← Option.some.inj found]
      refine ⟨rfl, rfl, ?_, by decide⟩
      intro delta member
      rw [List.mem_singleton.mp member]
      exact ⟨rfl, rfl⟩
    · contradiction

end ShellCall

/-- A call that a finish reason ends is requested. -/
theorem tool_calls_streamed_shell :
    calls (responseToStreamingMessage ShellCall.reader 0
        [ShellCall.opening.line, ShellCall.arguments.line, ShellCall.finish.line]) =
      tableCalls ShellCall.reader.toJsonParser ShellCall.finishedStream.limited ShellCall.table := by
  refine (tool_calls_streamed_iff ShellCall.reader 0 ShellCall.finishedStream ShellCall.table _ ?_
    ShellCall.serializes_deltas).mpr ⟨by decide, ?_⟩
  · simp only [List.map_cons, List.map_nil, ShellCall.frameOf_opening, ShellCall.frameOf_arguments,
      ShellCall.frameOf_finish]
    rfl
  · intro index call found
    rw [ShellCall.table, Table.find?_insert] at found
    split at found
    · rename_i same
      subst same
      rw [← Option.some.inj found]
      decide +kernel
    · contradiction

/-- A call that the end mark ends is lost. -/
theorem tool_call_lost : ¬ (forall (reader : Reader) (now : Int) (stream : ToolCallStream) (table : ToolCallData)
    (lines : List StreamLine), lines.map (frameOf reader) = stream.frames -> Serializes table stream.deltas ->
      calls (responseToStreamingMessage reader now lines) = tableCalls reader.toJsonParser stream.limited table) := by
  intro kept
  have frames : [ShellCall.opening.line, ShellCall.arguments.line, .ok "data: [DONE]"].map
      (frameOf ShellCall.reader) = ShellCall.markedStream.frames := by
    have mark : frameOf ShellCall.reader (.ok "data: [DONE]") = .done := by decide +kernel
    simp only [List.map_cons, List.map_nil, ShellCall.frameOf_opening, ShellCall.frameOf_arguments, mark]
    rfl
  have claimed := kept ShellCall.reader 0 ShellCall.markedStream ShellCall.table _ frames ShellCall.serializes_deltas
  rw [responseToStreamingMessage_eq, frames] at claimed
  exact absurd claimed (by decide +kernel)

end OpenAi
end AIBuddy
