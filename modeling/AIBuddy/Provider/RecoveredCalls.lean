import AIBuddy.Provider.OpenAiCalls

namespace AIBuddy
namespace OpenAi

/-!
# Calls that are run are calls that were streamed

Whatever lines a stream has, a call that can be run has the arguments that are read of fragments of
the stream.  No arguments are made up where the fragments are cut off or are no object.
-/

/-- A call has been put together from deltas, in their order: its identifier and its name from some
of them, and its arguments from all. -/
structure Assembled (seen : List DeltaToolCall) (call : StreamedCall) : Prop where
  parts : Exists fun used : List DeltaToolCall => used.Sublist seen ∧
    (Exists fun delta => delta ∈ used ∧ delta.id = some call.id) ∧
      (Exists fun delta => delta ∈ used ∧ delta.function.name = some call.name) ∧
        call.arguments = argumentText used

/-- A call that can be run has a name, an identifier and arguments that were streamed. -/
def Recovered (json : JsonParser) (seen : List DeltaToolCall) (entry : String × ToolResult CallToolRequestParams) : Prop :=
  forall call, entry.2 = .ok call -> Exists fun streamed : StreamedCall => Assembled seen streamed ∧
    streamed.id = entry.1 ∧ streamed.name = call.name ∧ Exists fun fields =>
      parseToolArguments json streamed.arguments = some (.object fields) ∧ call.arguments = some fields

/-- All calls of a table have been put together from deltas. -/
def Held (seen : List DeltaToolCall) (data : ToolCallData) : Prop :=
  forall index call, data.find? index = some call -> Assembled seen call

variable {json : JsonParser} {seen : List DeltaToolCall} {data : ToolCallData} {call : StreamedCall}
  {delta : DeltaToolCall}

theorem Assembled.append (assembled : Assembled seen call) (more : List DeltaToolCall) : Assembled (seen ++ more) call := by
  rcases assembled with ⟨used, among, parts⟩
  exact ⟨used, among.trans (List.sublist_append_left seen more), parts⟩

theorem assembled_opens (opens : delta.opens = some call) : Assembled (seen ++ [delta]) call := by
  rcases Option.bind_eq_some_iff.mp opens with ⟨id, hasId, named⟩
  rcases Option.map_eq_some_iff.mp named with ⟨name, hasName, rfl⟩
  refine ⟨[delta], List.sublist_append_right seen _, ⟨delta, by simp, hasId⟩, ⟨delta, by simp, hasName⟩, ?_⟩
  simp [argumentText]

theorem Assembled.extend (assembled : Assembled seen call) (delta : DeltaToolCall) :
    Assembled (seen ++ [delta]) (call.extend delta) := by
  rcases assembled with ⟨used, among, ⟨first, firstMember, hasId⟩, ⟨namer, member, hasName⟩, arguments⟩
  refine ⟨used ++ [delta], among.append (.refl _), ⟨first, List.mem_append_left _ firstMember, hasId⟩, ?_, ?_⟩
  · rw [StreamedCall.extend]
    cases later : delta.function.name.filter (· ≠ "") with
    | none => exact ⟨namer, List.mem_append_left _ member, hasName⟩
    | some name => exact ⟨delta, by simp, (Option.filter_eq_some_iff.mp later).1⟩
  · rw [StreamedCall.extend, arguments, argumentText, argumentText, List.map_append, String.join_append]
    simp

theorem Held.insert (held : Held seen data) (index : Int) (assembled : Assembled (seen ++ [delta]) call) :
    Held (seen ++ [delta]) (data.insert index call) := by
  intro other known found
  rw [Table.find?_insert] at found
  split at found
  · exact Option.some.inj found ▸ assembled
  · exact (held other known found).append [delta]

theorem held_openCalls (held : Held seen data) (position : Nat) (deltas : List DeltaToolCall) :
    Held (seen ++ deltas) (openCalls position data deltas) := by
  induction deltas generalizing seen data position with
  | nil => simpa [openCalls] using held
  | cons delta rest ih =>
      rw [openCalls, List.append_cons]
      split
      · exact ih (held.insert _ (assembled_opens ‹_›)) _
      · exact ih (fun index call found => (held index call found).append [delta]) _

theorem held_laterDelta (held : Held seen data) (delta : DeltaToolCall) : Held (seen ++ [delta]) (laterDelta data delta) := by
  have kept : Held (seen ++ [delta]) data := fun index call found => (held index call found).append [delta]
  rw [laterDelta]
  split
  · exact kept
  · split
    · exact held.insert _ ((held _ _ ‹_›).extend delta)
    · split
      · exact held.insert _ (assembled_opens ‹_›)
      · exact kept

theorem held_laterDeltas (held : Held seen data) (deltas : List DeltaToolCall) :
    Held (seen ++ deltas) (deltas.foldl laterDelta data) := by
  induction deltas generalizing seen data with
  | nil => simpa using held
  | cons delta rest ih =>
      rw [List.append_cons]
      exact ih (held_laterDelta held delta)

/-- What is made of a streamed call can be run only with the arguments that are read of it. -/
theorem recovered_streamedToolCall (assembled : Assembled seen call) (limitReached : Bool) :
    Recovered json seen (call.id, streamedToolCall json limitReached call) := by
  intro run ok
  simp only [streamedToolCall] at ok
  split at ok
  · cases ok
  · split at ok
    · cases ok
      refine ⟨call, assembled, rfl, rfl, [], ?_, rfl⟩
      rw [parseToolArguments, if_pos ‹_›]
    · rw [readArguments] at ok
      split at ok
      · cases ok
        exact ⟨call, assembled, rfl, rfl, _, ‹_›, rfl⟩
      · cases ok
      · cases ok

theorem recovered_emitCalls {collecting : Collecting} (held : Held seen collecting.calls) (now : Int) (state : State) :
    forall entry, entry ∈ itemCalls (emitCalls json now state collecting).2 -> Recovered json seen entry := by
  intro entry member
  rw [itemCalls_emitCalls] at member
  rcases List.mem_map.mp member with ⟨⟨index, call⟩, known, rfl⟩
  exact recovered_streamedToolCall (held index call (Table.find?_eq_some_of_mem _ known)) _

/-- What an outcome yields is recovered, and what it keeps is put together from deltas. -/
def Outcome.Traced (json : JsonParser) (seen : List DeltaToolCall) : Outcome -> Prop
  | .goOn _ .outer items => forall entry, entry ∈ itemCalls items -> Recovered json seen entry
  | .goOn _ (.collecting collecting) items => items = [] ∧ Held seen collecting.calls
  | _ => True

theorem traced_leaveInner {collecting : Collecting} (held : Held seen collecting.calls) (now : Int) (state : State) :
    (leaveInner json now state collecting).Traced json seen :=
  recovered_emitCalls held now state

theorem traced_silent {items : List StreamItem} (silent : itemCalls items = []) (state : State) :
    (Outcome.goOn state .outer items).Traced json seen := by
  intro entry member
  rw [silent] at member
  contradiction

theorem traced_outerFrame (seen : List DeltaToolCall) (now : Int) (state : State) (frame : Frame) :
    (outerFrame json now state frame).Traced json (seen ++ frame.deltas) := by
  cases frame with
  | other | blank | metadata => exact traced_silent rfl _
  | done | broken => trivial
  | chunk chunk =>
      rw [outerFrame, outerChunk]
      cases chosen : chunk.choices with
      | nil => exact traced_silent rfl _
      | cons choice others =>
          have deltas : (Frame.chunk chunk).deltas = choice.delta.toolCalls.getD [] := by
            simp [Frame.deltas, Frame.choice?, chosen]
          have held : Held (seen ++ choice.delta.toolCalls.getD [])
              (openCalls 0 Table.empty (choice.delta.toolCalls.getD [])) :=
            held_openCalls (fun index call found => by cases found) 0 _
          rw [deltas]
          simp only
          split
          · split
            · exact traced_leaveInner held _ _
            · exact ⟨rfl, held⟩
          · split
            · exact traced_silent (itemCalls_emitText ..) _
            · exact traced_silent (itemCalls_yieldUsage ..) _

theorem traced_innerFrame {collecting : Collecting} (held : Held seen collecting.calls) (now : Int) (state : State)
    (frame : Frame) : (innerFrame json now state collecting frame).Traced json (seen ++ frame.deltas) := by
  have kept : forall deltas, Held (seen ++ deltas) collecting.calls :=
    fun deltas index call found => (held index call found).append deltas
  cases frame with
  | other | metadata => exact ⟨rfl, kept _⟩
  | blank | done | broken => trivial
  | chunk chunk =>
      rw [innerFrame, innerChunk]
      cases chosen : chunk.choices with
      | nil =>
          simp only
          refine traced_leaveInner ?_ _ _
          exact kept _
      | cons choice others =>
          have deltas : (Frame.chunk chunk).deltas = choice.delta.toolCalls.getD [] := by
            simp [Frame.deltas, Frame.choice?, chosen]
          rw [deltas]
          simp only
          split
          · exact traced_leaveInner (held_laterDeltas held _) _ _
          · exact ⟨rfl, held_laterDeltas held _⟩

/-- What is collected in a mode has been put together from deltas. -/
def Mode.Held (seen : List DeltaToolCall) : Mode -> Prop
  | .outer => True
  | .collecting taken => OpenAi.Held seen taken.calls

theorem Recovered.append {entry : String × ToolResult CallToolRequestParams} (recovered : Recovered json seen entry)
    (more : List DeltaToolCall) : Recovered json (seen ++ more) entry := by
  intro call ok
  rcases recovered call ok with ⟨streamed, assembled, parts⟩
  exact ⟨streamed, assembled.append more, parts⟩

theorem recovered_readFrames (now : Int) (frames : List Frame) {mode : Mode} (held : mode.Held seen) (state : State) :
    forall entry, entry ∈ calls (readFrames json now state mode frames) ->
      Recovered json (seen ++ frames.flatMap Frame.deltas) entry := by
  induction frames generalizing seen mode state with
  | nil =>
      intro entry member
      rw [readFrames, calls_items] at member
      cases mode with
      | outer => rw [endOfStream, itemCalls_finish] at member; contradiction
      | collecting collecting =>
          rw [endOfStream, itemCalls_append, itemCalls_finish, List.append_nil] at member
          exact (recovered_emitCalls held now state entry member).append _
  | cons frame rest ih =>
      have traced : (frameOutcome json now state mode frame).Traced json (seen ++ frame.deltas) := by
        cases mode with
        | outer => exact traced_outerFrame seen now state frame
        | collecting collecting => exact traced_innerFrame held now state frame
      rw [readFrames, List.flatMap_cons, ← List.append_assoc]
      cases outcome : frameOutcome json now state mode frame with
      | stop next => intro entry member; rw [calls_items, itemCalls_finish] at member; contradiction
      | fail error => intro entry member; contradiction
      | goOn next nextMode items =>
          rw [outcome] at traced
          intro entry member
          rw [calls_after] at member
          cases nextMode with
          | outer =>
              have nothing : Mode.outer.Held (seen ++ frame.deltas) := trivial
              rcases List.mem_append.mp member with now | later
              · exact (traced entry now).append _
              · exact ih nothing next entry later
          | collecting collecting =>
              have collected : (Mode.collecting collecting).Held (seen ++ frame.deltas) := traced.2
              rw [traced.1] at member
              exact ih collected next entry member

/-- Every call that a stream yields and that can be run, whatever its lines are and wherever it
breaks off, has an identifier, a name and arguments that deltas of the stream carry in this order, and
runs with the object that is read of these arguments. -/
theorem streamed_calls_recovered (reader : Reader) (now : Int) (lines : List StreamLine) :
    forall entry, entry ∈ calls (responseToStreamingMessage reader now lines) ->
      Recovered reader.toJsonParser ((lines.map (frameOf reader)).flatMap Frame.deltas) entry := by
  rw [responseToStreamingMessage_eq]
  have held : Mode.outer.Held [] := trivial
  exact recovered_readFrames now _ held _

/-- The call of a stream that opens it and then sends its arguments. -/
theorem streamed_calls_recovered_shell :
    Recovered ShellCall.reader.toJsonParser [ShellCall.openingDelta, ShellCall.argumentDelta]
      ("call_1", .ok ⟨"shell", some []⟩) := by
  have frames : [ShellCall.opening.line, ShellCall.arguments.line, ShellCall.finish.line].map
      (frameOf ShellCall.reader) = [.chunk ShellCall.opening.chunk, .chunk ShellCall.arguments.chunk,
        .chunk ShellCall.finished] := by
    simp only [List.map_cons, List.map_nil, ShellCall.frameOf_opening, ShellCall.frameOf_arguments,
      ShellCall.frameOf_finish]
  have recovered := streamed_calls_recovered ShellCall.reader 0
    [ShellCall.opening.line, ShellCall.arguments.line, ShellCall.finish.line] ("call_1", .ok ⟨"shell", some []⟩)
  rw [responseToStreamingMessage_eq, frames] at recovered
  exact recovered (by decide +kernel)

end OpenAi
end AIBuddy
