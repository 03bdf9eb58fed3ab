import AIBuddy.Provider.OpenAiStream

namespace AIBuddy
namespace OpenAi

/-!
# Frames of a chat stream

What both loops do with a line depends on what the line is read as: no data, a blank
data line, the end mark, metadata, a chunk, or something that cannot be read.
-/

inductive Frame where
  | other
  | blank
  | done
  | metadata
  | chunk (chunk : StreamingChunk)
  | broken (error : StreamError)
deriving DecidableEq

def frameOf (reader : Reader) : StreamLine -> Frame
  | .error text => .broken (.transport text)
  | .ok line =>
      match stripDataPrefix line with
      | none => .other
      | some payload =>
          if payload = "[DONE]" then .done
          else if payload = "" then .blank
          else
            match parseStreamingChunk reader payload with
            | .error error => .broken error
            | .ok none => .metadata
            | .ok (some chunk) => .chunk chunk

/-- A frame in the outer loop. -/
def outerFrame (json : JsonParser) (now : Int) (state : State) : Frame -> Outcome
  | .other | .blank | .metadata => .goOn state .outer []
  | .done => .stop state
  | .chunk chunk => outerChunk json now state chunk
  | .broken error => .fail error

/-- The error of a blank line in the inner loop. -/
def blankError (json : JsonParser) : StreamError :=
  match json.fromStr "" with
  | .error reason => .decode "streaming chunk" reason ""
  | .ok _ => .invalid ""

/-- A frame in the inner loop, where a blank data line fails. -/
def innerFrame (json : JsonParser) (now : Int) (state : State) (collecting : Collecting) : Frame -> Outcome
  | .other | .metadata => .goOn state (.collecting collecting) []
  | .blank => .fail (blankError json)
  | .done => .stop state
  | .chunk chunk => innerChunk json now state collecting chunk
  | .broken error => .fail error

theorem outerLine_eq (reader : Reader) (now : Int) (state : State) (line : StreamLine) :
    outerLine reader now state line = outerFrame reader.toJsonParser now state (frameOf reader line) := by
  cases line with
  | error text => rfl
  | ok line =>
      simp only [outerLine, frameOf]
      cases stripDataPrefix line with
      | none => rfl
      | some payload =>
          simp only
          split
          · rfl
          · split
            · rfl
            · cases parseStreamingChunk reader payload with
              | error error => rfl
              | ok chunk =>
                  cases chunk with
                  | none => rfl
                  | some chunk => rfl

theorem parseStreamingChunk_empty (reader : Reader) :
    parseStreamingChunk reader "" = .error (blankError reader.toJsonParser) := by
  rw [parseStreamingChunk, blankError]
  cases read : reader.fromStr "" with
  | error reason => rfl
  | ok value => exact absurd read (reader.empty value)

theorem innerLine_eq (reader : Reader) (now : Int) (state : State) (collecting : Collecting) (line : StreamLine) :
    innerLine reader now state collecting line =
      innerFrame reader.toJsonParser now state collecting (frameOf reader line) := by
  cases line with
  | error text => rfl
  | ok line =>
      simp only [innerLine, frameOf]
      cases stripDataPrefix line with
      | none => rfl
      | some payload =>
          simp only
          by_cases mark : payload = "[DONE]"
          · rw [if_pos mark, if_pos mark]
            rfl
          · rw [if_neg mark, if_neg mark]
            by_cases blank : payload = ""
            · rw [if_pos blank, blank, parseStreamingChunk_empty]
              rfl
            · rw [if_neg blank]
              cases parseStreamingChunk reader payload with
              | error error => rfl
              | ok chunk =>
                  cases chunk with
                  | none => rfl
                  | some chunk => rfl

/-! ## Reading frames -/

def frameOutcome (json : JsonParser) (now : Int) (state : State) (mode : Mode) (frame : Frame) : Outcome :=
  match mode with
  | .outer => outerFrame json now state frame
  | .collecting collecting => innerFrame json now state collecting frame

/-- What is yielded when the lines end in some mode. -/
def endOfStream (json : JsonParser) (now : Int) (state : State) : Mode -> List StreamItem
  | .outer => finish now state
  | .collecting collecting =>
      let emitted := emitCalls json now state collecting
      emitted.2 ++ finish now emitted.1

def readFrames (json : JsonParser) (now : Int) (state : State) (mode : Mode) : List Frame -> Decoded
  | [] => ⟨endOfStream json now state mode, none⟩
  | frame :: rest =>
      match frameOutcome json now state mode frame with
      | .goOn next nextMode items => (readFrames json now next nextMode rest).after items
      | .stop next => ⟨finish now next, none⟩
      | .fail error => .failed error

theorem readLines_eq (reader : Reader) (now : Int) (lines : List StreamLine) (state : State) (mode : Mode) :
    readLines reader now state mode lines =
      readFrames reader.toJsonParser now state mode (lines.map (frameOf reader)) := by
  induction lines generalizing state mode with
  | nil =>
      cases mode with
      | outer => rfl
      | collecting collecting => rfl
  | cons line rest ih =>
      cases mode with
      | outer =>
          rw [List.map_cons, readLines, readFrames, frameOutcome]
          simp only [outerLine_eq]
          cases outerFrame reader.toJsonParser now state (frameOf reader line) with
          | goOn next nextMode items => simp only [ih]
          | stop next => rfl
          | fail error => rfl
      | collecting collecting =>
          rw [List.map_cons, readLines, readFrames, frameOutcome]
          simp only [innerLine_eq]
          cases innerFrame reader.toJsonParser now state collecting (frameOf reader line) with
          | goOn next nextMode items => simp only [ih]
          | stop next => rfl
          | fail error => rfl

theorem responseToStreamingMessage_eq (reader : Reader) (now : Int) (lines : List StreamLine) :
    responseToStreamingMessage reader now lines =
      readFrames reader.toJsonParser now State.start .outer (lines.map (frameOf reader)) :=
  readLines_eq reader now lines State.start .outer

/-! ## Parts of frames -/

/-- The choice of a chunk that the decoder looks at. -/
def Frame.choice? : Frame -> Option StreamingChoice
  | .chunk received => received.choices.head?
  | _ => none

/-- The tool call deltas of a frame. -/
def Frame.deltas (frame : Frame) : List DeltaToolCall :=
  (frame.choice?.bind fun choice => choice.delta.toolCalls).getD []

/-- The text delta of a frame. -/
def Frame.text (frame : Frame) : List Char :=
  ((frame.choice?.bind fun choice => (extractContentAndSignature choice.delta.content).1).getD "").toList

def Frame.finishReason (frame : Frame) : Option String :=
  frame.choice?.bind StreamingChoice.finishReason

theorem startsCalls_iff (choice : StreamingChoice) :
    startsCalls choice = true ↔ choice.delta.toolCalls.getD [] ≠ [] := by
  rw [startsCalls]
  cases choice.delta.toolCalls with
  | none => simp
  | some calls => simp

/-! ## What chunks change -/

theorem noteReasoning_flags (state : State) (delta : Delta) :
    (state.noteReasoning delta).lastFinishReason = state.lastFinishReason ∧
      (state.noteReasoning delta).outputTokenLimitReached = state.outputTokenLimitReached := by
  rw [State.noteReasoning]
  split
  · exact ⟨rfl, rfl⟩
  · exact ⟨rfl, rfl⟩

@[simp] theorem lastFinishReason_receive (state : State) (chunk : StreamingChunk) :
    (state.receive chunk).lastFinishReason = (Frame.chunk chunk).finishReason.or state.lastFinishReason := by
  rcases chunk with ⟨choices, id, usage, model⟩
  cases choices with
  | nil => rfl
  | cons choice others => exact (noteReasoning_flags _ _).1

@[simp] theorem outputTokenLimitReached_receive (state : State) (chunk : StreamingChunk) :
    (state.receive chunk).outputTokenLimitReached = (state.outputTokenLimitReached ||
      (Frame.chunk chunk).finishReason.or state.lastFinishReason == some "length") := by
  rcases chunk with ⟨choices, id, usage, model⟩
  cases choices with
  | nil => rfl
  | cons choice others =>
      simp only [State.receive, noteReasoning_flags]
      rfl

@[simp] theorem outputTokenLimitReached_receiveInner (state : State) (chunk : StreamingChunk) :
    (state.receiveInner chunk).outputTokenLimitReached =
      (state.outputTokenLimitReached || (Frame.chunk chunk).finishReason == some "length") := by
  rcases chunk with ⟨choices, id, usage, model⟩
  cases choices with
  | nil => simp [State.receiveInner, State.noteChunk, Frame.finishReason, Frame.choice?]
  | cons choice others => exact (noteReasoning_flags _ _).2

/-! ## What is yielded -/

/-- The identifiers and the calls of all requests that are yielded. -/
def calls (decoded : Decoded) : List (String × ToolResult CallToolRequestParams) :=
  decoded.toolRequests.map fun request => (request.id, request.toolCall)

/-- The identifiers and the calls of the requests of items. -/
def itemCalls (items : List StreamItem) : List (String × ToolResult CallToolRequestParams) :=
  ((itemsContent items).filterMap MessageContentBlock.asToolRequest).map fun request => (request.id, request.toolCall)

@[simp] theorem itemCalls_nil : itemCalls [] = [] := rfl

@[simp] theorem itemCalls_append (earlier later : List StreamItem) :
    itemCalls (earlier ++ later) = itemCalls earlier ++ itemCalls later := by
  simp [itemCalls]

@[simp] theorem calls_after (earlier : List StreamItem) (decoded : Decoded) :
    calls (decoded.after earlier) = itemCalls earlier ++ calls decoded := by
  simp [calls, itemCalls, Decoded.toolRequests]

@[simp] theorem calls_failed (error : StreamError) : calls (.failed error) = [] := rfl

theorem calls_items (items : List StreamItem) (error : Option StreamError) : calls ⟨items, error⟩ = itemCalls items :=
  rfl

theorem itemCalls_of_silent {items : List StreamItem}
    (silent : (itemsContent items).filterMap MessageContentBlock.asToolRequest = []) : itemCalls items = [] := by
  rw [itemCalls, silent]
  rfl

theorem flushedBlocks_silent (content thinking : List Char) :
    (flushedBlocks content thinking).filterMap MessageContentBlock.asToolRequest = [] := by
  rw [flushedBlocks]
  split
  · split
    · rfl
    · rfl
  · split
    · rfl
    · rfl

theorem unyieldedReasoning_silent (state : State) :
    (unyieldedReasoning state).filterMap MessageContentBlock.asToolRequest = [] := by
  rw [unyieldedReasoning]
  split
  · split
    · split
      · rfl
      · rfl
    · rfl
  · rfl

theorem itemCalls_emitCalls (json : JsonParser) (now : Int) (state : State) (collecting : Collecting) :
    itemCalls (emitCalls json now state collecting).2 = collecting.calls.entries.map fun entry =>
      (entry.2.id, streamedToolCall json state.outputTokenLimitReached entry.2) := by
  have requests : (collecting.calls.entries.map (requestBlock json state)).filterMap
      MessageContentBlock.asToolRequest = collecting.calls.entries.map fun entry =>
        ⟨entry.2.id, streamedToolCall json state.outputTokenLimitReached entry.2,
          callMetadata state.lastSignature entry.2.extra,
          some (.object [("aibuddy.toolCall.providerIndex", .number (.integer entry.1))])⟩ := by
    induction collecting.calls.entries with
    | nil => rfl
    | cons entry rest ih =>
        rw [List.map_cons, List.map_cons, ← ih]
        rfl
  simp only [emitCalls, itemCalls_append]
  rw [itemCalls_of_silent, List.nil_append]
  · simp only [itemCalls, itemsContent_cons, itemsContent_nil, List.append_nil, Option.map_some, Option.getD_some,
      content_assistantMessage, List.filterMap_append, unyieldedReasoning_silent, List.nil_append, requests,
      List.map_map]
    rfl
  · split
    · rfl
    · simp [flushedBlocks_silent]

theorem itemCalls_finish (now : Int) (state : State) : itemCalls (finish now state) = [] := by
  apply itemCalls_of_silent
  simp only [finish, itemsContent_append, List.filterMap_append]
  split
  · split
    · split
      · rfl
      · rfl
    · split
      · rfl
      · rfl
  · split
    · split
      · simp [flushedBlocks_silent, itemsContent]
      · simp [flushedBlocks_silent, itemsContent]
    · split
      · simp [flushedBlocks_silent, itemsContent]
      · simp [flushedBlocks_silent, itemsContent]

theorem itemCalls_yieldUsage (state : State) (usage : Option ProviderUsage) :
    itemCalls (yieldUsage state usage).2 = [] := by
  rw [yieldUsage]
  split
  · rfl
  · rfl

theorem textContent_silent (state : State) (delta : Delta) :
    (textContent state delta).filterMap MessageContentBlock.asToolRequest = [] := by
  rw [textContent, List.filterMap_append, flushedBlocks_silent, List.append_nil]
  cases delta.reasoningText with
  | none => rfl
  | some reasoning => rfl

theorem itemCalls_emitText (now : Int) (state : State) (chunk : StreamingChunk) (choice : StreamingChoice)
    (usage : Option ProviderUsage) : itemCalls (emitText now state chunk choice usage).2 = [] := by
  simp only [emitText]
  split
  · exact itemCalls_yieldUsage _ _
  · apply itemCalls_of_silent
    simp [textContent_silent]

/-! ## Chunks as they are sent -/

/-- The text of an object, given what stands between its brackets. -/
def braced (fields : String) : String :=
  "\x7b" ++ (fields ++ "\x7d")

theorem trim_braced (fields : String) : Text.trim (braced fields) = braced fields := by
  have shape : (braced fields).toList = '\x7b' :: fields.toList ++ ['\x7d'] := by
    simp [braced, String.toList_append]
  have ends : Text.trimEnd (braced fields) = braced fields := by
    rw [Text.trimEnd, shape, List.rdropWhile_concat_neg _ _ _ (by decide), ← shape, String.ofList_toList]
  have starts : Text.trimStart (braced fields) = braced fields := by
    rw [Text.trimStart, shape, List.cons_append, List.dropWhile_cons_of_neg (by decide), ← List.cons_append, ← shape,
      String.ofList_toList]
  rw [Text.trim, ends, starts]

/-- The payload of a data line that carries an object. -/
theorem stripDataPrefix_braced (fields : String) :
    stripDataPrefix ("data: " ++ braced fields) = some (braced fields) := by
  rw [stripDataPrefix, Text.stripPrefix_append, Option.some_or, Option.map_some, trim_braced]

/-- A chunk with the text and the JSON value of its choices. -/
structure SentChunk where
  text : String
  choices : Json
  chunk : StreamingChunk

namespace SentChunk

def payload (sent : SentChunk) : String :=
  braced ("\"choices\":" ++ sent.text)

def line (sent : SentChunk) : StreamLine :=
  .ok ("data: " ++ sent.payload)

def value (sent : SentChunk) : Json :=
  .object [("choices", sent.choices)]

end SentChunk

/-- A reader that knows some chunks, and no other texts than the pair of braces. -/
def Reader.ofSent (sent : List SentChunk)
    (solid : (sent.map fun chunk => (chunk.payload, chunk.value)).lookup "" = none) : Reader where
  toJsonParser := JsonParser.ofTable (sent.map fun chunk => (chunk.payload, chunk.value)) solid
  toText _ := ""
  fromValue value :=
    match sent.find? fun chunk => chunk.value == value with
    | some known => .ok known.chunk
    | none => .error "missing field"

end OpenAi
end AIBuddy
