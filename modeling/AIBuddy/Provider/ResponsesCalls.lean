import Mathlib.Data.List.Basic
import AIBuddy.Provider.ResponsesStream

namespace AIBuddy
namespace Responses

/-!
# Which calls a Responses stream runs

The requests of a stream are those of the calls in the items that are left when the
stream is over.  A truncated response that repeats its output loses its unfinished
calls.  One that does not is read from the collected items, unfinished or not.
-/

/-- A call among the items of an output. -/
structure OutputCall where
  id : Option String
  name : String
  arguments : String
  finished : Bool
deriving DecidableEq, Repr

/-- The call of a part, which has no status of its own. -/
def ContentBlockPart.call? : ContentBlockPart -> Option OutputCall
  | .toolCall id name arguments => some ⟨some id, name, arguments, true⟩
  | _ => none

/-- The calls of an item.  A function call is finished when its status says so. -/
def ResponseOutputItemInfo.calls : ResponseOutputItemInfo -> List OutputCall
  | .reasoning _ => []
  | .message content => content.filterMap ContentBlockPart.call?
  | .functionCall id status callId name arguments =>
      [⟨callId.or id, name, arguments, status == some "completed"⟩]

/-- The request that a call becomes, when it can be read. -/
def OutputCall.request (json : JsonParser) (call : OutputCall) : Option ToolRequest :=
  call.id.bind fun id => (parseToolArguments json call.arguments).toOption.map fun parsed =>
    ⟨stripUnicodeTags id, callWith (stripUnicodeTags call.name) parsed.toObject, none, none⟩

/-- All calls can be read, and no two of them have one identifier. -/
def Readable (json : JsonParser) (calls : List OutputCall) : Prop :=
  (forall call, call ∈ calls -> (call.request json).isSome = true) ∧
    ((calls.filterMap (OutputCall.request json)).map ToolRequest.id).Nodup

instance decidableReadable (json : JsonParser) (calls : List OutputCall) : Decidable (Readable json calls) :=
  inferInstanceAs (Decidable (_ ∧ _))

/-! ## Reading calls one after the other -/

/-- The requests of calls, with the identifiers seen so far. -/
def readCalls (json : JsonParser) (seenIds : List String) :
    List OutputCall -> Except StreamError (List ToolRequest × List String)
  | [] => .ok ([], seenIds)
  | call :: rest =>
      match call.id with
      | none => .error (.invalid "Responses function_call output missing call_id and id")
      | some id =>
          match streamedRequest json id call.name call.arguments seenIds with
          | .error error => .error error
          | .ok (block, seen) =>
              (readCalls json seen rest).map fun result => (block.asToolRequest.toList ++ result.1, result.2)

theorem readCalls_append (json : JsonParser) (seenIds : List String) (left right : List OutputCall) :
    readCalls json seenIds (left ++ right) =
      (readCalls json seenIds left).bind fun first =>
        (readCalls json first.2 right).map fun second => (first.1 ++ second.1, second.2) := by
  induction left generalizing seenIds with
  | nil =>
      simp only [List.nil_append, readCalls, Except.bind]
      cases readCalls json seenIds right with
      | error error => rfl
      | ok second => rfl
  | cons call rest ih =>
      simp only [List.cons_append, readCalls]
      cases call.id with
      | none => rfl
      | some id =>
          simp only
          cases streamedRequest json id call.name call.arguments seenIds with
          | error error => rfl
          | ok result =>
              simp only [ih]
              cases readCalls json result.2 rest with
              | error error => rfl
              | ok first =>
                  simp only [Except.bind, Except.map]
                  cases readCalls json first.2 right with
                  | error error => rfl
                  | ok second => simp

/-- The requests among blocks, with what comes with the blocks. -/
def requestsOf (result : List MessageContentBlock × List String) : List ToolRequest × List String :=
  (result.1.filterMap MessageContentBlock.asToolRequest, result.2)

theorem requests_outputText (codec : TextCodec) (isTextResponse : Bool) (text : String) :
    (outputText codec isTextResponse text).filterMap MessageContentBlock.asToolRequest = [] := by
  simp only [outputText]
  split
  · rfl
  · rfl

theorem requests_reasoningText (codec : TextCodec) (text : String) :
    (reasoningText codec text).filterMap MessageContentBlock.asToolRequest = [] := by
  simp only [reasoningText]
  split
  · rfl
  · rfl

theorem requests_reasoningFromSummary (codec : TextCodec) (summary : List String) :
    (reasoningFromSummary codec summary).filterMap MessageContentBlock.asToolRequest = [] := by
  simp only [reasoningFromSummary]
  split
  · rfl
  · rfl

theorem processParts_requests (codec : TextCodec) (json : JsonParser) (isTextResponse : Bool)
    (parts : List ContentBlockPart) (seenIds : List String) :
    (processParts codec json isTextResponse seenIds parts).map requestsOf =
      readCalls json seenIds (parts.filterMap ContentBlockPart.call?) := by
  induction parts generalizing seenIds with
  | nil => rfl
  | cons part rest ih =>
      cases part with
      | outputText text =>
          rw [processParts, List.filterMap_cons_none rfl, ← ih]
          cases processParts codec json isTextResponse seenIds rest with
          | error error => rfl
          | ok result => simp [Except.map, requestsOf, requests_outputText]
      | refusal refusal =>
          rw [processParts, List.filterMap_cons_none rfl, ← ih]
          cases processParts codec json isTextResponse seenIds rest with
          | error error => rfl
          | ok result => simp [Except.map, requestsOf, requests_outputText]
      | reasoningText text =>
          rw [processParts, List.filterMap_cons_none rfl, ← ih]
          cases processParts codec json isTextResponse seenIds rest with
          | error error => rfl
          | ok result => simp [Except.map, requestsOf, requests_reasoningText]
      | toolCall id name arguments =>
          have named : (ContentBlockPart.toolCall id name arguments :: rest).filterMap ContentBlockPart.call? =
              ⟨some id, name, arguments, true⟩ :: rest.filterMap ContentBlockPart.call? := rfl
          rw [processParts, named, readCalls]
          simp only
          cases streamedRequest json id name arguments seenIds with
          | error error => rfl
          | ok result =>
              simp only [← ih]
              cases processParts codec json isTextResponse result.2 rest with
              | error error => rfl
              | ok others =>
                  simp only [Except.map, requestsOf, List.filterMap_cons]
                  cases result.1.asToolRequest with
                  | none => rfl
                  | some request => rfl

theorem processItem_requests (codec : TextCodec) (json : JsonParser) (isTextResponse : Bool)
    (item : ResponseOutputItemInfo) (seenIds : List String) :
    (processItem codec json isTextResponse seenIds item).map requestsOf = readCalls json seenIds item.calls := by
  cases item with
  | reasoning summary => simp [processItem, Except.map, requestsOf, requests_reasoningFromSummary,
      ResponseOutputItemInfo.calls, readCalls]
  | message content => exact processParts_requests codec json isTextResponse content seenIds
  | functionCall id status callId name arguments =>
      simp only [processItem, ResponseOutputItemInfo.calls, readCalls]
      cases callId.or id with
      | none => rfl
      | some requestId =>
          simp only
          cases streamedRequest json requestId name arguments seenIds with
          | error error => rfl
          | ok result =>
              simp only [Except.map, requestsOf, List.append_nil, List.filterMap_cons, List.filterMap_nil]
              cases result.1.asToolRequest with
              | none => rfl
              | some request => rfl

theorem processItems_requests (codec : TextCodec) (json : JsonParser) (isTextResponse : Bool)
    (items : List ResponseOutputItemInfo) (seenIds : List String) :
    (processItems codec json isTextResponse seenIds items).map
        (fun content => content.filterMap MessageContentBlock.asToolRequest) =
      (readCalls json seenIds (items.flatMap ResponseOutputItemInfo.calls)).map Prod.fst := by
  induction items generalizing seenIds with
  | nil => rfl
  | cons item rest ih =>
      have first := processItem_requests codec json isTextResponse item seenIds
      rw [processItems, List.flatMap_cons, readCalls_append, ← first]
      cases processItem codec json isTextResponse seenIds item with
      | error error => rfl
      | ok result =>
          have others := ih result.2
          simp only [Except.map, Except.bind, requestsOf] at others ⊢
          cases left : processItems codec json isTextResponse result.2 rest with
          | error error =>
              rw [left] at others
              cases right : readCalls json result.2 (rest.flatMap ResponseOutputItemInfo.calls) with
              | error reason =>
                  rw [right] at others
                  simpa using others
              | ok second =>
                  rw [right] at others
                  contradiction
          | ok content =>
              rw [left] at others
              cases right : readCalls json result.2 (rest.flatMap ResponseOutputItemInfo.calls) with
              | error reason =>
                  rw [right] at others
                  contradiction
              | ok second =>
                  rw [right] at others
                  simp only [Except.ok.injEq] at others ⊢
                  rw [List.filterMap_append, others]

/-! ## When reading succeeds -/

theorem streamedRequest_eq (json : JsonParser) (call : OutputCall) (id : String) (seenIds : List String)
    (named : call.id = some id) :
    match call.request json with
    | some request =>
        if request.id ∈ seenIds then
          Exists fun error => streamedRequest json id call.name call.arguments seenIds = .error error
        else streamedRequest json id call.name call.arguments seenIds =
          .ok (.toolRequest request, request.id :: seenIds)
    | none => Exists fun error => streamedRequest json id call.name call.arguments seenIds = .error error := by
  simp only [OutputCall.request, named, Option.bind_some, streamedRequest, sanitizeToolRequestId]
  cases parsed : parseToolArguments json call.arguments with
  | error error =>
      simp only [Except.toOption, Option.map_none]
      split
      · exact ⟨_, rfl⟩
      · exact ⟨_, rfl⟩
  | ok value =>
      simp only [Except.toOption, Option.map_some, List.contains_eq_mem, decide_eq_true_eq]
      by_cases seen : stripUnicodeTags id ∈ seenIds
      · rw [if_pos seen, if_pos seen]
        exact ⟨_, rfl⟩
      · rw [if_neg seen, if_neg seen]
        rfl

/-- Calls can be read behind others whose identifiers have been seen. -/
def ReadableBehind (json : JsonParser) (seenIds : List String) (calls : List OutputCall) : Prop :=
  Readable json calls ∧
    forall request, request ∈ calls.filterMap (OutputCall.request json) -> request.id ∉ seenIds

theorem readableBehind_cons {json : JsonParser} {seenIds : List String} {call : OutputCall}
    {rest : List OutputCall} {request : ToolRequest} (reads : call.request json = some request) :
    ReadableBehind json seenIds (call :: rest) ↔
      request.id ∉ seenIds ∧ ReadableBehind json (request.id :: seenIds) rest := by
  simp only [ReadableBehind, Readable, List.filterMap_cons_some reads, List.map_cons, List.nodup_cons,
    List.mem_cons, forall_eq_or_imp, reads, Option.isSome_some, true_and, not_or, List.mem_map]
  constructor
  · rintro ⟨⟨all, different, distinct⟩, new, others⟩
    refine ⟨new, ⟨all, distinct⟩, fun other member => ⟨fun same => different ⟨other, member, same⟩, others other member⟩⟩
  · rintro ⟨new, ⟨all, distinct⟩, others⟩
    refine ⟨⟨all, ?_, distinct⟩, new, fun other member => (others other member).2⟩
    rintro ⟨other, member, same⟩
    exact (others other member).1 same

theorem not_readableBehind_cons {json : JsonParser} {seenIds : List String} {call : OutputCall}
    {rest : List OutputCall} (unread : call.request json = none) :
    ¬ ReadableBehind json seenIds (call :: rest) := by
  rintro ⟨⟨all, _⟩, _⟩
  have reads := all call List.mem_cons_self
  rw [unread] at reads
  contradiction

theorem readCalls_cases (json : JsonParser) (calls : List OutputCall) (seenIds : List String) :
    (ReadableBehind json seenIds calls ∧ Exists fun seen =>
      readCalls json seenIds calls = .ok (calls.filterMap (OutputCall.request json), seen)) ∨
    (¬ ReadableBehind json seenIds calls ∧ Exists fun error => readCalls json seenIds calls = .error error) := by
  induction calls generalizing seenIds with
  | nil =>
      refine Or.inl ⟨⟨⟨?_, List.nodup_nil⟩, ?_⟩, seenIds, rfl⟩
      · intro call member
        contradiction
      · intro request member
        contradiction
  | cons call rest ih =>
      cases named : call.id with
      | none =>
          have unread : call.request json = none := by rw [OutputCall.request, named]; rfl
          refine Or.inr ⟨not_readableBehind_cons unread, ?_⟩
          simp only [readCalls, named]
          exact ⟨_, rfl⟩
      | some id =>
          have reading := streamedRequest_eq json call id seenIds named
          cases reads : call.request json with
          | none =>
              rw [reads] at reading
              rcases reading with ⟨error, fails⟩
              refine Or.inr ⟨not_readableBehind_cons reads, error, ?_⟩
              simp only [readCalls, named, fails]
          | some request =>
              rw [reads] at reading
              simp only at reading
              rw [readableBehind_cons reads]
              by_cases seen : request.id ∈ seenIds
              · rw [if_pos seen] at reading
                rcases reading with ⟨error, fails⟩
                refine Or.inr ⟨fun readable => readable.1 seen, error, ?_⟩
                simp only [readCalls, named, fails]
              · rw [if_neg seen] at reading
                rcases ih (request.id :: seenIds) with
                  ⟨readable, later, succeeds⟩ | ⟨unreadable, error, fails⟩
                · refine Or.inl ⟨⟨seen, readable⟩, later, ?_⟩
                  simp only [readCalls, named, reading, succeeds, List.filterMap_cons_some reads]
                  rfl
                · refine Or.inr ⟨fun readable => unreadable readable.2, error, ?_⟩
                  simp only [readCalls, named, reading, fails]
                  rfl

theorem content_finish {codec : TextCodec} {json : JsonParser} {now : Int} {state : State}
    {content : List MessageContentBlock}
    (processed : processItems codec json state.isTextResponse [] state.outputItems = .ok content) :
    (finish codec json now state).content = content := by
  rw [finish, processStreamingOutputItems, processed]
  cases content with
  | nil =>
      simp only [List.isEmpty_nil, Bool.not_true, Bool.false_eq_true, if_false]
      split
      · rfl
      · split
        · rfl
        · rfl
  | cons block rest => simp [Decoded.content, assistantMessage]

theorem toolRequests_finish (codec : TextCodec) (json : JsonParser) (now : Int) (state : State) :
    (Readable json (state.outputItems.flatMap ResponseOutputItemInfo.calls) ∧
      (finish codec json now state).toolRequests =
        (state.outputItems.flatMap ResponseOutputItemInfo.calls).filterMap (OutputCall.request json)) ∨
    (¬ Readable json (state.outputItems.flatMap ResponseOutputItemInfo.calls) ∧
      (finish codec json now state).toolRequests = []) := by
  have requests := processItems_requests codec json state.isTextResponse state.outputItems []
  have behind : forall calls, ReadableBehind json [] calls ↔ Readable json calls := fun calls =>
    ⟨fun readable => readable.1, fun readable => ⟨readable, fun _ _ => List.not_mem_nil⟩⟩
  rcases readCalls_cases json (state.outputItems.flatMap ResponseOutputItemInfo.calls) [] with
    ⟨readable, seen, succeeds⟩ | ⟨unreadable, error, fails⟩
  · refine Or.inl ⟨(behind _).mp readable, ?_⟩
    rw [succeeds] at requests
    cases processed : processItems codec json state.isTextResponse [] state.outputItems with
    | error error =>
        rw [processed] at requests
        contradiction
    | ok content =>
        rw [processed] at requests
        simp only [Except.map, Except.ok.injEq] at requests
        rw [← requests, Decoded.toolRequests, content_finish processed]
  · refine Or.inr ⟨fun readable => unreadable ((behind _).mpr readable), ?_⟩
    rw [fails] at requests
    cases processed : processItems codec json state.isTextResponse [] state.outputItems with
    | error error =>
        rw [finish, processStreamingOutputItems, processed]
        rfl
    | ok content =>
        rw [processed] at requests
        contradiction

/-! ## Up to the last event -/

/-- The items that an event adds, when it does not end the stream. -/
def ResponsesStreamEvent.items? : ResponsesStreamEvent -> Option (List ResponseOutputItemInfo)
  | .responseCompleted _ | .responseIncomplete _ | .responseFailed _ | .error _ => none
  | .outputItemDone item => some [item]
  | _ => some []

def LineReading.items? : LineReading -> Option (List ResponseOutputItemInfo)
  | .nothing => some []
  | .event received => received.items?
  | .done | .broken _ => none

/-- The items that lines collect, when none of the lines ends the stream. -/
def itemsBefore (reader : Reader) : List StreamLine -> Option (List ResponseOutputItemInfo)
  | [] => some []
  | line :: rest =>
      (readLine reader line).items?.bind fun first => (itemsBefore reader rest).map fun others => first ++ others

/-- What lines before the last event do: they collect items and yield no request. -/
structure Collects (codec : TextCodec) (reader : Reader) (now : Int) (state next : State)
    (lines : List StreamLine) (items : List ResponseOutputItemInfo) (yielded : List StreamItem) : Prop where
  reads : forall rest, readLines codec reader now state (lines ++ rest) =
    (readLines codec reader now next rest).after yielded
  collected : next.outputItems = state.outputItems ++ items
  silent : (itemsContent yielded).filterMap MessageContentBlock.asToolRequest = []

theorem Collects.cons {codec : TextCodec} {reader : Reader} {now : Int} {state middle next : State}
    {line : StreamLine} {lines : List StreamLine} {first items : List ResponseOutputItemInfo}
    {early yielded : List StreamItem} (step : receiveLine reader now state line = .goOn middle early)
    (collected : middle.outputItems = state.outputItems ++ first)
    (silent : (itemsContent early).filterMap MessageContentBlock.asToolRequest = [])
    (later : Collects codec reader now middle next lines items yielded) :
    Collects codec reader now state next (line :: lines) (first ++ items) (early ++ yielded) where
  reads := by
    intro rest
    rw [List.cons_append, readLines, step]
    simp only
    rw [later.reads, Decoded.after_after]
  collected := by rw [later.collected, collected, List.append_assoc]
  silent := by rw [itemsContent_append, List.filterMap_append, silent, later.silent, List.append_nil]

theorem receiveDelta_silent (now : Int) (state : State) (delta : String) : Exists fun yielded =>
    receiveDelta now state delta = .goOn { state with isTextResponse := true } yielded ∧
      (itemsContent yielded).filterMap MessageContentBlock.asToolRequest = [] := by
  simp only [receiveDelta]
  split
  · exact ⟨[], rfl, rfl⟩
  · exact ⟨_, rfl, rfl⟩

theorem receiveEvent_collects (now : Int) (state : State) {event : ResponsesStreamEvent}
    {first : List ResponseOutputItemInfo} (goesOn : event.items? = some first) :
    Exists fun middle => Exists fun early => receiveEvent now state event = .goOn middle early ∧
      middle.outputItems = state.outputItems ++ first ∧
      (itemsContent early).filterMap MessageContentBlock.asToolRequest = [] := by
  cases event with
  | responseCompleted response => contradiction
  | responseIncomplete response => contradiction
  | responseFailed error => contradiction
  | error error => contradiction
  | outputItemDone item =>
      cases goesOn
      exact ⟨_, [], rfl, rfl, rfl⟩
  | outputTextDelta delta =>
      cases goesOn
      rcases receiveDelta_silent now state delta with ⟨yielded, step, silent⟩
      exact ⟨_, yielded, step, (List.append_nil _).symm, silent⟩
  | refusalDelta delta =>
      cases goesOn
      rcases receiveDelta_silent now state delta with ⟨yielded, step, silent⟩
      exact ⟨_, yielded, step, (List.append_nil _).symm, silent⟩
  | responseCreated | responseInProgress | outputItemAdded | contentBlockPartAdded | contentBlockPartDone
  | outputTextDone | functionCallArgumentsDelta | functionCallArgumentsDone | refusalDone | keepalive =>
      cases goesOn
      exact ⟨_, [], rfl, (List.append_nil _).symm, rfl⟩

theorem receiveLine_collects {reader : Reader} (now : Int) (state : State) {line : StreamLine}
    {first : List ResponseOutputItemInfo} (goesOn : (readLine reader line).items? = some first) :
    Exists fun middle => Exists fun early => receiveLine reader now state line = .goOn middle early ∧
      middle.outputItems = state.outputItems ++ first ∧
      (itemsContent early).filterMap MessageContentBlock.asToolRequest = [] := by
  rw [receiveLine]
  cases reading : readLine reader line with
  | nothing =>
      rw [reading] at goesOn
      cases goesOn
      exact ⟨state, [], rfl, (List.append_nil _).symm, rfl⟩
  | event event =>
      rw [reading] at goesOn
      exact receiveEvent_collects now state goesOn
  | done =>
      rw [reading] at goesOn
      contradiction
  | broken error =>
      rw [reading] at goesOn
      contradiction

theorem collects_of_itemsBefore (codec : TextCodec) {reader : Reader} (now : Int) {lines : List StreamLine}
    {items : List ResponseOutputItemInfo} (before : itemsBefore reader lines = some items) (state : State) :
    Exists fun next => Exists fun yielded => Collects codec reader now state next lines items yielded := by
  induction lines generalizing items state with
  | nil =>
      cases before
      exact ⟨state, [], ⟨fun rest => rfl, (List.append_nil _).symm, rfl⟩⟩
  | cons line rest ih =>
      simp only [itemsBefore, Option.bind_eq_some_iff, Option.map_eq_some_iff] at before
      rcases before with ⟨first, goesOn, others, later, whole⟩
      subst whole
      rcases receiveLine_collects now state goesOn with ⟨middle, early, step, collected, silent⟩
      rcases ih later middle with ⟨next, yielded, collects⟩
      exact ⟨next, early ++ yielded, collects.cons step collected silent⟩

/-! ## Unfinished calls -/

/-- Every request is that of a finished call among some items. -/
def OnlyFinishedCalls (json : JsonParser) (items : List ResponseOutputItemInfo) (decoded : Decoded) : Prop :=
  forall request, request ∈ decoded.toolRequests -> Exists fun call =>
    call ∈ items.flatMap ResponseOutputItemInfo.calls ∧ call.finished = true ∧ call.request json = some request

theorem finished_of_kept {item : ResponseOutputItemInfo} (kept : keptWhenIncomplete item = true)
    {call : OutputCall} (member : call ∈ item.calls) : call.finished = true := by
  cases item with
  | reasoning summary => contradiction
  | message content =>
      rcases List.mem_filterMap.mp member with ⟨part, _, named⟩
      cases part with
      | toolCall id name arguments =>
          cases named
          rfl
      | outputText | refusal | reasoningText => contradiction
  | functionCall id status callId name arguments =>
      rw [List.mem_singleton.mp member]
      exact kept

theorem eq_of_nodup_filterMap {α β γ : Type} {value : α -> Option β} {key : β -> γ} {entries : List α}
    (distinct : ((entries.filterMap value).map key).Nodup) {left right : α} {found : β}
    (leftMember : left ∈ entries) (rightMember : right ∈ entries)
    (leftValue : value left = some found) (rightValue : value right = some found) : left = right := by
  induction entries with
  | nil => contradiction
  | cons entry rest ih =>
      have inRest : forall other, other ∈ rest -> value other = some found ->
          key found ∈ (rest.filterMap value).map key := fun other member same =>
        List.mem_map_of_mem (List.mem_filterMap.mpr ⟨other, member, same⟩)
      cases first : value entry with
      | none =>
          rw [List.filterMap_cons_none first] at distinct
          apply ih distinct
          · exact List.mem_of_ne_of_mem (fun same => by rw [same, first] at leftValue; contradiction) leftMember
          · exact List.mem_of_ne_of_mem (fun same => by rw [same, first] at rightValue; contradiction) rightMember
      | some other =>
          rw [List.filterMap_cons_some first, List.map_cons, List.nodup_cons] at distinct
          rcases List.mem_cons.mp leftMember with leftFirst | leftLater
          · rcases List.mem_cons.mp rightMember with rightFirst | rightLater
            · rw [leftFirst, rightFirst]
            · rw [leftFirst, first, Option.some.injEq] at leftValue
              rw [leftValue] at distinct
              exact absurd (inRest right rightLater rightValue) distinct.1
          · rcases List.mem_cons.mp rightMember with rightFirst | rightLater
            · rw [rightFirst, first, Option.some.injEq] at rightValue
              rw [rightValue] at distinct
              exact absurd (inRest left leftLater leftValue) distinct.1
            · exact ih distinct.2 leftLater rightLater

/-- The items that are left when a response is incomplete. -/
def itemsLeft (collected : List ResponseOutputItemInfo) (final : ResponseMetadata) : List ResponseOutputItemInfo :=
  if final.output.isEmpty then collected else final.output.filter keptWhenIncomplete

theorem toolRequests_incomplete (codec : TextCodec) (reader : Reader) (now : Int)
    (before after : List StreamLine) (last : StreamLine) (collected : List ResponseOutputItemInfo)
    (final : ResponseMetadata) (collects : itemsBefore reader before = some collected)
    (ends : readLine reader last = .event (.responseIncomplete final)) :
    (Readable reader.toJsonParser ((itemsLeft collected final).flatMap ResponseOutputItemInfo.calls) ∧
      (responsesApiToStreamingMessage codec reader now (before ++ last :: after)).toolRequests =
        ((itemsLeft collected final).flatMap ResponseOutputItemInfo.calls).filterMap
          (OutputCall.request reader.toJsonParser)) ∨
    (¬ Readable reader.toJsonParser ((itemsLeft collected final).flatMap ResponseOutputItemInfo.calls) ∧
      (responsesApiToStreamingMessage codec reader now (before ++ last :: after)).toolRequests = []) := by
  rcases collects_of_itemsBefore codec now collects State.start with ⟨next, yielded, early⟩
  have items : next.outputItems = collected := early.collected
  have step : Exists fun closed : State => receiveEvent now next (.responseIncomplete final) = .stop closed ∧
      closed.outputItems = itemsLeft next.outputItems final := ⟨_, rfl, rfl⟩
  rcases step with ⟨closed, stops, closedItems⟩
  rw [items] at closedItems
  have requests : (responsesApiToStreamingMessage codec reader now (before ++ last :: after)).toolRequests =
      (finish codec reader.toJsonParser now closed).toolRequests := by
    rw [responsesApiToStreamingMessage, early.reads, readLines, receiveLine, ends]
    simp only [stops]
    rw [Decoded.toolRequests, Decoded.content_after, List.filterMap_append, early.silent, List.nil_append]
    rfl
  rw [requests, ← closedItems]
  exact toolRequests_finish codec reader.toJsonParser now closed

/-- When a response is incomplete, only finished calls are requested if and only if its
last event repeats the output, or all collected calls are finished, or the collected
calls cannot be read at all. -/
theorem incomplete_finished_iff (codec : TextCodec) (reader : Reader) (now : Int)
    (before after : List StreamLine) (last : StreamLine) (collected : List ResponseOutputItemInfo)
    (final : ResponseMetadata) (collects : itemsBefore reader before = some collected)
    (ends : readLine reader last = .event (.responseIncomplete final)) :
    OnlyFinishedCalls reader.toJsonParser (collected ++ final.output)
        (responsesApiToStreamingMessage codec reader now (before ++ last :: after)) ↔
      final.output ≠ [] ∨
        (forall call, call ∈ collected.flatMap ResponseOutputItemInfo.calls -> call.finished = true) ∨
        ¬ Readable reader.toJsonParser (collected.flatMap ResponseOutputItemInfo.calls) := by
  have outcome := toolRequests_incomplete codec reader now before after last collected final collects ends
  rw [itemsLeft] at outcome
  cases output : final.output with
  | cons item others =>
      refine iff_of_true ?_ (Or.inl (List.cons_ne_nil _ _))
      rw [output] at outcome
      intro request member
      rcases outcome with ⟨_, kept⟩ | ⟨_, none⟩
      · rw [kept] at member
        rcases List.mem_filterMap.mp member with ⟨call, inKept, asks⟩
        rcases List.mem_flatMap.mp inKept with ⟨owner, ownerKept, owned⟩
        have filtered : owner ∈ (item :: others).filter keptWhenIncomplete := ownerKept
        rw [List.mem_filter] at filtered
        refine ⟨call, List.mem_flatMap.mpr ⟨owner, List.mem_append_right _ filtered.1, owned⟩, ?_, asks⟩
        exact finished_of_kept filtered.2 owned
      · rw [none] at member
        contradiction
  | nil =>
      rw [output] at outcome
      simp only [List.isEmpty_nil, if_true] at outcome
      simp only [ne_eq, not_true_eq_false, false_or, List.append_nil]
      constructor
      · intro only
        by_cases readable : Readable reader.toJsonParser (collected.flatMap ResponseOutputItemInfo.calls)
        · left
          intro call member
          rcases outcome with ⟨_, all⟩ | ⟨unreadable, _⟩
          · rcases Option.isSome_iff_exists.mp (readable.1 call member) with ⟨request, asks⟩
            have asked := List.mem_filterMap.mpr ⟨call, member, asks⟩
            rw [← all] at asked
            rcases only request asked with ⟨other, otherMember, finished, otherAsks⟩
            rw [eq_of_nodup_filterMap readable.2 member otherMember asks otherAsks]
            exact finished
          · exact absurd readable unreadable
        · exact Or.inr readable
      · intro condition request member
        rcases outcome with ⟨readable, all⟩ | ⟨_, none⟩
        · rcases condition with finished | unreadable
          · rw [all] at member
            rcases List.mem_filterMap.mp member with ⟨call, inItems, asks⟩
            exact ⟨call, inItems, finished call inItems, asks⟩
          · exact absurd readable unreadable
        · rw [none] at member
          contradiction

/-! ## A truncated call -/

namespace Truncated

/-- A call whose arguments were cut off, as it stands in the texts below. -/
def call : Json :=
  .object [("type", .string "function_call"), ("id", .string "fc_1"), ("status", .string "in_progress"),
    ("call_id", .string "call_1"), ("name", .string "shell"), ("arguments", .string "\x7b\"command\":\"echo")]

def callText : String :=
  "\x7b\"type\":\"function_call\",\"id\":\"fc_1\",\"status\":\"in_progress\",\"call_id\":\"call_1\"," ++
    "\"name\":\"shell\",\"arguments\":\"\x7b\\\"command\\\":\\\"echo\"\x7d"

def callItem : ResponseOutputItemInfo :=
  .functionCall (some "fc_1") (some "in_progress") (some "call_1") "shell" "\x7b\"command\":\"echo"

/-- The event that the item is done. -/
def itemDone : Json :=
  .object [("type", .string "response.output_item.done"), ("sequence_number", .number (.integer 1)),
    ("output_index", .number (.integer 0)), ("item", call)]

def itemDoneText : String :=
  "\x7b\"type\":\"response.output_item.done\",\"sequence_number\":1,\"output_index\":0,\"item\":" ++ callText ++ "\x7d"

/-- The last event, with the output that it repeats. -/
def incomplete (output : List Json) : Json :=
  .object [("type", .string "response.incomplete"), ("sequence_number", .number (.integer 2)),
    ("response", .object [("id", .string "resp_1"), ("object", .string "response"),
      ("created_at", .number (.integer 1737368310)), ("status", .string "incomplete"),
      ("model", .string "gpt-5.2-pro"), ("output", .array output),
      ("incomplete_details", .object [("reason", .string "max_output_tokens")])])]

def incompleteText (output : String) : String :=
  "\x7b\"type\":\"response.incomplete\",\"sequence_number\":2,\"response\":\x7b\"id\":\"resp_1\"," ++
    "\"object\":\"response\",\"created_at\":1737368310,\"status\":\"incomplete\",\"model\":\"gpt-5.2-pro\"," ++
    "\"output\":[" ++ output ++ "],\"incomplete_details\":\x7b\"reason\":\"max_output_tokens\"\x7d\x7d\x7d"

def metadata (output : List ResponseOutputItemInfo) : ResponseMetadata :=
  ⟨"resp_1", "incomplete", "gpt-5.2-pro", output, none, some ⟨some "max_output_tokens"⟩⟩

/-- What is read of these texts. -/
def reader : Reader where
  toJsonParser := JsonParser.ofTable
    [(itemDoneText, itemDone), (incompleteText "", incomplete []), (incompleteText callText, incomplete [call])] rfl
  fromValue value :=
    if value = itemDone then .ok (.outputItemDone callItem)
    else if value = incomplete [] then .ok (.responseIncomplete (metadata []))
    else if value = incomplete [call] then .ok (.responseIncomplete (metadata [callItem]))
    else .error "missing field"

def collectedLine : StreamLine := .ok ("data: " ++ itemDoneText)

def repeatedLine : StreamLine := .ok ("data: " ++ incompleteText callText)

def emptyLine : StreamLine := .ok ("data: " ++ incompleteText "")

theorem reads_collected : readLine reader collectedLine = .event (.outputItemDone callItem) := by
  rw [collectedLine, readLine, dataLine?_data]
  decide +kernel

theorem reads_repeated : readLine reader repeatedLine = .event (.responseIncomplete (metadata [callItem])) := by
  rw [repeatedLine, readLine, dataLine?_data]
  decide +kernel

theorem reads_empty : readLine reader emptyLine = .event (.responseIncomplete (metadata [])) := by
  rw [emptyLine, readLine, dataLine?_data]
  decide +kernel

theorem collects : itemsBefore reader [collectedLine] = some [callItem] := by
  rw [itemsBefore, reads_collected]
  rfl

end Truncated

/-- A truncated call is dropped when the last event repeats it. -/
theorem incomplete_finished_iff_repeated :
    OnlyFinishedCalls Truncated.reader.toJsonParser [Truncated.callItem, Truncated.callItem]
      (responsesApiToStreamingMessage TextCodec.ascii Truncated.reader 0
        [Truncated.collectedLine, Truncated.repeatedLine]) :=
  (incomplete_finished_iff TextCodec.ascii Truncated.reader 0 [Truncated.collectedLine] [] Truncated.repeatedLine
    [Truncated.callItem] (Truncated.metadata [Truncated.callItem]) Truncated.collects Truncated.reads_repeated).mpr
    (Or.inl (List.cons_ne_nil _ _))

/-- A truncated call is requested when the last event leaves the output out. -/
theorem incomplete_unfinished : ¬ (forall (codec : TextCodec) (reader : Reader) (now : Int)
    (before after : List StreamLine) (last : StreamLine) (collected : List ResponseOutputItemInfo)
    (final : ResponseMetadata), itemsBefore reader before = some collected ->
    readLine reader last = .event (.responseIncomplete final) ->
    responseReachedOutputTokenLimit final.status final.incompleteDetails = true ->
    OnlyFinishedCalls reader.toJsonParser (collected ++ final.output)
      (responsesApiToStreamingMessage codec reader now (before ++ last :: after))) := by
  intro only
  have claimed := only TextCodec.ascii Truncated.reader 0 [Truncated.collectedLine] [] Truncated.emptyLine
    [Truncated.callItem] (Truncated.metadata []) Truncated.collects Truncated.reads_empty (by decide)
  rcases toolRequests_incomplete TextCodec.ascii Truncated.reader 0 [Truncated.collectedLine] [] Truncated.emptyLine
      [Truncated.callItem] (Truncated.metadata []) Truncated.collects Truncated.reads_empty with
    ⟨_, requests⟩ | ⟨unreadable, _⟩
  · rw [OnlyFinishedCalls, requests] at claimed
    exact absurd claimed (by decide +kernel)
  · exact unreadable (by decide +kernel)

end Responses
end AIBuddy
