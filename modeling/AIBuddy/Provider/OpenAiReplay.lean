import AIBuddy.Provider.CallReplay

namespace AIBuddy
namespace CallReplay

/-!
# Calls and results in chat completion requests

A chat completion request has the calls of a message in front of its results, and the
merging of split turns moves calls in front of the results of earlier messages.  The
identifier of a call item is the request's own unless metadata was written over it.
-/

open CallEvent CallLedger OpenAi

/-! ## Items -/

/-- The identifier of a call item. -/
def callItemId (object : JsonObject) : Option String :=
  (object.lookup "id").bind Json.asStr

def specItems : OpenAi.SpecMessage -> List (CallEvent String)
  | .turn _ _ toolCalls _ => (toolCalls.filterMap callItemId).map request
  | .tool _ toolCallId => [response toolCallId]

/-- The call and result items of a chat completion request. -/
def openAiItems (messages : List OpenAi.SpecMessage) : List (CallEvent String) :=
  messages.flatMap specItems

theorem openAiItems_cons (first : OpenAi.SpecMessage) (rest : List OpenAi.SpecMessage) :
    openAiItems (first :: rest) = specItems first ++ openAiItems rest :=
  rfl

theorem openAiItems_append (front back : List OpenAi.SpecMessage) :
    openAiItems (front ++ back) = openAiItems front ++ openAiItems back :=
  List.flatMap_append

/-- Only messages of the assistant have calls. -/
def CallsByAssistant : OpenAi.SpecMessage -> Prop
  | .turn role _ toolCalls _ => toolCalls ≠ [] -> role = .assistant
  | .tool .. => True

/-! ## Merging -/

theorem openAiItems_images {images : List OpenAi.SpecMessage}
    (only : forall message, message ∈ images -> isImageOnlyUserMessage message = true)
    (byAssistant : forall message, message ∈ images -> CallsByAssistant message) : openAiItems images = [] := by
  apply List.flatMap_eq_nil_iff.mpr
  intro message member
  have image := only message member
  have calls := byAssistant message member
  cases message with
  | tool content toolCallId => cases image
  | turn role content toolCalls reasoning =>
      cases role with
      | assistant => cases image
      | user =>
          have none : toolCalls = [] := by
            by_contra some
            cases calls some
          rw [none]
          rfl

theorem splitCalls_items {baseReasoning : String} {next : OpenAi.SpecMessage} {calls : List JsonObject}
    (split : splitCalls baseReasoning next = some calls) : specItems next = (calls.filterMap callItemId).map request := by
  rw [splitCalls.eq_def] at split
  split at split
  · split at split
    · cases split
      rfl
    · cases split
  · cases split

theorem scanSplit_hoists (baseReasoning : String) (fuel : Nat) {messages : List OpenAi.SpecMessage}
    (byAssistant : forall message, message ∈ messages -> CallsByAssistant message) :
    Hoists (openAiItems messages)
      (((scanSplit baseReasoning fuel messages).extraToolCalls.filterMap callItemId).map request ++
        openAiItems (scanSplit baseReasoning fuel messages).collected ++
          openAiItems (scanSplit baseReasoning fuel messages).rest) := by
  induction fuel generalizing messages with
  | zero => exact Hoists.refl _
  | succ fuel ih =>
      cases messages with
      | nil => exact Hoists.refl _
      | cons result after =>
          rw [scanSplit]
          split
          · rename_i next later isTool found
            cases split : splitCalls baseReasoning next with
            | none => exact Hoists.refl _
            | some calls =>
                have whole := List.takeWhile_append_dropWhile (p := isImageOnlyUserMessage) (l := after)
                rw [found] at whole
                have inAfter : forall message, message ∈ after -> CallsByAssistant message :=
                  fun message member => byAssistant message (List.mem_cons_of_mem _ member)
                have images : openAiItems (after.takeWhile isImageOnlyUserMessage) = [] :=
                  openAiItems_images (fun _ member => List.mem_takeWhile_imp member)
                    fun message member => inAfter message (List.takeWhile_subset _ member)
                have laterHoists := @ih later fun message member =>
                  inAfter message (whole ▸ List.mem_append_right _ (List.mem_cons_of_mem _ member))
                cases result with
                | turn _ _ _ _ => cases isTool
                | tool content answer =>
                    have start : openAiItems (.tool content answer :: after) =
                        response answer :: ((calls.filterMap callItemId).map request ++ openAiItems later) := by
                      rw [← whole, openAiItems_cons, openAiItems_append, images, List.nil_append, openAiItems_cons,
                        splitCalls_items split]
                      rfl
                    have moved := Hoists.answer_calls answer (calls.filterMap callItemId ++
                      (scanSplit baseReasoning fuel later).extraToolCalls.filterMap callItemId)
                    rw [start]
                    refine Hoists.trans (laterHoists.append_left (response answer ::
                      (calls.filterMap callItemId).map request)) ?_
                    refine Hoists.trans (Hoists.of_eq ?_) ((moved.append_right
                      (openAiItems (scanSplit baseReasoning fuel later).collected ++
                        openAiItems (scanSplit baseReasoning fuel later).rest)).trans (Hoists.of_eq ?_))
                    · simp only [List.map_append, List.append_assoc, List.cons_append]
                    · simp only [List.filterMap_append, List.map_append, List.append_assoc, List.cons_append,
                        openAiItems_cons, openAiItems_append, images, List.nil_append, specItems]
          · exact Hoists.refl _

theorem scanSplit_rest_subset (baseReasoning : String) (fuel : Nat) (messages : List OpenAi.SpecMessage) :
    (scanSplit baseReasoning fuel messages).rest ⊆ messages := by
  induction fuel generalizing messages with
  | zero => exact List.Subset.refl _
  | succ fuel ih =>
      cases messages with
      | nil => exact List.Subset.refl _
      | cons result after =>
          rw [scanSplit]
          split
          · rename_i next later isTool found
            cases splitCalls baseReasoning next with
            | none => exact List.Subset.refl _
            | some calls =>
                have within : later ⊆ after := fun message member =>
                  List.dropWhile_subset _ (found ▸ List.mem_cons_of_mem next member)
                exact fun message member =>
                  List.mem_cons_of_mem _ (within (ih later member))
          · exact List.Subset.refl _

theorem mergeSplit_hoists (fuel : Nat) {messages : List OpenAi.SpecMessage}
    (byAssistant : forall message, message ∈ messages -> CallsByAssistant message) :
    Hoists (openAiItems messages) (openAiItems (mergeSplit fuel messages)) := by
  induction fuel generalizing messages with
  | zero => exact Hoists.refl _
  | succ fuel ih =>
      cases messages with
      | nil => exact Hoists.refl _
      | cons first rest =>
          have inRest : forall message, message ∈ rest -> CallsByAssistant message :=
            fun message member => byAssistant message (List.mem_cons_of_mem _ member)
          have kept := (ih inRest).append_left (specItems first)
          cases first with
          | tool content toolCallId => exact kept
          | turn role content toolCalls reasoning =>
              cases role with
              | user => exact kept
              | assistant =>
                  cases toolCalls with
                  | nil => exact kept
                  | cons call calls =>
                      cases reasoning with
                      | none => exact kept
                      | some baseReasoning =>
                          have scanned := scanSplit_hoists baseReasoning fuel inRest
                          have merged := @ih (scanSplit baseReasoning fuel rest).rest
                            fun message member =>
                              inRest message (scanSplit_rest_subset baseReasoning fuel rest member)
                          rw [mergeSplit, openAiItems_cons]
                          refine Hoists.trans (scanned.append_left _) ?_
                          refine Hoists.trans ((merged.append_left _).append_left _) (Hoists.of_eq ?_)
                          simp only [openAiItems_cons, openAiItems_append, specItems, List.cons_append,
                            List.filterMap_cons, List.filterMap_append, List.append_assoc]
                          cases callItemId call <;> simp only [List.map_cons, List.map_append, List.append_assoc,
                            List.cons_append]

theorem inlineReasoning_items (format : ThinkingPreservationFormat) (messages : List OpenAi.SpecMessage) :
    openAiItems (inlineReasoningContent format messages) = openAiItems messages := by
  rw [openAiItems, inlineReasoningContent, List.flatMap_map]
  apply List.flatMap_congr
  intro message _
  rw [inlineReasoningMessage.eq_def]
  split
  · split <;> rfl
  · rfl

/-! ## Messages -/

/-- The identifier that a call item carries. -/
def carriedId (env : FormatEnv) (call : ToolRequest) : Option String :=
  callItemId (toolCallJson env call)

/-- The calls of a message, and its results behind them. -/
def carriedItems (env : FormatEnv) (message : Message) : List (CallEvent String) :=
  ((message.content.filterMap MessageContentBlock.asToolRequest).filterMap (carriedId env)).map request ++
    ((message.content.filterMap MessageContentBlock.asToolResponse).map ToolResponse.id).map response

theorem toolResultMessages_items (env : FormatEnv) (imageFormat : ImageFormat) (options : FormatOptions)
    (answer : ToolResponse) :
    openAiItems (toolResultMessages env imageFormat options answer) = [response answer.id] := by
  have images : forall found : List ImageContent, openAiItems (found.map (imageMessage imageFormat)) = [] := by
    intro found
    rw [openAiItems, List.flatMap_map]
    exact List.flatMap_eq_nil_iff.mpr fun _ _ => rfl
  rw [toolResultMessages]
  cases answer.toolResult with
  | error error => rfl
  | ok result =>
      simp only [openAiItems_cons]
      split
      · rw [images]
        rfl
      · rfl

theorem output_items (env : FormatEnv) (imageFormat : ImageFormat) (options : FormatOptions)
    (answers : List ToolResponse) :
    openAiItems (answers.flatMap (toolResultMessages env imageFormat options)) =
      (answers.map ToolResponse.id).map response := by
  induction answers with
  | nil => rfl
  | cons answer rest ih =>
      rw [List.flatMap_cons, openAiItems_append, toolResultMessages_items, ih]
      rfl

theorem payload_items (role : Role) (content : Option SpecContent) (calls : List JsonObject)
    (reasoning : Option String) :
    openAiItems (if (content.isSome || !calls.isEmpty) = true then [.turn role content calls reasoning] else []) =
      (calls.filterMap callItemId).map request := by
  split
  · rw [openAiItems_cons, openAiItems, List.flatMap_nil, List.append_nil]
    rfl
  · rename_i silent
    rw [Bool.or_eq_true, not_or, Bool.not_eq_true', Bool.not_eq_false, List.isEmpty_iff] at silent
    rw [silent.2]
    rfl

theorem formatMessage_items (env : FormatEnv) (imageFormat : ImageFormat) (options : FormatOptions)
    (state : FormatState) (message : Message) :
    openAiItems (formatMessage env imageFormat options state message).1 = carriedItems env message := by
  have calls := fun role content reasoning => payload_items role content
    ((message.content.filterMap MessageContentBlock.asToolRequest).map (toolCallJson env)) reasoning
  have output := output_items env imageFormat options (message.content.filterMap MessageContentBlock.asToolResponse)
  rw [List.filterMap_map] at calls
  rw [carriedItems, formatMessage]
  split
  · split
    · rename_i silent
      rcases silent with ⟨noPayload, noOutput, _⟩
      have noCalls := calls .assistant (messageContent env imageFormat options message) none
      rw [if_neg (by rw [noPayload]; exact Bool.false_ne_true)] at noCalls
      rw [noOutput] at output
      rw [← output]
      exact congrArg (· ++ []) noCalls
    · rw [openAiItems_append, calls, output]
      rfl
  · rw [openAiItems_append, calls, output]
    rfl

theorem formatFrom_items (env : FormatEnv) (imageFormat : ImageFormat) (options : FormatOptions)
    (state : FormatState) (messages : List Message) :
    openAiItems (formatFrom env imageFormat options state messages) = messages.flatMap (carriedItems env) := by
  induction messages generalizing state with
  | nil => rfl
  | cons message rest ih =>
      rw [formatFrom, openAiItems_append, formatMessage_items, ih]
      rfl

theorem formatMessage_callsByAssistant (env : FormatEnv) (imageFormat : ImageFormat) (options : FormatOptions)
    (state : FormatState) {message : Message}
    (byAssistant : forall call, MessageContentBlock.toolRequest call ∈ message.content -> message.role = .assistant)
    {spec : OpenAi.SpecMessage} (member : spec ∈ (formatMessage env imageFormat options state message).1) :
    CallsByAssistant spec := by
  have output : forall spec,
      spec ∈ (message.content.filterMap MessageContentBlock.asToolResponse).flatMap
        (toolResultMessages env imageFormat options) -> CallsByAssistant spec := by
    intro spec inside
    rcases List.mem_flatMap.mp inside with ⟨answer, _, written⟩
    rw [toolResultMessages] at written
    cases result : answer.toolResult with
    | error error =>
        rw [result] at written
        rw [List.mem_singleton.mp written]
        exact trivial
    | ok contents =>
        simp only [result] at written
        rcases List.mem_cons.mp written with rfl | image
        · exact trivial
        · split at image
          · rcases List.mem_map.mp image with ⟨_, _, rfl⟩
            exact fun some => absurd rfl some
          · exact absurd image List.not_mem_nil
  have payload : forall content reasoning,
      CallsByAssistant (.turn message.role content
        ((message.content.filterMap MessageContentBlock.asToolRequest).map (toolCallJson env)) reasoning) := by
    intro content reasoning some
    rcases List.exists_mem_of_ne_nil _ some with ⟨object, inside⟩
    rcases List.mem_map.mp inside with ⟨call, found, _⟩
    rcases List.mem_filterMap.mp found with ⟨block, blockMember, asRequest⟩
    cases block with
    | toolRequest _ => exact byAssistant _ blockMember
    | text _ | image _ | document _ | toolResponse _ | toolConfirmationRequest _ | actionRequired _ | thinking _
    | redactedThinking _ | systemNotification _ | error _ => cases asRequest
  have turn : forall (shown : Bool) content reasoning, spec ∈ (if shown = true then
      [OpenAi.SpecMessage.turn message.role content
        ((message.content.filterMap MessageContentBlock.asToolRequest).map (toolCallJson env)) reasoning]
      else []) -> CallsByAssistant spec := by
    intro shown content reasoning inside
    split at inside
    · rw [List.mem_singleton.mp inside]
      exact payload content reasoning
    · exact absurd inside List.not_mem_nil
  rw [formatMessage] at member
  split at member
  · split at member
    · exact absurd member List.not_mem_nil
    · rcases List.mem_append.mp member with inTurn | inOutput
      · exact turn _ _ _ inTurn
      · exact output spec inOutput
  · rcases List.mem_append.mp member with inTurn | inOutput
    · exact turn _ _ _ inTurn
    · exact output spec inOutput

theorem formatFrom_callsByAssistant (env : FormatEnv) (imageFormat : ImageFormat) (options : FormatOptions)
    (state : FormatState) {messages : List Message}
    (byAssistant : forall message, message ∈ messages -> forall call,
      MessageContentBlock.toolRequest call ∈ message.content -> message.role = .assistant)
    {spec : OpenAi.SpecMessage} (member : spec ∈ formatFrom env imageFormat options state messages) :
    CallsByAssistant spec := by
  induction messages generalizing state with
  | nil => exact absurd member List.not_mem_nil
  | cons message rest ih =>
      rw [formatFrom] at member
      rcases List.mem_append.mp member with first | later
      · exact formatMessage_callsByAssistant env imageFormat options state
          (byAssistant message (List.mem_cons.mpr (Or.inl rfl))) first
      · exact ih _ (fun other inRest => byAssistant other (List.mem_cons_of_mem _ inRest)) later

/-- A chat completion request has the calls of every message in front of its results,
and some of them in front of earlier results. -/
theorem openAiItems_hoists {messages : List Message} (paired : Paired messages) (env : FormatEnv)
    (imageFormat : ImageFormat) (options : FormatOptions) :
    Hoists (messages.flatMap (carriedItems env))
      (openAiItems (formatMessagesWithOptions env messages imageFormat options)) := by
  have merged := mergeSplit_hoists
    (formatFrom env imageFormat options FormatState.start messages).length
    fun _ => formatFrom_callsByAssistant env imageFormat options FormatState.start paired.byAssistant
  rw [formatFrom_items] at merged
  rw [formatMessagesWithOptions]
  split
  · rw [inlineReasoning_items]
    exact merged
  · exact merged

/-! ## Identifiers -/

theorem asStr_eq_some_iff (value : Json) (text : String) : value.asStr = some text ↔ value = .string text := by
  cases value with
  | string own =>
      rw [Json.asStr, Option.some_inj]
      exact ⟨congrArg Json.string, fun same => Json.string.inj same⟩
  | null | bool _ | number _ | array _ | object _ =>
      exact iff_of_false (fun same => by cases same) (fun same => by cases same)

theorem carriedId_iff (env : FormatEnv) (call : ToolRequest) :
    carriedId env call = some call.id ↔ (WasRead call -> KeepsId call) := by
  rw [carriedId, callItemId, toolCallJson, WasRead, KeepsId]
  cases call.toolCall with
  | error error => exact iff_of_true rfl fun read => absurd read Bool.false_ne_true
  | ok toolCall =>
      rw [JsonObject.lookup_foldl_insert, ← overridingId]
      cases overridingId call with
      | none => exact iff_of_true rfl fun _ _ same => by cases same
      | some value =>
          rw [Option.some_or, Option.bind_some, asStr_eq_some_iff]
          constructor
          · intro same _ other found
            rw [← Option.some_inj.mp found]
            exact same
          · intro keeps
            exact keeps rfl value rfl

theorem requestIds_carriedItems (env : FormatEnv) (messages : List Message) :
    requestIds (messages.flatMap (carriedItems env)) = (requests messages).filterMap (carriedId env) := by
  rw [requestIds, List.filterMap_flatMap, requests, List.filterMap_flatMap]
  congr 1
  funext message
  rw [← requestIds, carriedItems, requestIds_append, requestIds_map_request, requestIds_map_response,
    List.append_nil]

theorem responseIds_blocks (blocks : List MessageContentBlock) :
    responseIds (blocks.filterMap blockExchange) =
      (blocks.filterMap MessageContentBlock.asToolResponse).map ToolResponse.id := by
  rw [responseIds, List.filterMap_filterMap, List.map_filterMap]
  congr 1
  funext block
  cases block <;> rfl

theorem exchange_hoists (env : FormatEnv) {messages : List Message}
    (kept : forall call, call ∈ requests messages -> carriedId env call = some call.id) :
    Hoists (exchange messages) (messages.flatMap (carriedItems env)) := by
  induction messages with
  | nil => exact Hoists.refl _
  | cons message rest ih =>
      rw [requests, List.flatMap_cons] at kept
      have later := ih fun call member => kept call (List.mem_append_right _ member)
      have first := Hoists.partition (message.content.filterMap blockExchange)
      have ids := (filterMap_eq_map_iff (carriedId env) ToolRequest.id
        (message.content.filterMap MessageContentBlock.asToolRequest)).mpr
          fun call member => kept call (List.mem_append_left _ member)
      rw [requestIds_blocks, responseIds_blocks, ← ids] at first
      exact first.append later

theorem openAi_replays_iff {messages : List Message} (paired : Paired messages) (env : FormatEnv)
    (imageFormat : ImageFormat) (options : FormatOptions) :
    Replays messages (openAiItems (formatMessagesWithOptions env messages imageFormat options)) ↔
      forall call, call ∈ requests messages -> WasRead call -> KeepsId call := by
  have hoists := openAiItems_hoists paired env imageFormat options
  have ids := hoists.requestIds_eq
  rw [requestIds_carriedItems] at ids
  rw [replays_iff_carried paired ids fun kept => (exchange_hoists env kept).trans hoists]
  exact forall₂_congr fun call _ => carriedId_iff env call

/-! ## All formats -/

/-- All four formats replay a conversation if all its calls were read and no metadata
was written over an identifier. -/
theorem replays_iff {messages : List Message} (paired : Paired messages) (env : FormatEnv)
    (imageFormat : ImageFormat) (options : FormatOptions) (anthropicOptions : Anthropic.FormatOptions)
    (supportsVision nestedMedia : Bool) :
    (Replays messages (openAiItems (formatMessagesWithOptions env messages imageFormat options)) ∧
      Replays messages (anthropicItems (Anthropic.formatMessagesWithOptions env messages anthropicOptions)) ∧
      Replays messages (responsesItems (Responses.addMessageItems env messages supportsVision)) ∧
      Replays messages (googleItems (Google.formatMessages env messages nestedMedia))) ↔
    forall call, call ∈ requests messages -> WasRead call ∧ KeepsId call := by
  rw [openAi_replays_iff paired, responses_replays_iff paired, google_replays_iff paired]
  constructor
  · rintro ⟨keeps, _, read, _⟩ call member
    exact ⟨read call member, keeps call member (read call member)⟩
  · intro both
    exact ⟨fun call member _ => (both call member).2, anthropic_replays paired env anthropicOptions,
      fun call member => (both call member).1, fun call member => (both call member).1⟩

namespace Example

def env : FormatEnv :=
  ⟨TextCodec.ascii, fun _ => none, fun _ => none, fun _ => "\x7b\x7d", ErrorData.message⟩

def result (text : String) : ToolResult CallToolResult :=
  .ok ⟨[.text ⟨text, none⟩], none, none⟩

/-- A message that calls, and the message that answers. -/
def conversation (calls : List ToolRequest) (answers : List ToolResponse) : List Message :=
  [(Message.user 0).withContent (.plainText "go"), { Message.assistant 0 with content := calls.map .toolRequest },
    { Message.user 0 with content := answers.map .toolResponse }]

theorem conversation_paired {calls : List ToolRequest} {answers : List ToolResponse}
    (answered : forall id, id ∈ requestIds (exchange (conversation calls answers)) ->
      history id (exchange (conversation calls answers)) = [true, false]) : Paired (conversation calls answers) where
  visible := by
    intro message member
    rcases List.mem_cons.mp member with rfl | member
    · rfl
    rcases List.mem_cons.mp member with rfl | member
    · rfl
    rcases List.mem_cons.mp member with rfl | member
    · rfl
    exact absurd member List.not_mem_nil
  byAssistant := by
    intro message member call inside
    rcases List.mem_cons.mp member with rfl | member
    · cases List.mem_singleton.mp inside
    rcases List.mem_cons.mp member with rfl | member
    · rfl
    rcases List.mem_cons.mp member with rfl | member
    · rcases List.mem_map.mp inside with ⟨_, _, impossible⟩
      cases impossible
    exact absurd member List.not_mem_nil
  answered := answered

def readCalls : List ToolRequest :=
  [⟨"a", .ok ⟨"list", none⟩, none, none⟩, ⟨"b", .ok ⟨"show", some [("path", .string "x")]⟩, none, none⟩]

def readAnswers : List ToolResponse :=
  [⟨"a", result "x", none⟩, ⟨"b", result "y", none⟩]

def unreadError : ErrorData := ⟨-32602, "could not parse", none⟩

def unreadCalls : List ToolRequest :=
  [⟨"a", .error unreadError, none, none⟩]

def unreadAnswers : List ToolResponse :=
  [⟨"a", .error unreadError, none⟩]

end Example

open Example in
theorem readCalls_replayed :
    Replays (conversation readCalls readAnswers) (openAiItems (formatMessagesWithOptions env
        (conversation readCalls readAnswers) .openAi ⟨true, true, none⟩)) ∧
      Replays (conversation readCalls readAnswers) (anthropicItems (Anthropic.formatMessagesWithOptions env
        (conversation readCalls readAnswers) ⟨false, false, none, false, none⟩)) ∧
      Replays (conversation readCalls readAnswers) (responsesItems (Responses.addMessageItems env
        (conversation readCalls readAnswers) true)) ∧
      Replays (conversation readCalls readAnswers) (googleItems (Google.formatMessages env
        (conversation readCalls readAnswers) true)) := by
  refine (replays_iff (conversation_paired (by decide)) env .openAi ⟨true, true, none⟩
    ⟨false, false, none, false, none⟩ true true).mpr ?_
  intro call member
  have calls : call ∈ readCalls := member
  rcases List.mem_cons.mp calls with rfl | calls
  · exact ⟨rfl, fun _ found => by cases found⟩
  rcases List.mem_cons.mp calls with rfl | calls
  · exact ⟨rfl, fun _ found => by cases found⟩
  exact absurd calls List.not_mem_nil

open Example in
/-- A call that could not be read is replayed as two results without a call, or as a
text with a result. -/
theorem unreadCall_orphans_result :
    Paired (conversation unreadCalls unreadAnswers) ∧
      (responsesItems (Responses.addMessageItems env (conversation unreadCalls unreadAnswers) true) =
          [response "a", response "a"] ∧
        ¬ Replays (conversation unreadCalls unreadAnswers)
          (responsesItems (Responses.addMessageItems env (conversation unreadCalls unreadAnswers) true))) ∧
      googleItems (Google.formatMessages env (conversation unreadCalls unreadAnswers) true) = [response "a"] ∧
        ¬ Replays (conversation unreadCalls unreadAnswers)
          (googleItems (Google.formatMessages env (conversation unreadCalls unreadAnswers) true)) := by
  have noCall : forall items, requestIds items = [] -> ¬ Replays (conversation unreadCalls unreadAnswers) items := by
    intro items none replays
    have called := replays.1
    rw [none] at called
    cases called
  exact ⟨conversation_paired (by decide), ⟨by decide, noCall _ (by decide)⟩, by decide, noCall _ (by decide)⟩

end CallReplay
end AIBuddy
