import AIBuddy.Provider.OpenAiOrder
import AIBuddy.Conversation.Fix

namespace AIBuddy
namespace OpenAi

/-!
# Conversations whose requests are ordered

The order of a chat completion request is read off the conversation: what is written
behind the calls of a message are the results of the messages that follow, up to the
first one that has something else to say or whose results have images to send.
-/

open CallReplay (callItemId carriedId)

/-! ## What a message writes -/

def messageCalls (message : Message) : List ToolRequest :=
  message.content.filterMap MessageContentBlock.asToolRequest

def messageAnswers (message : Message) : List ToolResponse :=
  message.content.filterMap MessageContentBlock.asToolResponse

/-- Whether images of a tool result follow it. -/
def sendsImages (options : FormatOptions) (answer : ToolResponse) : Bool :=
  match answer.toolResult with
  | .ok result => options.supportsVision && result.content.any fun content => (resultImage content).isSome
  | .error _ => false

section Conversation

variable (env : FormatEnv) (imageFormat : ImageFormat) (options : FormatOptions)

/-- Whether a message is written besides its tool results. -/
def writesTurn (message : Message) : Bool :=
  (messageContent env imageFormat options message).isSome || !(messageCalls message).isEmpty

/-- A message of the user that is written as nothing but images. -/
def writesOnlyImages (message : Message) : Bool :=
  isImageOnlyUserMessage (.turn message.role (messageContent env imageFormat options message) [] none)

/-- The reasoning that a message is given behind the messages that led to a state. -/
def turnReasoning (state : FormatState) (message : Message) : Option String :=
  let reasoning := String.join (message.content.map reasoningText)
  if options.preserveThinkingContext = true ∧ message.role = .assistant then
    let merged := (carryReasoning (enterMessage options state message) (!(messageCalls message).isEmpty) reasoning).1
    if merged = "" then none else some merged
  else if options.preserveThinkingContext = true ∧ reasoning ≠ "" then some reasoning
  else none

/-- The reasoning that is carried behind some messages. -/
def stateAfter (state : FormatState) (messages : List Message) : FormatState :=
  messages.foldl (fun state message => (formatMessage env imageFormat options state message).2) state

/-! ## Conversations -/

/-- The results at the front of a message, and what comes behind it if no images do. -/
def answersBefore (later : List String) : List ToolResponse -> List String
  | [] => later
  | answer :: rest => answer.id :: if sendsImages options answer then [] else answersBefore later rest

/-- The results at the front of a conversation, up to the first thing that is written
besides results. -/
def directAnswers : List Message -> List String
  | [] => []
  | message :: rest =>
      if writesTurn env imageFormat options message then []
      else answersBefore options (directAnswers rest) (messageAnswers message)

/-- Right behind the calls of every message of the assistant stand the results of these
calls and no others. -/
def Adjoining : List Message -> Prop
  | [] => True
  | message :: rest =>
      (message.role = .assistant -> messageCalls message ≠ [] ->
        ((messageCalls message).filterMap (carriedId env)).Perm
          (answersBefore options (directAnswers env imageFormat options rest) (messageAnswers message))) ∧
      Adjoining rest

/-- Where a message of the assistant with calls and no content is given the reasoning
of an earlier one, and only one result and images are written in between, there are no
images. -/
def ImagesApart (state : FormatState) : List Message -> Prop
  | [] => True
  | base :: rest =>
      (base.role = .assistant -> messageCalls base ≠ [] -> forall reasoning between next later,
        rest = between ++ next :: later -> turnReasoning options state base = some reasoning ->
          next.role = .assistant -> messageCalls next ≠ [] ->
          hasNoContent (messageContent env imageFormat options next) = true ->
          turnReasoning options (stateAfter env imageFormat options
            (formatMessage env imageFormat options state base).2 between) next = some reasoning ->
          (forall message, message ∈ between -> writesTurn env imageFormat options message = true ->
            writesOnlyImages env imageFormat options message = true) ->
          forall answer, (base :: between).flatMap messageAnswers = [answer] ->
            sendsImages options answer = false ∧
              forall message, message ∈ between -> writesTurn env imageFormat options message = false) ∧
      ImagesApart (formatMessage env imageFormat options state base).2 rest

/-! ## What is written -/

/-- The turn of a message. -/
def writtenTurn (state : FormatState) (message : Message) : SpecMessage :=
  .turn message.role (messageContent env imageFormat options message) ((messageCalls message).map (toolCallJson env))
    (turnReasoning options state message)

/-- The tool results of a message with the images that follow them. -/
def writtenAnswers (message : Message) : List SpecMessage :=
  (messageAnswers message).flatMap (toolResultMessages env imageFormat options)

theorem formatMessage_eq (state : FormatState) (message : Message) :
    (formatMessage env imageFormat options state message).1 =
      (if writesTurn env imageFormat options message then [writtenTurn env imageFormat options state message] else []) ++
        writtenAnswers env imageFormat options message := by
  have sameEmpty : ((messageCalls message).map (toolCallJson env)).isEmpty = (messageCalls message).isEmpty :=
    List.isEmpty_map
  rw [formatMessage, writesTurn, writtenTurn, writtenAnswers, turnReasoning, ← messageCalls, ← messageAnswers]
  simp only [sameEmpty]
  by_cases thinking : options.preserveThinkingContext = true ∧ message.role = .assistant
  · simp only [if_pos thinking]
    split
    · rename_i silent
      rw [silent.2.1, silent.1]
      rfl
    · rfl
  · simp only [if_neg thinking]

/-! ## Results and images -/

/-- A message without calls of the assistant. -/
def Quiet : SpecMessage -> Prop
  | .turn .assistant _ calls _ => calls = []
  | _ => True

theorem not_quiet_calls (content : Option SpecContent) (call : JsonObject) (calls : List JsonObject)
    (reasoning : Option String) : ¬ Quiet (.turn .assistant content (call :: calls) reasoning) :=
  List.cons_ne_nil call calls

theorem answered_of_quiet {message : SpecMessage} (quiet : Quiet message) (back : List SpecMessage) :
    Answered message back := by
  cases message with
  | tool content id => exact trivial
  | turn role content calls reasoning =>
      cases role with
      | user => exact trivial
      | assistant => exact fun some => absurd quiet some

theorem clearBehind_of_quiet {message : SpecMessage} (quiet : Quiet message) (back : List SpecMessage) :
    ClearBehind message back := by
  cases message with
  | tool content id => exact trivial
  | turn role content calls reasoning =>
      cases role with
      | user => exact trivial
      | assistant =>
          cases calls with
          | nil => exact trivial
          | cons call rest => cases quiet

theorem ordered_append_quiet {front back : List SpecMessage} (quiet : forall message, message ∈ front -> Quiet message) :
    Ordered (front ++ back) ↔ Ordered back := by
  induction front with
  | nil => exact Iff.rfl
  | cons first rest ih =>
      rw [← ih fun message member => quiet message (List.mem_cons_of_mem _ member)]
      exact and_iff_right (answered_of_quiet (quiet first (List.mem_cons.mpr (Or.inl rfl))) _)

theorem clear_append_quiet {front back : List SpecMessage} (quiet : forall message, message ∈ front -> Quiet message)
    (clear : Clear back) : Clear (front ++ back) := by
  induction front with
  | nil => exact clear
  | cons first rest ih =>
      exact ⟨clearBehind_of_quiet (quiet first (List.mem_cons.mpr (Or.inl rfl))) _,
        ih fun message member => quiet message (List.mem_cons_of_mem _ member)⟩

theorem toolResultMessages_eq (answer : ToolResponse) :
    Exists fun content => Exists fun images => toolResultMessages env imageFormat options answer =
      .tool content answer.id :: images.map (imageMessage imageFormat) ∧
        (images = [] ↔ sendsImages options answer = false) := by
  rw [toolResultMessages, sendsImages]
  cases answer.toolResult with
  | error error => exact ⟨_, [], rfl, iff_of_true rfl rfl⟩
  | ok result =>
      cases vision : options.supportsVision with
      | false => exact ⟨_, [], rfl, iff_of_true rfl rfl⟩
      | true =>
          refine ⟨_, result.content.filterMap resultImage, rfl, ?_⟩
          rw [List.filterMap_eq_nil_iff]
          refine Iff.trans ?_ List.any_eq_false.symm
          refine forall₂_congr fun content _ => ?_
          rw [Option.isSome_iff_ne_none, not_not]

theorem quiet_writtenAnswers (message : Message) {spec : SpecMessage}
    (member : spec ∈ writtenAnswers env imageFormat options message) : Quiet spec := by
  rcases List.mem_flatMap.mp member with ⟨answer, _, written⟩
  rcases toolResultMessages_eq env imageFormat options answer with ⟨content, images, same, _⟩
  rw [same] at written
  rcases List.mem_cons.mp written with rfl | image
  · exact trivial
  · rcases List.mem_map.mp image with ⟨_, _, rfl⟩
    exact trivial

theorem frontIds_answers (answers : List ToolResponse) (back : List SpecMessage) :
    frontIds (answers.flatMap (toolResultMessages env imageFormat options) ++ back) =
      answersBefore options (frontIds back) answers := by
  induction answers with
  | nil => rfl
  | cons answer rest ih =>
      rcases toolResultMessages_eq env imageFormat options answer with ⟨content, images, same, none⟩
      rw [List.flatMap_cons, same, answersBefore, List.cons_append, List.cons_append, frontIds_tool]
      cases images with
      | nil =>
          rw [none.mp rfl, List.map_nil, List.nil_append, ih]
          rfl
      | cons image others =>
          have sends : sendsImages options answer = true := by
            rw [← Bool.not_eq_false, ← none]
            exact List.cons_ne_nil _ _
          rw [sends]
          rfl

theorem formatFrom_cons (state : FormatState) (message : Message) (rest : List Message) :
    formatFrom env imageFormat options state (message :: rest) =
      (if writesTurn env imageFormat options message then [writtenTurn env imageFormat options state message] else []) ++
        (writtenAnswers env imageFormat options message ++
          formatFrom env imageFormat options (formatMessage env imageFormat options state message).2 rest) := by
  rw [formatFrom, formatMessage_eq, List.append_assoc]

theorem frontIds_formatFrom (state : FormatState) (messages : List Message) :
    frontIds (formatFrom env imageFormat options state messages) = directAnswers env imageFormat options messages := by
  induction messages generalizing state with
  | nil => rfl
  | cons message rest ih =>
      rw [formatFrom_cons, directAnswers]
      cases writesTurn env imageFormat options message with
      | true => rfl
      | false =>
          rw [← ih (formatMessage env imageFormat options state message).2]
          exact frontIds_answers env imageFormat options _ _

theorem writesTurn_of_calls {message : Message} (some : messageCalls message ≠ []) :
    writesTurn env imageFormat options message = true := by
  rw [writesTurn, List.isEmpty_eq_false_iff.mpr some]
  exact Bool.or_true _

theorem answered_turn_iff (role : Role) (content : Option SpecContent) (calls : List JsonObject)
    (reasoning : Option String) (back : List SpecMessage) :
    Answered (.turn role content calls reasoning) back ↔
      (role = .assistant -> calls ≠ [] -> (calls.filterMap callItemId).Perm (frontIds back)) := by
  cases role with
  | user => exact iff_of_true trivial fun impossible => by cases impossible
  | assistant => exact ⟨fun answered _ => answered, fun answered => answered rfl⟩

theorem ordered_formatFrom_iff (state : FormatState) (messages : List Message) :
    Ordered (formatFrom env imageFormat options state messages) ↔ Adjoining env imageFormat options messages := by
  induction messages generalizing state with
  | nil => exact Iff.rfl
  | cons message rest ih =>
      have front := frontIds_answers env imageFormat options (messageAnswers message)
        (formatFrom env imageFormat options (formatMessage env imageFormat options state message).2 rest)
      rw [frontIds_formatFrom] at front
      have later := (ordered_append_quiet fun _ => quiet_writtenAnswers env imageFormat options message).trans
        (ih (formatMessage env imageFormat options state message).2)
      rw [formatFrom_cons, Adjoining]
      by_cases turn : writesTurn env imageFormat options message = true
      · rw [if_pos turn, List.singleton_append]
        refine and_congr ?_ later
        have ids : ((messageCalls message).map (toolCallJson env)).filterMap callItemId =
            (messageCalls message).filterMap (carriedId env) := List.filterMap_map
        rw [writtenTurn, answered_turn_iff, ids, writtenAnswers, front, ne_eq, ne_eq, List.map_eq_nil_iff]
      · have none : messageCalls message = [] := by
          by_contra some
          exact turn (writesTurn_of_calls env imageFormat options some)
        rw [if_neg turn, List.nil_append, later]
        exact (and_iff_right fun _ some => absurd none some).symm

/-! ## Images between the messages of a split turn -/

theorem toolIds_answers (answers : List ToolResponse) :
    (answers.flatMap (toolResultMessages env imageFormat options)).filterMap toolCallId =
      answers.map ToolResponse.id := by
  induction answers with
  | nil => rfl
  | cons answer rest ih =>
      rcases toolResultMessages_eq env imageFormat options answer with ⟨content, images, same, _⟩
      have none : (images.map (imageMessage imageFormat)).filterMap toolCallId = [] := by
        rw [List.filterMap_map]
        exact List.filterMap_none images
      rw [List.flatMap_cons, List.filterMap_append, ih, same, List.filterMap_cons]
      simp only [toolCallId, none, List.cons_append, List.nil_append, List.map_cons]

theorem toolIds_formatFrom (state : FormatState) (messages : List Message) :
    (formatFrom env imageFormat options state messages).filterMap toolCallId =
      (messages.flatMap messageAnswers).map ToolResponse.id := by
  induction messages generalizing state with
  | nil => rfl
  | cons message rest ih =>
      rw [formatFrom_cons, List.filterMap_append, List.filterMap_append, ih, writtenAnswers,
        toolIds_answers, List.flatMap_cons, List.map_append]
      split <;> rfl

private theorem first_without {α : Type} {holds : α -> Prop} {front others : List α} {first second : α}
    {back rest : List α} (inFront : forall item, item ∈ front -> holds item) (notFirst : ¬ holds first)
    (inOthers : forall item, item ∈ others -> holds item) (notSecond : ¬ holds second)
    (same : front ++ first :: back = others ++ second :: rest) : front = others ∧ first = second := by
  induction front generalizing others with
  | nil =>
      cases others with
      | nil => exact ⟨rfl, (List.cons_eq_cons.mp same).1⟩
      | cons other _ =>
          rw [(List.cons_eq_cons.mp same).1] at notFirst
          exact absurd (inOthers other (List.mem_cons.mpr (Or.inl rfl))) notFirst
  | cons item items ih =>
      cases others with
      | nil =>
          rw [← (List.cons_eq_cons.mp same).1] at notSecond
          exact absurd (inFront item (List.mem_cons.mpr (Or.inl rfl))) notSecond
      | cons other others =>
          rcases List.cons_eq_cons.mp same with ⟨rfl, sameRest⟩
          rcases ih (fun later member => inFront later (List.mem_cons_of_mem _ member))
            (fun later member => inOthers later (List.mem_cons_of_mem _ member)) sameRest with ⟨rfl, sameItem⟩
          exact ⟨rfl, sameItem⟩

theorem split_formatFrom {front quiet back : List SpecMessage} {state : FormatState} {messages : List Message}
    {content : Option SpecContent} {call : JsonObject} {calls : List JsonObject} {reasoning : Option String}
    (quietFront : forall message, message ∈ front -> Quiet message)
    (quietBefore : forall message, message ∈ quiet -> Quiet message)
    (same : front ++ formatFrom env imageFormat options state messages =
      quiet ++ .turn .assistant content (call :: calls) reasoning :: back) :
    Exists fun between => Exists fun next => Exists fun later => messages = between ++ next :: later ∧
      quiet = front ++ formatFrom env imageFormat options state between ∧
      writtenTurn env imageFormat options (stateAfter env imageFormat options state between) next =
        .turn .assistant content (call :: calls) reasoning := by
  induction messages generalizing front state with
  | nil =>
      have member : SpecMessage.turn .assistant content (call :: calls) reasoning ∈ front := by
        rw [formatFrom, List.append_nil] at same
        rw [same]
        exact List.mem_append_right _ (List.mem_cons.mpr (Or.inl rfl))
      cases quietFront _ member
  | cons message rest ih =>
      rw [formatFrom_cons] at same
      by_cases calling : message.role = .assistant ∧ messageCalls message ≠ []
      · have loud : ¬ Quiet (writtenTurn env imageFormat options state message) := by
          rw [writtenTurn, calling.1]
          exact fun none => calling.2 (List.map_eq_nil_iff.mp none)
        rw [if_pos (writesTurn_of_calls env imageFormat options calling.2), List.singleton_append] at same
        rcases first_without quietFront loud quietBefore (not_quiet_calls _ _ _ _) same with ⟨rfl, sameTurn⟩
        exact ⟨[], message, rest, rfl, (List.append_nil front).symm, sameTurn⟩
      · have quietTurn : Quiet (writtenTurn env imageFormat options state message) := by
          rw [writtenTurn]
          cases role : message.role with
          | user => exact trivial
          | assistant =>
              have none : messageCalls message = [] := by
                by_contra some
                exact calling ⟨role, some⟩
              rw [none]
              exact (rfl : ([] : List JsonObject) = [])
        have quietWritten : forall spec, spec ∈ front ++ ((if writesTurn env imageFormat options message then
            [writtenTurn env imageFormat options state message] else []) ++
              writtenAnswers env imageFormat options message) -> Quiet spec := by
          intro spec member
          rcases List.mem_append.mp member with inFront | written
          · exact quietFront spec inFront
          · rcases List.mem_append.mp written with inTurn | inAnswers
            · split at inTurn
              · rw [List.mem_singleton.mp inTurn]
                exact quietTurn
              · exact absurd inTurn List.not_mem_nil
            · exact quiet_writtenAnswers env imageFormat options message inAnswers
        rw [← List.append_assoc, ← List.append_assoc, List.append_assoc front] at same
        rcases ih quietWritten same with ⟨between, next, later, rfl, sameQuiet, sameTurn⟩
        refine ⟨message :: between, next, later, rfl, ?_, sameTurn⟩
        rw [sameQuiet, formatFrom_cons, List.append_assoc, List.append_assoc]

theorem tools_of_answers {answers : List ToolResponse}
    (plain : forall answer, answer ∈ answers -> sendsImages options answer = false) {spec : SpecMessage}
    (member : spec ∈ answers.flatMap (toolResultMessages env imageFormat options)) : isToolMessage spec = true := by
  rcases List.mem_flatMap.mp member with ⟨answer, inAnswers, written⟩
  rcases toolResultMessages_eq env imageFormat options answer with ⟨content, images, same, none⟩
  rw [same, none.mpr (plain answer inAnswers)] at written
  rw [List.mem_singleton.mp written]
  rfl

theorem tools_of_plain {state : FormatState} {messages : List Message}
    (plain : forall answer, answer ∈ messages.flatMap messageAnswers -> sendsImages options answer = false)
    (silent : forall message, message ∈ messages -> writesTurn env imageFormat options message = false)
    {spec : SpecMessage} (member : spec ∈ formatFrom env imageFormat options state messages) :
    isToolMessage spec = true := by
  induction messages generalizing state with
  | nil => exact absurd member List.not_mem_nil
  | cons message rest ih =>
      rw [formatFrom_cons, silent message (List.mem_cons.mpr (Or.inl rfl)), if_neg Bool.false_ne_true,
        List.nil_append] at member
      rw [List.flatMap_cons] at plain
      rcases List.mem_append.mp member with inAnswers | later
      · exact tools_of_answers env imageFormat options
          (fun answer inMessage => plain answer (List.mem_append_left _ inMessage)) inAnswers
      · exact ih (fun answer inRest => plain answer (List.mem_append_right _ inRest))
          (fun other inRest => silent other (List.mem_cons_of_mem _ inRest)) later

theorem mem_formatFrom_of_writesTurn (state : FormatState) {messages : List Message} {message : Message}
    (member : message ∈ messages) (writes : writesTurn env imageFormat options message = true) :
    Exists fun reached => writtenTurn env imageFormat options reached message ∈
      formatFrom env imageFormat options state messages := by
  induction messages generalizing state with
  | nil => exact absurd member List.not_mem_nil
  | cons first rest ih =>
      rw [formatFrom_cons]
      rcases List.mem_cons.mp member with rfl | later
      · rw [if_pos writes]
        exact ⟨state, List.mem_cons.mpr (Or.inl rfl)⟩
      · rcases ih (formatMessage env imageFormat options state first).2 later with ⟨reached, inside⟩
        exact ⟨reached, List.mem_append_right _ (List.mem_append_right _ inside)⟩

theorem clearBehind_turn_iff (role : Role) (content : Option SpecContent) (calls : List JsonObject)
    (reasoning : Option String) (back : List SpecMessage) :
    ClearBehind (.turn role content calls reasoning) back ↔
      (role = .assistant -> calls ≠ [] -> forall text, reasoning = some text ->
        forall content id images next later, back = .tool content id :: (images ++ next :: later) ->
          (forall image, image ∈ images -> isImageOnlyUserMessage image = true) ->
          (splitCalls text next).isSome = true -> images = []) := by
  cases role with
  | user => exact iff_of_true trivial fun impossible => by cases impossible
  | assistant =>
      cases calls with
      | nil => exact iff_of_true trivial fun _ some => absurd rfl some
      | cons call rest =>
          cases reasoning with
          | none => exact iff_of_true trivial fun _ _ _ impossible => by cases impossible
          | some reasoning =>
              constructor
              · intro clear _ _ text same
                rw [← Option.some_inj.mp same]
                exact clear
              · intro clear
                exact clear rfl (List.cons_ne_nil _ _) reasoning rfl

theorem isImageOnly_turn (role : Role) (content : Option SpecContent) (calls : List JsonObject)
    (reasoning : Option String) :
    isImageOnlyUserMessage (.turn role content calls reasoning) =
      isImageOnlyUserMessage (.turn role content [] none) := by
  cases role with
  | assistant => rfl
  | user =>
      cases content with
      | none => rfl
      | some content => cases content <;> rfl

theorem quiet_of_isImageOnly {message : SpecMessage} (only : isImageOnlyUserMessage message = true) :
    Quiet message ∧ toolCallId message = none ∧ isToolMessage message = false := by
  cases message with
  | tool content id => cases only
  | turn role content calls reasoning =>
      cases role with
      | user => exact ⟨trivial, rfl, rfl⟩
      | assistant => cases only

theorem clear_formatFrom {state : FormatState} {messages : List Message}
    (apart : ImagesApart env imageFormat options state messages) :
    Clear (formatFrom env imageFormat options state messages) := by
  induction messages generalizing state with
  | nil => exact trivial
  | cons base rest ih =>
      have clearAnswers := clear_append_quiet
        (fun _ => quiet_writtenAnswers env imageFormat options base) (ih apart.2)
      rw [formatFrom_cons]
      split
      · refine ⟨?_, clearAnswers⟩
        rw [writtenTurn, clearBehind_turn_iff, ne_eq, List.map_eq_nil_iff]
        intro role some reasoning reasoned content id images next later same onlyImages split
        rcases Option.isSome_iff_exists.mp split with ⟨nextCalls, splits⟩
        rcases splitCalls_eq_some splits with ⟨nextContent, rfl, noContent, someCalls⟩
        rcases List.exists_cons_of_ne_nil someCalls with ⟨call, calls, rfl⟩
        have quiet : forall message, message ∈ SpecMessage.tool content id :: images -> Quiet message := by
          intro message member
          rcases List.mem_cons.mp member with rfl | image
          · exact trivial
          · exact (quiet_of_isImageOnly (onlyImages message image)).1
        rcases split_formatFrom env imageFormat options
          (fun _ => quiet_writtenAnswers env imageFormat options base) quiet same with
          ⟨between, following, others, rfl, written, turn⟩
        rw [writtenTurn, SpecMessage.turn.injEq] at turn
        rcases turn with ⟨nextRole, sameContent, sameCalls, sameReasoning⟩
        have calling : messageCalls following ≠ [] := by
          intro none
          rw [none] at sameCalls
          cases sameCalls
        have answers : ((base :: between).flatMap messageAnswers).map ToolResponse.id = [id] := by
          have ids := congrArg (List.filterMap toolCallId) written
          have none : images.filterMap toolCallId = [] :=
            List.filterMap_eq_nil_iff.mpr fun image member => (quiet_of_isImageOnly (onlyImages image member)).2.1
          rw [List.filterMap_append, writtenAnswers, toolIds_answers, toolIds_formatFrom, ← List.map_append] at ids
          rw [List.flatMap_cons, ← ids, List.filterMap_cons]
          simp only [toolCallId, none]
        rcases List.map_eq_singleton_iff.mp answers with ⟨answer, one, _⟩
        have onlyBetween : forall message, message ∈ between -> writesTurn env imageFormat options message = true ->
            writesOnlyImages env imageFormat options message = true := by
          intro message member writes
          rcases mem_formatFrom_of_writesTurn env imageFormat options
            (formatMessage env imageFormat options state base).2 member writes with ⟨reached, inside⟩
          have inQuiet := List.mem_append_right (writtenAnswers env imageFormat options base) inside
          rw [← written] at inQuiet
          rcases List.mem_cons.mp inQuiet with impossible | image
          · cases impossible
          · have only := onlyImages _ image
            rw [writtenTurn, isImageOnly_turn] at only
            exact only
        have plain := apart.1 role some reasoning between following others rfl reasoned nextRole calling
          (by rw [sameContent]; exact noContent) sameReasoning onlyBetween answer one
        apply List.eq_nil_iff_forall_not_mem.mpr
        intro image member
        have noImages : forall other, other ∈ (base :: between).flatMap messageAnswers ->
            sendsImages options other = false := by
          intro other inside
          rw [one] at inside
          rw [List.mem_singleton.mp inside]
          exact plain.1
        rw [List.flatMap_cons] at noImages
        have inWritten := List.mem_cons_of_mem (SpecMessage.tool content id) member
        rw [written] at inWritten
        have isTool : isToolMessage image = true := by
          rcases List.mem_append.mp inWritten with inAnswers | inBetween
          · exact tools_of_answers env imageFormat options
              (fun other inBase => noImages other (List.mem_append_left _ inBase)) inAnswers
          · exact tools_of_plain env imageFormat options
              (fun other inRest => noImages other (List.mem_append_right _ inRest)) plain.2 inBetween
        rw [(quiet_of_isImageOnly (onlyImages image member)).2.2] at isTool
        cases isTool
      · exact clearAnswers

/-! ## Requests -/

theorem turnReasoning_of_off (off : options.preserveThinkingContext = false) (state : FormatState)
    (message : Message) : turnReasoning options state message = none := by
  have notOn : ¬ options.preserveThinkingContext = true := by
    rw [off]
    exact Bool.false_ne_true
  rw [turnReasoning, if_neg fun both => notOn both.1, if_neg fun both => notOn both.1]

theorem bare_of_off (off : options.preserveThinkingContext = false) {state : FormatState} {messages : List Message}
    {role : Role} {content : Option SpecContent} {calls : List JsonObject} {reasoning : Option String}
    (member : SpecMessage.turn role content calls reasoning ∈ formatFrom env imageFormat options state messages) :
    reasoning = none := by
  induction messages generalizing state with
  | nil => exact absurd member List.not_mem_nil
  | cons message rest ih =>
      rw [formatFrom_cons] at member
      rcases List.mem_append.mp member with inTurn | written
      · split at inTurn
        · have same := List.mem_singleton.mp inTurn
          rw [writtenTurn, turnReasoning_of_off options off, SpecMessage.turn.injEq] at same
          exact same.2.2.2
        · exact absurd inTurn List.not_mem_nil
      · rcases List.mem_append.mp written with inAnswers | later
        · rcases List.mem_flatMap.mp inAnswers with ⟨answer, _, inAnswer⟩
          rcases toolResultMessages_eq env imageFormat options answer with ⟨_, images, same, _⟩
          rw [same] at inAnswer
          rcases List.mem_cons.mp inAnswer with impossible | image
          · cases impossible
          · rcases List.mem_map.mp image with ⟨_, _, sameImage⟩
            rw [imageMessage, SpecMessage.turn.injEq] at sameImage
            exact sameImage.2.2.2.symm
        · exact ih later

theorem ordered_formatMessages_iff (messages : List Message) :
    Ordered (formatMessagesWithOptions env messages imageFormat options) ↔
      Ordered (mergeSplitToolCallMessages (formatFrom env imageFormat options FormatState.start messages)) := by
  rw [formatMessagesWithOptions]
  split
  · exact ordered_inline_iff _ _
  · exact Iff.rfl

/-- A request is ordered if calls and results adjoin in the conversation and no images
are sent between the messages of a split turn.  Where reasoning is not carried along, it
is ordered only if they adjoin. -/
theorem formatMessages_ordered (messages : List Message) :
    (Adjoining env imageFormat options messages -> ImagesApart env imageFormat options FormatState.start messages ->
      Ordered (formatMessagesWithOptions env messages imageFormat options)) ∧
    (options.preserveThinkingContext = false ->
      (Ordered (formatMessagesWithOptions env messages imageFormat options) ↔
        Adjoining env imageFormat options messages)) := by
  have written := ordered_formatFrom_iff env imageFormat options FormatState.start messages
  rw [ordered_formatMessages_iff, mergeSplitToolCallMessages]
  constructor
  · intro adjoining apart
    exact mergeSplit_ordered _ (written.mpr adjoining) (clear_formatFrom env imageFormat options apart)
  · intro off
    rw [mergeSplit_eq_self _ fun _ _ _ _ => bare_of_off env imageFormat options off]
    exact written

end Conversation

namespace Example

open CallReplay.Example (env result)

def call (id : String) : MessageContentBlock :=
  .newToolRequest id (.ok ⟨"list", none⟩)

def answer (id : String) (content : List ContentBlock) : MessageContentBlock :=
  .toolResponse ⟨id, .ok ⟨content, none, none⟩, none⟩

def text : ContentBlock := .text ⟨"x", none⟩

def image : ContentBlock := .image ⟨"aGk=", "image/png", none⟩

def thought : MessageContentBlock := .thinking ⟨"t", ""⟩

def said (message : Message) (content : List MessageContentBlock) : Message :=
  { message with content := content }

/-- One turn of the model that was split into two messages. -/
def splitTurn : List Message :=
  [said (.user 0) [.plainText "go"], said (.assistant 0) [thought, call "a"], said (.user 0) [answer "a" [text]],
    said (.assistant 0) [thought, call "b"], said (.user 0) [answer "b" [text]]]

/-- Two calls whose first result has an image. -/
def imageFirst : List Message :=
  [said (.user 0) [.plainText "go"], said (.assistant 0) [call "a", call "b"],
    said (.user 0) [answer "a" [image], answer "b" [text]]]

def options : FormatOptions := ⟨true, true, none⟩

end Example

open Example in
theorem splitTurn_ordered :
    Ordered (formatMessagesWithOptions CallReplay.Example.env splitTurn .openAi options) := by
  refine (formatMessages_ordered CallReplay.Example.env .openAi options splitTurn).1 ?_ ?_
  · refine ⟨fun impossible => (by cases impossible), fun _ _ => ?_, fun impossible => (by cases impossible),
      fun _ _ => ?_, fun impossible => (by cases impossible), trivial⟩
    · decide
    · decide
  · refine ⟨fun impossible => (by cases impossible), ?_, fun impossible => (by cases impossible), ?_,
      fun impossible => (by cases impossible), trivial⟩
    · intro _ _ reasoning between next later split _ role _ _ _ _ given one
      match between, split with
      | [], split =>
          cases split
          cases role
      | [_], split =>
          cases split
          have same : [_] = [given] := one
          rw [← List.head_eq_of_cons_eq same]
          refine ⟨rfl, fun message member => ?_⟩
          rw [List.mem_singleton.mp member]
          rfl
      | [_, _], split =>
          cases split
          cases role
      | _ :: _ :: _ :: [], split => cases split
      | _ :: _ :: _ :: _ :: _, split => cases split
    · intro _ _ reasoning between next later split _ role
      match between, split with
      | [], split =>
          cases split
          cases role
      | _ :: [], split => cases split
      | _ :: _ :: _, split => cases split

open Example in
/-- The image of a result stands between the results of a message with two calls. -/
theorem imageFirst_not_ordered :
    (fixConversation TextCodec.ascii 0 ⟨imageFirst⟩).1.messages = imageFirst ∧
      ¬ Ordered (formatMessagesWithOptions CallReplay.Example.env imageFirst .openAi options) := by
  refine ⟨by decide +kernel, ?_⟩
  intro ordered
  have answered := ordered.2.1 (List.cons_ne_nil _ _)
  revert answered
  decide

end OpenAi
end AIBuddy
