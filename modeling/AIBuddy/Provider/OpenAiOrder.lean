import AIBuddy.Provider.OpenAiReplay

namespace AIBuddy
namespace OpenAi

/-!
# The order of calls and results in chat completion requests

Strict servers want the messages of role tool that answer the calls of a message right
behind it.  This holds of the messages written for a conversation if nothing else is
written between its calls and their results.  Merging the messages of a split turn
keeps the order unless an image stands between them.
-/

open CallReplay (callItemId carriedId)

/-! ## Ordered requests -/

def toolCallId : SpecMessage -> Option String
  | .tool _ id => some id
  | .turn .. => none

/-- The identifiers that the messages of role tool at the front answer. -/
def frontIds (messages : List SpecMessage) : List String :=
  (messages.takeWhile isToolMessage).filterMap toolCallId

/-- A message of the assistant with calls is followed by one message of role tool for
each of them. -/
def Answered : SpecMessage -> List SpecMessage -> Prop
  | .turn .assistant _ calls _, back => calls ≠ [] -> (calls.filterMap callItemId).Perm (frontIds back)
  | _, _ => True

def Ordered : List SpecMessage -> Prop
  | [] => True
  | first :: rest => Answered first rest ∧ Ordered rest

/-- No call message repeats the reasoning of the one before it with only a result and
images in between, unless there are no images. -/
def ClearBehind : SpecMessage -> List SpecMessage -> Prop
  | .turn .assistant _ (_ :: _) (some reasoning), back =>
      forall content id images next later, back = .tool content id :: (images ++ next :: later) ->
        (forall image, image ∈ images -> isImageOnlyUserMessage image = true) ->
        (splitCalls reasoning next).isSome = true -> images = []
  | _, _ => True

def Clear : List SpecMessage -> Prop
  | [] => True
  | first :: rest => ClearBehind first rest ∧ Clear rest

theorem frontIds_tool (content id : String) (rest : List SpecMessage) :
    frontIds (.tool content id :: rest) = id :: frontIds rest :=
  rfl

theorem frontIds_turn (role : Role) (content : Option SpecContent) (calls : List JsonObject)
    (reasoning : Option String) (rest : List SpecMessage) : frontIds (.turn role content calls reasoning :: rest) = [] :=
  rfl

theorem frontIds_append_tools {tools : List SpecMessage}
    (all : forall message, message ∈ tools -> isToolMessage message = true) (rest : List SpecMessage) :
    frontIds (tools ++ rest) = tools.filterMap toolCallId ++ frontIds rest := by
  rw [frontIds, List.takeWhile_append_of_pos all, List.filterMap_append]
  rfl

/-! ## Merging keeps the order -/

theorem splitCalls_eq_some {reasoning : String} {next : SpecMessage} {calls : List JsonObject}
    (split : splitCalls reasoning next = some calls) :
    Exists fun content => next = .turn .assistant content calls (some reasoning) ∧ hasNoContent content = true ∧
      calls ≠ [] := by
  rw [splitCalls.eq_def] at split
  split at split
  · rename_i content call rest own
    split at split
    · rename_i same
      cases split
      exact ⟨content, by rw [same.2], same.1, List.cons_ne_nil _ _⟩
    · cases split
  · cases split

/-- What holds of the gathered parts of a split turn: the results of all its calls,
and nothing else, are what was gathered. -/
structure TurnAnswered (calls : List JsonObject) (turn : SplitTurn) : Prop where
  tools : forall message, message ∈ turn.collected -> isToolMessage message = true
  answered : ((calls ++ turn.extraToolCalls).filterMap callItemId).Perm (frontIds (turn.collected ++ turn.rest))
  ordered : Ordered turn.rest
  clear : Clear turn.rest

private theorem turnAnswered_alone {content : Option SpecContent} {calls : List JsonObject}
    {reasoning : Option String} {messages : List SpecMessage} (some : calls ≠ [])
    (ordered : Ordered (.turn .assistant content calls reasoning :: messages)) (clear : Clear messages) :
    TurnAnswered calls ⟨[], [], messages⟩ where
  tools := fun _ member => absurd member List.not_mem_nil
  answered := by
    rw [List.append_nil]
    exact ordered.1 some
  ordered := ordered.2
  clear := clear

theorem scanSplit_answered (reasoning : String) (fuel : Nat) {content : Option SpecContent}
    {call : JsonObject} {calls : List JsonObject} {messages : List SpecMessage}
    (ordered : Ordered (.turn .assistant content (call :: calls) (some reasoning) :: messages))
    (clear : Clear (.turn .assistant content (call :: calls) (some reasoning) :: messages)) :
    TurnAnswered (call :: calls) (scanSplit reasoning fuel messages) := by
  induction fuel generalizing content call calls messages with
  | zero => exact turnAnswered_alone (List.cons_ne_nil _ _) ordered clear.2
  | succ fuel ih =>
      cases messages with
      | nil => exact turnAnswered_alone (List.cons_ne_nil _ _) ordered clear.2
      | cons result after =>
          rw [scanSplit]
          split
          · rename_i next later isTool found
            cases split : splitCalls reasoning next with
            | none => exact turnAnswered_alone (List.cons_ne_nil _ _) ordered clear.2
            | some nextCalls =>
                have whole := List.takeWhile_append_dropWhile (p := isImageOnlyUserMessage) (l := after)
                rw [found] at whole
                rcases splitCalls_eq_some split with ⟨nextContent, rfl, _, some⟩
                rcases List.exists_cons_of_ne_nil some with ⟨nextCall, otherCalls, rfl⟩
                cases result with
                | turn _ _ _ _ => cases isTool
                | tool resultContent id =>
                    have images : after.takeWhile isImageOnlyUserMessage = [] :=
                      clear.1 resultContent id _ _ later (congrArg (List.cons _) whole.symm)
                        (fun _ member => List.mem_takeWhile_imp member) (by rw [split]; rfl)
                    rw [images, List.nil_append] at whole
                    subst whole
                    have later := ih ordered.2.2 clear.2.2
                    have own := ordered.1 (List.cons_ne_nil _ _)
                    rw [frontIds_tool, frontIds_turn] at own
                    simp only [images]
                    refine ⟨?_, ?_, later.ordered, later.clear⟩
                    · intro message member
                      rcases List.mem_cons.mp member with rfl | inLater
                      · rfl
                      · exact later.tools message inLater
                    · rw [List.filterMap_append]
                      exact own.append later.answered
          · exact turnAnswered_alone (List.cons_ne_nil _ _) ordered clear.2

theorem frontIds_mergeSplit (fuel : Nat) (messages : List SpecMessage) :
    frontIds (mergeSplit fuel messages) = frontIds messages := by
  induction fuel generalizing messages with
  | zero => rfl
  | succ fuel ih =>
      cases messages with
      | nil => rfl
      | cons first rest =>
          cases first with
          | tool content id =>
              rw [mergeSplit, frontIds_tool, frontIds_tool, ih]
              intro _ _ _ _ impossible
              cases impossible
          | turn role content calls reasoning =>
              cases role <;> cases calls <;> cases reasoning <;> rfl

theorem ordered_append_tools {tools rest : List SpecMessage}
    (all : forall message, message ∈ tools -> isToolMessage message = true) (ordered : Ordered rest) :
    Ordered (tools ++ rest) := by
  induction tools with
  | nil => exact ordered
  | cons first others ih =>
      refine ⟨?_, ih fun message member => all message (List.mem_cons_of_mem _ member)⟩
      cases first with
      | tool content id => exact trivial
      | turn _ _ _ _ => cases all _ (List.mem_cons.mpr (Or.inl rfl))

private theorem answered_congr {first : SpecMessage} {back other : List SpecMessage}
    (same : frontIds other = frontIds back) (answered : Answered first back) : Answered first other := by
  cases first with
  | tool content id => exact trivial
  | turn role content calls reasoning =>
      cases role with
      | user => exact trivial
      | assistant =>
          intro some
          rw [same]
          exact answered some

theorem mergeSplit_ordered (fuel : Nat) {messages : List SpecMessage} (ordered : Ordered messages)
    (clear : Clear messages) : Ordered (mergeSplit fuel messages) := by
  induction fuel generalizing messages with
  | zero => exact ordered
  | succ fuel ih =>
      cases messages with
      | nil => exact ordered
      | cons first rest =>
          have kept : Ordered (first :: mergeSplit fuel rest) :=
            ⟨answered_congr (frontIds_mergeSplit fuel rest) ordered.1, ih ordered.2 clear.2⟩
          cases first with
          | tool content toolCallId => exact kept
          | turn role content toolCalls reasoning =>
              cases role with
              | user => exact kept
              | assistant =>
                  cases toolCalls with
                  | nil => exact kept
                  | cons call calls =>
                      cases reasoning with
                      | none => exact kept
                      | some reasoning =>
                          have turn := scanSplit_answered reasoning fuel ordered clear
                          have later := ih turn.ordered turn.clear
                          have same : frontIds ((scanSplit reasoning fuel rest).collected ++
                              mergeSplit fuel (scanSplit reasoning fuel rest).rest) =
                                frontIds ((scanSplit reasoning fuel rest).collected ++
                                  (scanSplit reasoning fuel rest).rest) := by
                            rw [frontIds_append_tools turn.tools, frontIds_append_tools turn.tools,
                              frontIds_mergeSplit]
                          have answered := turn.answered
                          rw [← same] at answered
                          exact ⟨fun _ => answered, ordered_append_tools turn.tools later⟩

theorem mergeSplit_eq_self (fuel : Nat) {messages : List SpecMessage}
    (bare : forall role content calls reasoning, SpecMessage.turn role content calls reasoning ∈ messages ->
      reasoning = none) : mergeSplit fuel messages = messages := by
  induction fuel generalizing messages with
  | zero => rfl
  | succ fuel ih =>
      cases messages with
      | nil => rfl
      | cons first rest =>
          have later := ih fun role content calls reasoning member =>
            bare role content calls reasoning (List.mem_cons_of_mem _ member)
          cases first with
          | tool content id =>
              rw [mergeSplit, later]
              intro _ _ _ _ impossible
              cases impossible
          | turn role content calls reasoning =>
              have none := bare role content calls reasoning (List.mem_cons.mpr (Or.inl rfl))
              subst none
              rw [mergeSplit, later]
              intro _ _ _ _ impossible
              cases impossible

theorem ordered_inline_iff (format : ThinkingPreservationFormat) (messages : List SpecMessage) :
    Ordered (inlineReasoningContent format messages) ↔ Ordered messages := by
  have front : forall back : List SpecMessage, frontIds (inlineReasoningContent format back) = frontIds back := by
    intro back
    induction back with
    | nil => rfl
    | cons first rest ih =>
        rw [inlineReasoningContent] at ih ⊢
        rw [List.map_cons]
        cases first with
        | tool content id => exact congrArg (List.cons id) ih
        | turn role content calls reasoning =>
            cases reasoning with
            | none => rfl
            | some reasoning =>
                rw [inlineReasoningMessage]
                split <;> rfl
  induction messages with
  | nil => exact Iff.rfl
  | cons first rest ih =>
      refine and_congr ?_ ih
      have same := front rest
      rw [inlineReasoningContent] at same
      cases first with
      | tool content id => exact Iff.rfl
      | turn role content calls reasoning =>
          cases role with
          | user =>
              cases reasoning with
              | none => exact Iff.rfl
              | some reasoning =>
                  rw [inlineReasoningMessage]
                  split <;> exact Iff.rfl
          | assistant =>
              cases reasoning with
              | none =>
                  rw [inlineReasoningMessage, Answered, Answered, same]
                  intro _ _ _ _ impossible
                  cases impossible
              | some reasoning =>
                  rw [inlineReasoningMessage]
                  split
                  · rw [Answered, Answered, same]
                  · rw [Answered, Answered, same]

end OpenAi
end AIBuddy
