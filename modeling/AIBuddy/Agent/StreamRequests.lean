import AIBuddy.Agent.Inference
import AIBuddy.Agent.TurnGrowth

namespace AIBuddy

/-!
# The requests of a stream

A provider may repeat the id of a request within one stream.  The repetition is
dropped, thinking that moves to another message takes no request with it, and
chunks of one message are joined without losing one, so the collected messages ask
about every id at most once.
-/

/-! ## Blocks -/

/-- The ids that blocks ask about. -/
def blockIds (content : List MessageContentBlock) : List String :=
  (content.filterMap MessageContentBlock.asToolRequest).map ToolRequest.id

theorem blockIds_append (front back : List MessageContentBlock) :
    blockIds (front ++ back) = blockIds front ++ blockIds back := by
  unfold blockIds
  rw [List.filterMap_append, List.map_append]

theorem blockIds_cons_other {block : MessageContentBlock} (other : block.asToolRequest = none)
    (content : List MessageContentBlock) : blockIds (block :: content) = blockIds content := by
  unfold blockIds
  rw [List.filterMap_cons_none other]

theorem blockIds_cons_request {block : MessageContentBlock} {request : ToolRequest}
    (asks : block.asToolRequest = some request) (content : List MessageContentBlock) :
    blockIds (block :: content) = request.id :: blockIds content := by
  unfold blockIds
  rw [List.filterMap_cons_some asks, List.map_cons]

theorem retainNewRequests_ids (seen : List String) (content : List MessageContentBlock) :
    (blockIds (retainNewRequests seen content).1).Nodup ∧
      (forall id, id ∈ blockIds (retainNewRequests seen content).1 -> id ∉ seen) ∧
        forall id, id ∈ (retainNewRequests seen content).2 ↔
          id ∈ seen ∨ id ∈ blockIds (retainNewRequests seen content).1 := by
  induction content generalizing seen with
  | nil => exact ⟨List.nodup_nil, fun _ member => absurd member List.not_mem_nil, by simp [retainNewRequests, blockIds]⟩
  | cons block rest ih =>
      unfold retainNewRequests
      cases asks : block.asToolRequest with
      | none =>
          simp only [blockIds_cons_other asks]
          exact ih seen
      | some request =>
          simp only
          by_cases repeated : request.id ∈ seen
          · rw [if_pos repeated]
            exact ih seen
          · rw [if_neg repeated]
            simp only [blockIds_cons_request asks]
            rcases ih (request.id :: seen) with ⟨distinct, fresh, noted⟩
            refine ⟨?_, ?_, ?_⟩
            · refine List.nodup_cons.mpr ⟨fun member => ?_, distinct⟩
              exact fresh _ member (List.mem_cons_self ..)
            · intro id member old
              rcases List.mem_cons.mp member with rfl | later
              · exact repeated old
              · exact fresh id later (List.mem_cons_of_mem _ old)
            · intro id
              rw [noted id, List.mem_cons, List.mem_cons]
              tauto

theorem blockIds_insertBeforeRequest {blocks : List MessageContentBlock} (quiet : blockIds blocks = [])
    (content : List MessageContentBlock) : blockIds (insertBeforeRequest blocks content) = blockIds content := by
  induction content with
  | nil => rfl
  | cons block rest ih =>
      unfold insertBeforeRequest
      cases asks : block.asToolRequest with
      | none =>
          simp only [Option.isSome_none, Bool.false_eq_true, if_false, blockIds_cons_other asks]
          exact ih
      | some request =>
          simp only [Option.isSome_some, if_true]
          rw [blockIds_append, quiet, List.nil_append]

theorem blockIds_thinking (content : List MessageContentBlock) : blockIds (content.filter isThinking) = [] := by
  unfold blockIds
  rw [List.map_eq_nil_iff, List.filterMap_eq_nil_iff]
  intro block member
  have thinks := (List.mem_filter.mp member).2
  cases block <;> first | rfl | contradiction

/-! ## Messages -/

theorem askedIds_map {messages : List Message} {change : Message -> Message}
    (keeps : forall message, message ∈ messages -> (change message).toolRequestIds = message.toolRequestIds) :
    askedIds (messages.map change) = askedIds messages := by
  unfold askedIds
  rw [List.flatMap_map]
  exact List.flatMap_congr keeps

theorem askedIds_filter {messages : List Message} {keep : Message -> Bool}
    (quiet : forall message, message ∈ messages -> keep message = false -> message.toolRequestIds = []) :
    askedIds (messages.filter keep) = askedIds messages := by
  induction messages with
  | nil => rfl
  | cons first rest ih =>
      have later := ih fun message member => quiet message (List.mem_cons_of_mem _ member)
      unfold askedIds at later ⊢
      cases kept : keep first with
      | true => rw [List.filter_cons_of_pos kept, List.flatMap_cons, List.flatMap_cons, later]
      | false =>
          rw [List.filter_cons_of_neg (by simp [kept]), later, List.flatMap_cons,
            quiet first (List.mem_cons_self ..) kept, List.nil_append]

theorem normalizeToolCallThinking_ids (accumulator : List Message) (chunk : Message) :
    askedIds (normalizeToolCallThinking accumulator chunk).1 = askedIds accumulator ∧
      (normalizeToolCallThinking accumulator chunk).2.toolRequestIds = chunk.toolRequestIds := by
  unfold normalizeToolCallThinking
  split
  · exact ⟨rfl, rfl⟩
  · extract_lets priorThinking stripped remaining
    have quiet : blockIds priorThinking = [] := by
      unfold priorThinking blockIds
      rw [List.filterMap_flatMap, List.map_flatMap, List.flatMap_eq_nil_iff]
      exact fun message _ => blockIds_thinking message.content
    have sameRequests : askedIds remaining = askedIds accumulator := by
      have emptied : askedIds remaining = askedIds stripped := by
        apply askedIds_filter
        intro message _ empty
        have none : message.content = [] := by simpa using empty
        unfold Message.toolRequestIds Message.toolRequests
        rw [none]
        rfl
      rw [emptied]
      apply askedIds_map
      intro message _
      split
      · case _ lends =>
          have idle : message.toolRequests = [] := by
            simp only [lendsThinking, Bool.and_eq_true, List.isEmpty_iff] at lends
            exact lends.2
          have still : (message.content.filter fun block => !isThinking block).filterMap
              MessageContentBlock.asToolRequest = [] := by
            have fewer : ((message.content.filter fun block => !isThinking block).filterMap
                MessageContentBlock.asToolRequest).Sublist message.toolRequests :=
              List.filter_sublist.filterMap _
            rw [idle] at fewer
            exact List.sublist_nil.mp fewer
          unfold Message.toolRequestIds
          rw [idle]
          exact congrArg (List.map ToolRequest.id) still
      · rfl
    split
    · exact ⟨sameRequests, rfl⟩
    · exact ⟨sameRequests, blockIds_insertBeforeRequest quiet chunk.content⟩

/-! ## Who speaks -/

theorem role_withInference (inference : InferenceMetadata) (names : List String) (message : Message) :
    (withInferenceIfAssistant inference (noteAdvertisedTools names message)).role = message.role := by
  unfold withInferenceIfAssistant noteAdvertisedTools
  split <;> split <;> rfl

end AIBuddy
