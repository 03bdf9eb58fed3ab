import AIBuddy.Agent.ToolOperations
import AIBuddy.Agent.Offers

namespace AIBuddy

open LastSuffix
open Runs

/-!
# Pairs of messages that a summary replaces

Tool pair compaction picks the oldest calls that the agent sees and hides the two
messages that mention a call, when these are the only ones and answer exactly
what they request.  Each pair is replaced by one summary.
-/

/-- Two messages that are hidden together, and the summary in their place. -/
structure HiddenPair where
  toolId : String
  first : Message
  second : Message
  firstId : String
  secondId : String
  summary : Message

namespace HiddenPair

def hide (messageId : String) (message : Message) : AIBuddyEffect :=
  .conversation (.setMessageVisibility messageId message.isUserVisible false)

/-- What replaces the pair by its summary. -/
def effects (pair : HiddenPair) : List AIBuddyEffect :=
  [hide pair.firstId pair.first, hide pair.secondId pair.second, .append pair.summary]

def messageIds (pair : HiddenPair) : List String :=
  [pair.firstId, pair.secondId]

def messages (pair : HiddenPair) : List Message :=
  [pair.first, pair.second]

/-- Whether a message of the pair requests a call. -/
def Requests (pair : HiddenPair) (id : String) : Prop :=
  Exists fun message => message ∈ pair.messages ∧ id ∈ message.toolRequestIds

/-- Whether a message of the pair answers a call. -/
def Answers (pair : HiddenPair) (id : String) : Prop :=
  Exists fun message => message ∈ pair.messages ∧ id ∈ message.toolResponseIds

/-- A pair that may be hidden: its messages are the only ones that mention the
call, they answer exactly what they request, and the agent sees the request and
the response. -/
structure Valid (pair : HiddenPair) (conversation : List Message) : Prop where
  only : (conversation.filter fun message => message.id.isSome && message.mentionsTool pair.toolId) = pair.messages
  firstId : pair.first.id = some pair.firstId
  secondId : pair.second.id = some pair.secondId
  closed : forall id, pair.Requests id ↔ pair.Answers id
  request : Exists fun message => message ∈ conversation ∧ message.isAgentVisible = true ∧
    pair.toolId ∈ message.toolRequestIds
  response : Exists fun message => message ∈ conversation ∧ message.isAgentVisible = true ∧
    pair.toolId ∈ message.toolResponseIds
  summary : pair.summary.role = .user ∧ pair.summary.metadata = MessageMetadata.agentOnly

end HiddenPair

/-! ## Pairs that are picked -/

theorem sameIds_iff (left right : List String) :
    sameIds left right = true ↔ forall id, id ∈ left ↔ id ∈ right := by
  simp only [sameIds, Bool.and_eq_true, List.all_eq_true, List.contains_iff_mem]
  constructor
  · rintro ⟨forward, backward⟩ id
    exact ⟨forward id, backward id⟩
  · intro same
    exact ⟨fun id => (same id).mp, fun id => (same id).mpr⟩

theorem mem_toolRequestIds_of_projection {message : Message} {id : String}
    (member : id ∈ message.agentVisibleContent.toolRequestIds) : id ∈ message.toolRequestIds := by
  simp only [Message.toolRequestIds, Message.toolRequests, Message.agentVisibleContent, List.mem_map,
    List.mem_filterMap] at member ⊢
  rcases member with ⟨request, ⟨block, ⟨original, inContent, projected⟩, isRequest⟩, rfl⟩
  refine ⟨request, ⟨original, inContent, ?_⟩, rfl⟩
  cases original with
  | toolRequest asked =>
      cases projected
      exact isRequest
  | toolResponse response =>
      simp only [MessageContentBlock.filterForAudience] at projected
      split at projected <;> cases projected <;> contradiction
  | _ =>
      simp only [MessageContentBlock.filterForAudience] at projected
      first
      | (split at projected <;> cases projected <;> contradiction)
      | (cases projected; contradiction)

theorem mem_toolResponseIds_of_projection {message : Message} {id : String}
    (member : id ∈ message.agentVisibleContent.toolResponseIds) : id ∈ message.toolResponseIds := by
  simp only [Message.toolResponseIds, Message.agentVisibleContent, List.mem_filterMap, Option.map_eq_some_iff]
    at member ⊢
  rcases member with ⟨block, ⟨original, inContent, projected⟩, response, isResponse, rfl⟩
  cases original with
  | toolResponse answered =>
      refine ⟨_, inContent, answered, rfl, ?_⟩
      simp only [MessageContentBlock.filterForAudience] at projected
      split at projected <;> cases projected <;> cases isResponse <;> rfl
  | _ =>
      simp only [MessageContentBlock.filterForAudience] at projected
      first
      | (split at projected <;> cases projected <;> contradiction)
      | (cases projected; contradiction)

theorem summarizeToolCall_visible {env : StepEnv} {conversation : List Message} {toolId : String} {summary : Message}
    (summarized : summarizeToolCall env conversation toolId = .ok summary) :
    (Exists fun message => message ∈ conversation ∧ message.isAgentVisible = true ∧
      toolId ∈ message.toolRequestIds) ∧
    (Exists fun message => message ∈ conversation ∧ message.isAgentVisible = true ∧
      toolId ∈ message.toolResponseIds) ∧
    summary.role = .user ∧ summary.metadata = MessageMetadata.agentOnly := by
  unfold summarizeToolCall at summarized
  simp only at summarized
  split at summarized
  · case _ seen =>
      rw [Bool.and_eq_true, List.any_eq_true, List.any_eq_true] at seen
      rcases seen with ⟨⟨asking, askingSeen, asks⟩, ⟨answering, answeringSeen, answers⟩⟩
      rcases List.mem_map.mp (List.mem_filter.mp askingSeen).1 with ⟨asker, askerMatches, rfl⟩
      rcases List.mem_map.mp (List.mem_filter.mp answeringSeen).1 with ⟨answerer, answererMatches, rfl⟩
      rcases List.mem_filter.mp askerMatches with ⟨askerMentions, askerVisible⟩
      rcases List.mem_filter.mp answererMatches with ⟨answererMentions, answererVisible⟩
      refine ⟨⟨asker, (List.mem_filter.mp askerMentions).1, askerVisible, ?_⟩,
        ⟨answerer, (List.mem_filter.mp answererMentions).1, answererVisible, ?_⟩, ?_⟩
      · exact mem_toolRequestIds_of_projection (List.contains_iff_mem.mp asks)
      · exact mem_toolResponseIds_of_projection (List.contains_iff_mem.mp answers)
      · rcases (bind_eq_ok_iff _ _ _).mp summarized with ⟨response, _, same⟩
        cases (pure_eq_ok_iff _ _).mp same
        exact ⟨rfl, rfl⟩
  · contradiction

/-- The pairs hidden so far, with the effects and the message ids they account
for. -/
structure PairsHidden (conversation : List Message) (toolIds : List String) (state : List AIBuddyEffect × List String)
    (pairs : List HiddenPair) : Prop where
  effects : state.1 = pairs.flatMap HiddenPair.effects
  messageIds : state.2 = pairs.flatMap HiddenPair.messageIds
  valid : forall pair, pair ∈ pairs -> pair.Valid conversation ∧ pair.toolId ∈ toolIds
  apart : pairs.Pairwise fun earlier later => forall id, id ∈ earlier.messageIds -> id ∉ later.messageIds

/-- A call adds its pair, or nothing. -/
theorem summarizePair_hidden (env : StepEnv) {conversation : List Message} {toolIds : List String}
    {state : List AIBuddyEffect × List String} {pairs : List HiddenPair}
    (hidden : PairsHidden conversation toolIds state pairs) (toolId : String) :
    Exists fun more => PairsHidden conversation (toolIds ++ [toolId]) (summarizePair env conversation state toolId)
      (pairs ++ more) := by
  have kept : PairsHidden conversation (toolIds ++ [toolId]) state (pairs ++ []) := by
    rw [List.append_nil]
    exact ⟨hidden.effects, hidden.messageIds,
      fun pair member => ⟨(hidden.valid pair member).1, List.mem_append_left _ (hidden.valid pair member).2⟩,
      hidden.apart⟩
  unfold summarizePair
  simp only
  split
  · exact ⟨[], kept⟩
  case _ picked =>
    simp only [Bool.or_eq_true, Bool.not_eq_true', not_or, bne_iff_ne, ne_eq, Decidable.not_not,
      Bool.not_eq_true, Bool.not_eq_false] at picked
    rcases picked with ⟨⟨two, fresh⟩, same⟩
    split
    · exact ⟨[], kept⟩
    case _ summary summarized =>
      rcases List.length_eq_two.mp two with ⟨first, second, pairOf⟩
      have ids : forall message, message ∈ [first, second] -> message.id.isSome = true := by
        intro message member
        rw [← pairOf] at member
        have shown := (List.mem_filter.mp member).2
        rw [Bool.and_eq_true] at shown
        exact shown.1
      rcases Option.isSome_iff_exists.mp (ids first (by simp)) with ⟨firstId, isFirst⟩
      rcases Option.isSome_iff_exists.mp (ids second (by simp)) with ⟨secondId, isSecond⟩
      rcases summarizeToolCall_visible summarized with ⟨request, response, shape⟩
      rw [pairOf] at fresh same ⊢
      simp only [List.filterMap_cons, isFirst, isSecond, List.filterMap_nil, Option.map_some] at fresh ⊢
      refine ⟨[⟨toolId, first, second, firstId, secondId, summary⟩], ?_, ?_, ?_, ?_⟩
      · simp [hidden.effects, HiddenPair.effects, HiddenPair.hide]
      · simp [hidden.messageIds, HiddenPair.messageIds]
      · intro pair member
        rcases List.mem_append.mp member with earlier | last
        · exact ⟨(hidden.valid pair earlier).1, List.mem_append_left _ (hidden.valid pair earlier).2⟩
        · cases List.mem_singleton.mp last
          refine ⟨⟨pairOf, isFirst, isSecond, fun id => ?_, request, response, shape⟩, by simp⟩
          have closed := (sameIds_iff _ _).mp same id
          simpa only [HiddenPair.Requests, HiddenPair.Answers, HiddenPair.messages, List.mem_flatMap] using closed
      · rw [List.pairwise_append]
        refine ⟨hidden.apart, List.pairwise_singleton _ _, ?_⟩
        intro earlier member later isLast id inEarlier inLater
        cases List.mem_singleton.mp isLast
        have already : id ∈ state.2 := by
          rw [hidden.messageIds]
          exact List.mem_flatMap.mpr ⟨earlier, member, inEarlier⟩
        have unseen := List.any_eq_false.mp fresh id inLater
        exact unseen (List.contains_iff_mem.mpr already)

/-- All picked calls together hide pairs. -/
theorem foldl_summarizePair_hidden (env : StepEnv) (conversation : List Message) (toolIds : List String) :
    Exists fun pairs => PairsHidden conversation toolIds
      (toolIds.foldl (summarizePair env conversation) ([], [])) pairs := by
  induction toolIds using List.reverseRecOn with
  | nil => exact ⟨[], rfl, rfl, fun pair member => by contradiction, .nil⟩
  | append_singleton earlier toolId ih =>
      rcases ih with ⟨pairs, hidden⟩
      rcases summarizePair_hidden env hidden toolId with ⟨more, extended⟩
      exact ⟨pairs ++ more, by rw [List.foldl_concat]; exact extended⟩

/-! ## Calls of the current turn -/

/-- The ids of the calls that the agent sees. -/
def visibleToolIds (messages : List Message) : List String :=
  (messages.filter Message.isAgentVisible).flatMap fun message => message.toolRequests.map ToolRequest.id

theorem visibleToolIds_length_le (turn : List Message) :
    (visibleToolIds turn).length ≤ (turn.flatMap Message.toolRequests).length := by
  induction turn with
  | nil => exact Nat.le_refl _
  | cons message rest ih =>
      unfold visibleToolIds at ih ⊢
      rw [List.filter_cons, List.flatMap_cons, List.length_append]
      split
      · simpa using ih
      · omega

theorem toolIdsToSummarize_before {before turn : List Message} {cutoff : Nat} {toolId : String}
    (picked : toolId ∈ toolIdsToSummarize (before ++ turn) cutoff (turn.flatMap Message.toolRequests).length) :
    Exists fun message => message ∈ before ∧ message.isAgentVisible = true ∧ toolId ∈ message.toolRequestIds := by
  have split : visibleToolIds (before ++ turn) = visibleToolIds before ++ visibleToolIds turn := by
    simp [visibleToolIds]
  have protected' := visibleToolIds_length_le turn
  have inBefore : toolId ∈ visibleToolIds before := by
    unfold toolIdsToSummarize at picked
    change toolId ∈ (if (visibleToolIds (before ++ turn)).length - _ ≤ _ then [] else
      (visibleToolIds (before ++ turn)).take toolCallSummarizationBatchSize) at picked
    rw [split, List.length_append] at picked
    split at picked
    · contradiction
    · case _ enough =>
        have long : toolCallSummarizationBatchSize ≤ (visibleToolIds before).length := by omega
        rw [List.take_append_of_le_length long] at picked
        exact List.mem_of_mem_take picked
  rcases List.mem_flatMap.mp inBefore with ⟨message, member, requested⟩
  rcases List.mem_filter.mp member with ⟨inMessages, visible⟩
  exact ⟨message, inMessages, visible, requested⟩

/-! ## The operation -/

/-- Whether a message belongs to one of the pairs. -/
def Hidden (pairs : List HiddenPair) (message : Message) : Prop :=
  Exists fun pair => pair ∈ pairs ∧ message ∈ pair.messages

/-- Whenever tool pair compaction applies, its effects hide pairs of messages,
each once and with one summary.  A pair consists of the only messages that
mention a call which the agent saw requested before the turn and saw answered,
and it answers exactly the calls that it requests.  So a call loses a response
only with a request, and a message of the turn is hidden only when it mentions a
call from before the turn. -/
theorem toolPairCompactionRun_pairs {machine : Machine} {env : StepEnv} {conversation : List Message}
    {result : StepResult}
    (ran : toolPairCompactionRun machine env conversation = .ok (.applied result)) :
    Exists fun before => Exists fun turn => Exists fun pairs : List HiddenPair =>
      conversation = before ++ turn ∧ turn? conversation = some turn ∧ pairs ≠ [] ∧
      result.effects = pairs.flatMap HiddenPair.effects ∧
      (forall pair, pair ∈ pairs -> pair.Valid conversation) ∧
      (pairs.Pairwise fun earlier later => forall id, id ∈ earlier.messageIds -> id ∉ later.messageIds) ∧
      (forall message id, Hidden pairs message -> id ∈ message.toolResponseIds ->
        Exists fun request => Hidden pairs request ∧ id ∈ request.toolRequestIds) ∧
      forall message, message ∈ turn -> Hidden pairs message ->
        Exists fun id => message.mentionsTool id = true ∧
          Exists fun earlier => earlier ∈ before ∧ earlier.isAgentVisible = true ∧
            id ∈ earlier.toolRequestIds := by
  unfold toolPairCompactionRun at ran
  split at ran
  · cases ran
  simp only [bind_eq_ok_iff, messagesSinceKickoff_eq_ok_iff, pure_eq_ok_iff] at ran
  rcases ran with ⟨turn, isTurn, returned⟩
  rcases suffixFromLast_isSuffix isTurn with ⟨before, whole⟩
  rcases foldl_summarizePair_hidden env conversation (toolIdsToSummarize conversation machine.toolCallCutoff
    (turn.flatMap Message.toolRequests).length) with ⟨pairs, hidden⟩
  split at returned
  · cases returned
  case _ filled =>
    have effects : result.effects = pairs.flatMap HiddenPair.effects := by
      rw [← hidden.effects]
      cases returned
      rfl
    refine ⟨before, turn, pairs, whole.symm, isTurn, ?_, effects, fun pair member => (hidden.valid pair member).1,
      hidden.apart, ?_, ?_⟩
    · rintro rfl
      rw [hidden.effects] at filled
      exact filled rfl
    · rintro message id ⟨pair, member, inPair⟩ answers
      rcases ((hidden.valid pair member).1.closed id).mpr ⟨message, inPair, answers⟩ with ⟨request, isRequest, asks⟩
      exact ⟨request, ⟨pair, member, isRequest⟩, asks⟩
    · rintro message inTurn ⟨pair, member, inPair⟩
      have valid := hidden.valid pair member
      rw [← valid.1.only] at inPair
      have mentions := (List.mem_filter.mp inPair).2
      rw [Bool.and_eq_true] at mentions
      have picked := valid.2
      rw [← whole] at picked
      exact ⟨pair.toolId, mentions.2, toolIdsToSummarize_before picked⟩

namespace ToolPairExample

def machine : Machine :=
  { Machine.plain with toolPairCompactionEnabled := true, toolCallCutoff := 0 }

def call : ToolResult CallToolRequestParams := .ok ⟨"t", none⟩

/-- A request and its answer. -/
def pair (id : String) : List Message :=
  [((Message.assistant 0).withToolRequest id call).withId (id ++ "-request"),
    (answerMessage Machine.plain.codec 0 [⟨id, .ok (textResult false ""), none⟩]).withId (id ++ "-response")]

def kickoff (id : String) : Message :=
  ((Message.user 0).withContent (.plainText "hi")).withId id

/-- Eleven answered calls, and a turn whose first call has no answer yet. -/
def conversation : List Message :=
  kickoff "k1" :: ["a", "b", "c", "d", "e", "f", "g", "h", "i", "j", "k"].flatMap pair ++
    [kickoff "k2", ((Message.assistant 0).withToolRequest "now" call).withId "now-request"]

/-- Eleven answered calls, the first of them answered only in the next turn. -/
def lateConversation : List Message :=
  kickoff "k1" :: (pair "a").take 1 ++ ["b", "c", "d", "e", "f", "g", "h", "i", "j", "k"].flatMap pair ++
    kickoff "k2" :: (pair "a").drop 1

/-- Whether an operation hides the message with an id. -/
def hides (messageId : String) : OperationResult -> Bool
  | .notApplicable => false
  | .applied result => result.effects.any fun effect =>
      match effect with
      | .conversation (.setMessageVisibility hidden _ _) => hidden == messageId
      | _ => false

end ToolPairExample

/-- While a call of the turn is not answered yet, old pairs are summarized and
its request stays visible without a response.  A response that came only after
the kickoff is hidden with its request. -/
theorem toolPairCompactionRun_leaves_unanswered :
    ((toolPairCompactionRun ToolPairExample.machine StepEnv.still ToolPairExample.conversation).toOption.map
        fun result => (ToolPairExample.hides "a-request" result, ToolPairExample.hides "now-request" result)) =
      some (true, false) ∧
    (Exists fun message => message ∈ ToolPairExample.conversation ∧ message.isAgentVisible = true ∧
      message.id = some "now-request" ∧ "now" ∈ message.toolRequestIds) ∧
    "now" ∉ answeredIds ToolPairExample.conversation ∧
    ((toolPairCompactionRun ToolPairExample.machine StepEnv.still ToolPairExample.lateConversation).toOption.map
        (ToolPairExample.hides "a-response"), (turn? ToolPairExample.lateConversation).map (List.map Message.id)) =
      (some true, some [some "k2", some "a-response"]) := by
  decide

/-- The pairs of eleven answered calls. -/
theorem toolPairCompactionRun_pairs_eleven :
    Exists fun pairs : List HiddenPair => pairs ≠ [] ∧
      forall pair, pair ∈ pairs -> pair.Valid ToolPairExample.conversation := by
  have ran : Exists fun result =>
      toolPairCompactionRun ToolPairExample.machine StepEnv.still ToolPairExample.conversation =
        .ok (.applied result) := ⟨_, rfl⟩
  rcases ran with ⟨result, ran⟩
  rcases toolPairCompactionRun_pairs ran with ⟨_, _, pairs, _, _, nonempty, _, valid, _⟩
  exact ⟨pairs, nonempty, valid⟩

end AIBuddy
