import AIBuddy.Agent.Replacements

namespace AIBuddy

open LastSuffix
open Runs

/-!
# What a retry starts over from

A retry cuts the conversation behind the prompt of the turn.  It keeps the
prompt as it is stored, also when a compaction during the failed attempt has
hidden it from the agent; then the provider has nothing to answer.
-/

/-! ## Identified messages -/

theorem identified_concat (replacedId : Nat -> String) (front : List Message) (last : Message) :
    identified replacedId (front ++ [last]) =
      identified replacedId front ++ [ensureId (replacedId front.length) last] := by
  simp [identified, List.zipIdx_append]

/-! ## The reset -/

/-- A message that has only been given another id and a note. -/
structure SamePrompt (prompt stored : Message) : Prop where
  role : stored.role = prompt.role
  created : stored.created = prompt.created
  content : stored.content = prompt.content
  userVisible : stored.isUserVisible = prompt.isUserVisible
  agentVisible : stored.isAgentVisible = prompt.isAgentVisible

theorem samePrompt_noted (prompt : Message) (operation key id : String) (value : Json) :
    SamePrompt prompt (ensureId id (prompt.withNote operation key value)) := by
  rcases ensureId_eq id (prompt.withNote operation key value) with ⟨given, same⟩
  rw [same]
  exact ⟨rfl, rfl, rfl, rfl, rfl⟩

theorem SamePrompt.isKickoff {prompt stored : Message} (same : SamePrompt prompt stored) :
    isKickoff stored = isKickoff prompt := by
  unfold AIBuddy.isKickoff Message.isToolResponse
  rw [same.role, same.userVisible, same.content]

theorem SamePrompt.asConcatText {prompt stored : Message} (same : SamePrompt prompt stored) :
    stored.asConcatText = prompt.asConcatText := by
  unfold Message.asConcatText
  rw [same.content]

theorem resetConversation_eq {conversation rest : List Message} {prompt : Message}
    (turn : turn? conversation = some (prompt :: rest)) (attempts : Nat) :
    Exists fun before => conversation = before ++ prompt :: rest ∧
      resetConversation conversation (prompt :: rest) attempts =
        before ++ [prompt.withNote retryOperationName attemptsNote (.number (.integer (attempts + 1)))] := by
  rcases suffixFromLast_isSuffix turn with ⟨before, whole⟩
  refine ⟨before, whole.symm, ?_⟩
  have cut : conversation.take (conversation.length - (prompt :: rest).length) = before := by
    rw [← whole, List.length_append, Nat.add_sub_cancel, List.take_left]
  unfold resetConversation
  rw [cut]
  rfl

private theorem retryChecked_replaces {env : StepEnv} {retryConfig : RetryConfig}
    {conversation messages : List Message} {outcome : StepResult} {effect : AIBuddyEffect}
    (applied : retryChecked env retryConfig conversation messages = .applied outcome)
    (replaced : effect ∈ outcome.effects) (replacement : effect.replacement?.isSome = true) :
    retryAttempts messages < retryConfig.maxRetries ∧ outcome.effects = [.conversation (.replaceConversation
      (resetConversation conversation messages (retryAttempts messages)))] := by
  have alone : forall message : Message, effect ∉ [AIBuddyEffect.append message] := by
    intro message member
    cases List.mem_singleton.mp member
    contradiction
  unfold retryChecked at applied
  split at applied
  · cases applied
    exact absurd replaced (alone _)
  · contradiction
  · simp only at applied
    split at applied
    · cases applied
      exact absurd replaced (alone _)
    · rename_i within
      split at applied
      · cases applied
        exact absurd replaced (alone _)
      · cases applied
        exact ⟨Nat.not_le.mp within, rfl⟩

theorem retryRun_replaces {machine : Machine} {env : StepEnv} {agent last : Agent} {session : Session}
    {conversation : List Message} {outcome : StepResult} {effect : AIBuddyEffect}
    (ran : retryRun machine env agent session conversation = .ok (.applied outcome, last))
    (replaced : effect ∈ outcome.effects) (replacement : effect.replacement?.isSome = true) :
    Exists fun messages => turn? conversation = some messages ∧
      (Exists fun retryConfig => session.recipe.bind Recipe.retry = some retryConfig ∧
        retryAttempts messages < retryConfig.maxRetries) ∧
      outcome.effects = [.conversation (.replaceConversation
        (resetConversation conversation messages (retryAttempts messages)))] := by
  simp only [retryRun, bind_eq_ok_iff, messagesSinceKickoff_eq_ok_iff, pure_eq_ok_iff] at ran
  rcases ran with ⟨messages, turn, finished⟩
  refine ⟨messages, turn, ?_⟩
  have alone : forall message : Message, effect ∉ [AIBuddyEffect.append message] := by
    intro message member
    cases List.mem_singleton.mp member
    contradiction
  split at finished
  · unfold retryFinished at finished
    split at finished
    · cases finished
      exact absurd replaced (alone _)
    · cases finished
      exact absurd replaced (alone _)
    · simp only [Prod.mk.injEq] at finished
      rcases finished with ⟨checked, _⟩
      split at checked
      · contradiction
      · case _ retryConfig configured =>
          have reset := retryChecked_replaces checked replaced replacement
          exact ⟨⟨retryConfig, configured, reset.1⟩, reset.2⟩
  · cases finished

theorem retry_reset_stored {machine : Machine} {env : StepEnv} {state next : State} {result : StepResult}
    (advanced : advance machine env state = .ok (some result, next))
    (retried : result.appliedStep = some .retry) (replaces : result.replaces = true) :
    Exists fun prompt => Exists fun rest => turn? state.session.conversation = some (prompt :: rest) ∧
      (Exists fun retryConfig => state.session.recipe.bind Recipe.retry = some retryConfig ∧
        retryAttempts (prompt :: rest) < retryConfig.maxRetries) ∧
      Exists fun front => Exists fun id => next.session.conversation = front ++
        [ensureId id (prompt.withNote retryOperationName attemptsNote
          (.number (.integer (retryAttempts (prompt :: rest) + 1))))] := by
  rcases (advance_eq_ok_iff _ _ _ _ _).mp advanced with ⟨stepped, persisted⟩
  rcases step_applied stepped with ⟨name, before, after, flag, agent, applied⟩
  cases applied.name_eq retried
  rcases applied.ran (by decide) with ⟨_, outcome, ran, rfl⟩
  rcases List.any_eq_true.mp replaces with ⟨finished, member, isReplacement⟩
  rcases finishResult_effect member with ⟨original, position, replaced, rfl⟩
  rw [replacement?_ensureMessageIds, Option.isSome_map] at isReplacement
  rcases retryRun_replaces ran replaced isReplacement with ⟨messages, turn, within, effects⟩
  have opened : Exists fun prompt => Exists fun rest => messages = prompt :: rest := by
    rcases (suffixFromLast_eq_some_iff _ _ _).mp turn with ⟨_, prompt, rest, _, shape, _⟩
    exact ⟨prompt, rest, shape⟩
  rcases opened with ⟨prompt, rest, rfl⟩
  refine ⟨prompt, rest, turn, within, ?_⟩
  rcases resetConversation_eq turn (retryAttempts (prompt :: rest)) with ⟨earlier, whole, cut⟩
  have rows : next.session.rows = identified env.replacedId (earlier ++
      [prompt.withNote retryOperationName attemptsNote
        (.number (.integer (retryAttempts (prompt :: rest) + 1)))]) := by
    have stored : applyResult state.session (some (finishResult env .retry (env.cancelledIn .retry) outcome)) =
        .ok { state.session with rows := identified env.replacedId (resetConversation state.session.conversation
          (prompt :: rest) (retryAttempts (prompt :: rest))) } := by
      simp only [applyResult, finishResult, effects]
      rfl
    rw [stored] at persisted
    rw [← Except.ok.inj persisted, cut]
  have dated : Chronological next.session.rows := by
    have ordered : Chronological state.session.conversation := getConversation_chronological _
    rw [whole, chronological_iff_dates] at ordered
    rw [rows, chronological_identified, chronological_iff_dates]
    refine List.Pairwise.sublist ?_ ordered
    simp only [List.map_append, List.map_cons, List.map_nil]
    exact (List.Sublist.refl _).append (List.Sublist.cons_cons _ (List.nil_sublist _))
  have conversation : next.session.conversation = next.session.rows :=
    (getConversation_eq_self_iff _).mpr dated
  rw [identified_concat] at rows
  exact ⟨_, _, conversation.trans rows⟩

theorem retry_reset_conversation {machine : Machine} {env : StepEnv} {state next : State} {result : StepResult}
    {kept rest : List Message} {prompt : Message}
    (advanced : advance machine env state = .ok (some result, next))
    (retried : result.appliedStep = some .retry)
    (reset : AIBuddyEffect.conversation (.replaceConversation kept) ∈ result.effects)
    (turn : turn? state.session.conversation = some (prompt :: rest)) :
    Exists fun front => Exists fun stored => next.session.conversation = front ++ [stored] ∧
      SamePrompt prompt stored := by
  have replaces : result.replaces = true := List.any_eq_true.mpr ⟨_, reset, rfl⟩
  rcases retry_reset_stored advanced retried replaces with ⟨same, _, found, _, front, id, ends⟩
  cases Option.some.inj (found.symm.trans turn)
  exact ⟨front, _, ends, samePrompt_noted prompt _ _ _ _⟩

/-! ## What can be done with the prompt -/

/-- The conversation ends with the prompt, and the next thing to do is to answer
it: the provider is asked and sees the prompt last, or the prompt is a command. -/
def PromptOffered (prompt : Message) (conversation : List Message) : Prop :=
  Exists fun kickoff => turn? conversation = some [kickoff] ∧ kickoff.role = .user ∧
    kickoff.content = prompt.content ∧
      ((kickoff.isAgentVisible = true ∧ inferenceApplies conversation = true ∧
          (messagesForProvider conversation [kickoff]).getLast? = some kickoff.agentVisibleContent) ∨
        (parseSlashCommand kickoff.asConcatText).isSome = true)

/-- A prompt that the agent sees, with something in it for the agent, or a
command. -/
def Answerable (prompt : Message) : Prop :=
  (prompt.isAgentVisible = true ∧ prompt.agentVisibleContent.content ≠ [] ∧ prompt.errorKind = none) ∨
    (parseSlashCommand prompt.asConcatText).isSome = true

theorem effectiveRole_of_user {message : Message} (user : message.role = .user) :
    (effectiveRole message == .user || effectiveRole message == .tool) = true := by
  unfold effectiveRole
  rw [user]
  simp only [true_and]
  split <;> rfl

theorem messagesForProvider_single (front : List Message) (stored : Message) :
    Exists fun earlier : List Message => messagesForProvider (front ++ [stored]) [stored] =
      earlier ++ (if stored.isAgentVisible && !stored.agentVisibleContent.content.isEmpty then
        [stored.agentVisibleContent] else []) := by
  unfold messagesForProvider
  simp only [List.length_append, List.length_cons, List.length_nil, Nat.zero_add, Nat.add_sub_cancel,
    List.take_left, List.drop_left, List.filter_append]
  refine ⟨_, (List.append_right_inj _).mpr ?_⟩
  cases visible : stored.isAgentVisible with
  | false => simp [visible]
  | true => cases empty : stored.agentVisibleContent.content.isEmpty <;> simp [visible, empty]

theorem promptOffered_iff {prompt stored : Message} (same : SamePrompt prompt stored)
    (kickoff : isKickoff prompt = true) (front : List Message) :
    PromptOffered prompt (front ++ [stored]) ↔ Answerable prompt := by
  have turn : turn? (front ++ [stored]) = some [stored] := by
    unfold turn?
    rw [suffixFromLast_concat, if_pos (same.isKickoff.trans kickoff)]
  have user : stored.role = .user := by
    rw [same.role]
    simp only [isKickoff, Bool.and_eq_true, beq_iff_eq] at kickoff
    exact kickoff.1.1
  have projected : stored.agentVisibleContent.content = prompt.agentVisibleContent.content := by
    unfold Message.agentVisibleContent
    rw [same.content]
  have errors : trailingError (front ++ [stored]) = prompt.errorKind := by
    unfold trailingError Message.errorKind
    rw [List.getLast?_concat, Option.bind_some, same.content]
  rcases messagesForProvider_single front stored with ⟨earlier, seen⟩
  unfold PromptOffered Answerable
  constructor
  · rintro ⟨found, sameTurn, _, _, ⟨visible, applies, last⟩ | command⟩
    · cases Option.some.inj (sameTurn.symm.trans turn)
      left
      refine ⟨same.agentVisible ▸ visible, ?_, ?_⟩
      · have member := List.mem_of_getLast? last
        unfold messagesForProvider at member
        have filled := (List.mem_filter.mp member).2
        rw [← projected]
        simpa using filled
      · unfold inferenceApplies at applies
        rw [turn] at applies
        simp only [Bool.and_eq_true] at applies
        rw [← errors]
        simpa using applies.1
    · cases Option.some.inj (sameTurn.symm.trans turn)
      right
      rwa [same.asConcatText] at command
  · intro answerable
    refine ⟨stored, turn, user, same.content, ?_⟩
    rcases answerable with ⟨visible, filled, noError⟩ | command
    · left
      have storedVisible := same.agentVisible.trans visible
      have last : (messagesForProvider (front ++ [stored]) [stored]).getLast? = some stored.agentVisibleContent := by
        have notEmpty : stored.agentVisibleContent.content.isEmpty = false := by
          rw [projected]
          simpa using filled
        rw [seen, storedVisible, notEmpty]
        simp
      refine ⟨storedVisible, ?_, last⟩
      unfold inferenceApplies
      rw [turn]
      simp only [errors, noError, Option.isNone_none, Bool.true_and]
      unfold endsWithProviderTurn
      rw [last]
      exact effectiveRole_of_user user
    · right
      rwa [same.asConcatText]

/-- Whenever a run resets the conversation for a retry, the next thing to do is to
answer the prompt exactly when the agent still saw the prompt, with something in
it for the agent, or the prompt is a command. -/
theorem retry_reset_offersPrompt_iff {machine : Machine} {events : List Event} {start state next : State}
    {env : StepEnv} {result : StepResult} {kept rest : List Message} {prompt : Message}
    (taken : StepIn machine events start state env (some result) next)
    (retried : result.appliedStep = some .retry)
    (reset : AIBuddyEffect.conversation (.replaceConversation kept) ∈ result.effects)
    (turn : turn? state.session.conversation = some (prompt :: rest)) :
    PromptOffered prompt next.session.conversation ↔ Answerable prompt := by
  rcases retry_reset_conversation taken.advanced retried reset turn with ⟨front, stored, ends, same⟩
  have kickoff : isKickoff prompt = true := by
    rcases (suffixFromLast_eq_some_iff _ _ _).mp turn with ⟨_, first, _, _, shape, matched, _⟩
    cases shape
    exact matched
  rw [ends]
  exact promptOffered_iff same kickoff front

/-! ## A prompt that is lost -/

namespace RetryExample

def prompt : Message := Message.withId ((Message.user 0).withContent (.plainText "hi")) "k"

def start : State :=
  ⟨⟨.auto, none, none⟩, ⟨"s", [prompt], some ⟨none, some ⟨3, none⟩⟩, .auto, .null⟩⟩

/-- A step whose retry checks fail and whose provider says the given chunks. -/
def failing (chunks : List Message) : StepEnv :=
  { StepEnv.still with retryChecks := .ok false, provider := { ProviderTurn.silent with chunks := chunks } }

def answered : List Event :=
  [.step (failing [((Message.assistant 0).withContent (.plainText "done")).withId "a"]), .step (failing [])]

/-- The provider first finds the conversation too long. -/
def compacted : List Event :=
  .step { failing [] with
    provider := { ProviderTurn.silent with startError := some (.contextLengthExceeded "too long") } } ::
  .step (failing []) :: answered

end RetryExample

/-- After a compaction, a retry starts over from a conversation in which the
agent sees nothing, and the next step applies no operation. -/
theorem retry_reset_hides_prompt :
    ((runEvents Machine.plain RetryExample.compacted RetryExample.start).toOption.map fun state =>
      (state.session.conversation.map Message.id, state.session.conversation.map Message.isAgentVisible,
        (advance Machine.plain (RetryExample.failing []) state).toOption.map fun outcome => outcome.1.isNone)) =
      some ([some "k"], [false], some true) ∧
    ((runEvents Machine.plain (RetryExample.compacted.take 3) RetryExample.start).toOption.bind fun state =>
      (advance Machine.plain (RetryExample.failing []) state).toOption.map fun outcome =>
        outcome.1.map StepResult.appliedStep) = some (some (some .retry)) := by
  decide

/-- Without a compaction, the prompt is offered again. -/
theorem retry_reset_offersPrompt_iff_answered :
    Exists fun next => (Exists fun state => Exists fun result =>
      StepIn Machine.plain RetryExample.answered RetryExample.start state (RetryExample.failing []) (some result) next) ∧
        PromptOffered RetryExample.prompt next.session.conversation := by
  have taken : Exists fun state => Exists fun result => Exists fun next =>
      StepIn Machine.plain RetryExample.answered RetryExample.start state (RetryExample.failing []) (some result)
        next ∧ result.appliedStep = some .retry ∧
          (Exists fun kept => AIBuddyEffect.conversation (.replaceConversation kept) ∈ result.effects) ∧
            Exists fun rest => turn? state.session.conversation = some (RetryExample.prompt :: rest) :=
    ⟨_, _, _, ⟨⟨RetryExample.answered.take 1, [], rfl, rfl⟩, rfl⟩, rfl, ⟨_, List.mem_singleton_self _⟩, _, rfl⟩
  rcases taken with ⟨state, result, next, taken, retried, ⟨kept, reset⟩, rest, turn⟩
  refine ⟨next, ⟨state, result, taken⟩, ?_⟩
  apply (retry_reset_offersPrompt_iff taken retried reset turn).mpr
  exact Or.inl ⟨rfl, by decide, rfl⟩

end AIBuddy
