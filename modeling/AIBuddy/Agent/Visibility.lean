import AIBuddy.Agent.Replacements

namespace AIBuddy

open LastSuffix
open Runs

/-!
# What operations hide

Commands hide themselves from the agent, and tool pair compaction hides the messages of a call.
No operation hides a message from the user.
-/

/-- The visibility that a message id is given. -/
structure Shown where
  messageId : String
  userVisible : Bool
  agentVisible : Bool

def AIBuddyEffect.shown? : AIBuddyEffect -> Option Shown
  | .conversation (.setMessageVisibility messageId userVisible agentVisible) =>
      some ⟨messageId, userVisible, agentVisible⟩
  | _ => none

/-- An effect that hides some message of the conversation from the agent and keeps it as visible to
the user as it was, and that does not replace the conversation. -/
def AIBuddyEffect.KeepsShown (conversation : List Message) (effect : AIBuddyEffect) : Prop :=
  effect.replacement? = none ∧
    forall shown, effect.shown? = some shown -> shown.agentVisible = false ∧
      Exists fun message => message ∈ conversation ∧ message.id = some shown.messageId ∧
        message.isUserVisible = shown.userVisible

/-- Effects that do not set visibility, or only keep what the user sees. -/
def HidesFromAgent (conversation : List Message) (effects : List AIBuddyEffect) : Prop :=
  (forall effect, effect ∈ effects -> effect.shown? = none) ∨
    forall effect, effect ∈ effects -> effect.KeepsShown conversation

namespace OperationResult

def Hides (conversation : List Message) : OperationResult -> Prop
  | notApplicable => True
  | applied result => HidesFromAgent conversation result.effects

variable {conversation : List Message}

theorem hides_notApplicable : Hides conversation notApplicable := trivial

theorem hides_nothing {result : StepResult}
    (nothing : forall effect, effect ∈ result.effects -> effect.shown? = none) : Hides conversation (applied result) :=
  Or.inl nothing

theorem hides_append (message : Message) (applied : Option OperationName) (yields : Bool)
    (dispatched : List ToolRequest) (asked : Bool) :
    Hides conversation (.applied ⟨[.append message], applied, yields, dispatched, asked⟩) := by
  apply hides_nothing
  intro effect member
  rw [List.mem_singleton.mp member]
  rfl

theorem hides_empty (applied : Option OperationName) (yields : Bool) (dispatched : List ToolRequest) (asked : Bool) :
    Hides conversation (.applied ⟨[], applied, yields, dispatched, asked⟩) := by
  apply hides_nothing
  intro effect member
  contradiction

end OperationResult

open OperationResult

variable {machine : Machine} {env : StepEnv} {session : Session} {agent : Agent} {conversation : List Message}

theorem shown?_appended (messages : List Message) (change : Message -> Message)
    (effect : AIBuddyEffect) (member : effect ∈ messages.map fun message => .append (change message)) :
    effect.shown? = none ∧ effect.replacement? = none := by
  rcases List.mem_map.mp member with ⟨message, _, rfl⟩
  exact ⟨rfl, rfl⟩

/-! ## Commands -/

theorem kickoff_isUserVisible {turn : List Message} {first : Message} (found : turn? conversation = some turn)
    (head : turn.head? = some first) : first ∈ conversation ∧ first.isUserVisible = true := by
  rcases (suffixFromLast_eq_some_iff _ _ _).mp found with ⟨before, kickoff, rest, whole, rfl, opens, _⟩
  cases head
  simp only [isKickoff, Bool.and_eq_true] at opens
  exact ⟨by simp [whole], opens.1.2⟩

theorem onCommandMessage_hides (missing : String) {reply : String -> OperationResult} {later : List AIBuddyEffect}
    (plain : forall effect, effect ∈ later -> effect.shown? = none ∧ effect.replacement? = none)
    (replies : forall messageId, Exists fun result =>
      reply messageId = .applied result ∧ result.effects = hideFromAgent messageId :: later) :
    Ensures (onCommandMessage missing conversation reply) (Hides conversation) := by
  unfold onCommandMessage
  apply Ensures.bind
  intro messages found
  rw [messagesSinceKickoff_eq_ok_iff] at found
  split
  · exact Ensures.error _ _
  · case _ command head =>
      split
      · exact Ensures.error _ _
      · case _ messageId named =>
          apply Ensures.ok
          rcases replies messageId with ⟨result, replied, effects⟩
          rw [replied]
          refine Or.inr fun effect member => ?_
          rw [effects] at member
          rcases List.mem_cons.mp member with rfl | member
          · refine ⟨rfl, fun shown same => ?_⟩
            cases same
            have visible := kickoff_isUserVisible found head
            exact ⟨rfl, command, visible.1, named, visible.2⟩
          · refine ⟨(plain effect member).2, fun shown same => ?_⟩
            rw [(plain effect member).1] at same
            contradiction

theorem commandResponse_hides (missing : String) (response : Message) :
    Ensures (commandResponse missing conversation response) (Hides conversation) := by
  have plain : forall effect, effect ∈ [AIBuddyEffect.append response.userOnly] ->
      effect.shown? = none ∧ effect.replacement? = none := by
    intro effect member
    rw [List.mem_singleton.mp member]
    exact ⟨rfl, rfl⟩
  exact onCommandMessage_hides missing plain fun messageId => ⟨_, rfl, rfl⟩

theorem commandPrompt_hides (missing : String) {effects : List AIBuddyEffect}
    (plain : forall effect, effect ∈ effects -> effect.shown? = none ∧ effect.replacement? = none) :
    Ensures (commandPrompt missing conversation effects) (Hides conversation) :=
  onCommandMessage_hides missing plain fun messageId => ⟨_, rfl, rfl⟩

private theorem commandReply_hides (missing : String) (reply : CommandReply) :
    Ensures (commandReply machine env missing conversation reply) (Hides conversation) := by
  cases reply with
  | notMine => exact Ensures.ok hides_notApplicable
  | respond text => exact commandResponse_hides _ _
  | prompt messages => exact commandPrompt_hides _ (shown?_appended messages _)

private theorem compactionCommand_hides (command : SlashCommand) :
    Ensures (compactionCommand machine env command conversation) (Hides conversation) := by
  unfold compactionCommand
  split
  · unfold clearCommand
    apply Ensures.bind
    intro messages _
    split
    · exact Ensures.error _ _
    · apply Ensures.ok
      apply hides_nothing
      intro effect member
      simp only [List.mem_cons, List.not_mem_nil, or_false] at member
      rcases member with rfl | rfl | rfl <;> rfl
  split
  · unfold compactCommand
    split
    · exact commandResponse_hides _ _
    · apply Ensures.bind
      intro messages _
      split
      · exact Ensures.error _ _
      · apply Ensures.ok
        apply hides_nothing
        intro effect member
        simp only [List.mem_cons, List.not_mem_nil, or_false] at member
        rcases member with rfl | rfl <;> rfl
  · exact Ensures.ok hides_notApplicable

private theorem goalCommand_hides (command : SlashCommand) :
    Ensures (goalCommand machine env agent command conversation) fun outcome => outcome.1.Hides conversation := by
  have responds : forall (text : String),
      Ensures (goalResponse machine env command text conversation) (Hides conversation) := by
    intro text
    unfold goalResponse
    simp only
    split
    · apply commandPrompt_hides
      intro effect member
      simp only [List.mem_cons, List.not_mem_nil, or_false] at member
      rcases member with rfl | rfl <;> exact ⟨rfl, rfl⟩
    · exact commandResponse_hides _ _
  unfold goalCommand
  split
  · exact Ensures.map (responds _)
  split
  · exact Ensures.map (responds _)
  · exact Ensures.ok hides_notApplicable

private theorem runCommand_hides (command : SlashCommand) (name : OperationName) :
    Ensures (runCommand machine env agent command conversation name) fun outcome =>
      outcome.1.Hides conversation := by
  unfold runCommand
  cases name
  case compaction => exact Ensures.map (compactionCommand_hides command)
  case doctor =>
    apply Ensures.map
    unfold doctorCommand
    split
    · split
      · exact commandResponse_hides _ _
      · apply commandPrompt_hides
        intro effect member
        rw [List.mem_singleton.mp member]
        exact ⟨rfl, rfl⟩
    · exact Ensures.ok hides_notApplicable
  case skills =>
    apply Ensures.map
    unfold skillCommand
    split
    · exact commandResponse_hides _ _
    · exact commandReply_hides _ _
  case recipe =>
    apply Ensures.map
    unfold recipeCommand
    split
    · exact Ensures.ok hides_notApplicable
    · exact commandResponse_hides _ _
    · split
      · exact commandResponse_hides _ _
      · apply commandPrompt_hides
        intro effect member
        simp only [List.mem_cons, List.not_mem_nil, or_false] at member
        rcases member with rfl | rfl <;> exact ⟨rfl, rfl⟩
  case toolExecution =>
    apply Ensures.map
    unfold promptCommand
    split
    · split
      · exact commandResponse_hides _ _
      · split
        · exact commandResponse_hides _ _
        · exact commandPrompt_hides _ (shown?_appended _ _)
      · exact commandReply_hides _ _
    · exact Ensures.ok hides_notApplicable
  case retry => exact goalCommand_hides command
  all_goals exact Ensures.ok hides_notApplicable

private theorem slashCommandRun_hides (handlers : List OperationName) :
    Ensures (slashCommandRun machine env agent handlers conversation) fun outcome =>
      outcome.1.Hides conversation := by
  have commands : forall (command : SlashCommand) (names : List OperationName) (agent : Agent),
      Ensures (runCommands machine env agent command conversation names) fun outcome =>
        outcome.1.Hides conversation := by
    intro command names
    induction names with
    | nil =>
        intro agent
        apply Ensures.map
        unfold statusCommand
        split
        · apply Ensures.bind
          intro text _
          exact commandResponse_hides _ _
        · exact Ensures.ok hides_notApplicable
    | cons name rest ih =>
        intro agent
        unfold runCommands
        have here : Ensures (runCommand machine env agent command conversation name) fun outcome =>
            outcome.1.Hides conversation := runCommand_hides command name
        split
        · exact Ensures.error _ _
        · case _ result next ran => exact Ensures.ok (here _ ran)
        · case _ next ran => exact ih next
  unfold slashCommandRun
  apply Ensures.bind
  intro messages _
  unfold commandTurn
  split
  · split
    · exact Ensures.ok hides_notApplicable
    · exact commands _ _ _
  · exact Ensures.ok hides_notApplicable

/-! ## Tool pair compaction -/

private theorem summarizePair_keepsShown (toolIds : List String) (state : List AIBuddyEffect × List String)
    (before : forall effect, effect ∈ state.1 -> effect.KeepsShown conversation) (effect : AIBuddyEffect)
    (member : effect ∈ (toolIds.foldl (summarizePair env conversation) state).1) : effect.KeepsShown conversation := by
  induction toolIds generalizing state with
  | nil => exact before effect member
  | cons toolId rest ih =>
      refine ih (summarizePair env conversation state toolId) ?_ member
      intro added inState
      unfold summarizePair at inState
      simp only at inState
      split at inState
      · exact before added inState
      · split at inState
        · exact before added inState
        · rcases List.mem_append.mp inState with front | last
          · rcases List.mem_append.mp front with old | hide
            · exact before added old
            · rcases List.mem_filterMap.mp hide with ⟨message, inPair, hidden⟩
              rcases Option.map_eq_some_iff.mp hidden with ⟨messageId, named, rfl⟩
              refine ⟨rfl, fun shown same => ?_⟩
              cases same
              exact ⟨rfl, message, (List.mem_filter.mp inPair).1, named, rfl⟩
          · rw [List.mem_singleton.mp last]
            refine ⟨rfl, fun shown same => ?_⟩
            contradiction

private theorem toolPairCompactionRun_hides :
    Ensures (toolPairCompactionRun machine env conversation) (Hides conversation) := by
  unfold toolPairCompactionRun
  split
  · exact Ensures.ok hides_notApplicable
  · apply Ensures.bind
    intro messages _
    apply Ensures.ok
    split
    · exact hides_notApplicable
    · refine Or.inr fun effect member => summarizePair_keepsShown _ ([], []) (fun effect member => ?_) effect member
      contradiction

/-! ## The other operations -/

private theorem turnOperation_hides {name : OperationName}
    (named : name = .steer ∨ name = .maxTurns ∨ name = .bangShell ∨ name = .compaction ∨ name = .stopHook) :
    Ensures (runOperation machine env session agent name) fun outcome => outcome.1.Hides conversation := by
  rcases named with rfl | rfl | rfl | rfl | rfl
  · apply Ensures.map
    unfold steerRun
    apply Ensures.bind
    intro messages _
    apply Ensures.bind
    intro role _
    apply Ensures.ok
    split
    · exact hides_notApplicable
    · exact hides_nothing fun effect member => (shown?_appended _ _ effect member).1
  · apply Ensures.map
    unfold maxTurnsRun
    apply Ensures.bind
    intro messages _
    apply Ensures.ok
    split
    · exact hides_notApplicable
    · exact hides_append _ _ _ _ _
  · apply Ensures.map
    unfold bangShellRun
    apply Ensures.bind
    intro messages _
    split
    · exact Ensures.ok hides_notApplicable
    split
    · exact Ensures.ok hides_notApplicable
    split
    · apply Ensures.bind
      intro role _
      apply Ensures.ok
      split
      · exact hides_empty _ _ _ _
      · exact hides_notApplicable
    · exact Ensures.ok (hides_append _ _ _ _ _)
  · apply Ensures.map
    unfold compactionRun
    split
    · exact Ensures.ok hides_notApplicable
    · apply Ensures.bind
      intro messages _
      apply Ensures.bind
      intro due _
      apply Ensures.ok
      split
      · exact hides_notApplicable
      · split
        · apply hides_nothing
          intro effect member
          rw [List.mem_singleton.mp member]
          rfl
        · exact hides_empty _ _ _ _
  · apply Ensures.map
    unfold stopHookRun
    apply Ensures.bind
    intro messages _
    apply Ensures.ok
    split
    · unfold stopHookFinished
      split
      · exact hides_empty _ _ _ _
      · simp only
        split
        · exact hides_append _ _ _ _ _
        · exact hides_append _ _ _ _ _
    · exact hides_notApplicable

private theorem toolApprovalRun_hides :
    Ensures (toolApprovalRun machine env agent conversation) (Hides conversation) := by
  intro result ran
  cases result with
  | notApplicable => exact hides_notApplicable
  | applied outcome =>
      refine hides_nothing fun effect member => ?_
      rcases toolApprovalRun_approves ran member with ⟨id, executable, rfl⟩ | ⟨results, id, call, rfl⟩ <;> rfl

private theorem answerWith_hides (answers : List Answer) (dispatched : List ToolRequest) :
    (answerWith machine env answers dispatched).Hides conversation :=
  hides_append _ _ _ _ _

private theorem recipeRun_hides :
    Ensures (recipeRun machine env session conversation) (Hides conversation) := by
  unfold recipeRun
  apply Ensures.bind
  intro schema _
  split
  · exact Ensures.ok hides_notApplicable
  · split
    · exact commandResponse_hides _ _
    · apply Ensures.bind
      intro messages _
      unfold recipeRunActive
      split
      · split
        · exact Ensures.ok (answerWith_hides _ _)
        split
        · exact Ensures.ok hides_notApplicable
        split
        · exact Ensures.error _ _
        · exact Ensures.ok (answerWith_hides _ _)
      · split
        · apply Ensures.bind
          intro role _
          apply Ensures.ok
          split
          · exact hides_append _ _ _ _ _
          · exact hides_notApplicable
        · apply Ensures.ok
          split
          · exact hides_append _ _ _ _ _
          · exact hides_notApplicable

private theorem toolExecutionRun_hides :
    Ensures (toolExecutionRun machine env agent conversation) (Hides conversation) := by
  unfold toolExecutionRun
  apply Ensures.bind
  intro messages _
  apply Ensures.ok
  split
  · exact hides_notApplicable
  · split
    · exact answerWith_hides _ _
    · apply hides_nothing
      intro effect member
      simp only [List.append_assoc, List.mem_append] at member
      rcases member with required | changed | last
      · exact (shown?_appended env.actionRequired (fun message => message) effect required).1
      · split at changed
        · rw [List.mem_singleton.mp changed]
          rfl
        · contradiction
      · rw [List.mem_singleton.mp last]
        rfl

private theorem retryRun_hides :
    Ensures (retryRun machine env agent session conversation) fun outcome => outcome.1.Hides conversation := by
  unfold retryRun
  apply Ensures.bind
  intro messages _
  apply Ensures.ok
  split
  · unfold retryFinished
    split
    · exact hides_append _ _ _ _ _
    · exact hides_append _ _ _ _ _
    · simp only
      split
      · exact hides_notApplicable
      · unfold retryChecked
        split
        · exact hides_append _ _ _ _ _
        · exact hides_notApplicable
        · simp only
          split
          · exact hides_append _ _ _ _ _
          · split
            · exact hides_append _ _ _ _ _
            · apply hides_nothing
              intro effect member
              rw [List.mem_singleton.mp member]
              rfl
  · exact hides_notApplicable

theorem runOperation_hides {name : OperationName} (other : name ≠ .llm) :
    Ensures (runOperation machine env session agent name) fun outcome => outcome.1.Hides session.conversation := by
  cases name
  case entryHook =>
    apply Ensures.map
    unfold entryHookRun
    apply Ensures.bind
    intro messages _
    exact Ensures.ok hides_notApplicable
  case slashCommand => exact slashCommandRun_hides _
  case steer => exact turnOperation_hides (by simp)
  case maxTurns => exact turnOperation_hides (by simp)
  case bangShell => exact turnOperation_hides (by simp)
  case compaction => exact turnOperation_hides (by simp)
  case stopHook => exact turnOperation_hides (by simp)
  case toolPairCompaction => exact Ensures.map toolPairCompactionRun_hides
  case toolApproval => exact Ensures.map toolApprovalRun_hides
  case doctor => exact Ensures.ok hides_notApplicable
  case project => exact Ensures.ok hides_notApplicable
  case skills =>
    apply Ensures.map
    unfold skillRun
    apply Ensures.bind
    intro messages _
    apply Ensures.ok
    split
    · exact hides_notApplicable
    · exact answerWith_hides _ _
  case recipe => exact Ensures.map recipeRun_hides
  case toolExecution => exact Ensures.map toolExecutionRun_hides
  case unknownTool =>
    apply Ensures.map
    unfold unknownToolRun
    apply Ensures.bind
    intro messages _
    apply Ensures.ok
    split
    · exact hides_notApplicable
    · exact answerWith_hides _ _
  case retry => exact retryRun_hides
  case exitOnError =>
    unfold runOperation
    simp only
    apply Ensures.map
    apply Ensures.ok
    split
    · exact hides_notApplicable
    · exact hides_empty _ _ _ _
  case llm => exact absurd rfl other

/-! ## Steps -/

theorem shown?_ensureMessageIds (appendedId : String) (replacedId : Nat -> String) (effect : AIBuddyEffect) :
    (ensureMessageIds appendedId replacedId effect).shown? = effect.shown? := by
  cases effect with
  | conversation effect => cases effect <;> rfl
  | _ => rfl

theorem HidesFromAgent.finish {outcome : StepResult} (hides : HidesFromAgent conversation outcome.effects)
    (name : OperationName) (cancelled : Bool) :
    HidesFromAgent conversation (finishResult env name cancelled outcome).effects := by
  rcases hides with nothing | keeps
  · refine Or.inl fun effect member => ?_
    rcases finishResult_effect member with ⟨original, position, inEffects, rfl⟩
    rw [shown?_ensureMessageIds]
    exact nothing original inEffects
  · refine Or.inr fun effect member => ?_
    rcases finishResult_effect member with ⟨original, position, inEffects, rfl⟩
    refine ⟨?_, ?_⟩
    · rw [replacement?_ensureMessageIds, (keeps original inEffects).1]
      rfl
    · rw [shown?_ensureMessageIds]
      exact (keeps original inEffects).2

theorem step_hides {state : State} {result : StepResult} {last : Agent}
    (stepped : step machine env state = .ok (some result, last)) :
    HidesFromAgent state.session.conversation result.effects := by
  rcases step_applied stepped with ⟨name, before, after, flag, agent, applied⟩
  by_cases inference : name = .llm
  · subst inference
    cases step_effects stepped with
    | infers _ _ effects turn _ _ =>
        refine Or.inl fun effect member => ?_
        rcases effects effect member with ⟨message, rfl⟩ | rfl <;> rfl
    | offline offline _ _ _ =>
        rcases offer_llm_eq_accepted applied.accepted with
          ⟨_, _, _, names, turn, outcome, _, _, asked, rfl⟩ | ⟨_, turn, response, _, _, rfl⟩
        · rcases inferOn_asked machine env names turn with ⟨same, isAsked, isTrue, _⟩
          cases OperationResult.applied.inj (isAsked.symm.trans asked)
          exact absurd (isTrue.symm.trans offline) (by decide)
        · refine HidesFromAgent.finish (Or.inl fun effect member => ?_) .llm _
          rw [List.mem_singleton.mp member]
          rfl
  · rcases applied.ran inference with ⟨_, outcome, ran, rfl⟩
    exact HidesFromAgent.finish (runOperation_hides inference _ ran) name _

end AIBuddy
