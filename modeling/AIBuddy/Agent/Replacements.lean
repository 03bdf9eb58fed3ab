import AIBuddy.Agent.Compaction
import AIBuddy.Agent.Offers
import AIBuddy.Agent.Run

namespace AIBuddy

open Runs

/-!
# What replaces a conversation

Most effects add to the conversation or change a message in place.  Only a
compaction, the commands that clear and compact, and a retry replace the whole
conversation.
-/

/-- The messages that an effect puts in place of the conversation. -/
def AIBuddyEffect.replacement? : AIBuddyEffect -> Option (List Message)
  | .conversation (.replaceConversation messages) => some messages
  | .replaceConversation messages => some messages
  | _ => none

/-- Whether an effect adds to the conversation or changes it in place, and leaves
the count of its tokens alone. -/
def AIBuddyEffect.isLocal : AIBuddyEffect -> Bool
  | .conversation (.replaceConversation _) | .replaceConversation _ | .recordUsage => false
  | _ => true

theorem AIBuddyEffect.replacement?_of_isLocal {effect : AIBuddyEffect} (isLocal : effect.isLocal = true) :
    effect.replacement? = none := by
  cases effect with
  | conversation effect =>
      cases effect with
      | replaceConversation messages => contradiction
      | _ => rfl
  | replaceConversation messages => contradiction
  | _ => rfl

/-- A replacement leaves nothing else stored. -/
theorem applyEffect_replacement {session next : Session} {effect : AIBuddyEffect} {messages : List Message}
    (replacement : effect.replacement? = some messages) (applied : applyEffect session effect = .ok next) :
    next = { session with rows := messages } := by
  cases effect with
  | conversation effect =>
      cases effect with
      | replaceConversation messages =>
          cases replacement
          cases applied
          rfl
      | _ => contradiction
  | replaceConversation messages =>
      cases replacement
      cases applied
      rfl
  | _ => contradiction

/-- What a compaction compacts: behind an error about the length of the
conversation, the conversation with the error hidden. -/
def compactedInput (conversation : List Message) : List Message :=
  if trailingError conversation = some .contextLengthExceeded then hideLast conversation else conversation

/-- The command that a turn of one message consists of. -/
def turnCommand (conversation : List Message) : Option String :=
  match turn? conversation with
  | some [message] => (parseSlashCommand message.asConcatText).map SlashCommand.command
  | _ => none

/-- How operations replace the conversation. -/
inductive ReplacesWith (machine : Machine) (env : StepEnv) (conversation : List Message) :
    OperationName -> List Message -> Prop where
  | compaction (compacted : List Message)
      (succeeded : compactMessages machine env (compactedInput conversation) false = .ok compacted) :
      ReplacesWith machine env conversation .compaction compacted
  | clear (command : turnCommand conversation = some "clear") : ReplacesWith machine env conversation .slashCommand []
  | compact (command : turnCommand conversation = some "compact") (compacted : List Message)
      (succeeded : compactMessages machine env conversation true = .ok compacted) :
      ReplacesWith machine env conversation .slashCommand compacted
  | retry (turn : List Message) (found : turn? conversation = some turn) :
      ReplacesWith machine env conversation .retry (resetConversation conversation turn (retryAttempts turn))

/-- Effects of which the first may replace the conversation, with allowed messages,
and all others are local. -/
inductive ReplacesFirst (allowed : List Message -> Prop) : List AIBuddyEffect -> Prop where
  | stays (effects : List AIBuddyEffect) (isLocal : forall effect, effect ∈ effects -> effect.isLocal = true) :
      ReplacesFirst allowed effects
  | replacing (first : AIBuddyEffect) (rest : List AIBuddyEffect) (messages : List Message)
      (replacement : first.replacement? = some messages) (permitted : allowed messages)
      (isLocal : forall effect, effect ∈ rest -> effect.isLocal = true) : ReplacesFirst allowed (first :: rest)

theorem ReplacesFirst.cases_mem {allowed : List Message -> Prop} {effects : List AIBuddyEffect}
    (replaces : ReplacesFirst allowed effects) {effect : AIBuddyEffect} (member : effect ∈ effects) :
    effect.isLocal = true ∨ Exists fun messages => effect.replacement? = some messages ∧ allowed messages := by
  cases replaces with
  | stays _ isLocal => exact Or.inl (isLocal effect member)
  | replacing first rest messages replacement permitted isLocal =>
      rcases List.mem_cons.mp member with rfl | later
      · exact Or.inr ⟨messages, replacement, permitted⟩
      · exact Or.inl (isLocal effect later)

namespace OperationResult

/-- The effects replace the conversation at most at once, with allowed messages. -/
def ReplacesBy (allowed : List Message -> Prop) : OperationResult -> Prop
  | notApplicable => True
  | applied result => ReplacesFirst allowed result.effects

variable {allowed : List Message -> Prop}

theorem replacesBy_notApplicable : ReplacesBy allowed notApplicable := trivial

theorem replacesBy_of_isLocal {result : StepResult}
    (isLocal : forall effect, effect ∈ result.effects -> effect.isLocal = true) :
    ReplacesBy allowed (applied result) :=
  .stays result.effects isLocal

theorem replacesBy_append (message : Message) (applied : Option OperationName) (yields : Bool)
    (dispatched : List ToolRequest) (asked : Bool) :
    ReplacesBy allowed (.applied ⟨[.append message], applied, yields, dispatched, asked⟩) := by
  apply replacesBy_of_isLocal
  intro effect member
  rw [List.mem_singleton.mp member]
  rfl

theorem replacesBy_nothing (applied : Option OperationName) (yields : Bool) (dispatched : List ToolRequest)
    (asked : Bool) : ReplacesBy allowed (.applied ⟨[], applied, yields, dispatched, asked⟩) := by
  apply replacesBy_of_isLocal
  intro effect member
  contradiction

end OperationResult

open OperationResult

variable {machine : Machine} {env : StepEnv} {session : Session} {agent : Agent} {conversation : List Message}
  {allowed : List Message -> Prop}

/-! ## Commands -/

theorem commandResponse_replacesBy (missing : String) (response : Message) :
    Ensures (commandResponse missing conversation response) (ReplacesBy allowed) := by
  unfold commandResponse onCommandMessage
  apply Ensures.bind
  intro messages _
  split
  · exact Ensures.error _ _
  · split
    · exact Ensures.error _ _
    · apply Ensures.ok
      apply replacesBy_of_isLocal
      intro effect member
      rcases List.mem_cons.mp member with rfl | last
      · rfl
      · rw [List.mem_singleton.mp last]
        rfl

theorem commandPrompt_replacesBy (missing : String) {effects : List AIBuddyEffect}
    (isLocal : forall effect, effect ∈ effects -> effect.isLocal = true) :
    Ensures (commandPrompt missing conversation effects) (ReplacesBy allowed) := by
  unfold commandPrompt onCommandMessage
  apply Ensures.bind
  intro messages _
  split
  · exact Ensures.error _ _
  · split
    · exact Ensures.error _ _
    · apply Ensures.ok
      apply replacesBy_of_isLocal
      intro effect member
      rcases List.mem_cons.mp member with rfl | later
      · rfl
      · exact isLocal effect later

theorem isLocal_appended (messages : List Message) (change : Message -> Message)
    (effect : AIBuddyEffect) (member : effect ∈ messages.map fun message => .append (change message)) :
    effect.isLocal = true := by
  rcases List.mem_map.mp member with ⟨message, _, rfl⟩
  rfl

private theorem commandReply_replacesBy (missing : String) (reply : CommandReply) :
    Ensures (commandReply machine env missing conversation reply) (ReplacesBy allowed) := by
  cases reply with
  | notMine => exact Ensures.ok replacesBy_notApplicable
  | respond text => exact commandResponse_replacesBy _ _
  | prompt messages => exact commandPrompt_replacesBy _ (isLocal_appended messages _)

private theorem doctorCommand_replacesBy (command : SlashCommand) :
    Ensures (doctorCommand env command conversation) (ReplacesBy allowed) := by
  unfold doctorCommand
  split
  · split
    · exact commandResponse_replacesBy _ _
    · apply commandPrompt_replacesBy
      intro effect member
      rw [List.mem_singleton.mp member]
      rfl
  · exact Ensures.ok replacesBy_notApplicable

private theorem skillCommand_replacesBy (command : SlashCommand) :
    Ensures (skillCommand machine env command conversation) (ReplacesBy allowed) := by
  unfold skillCommand
  split
  · exact commandResponse_replacesBy _ _
  · exact commandReply_replacesBy _ _

private theorem promptCommand_replacesBy (command : SlashCommand) :
    Ensures (promptCommand machine env command conversation) (ReplacesBy allowed) := by
  unfold promptCommand
  split
  · split
    · exact commandResponse_replacesBy _ _
    · split
      · exact commandResponse_replacesBy _ _
      · exact commandPrompt_replacesBy _ (isLocal_appended _ _)
    · exact commandReply_replacesBy _ _
  · exact Ensures.ok replacesBy_notApplicable

private theorem recipeCommand_replacesBy (command : SlashCommand) :
    Ensures (recipeCommand machine env command conversation) (ReplacesBy allowed) := by
  unfold recipeCommand
  split
  · exact Ensures.ok replacesBy_notApplicable
  · exact commandResponse_replacesBy _ _
  · split
    · exact commandResponse_replacesBy _ _
    · apply commandPrompt_replacesBy
      intro effect member
      rcases List.mem_cons.mp member with rfl | last
      · rfl
      · rw [List.mem_singleton.mp last]
        rfl

private theorem statusCommand_replacesBy (command : SlashCommand) :
    Ensures (statusCommand machine env command conversation) (ReplacesBy allowed) := by
  unfold statusCommand
  split
  · apply Ensures.bind
    intro text _
    exact commandResponse_replacesBy _ _
  · exact Ensures.ok replacesBy_notApplicable

private theorem goalResponse_replacesBy (command : SlashCommand) (text : String) :
    Ensures (goalResponse machine env command text conversation) (ReplacesBy allowed) := by
  unfold goalResponse
  simp only
  split
  · apply commandPrompt_replacesBy
    intro effect member
    rcases List.mem_cons.mp member with rfl | last
    · rfl
    · rw [List.mem_singleton.mp last]
      rfl
  · exact commandResponse_replacesBy _ _

private theorem compactionCommand_replacesBy (command : SlashCommand)
    (clears : command.command = "clear" -> allowed [])
    (compacts : command.command = "compact" -> forall compacted,
      compactMessages machine env conversation true = .ok compacted -> allowed compacted) :
    Ensures (compactionCommand machine env command conversation) (ReplacesBy allowed) := by
  unfold compactionCommand
  split
  · case _ isClear =>
      unfold clearCommand
      apply Ensures.bind
      intro messages _
      split
      · exact Ensures.error _ _
      · apply Ensures.ok
        apply ReplacesFirst.replacing _ _ [] rfl (clears isClear)
        intro effect member
        rcases List.mem_cons.mp member with rfl | last
        · rfl
        · rw [List.mem_singleton.mp last]
          rfl
  split
  · case _ isCompact =>
      unfold compactCommand
      split
      · exact commandResponse_replacesBy _ _
      · case _ compacted succeeded =>
          apply Ensures.bind
          intro messages _
          split
          · exact Ensures.error _ _
          · apply Ensures.ok
            apply ReplacesFirst.replacing _ _ compacted rfl (compacts isCompact compacted succeeded)
            intro effect member
            rw [List.mem_singleton.mp member]
            rfl
  · exact Ensures.ok replacesBy_notApplicable

/-- Every effect of a command's outcome that replaces the conversation is allowed. -/
def OutcomeReplacesBy (allowed : List Message -> Prop) (outcome : OperationResult × Agent) : Prop :=
  outcome.1.ReplacesBy allowed

theorem outcomeReplacesBy_map {result : Except String OperationResult} (agent : Agent)
    (replaces : Ensures result (ReplacesBy allowed)) :
    Ensures (result.map fun result => (result, agent)) (OutcomeReplacesBy allowed) :=
  Ensures.map fun outcome returned => replaces outcome returned

private theorem runCommand_replacesBy (command : SlashCommand) (name : OperationName)
    (clears : command.command = "clear" -> allowed [])
    (compacts : command.command = "compact" -> forall compacted,
      compactMessages machine env conversation true = .ok compacted -> allowed compacted) :
    Ensures (runCommand machine env agent command conversation name) (OutcomeReplacesBy allowed) := by
  unfold runCommand
  cases name
  case compaction => exact outcomeReplacesBy_map agent (compactionCommand_replacesBy command clears compacts)
  case doctor => exact outcomeReplacesBy_map agent (doctorCommand_replacesBy command)
  case skills => exact outcomeReplacesBy_map agent (skillCommand_replacesBy command)
  case recipe => exact outcomeReplacesBy_map agent (recipeCommand_replacesBy command)
  case toolExecution => exact outcomeReplacesBy_map agent (promptCommand_replacesBy command)
  case retry =>
    simp only [goalCommand]
    split
    · exact outcomeReplacesBy_map _ (goalResponse_replacesBy _ _)
    split
    · exact outcomeReplacesBy_map _ (goalResponse_replacesBy _ _)
    · exact Ensures.ok replacesBy_notApplicable
  all_goals exact Ensures.ok replacesBy_notApplicable

private theorem runCommands_replacesBy (command : SlashCommand) (names : List OperationName) (agent : Agent)
    (clears : command.command = "clear" -> allowed [])
    (compacts : command.command = "compact" -> forall compacted,
      compactMessages machine env conversation true = .ok compacted -> allowed compacted) :
    Ensures (runCommands machine env agent command conversation names) (OutcomeReplacesBy allowed) := by
  induction names generalizing agent with
  | nil => exact outcomeReplacesBy_map agent (statusCommand_replacesBy command)
  | cons name rest ih =>
      unfold runCommands
      have here : Ensures (runCommand machine env agent command conversation name) (OutcomeReplacesBy allowed) :=
        runCommand_replacesBy command name clears compacts
      split
      · exact Ensures.error _ _
      · case _ result next ran => exact Ensures.ok (here _ ran)
      · case _ next ran => exact ih next

private theorem slashCommandRun_replacesBy (handlers : List OperationName) :
    Ensures (slashCommandRun machine env agent handlers conversation)
      (OutcomeReplacesBy (ReplacesWith machine env conversation .slashCommand)) := by
  unfold slashCommandRun
  apply Ensures.bind
  intro messages found
  rw [messagesSinceKickoff_eq_ok_iff] at found
  unfold commandTurn
  split
  · case _ message =>
      split
      · exact Ensures.ok replacesBy_notApplicable
      · case _ command parsed =>
          have named : turnCommand conversation = some command.command := by
            unfold turnCommand
            rw [found]
            simp only [parsed, Option.map_some]
          apply runCommands_replacesBy
          · intro isClear
            exact .clear (named.trans (congrArg some isClear))
          · intro isCompact compacted succeeded
            exact .compact (named.trans (congrArg some isCompact)) compacted succeeded
  · exact Ensures.ok replacesBy_notApplicable

/-! ## Operations on the conversation and the turn -/

private theorem steerRun_replacesBy : Ensures (steerRun env conversation) (ReplacesBy allowed) := by
  unfold steerRun
  apply Ensures.bind
  intro messages _
  apply Ensures.bind
  intro role _
  apply Ensures.ok
  split
  · exact replacesBy_notApplicable
  · exact replacesBy_of_isLocal (isLocal_appended _ _)

private theorem maxTurnsRun_replacesBy : Ensures (maxTurnsRun machine env conversation) (ReplacesBy allowed) := by
  unfold maxTurnsRun
  apply Ensures.bind
  intro messages _
  apply Ensures.ok
  split
  · exact replacesBy_notApplicable
  · exact replacesBy_append _ _ _ _ _

private theorem bangShellRun_replacesBy : Ensures (bangShellRun env conversation) (ReplacesBy allowed) := by
  unfold bangShellRun
  apply Ensures.bind
  intro messages _
  split
  · exact Ensures.ok replacesBy_notApplicable
  split
  · exact Ensures.ok replacesBy_notApplicable
  split
  · apply Ensures.bind
    intro role _
    apply Ensures.ok
    split
    · exact replacesBy_nothing _ _ _ _
    · exact replacesBy_notApplicable
  · exact Ensures.ok (replacesBy_append _ _ _ _ _)

private theorem compactionRun_replacesBy :
    Ensures (compactionRun machine env conversation)
      (ReplacesBy (ReplacesWith machine env conversation .compaction)) := by
  unfold compactionRun
  split
  · exact Ensures.ok replacesBy_notApplicable
  · apply Ensures.bind
    intro messages _
    apply Ensures.bind
    intro due _
    apply Ensures.ok
    split
    · exact replacesBy_notApplicable
    · split
      · case _ compacted succeeded =>
          apply ReplacesFirst.replacing _ _ compacted rfl (.compaction compacted succeeded)
          intro effect member
          contradiction
      · exact replacesBy_nothing _ _ _ _

private theorem summarizePair_isLocal (toolIds : List String) (state : List AIBuddyEffect × List String)
    (before : forall effect, effect ∈ state.1 -> effect.isLocal = true) (effect : AIBuddyEffect)
    (member : effect ∈ (toolIds.foldl (summarizePair env conversation) state).1) : effect.isLocal = true := by
  induction toolIds generalizing state with
  | nil => exact before effect member
  | cons toolId rest ih =>
      refine ih (summarizePair env conversation state toolId) ?_ member
      intro added inState
      unfold summarizePair at inState
      simp only at inState
      split at inState
      · exact before added inState
      · split at inState
        · exact before added inState
        · rcases List.mem_append.mp inState with front | last
          · rcases List.mem_append.mp front with old | hide
            · exact before added old
            · rcases List.mem_filterMap.mp hide with ⟨message, _, hidden⟩
              rcases Option.map_eq_some_iff.mp hidden with ⟨messageId, _, rfl⟩
              rfl
          · rw [List.mem_singleton.mp last]
            rfl

private theorem toolPairCompactionRun_replacesBy :
    Ensures (toolPairCompactionRun machine env conversation) (ReplacesBy allowed) := by
  unfold toolPairCompactionRun
  split
  · exact Ensures.ok replacesBy_notApplicable
  · apply Ensures.bind
    intro messages _
    apply Ensures.ok
    split
    · exact replacesBy_notApplicable
    · apply replacesBy_of_isLocal
      intro effect member
      refine summarizePair_isLocal _ ([], []) (fun effect member => ?_) effect member
      contradiction

/-- What the approval does to a request: it marks it, or it asks the user about it. -/
def AIBuddyEffect.Approves (env : StepEnv) (effect : AIBuddyEffect) : Prop :=
  (Exists fun id => Exists fun executable => effect = markExecutable id executable) ∨
    Exists fun results => Exists fun id => Exists fun call =>
      effect = .append (confirmationMessage env results id call)

theorem AIBuddyEffect.Approves.isLocal {effect : AIBuddyEffect} (approves : effect.Approves env) :
    effect.isLocal = true := by
  rcases approves with ⟨id, executable, rfl⟩ | ⟨results, id, call, rfl⟩ <;> rfl

private theorem needsApprovalEffects_approves (results : List InspectionResult) (requests : List ToolRequest) :
    Ensures (needsApprovalEffects machine env results requests) fun effects =>
      forall effect, effect ∈ effects -> effect.Approves env := by
  induction requests with
  | nil =>
      apply Ensures.ok
      intro effect member
      contradiction
  | cons request rest ih =>
      unfold needsApprovalEffects
      split
      · exact Ensures.error _ _
      · apply Ensures.bind
        intro later computed
        apply Ensures.ok
        intro effect member
        rcases List.mem_cons.mp member with rfl | member
        · exact Or.inl ⟨_, _, rfl⟩
        rcases List.mem_cons.mp member with rfl | member
        · exact Or.inr ⟨_, _, _, rfl⟩
        · exact ih later computed effect member

/-- The approval marks requests and asks about them, and does nothing else. -/
theorem toolApprovalRun_approves {outcome : StepResult}
    (ran : toolApprovalRun machine env agent conversation = .ok (.applied outcome)) {effect : AIBuddyEffect}
    (member : effect ∈ outcome.effects) : effect.Approves env := by
  unfold toolApprovalRun at ran
  split at ran
  · cases ran
  · rcases (bind_eq_ok_iff _ _ _).mp ran with ⟨messages, _, ran⟩
    rcases (bind_eq_ok_iff _ _ _).mp ran with ⟨inspected, computed, ran⟩
    have decided := (pure_eq_ok_iff _ _).mp ran
    split at decided
    · contradiction
    · cases decided
      rcases List.mem_append.mp member with response | inspection
      · rcases List.mem_filterMap.mp response with ⟨pending, _, marked⟩
        simp only at marked
        split at marked
        · contradiction
        · cases marked
          exact Or.inl ⟨_, _, rfl⟩
      · unfold inspectionEffects at computed
        split at computed
        · cases computed
          contradiction
        · rcases (bind_eq_ok_iff _ _ _).mp computed with ⟨asked, isAsked, same⟩
          cases (pure_eq_ok_iff _ _).mp same
          rcases List.mem_append.mp inspection with denied | ask
          · rcases List.mem_map.mp denied with ⟨request, _, rfl⟩
            exact Or.inl ⟨_, _, rfl⟩
          · exact needsApprovalEffects_approves _ _ asked isAsked effect ask

private theorem toolApprovalRun_replacesBy :
    Ensures (toolApprovalRun machine env agent conversation) (ReplacesBy allowed) := by
  intro result ran
  cases result with
  | notApplicable => exact replacesBy_notApplicable
  | applied outcome =>
      exact replacesBy_of_isLocal fun effect member => (toolApprovalRun_approves ran member).isLocal

/-! ## Tools -/

private theorem answerWith_replacesBy (answers : List Answer) (dispatched : List ToolRequest) :
    (answerWith machine env answers dispatched).ReplacesBy allowed :=
  replacesBy_append _ _ _ _ _

private theorem skillRun_replacesBy : Ensures (skillRun machine env session conversation) (ReplacesBy allowed) := by
  unfold skillRun
  apply Ensures.bind
  intro messages _
  apply Ensures.ok
  split
  · exact replacesBy_notApplicable
  · exact answerWith_replacesBy _ _

private theorem recipeRunActive_replacesBy (schema : Json) (messages : List Message) :
    Ensures (recipeRunActive machine env session schema messages) (ReplacesBy allowed) := by
  unfold recipeRunActive
  split
  · split
    · exact Ensures.ok (answerWith_replacesBy _ _)
    split
    · exact Ensures.ok replacesBy_notApplicable
    split
    · exact Ensures.error _ _
    · exact Ensures.ok (answerWith_replacesBy _ _)
  · split
    · apply Ensures.bind
      intro role _
      apply Ensures.ok
      split
      · exact replacesBy_append _ _ _ _ _
      · exact replacesBy_notApplicable
    · apply Ensures.ok
      split
      · exact replacesBy_append _ _ _ _ _
      · exact replacesBy_notApplicable

private theorem recipeRun_replacesBy :
    Ensures (recipeRun machine env session conversation) (ReplacesBy allowed) := by
  unfold recipeRun
  apply Ensures.bind
  intro schema _
  split
  · exact Ensures.ok replacesBy_notApplicable
  · split
    · exact commandResponse_replacesBy _ _
    · apply Ensures.bind
      intro messages _
      exact recipeRunActive_replacesBy _ _

private theorem toolExecutionRun_replacesBy :
    Ensures (toolExecutionRun machine env agent conversation) (ReplacesBy allowed) := by
  unfold toolExecutionRun
  apply Ensures.bind
  intro messages _
  apply Ensures.ok
  split
  · exact replacesBy_notApplicable
  · split
    · exact answerWith_replacesBy _ _
    · apply replacesBy_of_isLocal
      intro effect member
      simp only [List.append_assoc, List.mem_append] at member
      rcases member with required | changed | last
      · exact isLocal_appended env.actionRequired (fun message => message) effect required
      · split at changed
        · rw [List.mem_singleton.mp changed]
          rfl
        · contradiction
      · rw [List.mem_singleton.mp last]
        rfl

private theorem unknownToolRun_replacesBy :
    Ensures (unknownToolRun machine env session conversation) (ReplacesBy allowed) := by
  unfold unknownToolRun
  apply Ensures.bind
  intro messages _
  apply Ensures.ok
  split
  · exact replacesBy_notApplicable
  · exact answerWith_replacesBy _ _

/-! ## The end of a turn -/

private theorem retryRun_replacesBy :
    Ensures (retryRun machine env agent session conversation)
      (OutcomeReplacesBy (ReplacesWith machine env conversation .retry)) := by
  unfold retryRun
  apply Ensures.bind
  intro messages found
  rw [messagesSinceKickoff_eq_ok_iff] at found
  apply Ensures.ok
  split
  · unfold retryFinished
    split
    · exact replacesBy_append _ _ _ _ _
    · exact replacesBy_append _ _ _ _ _
    · simp only [OutcomeReplacesBy]
      split
      · exact replacesBy_notApplicable
      · unfold retryChecked
        split
        · exact replacesBy_append _ _ _ _ _
        · exact replacesBy_notApplicable
        · simp only
          split
          · exact replacesBy_append _ _ _ _ _
          · split
            · exact replacesBy_append _ _ _ _ _
            · apply ReplacesFirst.replacing _ _ _ rfl (.retry messages found)
              intro effect member
              contradiction
  · exact replacesBy_notApplicable

private theorem stopHookRun_replacesBy :
    Ensures (stopHookRun machine env conversation) (ReplacesBy allowed) := by
  unfold stopHookRun
  apply Ensures.bind
  intro messages _
  apply Ensures.ok
  split
  · unfold stopHookFinished
    split
    · exact replacesBy_nothing _ _ _ _
    · simp only
      split
      · exact replacesBy_append _ _ _ _ _
      · exact replacesBy_append _ _ _ _ _
  · exact replacesBy_notApplicable

/-! ## Inference -/

/-- Effects that append messages or report usage. -/
def AppendsOrReports (effects : List AIBuddyEffect) : Prop :=
  forall effect, effect ∈ effects -> (Exists fun message => effect = .append message) ∨ effect = .recordUsage

/-- Inference appends messages and reports usage. -/
def InfersOnly (result : OperationResult) : Prop :=
  match result with
  | .notApplicable => True
  | .applied result => AppendsOrReports result.effects

private theorem usageEffects_cases (effect : AIBuddyEffect) (member : effect ∈ usageEffects env) :
    effect = .recordUsage := by
  unfold usageEffects at member
  split at member
  · exact List.mem_singleton.mp member
  · contradiction

theorem mem_appended {messages : List Message} {effect : AIBuddyEffect}
    (member : effect ∈ messages.map AIBuddyEffect.append) : Exists fun message => effect = .append message := by
  rcases List.mem_map.mp member with ⟨message, _, rfl⟩
  exact ⟨message, rfl⟩

private theorem infersOnly_around (env : StepEnv) {result : StepResult} (before after : List Message)
    (effects : result.effects = before.map .append ++ usageEffects env ++ after.map .append) :
    InfersOnly (.applied result) := by
  intro effect member
  rw [effects, List.append_assoc] at member
  rcases List.mem_append.mp member with front | later
  · exact Or.inl (mem_appended front)
  rcases List.mem_append.mp later with usage | back
  · exact Or.inr (usageEffects_cases effect usage)
  · exact Or.inl (mem_appended back)

private theorem finishStream_infersOnly (turn collected context : List Message) :
    InfersOnly (finishStream machine env turn collected (context.map .append)) := by
  unfold finishStream
  extract_lets settled emptyResponse
  split
  · exact infersOnly_around env context [_] rfl
  · exact infersOnly_around env context settled rfl

theorem inferOn_infersOnly (names : List String) (turn : List Message) :
    InfersOnly (inferOn machine env names turn) := by
  unfold inferOn
  simp only
  split
  · intro effect member
    rcases List.mem_append.mp member with context | last
    · exact Or.inl (mem_appended context)
    · exact Or.inl ⟨_, List.mem_singleton.mp last⟩
  · split
    · split
      · exact finishStream_infersOnly _ _ _
      · case _ error _ _ =>
          apply infersOnly_around env (turnContextEvent machine env turn)
            (receiveChunks env.provider names (receivedChunks env) ++ [messageFromProviderError env error])
          simp
    · exact finishStream_infersOnly _ _ _

theorem inferOn_context {names : List String} {turn : List Message} {outcome : StepResult}
    (applied : inferOn machine env names turn = .applied outcome) :
    Exists fun rest => outcome.effects = (turnContextEvent machine env turn).map .append ++ rest := by
  have finished : forall (collected : List Message) (before : List AIBuddyEffect),
      finishStream machine env turn collected before = .applied outcome ->
        Exists fun rest => outcome.effects = before ++ rest := by
    intro collected before returned
    unfold finishStream at returned
    extract_lets settled emptyResponse at returned
    split at returned
    · cases returned
      exact ⟨_, List.append_assoc _ _ _⟩
    · cases returned
      exact ⟨_, List.append_assoc _ _ _⟩
  unfold inferOn at applied
  simp only at applied
  split at applied
  · cases applied
    exact ⟨_, rfl⟩
  · split at applied
    · split at applied
      · exact finished _ _ applied
      · cases applied
        exact ⟨_, by rw [List.append_assoc, List.append_assoc]⟩
    · exact finished _ _ applied

/-! ## Steps -/

theorem runOperation_replaces {name : OperationName} (other : name ≠ .llm) :
    Ensures (runOperation machine env session agent name)
      (OutcomeReplacesBy (ReplacesWith machine env session.conversation name)) := by
  unfold runOperation
  cases name
  case entryHook =>
    apply outcomeReplacesBy_map
    unfold entryHookRun
    apply Ensures.bind
    intro messages _
    exact Ensures.ok replacesBy_notApplicable
  case slashCommand => exact slashCommandRun_replacesBy _
  case steer => exact outcomeReplacesBy_map agent steerRun_replacesBy
  case maxTurns => exact outcomeReplacesBy_map agent maxTurnsRun_replacesBy
  case bangShell => exact outcomeReplacesBy_map agent bangShellRun_replacesBy
  case compaction => exact outcomeReplacesBy_map agent compactionRun_replacesBy
  case toolPairCompaction => exact outcomeReplacesBy_map agent toolPairCompactionRun_replacesBy
  case toolApproval => exact outcomeReplacesBy_map agent toolApprovalRun_replacesBy
  case doctor => exact Ensures.ok replacesBy_notApplicable
  case project => exact Ensures.ok replacesBy_notApplicable
  case skills => exact outcomeReplacesBy_map agent skillRun_replacesBy
  case recipe => exact outcomeReplacesBy_map agent recipeRun_replacesBy
  case toolExecution => exact outcomeReplacesBy_map agent toolExecutionRun_replacesBy
  case unknownTool => exact outcomeReplacesBy_map agent unknownToolRun_replacesBy
  case retry => exact retryRun_replacesBy
  case stopHook => exact outcomeReplacesBy_map agent stopHookRun_replacesBy
  case exitOnError =>
    apply outcomeReplacesBy_map
    apply Ensures.ok
    split
    · exact replacesBy_notApplicable
    · exact replacesBy_nothing _ _ _ _
  case llm => exact absurd rfl other

theorem finishResult_effect {name : OperationName} {cancelled : Bool} {outcome : StepResult}
    {effect : AIBuddyEffect} (member : effect ∈ (finishResult env name cancelled outcome).effects) :
    Exists fun original => Exists fun position => original ∈ outcome.effects ∧
      effect = ensureMessageIds (env.messageId position) env.replacedId original := by
  rcases List.mem_map.mp member with ⟨⟨original, position⟩, entry, rfl⟩
  exact ⟨original, position, List.fst_mem_of_mem_zipIdx entry, rfl⟩

theorem isLocal_ensureMessageIds (appendedId : String) (replacedId : Nat -> String) (effect : AIBuddyEffect) :
    (ensureMessageIds appendedId replacedId effect).isLocal = effect.isLocal := by
  cases effect with
  | conversation effect => cases effect <;> rfl
  | _ => rfl

theorem replacement?_ensureMessageIds (appendedId : String) (replacedId : Nat -> String) (effect : AIBuddyEffect) :
    (ensureMessageIds appendedId replacedId effect).replacement? =
      effect.replacement?.map (identified replacedId) := by
  cases effect with
  | conversation effect => cases effect <;> rfl
  | _ => rfl

theorem finishResult_effects (name : OperationName) (cancelled : Bool) (outcome : StepResult) :
    (finishResult env name cancelled outcome).effects = outcome.effects.zipIdx.map fun entry =>
      ensureMessageIds (env.messageId entry.2) env.replacedId entry.1 := rfl

theorem finishResult_effects_cons {outcome : StepResult} {first : AIBuddyEffect} {rest : List AIBuddyEffect}
    (effects : outcome.effects = first :: rest) (name : OperationName) (cancelled : Bool) :
    Exists fun later => (finishResult env name cancelled outcome).effects =
      ensureMessageIds (env.messageId 0) env.replacedId first :: later := by
  rw [finishResult_effects, effects]
  exact ⟨_, rfl⟩

theorem ReplacesFirst.finish {outcome : StepResult} (replaces : ReplacesFirst allowed outcome.effects)
    (name : OperationName) (cancelled : Bool) :
    ReplacesFirst (fun messages => Exists fun original => allowed original ∧
      messages = identified env.replacedId original) (finishResult env name cancelled outcome).effects := by
  have finished : forall (effects : List AIBuddyEffect) (start : Nat),
      (forall effect, effect ∈ effects -> effect.isLocal = true) ->
        forall effect, effect ∈ (effects.zipIdx start).map (fun entry =>
          ensureMessageIds (env.messageId entry.2) env.replacedId entry.1) -> effect.isLocal = true := by
    intro effects start isLocal effect member
    rcases List.mem_map.mp member with ⟨entry, inEffects, rfl⟩
    rw [isLocal_ensureMessageIds]
    exact isLocal entry.1 (List.fst_mem_of_mem_zipIdx inEffects)
  rw [finishResult_effects]
  cases effects : outcome.effects with
  | nil =>
      apply ReplacesFirst.stays
      intro effect member
      contradiction
  | cons first rest =>
      rw [effects] at replaces
      rw [List.zipIdx_cons, List.map_cons]
      cases replaces with
      | stays _ isLocal =>
          apply ReplacesFirst.stays
          intro effect member
          rcases List.mem_cons.mp member with rfl | later
          · exact (isLocal_ensureMessageIds _ _ first).trans (isLocal first (List.mem_cons_self ..))
          · exact finished rest _ (fun effect member => isLocal effect (List.mem_cons_of_mem first member)) effect later
      | replacing _ _ messages replacement permitted isLocal =>
          apply ReplacesFirst.replacing _ _ (identified env.replacedId messages)
          · rw [replacement?_ensureMessageIds, replacement]
            rfl
          · exact ⟨messages, permitted, rfl⟩
          · exact finished rest _ isLocal

/-- What the effects of a step can be: inference appends and reports usage, and any
other operation replaces the conversation at most at once, as it may. -/
inductive StepEffects (machine : Machine) (env : StepEnv) (conversation : List Message) (result : StepResult) :
    Prop where
  | infers (asked : result.askedProvider = true) (applied : result.appliedStep = some .llm)
      (effects : AppendsOrReports result.effects) (turn : List Message) (found : turn? conversation = some turn)
      (tells : forall context, context ∈ turnContextEvent machine env turn ->
        Exists fun id => Exists fun rest => result.effects = .append (ensureId id context) :: rest)
  | offline (offline : result.askedProvider = false) (name : OperationName)
      (applied : result.appliedStep = some name)
      (effects : ReplacesFirst (fun messages => Exists fun original =>
        ReplacesWith machine env conversation name original ∧ messages = identified env.replacedId original)
          result.effects)

theorem step_effects {state : State} {result : StepResult} {last : Agent}
    (stepped : step machine env state = .ok (some result, last)) :
    StepEffects machine env state.session.conversation result := by
  rcases step_applied stepped with ⟨name, earlier, later, flag, agent, applied⟩
  by_cases inference : name = .llm
  · subst inference
    rcases offer_llm_eq_accepted applied.accepted with
      ⟨_, _, _, names, turn, outcome, _, found, asked, rfl⟩ | ⟨_, turn, response, _, _, rfl⟩
    · rcases inferOn_asked machine env names turn with ⟨same, isAsked, isTrue, _⟩
      cases OperationResult.applied.inj (isAsked.symm.trans asked)
      have infers : InfersOnly (inferOn machine env names turn) := inferOn_infersOnly names turn
      cases result : inferOn machine env names turn with
      | notApplicable =>
          rw [result] at asked
          contradiction
      | applied plain =>
          rw [result] at asked infers
          cases asked
          refine .infers isTrue rfl (fun effect member => ?_) turn found fun context told => ?_
          · rcases finishResult_effect member with ⟨original, position, inEffects, rfl⟩
            rcases infers original inEffects with ⟨message, rfl⟩ | rfl
            · exact Or.inl ⟨_, rfl⟩
            · exact Or.inr rfl
          · rcases inferOn_context result with ⟨rest, effects⟩
            have alone : turnContextEvent machine env turn = [context] := by
              unfold turnContextEvent at told ⊢
              split at told
              · contradiction
              · simp only at told ⊢
                split at told
                · contradiction
                · case _ news =>
                    rw [if_neg news, List.mem_singleton.mp told]
            rw [alone] at effects
            rcases finishResult_effects_cons effects .llm (env.cancelledIn .llm) with ⟨later, finished⟩
            exact ⟨env.messageId 0, later, finished⟩
    · refine .offline rfl .llm rfl (.stays _ fun effect member => ?_)
      rcases finishResult_effect member with ⟨original, position, inEffects, rfl⟩
      rw [List.mem_singleton.mp inEffects]
      rfl
  · rcases applied.ran inference with ⟨_, outcome, ran, rfl⟩
    have replaces := runOperation_replaces inference _ ran
    exact .offline (runOperation_offline inference _ ran) name rfl (replaces.finish name _)

/-- A step replaces the conversation. -/
def StepResult.replaces (result : StepResult) : Bool :=
  result.effects.any fun effect => effect.replacement?.isSome

end AIBuddy
