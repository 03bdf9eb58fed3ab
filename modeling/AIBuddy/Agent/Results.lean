import AIBuddy.Agent.Machine
import AIBuddy.Support.Runs

namespace AIBuddy

open Runs

/-!
# What operations reach outside the session

Only three operations hand a request to a tool, only inference asks the
provider, and only commands and retrying touch what the agent remembers; none of
them touches the agent's mode.
-/

namespace OperationResult

/-- The result neither reaches a tool nor the provider. -/
def Internal : OperationResult -> Prop
  | notApplicable => True
  | applied result => result.dispatched = [] ∧ result.askedProvider = false

/-- The result does not reach the provider. -/
def Offline : OperationResult -> Prop
  | notApplicable => True
  | applied result => result.askedProvider = false

@[simp] theorem internal_notApplicable : Internal notApplicable := trivial

@[simp] theorem internal_proceed (effects : List AIBuddyEffect) : (proceed effects).Internal := ⟨rfl, rfl⟩

@[simp] theorem internal_yieldedWith (effects : List AIBuddyEffect) : (yieldedWith effects).Internal :=
  ⟨rfl, rfl⟩

@[simp] theorem offline_notApplicable : Offline notApplicable := trivial

@[simp] theorem offline_proceed (effects : List AIBuddyEffect) (dispatched : List ToolRequest) :
    (proceed effects dispatched).Offline := rfl

theorem Internal.offline {result : OperationResult} (internal : result.Internal) : result.Offline := by
  cases result with
  | notApplicable => trivial
  | applied result => exact internal.2

end OperationResult

open OperationResult

variable {machine : Machine} {env : StepEnv} {session : Session} {agent : Agent} {conversation : List Message}

/-! ## Commands -/

theorem onCommandMessage_internal {missing : String} {reply : String -> OperationResult}
    (each : forall messageId, (reply messageId).Internal) :
    Ensures (onCommandMessage missing conversation reply) Internal := by
  unfold onCommandMessage
  apply Ensures.bind
  intro messages _
  split
  · exact Ensures.error _ _
  · split
    · exact Ensures.error _ _
    · exact Ensures.ok (each _)

theorem commandResponse_internal (missing : String) (response : Message) :
    Ensures (commandResponse missing conversation response) Internal :=
  onCommandMessage_internal fun _ => internal_yieldedWith _

theorem commandPrompt_internal (missing : String) (effects : List AIBuddyEffect) :
    Ensures (commandPrompt missing conversation effects) Internal :=
  onCommandMessage_internal fun _ => internal_proceed _

private theorem compactionCommand_internal (command : SlashCommand) :
    Ensures (compactionCommand machine env command conversation) Internal := by
  unfold compactionCommand
  split
  · unfold clearCommand
    apply Ensures.bind
    intro messages _
    split
    · exact Ensures.error _ _
    · exact Ensures.ok (internal_yieldedWith _)
  split
  · unfold compactCommand
    split
    · exact commandResponse_internal _ _
    · apply Ensures.bind
      intro messages _
      split
      · exact Ensures.error _ _
      · exact Ensures.ok (internal_yieldedWith _)
  · exact Ensures.ok internal_notApplicable

private theorem commandReply_internal (missing : String) (reply : CommandReply) :
    Ensures (commandReply machine env missing conversation reply) Internal := by
  cases reply with
  | notMine => exact Ensures.ok internal_notApplicable
  | respond text => exact commandResponse_internal _ _
  | prompt messages => exact commandPrompt_internal _ _

private theorem doctorCommand_internal (command : SlashCommand) :
    Ensures (doctorCommand env command conversation) Internal := by
  unfold doctorCommand
  split
  · split
    · exact commandResponse_internal _ _
    · exact commandPrompt_internal _ _
  · exact Ensures.ok internal_notApplicable

private theorem skillCommand_internal (command : SlashCommand) :
    Ensures (skillCommand machine env command conversation) Internal := by
  unfold skillCommand
  split
  · exact commandResponse_internal _ _
  · exact commandReply_internal _ _

private theorem promptCommand_internal (command : SlashCommand) :
    Ensures (promptCommand machine env command conversation) Internal := by
  unfold promptCommand
  split
  · split
    · exact commandResponse_internal _ _
    · split
      · exact commandResponse_internal _ _
      · exact commandPrompt_internal _ _
    · exact commandReply_internal _ _
  · exact Ensures.ok internal_notApplicable

private theorem recipeCommand_internal (command : SlashCommand) :
    Ensures (recipeCommand machine env command conversation) Internal := by
  unfold recipeCommand
  split
  · exact Ensures.ok internal_notApplicable
  · exact commandResponse_internal _ _
  · split
    · exact commandResponse_internal _ _
    · exact commandPrompt_internal _ _

private theorem statusCommand_internal (command : SlashCommand) :
    Ensures (statusCommand machine env command conversation) Internal := by
  unfold statusCommand
  split
  · apply Ensures.bind
    intro text _
    exact commandResponse_internal _ _
  · exact Ensures.ok internal_notApplicable

private theorem goalResponse_internal (command : SlashCommand) (text : String) :
    Ensures (goalResponse machine env command text conversation) Internal := by
  unfold goalResponse
  simp only
  split
  · exact commandPrompt_internal _ _
  · exact commandResponse_internal _ _

/-- An operation that stays inside the session and keeps the agent's mode. -/
def KeepsInside (agent : Agent) (outcome : OperationResult × Agent) : Prop :=
  outcome.1.Internal ∧ outcome.2.aibuddyMode = agent.aibuddyMode

theorem KeepsInside.of_internal {result : Except String OperationResult} (internal : Ensures result Internal) :
    Ensures (result.map fun result => (result, agent)) (KeepsInside agent) := by
  apply Ensures.map
  intro outcome returned
  exact ⟨internal outcome returned, rfl⟩

private theorem goalCommand_keepsInside (command : SlashCommand) :
    Ensures (goalCommand machine env agent command conversation) (KeepsInside agent) := by
  unfold goalCommand
  split
  · apply Ensures.map
    intro outcome returned
    exact ⟨goalResponse_internal _ _ outcome returned, rfl⟩
  split
  · apply Ensures.map
    intro outcome returned
    exact ⟨goalResponse_internal _ _ outcome returned, rfl⟩
  · exact Ensures.ok ⟨internal_notApplicable, rfl⟩

private theorem runCommand_keepsInside (command : SlashCommand) (name : OperationName) :
    Ensures (runCommand machine env agent command conversation name) (KeepsInside agent) := by
  unfold runCommand
  cases name
  case compaction => exact KeepsInside.of_internal (compactionCommand_internal command)
  case doctor => exact KeepsInside.of_internal (doctorCommand_internal command)
  case skills => exact KeepsInside.of_internal (skillCommand_internal command)
  case recipe => exact KeepsInside.of_internal (recipeCommand_internal command)
  case toolExecution => exact KeepsInside.of_internal (promptCommand_internal command)
  case retry => exact goalCommand_keepsInside command
  all_goals exact Ensures.ok ⟨internal_notApplicable, rfl⟩

private theorem runCommands_keepsInside (command : SlashCommand) (names : List OperationName) (agent : Agent) :
    Ensures (runCommands machine env agent command conversation names) (KeepsInside agent) := by
  induction names generalizing agent with
  | nil => exact KeepsInside.of_internal (statusCommand_internal command)
  | cons name rest ih =>
      unfold runCommands
      have inside : Ensures (runCommand machine env agent command conversation name) (KeepsInside agent) :=
        runCommand_keepsInside command name
      split
      · exact Ensures.error _ _
      · case _ result next ran => exact Ensures.ok (inside _ ran)
      · case _ next ran =>
          intro outcome returned
          have later := ih next outcome returned
          exact ⟨later.1, later.2.trans (inside _ ran).2⟩

theorem slashCommandRun_keepsInside (handlers : List OperationName) :
    Ensures (slashCommandRun machine env agent handlers conversation) (KeepsInside agent) := by
  unfold slashCommandRun
  apply Ensures.bind
  intro messages _
  unfold commandTurn
  split
  · split
    · exact Ensures.ok ⟨internal_notApplicable, rfl⟩
    · exact runCommands_keepsInside _ _ _
  · exact Ensures.ok ⟨internal_notApplicable, rfl⟩

/-! ## Operations on the turn -/

private theorem steerRun_internal : Ensures (steerRun env conversation) Internal := by
  unfold steerRun
  apply Ensures.bind
  intro messages _
  apply Ensures.bind
  intro role _
  apply Ensures.ok
  split <;> simp

private theorem maxTurnsRun_internal : Ensures (maxTurnsRun machine env conversation) Internal := by
  unfold maxTurnsRun
  apply Ensures.bind
  intro messages _
  apply Ensures.ok
  split <;> simp

private theorem bangShellRun_internal : Ensures (bangShellRun env conversation) Internal := by
  unfold bangShellRun
  apply Ensures.bind
  intro messages _
  split
  · exact Ensures.ok internal_notApplicable
  split
  · exact Ensures.ok internal_notApplicable
  split
  · apply Ensures.bind
    intro role _
    apply Ensures.ok
    split <;> simp
  · exact Ensures.ok (internal_proceed _)

private theorem compactionRun_internal : Ensures (compactionRun machine env conversation) Internal := by
  unfold compactionRun
  split
  · exact Ensures.ok internal_notApplicable
  · apply Ensures.bind
    intro messages _
    apply Ensures.bind
    intro due _
    apply Ensures.ok
    split
    · exact internal_notApplicable
    · split <;> simp

private theorem toolPairCompactionRun_internal :
    Ensures (toolPairCompactionRun machine env conversation) Internal := by
  unfold toolPairCompactionRun
  split
  · exact Ensures.ok internal_notApplicable
  · apply Ensures.bind
    intro messages _
    apply Ensures.ok
    split <;> simp

private theorem toolApprovalRun_internal : Ensures (toolApprovalRun machine env agent conversation) Internal := by
  unfold toolApprovalRun
  split
  · exact Ensures.ok internal_notApplicable
  · apply Ensures.bind
    intro messages _
    apply Ensures.bind
    intro inspected _
    apply Ensures.ok
    split <;> simp

private theorem unknownToolRun_internal :
    Ensures (unknownToolRun machine env session conversation) Internal := by
  unfold unknownToolRun
  apply Ensures.bind
  intro messages _
  apply Ensures.ok
  split
  · exact internal_notApplicable
  · exact internal_proceed _

private theorem stopHookRun_internal : Ensures (stopHookRun machine env conversation) Internal := by
  unfold stopHookRun
  apply Ensures.bind
  intro messages _
  apply Ensures.ok
  split
  · unfold stopHookFinished
    split
    · exact internal_yieldedWith _
    · simp only
      split <;> simp
  · exact internal_notApplicable

private theorem retryChecked_internal (retryConfig : RetryConfig) (messages : List Message) :
    (retryChecked env retryConfig conversation messages).Internal := by
  unfold retryChecked
  split
  · exact internal_proceed _
  · exact internal_notApplicable
  · simp only
    split
    · exact internal_proceed _
    · split <;> exact internal_proceed _

private theorem retryRun_keepsInside :
    Ensures (retryRun machine env agent session conversation) (KeepsInside agent) := by
  unfold retryRun
  apply Ensures.bind
  intro messages _
  apply Ensures.ok
  split
  · unfold retryFinished
    split
    · exact ⟨internal_proceed _, rfl⟩
    · exact ⟨internal_proceed _, rfl⟩
    · refine ⟨?_, rfl⟩
      simp only
      split
      · exact internal_notApplicable
      · exact retryChecked_internal _ _
  · exact ⟨internal_notApplicable, rfl⟩

/-! ## Tools -/

private theorem skillRun_offline : Ensures (skillRun machine env session conversation) Offline := by
  unfold skillRun
  apply Ensures.bind
  intro messages _
  apply Ensures.ok
  split
  · exact offline_notApplicable
  · exact offline_proceed _ _

private theorem recipeRunActive_offline (schema : Json) (messages : List Message) :
    Ensures (recipeRunActive machine env session schema messages) Offline := by
  unfold recipeRunActive
  split
  · split
    · exact Ensures.ok (offline_proceed _ _)
    split
    · exact Ensures.ok offline_notApplicable
    · split
      · exact Ensures.error _ _
      · exact Ensures.ok (offline_proceed _ _)
  · split
    · apply Ensures.bind
      intro role _
      apply Ensures.ok
      split
      · exact offline_proceed _ _
      · exact offline_notApplicable
    · apply Ensures.ok
      split
      · exact offline_proceed _ _
      · exact offline_notApplicable

private theorem recipeRun_offline : Ensures (recipeRun machine env session conversation) Offline := by
  unfold recipeRun
  apply Ensures.bind
  intro schema _
  split
  · exact Ensures.ok offline_notApplicable
  · split
    · intro result returned
      exact (commandResponse_internal _ _ result returned).offline
    · apply Ensures.bind
      intro messages _
      exact recipeRunActive_offline _ _

private theorem toolExecutionRun_offline :
    Ensures (toolExecutionRun machine env agent conversation) Offline := by
  unfold toolExecutionRun
  apply Ensures.bind
  intro messages _
  apply Ensures.ok
  split
  · exact offline_notApplicable
  · split <;> exact offline_proceed _ _

/-! ## All operations -/

/-- The operations that hand requests to tools. -/
def OperationName.dispatches (name : OperationName) : Prop :=
  name = .skills ∨ name = .recipe ∨ name = .toolExecution

theorem runOperation_keepsInside {name : OperationName} (notDispatching : ¬ name.dispatches)
    (other : name ≠ .llm) :
    Ensures (runOperation machine env session agent name) (KeepsInside agent) := by
  unfold runOperation
  cases name
  case entryHook =>
    apply KeepsInside.of_internal
    unfold entryHookRun
    apply Ensures.bind
    intro messages _
    exact Ensures.ok internal_notApplicable
  case slashCommand => exact slashCommandRun_keepsInside _
  case steer => exact KeepsInside.of_internal steerRun_internal
  case maxTurns => exact KeepsInside.of_internal maxTurnsRun_internal
  case bangShell => exact KeepsInside.of_internal bangShellRun_internal
  case compaction => exact KeepsInside.of_internal compactionRun_internal
  case toolPairCompaction => exact KeepsInside.of_internal toolPairCompactionRun_internal
  case toolApproval => exact KeepsInside.of_internal toolApprovalRun_internal
  case doctor => exact Ensures.ok ⟨internal_notApplicable, rfl⟩
  case project => exact Ensures.ok ⟨internal_notApplicable, rfl⟩
  case unknownTool => exact KeepsInside.of_internal unknownToolRun_internal
  case retry => exact retryRun_keepsInside
  case stopHook => exact KeepsInside.of_internal stopHookRun_internal
  case exitOnError =>
    apply KeepsInside.of_internal
    apply Ensures.ok
    split <;> simp
  case skills => exact absurd (Or.inl rfl) notDispatching
  case recipe => exact absurd (Or.inr (Or.inl rfl)) notDispatching
  case toolExecution => exact absurd (Or.inr (Or.inr rfl)) notDispatching
  case llm => exact absurd rfl other

/-- Only inference asks the provider. -/
theorem runOperation_offline {name : OperationName} (other : name ≠ .llm) :
    Ensures (runOperation machine env session agent name) fun outcome => outcome.1.Offline := by
  by_cases dispatching : name.dispatches
  · rcases dispatching with rfl | rfl | rfl
    · exact Ensures.map skillRun_offline
    · exact Ensures.map recipeRun_offline
    · exact Ensures.map toolExecutionRun_offline
  · intro outcome returned
    exact (runOperation_keepsInside dispatching other outcome returned).1.offline

theorem runOperation_mode {name : OperationName} :
    Ensures (runOperation machine env session agent name) fun outcome =>
      outcome.2.aibuddyMode = agent.aibuddyMode := by
  by_cases dispatching : name.dispatches
  · rcases dispatching with rfl | rfl | rfl <;>
      exact Ensures.map fun _ _ => rfl
  · by_cases inference : name = .llm
    · cases inference
      exact Ensures.map fun _ _ => rfl
    · intro outcome returned
      exact (runOperation_keepsInside dispatching inference outcome returned).2

end AIBuddy
