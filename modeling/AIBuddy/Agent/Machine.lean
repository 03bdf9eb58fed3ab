import AIBuddy.Agent.Commands
import AIBuddy.Agent.Inference

namespace AIBuddy

/-!
# The state machine

A step offers the conversation to the operations in a fixed order and takes the
result of the first one that applies.  A run reloads the session, takes a step
and persists its effects, until no operation applies or one of them returns to
the client.  Cancellation is noticed before, in and after every operation: from
then on operations do not start, and only inference answers what is left.
-/

/-! ## One operation -/

/-- The operations before the slash commands' handlers and inference. -/
def handlerOrder (managesOwnContext : Bool) : List OperationName :=
  [.steer, .maxTurns, .bangShell] ++ (if managesOwnContext then [] else [.compaction]) ++
    [.toolPairCompaction, .toolApproval, .doctor, .project, .skills, .recipe, .toolExecution, .unknownTool,
      .retry, .stopHook, .exitOnError]

/-- The steps of the machine in order. -/
def stepOrder (managesOwnContext : Bool) : List OperationName :=
  [.entryHook, .slashCommand] ++ handlerOrder managesOwnContext ++ [.llm]

section Step

variable (machine : Machine) (env : StepEnv) (session : Session)

/-- Run one operation.  Only commands and retrying touch the agent's memory. -/
def runOperation (agent : Agent) (name : OperationName) : Except String (OperationResult × Agent) :=
  let conversation := session.conversation
  let keeping := fun result : Except String OperationResult => result.map fun result => (result, agent)
  match name with
  | .entryHook => keeping (entryHookRun conversation)
  | .slashCommand =>
      slashCommandRun machine env agent (handlerOrder machine.managesOwnContext) conversation
  | .steer => keeping (steerRun env conversation)
  | .maxTurns => keeping (maxTurnsRun machine env conversation)
  | .bangShell => keeping (bangShellRun env conversation)
  | .compaction => keeping (compactionRun machine env conversation)
  | .toolPairCompaction => keeping (toolPairCompactionRun machine env conversation)
  | .toolApproval => keeping (toolApprovalRun machine env agent conversation)
  | .doctor | .project => .ok (.notApplicable, agent)
  | .skills => keeping (skillRun machine env session conversation)
  | .recipe => keeping (recipeRun machine env session conversation)
  | .toolExecution => keeping (toolExecutionRun machine env agent conversation)
  | .unknownTool => keeping (unknownToolRun machine env session conversation)
  | .retry => retryRun machine env agent session conversation
  | .stopHook => keeping (stopHookRun machine env conversation)
  | .exitOnError => keeping (exitOnErrorRun conversation)
  | .llm => keeping (do
      let names <- collectInferenceTools env session
      infer machine env names conversation)

/-- What becomes of an operation: it is passed over without a result, it ends
the step without one, or it has a result. -/
inductive Attempt where
  | passed
  | stopped
  | returned (result : OperationResult)

/-- Start an operation that is not cancelled yet.  Inference is passed over when
it does not apply, and a cancellation that it notices while it gathers the tools
ends the step. -/
def attempt (agent : Agent) (name : OperationName) : Except String (Attempt × Agent) :=
  if name = .llm ∧ inferenceApplies session.conversation = false then .ok (.passed, agent)
  else if name = .llm ∧ env.cancelledBy .llm 1 = true then .ok (.stopped, agent)
  else (runOperation machine env session agent name).map fun outcome => (.returned outcome.1, outcome.2)

/-- The cancellation hook of an operation. -/
def cancelHook (name : OperationName) (result : OperationResult) : Except String OperationResult :=
  if name = .llm then inferenceCancel machine env session.conversation result else .ok result

/-- A result under the name of its operation, with ids for its messages.  What
is applied during a cancellation returns to the client. -/
def finishResult (name : OperationName) (cancelled : Bool) (result : StepResult) : StepResult :=
  { result with
    effects := result.effects.zipIdx.map fun entry =>
      ensureMessageIds (env.messageId entry.2) env.replacedId entry.1
    appliedStep := some name
    yieldToClient := result.yieldToClient || cancelled }

/-- The answer of an operation to the conversation. -/
inductive Offer where
  | declined
  | stopped
  | accepted (result : StepResult)

/-- Start an operation unless the run is cancelled already. -/
def tryOperation (cancelled : Bool) (agent : Agent) (name : OperationName) : Except String (Attempt × Agent) :=
  if cancelled || env.cancelledBy name 0 then .ok (.returned .notApplicable, agent)
  else attempt machine env session agent name

/-- On a cancelled run, the hook of an operation decides about its result. -/
def hookedResult (cancelled : Bool) (name : OperationName) (result : OperationResult) :
    Except String OperationResult :=
  if cancelled then cancelHook machine env session name result else .ok result

/-- What an operation answers, given what became of it. -/
def answerOffer (cancelled : Bool) (name : OperationName) : Attempt -> Except String Offer
  | .passed => .ok .declined
  | .stopped => .ok .stopped
  | .returned result =>
      (hookedResult machine env session cancelled name result).map fun result =>
        match result with
        | .notApplicable => .declined
        | .applied result => .accepted (finishResult env name cancelled result)

/-- Offer the conversation to one operation. -/
def offer (cancelled : Bool) (agent : Agent) (name : OperationName) : Except String (Offer × Agent) := do
  let outcome <- tryOperation machine env session cancelled agent name
  let answer <- answerOffer machine env session (cancelled || env.cancelledIn name) name outcome.1
  return (answer, outcome.2)

/-- Offer the conversation to operations in order until one accepts it. -/
def stepFrom (cancelled : Bool) (agent : Agent) : List OperationName -> Except String (Option StepResult × Agent)
  | [] => .ok (none, agent)
  | name :: rest =>
      match offer machine env session cancelled agent name with
      | .error error => .error error
      | .ok (.declined, agent) => stepFrom (cancelled || env.cancelledIn name) agent rest
      | .ok (.stopped, agent) => .ok (none, agent)
      | .ok (.accepted result, agent) => .ok (some result, agent)

end Step

/-- One pass over the operations. -/
def step (machine : Machine) (env : StepEnv) (state : State) : Except String (Option StepResult × Agent) :=
  stepFrom machine env state.session false state.agent (stepOrder machine.managesOwnContext)

/-! ## Runs -/

/-- The session after a step. -/
def applyResult (session : Session) : Option StepResult -> Except String Session
  | none => .ok session
  | some result => applyEffects session result.effects

/-- A step and its effects on the session. -/
def advance (machine : Machine) (env : StepEnv) (state : State) : Except String (Option StepResult × State) := do
  let outcome <- step machine env state
  let session <- applyResult state.session outcome.1
  return (outcome.1, ⟨outcome.2, session⟩)

/-- Run the machine, with one environment for each step.  The run ends when
nothing applies, when a step returns to the client, or when the environments
are used up. -/
def runMachine (machine : Machine) : List StepEnv -> State -> Except String State
  | [], state => .ok state
  | env :: rest, state => do
      let (result, next) <- advance machine env state
      match result with
      | none => return next
      | some result => if result.yieldToClient then return next else runMachine machine rest next

end AIBuddy
