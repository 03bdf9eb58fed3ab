import AIBuddy.Agent.Machine
import AIBuddy.Support.Runs

namespace AIBuddy

/-!
# Runs of an agent

Between the steps of the machine the session receives messages from the user,
decisions about tool calls, and changes of mode.  A run is any sequence of these
events, and a state is reachable when some run from a first session leads to it.
-/

inductive Event where
  | step (env : StepEnv)
  | submit (message : Message)
  | decide (now : Int) (messageId requestId : String) (permission : Permission)
  | setMode (agentMode sessionMode : AIBuddyMode)

/-- The message that records a decision. -/
def decisionMessage (now : Int) (messageId requestId : String) (permission : Permission) : Message :=
  (((Message.user now).withVisibility false false).withContent
    (.actionRequired (.toolConfirmationResponse requestId permission))).withId messageId

/-- Record a decision about a request that awaits one. -/
def persistToolConfirmationDecision (session : Session) (now : Int) (messageId requestId : String)
    (permission : Permission) : Except String (List Message) := do
  let messages <- messagesSinceKickoff session.conversation
  let approvalState := ApprovalState.fromMessages messages
  if !approvalState.hasConfirmationRequest requestId then
    .error ("Tool request " ++ requestId ++ " is not awaiting confirmation in session " ++ session.id)
  else
    match approvalState.confirmationResponse requestId with
    | some persisted =>
        if persisted = permission then .ok session.rows
        else .error ("Tool request " ++ requestId ++ " already has a different confirmation decision")
    | none =>
        if approvalState.hasToolResponse requestId then
          .error ("Tool request " ++ requestId ++ " already has a response")
        else .ok (addMessage session.rows (decisionMessage now messageId requestId permission))

theorem persistToolConfirmationDecision_rows {session : Session} {now : Int} {messageId requestId : String}
    {permission : Permission} {rows : List Message}
    (persisted : persistToolConfirmationDecision session now messageId requestId permission = .ok rows) :
    rows = session.rows ∨ rows = addMessage session.rows (decisionMessage now messageId requestId permission) := by
  unfold persistToolConfirmationDecision at persisted
  rcases (Runs.bind_eq_ok_iff _ _ _).mp persisted with ⟨messages, _, decided⟩
  simp only at decided
  split at decided
  · contradiction
  · split at decided
    · split at decided
      · exact Or.inl (Except.ok.inj decided).symm
      · contradiction
    · split at decided
      · contradiction
      · exact Or.inr (Except.ok.inj decided).symm

/-- The state after an event. -/
def occur (machine : Machine) (event : Event) (state : State) : Except String State :=
  match event with
  | .step env => (advance machine env state).map Prod.snd
  | .submit message => .ok { state with session.rows := addMessage state.session.rows message }
  | .decide now messageId requestId permission =>
      (persistToolConfirmationDecision state.session now messageId requestId permission).map fun rows =>
        { state with session.rows := rows }
  | .setMode agentMode sessionMode =>
      .ok { state with agent.aibuddyMode := agentMode, session.aibuddyMode := sessionMode }

/-- The state after a run. -/
def runEvents (machine : Machine) : List Event -> State -> Except String State :=
  Runs.run (occur machine)

/-- Whether a condition holds before every step of a run. -/
def AlongSteps (machine : Machine) (condition : State -> StepEnv -> Prop) : List Event -> State -> Prop :=
  Runs.Along (occur machine) fun state event =>
    match event with
    | .step env => condition state env
    | _ => True

instance decidableAlongSteps (machine : Machine) (condition : State -> StepEnv -> Prop)
    [forall state env, Decidable (condition state env)] (events : List Event) (start : State) :
    Decidable (AlongSteps machine condition events start) :=
  have (state : State) (event : Event) : Decidable (match event with
      | .step env => condition state env
      | _ => True) :=
    match event with
    | .step env => inferInstanceAs (Decidable (condition state env))
    | .submit _ | .decide _ _ _ _ | .setMode _ _ => inferInstanceAs (Decidable True)
  Runs.decidableAlong _ events start

/-- A step in the course of a run: the state in which it was taken, what came of
it, and the state behind it. -/
structure StepIn (machine : Machine) (events : List Event) (start state : State) (env : StepEnv)
    (result : Option StepResult) (next : State) : Prop where
  reached : Exists fun before => Exists fun after =>
    events = before ++ .step env :: after ∧ runEvents machine before start = .ok state
  advanced : advance machine env state = .ok (result, next)

theorem StepIn.along {machine : Machine} {events : List Event} {start state : State} {env : StepEnv}
    {result : Option StepResult} {next : State} (taken : StepIn machine events start state env result next)
    {condition : State -> StepEnv -> Prop} (along : AlongSteps machine condition events start) :
    condition state env := by
  rcases taken.reached with ⟨before, after, rfl, reached⟩
  exact (Runs.Along.of_append along reached).1

end AIBuddy
