import AIBuddy.Agent.Offers
import AIBuddy.Agent.Run

namespace AIBuddy

open LastSuffix
open Runs

/-!
# A turn that ends with its budget

The machine looks at the budget of a turn before it looks at whether the turn has ended.  The
reply loop looks at it before every request, and so never between the end of a turn and its
checks.
-/

/-! ## The reply loop -/

/-- An iteration of the reply loop that is under way: whether it repeats a turn that a hook denied
or that was empty, and whether the checks at its end let the turn end. -/
structure ReplyIteration where
  repeats : Bool
  closes : Bool

/-- What becomes of a reply: it goes on, it has used its budget, or it ended. -/
inductive ReplyOutcome where
  | underWay
  | outOfTurns
  | closed
deriving DecidableEq

/-- The turns taken when an iteration asks the provider. -/
def turnsAfter (turnsTaken : Nat) (iteration : ReplyIteration) : Nat :=
  if iteration.repeats then turnsTaken else turnsTaken + 1

/-- The budget of the reply loop. -/
def replyLoop (maxTurns : Nat) : Nat -> List ReplyIteration -> ReplyOutcome
  | _, [] => .underWay
  | turnsTaken, iteration :: rest =>
      if maxTurns < turnsAfter turnsTaken iteration then .outOfTurns
      else if iteration.closes then .closed
      else replyLoop maxTurns (turnsAfter turnsTaken iteration) rest

theorem replyLoop_closed_iff {maxTurns turnsTaken : Nat} {earlier : List ReplyIteration} {final : ReplyIteration}
    (goesOn : forall iteration, iteration ∈ earlier -> iteration.closes = false) (closes : final.closes = true) :
    replyLoop maxTurns turnsTaken (earlier ++ [final]) = .closed ↔
      (earlier ++ [final]).foldl turnsAfter turnsTaken ≤ maxTurns := by
  have grows : forall (iterations : List ReplyIteration) (taken : Nat), taken ≤ iterations.foldl turnsAfter taken := by
    intro iterations
    induction iterations with
    | nil => exact fun taken => Nat.le_refl taken
    | cons iteration rest ih =>
        intro taken
        have first : taken ≤ turnsAfter taken iteration := by
          unfold turnsAfter
          split <;> omega
        exact first.trans (ih _)
  induction earlier generalizing turnsTaken with
  | nil =>
      simp only [List.nil_append, replyLoop, closes, if_true, List.foldl_cons, List.foldl_nil]
      split <;> simp <;> omega
  | cons iteration rest ih =>
      have onwards := goesOn iteration (List.mem_cons_self ..)
      simp only [List.cons_append, replyLoop, onwards, List.foldl_cons]
      split
      · rename_i exceeds
        have later := grows (rest ++ [final]) (turnsAfter turnsTaken iteration)
        simp only [reduceCtorEq, false_iff, Nat.not_le]
        exact Nat.lt_of_lt_of_le exceeds later
      · exact ih fun other member => goesOn other (List.mem_cons_of_mem _ member)

/-! ## Budgets of the machine -/

/-- A machine with another budget. -/
def Machine.withBudget (machine : Machine) (maxTurns : Nat) : Machine :=
  { machine with maxTurns := maxTurns }

section Offers

variable {machine : Machine} {env : StepEnv} {session : Session} {agent last : Agent} {name : OperationName}

theorem offer_of_cancelled (other : name ≠ .llm) {cancelled : Bool}
    (early : (cancelled || env.cancelledBy name 0) = true) :
    offer machine env session cancelled agent name = .ok (.declined, agent) := by
  apply (offer_eq_ok_iff _ _ _ _ _).mpr
  refine ⟨_, tryOperation_of_cancelled agent early, ?_⟩
  rw [answerOffer, hookedResult_of_ne_llm other]
  rfl

theorem offer_of_notApplicable (other : name ≠ .llm) (cancelled : Bool)
    (idle : runOperation machine env session agent name = .ok (.notApplicable, agent)) :
    offer machine env session cancelled agent name = .ok (.declined, agent) := by
  cases early : cancelled || env.cancelledBy name 0 with
  | true => exact offer_of_cancelled other early
  | false =>
      rcases Bool.or_eq_false_iff.mp early with ⟨rfl, uncancelled⟩
      apply (offer_eq_ok_iff _ _ _ _ _).mpr
      refine ⟨.returned .notApplicable, ?_, ?_⟩
      · rw [tryOperation_of_ne_llm other uncancelled, idle]
        rfl
      · rw [answerOffer, hookedResult_of_ne_llm other]
        rfl

theorem offer_of_applied (other : name ≠ .llm) (uncancelled : env.cancelledBy name 0 = false) {outcome : StepResult}
    (ran : runOperation machine env session agent name = .ok (.applied outcome, last)) :
    offer machine env session false agent name =
      .ok (.accepted (finishResult env name (env.cancelledIn name) outcome), last) := by
  apply (offer_eq_ok_iff _ _ _ _ _).mpr
  refine ⟨.returned (.applied outcome), ?_, ?_⟩
  · rw [tryOperation_of_ne_llm other uncancelled, ran]
    rfl
  · rw [answerOffer, hookedResult_of_ne_llm other]
    rfl

/-- Operations that find nothing to do are passed over. -/
theorem stepFrom_of_idle {names : List OperationName} (other : forall name, name ∈ names -> name ≠ .llm)
    (idle : forall name, name ∈ names -> runOperation machine env session agent name = .ok (.notApplicable, agent))
    (cancelled : Bool) (rest : List OperationName) :
    stepFrom machine env session cancelled agent (names ++ rest) =
      stepFrom machine env session (cancelled || names.any env.cancelledIn) agent rest := by
  induction names generalizing cancelled with
  | nil => rw [List.nil_append, List.any_nil, Bool.or_false]
  | cons name names ih =>
      have declined := offer_of_notApplicable (other name (List.mem_cons_self ..)) cancelled
        (idle name (List.mem_cons_self ..))
      have onwards := ih (fun later member => other later (List.mem_cons_of_mem _ member))
        (fun later member => idle later (List.mem_cons_of_mem _ member)) (cancelled || env.cancelledIn name)
      rw [List.cons_append, stepFrom, declined]
      simp only
      rw [onwards, List.any_cons, Bool.or_assoc]

theorem stepFrom_cancelled_withBudget (maxTurns : Nat) (agent : Agent) (names : List OperationName) :
    stepFrom (machine.withBudget maxTurns) env session true agent names =
      stepFrom machine env session true agent names := by
  induction names generalizing agent with
  | nil => rfl
  | cons name rest ih =>
      have same : offer (machine.withBudget maxTurns) env session true agent name =
          offer machine env session true agent name := by
        unfold offer
        rw [tryOperation_of_cancelled agent (Bool.true_or _), tryOperation_of_cancelled agent (Bool.true_or _)]
        rfl
      unfold stepFrom
      rw [same]
      simp only [Bool.true_or, ih]

end Offers

/-! ## The end of a turn -/

section Finished

variable {machine : Machine} {env : StepEnv} {state : State} {turn : List Message}

theorem entryHookRun_eq (found : turn? state.session.conversation = some turn) (agent : Agent) :
    runOperation machine env state.session agent .entryHook = .ok (.notApplicable, agent) := by
  simp only [runOperation, entryHookRun, (messagesSinceKickoff_eq_ok_iff _ _).mpr found]
  rfl

theorem one_lt_length_of_assistant (found : turn? state.session.conversation = some turn) {last : Message}
    (ends : turn.getLast? = some last) (assistant : last.role = .assistant) : 1 < turn.length := by
  rcases (suffixFromLast_eq_some_iff _ _ _).mp found with ⟨_, first, rest, _, rfl, opens, _⟩
  cases rest with
  | nil =>
      rw [List.getLast?_singleton] at ends
      cases ends
      simp only [isKickoff, Bool.and_eq_true, beq_iff_eq] at opens
      rw [assistant] at opens
      exact absurd opens.1.1 (by decide)
  | cons second rest => exact Nat.succ_lt_succ (Nat.succ_pos _)

theorem slashCommandRun_of_assistant (found : turn? state.session.conversation = some turn) {last : Message}
    (ends : turn.getLast? = some last) (assistant : last.role = .assistant) (agent : Agent) :
    runOperation machine env state.session agent .slashCommand = .ok (.notApplicable, agent) := by
  have long := one_lt_length_of_assistant found ends assistant
  simp only [runOperation, slashCommandRun, (messagesSinceKickoff_eq_ok_iff _ _).mpr found, Runs.bind_eq_ok_iff]
  cases turn with
  | nil => cases ends
  | cons first others =>
      cases others with
      | nil => exact absurd long (Nat.lt_irrefl 1)
      | cons second rest => exact ⟨_, rfl, rfl⟩

theorem assistant_of_endsTurn (ended : endsTurn turn = true) :
    Exists fun last => turn.getLast? = some last ∧ last.role = .assistant := by
  unfold endsTurn at ended
  split at ended
  · contradiction
  · case _ last ends =>
      simp only [Bool.and_eq_true, beq_iff_eq] at ended
      exact ⟨last, ends, ended.1.1⟩

theorem steerRun_of_endsTurn (found : turn? state.session.conversation = some turn) (ended : endsTurn turn = true)
    (agent : Agent) :
    runOperation machine env state.session agent .steer =
      .ok (if env.steerQueue.isEmpty then .notApplicable
        else .proceed (env.steerQueue.map fun message => .append message.withSteer), agent) := by
  have role : Exists fun role => lastEffectiveRole turn = .ok role := by
    unfold lastEffectiveRole
    cases last : turn.getLast? with
    | none => simp [endsTurn, last] at ended
    | some message => exact ⟨_, rfl⟩
  rcases role with ⟨role, read⟩
  simp only [runOperation, steerRun, (messagesSinceKickoff_eq_ok_iff _ _).mpr found]
  change Except.map _ (lastEffectiveRole turn >>= _) = _
  rw [read]
  change Except.ok _ = _
  rw [ended]
  simp

theorem maxTurnsRun_eq (found : turn? state.session.conversation = some turn) (agent : Agent) :
    runOperation machine env state.session agent .maxTurns =
      .ok (if assistantTurnCount turn < machine.maxTurns then .notApplicable
        else .yieldedWith [.append (assistantText machine env maxTurnsMessage)], agent) := by
  simp only [runOperation, maxTurnsRun, (messagesSinceKickoff_eq_ok_iff _ _).mpr found]
  rfl

/-- What comes before the look at the budget. -/
def beforeBudget : List OperationName :=
  [.entryHook, .slashCommand, .steer]

/-- Something comes before the look at the budget: a message that the user queued, or a
cancellation. -/
def Preempted (env : StepEnv) : Prop :=
  env.steerQueue ≠ [] ∨ beforeBudget.any env.cancelledIn = true ∨ env.cancelledBy .maxTurns 0 = true

theorem stepOrder_eq (managesOwnContext : Bool) :
    stepOrder managesOwnContext =
      .entryHook :: .slashCommand :: .steer :: .maxTurns :: (stepOrder managesOwnContext).drop 4 := by
  cases managesOwnContext <;> rfl

/-- Whether a message that the user queued comes too late for this step. -/
def cancelledBeforeSteer (env : StepEnv) : Bool :=
  (env.cancelledIn .entryHook || env.cancelledIn .slashCommand) || env.cancelledBy .steer 0

theorem cancelledIn_of_beforeSteer (cancelled : cancelledBeforeSteer env = true) :
    beforeBudget.any env.cancelledIn = true := by
  simp only [cancelledBeforeSteer, Bool.or_eq_true] at cancelled
  simp only [beforeBudget, List.any_cons, List.any_nil, Bool.or_false, Bool.or_eq_true]
  rcases cancelled with (entry | command) | steer
  · exact Or.inl entry
  · exact Or.inr (Or.inl command)
  · exact Or.inr (Or.inr (cancelledIn_of_cancelledBy steer))

theorem step_of_endsTurn (found : turn? state.session.conversation = some turn) (ended : endsTurn turn = true) :
    step machine env state = stepFrom machine env state.session
      (env.cancelledIn .entryHook || env.cancelledIn .slashCommand) state.agent
        (.steer :: .maxTurns :: (stepOrder machine.managesOwnContext).drop 4) := by
  rcases assistant_of_endsTurn ended with ⟨last, ends, assistant⟩
  have idle : forall name, name ∈ [OperationName.entryHook, .slashCommand] ->
      runOperation machine env state.session state.agent name = .ok (.notApplicable, state.agent) := by
    intro name member
    rcases List.mem_pair.mp member with rfl | rfl
    · exact entryHookRun_eq found state.agent
    · exact slashCommandRun_of_assistant found ends assistant state.agent
  have first := stepFrom_of_idle (by decide) idle false
    (.steer :: .maxTurns :: (stepOrder machine.managesOwnContext).drop 4)
  rw [step, stepOrder_eq]
  simpa using first

/-- A queued message comes before the budget. -/
theorem step_of_steered (found : turn? state.session.conversation = some turn) (ended : endsTurn turn = true)
    (queued : env.steerQueue ≠ []) (inTime : cancelledBeforeSteer env = false) :
    step machine env state = .ok (some (finishResult env .steer (env.cancelledIn .steer)
      { effects := env.steerQueue.map fun message => .append message.withSteer }), state.agent) := by
  simp only [cancelledBeforeSteer, Bool.or_eq_false_iff] at inTime
  have ran : runOperation machine env state.session state.agent .steer = _ :=
    steerRun_of_endsTurn found ended state.agent
  rw [if_neg (by simpa using queued)] at ran
  rw [step_of_endsTurn found ended, inTime.1.1, inTime.1.2, Bool.false_or, stepFrom,
    offer_of_applied (by decide) inTime.2 ran]

theorem step_of_unsteered (found : turn? state.session.conversation = some turn) (ended : endsTurn turn = true)
    (unsteered : env.steerQueue = [] ∨ cancelledBeforeSteer env = true) :
    step machine env state = stepFrom machine env state.session (beforeBudget.any env.cancelledIn) state.agent
      (.maxTurns :: (stepOrder machine.managesOwnContext).drop 4) := by
  have declined : offer machine env state.session (env.cancelledIn .entryHook || env.cancelledIn .slashCommand)
      state.agent .steer = .ok (.declined, state.agent) := by
    rcases unsteered with empty | cancelled
    · apply offer_of_notApplicable (by decide)
      rw [steerRun_of_endsTurn found ended, empty]
      rfl
    · exact offer_of_cancelled (by decide) cancelled
  rw [step_of_endsTurn found ended, stepFrom, declined]
  simp only [beforeBudget, List.any_cons, List.any_nil, Bool.or_false, Bool.or_assoc]

/-- The budget does not matter once the run is cancelled. -/
theorem stepFrom_maxTurns_of_cancelled {cancelled : Bool} (early : (cancelled || env.cancelledBy .maxTurns 0) = true)
    (agent : Agent) (rest : List OperationName) :
    stepFrom machine env state.session cancelled agent (.maxTurns :: rest) =
      stepFrom machine env state.session true agent rest := by
  have flag : (cancelled || env.cancelledIn .maxTurns) = true := by
    rcases (Bool.or_eq_true _ _).mp early with before | atStart
    · rw [before, Bool.true_or]
    · rw [cancelledIn_of_cancelledBy atStart, Bool.or_true]
  rw [stepFrom, offer_of_cancelled (by decide) early]
  simp only [flag]

theorem step_of_usedUp (found : turn? state.session.conversation = some turn) (ended : endsTurn turn = true)
    (usedUp : machine.maxTurns ≤ assistantTurnCount turn) (free : ¬ Preempted env) :
    step machine env state = .ok (some (finishResult env .maxTurns (env.cancelledIn .maxTurns)
      { effects := [.append (assistantText machine env maxTurnsMessage)], yieldToClient := true }), state.agent) := by
  simp only [Preempted, not_or, Bool.not_eq_true, not_not] at free
  have ran : runOperation machine env state.session state.agent .maxTurns = _ := maxTurnsRun_eq found state.agent
  rw [if_neg (Nat.not_lt.mpr usedUp)] at ran
  rw [step_of_unsteered found ended (Or.inl free.1), free.2.1, stepFrom, offer_of_applied (by decide) free.2.2 ran]

theorem step_maxTurns_of_within (found : turn? state.session.conversation = some turn)
    (within : assistantTurnCount turn < machine.maxTurns) {result : StepResult} {last : Agent}
    (stepped : step machine env state = .ok (some result, last)) : result.appliedStep ≠ some .maxTurns := by
  intro named
  rcases step_applied stepped with ⟨name, before, after, flag, agent, applied⟩
  cases applied.name_eq named
  rcases applied.ran (by decide) with ⟨_, outcome, ran, _⟩
  rw [maxTurnsRun_eq found, if_pos within] at ran
  cases ran

/-- The machine closes a turn as it would with any larger budget. -/
def ClosesAsWithLargerBudget (machine : Machine) (env : StepEnv) (state : State) : Prop :=
  forall maxTurns, machine.maxTurns < maxTurns -> step (machine.withBudget maxTurns) env state = step machine env state

/-- A turn that ends with exactly its budget is closed as with a larger one only when the budget
is not looked at, because of a queued message or a cancellation. -/
theorem step_closesAsWithLargerBudget_iff (found : turn? state.session.conversation = some turn)
    (ended : endsTurn turn = true) (exact : assistantTurnCount turn = machine.maxTurns) :
    ClosesAsWithLargerBudget machine env state ↔ Preempted env := by
  constructor
  · intro closes
    by_contra free
    have same := closes (machine.maxTurns + 1) (Nat.lt_succ_self _)
    rw [step_of_usedUp found ended exact.ge free] at same
    have within : assistantTurnCount turn < (machine.withBudget (machine.maxTurns + 1)).maxTurns := by
      rw [exact]
      exact Nat.lt_succ_self _
    exact step_maxTurns_of_within found within same rfl
  · intro preempted maxTurns _
    by_cases steered : env.steerQueue ≠ [] ∧ cancelledBeforeSteer env = false
    · rw [step_of_steered found ended steered.1 steered.2, step_of_steered found ended steered.1 steered.2]
    · have unsteered : env.steerQueue = [] ∨ cancelledBeforeSteer env = true := by
        rw [not_and_or, not_not, Bool.not_eq_false] at steered
        exact steered
      have early : (beforeBudget.any env.cancelledIn || env.cancelledBy .maxTurns 0) = true := by
        rcases preempted with queued | cancelled | atStart
        · rw [cancelledIn_of_beforeSteer (unsteered.resolve_left queued), Bool.true_or]
        · rw [cancelled, Bool.true_or]
        · rw [atStart, Bool.or_true]
      rw [step_of_unsteered found ended unsteered, step_of_unsteered found ended unsteered,
        stepFrom_maxTurns_of_cancelled early, stepFrom_maxTurns_of_cancelled early]
      exact stepFrom_cancelled_withBudget maxTurns state.agent _

end Finished

/-! ## A turn with one answer -/

namespace FinalTurnExample

def machine : Machine :=
  Machine.plain.withBudget 1

/-- The user asked and the model answered. -/
def answered : State :=
  ⟨⟨.auto, none, none⟩, ⟨"s", [((Message.user 0).withContent (.plainText "hi")).withId "k",
    ((Message.assistant 0).withContent (.plainText "done")).withId "a"], none, .auto, .null⟩⟩

/-- A policy that does not let the turn end. -/
def denied : StepEnv :=
  { StepEnv.still with stopHook := .deny "tests fail" "policy" }

/-- The user has something to add. -/
def steered : StepEnv :=
  { denied with steerQueue := [(Message.user 0).withContent (.plainText "and the tests?")] }

end FinalTurnExample

/-- The model ends the only turn that it has.  The machine reports that the budget is used up,
where a larger budget and the reply loop ask the stop hook. -/
theorem final_turn_skips_stopHook :
    (step FinalTurnExample.machine FinalTurnExample.denied FinalTurnExample.answered).toOption.map
        (fun outcome => outcome.1.map StepResult.appliedStep) = some (some (some .maxTurns)) ∧
      (step (FinalTurnExample.machine.withBudget 2) FinalTurnExample.denied FinalTurnExample.answered).toOption.map
        (fun outcome => outcome.1.map StepResult.appliedStep) = some (some (some .stopHook)) ∧
      replyLoop 1 0 [⟨false, true⟩] = .closed ∧
      ¬ ClosesAsWithLargerBudget FinalTurnExample.machine FinalTurnExample.denied FinalTurnExample.answered := by
  have used : (step FinalTurnExample.machine FinalTurnExample.denied FinalTurnExample.answered).toOption.map
      (fun outcome => outcome.1.map StepResult.appliedStep) = some (some (some .maxTurns)) := by decide
  have larger : (step (FinalTurnExample.machine.withBudget 2) FinalTurnExample.denied
      FinalTurnExample.answered).toOption.map
        (fun outcome => outcome.1.map StepResult.appliedStep) = some (some (some .stopHook)) := by decide
  refine ⟨used, larger, rfl, fun closes => ?_⟩
  rw [closes 2 (by decide), used] at larger
  cases larger

/-- A message that the user queued is told with any budget. -/
theorem final_turn_steered :
    ClosesAsWithLargerBudget FinalTurnExample.machine FinalTurnExample.steered FinalTurnExample.answered := by
  have found : turn? FinalTurnExample.answered.session.conversation = some FinalTurnExample.answered.session.rows := rfl
  exact (step_closesAsWithLargerBudget_iff found (by decide) (by decide)).mpr (Or.inl (List.cons_ne_nil _ _))

end AIBuddy
