import AIBuddy.Agent.Results

namespace AIBuddy

open Runs

/-!
# Which operation a step applies

A step applies the first operation that accepts the conversation, and every
operation before it declined.  While nothing is cancelled, declining means that
the operation ran and found nothing to do.
-/

section Order

variable (machine : Machine) (env : StepEnv) (session : Session)

/-- Every operation of a list declined, one after the other. -/
def AllDeclined (cancelled : Bool) (agent : Agent) : List OperationName -> Bool -> Agent -> Prop
  | [], cancelledAfter, agentAfter => cancelledAfter = cancelled ∧ agentAfter = agent
  | name :: rest, cancelledAfter, agentAfter =>
      Exists fun next => offer machine env session cancelled agent name = .ok (.declined, next) ∧
        AllDeclined (cancelled || env.cancelledIn name) next rest cancelledAfter agentAfter

variable {machine env session}

theorem stepFrom_eq_some_iff (cancelled : Bool) (agent last : Agent) (names : List OperationName)
    (result : StepResult) :
    stepFrom machine env session cancelled agent names = .ok (some result, last) ↔
      Exists fun before => Exists fun name => Exists fun after => Exists fun flag => Exists fun next =>
        names = before ++ name :: after ∧
          AllDeclined machine env session cancelled agent before flag next ∧
            offer machine env session flag next name = .ok (.accepted result, last) := by
  induction names generalizing cancelled agent with
  | nil => simp [stepFrom]
  | cons first rest ih =>
      unfold stepFrom
      constructor
      · intro stepped
        cases offered : offer machine env session cancelled agent first with
        | error error => simp [offered] at stepped
        | ok answer =>
            rcases answer with ⟨_ | _ | accepted, next⟩
            · rw [offered] at stepped
              rcases (ih _ next).mp stepped with
                ⟨before, name, after, flag, reached, split, declined, accepted⟩
              exact ⟨first :: before, name, after, flag, reached, by rw [split]; rfl,
                ⟨next, offered, declined⟩, accepted⟩
            · simp [offered] at stepped
            · simp only [offered, Except.ok.injEq, Prod.mk.injEq, Option.some.injEq] at stepped
              rcases stepped with ⟨rfl, rfl⟩
              exact ⟨[], first, rest, cancelled, agent, rfl, ⟨rfl, rfl⟩, offered⟩
      · rintro ⟨before, name, after, flag, reached, split, declined, accepted⟩
        cases before with
        | nil =>
            simp only [List.nil_append, List.cons.injEq] at split
            rcases split with ⟨rfl, rfl⟩
            rcases declined with ⟨rfl, rfl⟩
            rw [accepted]
        | cons same before =>
            simp only [List.cons_append, List.cons.injEq] at split
            rcases split with ⟨rfl, split⟩
            rcases declined with ⟨next, offered, declined⟩
            rw [offered]
            exact (ih _ next).mpr
              ⟨before, name, after, flag, reached, split, declined, accepted⟩

theorem stepFrom_eq_none_iff (cancelled : Bool) (agent last : Agent) (names : List OperationName) :
    stepFrom machine env session cancelled agent names = .ok (none, last) ↔
      (Exists fun flag => AllDeclined machine env session cancelled agent names flag last) ∨
        Exists fun before => Exists fun name => Exists fun after => Exists fun flag => Exists fun next =>
          names = before ++ name :: after ∧
            AllDeclined machine env session cancelled agent before flag next ∧
              offer machine env session flag next name = .ok (.stopped, last) := by
  induction names generalizing cancelled agent with
  | nil =>
      simp only [stepFrom, Except.ok.injEq, Prod.mk.injEq, true_and, AllDeclined, exists_eq_left,
        List.nil_eq, List.append_eq_nil_iff, reduceCtorEq, and_false, false_and, exists_false, or_false]
      exact eq_comm
  | cons first rest ih =>
      unfold stepFrom
      constructor
      · intro stepped
        cases offered : offer machine env session cancelled agent first with
        | error error => simp [offered] at stepped
        | ok answer =>
            rcases answer with ⟨_ | _ | accepted, next⟩
            · rw [offered] at stepped
              rcases (ih _ next).mp stepped with
                ⟨flag, declined⟩ | ⟨before, name, after, flag, reached, split, declined, stopped⟩
              · exact Or.inl ⟨flag, next, offered, declined⟩
              · exact Or.inr ⟨first :: before, name, after, flag, reached, by rw [split]; rfl,
                  ⟨next, offered, declined⟩, stopped⟩
            · simp only [offered, Except.ok.injEq, Prod.mk.injEq, true_and] at stepped
              cases stepped
              exact Or.inr ⟨[], first, rest, cancelled, agent, rfl, ⟨rfl, rfl⟩, offered⟩
            · simp [offered] at stepped
      · rintro (⟨flag, next, offered, declined⟩ | ⟨before, name, after, flag, reached, split, declined, stopped⟩)
        · rw [offered]
          exact (ih _ next).mpr (Or.inl ⟨flag, declined⟩)
        · cases before with
          | nil =>
              simp only [List.nil_append, List.cons.injEq] at split
              rcases split with ⟨rfl, rfl⟩
              rcases declined with ⟨rfl, rfl⟩
              rw [stopped]
          | cons same before =>
              simp only [List.cons_append, List.cons.injEq] at split
              rcases split with ⟨rfl, split⟩
              rcases declined with ⟨next, offered, declined⟩
              rw [offered]
              exact (ih _ next).mpr
                (Or.inr ⟨before, name, after, flag, reached, split, declined, stopped⟩)

theorem AllDeclined.flag_eq {cancelled flag : Bool} {agent last : Agent} {names : List OperationName}
    (declined : AllDeclined machine env session cancelled agent names flag last) :
    flag = (cancelled || names.any env.cancelledIn) := by
  induction names generalizing cancelled agent with
  | nil => simpa using declined.1
  | cons first rest ih =>
      rcases declined with ⟨next, _, declined⟩
      rw [ih declined, List.any_cons, Bool.or_assoc]

theorem cancelledIn_of_cancelledBy {name : OperationName} {progress : Nat}
    (cancelled : env.cancelledBy name progress = true) : env.cancelledIn name = true := by
  unfold StepEnv.cancelledBy at cancelled
  unfold StepEnv.cancelledIn
  cases point : env.cancel with
  | none => simp [point] at cancelled
  | some moment =>
      simp only [point, Option.any_some, Bool.and_eq_true] at cancelled ⊢
      exact cancelled.1

theorem not_cancelledBy {name : OperationName} (uncancelled : env.cancelledIn name = false) (progress : Nat) :
    env.cancelledBy name progress = false := by
  cases fired : env.cancelledBy name progress with
  | false => rfl
  | true =>
      rw [cancelledIn_of_cancelledBy fired] at uncancelled
      contradiction

theorem offer_eq_ok_iff (cancelled : Bool) (agent last : Agent) (name : OperationName) (answer : Offer) :
    offer machine env session cancelled agent name = .ok (answer, last) ↔
      Exists fun attempted =>
        tryOperation machine env session cancelled agent name = .ok (attempted, last) ∧
          answerOffer machine env session (cancelled || env.cancelledIn name) name attempted = .ok answer := by
  simp only [offer, bind_eq_ok_iff, pure_eq_ok_iff, Prod.mk.injEq, Prod.exists]
  constructor
  · rintro ⟨attempted, next, tried, answered, settled, rfl, rfl⟩
    exact ⟨attempted, tried, settled⟩
  · rintro ⟨attempted, tried, settled⟩
    exact ⟨attempted, last, tried, answer, settled, rfl, rfl⟩

theorem answerOffer_eq_accepted_iff (cancelled : Bool) (name : OperationName) (attempted : Attempt)
    (result : StepResult) :
    answerOffer machine env session cancelled name attempted = .ok (.accepted result) ↔
      Exists fun returned => Exists fun outcome => attempted = .returned returned ∧
        hookedResult machine env session cancelled name returned = .ok (.applied outcome) ∧
          result = finishResult env name cancelled outcome := by
  cases attempted with
  | passed => simp [answerOffer]
  | stopped => simp [answerOffer]
  | returned returned =>
      simp only [answerOffer, map_eq_ok_iff, Attempt.returned.injEq]
      constructor
      · rintro ⟨hooked, hook, same⟩
        cases hooked with
        | notApplicable => contradiction
        | applied outcome => exact ⟨returned, outcome, rfl, hook, by simpa using same.symm⟩
      · rintro ⟨_, outcome, rfl, hook, rfl⟩
        exact ⟨.applied outcome, hook, rfl⟩

theorem answerOffer_eq_declined_iff (cancelled : Bool) (name : OperationName) (attempted : Attempt) :
    answerOffer machine env session cancelled name attempted = .ok .declined ↔
      attempted = .passed ∨ Exists fun returned => attempted = .returned returned ∧
        hookedResult machine env session cancelled name returned = .ok .notApplicable := by
  cases attempted with
  | passed => simp [answerOffer]
  | stopped => simp [answerOffer]
  | returned returned =>
      simp only [answerOffer, map_eq_ok_iff, reduceCtorEq, Attempt.returned.injEq, false_or]
      constructor
      · rintro ⟨hooked, hook, same⟩
        cases hooked with
        | notApplicable => exact ⟨returned, rfl, hook⟩
        | applied outcome => contradiction
      · rintro ⟨_, rfl, hook⟩
        exact ⟨.notApplicable, hook, rfl⟩

/-! ## Operations other than inference -/

theorem hookedResult_of_ne_llm {name : OperationName} (other : name ≠ .llm) (cancelled : Bool)
    (result : OperationResult) :
    hookedResult machine env session cancelled name result = .ok result := by
  unfold hookedResult cancelHook
  rw [if_neg other, ite_self]

theorem tryOperation_of_ne_llm {name : OperationName} (other : name ≠ .llm)
    (uncancelled : env.cancelledBy name 0 = false) (agent : Agent) :
    tryOperation machine env session false agent name =
      (runOperation machine env session agent name).map fun outcome => (.returned outcome.1, outcome.2) := by
  simp [tryOperation, attempt, uncancelled, other]

theorem tryOperation_of_cancelled {name : OperationName} {cancelled : Bool} (agent : Agent)
    (early : (cancelled || env.cancelledBy name 0) = true) :
    tryOperation machine env session cancelled agent name = .ok (.returned .notApplicable, agent) := by
  unfold tryOperation
  rw [if_pos early]

theorem offer_eq_accepted {cancelled : Bool} {agent last : Agent} {name : OperationName} {result : StepResult}
    (other : name ≠ .llm)
    (accepted : offer machine env session cancelled agent name = .ok (.accepted result, last)) :
    cancelled = false ∧ Exists fun outcome =>
      runOperation machine env session agent name = .ok (.applied outcome, last) ∧
        result = finishResult env name (env.cancelledIn name) outcome := by
  rcases (offer_eq_ok_iff _ _ _ _ _).mp accepted with ⟨attempted, tried, answered⟩
  rcases (answerOffer_eq_accepted_iff _ _ _ _).mp answered with ⟨returned, outcome, rfl, hooked, finished⟩
  rw [hookedResult_of_ne_llm other] at hooked
  cases early : cancelled || env.cancelledBy name 0 with
  | true =>
      rw [tryOperation_of_cancelled agent early] at tried
      cases hooked
      cases tried
  | false =>
      rcases Bool.or_eq_false_iff.mp early with ⟨rfl, uncancelled⟩
      rw [tryOperation_of_ne_llm other uncancelled] at tried
      rcases (map_eq_ok_iff _ _ _).mp tried with ⟨⟨ran, after⟩, isRun, same⟩
      cases hooked
      cases same
      exact ⟨rfl, outcome, isRun, finished⟩

theorem offer_eq_declined {agent next : Agent} {name : OperationName} (other : name ≠ .llm)
    (uncancelled : env.cancelledIn name = false)
    (declined : offer machine env session false agent name = .ok (.declined, next)) :
    runOperation machine env session agent name = .ok (.notApplicable, next) := by
  rcases (offer_eq_ok_iff _ _ _ _ _).mp declined with ⟨attempted, tried, answered⟩
  rw [tryOperation_of_ne_llm other (not_cancelledBy uncancelled 0)] at tried
  rcases (map_eq_ok_iff _ _ _).mp tried with ⟨⟨ran, after⟩, isRun, same⟩
  cases same
  rcases (answerOffer_eq_declined_iff _ _ _).mp answered with passed | ⟨returned, same, hooked⟩
  · contradiction
  · rw [hookedResult_of_ne_llm other] at hooked
    cases same
    rw [isRun]
    cases hooked
    rfl

theorem offer_mode {cancelled : Bool} {agent next : Agent} {name : OperationName} {answer : Offer}
    (offered : offer machine env session cancelled agent name = .ok (answer, next)) :
    next.aibuddyMode = agent.aibuddyMode := by
  rcases (offer_eq_ok_iff _ _ _ _ _).mp offered with ⟨attempted, tried, _⟩
  unfold tryOperation at tried
  split at tried
  · cases tried
    rfl
  · unfold attempt at tried
    split at tried
    · cases tried
      rfl
    · split at tried
      · cases tried
        rfl
      · rcases (map_eq_ok_iff _ _ _).mp tried with ⟨outcome, ran, same⟩
        cases same
        exact runOperation_mode outcome ran

theorem AllDeclined.mode {cancelled flag : Bool} {agent last : Agent} {names : List OperationName}
    (declined : AllDeclined machine env session cancelled agent names flag last) :
    last.aibuddyMode = agent.aibuddyMode := by
  induction names generalizing cancelled agent with
  | nil => rw [declined.2]
  | cons first rest ih =>
      rcases declined with ⟨next, offered, declined⟩
      exact (ih declined).trans (offer_mode offered)

theorem AllDeclined.ran {agent last : Agent} {names : List OperationName}
    (declined : AllDeclined machine env session false agent names false last) {name : OperationName}
    (member : name ∈ names) (other : name ≠ .llm) :
    Exists fun before => Exists fun after => before.aibuddyMode = agent.aibuddyMode ∧
      runOperation machine env session before name = .ok (.notApplicable, after) := by
  induction names generalizing agent with
  | nil => contradiction
  | cons first rest ih =>
      have uncancelled := declined.flag_eq
      simp only [Bool.false_or, List.any_cons, Bool.false_eq, Bool.or_eq_false_iff] at uncancelled
      rcases declined with ⟨next, offered, declined⟩
      rcases List.mem_cons.mp member with rfl | later
      · exact ⟨agent, next, rfl, offer_eq_declined other uncancelled.1 offered⟩
      · rw [uncancelled.1] at declined
        rcases ih declined later with ⟨before, after, mode, ran⟩
        exact ⟨before, after, mode.trans (offer_mode offered), ran⟩

/-! ## Inference -/

theorem tryOperation_llm {agent last : Agent} {attempted : Attempt}
    (uncancelled : env.cancelledBy .llm 0 = false)
    (tried : tryOperation machine env session false agent .llm = .ok (attempted, last)) :
    last = agent ∧
      ((attempted = .passed ∧ inferenceApplies session.conversation = false) ∨
        (attempted = .stopped ∧ env.cancelledBy .llm 1 = true) ∨
          (inferenceApplies session.conversation = true ∧ env.cancelledBy .llm 1 = false ∧
            Exists fun names => Exists fun turn =>
              collectInferenceTools env session = .ok names ∧ turn? session.conversation = some turn ∧
                attempted = .returned (inferOn machine env names turn).asked)) := by
  simp only [tryOperation, uncancelled, Bool.or_false, Bool.false_eq_true, if_false, attempt, true_and] at tried
  cases applies : inferenceApplies session.conversation with
  | false =>
      simp only [applies, if_true, Except.ok.injEq, Prod.mk.injEq] at tried
      exact ⟨tried.2.symm, Or.inl ⟨tried.1.symm, rfl⟩⟩
  | true =>
      cases gathering : env.cancelledBy .llm 1 with
      | true =>
          simp only [applies, gathering, Bool.true_eq_false, if_false, if_true, Except.ok.injEq,
            Prod.mk.injEq] at tried
          exact ⟨tried.2.symm, Or.inr (Or.inl ⟨tried.1.symm, rfl⟩)⟩
      | false =>
          simp only [applies, gathering, Bool.true_eq_false, Bool.false_eq_true, if_false, runOperation,
            map_eq_ok_iff, bind_eq_ok_iff, infer, messagesSinceKickoff_eq_ok_iff, pure_eq_ok_iff,
            Bool.not_true] at tried
          rcases tried with ⟨_, ⟨_, ⟨names, collected, turn, found, rfl⟩, rfl⟩, same⟩
          simp only [Prod.mk.injEq] at same
          exact ⟨same.2.symm, Or.inr (Or.inr ⟨rfl, rfl, names, turn, collected, found, same.1.symm⟩)⟩

/-- A stream that was read or cancelled has a result. -/
private theorem finishStream_asked (machine : Machine) (env : StepEnv) (turn collected : List Message)
    (before : List AIBuddyEffect) :
    Exists fun outcome => (finishStream machine env turn collected before).asked = .applied outcome ∧
      outcome.askedProvider = true ∧ outcome.dispatched = [] := by
  unfold finishStream
  extract_lets settled emptyResponse
  cases emptyResponse with
  | true => exact ⟨_, rfl, rfl, rfl⟩
  | false => exact ⟨_, rfl, rfl, rfl⟩

theorem inferOn_asked (machine : Machine) (env : StepEnv) (names : List String) (turn : List Message) :
    Exists fun outcome => (inferOn machine env names turn).asked = .applied outcome ∧
      outcome.askedProvider = true ∧ outcome.dispatched = [] := by
  unfold inferOn
  cases env.provider.startError with
  | some error => exact ⟨_, rfl, rfl, rfl⟩
  | none =>
      cases env.provider.streamError with
      | none => exact finishStream_asked _ _ _ _ _
      | some error =>
          cases streamCancelled env with
          | false => exact ⟨_, rfl, rfl, rfl⟩
          | true => exact finishStream_asked _ _ _ _ _

theorem offer_llm_eq_accepted {cancelled : Bool} {agent last : Agent} {result : StepResult}
    (accepted : offer machine env session cancelled agent .llm = .ok (.accepted result, last)) :
    (cancelled = false ∧ env.cancelledBy .llm 1 = false ∧ inferenceApplies session.conversation = true ∧
        Exists fun names => Exists fun turn => Exists fun outcome =>
          collectInferenceTools env session = .ok names ∧ turn? session.conversation = some turn ∧
            (inferOn machine env names turn).asked = .applied outcome ∧
              result = finishResult env .llm (env.cancelledIn .llm) outcome) ∨
      ((cancelled || env.cancelledBy .llm 0) = true ∧
        Exists fun turn => Exists fun response =>
          turn? session.conversation = some turn ∧
            cancellationResponse machine.codec env.now turn [] = some response ∧
              result = finishResult env .llm true { effects := [.append response] }) := by
  rcases (offer_eq_ok_iff _ _ _ _ _).mp accepted with ⟨attempted, tried, answered⟩
  rcases (answerOffer_eq_accepted_iff _ _ _ _).mp answered with ⟨returned, outcome, rfl, hooked, finished⟩
  cases early : cancelled || env.cancelledBy .llm 0 with
  | true =>
      right
      refine ⟨rfl, ?_⟩
      have late : (cancelled || env.cancelledIn .llm) = true := by
        rcases Bool.or_eq_true_iff.mp early with rfl | fired
        · rfl
        · rw [cancelledIn_of_cancelledBy fired, Bool.or_true]
      rw [tryOperation_of_cancelled agent early] at tried
      cases tried
      simp only [hookedResult, late, if_true, cancelHook, inferenceCancel, bind_eq_ok_iff,
        messagesSinceKickoff_eq_ok_iff] at hooked
      rcases hooked with ⟨turn, found, responded⟩
      cases response : cancellationResponse machine.codec env.now turn [] with
      | none => simp [response, pure, Except.pure] at responded
      | some message =>
          simp only [response, pure_eq_ok_iff, OperationResult.proceed, OperationResult.applied.injEq] at responded
          refine ⟨turn, message, found, response, ?_⟩
          rw [finished, late, ← responded]
  | false =>
      left
      rcases Bool.or_eq_false_iff.mp early with ⟨rfl, uncancelled⟩
      rcases tryOperation_llm uncancelled tried with
        ⟨rfl, ⟨passed, _⟩ | ⟨stopped, _⟩ | ⟨applies, gathered, names, turn, collected, found, same⟩⟩
      · contradiction
      · contradiction
      · refine ⟨rfl, gathered, applies, names, turn, outcome, collected, found, ?_, finished⟩
        cases same
        rcases inferOn_asked machine env names turn with ⟨asked, isAsked, _⟩
        rw [isAsked] at hooked ⊢
        unfold hookedResult cancelHook at hooked
        simpa [inferenceCancel] using hooked

end Order

theorem asksProvider_llm {machine : Machine} {env : StepEnv} {session : Session} {cancelled : Bool}
    {agent last : Agent} {name : OperationName} {result : StepResult}
    (accepted : offer machine env session cancelled agent name = .ok (.accepted result, last))
    (asked : result.askedProvider = true) : name = .llm := by
  by_contra other
  rcases offer_eq_accepted other accepted with ⟨_, outcome, ran, rfl⟩
  have offline := runOperation_offline other _ ran
  exact Bool.false_ne_true (offline.symm.trans asked)

theorem appliedStep_of_accepted {machine : Machine} {env : StepEnv} {session : Session} {cancelled : Bool}
    {agent last : Agent} {name : OperationName} {result : StepResult}
    (accepted : offer machine env session cancelled agent name = .ok (.accepted result, last)) :
    result.appliedStep = some name := by
  rcases (offer_eq_ok_iff _ _ _ _ _).mp accepted with ⟨attempted, _, answered⟩
  rcases (answerOffer_eq_accepted_iff _ _ _ _).mp answered with ⟨_, outcome, _, _, rfl⟩
  rfl

/-- What was offered the conversation before an operation. -/
theorem before_eq {managesOwnContext : Bool} {name : OperationName} {before after : List OperationName}
    (order : stepOrder managesOwnContext = before ++ name :: after) :
    before = (stepOrder managesOwnContext).takeWhile fun other => other != name := by
  have nodup : (stepOrder managesOwnContext).Nodup := by
    cases managesOwnContext <;> decide
  rw [order] at nodup
  have earlier : forall other, other ∈ before -> (other != name) = true := by
    intro other member
    have apart := (List.nodup_append.mp nodup).2.2 other member name (List.mem_cons_self ..)
    exact bne_iff_ne.mpr apart
  rw [order, List.takeWhile_append_of_pos earlier, List.takeWhile_cons_of_neg (by simp), List.append_nil]

/-! ## Steps -/

/-- A step that applied an operation, with what happened before it. -/
structure Applied (machine : Machine) (env : StepEnv) (state : State) (result : StepResult) (last : Agent)
    (name : OperationName) (before after : List OperationName) (flag : Bool) (agent : Agent) : Prop where
  order : stepOrder machine.managesOwnContext = before ++ name :: after
  declined : AllDeclined machine env state.session false state.agent before flag agent
  accepted : offer machine env state.session flag agent name = .ok (.accepted result, last)
  named : result.appliedStep = some name

theorem step_applied {machine : Machine} {env : StepEnv} {state : State} {result : StepResult} {last : Agent}
    (stepped : step machine env state = .ok (some result, last)) :
    Exists fun name => Exists fun before => Exists fun after => Exists fun flag => Exists fun agent =>
      Applied machine env state result last name before after flag agent := by
  rcases (stepFrom_eq_some_iff _ _ _ _ _).mp stepped with
    ⟨before, name, after, flag, agent, order, declined, accepted⟩
  exact ⟨name, before, after, flag, agent, order, declined, accepted, appliedStep_of_accepted accepted⟩

theorem advance_eq_ok_iff (machine : Machine) (env : StepEnv) (state : State) (result : Option StepResult)
    (next : State) :
    advance machine env state = .ok (result, next) ↔
      step machine env state = .ok (result, next.agent) ∧
        applyResult state.session result = .ok next.session := by
  simp only [advance, bind_eq_ok_iff, pure_eq_ok_iff, Prod.mk.injEq, Prod.exists]
  constructor
  · rintro ⟨outcome, agent, stepped, session, persisted, rfl, rfl⟩
    exact ⟨stepped, persisted⟩
  · rintro ⟨stepped, persisted⟩
    exact ⟨result, next.agent, stepped, next.session, persisted, rfl, rfl⟩

theorem Applied.name_eq {machine : Machine} {env : StepEnv} {state : State} {result : StepResult} {last : Agent}
    {name other : OperationName} {before after : List OperationName} {flag : Bool} {agent : Agent}
    (applied : Applied machine env state result last name before after flag agent)
    (named : result.appliedStep = some other) : name = other :=
  Option.some.inj (applied.named.symm.trans named)

theorem Applied.ran {machine : Machine} {env : StepEnv} {state : State} {result : StepResult} {last : Agent}
    {name : OperationName} {before after : List OperationName} {flag : Bool} {agent : Agent}
    (applied : Applied machine env state result last name before after flag agent) (other : name ≠ .llm) :
    flag = false ∧ Exists fun outcome =>
      runOperation machine env state.session agent name = .ok (.applied outcome, last) ∧
        result = finishResult env name (env.cancelledIn name) outcome :=
  offer_eq_accepted other applied.accepted

theorem Applied.ranBefore {machine : Machine} {env : StepEnv} {state : State} {result : StepResult} {last : Agent}
    {name : OperationName} {before after : List OperationName} {agent : Agent}
    (applied : Applied machine env state result last name before after false agent) {other : OperationName}
    (earlier : other ∈ (stepOrder machine.managesOwnContext).takeWhile fun candidate => candidate != name)
    (notInference : other ≠ .llm) :
    Exists fun earlier => Exists fun later => earlier.aibuddyMode = state.agent.aibuddyMode ∧
      runOperation machine env state.session earlier other = .ok (.notApplicable, later) := by
  rw [← before_eq applied.order] at earlier
  exact applied.declined.ran earlier notInference

end AIBuddy
