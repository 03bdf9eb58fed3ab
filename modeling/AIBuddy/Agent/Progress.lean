import AIBuddy.Agent.Gate
import AIBuddy.Agent.Replacements

namespace AIBuddy

open Runs

/-!
# Progress on pending requests

As long as a request of the assistant is pending, a step that is not cancelled finds
something to do.  The tool operations share the requests by name, and whatever the
others leave is answered as unknown; only the recipe may keep a request back.
-/

/-! ## Answers in a message -/

theorem toolResponseIds_withContent (message : Message) (block : MessageContentBlock) :
    (message.withContent block).toolResponseIds =
      message.toolResponseIds ++ (block.asToolResponse.map ToolResponse.id).toList := by
  unfold Message.toolResponseIds Message.withContent
  rw [List.filterMap_append, List.filterMap_cons, List.filterMap_nil]
  cases block.asToolResponse.map ToolResponse.id <;> rfl

theorem toolResponseIds_answerMessage (codec : TextCodec) (now : Int) (answers : List Answer) :
    (answerMessage codec now answers).toolResponseIds = answers.map Answer.id := by
  have folded : forall message : Message,
      (answers.foldl (fun message answer =>
        message.addToolResponseWithMetadata codec answer.id answer.result answer.metadata) message).toolResponseIds =
        message.toolResponseIds ++ answers.map Answer.id := by
    induction answers with
    | nil =>
        intro message
        exact (List.append_nil _).symm
    | cons answer rest ih =>
        intro message
        rw [List.foldl_cons, ih]
        have added : (message.addToolResponseWithMetadata codec answer.id answer.result answer.metadata).toolResponseIds =
            message.toolResponseIds ++ [answer.id] := toolResponseIds_withContent message _
        rw [added, List.append_assoc]
        rfl
  exact (folded (.user now)).trans (List.nil_append _)

/-- A result appends a response with an id. -/
def StepResult.answers (result : StepResult) (id : String) : Prop :=
  Exists fun message => AIBuddyEffect.append message ∈ result.effects ∧ id ∈ message.toolResponseIds

theorem StepResult.answers.finish {env : StepEnv} {outcome : StepResult} {id : String} (answers : outcome.answers id)
    (name : OperationName) (cancelled : Bool) : (finishResult env name cancelled outcome).answers id := by
  rcases answers with ⟨message, member, answered⟩
  rcases List.mem_iff_getElem?.mp member with ⟨position, found⟩
  refine ⟨ensureId (env.messageId position) message, ?_, ?_⟩
  · rw [finishResult_effects]
    exact List.mem_map.mpr ⟨(.append message, position), List.mk_mem_zipIdx_iff_getElem?.mpr found, rfl⟩
  · rcases ensureId_eq (env.messageId position) message with ⟨given, kept⟩
    rw [kept]
    exact answered

/-! ## What the tool operations answer -/

/-- What a result answers includes a pending request. -/
def OperationResult.AnswersPending (turn : List Message) : OperationResult -> Prop
  | .notApplicable => True
  | .applied result => Exists fun entry => entry ∈ pendingToolRequests turn ∧ result.answers entry.1.id

open OperationResult

variable {machine : Machine} {env : StepEnv} {session : Session} {agent : Agent} {conversation turn : List Message}

theorem answersPending_answerWith {answers : List Answer} {dispatched : List ToolRequest}
    {entry : ToolRequest × ToolDisposition} (pending : entry ∈ pendingToolRequests turn)
    (answered : entry.1.id ∈ answers.map Answer.id) :
    (answerWith machine env answers dispatched).AnswersPending turn := by
  refine ⟨entry, pending, answerMessage machine.codec env.now answers, List.mem_singleton_self _, ?_⟩
  rw [toolResponseIds_answerMessage]
  exact answered

theorem pending_of_advertised {entry : ToolRequest × ToolDisposition}
    (member : entry ∈ pendingAdvertisedToolRequests turn) : entry ∈ pendingToolRequests turn :=
  List.mem_of_mem_filter member

theorem exists_mem_of_isEmpty {α : Type} {items : List α} (some : ¬ items.isEmpty = true) :
    Exists fun item => item ∈ items := by
  cases items with
  | nil => exact absurd rfl some
  | cons first rest => exact ⟨first, List.mem_cons_self ..⟩

theorem skillRun_answers (found : turn? conversation = some turn) :
    Ensures (skillRun machine env session conversation) (AnswersPending turn) := by
  unfold skillRun
  apply Ensures.bind
  intro messages foundHere
  rw [messagesSinceKickoff_eq_ok_iff] at foundHere
  cases Option.some.inj (found.symm.trans foundHere)
  apply Ensures.ok
  split
  · trivial
  · case _ some =>
      rcases exists_mem_of_isEmpty some with ⟨entry, member⟩
      apply answersPending_answerWith (pending_of_advertised (List.mem_of_mem_filter member))
      rw [List.map_map]
      exact List.mem_map.mpr ⟨entry, member, rfl⟩

/-- A batch of calls is answered in full. -/
theorem mem_executionAnswers (machine : Machine) (env : StepEnv) {pending : List (ToolRequest × ToolDisposition)}
    {entry : ToolRequest × ToolDisposition} (member : entry ∈ pending) :
    entry.1.id ∈ (executionAnswers machine env pending).map Answer.id := by
  unfold executionAnswers
  extract_lets requests running given interrupted
  rw [List.map_append]
  by_cases already : entry.1.id ∈ given.map Answer.id
  · exact List.mem_append_left _ already
  · apply List.mem_append_right
    rw [List.map_map]
    refine List.mem_map.mpr ⟨entry.1, List.mem_filter.mpr ⟨List.mem_map_of_mem member, ?_⟩, rfl⟩
    simpa using already

theorem toolExecutionRun_answers (found : turn? conversation = some turn) :
    Ensures (toolExecutionRun machine env agent conversation) (AnswersPending turn) := by
  unfold toolExecutionRun
  apply Ensures.bind
  intro messages foundHere
  rw [messagesSinceKickoff_eq_ok_iff] at foundHere
  cases Option.some.inj (found.symm.trans foundHere)
  apply Ensures.ok
  split
  · trivial
  · case _ some =>
      rcases exists_mem_of_isEmpty some with ⟨entry, member⟩
      have pending : entry ∈ pendingToolRequests turn := pending_of_advertised (List.mem_of_mem_filter member)
      split
      · apply answersPending_answerWith pending
        rw [List.map_map]
        exact List.mem_map.mpr ⟨entry, member, rfl⟩
      · refine ⟨entry, pending, _, List.mem_append_right _ (List.mem_singleton_self _), ?_⟩
        rw [toolResponseIds_answerMessage]
        exact mem_executionAnswers machine env member

theorem unknownToolRun_answers (found : turn? conversation = some turn) :
    Ensures (unknownToolRun machine env session conversation) (AnswersPending turn) := by
  unfold unknownToolRun
  apply Ensures.bind
  intro messages foundHere
  rw [messagesSinceKickoff_eq_ok_iff] at foundHere
  cases Option.some.inj (found.symm.trans foundHere)
  apply Ensures.ok
  split
  · trivial
  · case _ some =>
      rcases exists_mem_of_isEmpty some with ⟨entry, member⟩
      apply answersPending_answerWith (List.mem_of_mem_filter member)
      rw [List.map_map]
      exact List.mem_map.mpr ⟨entry, member, rfl⟩

/-! ## The recipe -/

theorem recipeRun_answers (found : turn? conversation = some turn) (supported : machine.supportsBuiltinTools = true)
    {request : ToolRequest} (first : pendingFinalOutput turn = some request) :
    Ensures (recipeRun machine env session conversation) (AnswersPending turn) := by
  have pending := pending_of_advertised (ready_of_pendingFinalOutput first)
  unfold recipeRun
  apply Ensures.bind
  intro schema _
  split
  · exact Ensures.ok trivial
  · rw [supported, if_neg (by decide)]
    apply Ensures.bind
    intro messages foundHere
    rw [messagesSinceKickoff_eq_ok_iff] at foundHere
    cases Option.some.inj (found.symm.trans foundHere)
    unfold recipeRunActive
    rw [first]
    simp only
    split
    · exact Ensures.ok (answersPending_answerWith pending (List.mem_singleton_self _))
    split
    · exact Ensures.ok trivial
    split
    · exact Ensures.error _ _
    · exact Ensures.ok (answersPending_answerWith pending (List.mem_singleton_self _))

theorem commandResponse_applies {missing : String} {response : Message} :
    Ensures (commandResponse missing conversation response) fun result => result ≠ .notApplicable := by
  unfold commandResponse onCommandMessage
  apply Ensures.bind
  intro messages _
  split
  · exact Ensures.error _ _
  · split
    · exact Ensures.error _ _
    · exact Ensures.ok (by simp [yieldedWith])

theorem recipeRun_waits (found : turn? conversation = some turn)
    (active : activeFinalOutput session = true) {request : ToolRequest} (first : pendingFinalOutput turn = some request)
    (ran : recipeRun machine env session conversation = .ok .notApplicable) :
    hasUnansweredSiblings turn request.id = true := by
  unfold recipeRun at ran
  rcases (bind_eq_ok_iff _ _ _).mp ran with ⟨schema, declared, ran⟩
  have someSchema : Exists fun found => schema = some found := by
    unfold activeFinalOutput at active
    unfold finalOutput at declared
    cases response : session.recipe.bind Recipe.response with
    | none =>
        cases recipe : session.recipe with
        | none => simp [recipe] at active
        | some found => simp [recipe] at active response; simp [response] at active
    | some response =>
        rw [response] at declared
        rcases (map_eq_ok_iff _ _ _).mp declared with ⟨found, _, same⟩
        exact ⟨found, same.symm⟩
  rcases someSchema with ⟨found', rfl⟩
  simp only at ran
  split at ran
  · exact absurd rfl (commandResponse_applies _ ran)
  · rcases (bind_eq_ok_iff _ _ _).mp ran with ⟨messages, foundHere, ran⟩
    rw [messagesSinceKickoff_eq_ok_iff] at foundHere
    cases Option.some.inj (found.symm.trans foundHere)
    unfold recipeRunActive at ran
    rw [first] at ran
    simp only at ran
    split at ran
    · cases ran
    · split at ran
      · assumption
      · split at ran
        · contradiction
        · cases ran

/-! ## Cancellation -/

theorem exists_mem_firstRequests {requests : List ToolRequest} {request : ToolRequest} (member : request ∈ requests) :
    Exists fun first => first ∈ firstRequests requests ∧ first.id = request.id := by
  induction requests with
  | nil => contradiction
  | cons head rest ih =>
      unfold firstRequests
      by_cases same : head.id = request.id
      · exact ⟨head, List.mem_cons_self .., same⟩
      · rcases List.mem_cons.mp member with rfl | later
        · exact absurd rfl same
        · rcases ih later with ⟨first, found, sameId⟩
          refine ⟨first, List.mem_cons_of_mem _ (List.mem_filter.mpr ⟨found, ?_⟩), sameId⟩
          rw [sameId]
          exact bne_iff_ne.mpr fun differs => same differs.symm

theorem mem_cancellationAnswers {entry : ToolRequest × ToolDisposition} (pending : entry ∈ pendingToolRequests turn) :
    entry.1.id ∈ (cancellationAnswers turn []).map Answer.id := by
  rcases entry with ⟨request, disposition⟩
  rcases (mem_pendingToolRequests_iff _ _ _).mp pending with
    ⟨⟨message, member, _, asked⟩, _, unanswered, _⟩
  rcases exists_mem_firstRequests (List.mem_flatMap.mpr ⟨message, member, asked⟩) with ⟨first, found, sameId⟩
  unfold cancellationAnswers
  rw [List.append_nil, List.map_map]
  refine List.mem_map.mpr ⟨first, List.mem_filter.mpr ⟨found, ?_⟩, sameId⟩
  rw [sameId]
  simpa using unanswered

theorem cancellationResponse_answers (codec : TextCodec) (now : Int) {entry : ToolRequest × ToolDisposition}
    (pending : entry ∈ pendingToolRequests turn) :
    Exists fun response => cancellationResponse codec now turn [] = some response ∧
      entry.1.id ∈ response.toolResponseIds := by
  have answered := mem_cancellationAnswers pending
  have some : (cancellationAnswers turn []).isEmpty = false := by
    rw [List.isEmpty_eq_false_iff]
    rintro none
    rw [none] at answered
    contradiction
  refine ⟨answerMessage codec now (cancellationAnswers turn []), ?_, ?_⟩
  · unfold cancellationResponse
    simp only [some, Bool.false_eq_true, if_false]
  · rw [toolResponseIds_answerMessage]
    exact answered

theorem offer_llm_cancelled {agent last : Agent} (found : turn? session.conversation = some turn)
    (pending : pendingToolRequests turn ≠ []) :
    offer machine env session true agent .llm ≠ .ok (.declined, last) := by
  intro offered
  rcases (offer_eq_ok_iff _ _ _ _ _).mp offered with ⟨attempted, tried, answered⟩
  rw [tryOperation_of_cancelled agent (Bool.true_or _)] at tried
  cases tried
  rcases (answerOffer_eq_declined_iff _ _ _).mp answered with passed | ⟨returned, same, hooked⟩
  · contradiction
  · cases same
    rcases List.exists_mem_of_ne_nil _ pending with ⟨entry, member⟩
    rcases cancellationResponse_answers machine.codec env.now member with ⟨response, responds, _⟩
    simp only [hookedResult, Bool.true_or, if_true, cancelHook, inferenceCancel, bind_eq_ok_iff,
      messagesSinceKickoff_eq_ok_iff] at hooked
    rcases hooked with ⟨messages, foundHere, declined⟩
    cases Option.some.inj (found.symm.trans foundHere)
    rw [responds] at declined
    cases (pure_eq_ok_iff _ _).mp declined

theorem AllDeclined.append {cancelled flag : Bool} {agent last : Agent} {before after : List OperationName}
    (declined : AllDeclined machine env session cancelled agent (before ++ after) flag last) :
    Exists fun between => Exists fun next => AllDeclined machine env session cancelled agent before between next ∧
      AllDeclined machine env session between next after flag last := by
  induction before generalizing cancelled agent with
  | nil => exact ⟨cancelled, agent, ⟨rfl, rfl⟩, declined⟩
  | cons first rest ih =>
      rcases declined with ⟨next, offered, declined⟩
      rcases ih declined with ⟨between, reached, front, back⟩
      exact ⟨between, reached, ⟨next, offered, front⟩, back⟩

/-! ## Steps -/

/-- Everything pending is kept for the recipe, whose first final output waits for other
calls of its message. -/
def FinalOutputWaits (session : Session) (turn : List Message) : Prop :=
  (forall entry, entry ∈ pendingToolRequests turn -> reservedForRecipe session turn entry = true) ∧
    Exists fun request => pendingFinalOutput turn = some request ∧ hasUnansweredSiblings turn request.id = true

instance decidableFinalOutputWaits (session : Session) (turn : List Message) :
    Decidable (FinalOutputWaits session turn) :=
  decidable_of_iff
    ((forall entry, entry ∈ pendingToolRequests turn -> reservedForRecipe session turn entry = true) ∧
      (pendingFinalOutput turn).any (fun request => hasUnansweredSiblings turn request.id) = true)
    (and_congr Iff.rfl (Option.any_eq_true _ _))

/-- What may come before the tools: commands, the queue of the user, the budget, a
direct shell command, compactions and approvals. -/
def precedingOperations : List OperationName :=
  [.slashCommand, .steer, .maxTurns, .bangShell, .compaction, .toolPairCompaction, .toolApproval]

def toolOperations : List OperationName :=
  [.skills, .recipe, .toolExecution, .unknownTool]

theorem entryHookRun_declines :
    Ensures (entryHookRun conversation) fun result => result = .notApplicable := by
  unfold entryHookRun
  exact Ensures.bind fun _ _ => Ensures.ok rfl

theorem finalOutputWaits_of_declined (found : turn? conversation = some turn)
    (pending : pendingToolRequests turn ≠ [])
    (recipe : recipeRun machine env session conversation = .ok .notApplicable)
    (unknown : unknownToolRun machine env session conversation = .ok .notApplicable) :
    FinalOutputWaits session turn := by
  have reserved : forall entry, entry ∈ pendingToolRequests turn -> reservedForRecipe session turn entry = true :=
    fun entry member => unknownToolRun_notApplicable found unknown member
  refine ⟨reserved, ?_⟩
  rcases List.exists_mem_of_ne_nil _ pending with ⟨⟨asked, disposition⟩, member⟩
  have kept := reserved _ member
  simp only [reservedForRecipe, Bool.and_eq_true, beq_iff_eq] at kept
  rcases kept with ⟨⟨⟨active, rfl⟩, advertised⟩, calls⟩
  have some : (pendingFinalOutput turn).isSome = true := by
    unfold pendingFinalOutput
    rw [Option.isSome_map, List.find?_isSome]
    exact ⟨(asked, .execute), List.mem_filter.mpr ⟨member, advertised⟩, by rw [calls]; rfl⟩
  rcases Option.isSome_iff_exists.mp some with ⟨request, first⟩
  exact ⟨request, first, recipeRun_waits found active first recipe⟩

/-- Only inference ends the step empty-handed, and only when it was not cancelled
before. -/
theorem offer_stopped {cancelled : Bool} {agent last : Agent} {name : OperationName}
    (offered : offer machine env session cancelled agent name = .ok (.stopped, last)) :
    name = .llm ∧ cancelled = false := by
  rcases (offer_eq_ok_iff _ _ _ _ _).mp offered with ⟨attempted, tried, answered⟩
  cases attempted with
  | passed => cases answered
  | returned result =>
      rcases (map_eq_ok_iff _ _ _).mp answered with ⟨hooked, _, same⟩
      cases hooked <;> contradiction
  | stopped =>
      cases early : cancelled || env.cancelledBy name 0 with
      | true =>
          rw [tryOperation_of_cancelled agent early] at tried
          cases tried
      | false =>
          rcases Bool.or_eq_false_iff.mp early with ⟨rfl, uncancelled⟩
          refine ⟨?_, rfl⟩
          by_contra other
          rw [tryOperation_of_ne_llm other uncancelled] at tried
          rcases (map_eq_ok_iff _ _ _).mp tried with ⟨outcome, _, same⟩
          cases same

theorem AllDeclined.waits {agent last : Agent} {names : List OperationName} (found : turn? session.conversation = some turn)
    (pending : pendingToolRequests turn ≠ [])
    (declined : AllDeclined machine env session false agent names false last) (recipe : .recipe ∈ names)
    (unknown : .unknownTool ∈ names) : FinalOutputWaits session turn := by
  rcases declined.ran recipe (by decide) with ⟨_, _, _, recipeRan⟩
  rcases declined.ran unknown (by decide) with ⟨_, _, _, unknownRan⟩
  rcases (map_eq_ok_iff _ _ _).mp recipeRan with ⟨_, recipeDeclined, same⟩
  cases same
  rcases (map_eq_ok_iff _ _ _).mp unknownRan with ⟨_, unknownDeclined, same⟩
  cases same
  exact finalOutputWaits_of_declined found pending recipeDeclined unknownDeclined

theorem step_none_waits {state : State} {last : Agent} (stepped : step machine env state = .ok (none, last))
    (found : turn? state.session.conversation = some turn) (pending : pendingToolRequests turn ≠ []) :
    FinalOutputWaits state.session turn := by
  have members : OperationName.recipe ∈ [OperationName.entryHook, .slashCommand] ++ handlerOrder machine.managesOwnContext ∧
      OperationName.unknownTool ∈ [OperationName.entryHook, .slashCommand] ++ handlerOrder machine.managesOwnContext := by
    cases machine.managesOwnContext <;> decide
  rcases (stepFrom_eq_none_iff _ _ _ _).mp stepped with
    ⟨flag, declined⟩ | ⟨before, name, after, flag, agent, order, declined, stopped⟩
  · rcases declined.append with ⟨between, reached, front, _, offered, _⟩
    cases between with
    | false => exact front.waits found pending members.1 members.2
    | true => exact absurd offered (offer_llm_cancelled found pending)
  · rcases offer_stopped stopped with ⟨rfl, rfl⟩
    rw [before_eq order] at declined
    exact declined.waits found pending
      (by cases machine.managesOwnContext <;> decide) (by cases machine.managesOwnContext <;> decide)

/-- While a request of the assistant is pending, and not just a final output that
waits for other calls, every step does one of four things: it applies an operation
that comes before the tools, it ends the turn of a recipe that cannot collect an output,
a tool operation answers a pending request, or, on a cancelled run, inference answers
all of them without asking the provider. -/
theorem pending_progress {state : State} {outcome : Option StepResult} {last : Agent}
    (stepped : step machine env state = .ok (outcome, last))
    (found : turn? state.session.conversation = some turn) (pending : pendingToolRequests turn ≠ [])
    (free : ¬ FinalOutputWaits state.session turn) :
    Exists fun result => Exists fun name => outcome = some result ∧ result.appliedStep = some name ∧
      (name ∈ precedingOperations ∨
        (name = .recipe ∧ (machine.supportsBuiltinTools = false ∨ pendingFinalOutput turn = none)) ∨
          (name ∈ toolOperations ∧ Exists fun entry =>
            entry ∈ pendingToolRequests turn ∧ result.answers entry.1.id) ∨
            (name = .llm ∧ env.cancel ≠ none ∧ result.askedProvider = false ∧
              forall entry, entry ∈ pendingToolRequests turn -> result.answers entry.1.id)) := by
  cases outcome with
  | none => exact absurd (step_none_waits stepped found pending) free
  | some result =>
      rcases step_applied stepped with ⟨name, before, after, flag, agent, applied⟩
      refine ⟨result, name, rfl, applied.named, ?_⟩
      have tooLate : forall (_ : flag = false) (_ : OperationName.recipe ∈ (stepOrder machine.managesOwnContext).takeWhile
            fun other => other != name)
          (_ : OperationName.unknownTool ∈ (stepOrder machine.managesOwnContext).takeWhile
            fun other => other != name), False := by
        rintro rfl recipe unknown
        rw [← before_eq applied.order] at recipe unknown
        exact free (applied.declined.waits found pending recipe unknown)
      have answers : forall {plain : StepResult}, AnswersPending turn (.applied plain) ->
          result = finishResult env name (env.cancelledIn name) plain ->
            Exists fun entry => entry ∈ pendingToolRequests turn ∧ result.answers entry.1.id := by
        rintro plain ⟨entry, member, answered⟩ rfl
        exact ⟨entry, member, answered.finish name _⟩
      cases name
      case slashCommand | steer | maxTurns | bangShell | compaction | toolPairCompaction | toolApproval =>
        exact Or.inl (by decide)
      case entryHook =>
        rcases applied.ran (by decide) with ⟨_, outcome, ran, _⟩
        rcases (map_eq_ok_iff _ _ _).mp ran with ⟨_, plain, same⟩
        cases same
        cases entryHookRun_declines _ plain
      case doctor | project =>
        rcases applied.ran (by decide) with ⟨_, outcome, ran, _⟩
        cases ran
      case skills =>
        rcases applied.ran (by decide) with ⟨_, outcome, ran, finished⟩
        rcases (map_eq_ok_iff _ _ _).mp ran with ⟨_, plain, same⟩
        cases same
        exact Or.inr (Or.inr (Or.inl ⟨by decide, answers (skillRun_answers found _ plain) finished⟩))
      case recipe =>
        rcases applied.ran (by decide) with ⟨_, outcome, ran, finished⟩
        rcases (map_eq_ok_iff _ _ _).mp ran with ⟨_, plain, same⟩
        cases same
        cases supported : machine.supportsBuiltinTools with
        | false => exact Or.inr (Or.inl ⟨rfl, Or.inl rfl⟩)
        | true =>
            cases first : pendingFinalOutput turn with
            | none => exact Or.inr (Or.inl ⟨rfl, Or.inr rfl⟩)
            | some request =>
                exact Or.inr (Or.inr (Or.inl
                  ⟨by decide, answers (recipeRun_answers found supported first _ plain) finished⟩))
      case toolExecution =>
        rcases applied.ran (by decide) with ⟨_, outcome, ran, finished⟩
        rcases (map_eq_ok_iff _ _ _).mp ran with ⟨_, plain, same⟩
        cases same
        exact Or.inr (Or.inr (Or.inl ⟨by decide, answers (toolExecutionRun_answers found _ plain) finished⟩))
      case unknownTool =>
        rcases applied.ran (by decide) with ⟨_, outcome, ran, finished⟩
        rcases (map_eq_ok_iff _ _ _).mp ran with ⟨_, plain, same⟩
        cases same
        exact Or.inr (Or.inr (Or.inl ⟨by decide, answers (unknownToolRun_answers found _ plain) finished⟩))
      case retry | stopHook | exitOnError =>
        rcases applied.ran (by decide) with ⟨uncancelled, _⟩
        exact (tooLate uncancelled (by cases machine.managesOwnContext <;> decide)
          (by cases machine.managesOwnContext <;> decide)).elim
      case llm =>
        rcases offer_llm_eq_accepted applied.accepted with
          ⟨uncancelled, _⟩ | ⟨cancelled, messages, response, foundHere, responds, rfl⟩
        · exact (tooLate uncancelled (by cases machine.managesOwnContext <;> decide)
            (by cases machine.managesOwnContext <;> decide)).elim
        · cases Option.some.inj (found.symm.trans foundHere)
          refine Or.inr (Or.inr (Or.inr ⟨rfl, ?_, rfl, ?_⟩))
          · intro never
            have flagged := applied.declined.flag_eq
            rw [flagged] at cancelled
            simp [StepEnv.cancelledIn, StepEnv.cancelledBy, never] at cancelled
          · intro entry member
            rcases cancellationResponse_answers machine.codec env.now member with ⟨answer, same, answered⟩
            cases Option.some.inj (responds.symm.trans same)
            exact StepResult.answers.finish ⟨response, List.mem_singleton_self _, answered⟩ _ _

namespace BatchExample

/-- A machine that stops after one message of the assistant. -/
def brief : Machine :=
  { Machine.plain with maxTurns := 1 }

/-- A session whose recipe asks for a structured output. -/
def collecting : State :=
  { start with session :=
    { start.session with recipe := some ⟨some ⟨some (.object [("type", .string "object")])⟩, none⟩ } }

/-- The provider gives its output while it asks for a call that needs approval. -/
def outputBatch : Message :=
  (((Message.assistant 0).withContent (call "r1" finalOutputToolName)).withContent (call "r2" "write")).withId "a"

def outputting : List Event :=
  [.step (saying [outputBatch]), .step (saying [])]

end BatchExample

/-- With a request pending, the budget of turns may stop the machine first; and the
machine may stop with an output that waits for a call the user has yet to approve. -/
theorem pending_not_answered :
    (Exists fun state => Exists fun result => Exists fun next => Exists fun turn =>
      runEvents BatchExample.brief [.step (BatchExample.unsupervised [BatchExample.batch])] BatchExample.start =
          .ok state ∧
        advance BatchExample.brief (BatchExample.unsupervised []) state = .ok (some result, next) ∧
          turn? state.session.conversation = some turn ∧ pendingToolRequests turn ≠ [] ∧
            result.appliedStep = some .maxTurns ∧ ¬ result.answers "r1") ∧
      Exists fun state => Exists fun next => Exists fun turn =>
        runEvents Machine.plain BatchExample.outputting BatchExample.collecting = .ok state ∧
          advance Machine.plain (BatchExample.saying []) state = .ok (none, next) ∧
            turn? state.session.conversation = some turn ∧ pendingToolRequests turn ≠ [] := by
  constructor
  · refine ⟨_, _, _, _, rfl, rfl, rfl, by decide, rfl, ?_⟩
    rintro ⟨message, member, answered⟩
    cases List.mem_singleton.mp member
    contradiction
  · exact ⟨_, _, _, rfl, rfl, rfl, by decide⟩

/-- A call that may run is answered by the next step. -/
theorem pending_progress_batch :
    Exists fun state => Exists fun last => Exists fun turn => Exists fun result => Exists fun name =>
      runEvents Machine.plain (BatchExample.answered.take 1) BatchExample.start = .ok state ∧
        step Machine.plain (BatchExample.unsupervised []) state = .ok (some result, last) ∧
          turn? state.session.conversation = some turn ∧ result.appliedStep = some name ∧
            Exists fun entry => entry ∈ pendingToolRequests turn ∧ result.answers entry.1.id := by
  have run : Exists fun state => Exists fun result => Exists fun last => Exists fun turn =>
      runEvents Machine.plain (BatchExample.answered.take 1) BatchExample.start = .ok state ∧
        step Machine.plain (BatchExample.unsupervised []) state = .ok (some result, last) ∧
          turn? state.session.conversation = some turn ∧ pendingToolRequests turn ≠ [] ∧
            ¬ FinalOutputWaits state.session turn ∧ result.appliedStep = some .toolExecution :=
    ⟨_, _, _, _, rfl, rfl, rfl, by decide, by decide, rfl⟩
  rcases run with ⟨state, result, last, turn, reached, stepped, found, pending, free, named⟩
  rcases pending_progress stepped found pending free with ⟨other, name, same, applied, progress⟩
  cases same
  have isTool : name = .toolExecution := Option.some.inj (applied.symm.trans named)
  subst isTool
  refine ⟨state, last, turn, result, _, reached, stepped, found, applied, ?_⟩
  rcases progress with before | recipe | answered | inference
  · exact absurd before (by decide)
  · cases recipe.1
  · exact answered.2
  · cases inference.1

end AIBuddy
