import AIBuddy.Agent.OpenRequests

namespace AIBuddy

open Runs

/-!
# The permission gate

Nothing hands a request to a tool unless the approval step before it found nothing
left to do.  What that step leaves alone has been allowed by the inspectors or by
the user, except a request under the id of a confirmation that is still awaited.
-/

/-! ## What is dispatched -/

/-- A request is ready to run: it is pending, offered to the model, and executable. -/
def Ready (turn : List Message) (request : ToolRequest) : Prop :=
  (request, ToolDisposition.execute) ∈ pendingAdvertisedToolRequests turn

instance (turn : List Message) (request : ToolRequest) : Decidable (Ready turn request) :=
  inferInstanceAs (Decidable (_ ∈ _))

/-- Whatever a result dispatches is ready, and the operation may run it in its mode. -/
def OperationResult.DispatchesReady (turn? : Option (List Message)) (mode : AIBuddyMode) : OperationResult -> Prop
  | .notApplicable => True
  | .applied result => forall request, request ∈ result.dispatched ->
      mode ≠ .chat ∧ Exists fun turn => turn? = some turn ∧ Ready turn request

open OperationResult

variable {machine : Machine} {env : StepEnv} {session : Session} {agent : Agent} {conversation : List Message}

theorem ready_of_dispatched {turn : List Message} {pending : List (ToolRequest × ToolDisposition)}
    (fromTurn : forall entry, entry ∈ pending -> entry ∈ pendingAdvertisedToolRequests turn)
    {request : ToolRequest} (dispatched : request ∈ dispatchedRequests env pending) : Ready turn request := by
  rcases List.mem_map.mp dispatched with ⟨⟨asked, disposition⟩, kept, rfl⟩
  rcases List.mem_filter.mp kept with ⟨member, runs⟩
  simp only [Bool.and_eq_true, beq_iff_eq] at runs
  cases runs.1
  exact fromTurn _ member

private theorem dispatchesReady_nothing {turn? : Option (List Message)} {mode : AIBuddyMode} {result : StepResult}
    (nothing : result.dispatched = []) : DispatchesReady turn? mode (.applied result) := by
  intro request dispatched
  rw [nothing] at dispatched
  contradiction

private theorem skillRun_ready :
    Ensures (skillRun machine env session conversation)
      (DispatchesReady (turn? conversation) session.aibuddyMode) := by
  unfold skillRun
  apply Ensures.bind
  intro turn found
  rw [messagesSinceKickoff_eq_ok_iff] at found
  apply Ensures.ok
  split
  · trivial
  · intro request dispatched
    simp only at dispatched
    split at dispatched
    · contradiction
    · case _ working =>
        exact ⟨working, turn, found, ready_of_dispatched (fun _ member => List.mem_of_mem_filter member) dispatched⟩

private theorem commandResponse_ready (missing : String) (response : Message) {turn? : Option (List Message)}
    {mode : AIBuddyMode} :
    Ensures (commandResponse missing conversation response) (DispatchesReady turn? mode) := by
  intro result returned
  have internal := commandResponse_internal missing response result returned
  cases result with
  | notApplicable => trivial
  | applied result => exact dispatchesReady_nothing internal.1

theorem ready_of_pendingFinalOutput {turn : List Message} {request : ToolRequest}
    (first : pendingFinalOutput turn = some request) : Ready turn request := by
  rcases Option.map_eq_some_iff.mp first with ⟨⟨asked, disposition⟩, found, rfl⟩
  have executable := List.find?_some found
  simp only [Bool.and_eq_true, beq_iff_eq] at executable
  cases executable.1
  exact List.mem_of_find?_eq_some found

private theorem recipeRunActive_ready (schema : Json) {turn : List Message} (found : turn? conversation = some turn) :
    Ensures (recipeRunActive machine env session schema turn)
      (DispatchesReady (turn? conversation) session.aibuddyMode) := by
  unfold recipeRunActive
  split
  · case _ request pending =>
      split
      · exact Ensures.ok (dispatchesReady_nothing rfl)
      · case _ working =>
          split
          · exact Ensures.ok trivial
          split
          · exact Ensures.error _ _
          · apply Ensures.ok
            intro other dispatched
            simp only at dispatched
            split at dispatched
            · rw [List.mem_singleton.mp dispatched]
              exact ⟨working, turn, found, ready_of_pendingFinalOutput pending⟩
            · contradiction
  · split
    · apply Ensures.bind
      intro role _
      apply Ensures.ok
      split
      · exact dispatchesReady_nothing rfl
      · trivial
    · apply Ensures.ok
      split
      · exact dispatchesReady_nothing rfl
      · trivial

private theorem recipeRun_ready :
    Ensures (recipeRun machine env session conversation)
      (DispatchesReady (turn? conversation) session.aibuddyMode) := by
  unfold recipeRun
  apply Ensures.bind
  intro schema _
  split
  · exact Ensures.ok trivial
  · split
    · exact commandResponse_ready _ _
    · apply Ensures.bind
      intro turn found
      exact recipeRunActive_ready _ ((messagesSinceKickoff_eq_ok_iff _ _).mp found)

private theorem toolExecutionRun_ready :
    Ensures (toolExecutionRun machine env agent conversation)
      (DispatchesReady (turn? conversation) agent.aibuddyMode) := by
  unfold toolExecutionRun
  apply Ensures.bind
  intro turn found
  rw [messagesSinceKickoff_eq_ok_iff] at found
  apply Ensures.ok
  split
  · trivial
  · split
    · exact dispatchesReady_nothing rfl
    · case _ working =>
        intro request dispatched
        exact ⟨working, turn, found, ready_of_dispatched (fun _ member => List.mem_of_mem_filter member) dispatched⟩

/-- A step that hands a request to a tool comes behind an approval that had nothing to
do, and the request is ready. -/
structure Dispatched (machine : Machine) (env : StepEnv) (state : State) (request : ToolRequest)
    (turn : List Message) : Prop where
  found : turn? state.session.conversation = some turn
  ready : Ready turn request
  working : state.agent.aibuddyMode ≠ .chat ∨ state.session.aibuddyMode ≠ .chat
  approval : Exists fun agent => agent.aibuddyMode = state.agent.aibuddyMode ∧
    toolApprovalRun machine env agent state.session.conversation = .ok .notApplicable

theorem step_dispatched {state : State} {result : StepResult} {last : Agent}
    (stepped : step machine env state = .ok (some result, last)) {request : ToolRequest}
    (dispatched : request ∈ result.dispatched) :
    Exists fun turn => Dispatched machine env state request turn := by
  rcases step_applied stepped with ⟨name, before, after, flag, agent, applied⟩
  by_cases inference : name = .llm
  · subst inference
    rcases offer_llm_eq_accepted applied.accepted with
      ⟨_, _, _, names, turn, outcome, _, _, asked, rfl⟩ | ⟨_, turn, response, _, _, rfl⟩
    · rcases inferOn_asked machine env names turn with ⟨same, isAsked, _, nothing⟩
      cases OperationResult.applied.inj (isAsked.symm.trans asked)
      have none : request ∈ outcome.dispatched := dispatched
      rw [nothing] at none
      contradiction
    · contradiction
  · rcases applied.ran inference with ⟨rfl, outcome, ran, rfl⟩
    have inOutcome : request ∈ outcome.dispatched := dispatched
    by_cases dispatches : name.dispatches
    · have earlier : OperationName.toolApproval ∈
          (stepOrder machine.managesOwnContext).takeWhile fun candidate => candidate != name := by
        rcases dispatches with rfl | rfl | rfl <;> cases machine.managesOwnContext <;> decide
      rcases applied.ranBefore earlier (by decide) with ⟨asking, _, mode, approvalRan⟩
      rcases (map_eq_ok_iff _ _ _).mp approvalRan with ⟨declined, approval, same⟩
      cases same
      have agentMode : agent.aibuddyMode = state.agent.aibuddyMode := applied.declined.mode
      rcases dispatches with rfl | rfl | rfl
      · rcases (map_eq_ok_iff _ _ _).mp ran with ⟨plain, isPlain, same⟩
        cases same
        rcases skillRun_ready _ isPlain request inOutcome with ⟨working, turn, found, ready⟩
        exact ⟨turn, found, ready, Or.inr working, asking, mode, approval⟩
      · rcases (map_eq_ok_iff _ _ _).mp ran with ⟨plain, isPlain, same⟩
        cases same
        rcases recipeRun_ready _ isPlain request inOutcome with ⟨working, turn, found, ready⟩
        exact ⟨turn, found, ready, Or.inr working, asking, mode, approval⟩
      · rcases (map_eq_ok_iff _ _ _).mp ran with ⟨plain, isPlain, same⟩
        cases same
        rcases toolExecutionRun_ready _ isPlain request inOutcome with ⟨working, turn, found, ready⟩
        exact ⟨turn, found, ready, Or.inl (agentMode ▸ working), asking, mode, approval⟩
    · have inside := (runOperation_keepsInside dispatches inference _ ran).1
      rw [inside.1] at inOutcome
      contradiction

/-! ## What an approval leaves alone -/

/-- The latest decision of the user about a request allows it. -/
def allowedByUser (turn : List Message) (request : ToolRequest) : Bool :=
  (confirmationResponse turn request.id).any permissionAllows

/-- The user was asked about a request and has not decided. -/
def AwaitsUser (turn : List Message) (request : ToolRequest) : Prop :=
  request.id ∈ confirmationRequestIds turn ∧ confirmationResponse turn request.id = none

instance (turn : List Message) (request : ToolRequest) : Decidable (AwaitsUser turn request) :=
  inferInstanceAs (Decidable (_ ∧ _))

theorem ready_iff (turn : List Message) (request : ToolRequest) :
    Ready turn request ↔
      (Exists fun message => message ∈ turn ∧ message.role = .assistant ∧ request ∈ message.toolRequests) ∧
        request.wasExecutedExternally = false ∧ request.id ∉ answeredIds turn ∧
          request.toolCall.isOk ∧ requestExecutable request ≠ some false ∧ requestWasAdvertised turn request = true := by
  unfold Ready pendingAdvertisedToolRequests
  rw [List.mem_filter, mem_pendingToolRequests_iff, toolDisposition_execute_iff]
  simp only [and_assoc]

theorem Ready.mem_toolRequests {turn : List Message} {request : ToolRequest} (ready : Ready turn request) :
    request ∈ (ApprovalState.fromMessages turn).toolRequests := by
  rcases (ready_iff turn request).mp ready with ⟨⟨message, member, _, requested⟩, _, _, _, _, advertised⟩
  exact List.mem_flatMap.mpr ⟨message, member, List.mem_filter.mpr ⟨requested, advertised⟩⟩

theorem toolApprovalRun_notApplicable {turn : List Message} (found : turn? conversation = some turn)
    (working : agent.aibuddyMode ≠ .chat)
    (ran : toolApprovalRun machine env agent conversation = .ok .notApplicable) :
    responseEffects (ApprovalState.fromMessages turn) = [] ∧
      inspectionEffects machine env agent.aibuddyMode conversation
        (ApprovalState.fromMessages turn).pendingRequests = .ok [] := by
  unfold toolApprovalRun at ran
  rw [if_neg working] at ran
  rcases (bind_eq_ok_iff _ _ _).mp ran with ⟨messages, foundHere, ran⟩
  rw [messagesSinceKickoff_eq_ok_iff] at foundHere
  cases Option.some.inj (found.symm.trans foundHere)
  rcases (bind_eq_ok_iff _ _ _).mp ran with ⟨inspected, computed, decided⟩
  have declined := (pure_eq_ok_iff _ _).mp decided
  split at declined
  · case _ empty =>
      rcases List.append_eq_nil_iff.mp (List.isEmpty_iff.mp empty) with ⟨responses, nothing⟩
      rw [nothing] at computed
      exact ⟨responses, computed⟩
  · contradiction

theorem Ready.allowed {turn : List Message} {request : ToolRequest} (ready : Ready turn request)
    (written : responseEffects (ApprovalState.fromMessages turn) = []) {permission : Permission}
    (decided : confirmationResponse turn request.id = some permission) : allowedByUser turn request = true := by
  rcases (ready_iff turn request).mp ready with ⟨_, _, unanswered, _, executable, _⟩
  have pending : PendingResponse.mk request.id (request.toolCall.toOption.map CallToolRequestParams.name) permission
      (requestExecutable request) ∈ (ApprovalState.fromMessages turn).responses := by
    refine List.mem_filterMap.mpr ⟨request, ready.mem_toolRequests, ?_⟩
    have sameDecision : (ApprovalState.fromMessages turn).confirmationResponse request.id = some permission := decided
    rw [if_neg (show request.id ∉ (ApprovalState.fromMessages turn).answered from unanswered), sameDecision]
    rfl
  have kept := List.filterMap_eq_nil_iff.mp written _ pending
  simp only at kept
  unfold allowedByUser
  rw [decided, Option.any_some]
  split at kept
  · case _ same =>
      cases allows : permissionAllows permission with
      | true => rfl
      | false => exact absurd (same.trans (congrArg some allows)) executable
  · contradiction

theorem Ready.mem_pendingRequests {turn : List Message} {request : ToolRequest} (ready : Ready turn request)
    (undecided : confirmationResponse turn request.id = none) (unasked : ¬ AwaitsUser turn request) :
    request ∈ (ApprovalState.fromMessages turn).pendingRequests := by
  rcases (ready_iff turn request).mp ready with ⟨_, inside, unanswered, readable, executable, _⟩
  have notAsked : request.id ∉ confirmationRequestIds turn := fun asked => unasked ⟨asked, undecided⟩
  have sameDecision : (ApprovalState.fromMessages turn).confirmationResponse request.id = none := undecided
  refine List.mem_filter.mpr ⟨ready.mem_toolRequests, ?_⟩
  have noAnswer : decide (request.id ∈ (ApprovalState.fromMessages turn).answered) = false := decide_eq_false unanswered
  have noRequest : decide (request.id ∈ (ApprovalState.fromMessages turn).approvalRequests) = false :=
    decide_eq_false notAsked
  rw [noAnswer, noRequest, sameDecision, inside, readable]
  simpa using executable

theorem approved_of_inspected {mode : AIBuddyMode} {pending : List ToolRequest}
    (registered : env.inspectionManager.hasPermissionInspector = true)
    (inspected : inspectionEffects machine env mode conversation pending = .ok []) {request : ToolRequest}
    (member : request ∈ pending) :
    request ∈ (env.inspectionManager.permissionCheck pending
      (env.inspectionManager.inspectTools pending conversation mode)).approved := by
  have check : forall results, env.inspectionManager.permissionCheck pending results =
      processInspectionResults pending results := by
    intro results
    unfold ToolInspectionManager.permissionCheck
      ToolInspectionManager.processInspectionResultsWithPermissionInspector
    rw [if_pos registered]
    rfl
  unfold inspectionEffects at inspected
  split at inspected
  · case _ empty =>
      rw [List.isEmpty_iff.mp empty] at member
      contradiction
  · rcases (bind_eq_ok_iff _ _ _).mp inspected with ⟨asked, asks, nothing⟩
    rcases List.append_eq_nil_iff.mp ((pure_eq_ok_iff _ _).mp nothing) with ⟨undenied, rfl⟩
    have noneDenied := List.map_eq_nil_iff.mp undenied
    have noneAsked : (env.inspectionManager.permissionCheck pending
        (env.inspectionManager.inspectTools pending conversation mode)).needsApproval = [] := by
      cases needs : (env.inspectionManager.permissionCheck pending
          (env.inspectionManager.inspectTools pending conversation mode)).needsApproval with
      | nil => rfl
      | cons first rest =>
          rw [needs] at asks
          unfold needsApprovalEffects at asks
          split at asks
          · contradiction
          · rcases (bind_eq_ok_iff _ _ _).mp asks with ⟨later, _, same⟩
            cases (pure_eq_ok_iff _ _).mp same
    rw [check] at noneDenied noneAsked ⊢
    rcases processInspectionResults_sorted pending _ request member with approved | ⟨held, inBuckets, _⟩
    · exact approved
    · rw [noneAsked, noneDenied] at inBuckets
      contradiction

/-! ## Runs -/

/-- What the inspectors of a step say about the requests that nobody has looked at. -/
def inspectionResults (env : StepEnv) (state : State) (turn : List Message) : List InspectionResult :=
  env.inspectionManager.inspectTools (ApprovalState.fromMessages turn).pendingRequests state.session.conversation
    state.agent.aibuddyMode

/-- The requests that the inspection of a step approves. -/
def inspectionApproves (env : StepEnv) (state : State) : List ToolRequest :=
  match turn? state.session.conversation with
  | none => []
  | some turn =>
      (env.inspectionManager.permissionCheck (ApprovalState.fromMessages turn).pendingRequests
        (inspectionResults env state turn)).approved

/-- The requests that the inspections of a run approve. -/
def approvals (machine : Machine) : List Event -> State -> List ToolRequest
  | [], _ => []
  | event :: rest, state =>
      (match event with
        | .step env => inspectionApproves env state
        | _ => []) ++
      (match occur machine event state with
        | .ok next => approvals machine rest next
        | .error _ => [])

/-- The agent and its session are in one of the modes that ask the user, and the
permission inspector is registered. -/
structure Supervised (state : State) (env : StepEnv) : Prop where
  sameMode : state.agent.aibuddyMode = state.session.aibuddyMode
  asks : state.agent.aibuddyMode = .approve ∨ state.agent.aibuddyMode = .smartApprove
  registered : env.inspectionManager.hasPermissionInspector = true

instance (state : State) (env : StepEnv) : Decidable (Supervised state env) :=
  decidable_of_iff (state.agent.aibuddyMode = state.session.aibuddyMode ∧
      (state.agent.aibuddyMode = .approve ∨ state.agent.aibuddyMode = .smartApprove) ∧
        env.inspectionManager.hasPermissionInspector = true)
    ⟨fun parts => ⟨parts.1, parts.2.1, parts.2.2⟩, fun whole => ⟨whole.sameMode, whole.asks, whole.registered⟩⟩

/-- No request under the id of a confirmation that the user still owes is ready. -/
def HeldWhileAsked (conversation : List Message) : Prop :=
  forall turn, turn ∈ turn? conversation -> forall entry, entry ∈ pendingAdvertisedToolRequests turn ->
    entry.2 = .execute -> ¬ AwaitsUser turn entry.1

instance (conversation : List Message) : Decidable (HeldWhileAsked conversation) :=
  inferInstanceAs (Decidable (forall turn, turn ∈ turn? conversation -> _))

theorem approvals_concat {front : List Event} {start state : State}
    (reached : runEvents machine front start = .ok state) (env : StepEnv) {request : ToolRequest}
    (approved : request ∈ inspectionApproves env state) :
    request ∈ approvals machine (front ++ [.step env]) start := by
  induction front generalizing start with
  | nil =>
      cases reached
      exact List.mem_append_left _ approved
  | cons event rest ih =>
      rcases (run_cons_eq_ok_iff event rest start state).mp reached with ⟨next, moved, onwards⟩
      simp only [List.cons_append, approvals]
      rw [moved]
      exact List.mem_append_right _ (ih onwards)

theorem Dispatched.cleared {state : State} {request : ToolRequest} {turn : List Message}
    (dispatched : Dispatched machine env state request turn) (working : state.agent.aibuddyMode ≠ .chat) :
    allowedByUser turn request = true ∨ AwaitsUser turn request ∨
      (confirmationResponse turn request.id = none ∧ request ∈ (ApprovalState.fromMessages turn).pendingRequests ∧
        inspectionEffects machine env state.agent.aibuddyMode state.session.conversation
          (ApprovalState.fromMessages turn).pendingRequests = .ok []) := by
  rcases dispatched.approval with ⟨agent, mode, ran⟩
  rcases toolApprovalRun_notApplicable dispatched.found (by rw [mode]; exact working) ran with ⟨written, inspected⟩
  rw [mode] at inspected
  cases decided : confirmationResponse turn request.id with
  | some permission => exact Or.inl (dispatched.ready.allowed written decided)
  | none =>
      by_cases awaits : AwaitsUser turn request
      · exact Or.inr (Or.inl awaits)
      · exact Or.inr (Or.inr ⟨rfl, dispatched.ready.mem_pendingRequests decided awaits, inspected⟩)

/-- In every supervised run that holds back what the user is asked about, a request is
handed to a tool only if an inspection approved it or the user allowed it. -/
theorem dispatched_permitted {front : List Event} {start state next : State} {result : StepResult}
    {request : ToolRequest}
    (gated : AlongSteps machine
      (fun state env => Supervised state env ∧ HeldWhileAsked state.session.conversation) (front ++ [.step env]) start)
    (reached : runEvents machine front start = .ok state)
    (advanced : advance machine env state = .ok (some result, next)) (dispatched : request ∈ result.dispatched) :
    request ∈ approvals machine (front ++ [.step env]) start ∨
      Exists fun turn => turn? state.session.conversation = some turn ∧ allowedByUser turn request = true := by
  rcases (Along.of_append gated reached).1 with ⟨supervised, held⟩
  have working : state.agent.aibuddyMode ≠ .chat := by
    rcases supervised.asks with mode | mode <;> rw [mode] <;> decide
  rcases step_dispatched ((advance_eq_ok_iff _ _ _ _ _).mp advanced).1 dispatched with ⟨turn, ready⟩
  rcases ready.cleared working with allowed | awaits | ⟨_, pending, inspected⟩
  · exact Or.inr ⟨turn, ready.found, allowed⟩
  · exact absurd awaits (held turn ready.found (request, .execute) ready.ready rfl)
  · left
    apply approvals_concat reached
    unfold inspectionApproves
    rw [ready.found]
    exact approved_of_inspected supervised.registered inspected pending

/-! ## Requests without a verdict -/

/-- The verdict of the permission inspector, when there is one. -/
def ToolInspectionManager.verdict (manager : ToolInspectionManager) (results : List InspectionResult)
    (request : ToolRequest) : Option InspectionAction :=
  if manager.hasPermissionInspector then permissionVerdict results request else none

/-- Every request that is ready and not allowed by the user is kept from running: in
chat mode nothing runs, and otherwise it is decided against, or it is inspected by a
registered permission inspector. -/
def Guarded (state : State) (env : StepEnv) : Prop :=
  forall turn, turn ∈ turn? state.session.conversation -> forall entry, entry ∈ pendingAdvertisedToolRequests turn ->
    entry.2 = .execute -> allowedByUser turn entry.1 = true ∨
      if state.agent.aibuddyMode = .chat then state.session.aibuddyMode = .chat
      else ¬ AwaitsUser turn entry.1 ∧
        (confirmationResponse turn entry.1.id = none -> env.inspectionManager.hasPermissionInspector = true)

instance (state : State) (env : StepEnv) : Decidable (Guarded state env) :=
  inferInstanceAs (Decidable (forall turn, turn ∈ turn? state.session.conversation -> _))

theorem legacyPermissionCheck_holdsBack (manager : ToolInspectionManager) {requests : List ToolRequest}
    {results : List InspectionResult} {request : ToolRequest} (member : request ∈ requests)
    (silent : manager.verdict results request = none) :
    (manager.legacyPermissionCheck requests results).holdsBack request.id := by
  unfold ToolInspectionManager.verdict at silent
  unfold ToolInspectionManager.legacyPermissionCheck
    ToolInspectionManager.processInspectionResultsWithPermissionInspector
  cases registered : manager.hasPermissionInspector with
  | true =>
      rw [if_pos registered] at silent
      rw [if_pos rfl, Option.getD_some]
      rcases processInspectionResults_sorted requests results request member with approved | held
      · have verdict := (processInspectionResults_approved requests results request approved).2
        rw [silent] at verdict
        contradiction
      · exact held
  | false =>
      rw [if_neg Bool.false_ne_true, Option.getD_none]
      exact ⟨request, List.mem_append_left _ member, rfl⟩

/-- In every guarded run, a request is handed to a tool only if the permission
inspector allows it at that step or the user has allowed it, and the replaced loop
holds back what has no verdict. -/
theorem dispatched_verdict {events : List Event} {start state next : State} {result : StepResult}
    {request : ToolRequest} (guarded : AlongSteps machine Guarded events start)
    (taken : StepIn machine events start state env (some result) next) (dispatched : request ∈ result.dispatched) :
    (Exists fun turn => turn? state.session.conversation = some turn ∧
      (env.inspectionManager.verdict (inspectionResults env state turn) request = some .allow ∨
        allowedByUser turn request = true)) ∧
      forall requests results other, other ∈ requests -> env.inspectionManager.verdict results other = none ->
        (env.inspectionManager.legacyPermissionCheck requests results).holdsBack other.id := by
  refine ⟨?_, fun requests results other member silent => legacyPermissionCheck_holdsBack _ member silent⟩
  have here := taken.along guarded
  rcases step_dispatched ((advance_eq_ok_iff _ _ _ _ _).mp taken.advanced).1 dispatched with ⟨turn, ready⟩
  refine ⟨turn, ready.found, ?_⟩
  rcases here turn ready.found (request, .execute) ready.ready rfl with allowed | kept
  · exact Or.inr allowed
  · split at kept
    · case _ chat =>
        rcases ready.working with working | working
        · exact absurd chat working
        · exact absurd kept working
    · case _ working =>
        rcases ready.cleared working with allowed | awaits | ⟨undecided, pending, inspected⟩
        · exact Or.inr allowed
        · exact absurd awaits kept.1
        · left
          have registered := kept.2 undecided
          have approved := approved_of_inspected registered inspected pending
          unfold ToolInspectionManager.permissionCheck
            ToolInspectionManager.processInspectionResultsWithPermissionInspector at approved
          rw [if_pos registered] at approved
          unfold ToolInspectionManager.verdict
          rw [if_pos registered]
          exact (processInspectionResults_approved _ _ request approved).2

/-! ## Past the gate -/

namespace BatchExample

/-- The provider calls a tool under the id of a call that still awaits the user. -/
def reused : Message :=
  ((Message.assistant 0).withContent (call "r2" "write")).withId "b"

def reusing : List Event :=
  [.step (saying [mixedBatch]), .step (saying []), .step (saying []), .step (saying [reused]), .step (saying [])]

/-- The same without a permission inspector. -/
def unsupervised (chunks : List Message) : StepEnv :=
  { saying chunks with inspectionManager := ⟨[]⟩ }

def uninspected : List Event :=
  [.step (unsupervised [batch]), .step (unsupervised [])]

end BatchExample

/-- A call under the id of one that awaits the user runs without an inspection. -/
theorem dispatched_unpermitted :
    AlongSteps Machine.plain Supervised BatchExample.reusing BatchExample.start ∧
      Exists fun state => Exists fun result => Exists fun next => Exists fun request =>
        runEvents Machine.plain (BatchExample.reusing.take 4) BatchExample.start = .ok state ∧
          advance Machine.plain (BatchExample.saying []) state = .ok (some result, next) ∧
            request ∈ result.dispatched ∧
              request ∉ approvals Machine.plain BatchExample.reusing BatchExample.start ∧
                confirmationResponses state.session.conversation = [] :=
  ⟨by decide, _, _, _, ⟨"r2", .ok ⟨"write", none⟩, none, none⟩, rfl, rfl, by decide, by decide, rfl⟩

/-- What the inspector allows runs. -/
theorem dispatched_permitted_batch :
    Exists fun state => Exists fun result => Exists fun next => Exists fun request =>
      runEvents Machine.plain (BatchExample.answered.take 1) BatchExample.start = .ok state ∧
        advance Machine.plain (BatchExample.saying []) state = .ok (some result, next) ∧
          request ∈ result.dispatched ∧
            (request ∈ approvals Machine.plain (BatchExample.answered.take 1 ++ [.step (BatchExample.saying [])])
                BatchExample.start ∨
              Exists fun turn => turn? state.session.conversation = some turn ∧
                allowedByUser turn request = true) := by
  have run : Exists fun state => Exists fun result => Exists fun next =>
      runEvents Machine.plain (BatchExample.answered.take 1) BatchExample.start = .ok state ∧
        advance Machine.plain (BatchExample.saying []) state = .ok (some result, next) ∧
          ToolRequest.mk "r1" (.ok ⟨"read", none⟩) none none ∈ result.dispatched := ⟨_, _, _, rfl, rfl, by decide⟩
  rcases run with ⟨state, result, next, reached, advanced, dispatched⟩
  have gated : AlongSteps Machine.plain
      (fun state env => Supervised state env ∧ HeldWhileAsked state.session.conversation)
      (BatchExample.answered.take 1 ++ [.step (BatchExample.saying [])]) BatchExample.start := by decide
  exact ⟨state, result, next, _, reached, advanced, dispatched,
    dispatched_permitted gated reached advanced dispatched⟩

/-- Without a permission inspector, a call runs although nobody has allowed it, and the
replaced loop would have asked the user. -/
theorem dispatched_unjudged :
    Exists fun state => Exists fun result => Exists fun next => Exists fun turn => Exists fun request =>
      runEvents Machine.plain (BatchExample.uninspected.take 1) BatchExample.start = .ok state ∧
        advance Machine.plain (BatchExample.unsupervised []) state = .ok (some result, next) ∧
          request ∈ result.dispatched ∧ turn? state.session.conversation = some turn ∧
            (BatchExample.unsupervised []).inspectionManager.verdict
              (inspectionResults (BatchExample.unsupervised []) state turn) request = none ∧
                confirmationResponses state.session.conversation = [] ∧
                  ((BatchExample.unsupervised []).inspectionManager.legacyPermissionCheck [request] []).needsApproval =
                    [request] :=
  ⟨_, _, _, _, ⟨"r1", .ok ⟨"read", none⟩, none, none⟩, rfl, rfl, by decide, rfl, rfl, rfl, rfl⟩

/-- What the inspector allows has its verdict. -/
theorem dispatched_verdict_batch :
    Exists fun state => Exists fun turn => turn? state.session.conversation = some turn ∧
      ((BatchExample.saying []).inspectionManager.verdict (inspectionResults (BatchExample.saying []) state turn)
          ⟨"r1", .ok ⟨"read", none⟩, none, none⟩ = some .allow ∨
        allowedByUser turn ⟨"r1", .ok ⟨"read", none⟩, none, none⟩ = true) := by
  have run : Exists fun state => Exists fun result => Exists fun next =>
      StepIn Machine.plain (BatchExample.answered.take 2) BatchExample.start state (BatchExample.saying [])
        (some result) next ∧ ToolRequest.mk "r1" (.ok ⟨"read", none⟩) none none ∈ result.dispatched :=
    ⟨_, _, _, ⟨⟨BatchExample.answered.take 1, [], rfl, rfl⟩, rfl⟩, by decide⟩
  rcases run with ⟨state, result, next, taken, dispatched⟩
  have guarded : AlongSteps Machine.plain Guarded (BatchExample.answered.take 2) BatchExample.start := by decide
  exact ⟨state, (dispatched_verdict guarded taken dispatched).1⟩

end AIBuddy
