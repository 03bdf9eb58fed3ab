import AIBuddy.Agent.Offers
import AIBuddy.Agent.Run

namespace AIBuddy

open Runs

/-!
# What inference leaves open

Inference applies when the provider sees a message of the user or of a tool last.
The operations before it answer the requests that they find pending, and a request
that none of them takes up is still open when the provider is asked.
-/

/-- The requests of a turn that the provider has not run itself, each with the
message in which it stands. -/
def turnRequests (turn : List Message) : List (Message × ToolRequest) :=
  turn.flatMap fun message =>
    (message.toolRequests.filter fun request => !request.wasExecutedExternally).map fun request => (message, request)

/-- The ids of the responses of a turn that the agent sees. -/
def visibleAnswers (turn : List Message) : List String :=
  answeredIds (turn.filter Message.isAgentVisible)

/-- What the operations before inference need to answer a turn: a request without a
response is the assistant's, awaits no confirmation and is not kept for the recipe,
and the agent sees the responses that there are. -/
structure TakenUp (session : Session) (turn : List Message) : Prop where
  spoken : forall entry, entry ∈ turnRequests turn -> entry.1.role ≠ .assistant -> entry.2.id ∈ answeredIds turn
  decided : forall entry, entry ∈ turnRequests turn -> toolDisposition turn entry.2 = none ->
    entry.2.id ∈ answeredIds turn
  released : forall entry, entry ∈ turnRequests turn -> toolDisposition turn entry.2 = some .execute ->
    reservedForRecipe session turn (entry.2, .execute) = true -> entry.2.id ∈ answeredIds turn
  shown : forall entry, entry ∈ turnRequests turn -> entry.2.id ∈ answeredIds turn ->
    entry.2.id ∈ visibleAnswers turn

theorem mem_answeredIds_of_visible {turn : List Message} {id : String} (visible : id ∈ visibleAnswers turn) :
    id ∈ answeredIds turn := by
  unfold visibleAnswers answeredIds at *
  rcases List.mem_flatMap.mp visible with ⟨message, member, answers⟩
  exact List.mem_flatMap.mpr ⟨message, List.mem_of_mem_filter member, answers⟩

theorem mem_turnRequests_iff (turn : List Message) (message : Message) (request : ToolRequest) :
    (message, request) ∈ turnRequests turn ↔
      message ∈ turn ∧ request ∈ message.toolRequests ∧ request.wasExecutedExternally = false := by
  simp only [turnRequests, List.mem_flatMap, List.mem_map, List.mem_filter, Bool.not_eq_true', Prod.mk.injEq]
  constructor
  · rintro ⟨_, member, _, ⟨asked, inside⟩, rfl, rfl⟩
    exact ⟨member, asked, inside⟩
  · rintro ⟨member, asked, inside⟩
    exact ⟨message, member, request, ⟨asked, inside⟩, rfl, rfl⟩

theorem unknownToolRun_notApplicable {machine : Machine} {env : StepEnv} {session : Session}
    {conversation turn : List Message} (found : turn? conversation = some turn)
    (ran : unknownToolRun machine env session conversation = .ok .notApplicable)
    {entry : ToolRequest × ToolDisposition} (pending : entry ∈ pendingToolRequests turn) :
    reservedForRecipe session turn entry = true := by
  unfold unknownToolRun at ran
  rcases (bind_eq_ok_iff _ _ _).mp ran with ⟨messages, foundHere, decided⟩
  rw [messagesSinceKickoff_eq_ok_iff] at foundHere
  cases Option.some.inj (found.symm.trans foundHere)
  have declined := (pure_eq_ok_iff _ _).mp decided
  split at declined
  · case _ empty =>
      by_contra unreserved
      have left := List.isEmpty_iff.mp empty
      rw [List.filter_eq_nil_iff] at left
      exact left entry pending (by simpa using unreserved)
  · contradiction

theorem answered_of_asked {machine : Machine} {env : StepEnv} {state : State} {result : StepResult} {last : Agent}
    {turn : List Message} (stepped : step machine env state = .ok (some result, last))
    (asked : result.askedProvider = true) (found : turn? state.session.conversation = some turn)
    (takenUp : TakenUp state.session turn) {entry : Message × ToolRequest} (member : entry ∈ turnRequests turn) :
    entry.2.id ∈ answeredIds turn := by
  rcases step_applied stepped with ⟨name, before, after, flag, agent, applied⟩
  cases asksProvider_llm applied.accepted asked
  rcases offer_llm_eq_accepted applied.accepted with ⟨rfl, _⟩ | ⟨_, _, response, _, _, rfl⟩
  · have earlier : OperationName.unknownTool ∈
        (stepOrder machine.managesOwnContext).takeWhile fun candidate => candidate != .llm := by
      cases machine.managesOwnContext <;> decide
    rcases applied.ranBefore earlier (by decide) with ⟨_, _, _, ran⟩
    rcases (map_eq_ok_iff _ _ _).mp ran with ⟨outcome, returned, same⟩
    cases same
    rcases entry with ⟨message, request⟩
    rcases (mem_turnRequests_iff turn message request).mp member with ⟨inTurn, requested, inside⟩
    by_contra unanswered
    have assistant : message.role = .assistant := by
      by_contra other
      exact unanswered (takenUp.spoken _ member other)
    cases disposition : toolDisposition turn request with
    | none => exact unanswered (takenUp.decided _ member disposition)
    | some verdict =>
        have pending : (request, verdict) ∈ pendingToolRequests turn :=
          (mem_pendingToolRequests_iff turn request verdict).mpr
            ⟨⟨message, inTurn, assistant, requested⟩, inside, unanswered, disposition⟩
        have reserved := unknownToolRun_notApplicable found returned pending
        have executable : verdict = .execute := by
          simp only [reservedForRecipe, Bool.and_eq_true, beq_iff_eq] at reserved
          exact reserved.1.1.2
        subst executable
        exact unanswered (takenUp.released _ member disposition reserved)
  · contradiction

/-- Whenever a run asks the provider, the agent sees a response to every request of
the turn exactly when the requests could be taken up. -/
theorem inference_answered_iff {machine : Machine} {events : List Event} {start state next : State} {env : StepEnv}
    {result : StepResult} {turn : List Message}
    (taken : StepIn machine events start state env (some result) next) (asked : result.askedProvider = true)
    (found : turn? state.session.conversation = some turn) :
    (forall entry, entry ∈ turnRequests turn -> entry.2.id ∈ visibleAnswers turn) ↔ TakenUp state.session turn := by
  have stepped := ((advance_eq_ok_iff _ _ _ _ _).mp taken.advanced).1
  constructor
  · intro answered
    have present : forall entry, entry ∈ turnRequests turn -> entry.2.id ∈ answeredIds turn :=
      fun entry member => mem_answeredIds_of_visible (answered entry member)
    exact ⟨fun entry member _ => present entry member, fun entry member _ => present entry member,
      fun entry member _ _ => present entry member, fun entry member _ => answered entry member⟩
  · intro takenUp entry member
    exact takenUp.shown entry member (answered_of_asked stepped asked found takenUp member)

/-! ## A batch of which one call may run -/

namespace BatchExample

/-- Writing needs the user's approval, everything else is allowed. -/
def permission : ToolInspector where
  name := permissionInspectorName
  isPermissionInspector := true
  isEnabled := true
  inspect := fun requests _ _ => .ok (requests.map fun request =>
    ⟨request.id, if request.calls "write" then .requireApproval none else .allow, permissionInspectorName⟩)

def start : State :=
  ⟨⟨.approve, none, none⟩, ⟨"s", [((Message.user 0).withContent (.plainText "hi")).withId "k"], none, .approve, .null⟩⟩

/-- A step with two tools, in which the provider says the given chunks. -/
def saying (chunks : List Message) : StepEnv :=
  { StepEnv.still with
    inspectionManager := ⟨[permission]⟩
    knownTools := ["read", "write"]
    provider := { ProviderTurn.silent with chunks := chunks } }

def call (id tool : String) : MessageContentBlock :=
  .toolRequest ⟨id, .ok ⟨tool, none⟩, none, none⟩

def batch : Message :=
  ((Message.assistant 0).withContent (call "r1" "read")).withId "a"

def mixedBatch : Message :=
  (((Message.assistant 0).withContent (call "r1" "read")).withContent (call "r2" "write")).withId "a"

/-- The provider calls a tool, the tool runs, and the provider is asked again. -/
def answered : List Event :=
  [.step (saying [batch]), .step (saying []), .step (saying [])]

/-- The provider calls two tools, the user is asked about one of them, the other one
runs, and the provider is asked again. -/
def half : List Event :=
  [.step (saying [mixedBatch]), .step (saying []), .step (saying []), .step (saying [])]

end BatchExample

/-- While the user is asked about one call, the other one runs, and then the provider
is asked although the first call has no response. -/
theorem inference_leaves_open :
    Exists fun state => Exists fun result => Exists fun next => Exists fun turn =>
      StepIn Machine.plain BatchExample.half BatchExample.start state (BatchExample.saying []) (some result) next ∧
        result.askedProvider = true ∧ turn? state.session.conversation = some turn ∧
          ¬ forall entry, entry ∈ turnRequests turn -> entry.2.id ∈ visibleAnswers turn :=
  ⟨_, _, _, _, ⟨⟨BatchExample.half.take 3, [], rfl, rfl⟩, rfl⟩, rfl, rfl, by decide⟩

/-- When every call may run, all are answered before the provider is asked again. -/
theorem inference_answered_iff_batch :
    Exists fun turn => (turnRequests turn).length = 1 ∧
      forall entry, entry ∈ turnRequests turn -> entry.2.id ∈ visibleAnswers turn := by
  have run : Exists fun state => Exists fun result => Exists fun next => Exists fun turn =>
      StepIn Machine.plain BatchExample.answered BatchExample.start state (BatchExample.saying []) (some result)
        next ∧ result.askedProvider = true ∧ turn? state.session.conversation = some turn ∧
          (turnRequests turn).length = 1 ∧ TakenUp state.session turn :=
    ⟨_, _, _, _, ⟨⟨BatchExample.answered.take 2, [], rfl, rfl⟩, rfl⟩, rfl, rfl, rfl,
      by decide, by decide, by decide, by decide⟩
  rcases run with ⟨state, result, next, turn, taken, asked, found, one, takenUp⟩
  exact ⟨turn, one, (inference_answered_iff taken asked found).mpr takenUp⟩

end AIBuddy
