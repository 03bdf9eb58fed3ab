import AIBuddy.Agent.RetryReset

namespace AIBuddy

open Runs

/-!
# A step among other writers

A step computes its effects from the session that it loaded and applies them one
after the other.  Confirmations and answers to questions reach the store on
another path, before, between and after the effects.  A message that was added
in time to be overtaken by a replacement of the conversation is gone.
-/

/-- What happens to the store between the loading of a session and the last
effect of the step. -/
inductive StoreAction where
  | effect (item : AIBuddyEffect)
  | write (message : Message)

namespace StoreAction

def effect? : StoreAction -> Option AIBuddyEffect
  | effect item => some item
  | write _ => none

def perform (action : StoreAction) (session : Session) : Except String Session :=
  match action with
  | effect item => applyEffect session item
  | write message => .ok { session with rows := addMessage session.rows message }

/-- Whether an action replaces the whole conversation. -/
def Replaces : StoreAction -> Prop
  | effect (.conversation (.replaceConversation _)) | effect (.replaceConversation _) => True
  | _ => False

/-- The ids of the messages that an action puts into the store. -/
def introduces : StoreAction -> List (Option String)
  | effect (.conversation (.appendMessage message)) => [message.id]
  | effect (.conversation (.replaceConversation messages)) => messages.map Message.id
  | effect (.replaceConversation messages) => messages.map Message.id
  | write message => [message.id]
  | _ => []

end StoreAction

def performAll : List StoreAction -> Session -> Except String Session :=
  Runs.run StoreAction.perform

/-- A step on a loaded session whose effects are applied among the writes of
others. -/
structure Interleaved (machine : Machine) (env : StepEnv) (state : State) (schedule : List StoreAction)
    (final : Session) : Prop where
  stepped : Exists fun result => Exists fun last => step machine env state = .ok (some result, last) ∧
    schedule.filterMap StoreAction.effect? = result.effects
  performed : performAll schedule state.session = .ok final

/-- A message was written at some place of a schedule. -/
def WrittenAt (schedule front : List StoreAction) (message : Message) (back : List StoreAction) : Prop :=
  schedule = front ++ .write message :: back

/-- The id of a written message is its own: nothing later puts it into the store. -/
def WritesFresh (schedule : List StoreAction) : Prop :=
  schedule.Pairwise fun earlier later =>
    forall message, earlier = .write message -> message.id ∉ later.introduces

theorem WritesFresh.unused {schedule front back : List StoreAction} {message : Message}
    (fresh : WritesFresh schedule) (written : WrittenAt schedule front message back) {action : StoreAction}
    (member : action ∈ back) : message.id ∉ action.introduces := by
  unfold WritesFresh at fresh
  rw [written] at fresh
  have behind := (List.pairwise_append.mp fresh).2.1
  exact (List.pairwise_cons.mp behind).1 action member message rfl

/-- The ids in the store. -/
def storedIds (session : Session) : List (Option String) :=
  session.rows.map Message.id

/-! ## What one action does to the ids -/

theorem patchFirstRow_ids (messageId toolCallId : String) (patch : Json) (rows : List Message) :
    (patchFirstRow messageId toolCallId patch rows).map Message.id = rows.map Message.id := by
  induction rows with
  | nil => rfl
  | cons row rest ih =>
      unfold patchFirstRow
      split
      · rfl
      · rw [List.map_cons, List.map_cons, ih]

theorem updateToolRequestMeta_ids (rows : List Message) (toolCallId : String) (patch : Json) :
    (updateToolRequestMeta rows toolCallId patch).map Message.id = rows.map Message.id := by
  unfold updateToolRequestMeta
  split
  · rfl
  · split
    · rfl
    · exact patchFirstRow_ids _ _ _ _

theorem updateMessageMetadata_ids {rows updated : List Message} {messageId : String}
    {update : MessageMetadata -> MessageMetadata}
    (succeeded : updateMessageMetadata rows messageId update = .ok updated) :
    updated.map Message.id = rows.map Message.id := by
  unfold updateMessageMetadata at succeeded
  split at succeeded
  · contradiction
  · cases succeeded
    rw [List.map_map]
    apply List.map_congr_left
    intro row _
    simp only [Function.comp_apply]
    split <;> rfl

theorem storedIds_perform {action : StoreAction} {session next : Session} (keeps : ¬ action.Replaces)
    (performed : action.perform session = .ok next) :
    storedIds next = storedIds session ++ action.introduces := by
  cases action with
  | write message =>
      cases performed
      simp [storedIds, addMessage, StoreAction.introduces]
  | effect effect =>
      unfold StoreAction.perform at performed
      cases effect with
      | replaceConversation messages => exact absurd trivial keeps
      | setRecipe recipe =>
          cases performed
          exact (List.append_nil _).symm
      | setExtensionData data =>
          cases performed
          exact (List.append_nil _).symm
      | recordUsage =>
          cases performed
          exact (List.append_nil _).symm
      | conversation effect =>
          cases effect with
          | appendMessage message =>
              cases performed
              simp [storedIds, addMessage, StoreAction.introduces]
          | replaceConversation messages => exact absurd trivial keeps
          | patchToolRequestMeta toolCallId patch =>
              cases performed
              simp [storedIds, updateToolRequestMeta_ids, StoreAction.introduces]
          | setMessageVisibility messageId userVisible agentVisible =>
              rcases (bind_eq_ok_iff _ _ _).mp performed with ⟨rows, updated, returned⟩
              cases (pure_eq_ok_iff _ _).mp returned
              simp [storedIds, updateMessageMetadata_ids updated, StoreAction.introduces]

theorem storedIds_replace {action : StoreAction} {session next : Session} (replaces : action.Replaces)
    (performed : action.perform session = .ok next) : storedIds next = action.introduces := by
  cases action with
  | write message => contradiction
  | effect effect =>
      cases effect with
      | replaceConversation messages =>
          cases performed
          rfl
      | conversation effect =>
          cases effect with
          | replaceConversation messages =>
              cases performed
              rfl
          | _ => contradiction
      | _ => contradiction

/-! ## What a schedule does to a message -/

theorem storedIds_absent {id : Option String} {actions : List StoreAction} {session final : Session}
    (unused : forall action, action ∈ actions -> id ∉ action.introduces) (absent : id ∉ storedIds session)
    (performed : performAll actions session = .ok final) : id ∉ storedIds final := by
  induction actions generalizing session with
  | nil =>
      cases performed
      exact absent
  | cons action rest ih =>
      rcases (run_cons_eq_ok_iff action rest session final).mp performed with ⟨next, first, onwards⟩
      have unusedHere := unused action (List.mem_cons_self ..)
      apply ih (fun later member => unused later (List.mem_cons_of_mem action member)) _ onwards
      by_cases replaces : action.Replaces
      · rwa [storedIds_replace replaces first]
      · rw [storedIds_perform replaces first]
        simp [absent, unusedHere]

theorem mem_storedIds_iff {id : Option String} {actions : List StoreAction} {session final : Session}
    (unused : forall action, action ∈ actions -> id ∉ action.introduces) (stored : id ∈ storedIds session)
    (performed : performAll actions session = .ok final) :
    id ∈ storedIds final ↔ forall action, action ∈ actions -> ¬ action.Replaces := by
  induction actions generalizing session with
  | nil =>
      cases performed
      simp [stored]
  | cons action rest ih =>
      rcases (run_cons_eq_ok_iff action rest session final).mp performed with ⟨next, first, onwards⟩
      have unusedHere := unused action (List.mem_cons_self ..)
      have unusedLater : forall later, later ∈ rest -> id ∉ later.introduces :=
        fun later member => unused later (List.mem_cons_of_mem action member)
      rw [List.forall_mem_cons]
      by_cases replaces : action.Replaces
      · have gone : id ∉ storedIds next := by rwa [storedIds_replace replaces first]
        simp [storedIds_absent unusedLater gone onwards, replaces]
      · have kept : id ∈ storedIds next := by
          rw [storedIds_perform replaces first]
          exact List.mem_append_left _ stored
        rw [ih unusedLater kept onwards]
        simp [replaces]

/-- When the effects of a step are applied among the writes of others, every
message that was written after the session had been loaded is in the store
afterwards exactly when the conversation was not replaced after a write. -/
theorem interleaved_keepsWrites_iff {machine : Machine} {env : StepEnv} {state : State}
    {schedule : List StoreAction} {final : Session}
    (interleaved : Interleaved machine env state schedule final) (fresh : WritesFresh schedule) :
    (forall front message back, WrittenAt schedule front message back -> message.id ∈ storedIds final) ↔
      forall front message back, WrittenAt schedule front message back ->
        forall action, action ∈ back -> ¬ action.Replaces := by
  have each : forall front message back, WrittenAt schedule front message back ->
      (message.id ∈ storedIds final ↔ forall action, action ∈ back -> ¬ action.Replaces) := by
    intro front message back written
    have performed := interleaved.performed
    unfold performAll at performed
    rw [written, run_append_eq_ok_iff] at performed
    rcases performed with ⟨middle, _, onwards⟩
    rcases (run_cons_eq_ok_iff _ _ _ _).mp onwards with ⟨next, first, rest⟩
    cases first
    apply mem_storedIds_iff (fun action member => fresh.unused written member) _ rest
    simp [storedIds, addMessage]
  constructor
  · intro kept front message back written
    exact (each front message back written).mp (kept front message back written)
  · intro apart front message back written
    exact (each front message back written).mpr (apart front message back written)

/-! ## A decision that is lost -/

namespace InterleavingExample

def request (id : String) : ToolRequest :=
  ⟨id, .ok ⟨"t", none⟩, none, some (.object [(toolExecutableKey, .bool false)])⟩

def asks (id : String) : Message :=
  ((Message.assistant 0).withContent (.actionRequired (.toolConfirmation id "t" [] none))).userOnly.withId ("c" ++ id)

/-- Two calls await confirmation and the first one has just been confirmed. -/
def halfConfirmed : State :=
  ⟨⟨.approve, none, none⟩, ⟨"s", [Message.withId ((Message.user 0).withContent (.plainText "hi")) "k",
    (((Message.assistant 0).withContent (.toolRequest (request "1"))).withContent
      (.toolRequest (request "2"))).withId "a",
    asks "1", asks "2", decisionMessage 0 "d1" "1" .allowOnce], none, .approve, .null⟩⟩

/-- A step that finds the conversation too long. -/
def crowded : StepEnv :=
  { StepEnv.still with overThreshold := true }

/-- The decision about the second call. -/
def secondDecision : StoreAction :=
  .write (decisionMessage 0 "d2" "2" .allowOnce)

/-- What the step on that state does to the store. -/
def compaction : List StoreAction :=
  ((((step Machine.plain crowded halfConfirmed).toOption.bind Prod.fst).map StepResult.effects).getD []).map
    StoreAction.effect

end InterleavingExample

/-- A decision that is accepted while the conversation is compacted is gone
afterwards. -/
theorem interleaved_losesDecision :
    (persistToolConfirmationDecision InterleavingExample.halfConfirmed.session 0 "d2" "2" .allowOnce).isOk = true ∧
      Exists fun final =>
        Interleaved Machine.plain InterleavingExample.crowded InterleavingExample.halfConfirmed
            (InterleavingExample.secondDecision :: InterleavingExample.compaction) final ∧
          WritesFresh (InterleavingExample.secondDecision :: InterleavingExample.compaction) ∧
            some "d2" ∉ storedIds final := by
  refine ⟨by decide, _, ⟨⟨_, _, rfl, rfl⟩, rfl⟩, ?_, by decide⟩
  apply List.pairwise_cons.mpr
  refine ⟨fun later member message same => ?_, List.pairwise_singleton _ _⟩
  cases same
  rw [List.mem_singleton.mp member]
  decide

/-- A decision behind the compaction stays. -/
theorem interleaved_keepsWrites_iff_afterwards :
    Exists fun final =>
      Interleaved Machine.plain InterleavingExample.crowded InterleavingExample.halfConfirmed
          (InterleavingExample.compaction ++ [InterleavingExample.secondDecision]) final ∧
        some "d2" ∈ storedIds final := by
  have interleaved : Exists fun final =>
      Interleaved Machine.plain InterleavingExample.crowded InterleavingExample.halfConfirmed
        (InterleavingExample.compaction ++ [InterleavingExample.secondDecision]) final :=
    ⟨_, ⟨_, _, rfl, rfl⟩, rfl⟩
  rcases interleaved with ⟨final, interleaved⟩
  have effects : forall action, action ∈ InterleavingExample.compaction -> forall message,
      action ≠ .write message := by
    intro action member message same
    rcases List.mem_map.mp member with ⟨item, _, isEffect⟩
    rw [same] at isEffect
    contradiction
  have fresh : WritesFresh (InterleavingExample.compaction ++ [InterleavingExample.secondDecision]) := by
    refine List.pairwise_append.mpr ⟨List.pairwise_singleton _ _, List.pairwise_singleton _ _, ?_⟩
    intro earlier member later _ message same
    exact absurd same (effects earlier member message)
  refine ⟨final, interleaved, (interleaved_keepsWrites_iff interleaved fresh).mpr ?_ _ _ _ rfl⟩
  intro front message back written action member
  rcases List.eq_nil_or_concat back with rfl | ⟨between, last, rfl⟩
  · contradiction
  · have whole : InterleavingExample.compaction ++ [InterleavingExample.secondDecision] =
        (front ++ .write message :: between) ++ [last] := by
      simpa [WrittenAt] using written
    have inside : StoreAction.write message ∈ InterleavingExample.compaction := by
      rw [(List.append_inj' whole rfl).1]
      simp
    exact absurd rfl (effects _ inside message)

end AIBuddy
