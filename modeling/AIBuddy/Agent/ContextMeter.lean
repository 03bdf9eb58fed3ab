import Mathlib.Algebra.GroupWithZero.Nat
import AIBuddy.Agent.Replacements

namespace AIBuddy

open Runs

/-!
# When compactions repeat

A compaction is triggered by a count of tokens: the last one that the provider
reported, or an estimate that is stored whenever the conversation is replaced.
The compaction itself stores the estimate of what it leaves, so it is triggered
again when that is still too much.
-/

/-! ## Counting tokens -/

/-- The counter of tokens, and how arguments are printed for it. -/
structure TokenCounter where
  countTokens : String -> Nat
  debugArguments : Option JsonObject -> String

/-- The texts of a tool result, one to a line. -/
def asToolResponseText (result : CallToolResult) : Option String :=
  let texts := result.content.filterMap fun content =>
    match content with
    | .text content => some content.text
    | _ => none
  if texts.isEmpty then none else some ("\n".intercalate texts)

def countBlockTokens (counter : TokenCounter) : MessageContentBlock -> Nat
  | .text content => counter.countTokens content.text
  | .toolRequest request =>
      match request.toolCall with
      | .ok toolCall =>
          counter.countTokens (request.id ++ ":" ++ toolCall.name ++ ":" ++ counter.debugArguments toolCall.arguments)
      | .error _ => 0
  | .toolResponse response =>
      match response.toolResult with
      | .ok result => ((asToolResponseText result).map counter.countTokens).getD 0
      | .error _ => 0
  | _ => 0

def tokensPerMessage : Nat := 4
def replyPrimerTokens : Nat := 3

/-- The tokens of a conversation made of one message. -/
def countChatTokens (counter : TokenCounter) (message : Message) : Nat :=
  (if message.isAgentVisible then tokensPerMessage + (message.content.map (countBlockTokens counter)).sum else 0) +
    replyPrimerTokens

/-- The estimate of the tokens that the agent sees.  It is stored in 32 bits; more
than two billion tokens, for which that fails, are left out. -/
def countContextTokens (counter : TokenCounter) (messages : List Message) : Nat :=
  ((messages.filter Message.isAgentVisible).map (countChatTokens counter)).sum

/-- The counter, and which counts exceed the share of the context that triggers a
compaction. -/
structure ContextMeter where
  counter : TokenCounter
  overThreshold : Nat -> Bool

/-- A state with the tokens that are stored for its session. -/
structure Metered where
  state : State
  totalTokens : Option Int

namespace ContextMeter

variable (meter : ContextMeter)

def contextTokens (metered : Metered) : Int :=
  metered.totalTokens.getD (countContextTokens meter.counter metered.state.session.conversation)

/-- Whether a count of tokens triggers a compaction. -/
def triggers (tokens : Int) : Bool :=
  decide (0 < tokens) && meter.overThreshold tokens.toNat

/-- A step whose compaction looks at the stored tokens. -/
def metered (metered : Metered) (env : StepEnv) : StepEnv :=
  { env with overThreshold := meter.triggers (meter.contextTokens metered) }

/-- The tokens that are stored behind an effect, when the provider has reported
the given count. -/
def recordTokens (reported total : Option Int) (effect : AIBuddyEffect) : Option Int :=
  match effect.replacement? with
  | some messages => some (countContextTokens meter.counter messages)
  | none => if effect = .recordUsage then reported else total

/-- A step of the machine, and what it stores. -/
def advance (machine : Machine) (env : StepEnv) (reported : Option Int) (metered : Metered) :
    Except String (Option StepResult × Metered) :=
  (AIBuddy.advance machine (meter.metered metered env) metered.state).map fun outcome =>
    (outcome.1, ⟨outcome.2, ((outcome.1.map StepResult.effects).getD []).foldl (meter.recordTokens reported)
      metered.totalTokens⟩)

end ContextMeter

/-- An event, with the tokens that the provider reports if it is asked. -/
structure MeteredEvent where
  event : Event
  reported : Option Int

namespace ContextMeter

variable (meter : ContextMeter)

/-- The state after an event.  Only steps store counts of tokens. -/
def occur (machine : Machine) (entry : MeteredEvent) (metered : Metered) : Except String Metered :=
  match entry.event with
  | .step env => (meter.advance machine env entry.reported metered).map Prod.snd
  | event => (AIBuddy.occur machine event metered.state).map fun state => { metered with state := state }

def run (machine : Machine) : List MeteredEvent -> Metered -> Except String Metered :=
  Runs.run (meter.occur machine)

/-- Whether a condition holds before every step of a run, as the step is taken. -/
def AlongSteps (machine : Machine) (condition : Metered -> StepEnv -> Prop) : List MeteredEvent -> Metered -> Prop :=
  Runs.Along (meter.occur machine) fun metered entry =>
    match entry.event with
    | .step env => condition metered (meter.metered metered env)
    | _ => True

end ContextMeter

/-- A step that compacted because of the threshold. -/
structure Proactive (state : State) (result : StepResult) : Prop where
  compaction : result.appliedStep = some .compaction
  notReactive : trailingError state.session.conversation ≠ some .contextLengthExceeded
  replaced : result.effects ≠ []

/-- The provider is asked somewhere in a run. -/
def Infers (meter : ContextMeter) (machine : Machine) (entries : List MeteredEvent) (start : Metered) : Prop :=
  Exists fun front => Exists fun env => Exists fun reported => Exists fun back => Exists fun metered =>
    Exists fun result => Exists fun next =>
      entries = front ++ ⟨.step env, reported⟩ :: back ∧ meter.run machine front start = .ok metered ∧
        meter.advance machine env reported metered = .ok (some result, next) ∧ result.askedProvider = true

/-! ## What a replacement leaves -/

/-- What the agent sees of a compacted conversation. -/
def keptForAgent (machine : Machine) (env : StepEnv) (messages : List Message) (manualCompact : Bool) :
    List Message :=
  match env.summary with
  | .error _ => []
  | .ok summary =>
      [summaryMessage summary, continuationMessage machine env (continuationText env.now messages manualCompact)] ++
        ((preservedPrompt env.now messages manualCompact).toList ++
          (carriedContext machine env messages manualCompact summary).toList)

/-- What the agent sees of the conversation behind an operation that replaces it:
the summary, the continuation, the last prompt and its context; nothing; or the
conversation up to the prompt of the turn. -/
def leftForAgent (machine : Machine) (env : StepEnv) (conversation : List Message) : OperationName -> List Message
  | .compaction => keptForAgent machine env (compactedInput conversation) false
  | .slashCommand =>
      if turnCommand conversation = some "compact" then keptForAgent machine env conversation true else []
  | .retry =>
      match turn? conversation with
      | none => []
      | some turn => conversation.take (conversation.length - turn.length) ++ turn.take 1
  | _ => []

theorem countChatTokens_eq (counter : TokenCounter) {message other : Message}
    (visible : message.isAgentVisible = other.isAgentVisible) (content : message.content = other.content) :
    countChatTokens counter message = countChatTokens counter other := by
  unfold countChatTokens
  rw [visible, content]

theorem countContextTokens_forall₂ (counter : TokenCounter) {messages others : List Message}
    (pairs : List.Forall₂ (fun message other => message.isAgentVisible = other.isAgentVisible ∧
      message.content = other.content) messages others) :
    countContextTokens counter messages = countContextTokens counter others := by
  unfold countContextTokens
  induction pairs with
  | nil => rfl
  | cons same rest ih =>
      rw [List.filter_cons, List.filter_cons, same.1]
      split
      · rw [List.map_cons, List.map_cons, List.sum_cons, List.sum_cons, ih,
          countChatTokens_eq counter same.1 same.2]
      · exact ih

theorem countContextTokens_identified (counter : TokenCounter) (replacedId : Nat -> String) (messages : List Message) :
    countContextTokens counter (identified replacedId messages) = countContextTokens counter messages := by
  symm
  apply countContextTokens_forall₂
  refine (identified_forall₂ replacedId messages).imp fun message stored same => ?_
  rcases same with ⟨given, rfl⟩
  exact ⟨rfl, rfl⟩

theorem countContextTokens_of_seen (counter : TokenCounter) {messages seen : List Message}
    (same : messages.filter Message.isAgentVisible = seen) :
    countContextTokens counter messages = countContextTokens counter seen := by
  unfold countContextTokens
  rw [← same, List.filter_filter]
  simp only [Bool.and_self]

theorem countContextTokens_compacted (counter : TokenCounter) {machine : Machine} {env : StepEnv}
    {messages compacted : List Message} {manualCompact : Bool}
    (succeeded : compactMessages machine env messages manualCompact = .ok compacted) :
    countContextTokens counter compacted =
      countContextTokens counter (keptForAgent machine env messages manualCompact) := by
  rcases (compactMessages_eq_ok_iff machine env messages manualCompact compacted).mp succeeded with
    ⟨summary, summarized, same⟩
  have kept : keptForAgent machine env messages manualCompact = summaryMessage summary ::
      continuationMessage machine env (continuationText env.now messages manualCompact) ::
        ((preservedPrompt env.now messages manualCompact).toList ++
          (carriedContext machine env messages manualCompact summary).toList) := by
    unfold keptForAgent
    rw [summarized]
    rfl
  have hidden : (messages.map hiddenFromAgent).filter Message.isAgentVisible = [] := by
    apply List.filter_eq_nil_iff.mpr
    intro message member
    rcases List.mem_map.mp member with ⟨original, _, rfl⟩
    exact Bool.false_ne_true
  have visible : (keptForAgent machine env messages manualCompact).filter Message.isAgentVisible =
      keptForAgent machine env messages manualCompact := by
    apply List.filter_eq_self.mpr
    intro message member
    rw [kept] at member
    rcases List.mem_cons.mp member with rfl | later
    · rfl
    rcases List.mem_cons.mp later with rfl | preserved
    · rfl
    · exact (retains_preserved machine env messages manualCompact summary).visible preserved
  have whole : compacted = messages.map hiddenFromAgent ++ keptForAgent machine env messages manualCompact := by
    rw [same, kept]
    simp [compactedBase]
  apply countContextTokens_of_seen
  rw [whole, List.filter_append, hidden, visible, List.nil_append]

theorem countContextTokens_reset (counter : TokenCounter) (conversation turn : List Message) (attempts : Nat) :
    countContextTokens counter (resetConversation conversation turn attempts) =
      countContextTokens counter (conversation.take (conversation.length - turn.length) ++ turn.take 1) := by
  apply countContextTokens_forall₂
  unfold resetConversation
  apply List.rel_append
  · exact List.forall₂_same.mpr fun message _ => ⟨rfl, rfl⟩
  · cases turn with
    | nil => exact .nil
    | cons prompt rest => exact .cons ⟨rfl, rfl⟩ .nil

theorem countContextTokens_replaced (counter : TokenCounter) {machine : Machine} {env : StepEnv}
    {conversation messages : List Message} {name : OperationName}
    (replaces : ReplacesWith machine env conversation name messages) :
    countContextTokens counter (identified env.replacedId messages) =
      countContextTokens counter (leftForAgent machine env conversation name) := by
  rw [countContextTokens_identified]
  cases replaces with
  | compaction _ succeeded => exact countContextTokens_compacted counter succeeded
  | clear command =>
      simp only [leftForAgent, command, Option.some.injEq, String.reduceEq, if_false]
  | compact command _ succeeded =>
      simp only [leftForAgent, command, if_true]
      exact countContextTokens_compacted counter succeeded
  | retry turn found =>
      simp only [leftForAgent, found]
      exact countContextTokens_reset counter conversation turn _

/-! ## Between two compactions -/

/-- A compaction leaves less than what triggers one, and so does whatever replaces
a conversation that does not trigger one. -/
def ContextMeter.leavesRoom (meter : ContextMeter) (machine : Machine) (metered : Metered) (env : StepEnv) : Bool :=
  match step machine env metered.state with
  | .ok (some result, _) =>
      !(result.replaces && (result.appliedStep == some .compaction || !meter.triggers (meter.contextTokens metered))) ||
        !meter.triggers (countContextTokens meter.counter
          ((result.appliedStep.map (leftForAgent machine env metered.state.session.conversation)).getD []))
  | _ => true

/-- The stored tokens do not trigger a compaction. -/
def ContextMeter.Quiet (meter : ContextMeter) (metered : Metered) : Prop :=
  Exists fun tokens => metered.totalTokens = some tokens ∧ meter.triggers tokens = false

namespace ContextMeter

variable {meter : ContextMeter} {machine : Machine}

theorem Quiet.contextTokens {metered : Metered} (quiet : meter.Quiet metered) :
    meter.triggers (meter.contextTokens metered) = false := by
  rcases quiet with ⟨tokens, stored, untriggered⟩
  unfold ContextMeter.contextTokens
  rw [stored]
  exact untriggered

theorem recordTokens_quiet {reported total : Option Int} {effects : List AIBuddyEffect}
    (roomy : forall effect, effect ∈ effects -> effect.isLocal = true ∨
      Exists fun messages => effect.replacement? = some messages ∧
        meter.triggers (countContextTokens meter.counter messages) = false)
    (quiet : Exists fun tokens => total = some tokens ∧ meter.triggers tokens = false) :
    Exists fun tokens => effects.foldl (meter.recordTokens reported) total = some tokens ∧
      meter.triggers tokens = false := by
  induction effects generalizing total with
  | nil => exact quiet
  | cons effect rest ih =>
      rw [List.foldl_cons]
      apply ih fun later member => roomy later (List.mem_cons_of_mem effect member)
      rcases roomy effect (List.mem_cons_self ..) with isLocal | ⟨messages, replaced, room⟩
      · have notReplaced := AIBuddyEffect.replacement?_of_isLocal isLocal
        have notReport : effect ≠ .recordUsage := by
          rintro rfl
          contradiction
        unfold recordTokens
        rw [notReplaced]
        simp only [notReport, if_false]
        exact quiet
      · unfold recordTokens
        rw [replaced]
        exact ⟨_, rfl, room⟩

private theorem compactionRun_replaces {env : StepEnv} {conversation : List Message} {outcome : StepResult}
    (ran : compactionRun machine env conversation = .ok (.applied outcome)) {effect : AIBuddyEffect}
    (member : effect ∈ outcome.effects) : effect.replacement?.isSome = true := by
  unfold compactionRun at ran
  split at ran
  · cases ran
  · rcases (bind_eq_ok_iff _ _ _).mp ran with ⟨messages, _, ran⟩
    rcases (bind_eq_ok_iff _ _ _).mp ran with ⟨due, _, ran⟩
    have returned := (pure_eq_ok_iff _ _).mp ran
    split at returned
    · contradiction
    · split at returned
      · cases returned
        rw [List.mem_singleton.mp member]
        rfl
      · cases returned
        contradiction

private theorem compactionRun_triggered {env : StepEnv} {conversation : List Message} {outcome : StepResult}
    (ran : compactionRun machine env conversation = .ok (.applied outcome))
    (notReactive : trailingError conversation ≠ some .contextLengthExceeded) : env.overThreshold = true := by
  unfold compactionRun at ran
  split at ran
  · cases ran
  · rcases (bind_eq_ok_iff _ _ _).mp ran with ⟨messages, _, ran⟩
    rcases (bind_eq_ok_iff _ _ _).mp ran with ⟨due, isDue, ran⟩
    have returned := (pure_eq_ok_iff _ _).mp ran
    unfold compactionDue at isDue
    rw [if_neg notReactive] at isDue
    rcases (map_eq_ok_iff _ _ _).mp isDue with ⟨role, _, rfl⟩
    cases exceeded : env.overThreshold with
    | true => rfl
    | false =>
        rw [exceeded, Bool.and_false] at returned
        contradiction

theorem Proactive.ran {env : StepEnv} {state : State} {result : StepResult} {last : Agent}
    (proactive : Proactive state result) (stepped : step machine env state = .ok (some result, last)) :
    Exists fun outcome => compactionRun machine env state.session.conversation = .ok (.applied outcome) ∧
      result = finishResult env .compaction (env.cancelledIn .compaction) outcome ∧
        result.askedProvider = false := by
  rcases step_applied stepped with ⟨name, before, after, flag, agent, applied⟩
  cases applied.name_eq proactive.compaction
  rcases applied.ran (by decide) with ⟨_, outcome, ran, finished⟩
  have offline : result.askedProvider = false := by
    rw [finished]
    exact runOperation_offline (by decide) _ ran
  rcases (map_eq_ok_iff _ _ _).mp ran with ⟨plain, isPlain, same⟩
  cases same
  exact ⟨outcome, isPlain, finished, offline⟩

/-- While the stored tokens do not trigger a compaction, none is triggered. -/
theorem Quiet.not_proactive {metered : Metered} {env : StepEnv} {result : StepResult} {last : Agent}
    (quiet : meter.Quiet metered)
    (stepped : step machine (meter.metered metered env) metered.state = .ok (some result, last)) :
    ¬ Proactive metered.state result := by
  intro proactive
  rcases Proactive.ran proactive stepped with ⟨outcome, ran, _⟩
  have triggered := compactionRun_triggered ran proactive.notReactive
  exact Bool.false_ne_true (quiet.contextTokens.symm.trans triggered)

theorem roomy_effects {metered : Metered} {env : StepEnv} {result : StepResult} {last : Agent}
    (stepped : step machine env metered.state = .ok (some result, last))
    (offline : result.askedProvider = false) (roomy : meter.leavesRoom machine metered env = true)
    (due : result.appliedStep = some .compaction ∨ meter.Quiet metered) {effect : AIBuddyEffect}
    (member : effect ∈ result.effects) :
    effect.isLocal = true ∨ Exists fun messages => effect.replacement? = some messages ∧
      meter.triggers (countContextTokens meter.counter messages) = false := by
  cases step_effects stepped with
  | infers asked =>
      rw [offline] at asked
      contradiction
  | offline _ name applied effects =>
      rcases effects.cases_mem member with isLocal | ⟨messages, replacement, original, allowed, rfl⟩
      · exact Or.inl isLocal
      refine Or.inr ⟨_, replacement, ?_⟩
      rw [countContextTokens_replaced meter.counter allowed]
      have replaces : result.replaces = true := by
        apply List.any_eq_true.mpr
        exact ⟨effect, member, by rw [replacement]; rfl⟩
      have demanded : (result.appliedStep == some .compaction || !meter.triggers (meter.contextTokens metered)) =
          true := by
        rcases due with compaction | quiet
        · rw [compaction]
          rfl
        · rw [quiet.contextTokens]
          exact Bool.or_true _
      unfold ContextMeter.leavesRoom at roomy
      simp only [stepped] at roomy
      rw [replaces, demanded, applied] at roomy
      simpa using roomy

theorem advance_eq_some_iff {metered next : Metered} {env : StepEnv} {reported : Option Int} {result : StepResult} :
    meter.advance machine env reported metered = .ok (some result, next) ↔
      AIBuddy.advance machine (meter.metered metered env) metered.state = .ok (some result, next.state) ∧
        next.totalTokens = result.effects.foldl (meter.recordTokens reported) metered.totalTokens := by
  unfold ContextMeter.advance
  rw [map_eq_ok_iff]
  constructor
  · rintro ⟨⟨outcome, state⟩, advanced, same⟩
    cases same
    exact ⟨advanced, rfl⟩
  · rintro ⟨advanced, tokens⟩
    refine ⟨_, advanced, ?_⟩
    rw [Prod.mk.injEq]
    refine ⟨rfl, ?_⟩
    cases next
    simp only [Metered.mk.injEq, true_and]
    exact tokens.symm

theorem Quiet.advance {metered next : Metered} {env : StepEnv} {reported : Option Int} {result : StepResult}
    (quiet : meter.Quiet metered) (advanced : meter.advance machine env reported metered = .ok (some result, next))
    (offline : result.askedProvider = false)
    (roomy : meter.leavesRoom machine metered (meter.metered metered env) = true) : meter.Quiet next := by
  rcases advance_eq_some_iff.mp advanced with ⟨moved, tokens⟩
  have stepped := ((advance_eq_ok_iff _ _ _ _ _).mp moved).1
  unfold Quiet
  rw [tokens]
  apply recordTokens_quiet _ quiet
  intro effect member
  exact roomy_effects stepped offline roomy (Or.inr quiet) member

theorem Proactive.quiet {metered next : Metered} {env : StepEnv} {reported : Option Int} {result : StepResult}
    (proactive : Proactive metered.state result)
    (advanced : meter.advance machine env reported metered = .ok (some result, next))
    (roomy : meter.leavesRoom machine metered (meter.metered metered env) = true) : meter.Quiet next := by
  rcases advance_eq_some_iff.mp advanced with ⟨moved, tokens⟩
  have stepped := ((advance_eq_ok_iff _ _ _ _ _).mp moved).1
  rcases Proactive.ran proactive stepped with ⟨outcome, ran, finished, offline⟩
  have room : forall effect, effect ∈ result.effects -> effect.isLocal = true ∨
      Exists fun messages => effect.replacement? = some messages ∧
        meter.triggers (countContextTokens meter.counter messages) = false :=
    fun effect member => roomy_effects stepped offline roomy (Or.inl proactive.compaction) member
  unfold Quiet
  rw [tokens]
  cases effects : result.effects with
  | nil => exact absurd effects proactive.replaced
  | cons first rest =>
      rw [effects] at room
      rw [List.foldl_cons]
      apply recordTokens_quiet fun effect member => room effect (List.mem_cons_of_mem first member)
      have replaces : first.replacement?.isSome = true := by
        have member : first ∈ result.effects := by rw [effects]; exact List.mem_cons_self ..
        rw [finished] at member
        rcases finishResult_effect member with ⟨original, position, inEffects, rfl⟩
        rw [replacement?_ensureMessageIds, Option.isSome_map]
        exact compactionRun_replaces ran inEffects
      rcases room first (List.mem_cons_self ..) with isLocal | ⟨messages, replaced, untriggered⟩
      · rw [AIBuddyEffect.replacement?_of_isLocal isLocal] at replaces
        contradiction
      · unfold recordTokens
        rw [replaced]
        exact ⟨_, rfl, untriggered⟩

theorem Quiet.run {entries : List MeteredEvent} {start last : Metered} (quiet : meter.Quiet start)
    (roomy : meter.AlongSteps machine (fun metered env => meter.leavesRoom machine metered env = true) entries start)
    (offline : ¬ Infers meter machine entries start) (reached : meter.run machine entries start = .ok last) :
    meter.Quiet last := by
  induction entries generalizing start with
  | nil =>
      cases reached
      exact quiet
  | cons entry rest ih =>
      rcases (run_cons_eq_ok_iff entry rest start last).mp reached with ⟨next, moved, onwards⟩
      have offlineLater : ¬ Infers meter machine rest next := by
        rintro ⟨front, env, reported, back, metered, result, after, split, ran, advanced, asked⟩
        refine offline ⟨entry :: front, env, reported, back, metered, result, after, by rw [split]; rfl, ?_,
          advanced, asked⟩
        exact (run_cons_eq_ok_iff entry front start metered).mpr ⟨next, moved, ran⟩
      apply ih _ (roomy.2 next moved) offlineLater onwards
      rcases entry with ⟨event, reported⟩
      cases event with
      | step env =>
          rcases (map_eq_ok_iff _ _ _).mp moved with ⟨⟨result, after⟩, advanced, rfl⟩
          cases result with
          | none =>
              rcases (map_eq_ok_iff _ _ _).mp advanced with ⟨⟨outcome, state⟩, _, same⟩
              simp only [Prod.mk.injEq] at same
              rcases same with ⟨rfl, rfl⟩
              exact quiet
          | some result =>
              have notAsked : result.askedProvider = false := by
                cases asked : result.askedProvider with
                | false => rfl
                | true => exact absurd ⟨[], env, reported, rest, start, result, after, rfl, rfl, advanced, asked⟩ offline
              exact quiet.advance advanced notAsked roomy.1
      | submit message =>
          cases moved
          exact quiet
      | decide now messageId requestId permission =>
          rcases (map_eq_ok_iff _ _ _).mp moved with ⟨state, _, rfl⟩
          exact quiet
      | setMode agentMode sessionMode =>
          cases moved
          exact quiet

end ContextMeter

/-- In a run in which compactions leave room, and nothing else replaces a
conversation that has room by one that has not, the provider is asked between any
two compactions that the threshold triggers. -/
theorem proactive_compactions_infer_between {meter : ContextMeter} {machine : Machine}
    {front middle back : List MeteredEvent} {first second : StepEnv} {firstReport secondReport : Option Int}
    {start before after again last : Metered} {compacted compactedAgain : StepResult}
    (roomy : meter.AlongSteps machine (fun metered env => meter.leavesRoom machine metered env = true)
      (front ++ ⟨.step first, firstReport⟩ :: (middle ++ ⟨.step second, secondReport⟩ :: back)) start)
    (reached : meter.run machine front start = .ok before)
    (compacts : meter.advance machine first firstReport before = .ok (some compacted, after))
    (proactive : Proactive before.state compacted)
    (between : meter.run machine middle after = .ok again)
    (compactsAgain : meter.advance machine second secondReport again = .ok (some compactedAgain, last))
    (proactiveAgain : Proactive again.state compactedAgain) : Infers meter machine middle after := by
  by_contra offline
  have roomyHere := Along.of_append roomy reached
  have moved : meter.occur machine ⟨.step first, firstReport⟩ before = .ok after :=
    (map_eq_ok_iff _ _ _).mpr ⟨_, compacts, rfl⟩
  have quiet := ContextMeter.Proactive.quiet proactive compacts roomyHere.1
  have roomyLater := Along.left (roomyHere.2 after moved)
  have quietAgain := quiet.run roomyLater offline between
  have stepped := ((advance_eq_ok_iff _ _ _ _ _).mp (ContextMeter.advance_eq_some_iff.mp compactsAgain).1).1
  exact quietAgain.not_proactive stepped proactiveAgain

/-! ## A compaction that repeats -/

namespace MeterExample

/-- Every text has sixty tokens, and a hundred are too many. -/
def meter : ContextMeter where
  counter := ⟨fun _ => 60, fun _ => ""⟩
  overThreshold := fun tokens => decide (100 < tokens)

/-- The same with room for five hundred tokens. -/
def roomyMeter : ContextMeter :=
  { meter with overThreshold := fun tokens => decide (500 < tokens) }

def start : Metered :=
  ⟨⟨⟨.auto, none, none⟩, ⟨"s", [((Message.user 0).withContent (.plainText "hi")).withId "k"], none, .auto, .null⟩⟩,
    some 1000⟩

/-- The provider says something. -/
def answering : StepEnv :=
  { StepEnv.still with provider := { ProviderTurn.silent with
      chunks := [((Message.assistant 0).withContent (.plainText "done")).withId "a"], reportsUsage := true } }

/-- The provider answers, and the user goes on. -/
def between : List MeteredEvent :=
  [⟨.step answering, some 1000⟩, ⟨.submit (((Message.user 0).withContent (.plainText "more")).withId "l"), none⟩]

end MeterExample

/-- When what a compaction leaves is too much, the next step compacts again. -/
theorem proactive_compactions_repeat :
    Exists fun first => Exists fun second => Exists fun middle => Exists fun last =>
      MeterExample.meter.advance Machine.plain StepEnv.still none MeterExample.start = .ok (some first, middle) ∧
        Proactive MeterExample.start.state first ∧
        MeterExample.meter.advance Machine.plain StepEnv.still none middle = .ok (some second, last) ∧
          Proactive middle.state second := by
  exact ⟨_, _, _, _, rfl, ⟨rfl, by decide, List.cons_ne_nil _ _⟩, rfl, ⟨rfl, by decide, List.cons_ne_nil _ _⟩⟩

instance (meter : ContextMeter) (machine : Machine) (condition : Metered -> StepEnv -> Prop)
    [forall metered env, Decidable (condition metered env)] (entries : List MeteredEvent) (start : Metered) :
    Decidable (meter.AlongSteps machine condition entries start) :=
  have (metered : Metered) (entry : MeteredEvent) : Decidable (match entry.event with
      | .step env => condition metered (meter.metered metered env)
      | _ => True) :=
    match entry.event with
    | .step env => inferInstanceAs (Decidable (condition metered (meter.metered metered env)))
    | .submit _ | .decide _ _ _ _ | .setMode _ _ => inferInstanceAs (Decidable True)
  Runs.decidableAlong _ entries start

/-- When a compaction leaves room, the provider is asked before the next one. -/
theorem proactive_compactions_infer_between_answer :
    Exists fun after => Infers MeterExample.roomyMeter Machine.plain MeterExample.between after := by
  have run : Exists fun first => Exists fun after => Exists fun again => Exists fun second => Exists fun last =>
      MeterExample.roomyMeter.advance Machine.plain StepEnv.still none MeterExample.start =
          .ok (some first, after) ∧
        Proactive MeterExample.start.state first ∧
        MeterExample.roomyMeter.run Machine.plain MeterExample.between after = .ok again ∧
        MeterExample.roomyMeter.advance Machine.plain StepEnv.still none again = .ok (some second, last) ∧
          Proactive again.state second :=
    ⟨_, _, _, _, _, rfl, ⟨rfl, by decide, List.cons_ne_nil _ _⟩, rfl, rfl, ⟨rfl, by decide, List.cons_ne_nil _ _⟩⟩
  rcases run with ⟨first, after, again, second, last, compacts, proactive, between, compactsAgain, proactiveAgain⟩
  have roomy : MeterExample.roomyMeter.AlongSteps Machine.plain
      (fun metered env => MeterExample.roomyMeter.leavesRoom Machine.plain metered env = true)
      ([] ++ ⟨.step StepEnv.still, none⟩ :: (MeterExample.between ++ ⟨.step StepEnv.still, none⟩ :: []))
      MeterExample.start := by decide
  exact ⟨after, proactive_compactions_infer_between roomy rfl compacts proactive between compactsAgain proactiveAgain⟩

end AIBuddy
