import AIBuddy.Agent.FinalTurn
import AIBuddy.Agent.TurnBudget
import AIBuddy.Agent.TurnGrowth
import AIBuddy.Agent.Visibility

namespace AIBuddy

open LastSuffix
open Runs

/-!
# Conversations that stay too long

Behind an error about its length the conversation is compacted, at most a fixed number of times in
a turn.  The errors are counted where they stand: in the conversation that every compaction
rewrites.
-/

/-! ## The errors of a turn -/

/-- An error about the length of the conversation that only the user sees. -/
def isHiddenContextError (message : Message) : Bool :=
  message.errorKind == some .contextLengthExceeded && !message.isAgentVisible

/-- The errors that the turn has answered. -/
def answeredErrors (turn : List Message) : Nat :=
  turn.dropLast.countP isHiddenContextError

/-- The turn of a conversation, if it has one, has answered a number of errors. -/
def Answers (conversation : List Message) (reactive : Nat) : Prop :=
  forall turn, turn? conversation = some turn -> reactive ≤ answeredErrors turn

theorem sublist_dropLast {α : Type*} {items others : List α} (sublist : items.Sublist others) :
    items.dropLast.Sublist others.dropLast := by
  rw [← List.reverse_sublist, ← List.tail_reverse, ← List.tail_reverse]
  exact (List.reverse_sublist.mpr sublist).tail

theorem countP_le_answeredErrors_append {turn extra : List Message} (some : extra ≠ []) :
    turn.countP isHiddenContextError ≤ answeredErrors (turn ++ extra) := by
  unfold answeredErrors
  rw [List.dropLast_append_of_ne_nil some, List.countP_append]
  exact Nat.le_add_right _ _

theorem answeredErrors_le (turn : List Message) : answeredErrors turn ≤ turn.countP isHiddenContextError :=
  (List.dropLast_sublist turn).countP_le

theorem answeredErrors_concat {turn : List Message} {last : Message} (ends : turn.getLast? = some last)
    (isError : isHiddenContextError last = true) : answeredErrors turn + 1 = turn.countP isHiddenContextError := by
  rcases List.eq_nil_or_concat' turn with rfl | ⟨front, other, rfl⟩
  · cases ends
  · rw [List.getLast?_concat] at ends
    cases ends
    rw [answeredErrors, List.dropLast_concat, List.countP_append, List.countP_singleton, if_pos isError]

namespace Answers

variable {conversation : List Message} {reactive : Nat}

theorem zero (conversation : List Message) : Answers conversation 0 :=
  fun _ _ => Nat.zero_le _

theorem append (answers : Answers conversation reactive) {message : Message} (joins : isKickoff message = false) :
    Answers (conversation ++ [message]) reactive := by
  intro turn found
  unfold turn? at found
  rw [suffixFromLast_concat, if_neg (Bool.eq_false_iff.mp joins)] at found
  rcases Option.map_eq_some_iff.mp found with ⟨earlier, foundEarlier, rfl⟩
  calc reactive ≤ answeredErrors earlier := answers earlier foundEarlier
    _ ≤ earlier.countP isHiddenContextError := answeredErrors_le earlier
    _ ≤ answeredErrors (earlier ++ [message]) := countP_le_answeredErrors_append (List.cons_ne_nil _ _)

theorem rewrite (answers : Answers conversation reactive) {changed : List Message}
    (pairs : List.Forall₂ (fun before after =>
      (isHiddenContextError before = true -> isHiddenContextError after = true) ∧
        (isKickoff after = true -> isKickoff before = true)) conversation changed) : Answers changed reactive := by
  intro turn found
  rcases suffixFromLast_forall₂_fewer (fun _ _ same => same.2) pairs found with
    ⟨earlier, tail, foundEarlier, same, within⟩
  have kept : forall {left right : List Message}, List.Forall₂ (fun before after =>
      (isHiddenContextError before = true -> isHiddenContextError after = true) ∧
        (isKickoff after = true -> isKickoff before = true)) left right -> answeredErrors left ≤ answeredErrors right := by
    intro left right pairs
    induction pairs with
    | nil => exact Nat.le_refl _
    | @cons before after left right head rest ih =>
        cases rest with
        | nil => exact Nat.le_refl _
        | cons second others =>
            unfold answeredErrors at ih ⊢
            rw [List.dropLast_cons_cons, List.dropLast_cons_cons, List.countP_cons, List.countP_cons]
            apply Nat.add_le_add ih
            split
            · case _ isError => rw [if_pos (head.1 isError)]
            · exact Nat.zero_le _
  calc reactive ≤ answeredErrors earlier := answers earlier foundEarlier
    _ ≤ answeredErrors tail := kept same
    _ ≤ answeredErrors turn := (sublist_dropLast within).countP_le

theorem apply {session next : Session} {effect : AIBuddyEffect} (answers : Answers session.conversation reactive)
    (stays : effect.replacement? = none)
    (hides : forall shown, effect.shown? = some shown -> shown.agentVisible = false)
    (applied : applyEffect session effect = .ok next)
    (noMore : kickoffs next.conversation ≤ kickoffs session.conversation) : Answers next.conversation reactive := by
  cases effect with
  | conversation effect =>
      cases effect with
      | appendMessage message =>
          cases applied
          unfold Session.conversation
          rw [getConversation_addMessage]
          exact answers.append (isKickoff_datedAfter noMore)
      | replaceConversation messages => contradiction
      | patchToolRequestMeta toolCallId patch =>
          cases applied
          have read := getConversation_forall₂ (fun _ _ same => PatchedRow.created_eq same)
            (updateToolRequestMeta_forall₂ session.rows toolCallId patch)
          refine answers.rewrite (read.imp fun row patched same => ⟨fun isError => ?_, fun opens => ?_⟩)
          · rcases same with rfl | rfl
            · exact isError
            · have kind : Message.errorKind { row with content := patchToolRequest toolCallId patch row.content } =
                  row.errorKind := by
                have kinds := congrArg (List.findSome? fun kind => kind) (map_patchToolRequest toolCallId patch
                  (fun block => block.asError.map ErrorContent.kind) (fun _ => rfl) row.content)
                rw [List.findSome?_map, List.findSome?_map] at kinds
                exact kinds
              unfold isHiddenContextError at isError ⊢
              rw [kind]
              exact isError
          · rw [isKickoff_patchedRow same]
            exact opens
      | setMessageVisibility messageId userVisible agentVisible =>
          rcases (bind_eq_ok_iff _ _ _).mp applied with ⟨rows, updated, returned⟩
          cases (pure_eq_ok_iff _ _).mp returned
          cases hides ⟨messageId, userVisible, agentVisible⟩ rfl
          rw [kickoffs_rows, kickoffs_rows] at noMore
          have pairs := List.Forall₂.mp (fun row other changed kept => And.intro changed kept)
            (updateMessageMetadata_forall₂ updated) (visibility_sameRow updated noMore)
          have read := getConversation_forall₂ (fun _ _ same => same.2.1.dated) pairs
          refine answers.rewrite (read.imp fun row other same => ⟨fun isError => ?_, same.2.2⟩)
          rcases same.1 with rfl | ⟨metadata, rfl⟩
          · exact isError
          · simp only [isHiddenContextError, Bool.and_eq_true] at isError ⊢
            exact ⟨isError.1, rfl⟩
  | replaceConversation messages => contradiction
  | setRecipe recipe =>
      cases applied
      exact answers
  | setExtensionData data =>
      cases applied
      exact answers
  | recordUsage =>
      cases applied
      exact answers

theorem applyEffects {session next : Session} {effects : List AIBuddyEffect}
    (answers : Answers session.conversation reactive)
    (stays : forall effect, effect ∈ effects -> effect.replacement? = none)
    (hides : forall effect, effect ∈ effects ->
      forall shown, effect.shown? = some shown -> shown.agentVisible = false)
    (applied : AIBuddy.applyEffects session effects = .ok next) (closed : opensTurn session effects = false) :
    Answers next.conversation reactive := by
  induction effects generalizing session with
  | nil =>
      cases applied
      exact answers
  | cons effect rest ih =>
      rcases (bind_eq_ok_iff _ _ _).mp applied with ⟨middle, here, onwards⟩
      simp only [opensTurn, here, Bool.or_eq_false_iff, decide_eq_false_iff_not, Nat.not_lt] at closed
      have kept := answers.apply (stays effect (List.mem_cons_self ..)) (hides effect (List.mem_cons_self ..)) here
        closed.1
      exact ih kept (fun later member => stays later (List.mem_cons_of_mem _ member))
        (fun later member => hides later (List.mem_cons_of_mem _ member)) onwards closed.2

end Answers

/-! ## Compactions -/

/-- The summary is dated after the whole conversation and not after the step. -/
def OnTime (env : StepEnv) (conversation : List Message) : Prop :=
  forall summary, env.summary = .ok summary ->
    (forall message, message ∈ conversation -> message.created ≤ summary.created) ∧ summary.created ≤ env.now

theorem answers_compacted {machine : Machine} {env : StepEnv} {session : Session} {input compacted : List Message}
    {manualCompact : Bool} {reactive : Nat} (onTime : OnTime env session.conversation)
    (hidden : input.map hiddenFromAgent = session.conversation.map hiddenFromAgent)
    (succeeded : compactMessages machine env input manualCompact = .ok compacted)
    (covered : forall turn, turn? session.conversation = some turn -> reactive ≤ turn.countP isHiddenContextError)
    (noMore : kickoffs (getConversation (identified env.replacedId compacted)) ≤ kickoffs session.conversation) :
    Answers (getConversation (identified env.replacedId compacted)) reactive := by
  have dates : input.map Message.created = session.conversation.map Message.created := by
    have same := congrArg (List.map Message.created) hidden
    rw [List.map_map, List.map_map] at same
    exact same
  have ordered : Chronological (identified env.replacedId compacted) := by
    rcases (compactMessages_eq_ok_iff machine env input manualCompact compacted).mp succeeded with
      ⟨summary, summarized, rfl⟩
    rw [chronological_identified, carriedContext, chronological_append_carried, chronological_compactedBase]
    refine ⟨?_, fun message member => ?_, (onTime summary summarized).2⟩
    · rw [chronological_iff_dates, dates, ← chronological_iff_dates]
      exact getConversation_chronological _
    · have dated := List.mem_map_of_mem (f := Message.created) member
      rw [dates] at dated
      rcases List.mem_map.mp dated with ⟨original, inConversation, same⟩
      exact same ▸ (onTime summary summarized).1 original inConversation
  rw [(getConversation_eq_self_iff _).mpr ordered] at noMore ⊢
  rcases identified_compacted succeeded env.replacedId with ⟨extra, some, stored⟩
  rw [hidden] at stored
  rw [stored] at noMore ⊢
  have closed : forall message, message ∈ extra -> isKickoff message = false := by
    have sameKickoffs := kickoffs_stored_copies env.replacedId session.conversation
    unfold kickoffs at noMore sameKickoffs
    rw [List.countP_append, sameKickoffs] at noMore
    intro message member
    exact Bool.eq_false_iff.mpr ((List.countP_eq_zero.mp (by omega)) message member)
  intro turn found
  unfold turn? at found
  rw [suffixFromLast_append closed] at found
  rcases Option.map_eq_some_iff.mp found with ⟨copied, foundCopied, rfl⟩
  have copies : List.Forall₂ (fun message copy : Message =>
      (isHiddenContextError message = true -> isHiddenContextError copy = true) ∧
        (isKickoff copy = true -> isKickoff message = true)) session.conversation
          (identified env.replacedId (session.conversation.map hiddenFromAgent)) := by
    refine (stored_copies env.replacedId session.conversation).imp fun message copy same => ?_
    rcases same with ⟨given, rfl⟩
    refine ⟨fun isError => ?_, id⟩
    simp only [isHiddenContextError, Bool.and_eq_true] at isError ⊢
    exact ⟨isError.1, rfl⟩
  rcases suffixFromLast_forall₂_fewer (fun _ _ same => same.2) copies foundCopied with
    ⟨earlier, tail, foundEarlier, same, within⟩
  have kept : earlier.countP isHiddenContextError ≤ tail.countP isHiddenContextError := by
    clear foundEarlier within
    induction same with
    | nil => exact Nat.le_refl _
    | cons head rest ih =>
        rw [List.countP_cons, List.countP_cons]
        apply Nat.add_le_add ih
        split
        · case _ isError => rw [if_pos (head.1 isError)]
        · exact Nat.zero_le _
  calc reactive ≤ earlier.countP isHiddenContextError := covered earlier foundEarlier
    _ ≤ tail.countP isHiddenContextError := kept
    _ ≤ copied.countP isHiddenContextError := within.countP_le
    _ ≤ answeredErrors (copied ++ extra) := countP_le_answeredErrors_append some

theorem ReplacesWith.answers {machine : Machine} {env : StepEnv} {session : Session} {name : OperationName}
    {messages : List Message} {reactive : Nat}
    (replaces : ReplacesWith machine env session.conversation name messages) (other : name ≠ .retry)
    (onTime : OnTime env session.conversation)
    (covered : forall turn, turn? session.conversation = some turn -> reactive ≤ turn.countP isHiddenContextError)
    (noMore : kickoffs (getConversation (identified env.replacedId messages)) ≤ kickoffs session.conversation) :
    Answers (getConversation (identified env.replacedId messages)) reactive := by
  cases replaces with
  | compaction _ succeeded =>
      exact answers_compacted onTime (map_hiddenFromAgent_compactedInput session.conversation) succeeded covered noMore
  | clear _ =>
      intro turn found
      cases found
  | compact _ _ succeeded => exact answers_compacted onTime rfl succeeded covered noMore
  | retry _ _ => exact absurd rfl other

/-! ## Steps -/

/-- A compaction behind an error about the length of the conversation. -/
def isReactive (conversation : List Message) (result : StepResult) : Bool :=
  result.appliedStep == some .compaction && result.replaces &&
    trailingError conversation == some .contextLengthExceeded

/-- An error about the length of the conversation at its end is a message of the assistant that only
the user sees, as every error of a provider is told. -/
def TrailsHidden (conversation : List Message) : Prop :=
  forall last, last ∈ conversation.getLast? -> last.errorKind = some .contextLengthExceeded ->
    last.role = .assistant ∧ last.isAgentVisible = false

theorem answeredErrors_trailing {conversation turn : List Message} (found : turn? conversation = some turn)
    (trails : trailingError conversation = some .contextLengthExceeded) (hidden : TrailsHidden conversation) :
    answeredErrors turn + 1 = turn.countP isHiddenContextError := by
  rcases Option.bind_eq_some_iff.mp trails with ⟨last, ends, isError⟩
  have same : turn.getLast? = some last := by
    rcases suffixFromLast_isSuffix found with ⟨before, whole⟩
    rw [← ends, ← whole, List.getLast?_append_of_ne_nil _ (suffixFromLast_ne_nil found)]
  apply answeredErrors_concat same
  rw [isHiddenContextError, isError, (hidden last ends isError).2]
  rfl

section Steps

variable {machine : Machine} {env : StepEnv} {state next : State} {result : StepResult} {last : Agent}

theorem contextErrors_le_of_reactive (stepped : step machine env state = .ok (some result, last))
    (reactive : isReactive state.session.conversation result = true) :
    Exists fun turn => turn? state.session.conversation = some turn ∧
      turn.countP isHiddenContextError ≤ maxContextErrorCompactions := by
  simp only [isReactive, Bool.and_eq_true, beq_iff_eq] at reactive
  rcases step_applied stepped with ⟨name, before, after, flag, agent, applied⟩
  cases applied.name_eq reactive.1.1
  rcases applied.ran (by decide) with ⟨_, outcome, ran, _⟩
  simp only [runOperation, compactionRun, map_eq_ok_iff] at ran
  rcases ran with ⟨result, ran, same⟩
  cases same
  split at ran
  · cases ran
  · rcases (bind_eq_ok_iff _ _ _).mp ran with ⟨turn, found, ran⟩
    rcases (bind_eq_ok_iff _ _ _).mp ran with ⟨due, counted, ran⟩
    refine ⟨turn, (messagesSinceKickoff_eq_ok_iff _ _).mp found, ?_⟩
    rw [compactionDue, if_pos reactive.2] at counted
    cases due with
    | false => cases ran
    | true =>
        rw [List.countP_eq_length_filter]
        exact of_decide_eq_true (Except.ok.inj counted)

theorem ReplacesFirst.answers {session stored : Session} {name : OperationName} {effects : List AIBuddyEffect}
    {reactive : Nat} (replaces : ReplacesFirst (fun messages => Exists fun original =>
      ReplacesWith machine env session.conversation name original ∧
        messages = identified env.replacedId original) effects) (other : name ≠ .retry)
    (onTime : OnTime env session.conversation)
    (covered : forall turn, turn? session.conversation = some turn -> reactive ≤ turn.countP isHiddenContextError)
    (replaced : (effects.any fun effect => effect.replacement?.isSome) = true)
    (hides : forall effect, effect ∈ effects ->
      forall shown, effect.shown? = some shown -> shown.agentVisible = false)
    (applied : AIBuddy.applyEffects session effects = .ok stored) (closed : opensTurn session effects = false) :
    Answers stored.conversation reactive := by
  cases replaces with
  | stays _ isLocal =>
      rcases List.any_eq_true.mp replaced with ⟨effect, member, isReplacement⟩
      rw [AIBuddyEffect.replacement?_of_isLocal (isLocal effect member)] at isReplacement
      contradiction
  | replacing first rest messages replacement permitted isLocal =>
      rcases permitted with ⟨original, allowed, rfl⟩
      rcases (bind_eq_ok_iff _ _ _).mp applied with ⟨middle, here, onwards⟩
      have rows := applyEffect_replacement replacement here
      simp only [opensTurn, here, Bool.or_eq_false_iff, decide_eq_false_iff_not, Nat.not_lt] at closed
      subst rows
      have kept : Answers (Session.conversation { session with rows := identified env.replacedId original }) reactive :=
        allowed.answers other onTime covered closed.1
      refine kept.applyEffects ?_ ?_ onwards closed.2
      · exact fun later member => AIBuddyEffect.replacement?_of_isLocal (isLocal later member)
      · exact fun later member => hides later (List.mem_cons_of_mem _ member)

theorem Answers.advance {reactive : Nat} (answers : Answers state.session.conversation reactive)
    (onTime : OnTime env state.session.conversation) (hidden : TrailsHidden state.session.conversation)
    (advanced : advance machine env state = .ok (some result, next)) (goesOn : result.startsOver = false)
    (closed : opensTurn state.session result.effects = false) :
    Answers next.session.conversation
      (if isReactive state.session.conversation result then reactive + 1 else reactive) := by
  rcases (advance_eq_ok_iff _ _ _ _ _).mp advanced with ⟨stepped, persisted⟩
  have hides := step_hides stepped
  have hidesAgent : forall effect, effect ∈ result.effects ->
      forall shown, effect.shown? = some shown -> shown.agentVisible = false := by
    intro effect member shown same
    rcases hides with nothing | keeps
    · rw [nothing effect member] at same
      contradiction
    · exact ((keeps effect member).2 shown same).1
  by_cases replaced : result.replaces = true
  · cases step_effects stepped with
    | infers _ _ effects _ _ _ =>
        rcases List.any_eq_true.mp replaced with ⟨effect, member, isReplacement⟩
        rcases effects effect member with ⟨message, rfl⟩ | rfl <;> contradiction
    | offline _ name applied effects =>
        have other : name ≠ .retry := by
          intro retries
          rw [StepResult.startsOver, applied, retries, replaced] at goesOn
          exact absurd goesOn (by decide)
        have covered : forall turn, turn? state.session.conversation = some turn ->
            (if isReactive state.session.conversation result then reactive + 1 else reactive) ≤
              turn.countP isHiddenContextError := by
          intro turn found
          have before := answers turn found
          split
          · case _ isReactive =>
              simp only [AIBuddy.isReactive, Bool.and_eq_true, beq_iff_eq] at isReactive
              rw [← answeredErrors_trailing found isReactive.2 hidden]
              exact Nat.add_le_add_right before 1
          · exact before.trans (answeredErrors_le turn)
        exact effects.answers other onTime covered replaced hidesAgent persisted closed
  · have nothing : isReactive state.session.conversation result = false := by
      rw [isReactive, Bool.eq_false_iff.mpr replaced, Bool.and_false, Bool.false_and]
    rw [nothing]
    refine answers.applyEffects (fun effect member => ?_) hidesAgent persisted closed
    rw [← Option.not_isSome_iff_eq_none]
    exact fun isReplacement => replaced (List.any_eq_true.mpr ⟨effect, member, isReplacement⟩)

end Steps

/-! ## The last error -/

/-- The operations that may take a step behind an error that is not compacted away: a turn out of its
budget, the compaction of tool pairs, and what is left to do about tool requests. -/
def pendingOperations : List OperationName :=
  [.maxTurns, .toolPairCompaction, .toolApproval, .skills, .recipe, .toolExecution, .unknownTool]

/-- An error about the length trails a turn that has answered as many as may be answered. -/
structure Exhausted (conversation : List Message) : Prop where
  trails : trailingError conversation = some .contextLengthExceeded
  hidden : TrailsHidden conversation
  answered : Answers conversation maxContextErrorCompactions

section Exhausted

variable {machine : Machine} {env : StepEnv} {session : Session} {turn : List Message}

theorem Exhausted.last (exhausted : Exhausted session.conversation) (found : turn? session.conversation = some turn) :
    Exists fun last => turn.getLast? = some last ∧ last.errorKind = some .contextLengthExceeded ∧
      last.role = .assistant := by
  rcases Option.bind_eq_some_iff.mp exhausted.trails with ⟨last, ends, isError⟩
  refine ⟨last, ?_, isError, (exhausted.hidden last ends isError).1⟩
  rcases suffixFromLast_isSuffix found with ⟨before, whole⟩
  rw [← ends, ← whole, List.getLast?_append_of_ne_nil _ (suffixFromLast_ne_nil found)]

theorem Exhausted.compactionRun_eq (exhausted : Exhausted session.conversation)
    (found : turn? session.conversation = some turn) :
    compactionRun machine env session.conversation = .ok .notApplicable := by
  have many : maxContextErrorCompactions < turn.countP isHiddenContextError := by
    rw [← answeredErrors_trailing found exhausted.trails exhausted.hidden]
    exact Nat.lt_succ_of_le (exhausted.answered turn found)
  have due : compactionDue env session.conversation turn = .ok false := by
    rw [compactionDue, if_pos exhausted.trails]
    rw [List.countP_eq_length_filter] at many
    exact congrArg Except.ok (decide_eq_false (Nat.not_le.mpr many))
  unfold compactionRun
  split
  · rfl
  · rw [(messagesSinceKickoff_eq_ok_iff _ _).mpr found]
    change (compactionDue env session.conversation turn >>= _) = _
    rw [due]
    rfl

/-- Whatever has to do with commands, with a finished turn or with a conversation that may be
compacted finds nothing to do. -/
theorem Exhausted.idle (exhausted : Exhausted session.conversation) (found : turn? session.conversation = some turn)
    {name : OperationName} (other : name ≠ .llm) (free : name ∉ pendingOperations) (quiet : name ≠ .exitOnError)
    (agent : Agent) : runOperation machine env session agent name = .ok (.notApplicable, agent) := by
  have since := (messagesSinceKickoff_eq_ok_iff session.conversation turn).mpr found
  let state : State := ⟨agent, session⟩
  have inState : turn? state.session.conversation = some turn := found
  rcases exhausted.last found with ⟨last, ends, isError, assistant⟩
  have unfinished : endsTurn turn = false := by
    simp only [endsTurn, ends, isError, Option.isNone_some, Bool.and_false, Bool.false_and]
  have role : lastEffectiveRole turn = .ok .assistant := by
    simp only [lastEffectiveRole, ends, effectiveRole, assistant, reduceCtorEq, false_and, if_false]
  cases name
  case entryHook => exact entryHookRun_eq inState agent
  case slashCommand => exact slashCommandRun_of_assistant inState ends assistant agent
  case steer =>
    simp only [runOperation, steerRun, since]
    change Except.map _ (lastEffectiveRole turn >>= _) = _
    rw [role, unfinished]
    rfl
  case bangShell =>
    have long := one_lt_length_of_assistant inState ends assistant
    simp only [runOperation, bangShellRun, since, Runs.map_eq_ok_iff, Runs.bind_eq_ok_iff]
    refine ⟨.notApplicable, ⟨turn, rfl, ?_⟩, rfl⟩
    split
    · rfl
    · split
      · rfl
      · rw [if_pos long, role]
        rfl
  case compaction =>
    simp only [runOperation, exhausted.compactionRun_eq found]
    rfl
  case doctor => rfl
  case project => rfl
  case retry =>
    simp only [runOperation, retryRun, since]
    change (Except.ok _) = _
    rw [unfinished]
    rfl
  case stopHook =>
    simp only [runOperation, stopHookRun, since]
    change Except.map _ (Except.ok _) = _
    rw [unfinished]
    rfl
  case exitOnError => exact absurd rfl quiet
  case llm => exact absurd rfl other
  all_goals exact absurd (by decide) free

theorem Exhausted.exitOnError (exhausted : Exhausted session.conversation) (agent : Agent) :
    runOperation machine env session agent .exitOnError = .ok (.yieldedWith [], agent) := by
  simp only [runOperation, exitOnErrorRun, exhausted.trails]
  rfl

theorem turn_of_entryHook {agent last : Agent} {result : OperationResult}
    (ran : runOperation machine env session agent .entryHook = .ok (result, last)) :
    Exists fun turn => turn? session.conversation = some turn := by
  simp only [runOperation, entryHookRun, map_eq_ok_iff] at ran
  rcases ran with ⟨_, ran, _⟩
  rcases (bind_eq_ok_iff _ _ _).mp ran with ⟨turn, found, _⟩
  exact ⟨turn, (messagesSinceKickoff_eq_ok_iff _ _).mp found⟩

/-- The entry hook is the first to run. -/
theorem turn_of_applied {state : State} {result : StepResult} {last : Agent} {name : OperationName}
    {before after : List OperationName} {agent : Agent} (other : name ≠ .llm)
    (applied : Applied machine env state result last name before after false agent) :
    Exists fun turn => turn? state.session.conversation = some turn := by
  by_cases first : name = .entryHook
  · subst first
    rcases applied.ran other with ⟨_, plain, ran, _⟩
    exact turn_of_entryHook ran
  · have earlier : OperationName.entryHook ∈ (stepOrder machine.managesOwnContext).takeWhile
        fun candidate => candidate != name := by
      have apart : (OperationName.entryHook != name) = true := bne_iff_ne.mpr (Ne.symm first)
      rw [stepOrder_eq, List.takeWhile_cons_of_pos (p := fun candidate => candidate != name) apart]
      exact List.mem_cons_self ..
    rcases applied.ranBefore earlier (by decide) with ⟨_, _, _, ran⟩
    exact turn_of_entryHook ran

theorem step_of_exhausted {state : State} {last : Agent} {outcome : Option StepResult}
    (exhausted : Exhausted state.session.conversation) (uncancelled : env.cancel = none)
    (stepped : step machine env state = .ok (outcome, last)) :
    Exists fun result => outcome = some result ∧
      ((Exists fun name => name ∈ pendingOperations ∧ result.appliedStep = some name) ∨
        (result.effects = [] ∧ result.appliedStep = some .exitOnError ∧ result.yieldToClient = true)) := by
  have never : forall name, env.cancelledIn name = false := by
    intro name
    rw [StepEnv.cancelledIn, uncancelled]
    rfl
  have unflagged : forall {agent next : Agent} {names : List OperationName} {flag : Bool},
      AllDeclined machine env state.session false agent names flag next -> flag = false := by
    intro agent next names flag declined
    rw [declined.flag_eq, Bool.false_or, List.any_eq_false]
    exact fun name _ => Bool.eq_false_iff.mp (never name)
  have told : forall {agent next : Agent} {names : List OperationName} {flag : Bool},
      AllDeclined machine env state.session false agent names flag next -> OperationName.exitOnError ∉ names := by
    intro agent next names flag declined member
    cases unflagged declined
    rcases declined.ran member (by decide) with ⟨_, _, _, ran⟩
    rw [exhausted.exitOnError] at ran
    cases ran
  have order : forall {before after : List OperationName},
      stepOrder machine.managesOwnContext = before ++ .llm :: after -> OperationName.exitOnError ∈ before := by
    intro before after split
    rw [before_eq split]
    cases machine.managesOwnContext <;> decide
  cases outcome with
  | none =>
      rcases (stepFrom_eq_none_iff _ _ _ _).mp stepped with
        ⟨flag, declined⟩ | ⟨before, name, after, flag, agent, split, declined, stopped⟩
      · refine absurd ?_ (told declined)
        cases machine.managesOwnContext <;> decide
      · by_cases inference : name = .llm
        · subst inference
          exact absurd (order split) (told declined)
        · cases unflagged declined
          rcases (offer_eq_ok_iff _ _ _ _ _).mp stopped with ⟨attempted, tried, answered⟩
          rw [tryOperation_of_ne_llm inference (not_cancelledBy (never name) 0)] at tried
          rcases (map_eq_ok_iff _ _ _).mp tried with ⟨ran, _, same⟩
          cases same
          rcases (map_eq_ok_iff _ _ _).mp answered with ⟨result, _, isStopped⟩
          cases result <;> contradiction
  | some result =>
      refine ⟨result, rfl, ?_⟩
      rcases step_applied stepped with ⟨name, before, after, flag, agent, applied⟩
      by_cases inference : name = .llm
      · subst inference
        exact absurd (order applied.order) (told applied.declined)
      · rcases applied.ran inference with ⟨_, plain, ran, finished⟩
        by_cases pending : name ∈ pendingOperations
        · exact Or.inl ⟨name, pending, applied.named⟩
        · cases unflagged applied.declined
          by_cases quiet : name = .exitOnError
          · subst quiet
            rw [exhausted.exitOnError] at ran
            cases ran
            subst finished
            exact Or.inr ⟨rfl, rfl, rfl⟩
          · rcases turn_of_applied inference applied with ⟨turn, found⟩
            rw [exhausted.idle found inference pending quiet] at ran
            cases ran

end Exhausted

/-! ## Runs -/

/-- A state with the number of compactions behind errors since the last kickoff or the last reset by
a retry. -/
structure Reacted where
  state : State
  reactive : Nat

namespace Reacted

/-- The count behind a step. -/
def behind (reacted : Reacted) (next : State) : Option StepResult -> Reacted
  | none => { reacted with state := next }
  | some result =>
      if result.startsOver || opensTurn reacted.state.session result.effects then ⟨next, 0⟩
      else if isReactive reacted.state.session.conversation result then ⟨next, reacted.reactive + 1⟩
      else { reacted with state := next }

/-- The state after an event. -/
def occur (machine : Machine) (event : Event) (reacted : Reacted) : Except String Reacted :=
  match event with
  | .step env => (advance machine env reacted.state).map fun outcome => reacted.behind outcome.2 outcome.1
  | event => (AIBuddy.occur machine event reacted.state).map fun next =>
      ⟨next, if kickoffs reacted.state.session.conversation < kickoffs next.session.conversation then 0
        else reacted.reactive⟩

def run (machine : Machine) : List Event -> Reacted -> Except String Reacted :=
  Runs.run (Reacted.occur machine)

/-- What is asked of a conversation before every step: summaries are dated on time, and errors at
its end are told as errors of a provider are. -/
structure Orderly (env : StepEnv) (conversation : List Message) : Prop where
  onTime : OnTime env conversation
  hidden : TrailsHidden conversation

instance (env : StepEnv) (conversation : List Message) : Decidable (Orderly env conversation) :=
  decidable_of_iff ((forall summary, summary ∈ env.summary.toOption ->
      (forall message, message ∈ conversation -> message.created ≤ summary.created) ∧ summary.created ≤ env.now) ∧
    forall last, last ∈ conversation.getLast? -> last.errorKind = some .contextLengthExceeded ->
      last.role = .assistant ∧ last.isAgentVisible = false)
    ⟨fun both => ⟨fun summary succeeded => both.1 summary (by rw [succeeded]; rfl), both.2⟩,
      fun orderly => ⟨fun summary made => orderly.onTime summary (by
        cases outcome : env.summary with
        | error failure =>
            rw [outcome] at made
            cases made
        | ok value =>
            rw [outcome] at made
            cases made
            rfl), orderly.hidden⟩⟩

/-- Whether that holds before every step of a run. -/
def AlongSteps (machine : Machine) : List Event -> Reacted -> Prop :=
  Runs.Along (Reacted.occur machine) fun reacted event =>
    match event with
    | .step env => Orderly env reacted.state.session.conversation
    | _ => True

instance (machine : Machine) (events : List Event) (start : Reacted) : Decidable (AlongSteps machine events start) :=
  have (reacted : Reacted) (event : Event) : Decidable (match event with
      | .step env => Orderly env reacted.state.session.conversation
      | _ => True) :=
    match event with
    | .step env => inferInstanceAs (Decidable (Orderly env reacted.state.session.conversation))
    | .submit _ | .decide _ _ _ _ | .setMode _ _ => inferInstanceAs (Decidable True)
  Runs.decidableAlong _ events start

/-- The turn has answered an error for every compaction, and there were not too many. -/
structure Bounded (reacted : Reacted) : Prop where
  answers : Answers reacted.state.session.conversation reacted.reactive
  within : reacted.reactive ≤ maxContextErrorCompactions

theorem bounded_zero (state : State) : Bounded ⟨state, 0⟩ :=
  ⟨.zero _, Nat.zero_le _⟩

private theorem Bounded.behind {machine : Machine} {env : StepEnv} {reacted : Reacted} {next : State}
    {outcome : Option StepResult} (bounded : reacted.Bounded)
    (orderly : Orderly env reacted.state.session.conversation)
    (advanced : advance machine env reacted.state = .ok (outcome, next)) : (reacted.behind next outcome).Bounded := by
  cases outcome with
  | none =>
      have same : next.session = reacted.state.session :=
        (Except.ok.inj ((advance_eq_ok_iff _ _ _ _ _).mp advanced).2).symm
      refine ⟨?_, bounded.within⟩
      change Answers next.session.conversation _
      rw [same]
      exact bounded.answers
  | some result =>
      unfold Reacted.behind
      simp only
      split
      · exact bounded_zero next
      · case _ goesOn =>
          simp only [Bool.or_eq_true, not_or, Bool.not_eq_true] at goesOn
          have answers := bounded.answers.advance orderly.onTime orderly.hidden advanced goesOn.1 goesOn.2
          split
          · case _ reactive =>
              rw [if_pos reactive] at answers
              refine ⟨answers, ?_⟩
              rcases contextErrors_le_of_reactive ((advance_eq_ok_iff _ _ _ _ _).mp advanced).1 reactive with
                ⟨turn, found, few⟩
              simp only [isReactive, Bool.and_eq_true, beq_iff_eq] at reactive
              rw [← answeredErrors_trailing found reactive.2 orderly.hidden] at few
              exact (Nat.succ_le_succ (bounded.answers turn found)).trans few
          · case _ proactive =>
              rw [if_neg proactive] at answers
              exact ⟨answers, bounded.within⟩

private theorem Bounded.occur {machine : Machine} {event : Event} {reacted next : Reacted} (bounded : reacted.Bounded)
    (orderly : match event with
      | .step env => Orderly env reacted.state.session.conversation
      | _ => True)
    (occurred : Reacted.occur machine event reacted = .ok next) : next.Bounded := by
  have added : forall (message : Message) (state : State),
      state.session.rows = addMessage reacted.state.session.rows message ->
        Bounded ⟨state, if kickoffs reacted.state.session.conversation < kickoffs state.session.conversation then 0
          else reacted.reactive⟩ := by
    intro message state stored
    split
    · exact bounded_zero state
    · case _ noMore =>
        refine ⟨?_, bounded.within⟩
        change Answers (getConversation state.session.rows) _
        rw [Session.conversation, Session.conversation, stored] at noMore
        rw [stored, getConversation_addMessage]
        exact bounded.answers.append (isKickoff_datedAfter (Nat.not_lt.mp noMore))
  have kept : forall (state : State), state.session.rows = reacted.state.session.rows ->
      Bounded ⟨state, if kickoffs reacted.state.session.conversation < kickoffs state.session.conversation then 0
        else reacted.reactive⟩ := by
    intro state same
    have read : state.session.conversation = reacted.state.session.conversation := by
      rw [Session.conversation, Session.conversation, same]
    refine ⟨?_, ?_⟩
    · change Answers state.session.conversation _
      rw [read, if_neg (Nat.lt_irrefl _)]
      exact bounded.answers
    · rw [read, if_neg (Nat.lt_irrefl _)]
      exact bounded.within
  cases event with
  | step env =>
      rcases (map_eq_ok_iff _ _ _).mp occurred with ⟨⟨outcome, state⟩, advanced, rfl⟩
      exact bounded.behind orderly advanced
  | submit message =>
      simp only [Reacted.occur, AIBuddy.occur, map_eq_ok_iff, Except.ok.injEq] at occurred
      rcases occurred with ⟨state, rfl, rfl⟩
      exact added message _ rfl
  | decide now messageId requestId permission =>
      simp only [Reacted.occur, AIBuddy.occur, map_eq_ok_iff] at occurred
      rcases occurred with ⟨state, ⟨rows, persisted, rfl⟩, rfl⟩
      rcases persistToolConfirmationDecision_rows persisted with rfl | rfl
      · exact kept _ rfl
      · exact added (decisionMessage now messageId requestId permission) _ rfl
  | setMode agentMode sessionMode =>
      simp only [Reacted.occur, AIBuddy.occur, map_eq_ok_iff, Except.ok.injEq] at occurred
      rcases occurred with ⟨state, rfl, rfl⟩
      exact kept _ rfl

end Reacted

/-- In every run whose summaries are dated on time, at most two compactions answer errors about the
length of the conversation between a kickoff or a reset by a retry and the next.  Behind them, the
step that finds such an error at the end of the conversation returns it to the client, unless a
pending operation is applied before. -/
theorem reactive_compactions_bounded {machine : Machine} {events : List Event} {start last : Reacted}
    (orderly : Reacted.AlongSteps machine events start) (begun : start.reactive = 0)
    (reached : Reacted.run machine events start = .ok last) :
    last.reactive ≤ maxContextErrorCompactions ∧
      forall env outcome next, last.reactive = maxContextErrorCompactions ->
        trailingError last.state.session.conversation = some .contextLengthExceeded ->
        TrailsHidden last.state.session.conversation -> env.cancel = none ->
        advance machine env last.state = .ok (outcome, next) ->
          Exists fun result => outcome = some result ∧
            ((Exists fun name => name ∈ pendingOperations ∧ result.appliedStep = some name) ∨
              (result.appliedStep = some .exitOnError ∧ result.yieldToClient = true ∧
                next.session = last.state.session)) := by
  have bounded : last.Bounded := by
    refine run_invariant (fun reacted event next here bounded occurred => ?_) orderly ?_ reached
    · exact bounded.occur here occurred
    · exact ⟨begun ▸ .zero _, begun ▸ Nat.zero_le _⟩
  refine ⟨bounded.within, fun env outcome next spent trails hidden uncancelled advanced => ?_⟩
  rcases (advance_eq_ok_iff _ _ _ _ _).mp advanced with ⟨stepped, persisted⟩
  rcases step_of_exhausted ⟨trails, hidden, spent ▸ bounded.answers⟩ uncancelled stepped with
    ⟨result, rfl, pending | ⟨nothing, named, yields⟩⟩
  · exact ⟨result, rfl, Or.inl pending⟩
  · refine ⟨result, rfl, Or.inr ⟨named, yields, ?_⟩⟩
    rw [applyResult, nothing] at persisted
    exact (Except.ok.inj persisted).symm

/-! ## Errors that keep coming -/

/-- The compactions behind errors in a run of steps that opens no turn. -/
def reactiveWithin (machine : Machine) : List StepEnv -> State -> Option Nat
  | [], _ => some 0
  | env :: rest, state =>
      match advance machine env state with
      | .ok (some result, next) =>
          if opensTurn state.session result.effects then none
          else (reactiveWithin machine rest next).map
            ((if isReactive state.session.conversation result then 1 else 0) + ·)
      | _ => none

namespace ContextErrorsExample

/-- The provider finds the conversation too long. -/
def tooLong : StepEnv :=
  { StepEnv.still with provider := { ProviderTurn.silent with startError := some (.contextLengthExceeded "too long") } }

def prompted (prompt : String) : State :=
  ⟨⟨.auto, none, none⟩, ⟨"s", [((Message.user 0).withContent (.plainText prompt)).withId "k"], none, .auto, .null⟩⟩

/-- The command runs a recipe that is retried three times, and its checks fail. -/
def deploying (provider : ProviderTurn) : StepEnv :=
  { StepEnv.still with
    recipeCommand := fun _ => .ok (some (⟨none, some ⟨3, none⟩⟩, "deploy it"))
    retryChecks := .ok false
    provider := provider }

/-- The recipe, an error, its compaction, an answer and the checks. -/
def onceDeployed : List StepEnv :=
  [deploying .silent, deploying tooLong.provider, deploying .silent,
    deploying { ProviderTurn.silent with chunks := [((Message.assistant 0).withContent (.plainText "done")).withId "b"] },
    deploying .silent]

end ContextErrorsExample

/-- A turn with a budget of one is told about its budget before its first error is looked at, and a
command that starts over twice is compacted behind an error three times. -/
theorem reactive_compactions_exceeded :
    (runMachine (Machine.plain.withBudget 1) (List.replicate 3 ContextErrorsExample.tooLong)
        (ContextErrorsExample.prompted "hi")).toOption.map
          (fun last => (trailingError last.session.conversation, last.session.conversation.map Message.asConcatText)) =
        some (none, ["hi", "", maxTurnsMessage]) ∧
      reactiveWithin Machine.plain (List.replicate 3 ContextErrorsExample.onceDeployed).flatten
        (ContextErrorsExample.prompted "/deploy") = some (maxContextErrorCompactions + 1) := by
  constructor <;> decide +kernel

/-- Two errors are answered by compactions, and the third one is returned to the client. -/
theorem reactive_compactions_spent :
    Exists fun last => Reacted.run Machine.plain (List.replicate 5 (.step ContextErrorsExample.tooLong))
        ⟨ContextErrorsExample.prompted "hi", 0⟩ = .ok last ∧ last.reactive = maxContextErrorCompactions ∧
      forall outcome next, advance Machine.plain ContextErrorsExample.tooLong last.state = .ok (outcome, next) ->
        Exists fun result => outcome = some result ∧
          ((Exists fun name => name ∈ pendingOperations ∧ result.appliedStep = some name) ∨
            (result.appliedStep = some .exitOnError ∧ result.yieldToClient = true ∧
              next.session = last.state.session)) := by
  have reached : Exists fun last => Reacted.run Machine.plain
      (List.replicate 5 (.step ContextErrorsExample.tooLong)) ⟨ContextErrorsExample.prompted "hi", 0⟩ = .ok last ∧
        last.reactive = maxContextErrorCompactions ∧
          Reacted.Orderly ContextErrorsExample.tooLong last.state.session.conversation ∧
            trailingError last.state.session.conversation = some .contextLengthExceeded :=
    ⟨_, rfl, rfl, by decide, rfl⟩
  rcases reached with ⟨last, reached, spent, orderly, trails⟩
  refine ⟨last, reached, spent, fun outcome next advanced => ?_⟩
  exact (reactive_compactions_bounded (by decide) rfl reached).2 ContextErrorsExample.tooLong outcome next spent trails
    orderly.hidden rfl advanced

end AIBuddy
