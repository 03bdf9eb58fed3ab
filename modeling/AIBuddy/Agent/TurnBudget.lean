import AIBuddy.Agent.Replacements
import AIBuddy.Support.Blocks

namespace AIBuddy

open LastSuffix
open Blocks
open Runs

/-!
# The turn budget

The budget of a turn is a number of inferences, but what is counted against it
are blocks of assistant messages.  The two agree as long as what the provider says
never joins a block that is there already.
-/

/-! ## Counting inferences -/

/-- How many messages of a conversation open a turn. -/
def kickoffs (conversation : List Message) : Nat :=
  conversation.countP isKickoff

def AIBuddyEffect.appendsAssistant : AIBuddyEffect -> Bool
  | .conversation (.appendMessage message) => message.role == .assistant
  | _ => false

/-- The inferences with assistant output since the last kickoff, and whether the
step that is under way is counted among them. -/
structure Tally where
  produced : Nat
  counted : Bool
deriving DecidableEq, Repr

/-- Count an effect, by the conversations before and behind it.  A kickoff starts
from zero, and the first assistant message of a step that asked the provider makes
the step count. -/
def Tally.count (asked : Bool) (effect : AIBuddyEffect) (before after : List Message) (tally : Tally) : Tally :=
  if kickoffs before < kickoffs after then ⟨0, false⟩
  else if asked && effect.appendsAssistant && !tally.counted then ⟨tally.produced + 1, true⟩
  else tally

/-- Count the effects of a step as they are persisted. -/
def Tally.countAll (asked : Bool) (session : Session) : List AIBuddyEffect -> Tally -> Tally
  | [], tally => tally
  | effect :: rest, tally =>
      match applyEffect session effect with
      | .error _ => tally
      | .ok next => Tally.countAll asked next rest (tally.count asked effect session.conversation next.conversation)

/-- Whether some of the effects opens a turn. -/
def opensTurn (session : Session) : List AIBuddyEffect -> Bool
  | [] => false
  | effect :: rest =>
      match applyEffect session effect with
      | .error _ => false
      | .ok next => decide (kickoffs session.conversation < kickoffs next.conversation) || opensTurn next rest

/-- A state with the number of inferences that produced assistant output since the
last kickoff or the last reset by a retry. -/
structure Budgeted where
  state : State
  produced : Nat

/-- A retry that starts over. -/
def StepResult.startsOver (result : StepResult) : Bool :=
  result.appliedStep == some .retry && result.replaces

namespace Budgeted

/-- The count behind a step. -/
def spend (budgeted : Budgeted) : Option StepResult -> Nat
  | none => budgeted.produced
  | some result =>
      if result.startsOver then 0
      else (Tally.countAll result.askedProvider budgeted.state.session result.effects
        ⟨budgeted.produced, false⟩).produced

/-- The state after an event.  Only steps produce, and a kickoff starts from zero. -/
def occur (machine : Machine) (event : Event) (budgeted : Budgeted) : Except String Budgeted :=
  match event with
  | .step env => (advance machine env budgeted.state).map fun outcome => ⟨outcome.2, budgeted.spend outcome.1⟩
  | event => (AIBuddy.occur machine event budgeted.state).map fun next =>
      ⟨next, if kickoffs budgeted.state.session.conversation < kickoffs next.session.conversation then 0
        else budgeted.produced⟩

def run (machine : Machine) : List Event -> Budgeted -> Except String Budgeted :=
  Runs.run (Budgeted.occur machine)

/-- Whether a condition on the conversation holds before every step of a run. -/
def AlongSteps (machine : Machine) (condition : List Message -> StepEnv -> Prop) : List Event -> Budgeted -> Prop :=
  Runs.Along (Budgeted.occur machine) fun budgeted event =>
    match event with
    | .step env => condition budgeted.state.session.conversation env
    | _ => True

end Budgeted

def endsWithAssistant (conversation : List Message) : Bool :=
  conversation.getLast?.any isAssistant

/-- Whether what the provider is about to say would join a block of the assistant:
the assistant was the last to speak, and no new context of the turn is told. -/
def continuesBlock (machine : Machine) (env : StepEnv) (conversation : List Message) : Bool :=
  inferenceApplies conversation && endsWithAssistant conversation &&
    ((turn? conversation).map (turnContextEvent machine env)).all List.isEmpty

theorem Budgeted.run_state {machine : Machine} {events : List Event} {start last : Budgeted}
    (reached : Budgeted.run machine events start = .ok last) :
    runEvents machine events start.state = .ok last.state := by
  induction events generalizing start with
  | nil =>
      cases reached
      rfl
  | cons event rest ih =>
      rcases (run_cons_eq_ok_iff event rest start last).mp reached with ⟨next, moved, onwards⟩
      apply (run_cons_eq_ok_iff event rest start.state last.state).mpr
      refine ⟨next.state, ?_, ih onwards⟩
      cases event with
      | step env =>
          rcases (map_eq_ok_iff _ _ _).mp moved with ⟨outcome, advanced, rfl⟩
          exact (map_eq_ok_iff _ _ _).mpr ⟨outcome, advanced, rfl⟩
      | _ =>
          simp only [Budgeted.occur, map_eq_ok_iff] at moved
          rcases moved with ⟨state, occurred, rfl⟩
          exact occurred

theorem Budgeted.run_of_runEvents {machine : Machine} {events : List Event} {start : Budgeted} {last : State}
    (reached : runEvents machine events start.state = .ok last) :
    Exists fun produced => Budgeted.run machine events start = .ok ⟨last, produced⟩ := by
  induction events generalizing start with
  | nil =>
      cases reached
      exact ⟨start.produced, rfl⟩
  | cons event rest ih =>
      rcases (run_cons_eq_ok_iff event rest start.state last).mp reached with ⟨next, moved, onwards⟩
      have counted : Exists fun produced => Budgeted.occur machine event start = .ok ⟨next, produced⟩ := by
        cases event with
        | step env =>
            rcases (map_eq_ok_iff _ _ _).mp moved with ⟨outcome, advanced, rfl⟩
            exact ⟨_, (map_eq_ok_iff _ _ _).mpr ⟨outcome, advanced, rfl⟩⟩
        | _ =>
            simp only [Budgeted.occur, map_eq_ok_iff]
            exact ⟨_, next, moved, rfl⟩
      rcases counted with ⟨produced, occurred⟩
      rcases ih (show runEvents machine rest (Budgeted.mk next produced).state = .ok last from onwards)
        with ⟨final, ran⟩
      exact ⟨final, (run_cons_eq_ok_iff event rest start _).mpr ⟨_, occurred, ran⟩⟩

/-! ## The count of blocks -/

theorem assistantTurnCount_eq (messages : List Message) :
    assistantTurnCount messages = blockCount isAssistant messages := by
  have same : (fun (message : Message) (state : Nat × Bool) =>
      if message.role = .assistant then (if state.2 then state.1 else state.1 + 1, true) else (state.1, false)) =
        countStep isAssistant := by
    funext message state
    unfold countStep isAssistant
    simp only [beq_iff_eq]
  unfold assistantTurnCount
  rw [same]
  rfl

/-- The turn of a conversation, if it has one, has a number of blocks. -/
def Covers (conversation : List Message) (produced : Nat) : Prop :=
  forall turn, turn? conversation = some turn -> produced ≤ assistantTurnCount turn

namespace Covers

variable {conversation : List Message} {produced : Nat}

theorem zero (conversation : List Message) : Covers conversation 0 :=
  fun _ _ => Nat.zero_le _

theorem append (covers : Covers conversation produced) {message : Message} (joins : isKickoff message = false) :
    Covers (conversation ++ [message]) produced := by
  intro turn found
  unfold turn? at found
  rw [suffixFromLast_concat, if_neg (Bool.eq_false_iff.mp joins)] at found
  rcases Option.map_eq_some_iff.mp found with ⟨earlier, foundEarlier, rfl⟩
  have bound := covers earlier foundEarlier
  rw [assistantTurnCount_eq] at bound ⊢
  exact Nat.le_trans bound (blockCount_le_of_sublist _ (List.sublist_append_left earlier [message]))

theorem speak (covers : Covers conversation produced) (other : endsWithAssistant conversation = false)
    {message : Message} (assistant : message.role = .assistant) :
    Covers (conversation ++ [message]) (produced + 1) := by
  have joins : isKickoff message = false := by
    unfold isKickoff
    rw [assistant]
    rfl
  intro turn found
  unfold turn? at found
  rw [suffixFromLast_concat, if_neg (Bool.eq_false_iff.mp joins)] at found
  rcases Option.map_eq_some_iff.mp found with ⟨earlier, foundEarlier, rfl⟩
  have bound := covers earlier foundEarlier
  rw [assistantTurnCount_eq] at bound ⊢
  rcases List.eq_nil_or_concat' earlier with rfl | ⟨front, last, rfl⟩
  · exact absurd rfl (suffixFromLast_ne_nil foundEarlier)
  · have unmarked : isAssistant last = false := by
      rcases suffixFromLast_isSuffix foundEarlier with ⟨before, rfl⟩
      unfold endsWithAssistant at other
      rw [← List.append_assoc, List.getLast?_concat] at other
      exact other
    have marked : isAssistant message = true := by
      unfold isAssistant
      rw [assistant]
      rfl
    rw [List.append_assoc, List.singleton_append, blockCount_concat_concat front unmarked marked]
    exact Nat.succ_le_succ bound

/-- Rewritten messages of the same roles, none of which newly opens a turn, do not
lower the count. -/
theorem rewrite (covers : Covers conversation produced) {changed : List Message}
    (pairs : List.Forall₂ (fun before after => isAssistant before = isAssistant after ∧
      (isKickoff after = true -> isKickoff before = true)) conversation changed) : Covers changed produced := by
  intro turn found
  rcases suffixFromLast_forall₂_fewer (fun _ _ same => same.2) pairs found with
    ⟨earlier, tail, foundEarlier, same, within⟩
  have bound := covers earlier foundEarlier
  rw [assistantTurnCount_eq] at bound ⊢
  calc produced ≤ blockCount isAssistant earlier := bound
    _ = blockCount isAssistant tail := blockCount_forall₂ (same.imp fun _ _ agree => agree.1)
    _ ≤ blockCount isAssistant turn := blockCount_le_of_sublist _ within

/-- Messages that are put between others, and open no turn, do not lower the count. -/
theorem insert (covers : Covers conversation produced) {extended : List Message}
    (sublist : conversation.Sublist extended) (noMore : kickoffs extended ≤ kickoffs conversation) :
    Covers extended produced := by
  intro turn found
  rcases suffixFromLast_sublist sublist noMore found with ⟨earlier, foundEarlier, within⟩
  have bound := covers earlier foundEarlier
  rw [assistantTurnCount_eq] at bound ⊢
  exact Nat.le_trans bound (blockCount_le_of_sublist _ within)

end Covers

/-! ## Effects in place -/

theorem kickoffs_rows (session : Session) : kickoffs session.conversation = session.rows.countP isKickoff :=
  (getConversation_perm session.rows).countP_eq isKickoff

/-- A row with the same role and the same date. -/
structure SameRow (before after : Message) : Prop where
  speaker : isAssistant before = isAssistant after
  dated : before.created = after.created

theorem forall₂_kickoff {rows changed : List Message}
    (pairs : List.Forall₂ (fun before after => SameRow before after ∧
      (isKickoff before = true -> isKickoff after = true)) rows changed)
    (noMore : changed.countP isKickoff ≤ rows.countP isKickoff) :
    List.Forall₂ (fun before after => SameRow before after ∧
      (isKickoff after = true -> isKickoff before = true)) rows changed := by
  have kept : forall {left right : List Message}, List.Forall₂ (fun before after => SameRow before after ∧
      (isKickoff before = true -> isKickoff after = true)) left right ->
        left.countP isKickoff ≤ right.countP isKickoff := by
    intro left right pairs
    induction pairs with
    | nil => exact Nat.le_refl _
    | cons head rest ih =>
        rw [List.countP_cons, List.countP_cons]
        apply Nat.add_le_add ih
        split
        · case _ isMarked => rw [if_pos (head.2 isMarked)]
        · exact Nat.zero_le _
  induction pairs with
  | nil => exact .nil
  | @cons before after rows changed head rest ih =>
      have behind := kept rest
      rw [List.countP_cons, List.countP_cons] at noMore
      have here : isKickoff after = true -> isKickoff before = true := by
        intro opens
        by_contra closed
        rw [if_pos opens, if_neg closed] at noMore
        omega
      refine .cons ⟨head.1, here⟩ (ih ?_)
      split at noMore
      · case _ opens =>
          rw [if_pos (here opens)] at noMore
          exact Nat.le_of_add_le_add_right noMore
      · case _ closed =>
          rw [if_neg fun opens => closed (head.2 opens)] at noMore
          exact noMore

private theorem patchedRow_sameRow {toolCallId : String} {patch : Json} {row patched : Message}
    (same : PatchedRow toolCallId patch row patched) :
    SameRow row patched ∧ (isKickoff patched = true -> isKickoff row = true) := by
  rcases same with rfl | rfl
  · exact ⟨⟨rfl, rfl⟩, id⟩
  · refine ⟨⟨rfl, rfl⟩, fun opens => ?_⟩
    unfold isKickoff Message.isToolResponse at opens ⊢
    rw [isToolResponse_patchToolRequest] at opens
    exact opens

/-- Showing or hiding messages opens turns or closes turns, but not both. -/
theorem visibility_sameRow {rows updated : List Message} {messageId : String}
    {userVisible agentVisible : Bool}
    (succeeded : (updateMessageMetadata rows messageId fun metadata =>
      { metadata with userVisible := userVisible, agentVisible := agentVisible }) = .ok updated)
    (noMore : updated.countP isKickoff ≤ rows.countP isKickoff) :
    List.Forall₂ (fun before after => SameRow before after ∧
      (isKickoff after = true -> isKickoff before = true)) rows updated := by
  have pairs := updateMessageMetadata_forall₂ succeeded
  cases userVisible with
  | false =>
      refine pairs.imp fun row changed same => ?_
      rcases same with rfl | ⟨metadata, rfl⟩
      · exact ⟨⟨rfl, rfl⟩, id⟩
      · refine ⟨⟨rfl, rfl⟩, fun opens => ?_⟩
        simp [isKickoff, Message.isUserVisible] at opens
  | true =>
      apply forall₂_kickoff (pairs.imp fun row changed same => ?_) noMore
      rcases same with rfl | ⟨metadata, rfl⟩
      · exact ⟨⟨rfl, rfl⟩, id⟩
      · refine ⟨⟨rfl, rfl⟩, fun opens => ?_⟩
        simp only [isKickoff, Message.isUserVisible, Message.isToolResponse, Bool.and_eq_true] at opens ⊢
        exact ⟨⟨opens.1.1, trivial⟩, opens.2⟩

/-- Rows of the same roles and dates, none of which newly opens a turn, are read
back with at least the same count. -/
private theorem Covers.rewriteRows {session : Session} {rows : List Message} {produced : Nat}
    (covers : Covers session.conversation produced)
    (pairs : List.Forall₂ (fun before after => SameRow before after ∧
      (isKickoff after = true -> isKickoff before = true)) session.rows rows) :
    Covers (getConversation rows) produced := by
  have read := getConversation_forall₂ (fun _ _ same => same.1.dated) pairs
  exact covers.rewrite (read.imp fun _ _ same => ⟨same.1.speaker, same.2⟩)

theorem isKickoff_datedAfter {session : Session} {message : Message}
    (noMore : kickoffs (getConversation (addMessage session.rows message)) ≤ kickoffs session.conversation) :
    isKickoff (datedAfter session.rows message) = false := by
  rw [getConversation_addMessage] at noMore
  unfold kickoffs Session.conversation at noMore
  cases opens : isKickoff (datedAfter session.rows message) with
  | false => rfl
  | true =>
      simp only [List.countP_append, List.countP_singleton, opens, if_true] at noMore
      omega

/-- An effect in place that opens no turn does not lower the count. -/
theorem Covers.apply {session next : Session} {effect : AIBuddyEffect} {produced : Nat}
    (covers : Covers session.conversation produced) (isLocal : effect.isLocal = true)
    (applied : applyEffect session effect = .ok next)
    (noMore : kickoffs next.conversation ≤ kickoffs session.conversation) : Covers next.conversation produced := by
  cases effect with
  | conversation effect =>
      cases effect with
      | appendMessage message =>
          cases applied
          have read : getConversation (addMessage session.rows message) =
              session.conversation ++ [datedAfter session.rows message] := getConversation_addMessage _ _
          unfold Session.conversation
          rw [read]
          exact covers.append (isKickoff_datedAfter noMore)
      | replaceConversation messages => contradiction
      | patchToolRequestMeta toolCallId patch =>
          cases applied
          exact covers.rewriteRows ((updateToolRequestMeta_forall₂ _ _ _).imp fun _ _ same => patchedRow_sameRow same)
      | setMessageVisibility messageId userVisible agentVisible =>
          rcases (bind_eq_ok_iff _ _ _).mp applied with ⟨rows, updated, returned⟩
          cases (pure_eq_ok_iff _ _).mp returned
          rw [kickoffs_rows, kickoffs_rows] at noMore
          exact covers.rewriteRows (visibility_sameRow updated noMore)
  | replaceConversation messages => contradiction
  | setRecipe recipe =>
      cases applied
      exact covers
  | setExtensionData data =>
      cases applied
      exact covers
  | recordUsage => contradiction

/-! ## Replacements -/

/-- Copies of all messages, stored in front of others, are read back with at least
the same count if no message newly opens a turn. -/
private theorem Covers.replace {session : Session} {kept extra : List Message} {produced : Nat}
    (covers : Covers session.conversation produced)
    (copies : List.Forall₂ (fun before after => SameRow before after ∧ isKickoff before = isKickoff after)
      session.conversation kept)
    (noMore : kickoffs (getConversation (kept ++ extra)) ≤ kickoffs session.conversation) :
    Covers (getConversation (kept ++ extra)) produced := by
  have dates : session.conversation.map Message.created = kept.map Message.created := by
    rw [← List.forall₂_eq_eq_eq, List.forall₂_map_left_iff, List.forall₂_map_right_iff]
    exact copies.imp fun _ _ same => same.1.dated
  have opens : session.conversation.map isKickoff = kept.map isKickoff := by
    rw [← List.forall₂_eq_eq_eq, List.forall₂_map_left_iff, List.forall₂_map_right_iff]
    exact copies.imp fun _ _ same => same.2
  have ordered : Chronological kept := by
    rw [chronological_iff_dates, ← dates, ← chronological_iff_dates]
    exact getConversation_chronological _
  have sameKickoffs : kickoffs kept = kickoffs session.conversation := by
    have counted := congrArg (List.countP id) opens
    rw [List.countP_map, List.countP_map] at counted
    exact counted.symm
  have front : Covers kept produced := by
    apply covers.rewrite
    exact copies.imp fun _ _ same => ⟨same.1.speaker, fun opens => same.2.trans opens⟩
  apply front.insert (sublist_getConversation (List.sublist_append_left kept extra) ordered)
  rw [sameKickoffs]
  exact noMore

theorem map_hiddenFromAgent_hideLast (conversation : List Message) :
    (hideLast conversation).map hiddenFromAgent = conversation.map hiddenFromAgent := by
  induction conversation with
  | nil => rfl
  | cons first rest ih =>
      cases rest with
      | nil => rfl
      | cons second others => exact congrArg (hiddenFromAgent first :: ·) ih

theorem map_hiddenFromAgent_compactedInput (conversation : List Message) :
    (compactedInput conversation).map hiddenFromAgent = conversation.map hiddenFromAgent := by
  unfold compactedInput
  split
  · exact map_hiddenFromAgent_hideLast conversation
  · rfl

theorem identified_compacted {machine : Machine} {env : StepEnv} {messages compacted : List Message}
    {manualCompact : Bool} (succeeded : compactMessages machine env messages manualCompact = .ok compacted)
    (replacedId : Nat -> String) :
    Exists fun extra => extra ≠ [] ∧ identified replacedId compacted =
      identified replacedId (messages.map hiddenFromAgent) ++ extra := by
  rcases (compactMessages_eq_ok_iff machine env messages manualCompact compacted).mp succeeded with
    ⟨summary, _, rfl⟩
  rw [compactedBase, List.append_assoc, List.append_assoc]
  rcases identified_append replacedId (messages.map hiddenFromAgent) _ with ⟨extra, stored⟩
  refine ⟨extra, fun empty => ?_, stored⟩
  have lengths := congrArg List.length stored
  simp [empty, identified] at lengths

theorem stored_copies (replacedId : Nat -> String) (conversation : List Message) :
    List.Forall₂ (fun message copy => Exists fun given => copy = { hiddenFromAgent message with id := given })
      conversation (identified replacedId (conversation.map hiddenFromAgent)) := by
  have stored := identified_forall₂ replacedId (conversation.map hiddenFromAgent)
  rw [List.forall₂_map_left_iff] at stored
  exact stored

theorem map_stored_copies {β : Type} (replacedId : Nat -> String) (conversation : List Message) (read : Message -> β)
    (blind : forall message given, read { hiddenFromAgent message with id := given } = read message) :
    (identified replacedId (conversation.map hiddenFromAgent)).map read = conversation.map read := by
  rw [← List.forall₂_eq_eq_eq, List.forall₂_map_left_iff, List.forall₂_map_right_iff]
  refine (stored_copies replacedId conversation).flip.imp fun copy message same => ?_
  rcases same with ⟨given, rfl⟩
  exact blind message given

theorem kickoffs_stored_copies (replacedId : Nat -> String) (conversation : List Message) :
    kickoffs (identified replacedId (conversation.map hiddenFromAgent)) = kickoffs conversation := by
  have counted := congrArg (List.countP fun opens => opens)
    (map_stored_copies replacedId conversation isKickoff fun _ _ => rfl)
  rw [List.countP_map, List.countP_map] at counted
  exact counted

theorem chronological_stored_copies (replacedId : Nat -> String) (session : Session) :
    Chronological (identified replacedId (session.conversation.map hiddenFromAgent)) := by
  rw [chronological_iff_dates, map_stored_copies replacedId session.conversation Message.created fun _ _ => rfl,
    ← chronological_iff_dates]
  exact getConversation_chronological _

private theorem hidden_copies (replacedId : Nat -> String) (conversation : List Message) :
    List.Forall₂ (fun before after => SameRow before after ∧ isKickoff before = isKickoff after) conversation
      (identified replacedId (conversation.map hiddenFromAgent)) := by
  refine (stored_copies replacedId conversation).imp fun message copy same => ?_
  rcases same with ⟨given, rfl⟩
  exact ⟨⟨rfl, rfl⟩, rfl⟩

theorem ReplacesWith.covers {machine : Machine} {env : StepEnv} {session : Session} {name : OperationName}
    {messages : List Message} {produced : Nat}
    (replaces : ReplacesWith machine env session.conversation name messages) (other : name ≠ .retry)
    (covers : Covers session.conversation produced)
    (noMore : kickoffs (getConversation (identified env.replacedId messages)) ≤ kickoffs session.conversation) :
    Covers (getConversation (identified env.replacedId messages)) produced := by
  have compacts : forall (input compacted : List Message) (manualCompact : Bool),
      input.map hiddenFromAgent = session.conversation.map hiddenFromAgent ->
        compactMessages machine env input manualCompact = .ok compacted -> compacted = messages ->
          Covers (getConversation (identified env.replacedId messages)) produced := by
    rintro input compacted manualCompact hidden succeeded rfl
    rcases identified_compacted succeeded env.replacedId with ⟨extra, _, stored⟩
    rw [stored, hidden] at noMore ⊢
    exact covers.replace (hidden_copies env.replacedId session.conversation) noMore
  cases replaces with
  | compaction _ succeeded =>
      exact compacts _ _ false (map_hiddenFromAgent_compactedInput session.conversation) succeeded rfl
  | clear _ =>
      intro turn found
      contradiction
  | compact _ _ succeeded => exact compacts _ _ true rfl succeeded rfl
  | retry _ _ => exact absurd rfl other

/-! ## Steps -/

/-- A count that is within a limit and covered by the turn. -/
structure Fits (limit : Nat) (conversation : List Message) (produced : Nat) : Prop where
  within : produced ≤ limit
  covers : Covers conversation produced

namespace Fits

variable {limit : Nat} {session next : Session} {tally : Tally}

theorem zero (limit : Nat) (conversation : List Message) : Fits limit conversation 0 :=
  ⟨Nat.zero_le _, Covers.zero conversation⟩

private theorem count_offline {effect : AIBuddyEffect}
    (keeps : kickoffs next.conversation ≤ kickoffs session.conversation ->
      Covers next.conversation tally.produced)
    (within : tally.produced ≤ limit) :
    Fits limit next.conversation (tally.count false effect session.conversation next.conversation).produced := by
  unfold Tally.count
  split
  · exact zero limit _
  · case _ noMore => exact ⟨within, keeps (Nat.not_lt.mp noMore)⟩

theorem countAll_local {effects : List AIBuddyEffect}
    (isLocal : forall effect, effect ∈ effects -> effect.isLocal = true)
    (fits : Fits limit session.conversation tally.produced) (applied : applyEffects session effects = .ok next) :
    Fits limit next.conversation (Tally.countAll false session effects tally).produced := by
  induction effects generalizing session tally with
  | nil =>
      cases applied
      exact fits
  | cons effect rest ih =>
      rcases (bind_eq_ok_iff _ _ _).mp applied with ⟨middle, here, onwards⟩
      simp only [Tally.countAll, here]
      apply ih (fun later member => isLocal later (List.mem_cons_of_mem effect member)) _ onwards
      exact count_offline (fun noMore => fits.covers.apply (isLocal effect (List.mem_cons_self ..)) here noMore)
        fits.within

theorem countAll_replacing {machine : Machine} {env : StepEnv} {name : OperationName}
    {effects : List AIBuddyEffect} (other : name ≠ .retry)
    (replaces : ReplacesFirst (fun messages => Exists fun original =>
      ReplacesWith machine env session.conversation name original ∧
        messages = identified env.replacedId original) effects)
    (fits : Fits limit session.conversation tally.produced) (applied : applyEffects session effects = .ok next) :
    Fits limit next.conversation (Tally.countAll false session effects tally).produced := by
  cases replaces with
  | stays _ isLocal => exact countAll_local isLocal fits applied
  | replacing first rest messages replacement permitted isLocal =>
      rcases permitted with ⟨original, allowed, rfl⟩
      rcases (bind_eq_ok_iff _ _ _).mp applied with ⟨middle, here, onwards⟩
      have conversation : middle.conversation = getConversation (identified env.replacedId original) :=
        congrArg Session.conversation (applyEffect_replacement replacement here)
      simp only [Tally.countAll, here]
      apply countAll_local isLocal _ onwards
      apply count_offline _ fits.within
      intro noMore
      rw [conversation] at noMore ⊢
      exact allowed.covers other fits.covers noMore

end Fits

/-- The state of the count while the provider is heard: until the step counts, there
is room for it, and the assistant was not the last to speak. -/
structure Hears (limit : Nat) (conversation : List Message) (tally : Tally) : Prop where
  fits : Fits limit conversation tally.produced
  room : tally.counted = false -> tally.produced < limit ∧ endsWithAssistant conversation = false

namespace Hears

variable {limit : Nat} {session next : Session} {tally : Tally}

private theorem appended {message : Message} (applied : applyEffect session (.append message) = .ok next) :
    next.conversation = session.conversation ++ [datedAfter session.rows message] := by
  cases applied
  exact getConversation_addMessage _ _

private theorem kickoffs_appended (conversation : List Message) (message : Message) :
    kickoffs (conversation ++ [message]) =
      kickoffs conversation + if isKickoff message = true then 1 else 0 := by
  unfold kickoffs
  rw [List.countP_append, List.countP_singleton]

private theorem listen (some : 0 < limit) (fits : Fits limit session.conversation tally.produced)
    (room : tally.counted = false -> tally.produced < limit) {message : Message}
    (other : isAssistant message = false) (applied : applyEffect session (.append message) = .ok next) :
    Hears limit next.conversation
      (tally.count true (.append message) session.conversation next.conversation) := by
  have last : endsWithAssistant (session.conversation ++ [datedAfter session.rows message]) = false := by
    unfold endsWithAssistant
    rw [List.getLast?_concat]
    exact other
  have silent : (AIBuddyEffect.append message).appendsAssistant = false := other
  rw [appended applied]
  unfold Tally.count
  rw [kickoffs_appended]
  cases opens : isKickoff (datedAfter session.rows message) with
  | true =>
      rw [if_pos rfl, if_pos (Nat.lt_succ_self _)]
      exact ⟨Fits.zero limit _, fun _ => ⟨some, last⟩⟩
  | false =>
      rw [if_neg Bool.false_ne_true, Nat.add_zero, if_neg (Nat.lt_irrefl _), silent, Bool.and_false,
        Bool.false_and, if_neg Bool.false_ne_true]
      exact ⟨⟨fits.within, fits.covers.append opens⟩, fun uncounted => ⟨room uncounted, last⟩⟩

private theorem speak (hears : Hears limit session.conversation tally) {message : Message}
    (assistant : isAssistant message = true) (applied : applyEffect session (.append message) = .ok next) :
    Hears limit next.conversation
      (tally.count true (.append message) session.conversation next.conversation) := by
  have role : (datedAfter session.rows message).role = .assistant := beq_iff_eq.mp assistant
  have joins : isKickoff (datedAfter session.rows message) = false := by
    unfold isKickoff
    rw [role]
    rfl
  have spoken : (AIBuddyEffect.append message).appendsAssistant = true := assistant
  rw [appended applied]
  unfold Tally.count
  rw [kickoffs_appended, joins, if_neg Bool.false_ne_true, Nat.add_zero, if_neg (Nat.lt_irrefl _), spoken,
    Bool.true_and, Bool.true_and]
  cases already : tally.counted with
  | true =>
      rw [Bool.not_true, if_neg Bool.false_ne_true]
      refine ⟨⟨hears.fits.within, hears.fits.covers.append joins⟩, fun uncounted => ?_⟩
      rw [already] at uncounted
      contradiction
  | false =>
      rcases hears.room already with ⟨room, other⟩
      rw [Bool.not_false, if_pos rfl]
      exact ⟨⟨room, hears.fits.covers.speak other role⟩, fun uncounted => absurd uncounted.symm Bool.false_ne_true⟩

theorem countAll (some : 0 < limit) {effects : List AIBuddyEffect} (infers : AppendsOrReports effects)
    (hears : Hears limit session.conversation tally) (applied : applyEffects session effects = .ok next) :
    Fits limit next.conversation (Tally.countAll true session effects tally).produced := by
  induction effects generalizing session tally with
  | nil =>
      cases applied
      exact hears.fits
  | cons effect rest ih =>
      rcases (bind_eq_ok_iff _ _ _).mp applied with ⟨middle, here, onwards⟩
      simp only [Tally.countAll, here]
      apply ih (fun later member => infers later (List.mem_cons_of_mem effect member)) _ onwards
      rcases infers effect (List.mem_cons_self ..) with ⟨message, rfl⟩ | rfl
      · cases speaker : isAssistant message with
        | true => exact hears.speak speaker here
        | false => exact listen some hears.fits (fun uncounted => (hears.room uncounted).1) speaker here
      · cases here
        unfold Tally.count
        rw [if_neg (Nat.lt_irrefl _)]
        exact hears

theorem countAll_told (some : 0 < limit) {effects rest : List AIBuddyEffect} (infers : AppendsOrReports effects)
    (fits : Fits limit session.conversation tally.produced) (room : tally.produced < limit) {context : Message}
    (other : isAssistant context = false) (told : effects = .append context :: rest)
    (applied : applyEffects session effects = .ok next) :
    Fits limit next.conversation (Tally.countAll true session effects tally).produced := by
  rw [told] at infers applied ⊢
  rcases (bind_eq_ok_iff _ _ _).mp applied with ⟨middle, here, onwards⟩
  simp only [Tally.countAll, here]
  apply countAll some (fun later member => infers later (List.mem_cons_of_mem _ member)) _ onwards
  exact listen some fits (fun _ => room) other here

end Hears

theorem turnContextEvent_user {machine : Machine} {env : StepEnv} {turn : List Message} {context : Message}
    (told : context ∈ turnContextEvent machine env turn) (id : String) :
    isAssistant (ensureId id context) = false := by
  rcases ensureId_eq id context with ⟨given, same⟩
  rw [same]
  unfold turnContextEvent at told
  split at told
  · contradiction
  · simp only at told
    split at told
    · contradiction
    · rw [List.mem_singleton.mp told]
      rfl

theorem asks_within_budget {machine : Machine} {env : StepEnv} {state : State} {result : StepResult} {last : Agent}
    (stepped : step machine env state = .ok (some result, last)) (asked : result.askedProvider = true) :
    inferenceApplies state.session.conversation = true ∧ Exists fun turn =>
      turn? state.session.conversation = some turn ∧ assistantTurnCount turn < machine.maxTurns := by
  rcases step_applied stepped with ⟨name, before, after, flag, agent, applied⟩
  cases asksProvider_llm applied.accepted asked
  rcases offer_llm_eq_accepted applied.accepted with
    ⟨rfl, _, applies, names, turn, outcome, _, found, _, _⟩ | ⟨_, turn, response, _, _, rfl⟩
  · refine ⟨applies, turn, found, ?_⟩
    have earlier : OperationName.maxTurns ∈
        (stepOrder machine.managesOwnContext).takeWhile fun candidate => candidate != .llm := by
      cases machine.managesOwnContext <;> decide
    rcases applied.ranBefore earlier (by decide) with ⟨before, after, _, ran⟩
    rcases (map_eq_ok_iff _ _ _).mp ran with ⟨outcome, returned, same⟩
    cases same
    unfold maxTurnsRun at returned
    rcases (bind_eq_ok_iff _ _ _).mp returned with ⟨messages, foundHere, decided⟩
    rw [messagesSinceKickoff_eq_ok_iff] at foundHere
    cases Option.some.inj (found.symm.trans foundHere)
    have declined := (pure_eq_ok_iff _ _).mp decided
    split at declined
    · assumption
    · contradiction
  · contradiction

theorem Fits.advance {machine : Machine} {env : StepEnv} {budgeted : Budgeted} {next : State}
    {result : Option StepResult} (fits : Fits machine.maxTurns budgeted.state.session.conversation budgeted.produced)
    (apart : continuesBlock machine env budgeted.state.session.conversation = false)
    (advanced : advance machine env budgeted.state = .ok (result, next)) :
    Fits machine.maxTurns next.session.conversation (budgeted.spend result) := by
  rcases (advance_eq_ok_iff _ _ _ _ _).mp advanced with ⟨stepped, persisted⟩
  cases result with
  | none =>
      have same : next.session = budgeted.state.session := (Except.ok.inj persisted).symm
      rw [same]
      exact fits
  | some result =>
      unfold Budgeted.spend
      simp only
      split
      · exact Fits.zero _ _
      · case _ goesOn =>
          cases step_effects stepped with
          | infers asked applied effects turn found tells =>
              rcases asks_within_budget stepped asked with ⟨applies, sameTurn, sameFound, within⟩
              cases Option.some.inj (found.symm.trans sameFound)
              have some : 0 < machine.maxTurns := Nat.zero_lt_of_lt within
              have room : budgeted.produced < machine.maxTurns := Nat.lt_of_le_of_lt (fits.covers turn found) within
              rw [asked]
              cases told : turnContextEvent machine env turn with
              | nil =>
                  have other : endsWithAssistant budgeted.state.session.conversation = false := by
                    unfold continuesBlock at apart
                    rw [applies, found, Option.map_some, told] at apart
                    simpa using apart
                  exact Hears.countAll some effects ⟨fits, fun _ => ⟨room, other⟩⟩ persisted
              | cons context others =>
                  have member : context ∈ turnContextEvent machine env turn := by
                    rw [told]
                    exact List.mem_cons_self ..
                  rcases tells context member with ⟨id, rest, first⟩
                  exact Hears.countAll_told some effects fits room (turnContextEvent_user member id) first persisted
          | offline asked name applied effects =>
              rw [asked]
              by_cases retries : name = .retry
              · have isLocal : forall effect, effect ∈ result.effects -> effect.isLocal = true := by
                  intro effect member
                  rcases effects.cases_mem member with isLocal | ⟨messages, replacement, _⟩
                  · exact isLocal
                  · have replaces : result.replaces = true :=
                      List.any_eq_true.mpr ⟨effect, member, by rw [replacement]; rfl⟩
                    refine absurd ?_ goesOn
                    rw [StepResult.startsOver, applied, retries, replaces]
                    rfl
                exact countAll_local isLocal fits persisted
              · exact countAll_replacing retries effects fits persisted

/-! ## Runs -/

/-- The count of a state fits the budget. -/
def WithinBudget (machine : Machine) (budgeted : Budgeted) : Prop :=
  Fits machine.maxTurns budgeted.state.session.conversation budgeted.produced

private theorem WithinBudget.occur {machine : Machine} {event : Event} {budgeted next : Budgeted}
    (fits : WithinBudget machine budgeted)
    (apart : match event with
      | .step env => continuesBlock machine env budgeted.state.session.conversation = false
      | _ => True)
    (occurred : Budgeted.occur machine event budgeted = .ok next) : WithinBudget machine next := by
  have kept : Fits machine.maxTurns budgeted.state.session.conversation
      (if kickoffs budgeted.state.session.conversation < kickoffs budgeted.state.session.conversation then 0
        else budgeted.produced) := by
    rw [if_neg (Nat.lt_irrefl _)]
    exact fits
  have added : forall (message : Message) (session : Session),
      applyEffect budgeted.state.session (.append message) = .ok session ->
        Fits machine.maxTurns session.conversation
          (if kickoffs budgeted.state.session.conversation < kickoffs session.conversation then 0
            else budgeted.produced) := by
    intro message session stored
    split
    · exact Fits.zero _ _
    · case _ noMore => exact ⟨fits.within, fits.covers.apply rfl stored (Nat.not_lt.mp noMore)⟩
  cases event with
  | step env =>
      rcases (map_eq_ok_iff _ _ _).mp occurred with ⟨⟨result, state⟩, advanced, rfl⟩
      exact Fits.advance fits apart advanced
  | submit message =>
      simp only [Budgeted.occur, AIBuddy.occur, map_eq_ok_iff, Except.ok.injEq] at occurred
      rcases occurred with ⟨state, rfl, rfl⟩
      exact added message _ rfl
  | decide now messageId requestId permission =>
      simp only [Budgeted.occur, AIBuddy.occur, map_eq_ok_iff] at occurred
      rcases occurred with ⟨state, ⟨rows, persisted, rfl⟩, rfl⟩
      rcases persistToolConfirmationDecision_rows persisted with rfl | rfl
      · exact kept
      · exact added (decisionMessage now messageId requestId permission) _ rfl
  | setMode agentMode sessionMode =>
      simp only [Budgeted.occur, AIBuddy.occur, map_eq_ok_iff, Except.ok.injEq] at occurred
      rcases occurred with ⟨state, rfl, rfl⟩
      exact kept

/-- In every run in which the provider never continues a block of the assistant, the
inferences that produce assistant output since the last kickoff or reset stay within
the budget. -/
theorem produced_le_maxTurns {machine : Machine} {events : List Event} {start last : Budgeted}
    (apart : Budgeted.AlongSteps machine (fun conversation env => continuesBlock machine env conversation = false)
      events start) (fresh : start.produced = 0)
    (reached : Budgeted.run machine events start = .ok last) : last.produced ≤ machine.maxTurns := by
  have begun : WithinBudget machine start := by
    unfold WithinBudget
    rw [fresh]
    exact Fits.zero _ _
  have fits : WithinBudget machine last := by
    refine run_invariant (fun budgeted event next here fits occurred => ?_) apart begun reached
    exact fits.occur here occurred
  exact fits.within

/-! ## A turn over its budget -/

namespace BudgetExample

/-- A budget of two inferences. -/
def machine : Machine :=
  { Machine.plain with maxTurns := 2 }

def start : Budgeted :=
  ⟨⟨⟨.auto, none, none⟩, ⟨"s", [((Message.user 0).withContent (.plainText "hi")).withId "k"], none, .auto, .null⟩⟩, 0⟩

/-- The provider says something. -/
def saying (messages : List Message) : StepEnv :=
  { StepEnv.still with provider := { ProviderTurn.silent with chunks := messages } }

/-- A provider that runs its own tools asks the user for a permission, in a message
that is not meant for the agent. -/
def permissionRequest (id : String) : Message :=
  (((Message.assistant 0).withContent (.actionRequired (.toolConfirmation id "Tool" [] none))).userOnly).withId id

def asking : List Event :=
  [.step (saying [permissionRequest "a"]), .step (saying [permissionRequest "b"]),
    .step (saying [permissionRequest "c"])]

def answering : List Event :=
  [.step (saying [((Message.assistant 0).withContent (.plainText "done")).withId "a"])]

end BudgetExample

/-- A provider that only asks for permissions is asked again and again. -/
theorem produced_exceeds_maxTurns :
    ((Budgeted.run BudgetExample.machine BudgetExample.asking BudgetExample.start).toOption.map fun last =>
      (last.produced, decide (last.produced ≤ BudgetExample.machine.maxTurns))) = some (3, false) := by
  decide

instance Budgeted.decidableAlongSteps (machine : Machine) (condition : List Message -> StepEnv -> Prop)
    [forall conversation env, Decidable (condition conversation env)] (events : List Event) (start : Budgeted) :
    Decidable (Budgeted.AlongSteps machine condition events start) :=
  have (budgeted : Budgeted) (event : Event) : Decidable (match event with
      | .step env => condition budgeted.state.session.conversation env
      | _ => True) :=
    match event with
    | .step env => inferInstanceAs (Decidable (condition budgeted.state.session.conversation env))
    | .submit _ | .decide _ _ _ _ | .setMode _ _ => inferInstanceAs (Decidable True)
  Runs.decidableAlong _ events start

/-- A provider that answers uses up one inference. -/
theorem produced_le_maxTurns_answer :
    Exists fun last => Budgeted.run BudgetExample.machine BudgetExample.answering BudgetExample.start = .ok last ∧
      last.produced = 1 ∧ last.produced ≤ BudgetExample.machine.maxTurns := by
  have reached : Exists fun last =>
      Budgeted.run BudgetExample.machine BudgetExample.answering BudgetExample.start = .ok last ∧
        last.produced = 1 := ⟨_, rfl, rfl⟩
  rcases reached with ⟨last, reached, one⟩
  have apart : Budgeted.AlongSteps BudgetExample.machine
      (fun conversation env => continuesBlock BudgetExample.machine env conversation = false)
      BudgetExample.answering BudgetExample.start := by decide
  exact ⟨last, reached, one, produced_le_maxTurns apart rfl reached⟩

end AIBuddy
