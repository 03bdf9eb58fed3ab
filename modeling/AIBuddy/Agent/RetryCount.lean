import AIBuddy.Agent.RetryReset
import AIBuddy.Agent.TurnBudget
import AIBuddy.Agent.TurnGrowth
import AIBuddy.Agent.Visibility

namespace AIBuddy

open LastSuffix
open Runs

/-!
# How often a turn starts over

The attempts of a turn are noted on the message that opened it.  The note outlives everything that
a step does to the conversation, as long as no other message bears the id of that message.
-/

/-! ## The message that opens a turn -/

/-- The last message that opens a turn. -/
def kickoff? (conversation : List Message) : Option Message :=
  (conversation.filter isKickoff).getLast?

theorem kickoff?_cons (first : Message) (rest : List Message) :
    kickoff? (first :: rest) = (kickoff? rest).or (if isKickoff first then some first else none) := by
  unfold kickoff?
  rw [List.filter_cons]
  split
  · rw [List.getLast?_cons]
    cases (rest.filter isKickoff).getLast? <;> rfl
  · cases (rest.filter isKickoff).getLast? <;> rfl

theorem kickoff?_mem {conversation : List Message} {first : Message} (found : kickoff? conversation = some first) :
    first ∈ conversation ∧ isKickoff first = true :=
  List.mem_filter.mp (List.mem_of_getLast? found)

theorem turn?_eq_some_iff_kickoff? (conversation : List Message) (first : Message) :
    (Exists fun rest => turn? conversation = some (first :: rest)) ↔ kickoff? conversation = some first := by
  have forward : forall {kickoff : Message} {rest : List Message}, turn? conversation = some (kickoff :: rest) ->
      kickoff? conversation = some kickoff := by
    intro kickoff rest found
    rcases (suffixFromLast_eq_some_iff _ _ _).mp found with ⟨before, head, tail, whole, shape, opens, closed⟩
    cases shape
    have none : rest.filter isKickoff = [] := by
      rw [List.filter_eq_nil_iff]
      intro message member
      simpa using closed message member
    rw [kickoff?, whole, List.filter_append, List.filter_cons_of_pos opens, none, List.getLast?_concat]
  constructor
  · rintro ⟨rest, found⟩
    exact forward found
  · intro found
    cases turn : turn? conversation with
    | none =>
        have member := kickoff?_mem found
        rw [(suffixFromLast_eq_none_iff _ _).mp turn first member.1] at member
        exact absurd member.2 (by decide)
    | some suffix =>
        rcases (suffixFromLast_eq_some_iff _ _ _).mp turn with ⟨_, head, tail, _, shape, _, _⟩
        cases shape
        cases Option.some.inj ((forward turn).symm.trans found)
        exact ⟨tail, rfl⟩

theorem kickoff?_none_of_forall₂ {related : Message -> Message -> Prop} {before after : List Message}
    (pairs : List.Forall₂ related before after) (none : kickoff? before = none)
    (closed : forall message changed, related message changed -> isKickoff changed = true -> isKickoff message = true) :
    kickoff? after = .none := by
  induction pairs with
  | nil => rfl
  | @cons message changed before after head tail ih =>
      rw [kickoff?_cons, Option.or_eq_none_iff] at none ⊢
      refine ⟨ih none.1, if_neg fun opens => ?_⟩
      rw [if_pos (closed _ _ head opens)] at none
      exact absurd none.2 (by simp)

theorem kickoff?_forall₂ {related : Message -> Message -> Prop} {before after : List Message} {first : Message}
    (pairs : List.Forall₂ related before after) (found : kickoff? before = some first)
    (closed : forall message changed, related message changed -> isKickoff changed = true -> isKickoff message = true)
    (stays : forall changed, related first changed -> isKickoff changed = true) :
    Exists fun changed => kickoff? after = some changed ∧ related first changed := by
  induction pairs with
  | nil => cases found
  | @cons message changed before after head tail ih =>
      rw [kickoff?_cons] at found
      cases later : kickoff? before with
      | some last =>
          rw [later, Option.some_or] at found
          rcases ih (later.trans found) with ⟨kept, there, same⟩
          exact ⟨kept, by rw [kickoff?_cons, there, Option.some_or], same⟩
      | none =>
          rw [later, Option.none_or] at found
          split at found
          · cases found
            have none := kickoff?_none_of_forall₂ tail later closed
            exact ⟨changed, by rw [kickoff?_cons, none, Option.none_or, if_pos (stays changed head)], head⟩
          · cases found

/-! ## The note -/

theorem operationNote_setOperationNote (metadata : MessageMetadata) (operation key : String) (value : Json) :
    (metadata.setOperationNote operation key value).operationNote operation key = some value := by
  simp [MessageMetadata.setOperationNote, MessageMetadata.operationNote, JsonObject.lookup_insert]

/-- The attempts noted on a message. -/
def notedAttempts (message : Message) : Nat :=
  (((message.metadata.operationNote retryOperationName attemptsNote).bind Json.asNat).getD 0) % UInt32.size

theorem retryAttempts_cons (first : Message) (rest : List Message) :
    retryAttempts (first :: rest) = notedAttempts first := rfl

/-- The kickoff has this many attempts noted.  Where its id is watched, it is the given one, and the
first stored message with that id has the same attempts noted. -/
def Counted (watched : Bool) (id : Option String) (attempts : Nat) (session : Session) : Prop :=
  forall kickoff, kickoff? session.conversation = some kickoff ->
    notedAttempts kickoff = attempts ∧
      (watched = true -> kickoff.id = id ∧ forall messageId, id = some messageId ->
        forall first, session.rows.find? (fun row => row.id = some messageId) = some first ->
          notedAttempts first = attempts)

/-- Visibility is only set where ids are watched, and the watched id stays visible to the user. -/
def AIBuddyEffect.Spares (watched : Bool) (id : Option String) (effect : AIBuddyEffect) : Prop :=
  forall shown, effect.shown? = some shown -> watched = true ∧ (id = some shown.messageId -> shown.userVisible = true)

namespace Counted

variable {watched : Bool} {id : Option String} {attempts : Nat} {session next : Session}

theorem find?_forall₂ {related : Message -> Message -> Prop} {test check : Message -> Bool} {rows changed : List Message}
    (pairs : List.Forall₂ related rows changed)
    (same : forall row other, related row other -> check other = test row) {found : Message}
    (first : changed.find? check = some found) :
    Exists fun original => rows.find? test = some original ∧ related original found := by
  induction pairs with
  | nil => cases first
  | @cons row other rows changed head tail ih =>
      rw [List.find?_cons, same row other head] at first
      rw [List.find?_cons]
      cases passes : test row with
      | true =>
          rw [passes] at first
          cases first
          exact ⟨row, rfl, head⟩
      | false =>
          rw [passes] at first
          exact ih first

theorem inPlace {rows : List Message} {related : Message -> Message -> Prop} (counted : Counted watched id attempts session)
    (pairs : List.Forall₂ related session.rows rows)
    (dates : forall row changed, related row changed -> row.created = changed.created)
    (ids : forall row changed, related row changed -> changed.id = row.id)
    (closed : forall row changed, related row changed -> isKickoff changed = true -> isKickoff row = true)
    (stays : forall kickoff changed, kickoff? session.conversation = some kickoff -> related kickoff changed ->
      isKickoff changed = true ∧ notedAttempts changed = attempts)
    (firsts : forall messageId first changed, watched = true -> id = some messageId ->
      session.rows.find? (fun row => row.id = some messageId) = some first -> notedAttempts first = attempts ->
        related first changed -> notedAttempts changed = attempts) :
    Counted watched id attempts { session with rows := rows } := by
  have read : List.Forall₂ related session.conversation (getConversation rows) := getConversation_forall₂ dates pairs
  intro changed found
  have before : Exists fun kickoff => kickoff? session.conversation = some kickoff := by
    cases kickoff : kickoff? session.conversation with
    | some first => exact ⟨first, rfl⟩
    | none =>
        have none := kickoff?_none_of_forall₂ read kickoff closed
        exact absurd (none.symm.trans found) (by simp)
  rcases before with ⟨kickoff, opened⟩
  rcases kickoff?_forall₂ read opened closed fun other same => (stays kickoff other opened same).1 with
    ⟨other, there, same⟩
  cases Option.some.inj (there.symm.trans found)
  rcases counted kickoff opened with ⟨_, watch⟩
  refine ⟨(stays kickoff _ opened same).2, fun isWatched => ⟨(ids _ _ same).trans (watch isWatched).1, ?_⟩⟩
  intro messageId named first isFirst
  have sameTest : forall row other, related row other ->
      decide (other.id = some messageId) = decide (row.id = some messageId) := by
    intro row other same
    rw [ids row other same]
  rcases find?_forall₂ pairs sameTest isFirst with ⟨original, wasFirst, same⟩
  exact firsts messageId original first isWatched named wasFirst
    ((watch isWatched).2 messageId named original wasFirst) same

theorem append (counted : Counted watched id attempts session) (message : Message)
    (noMore : kickoffs (getConversation (addMessage session.rows message)) ≤ kickoffs session.conversation) :
    Counted watched id attempts { session with rows := addMessage session.rows message } := by
  have read : getConversation (addMessage session.rows message) =
      session.conversation ++ [datedAfter session.rows message] := getConversation_addMessage _ _
  have closed := isKickoff_datedAfter noMore
  intro kickoff found
  have before : kickoff? session.conversation = some kickoff := by
    rw [← found]
    change _ = kickoff? (getConversation (addMessage session.rows message))
    rw [read, kickoff?, kickoff?, List.filter_append, List.filter_cons_of_neg (by simp [closed]), List.filter_nil,
      List.append_nil]
  rcases counted kickoff before with ⟨noted, watch⟩
  refine ⟨noted, fun isWatched => ⟨(watch isWatched).1, fun messageId named first isFirst => ?_⟩⟩
  have stored : kickoff ∈ session.rows := (mem_getConversation _ _).mp (kickoff?_mem before).1
  have wasFirst : session.rows.find? (fun row => row.id = some messageId) = some first := by
    change (addMessage session.rows message).find? _ = _ at isFirst
    rw [addMessage_eq, List.find?_append] at isFirst
    cases earlier : session.rows.find? (fun row => row.id = some messageId) with
    | some other =>
        rw [earlier, Option.some_or] at isFirst
        exact isFirst
    | none =>
        have unnamed := List.find?_eq_none.mp earlier kickoff stored
        simp only [decide_eq_true_eq] at unnamed
        exact absurd ((watch isWatched).1.trans named) unnamed
  exact (watch isWatched).2 messageId named first wasFirst

theorem patch (counted : Counted watched id attempts session) (toolCallId : String) (patch : Json) :
    Counted watched id attempts { session with rows := updateToolRequestMeta session.rows toolCallId patch } := by
  have kept : forall {row patched : Message}, PatchedRow toolCallId patch row patched ->
      notedAttempts patched = notedAttempts row := by
    rintro row patched (rfl | rfl) <;> rfl
  refine counted.inPlace (updateToolRequestMeta_forall₂ _ _ _) (fun _ _ same => same.created_eq) ?_ ?_ ?_ ?_
  · rintro row patched (rfl | rfl) <;> rfl
  · intro row patched same opens
    rw [isKickoff_patchedRow same]
    exact opens
  · intro kickoff patched opened same
    exact ⟨(isKickoff_patchedRow same) ▸ (kickoff?_mem opened).2, (kept same).trans (counted kickoff opened).1⟩
  · intro _ first patched _ _ _ noted same
    exact (kept same).trans noted

theorem shows (counted : Counted true id attempts session) {messageId : String} {userVisible agentVisible : Bool}
    (spares : id = some messageId -> userVisible = true) {rows : List Message}
    (updated : updateMessageMetadata session.rows messageId (fun metadata =>
      { metadata with userVisible := userVisible, agentVisible := agentVisible }) = .ok rows)
    (noMore : rows.countP isKickoff ≤ session.rows.countP isKickoff) :
    Counted true id attempts { session with rows := rows } := by
  have opens := visibility_sameRow updated noMore
  unfold updateMessageMetadata at updated
  split at updated
  · contradiction
  · case _ first isFirst =>
      cases updated
      let change := fun row : Message =>
        if row.id = some messageId then
          { row with metadata := { first.metadata with userVisible := userVisible, agentVisible := agentVisible } }
        else row
      have changed : List.Forall₂ (fun row other => other = change row) session.rows (session.rows.map change) :=
        List.forall₂_map_right_iff.mpr (List.forall₂_same.mpr fun row _ => rfl)
      have pairs := List.Forall₂.mp (fun row other same kept => And.intro same kept.2) changed opens
      refine counted.inPlace pairs ?_ ?_ (fun _ _ same => same.2) ?_ ?_
      · rintro row other ⟨rfl, _⟩
        simp only [change]
        split <;> rfl
      · rintro row other ⟨rfl, _⟩
        simp only [change]
        split <;> rfl
      · rintro kickoff other opened ⟨rfl, _⟩
        rcases counted kickoff opened with ⟨noted, watch⟩
        simp only [change]
        split
        · case _ named =>
            have same := (watch rfl).1.symm.trans named
            have opens := (kickoff?_mem opened).2
            refine ⟨?_, (watch rfl).2 messageId same first isFirst⟩
            simp only [isKickoff, Message.isUserVisible, Message.isToolResponse, Bool.and_eq_true] at opens ⊢
            exact ⟨⟨opens.1.1, spares same⟩, opens.2⟩
        · exact ⟨(kickoff?_mem opened).2, noted⟩
      · rintro other found _ _ _ isFound noted ⟨rfl, _⟩
        simp only [change]
        split
        · case _ named =>
            have here := List.find?_some isFound
            simp only [decide_eq_true_eq] at here
            cases Option.some.inj (here.symm.trans named)
            cases Option.some.inj (isFirst.symm.trans isFound)
            exact noted
        · exact noted

theorem apply {effect : AIBuddyEffect} (counted : Counted watched id attempts session)
    (stays : effect.replacement? = none) (spares : effect.Spares watched id)
    (applied : applyEffect session effect = .ok next)
    (noMore : kickoffs next.conversation ≤ kickoffs session.conversation) : Counted watched id attempts next := by
  cases effect with
  | conversation effect =>
      cases effect with
      | appendMessage message =>
          cases applied
          exact counted.append message noMore
      | replaceConversation messages => contradiction
      | patchToolRequestMeta toolCallId patch =>
          cases applied
          exact counted.patch toolCallId patch
      | setMessageVisibility messageId userVisible agentVisible =>
          rcases (bind_eq_ok_iff _ _ _).mp applied with ⟨rows, updated, returned⟩
          cases (pure_eq_ok_iff _ _).mp returned
          rcases spares ⟨messageId, userVisible, agentVisible⟩ rfl with ⟨rfl, keeps⟩
          rw [kickoffs_rows, kickoffs_rows] at noMore
          exact counted.shows keeps updated noMore
  | replaceConversation messages => contradiction
  | setRecipe recipe =>
      cases applied
      exact counted
  | setExtensionData data =>
      cases applied
      exact counted
  | recordUsage =>
      cases applied
      exact counted

end Counted

theorem Counted.applyEffects {watched : Bool} {id : Option String} {attempts : Nat} {session next : Session}
    {effects : List AIBuddyEffect} (counted : Counted watched id attempts session)
    (stays : forall effect, effect ∈ effects -> effect.replacement? = none)
    (spares : forall effect, effect ∈ effects -> effect.Spares watched id)
    (applied : applyEffects session effects = .ok next) (closed : opensTurn session effects = false) :
    Counted watched id attempts next := by
  induction effects generalizing session with
  | nil =>
      cases applied
      exact counted
  | cons effect rest ih =>
      rcases (bind_eq_ok_iff _ _ _).mp applied with ⟨middle, here, onwards⟩
      simp only [opensTurn, here, Bool.or_eq_false_iff, decide_eq_false_iff_not, Nat.not_lt] at closed
      have kept := counted.apply (stays effect (List.mem_cons_self ..)) (spares effect (List.mem_cons_self ..)) here
        closed.1
      exact ih kept (fun later member => stays later (List.mem_cons_of_mem _ member))
        (fun later member => spares later (List.mem_cons_of_mem _ member)) onwards closed.2

/-! ## Replacements -/

/-- Messages stored in order keep the kickoff when none of what is stored behind them opens a turn,
wherever that is read back. -/
theorem kickoff?_getConversation_append {front back : List Message} (ordered : Chronological front)
    (noMore : kickoffs (getConversation (front ++ back)) ≤ kickoffs front) :
    kickoff? (getConversation (front ++ back)) = kickoff? front := by
  have kept : (front.filter isKickoff).Sublist (getConversation (front ++ back)) :=
    sublist_getConversation (List.filter_sublist.trans (List.sublist_append_left front back))
      (ordered.sublist List.filter_sublist)
  have filtered := kept.filter isKickoff
  rw [List.filter_filter] at filtered
  simp only [Bool.and_self] at filtered
  have same : front.filter isKickoff = (getConversation (front ++ back)).filter isKickoff := by
    apply filtered.eq_of_length_le
    simpa only [kickoffs, List.countP_eq_length_filter] using noMore
  rw [kickoff?, kickoff?, same]

theorem ReplacesWith.counted {machine : Machine} {env : StepEnv} {session : Session} {name : OperationName}
    {messages : List Message} {attempts : Nat}
    (replaces : ReplacesWith machine env session.conversation name messages) (other : name ≠ .retry)
    (counted : Counted false none attempts session)
    (noMore : kickoffs (getConversation (identified env.replacedId messages)) ≤ kickoffs session.conversation) :
    Counted false none attempts { session with rows := identified env.replacedId messages } := by
  have compacts : forall (input compacted : List Message) (manualCompact : Bool),
      input.map hiddenFromAgent = session.conversation.map hiddenFromAgent ->
        compactMessages machine env input manualCompact = .ok compacted -> compacted = messages ->
          Counted false none attempts { session with rows := identified env.replacedId messages } := by
    rintro input compacted manualCompact hidden succeeded rfl
    rcases identified_compacted succeeded env.replacedId with ⟨extra, _, stored⟩
    rw [hidden] at stored
    have copies : List.Forall₂ (fun message copy : Message => isKickoff copy = isKickoff message ∧
        notedAttempts copy = notedAttempts message) session.conversation
          (identified env.replacedId (session.conversation.map hiddenFromAgent)) := by
      refine (stored_copies env.replacedId session.conversation).imp fun message copy same => ?_
      rcases same with ⟨id, rfl⟩
      exact ⟨rfl, rfl⟩
    intro changed found
    change kickoff? (getConversation (identified env.replacedId compacted)) = some changed at found
    rw [stored] at found noMore
    rw [kickoff?_getConversation_append (chronological_stored_copies _ session)
      (noMore.trans (kickoffs_stored_copies _ _).ge)] at found
    cases opened : kickoff? session.conversation with
    | none =>
        have none := kickoff?_none_of_forall₂ copies opened fun message copy same opens => same.1.symm.trans opens
        exact absurd (none.symm.trans found) (by simp)
    | some kickoff =>
        rcases kickoff?_forall₂ copies opened (fun message copy same opens => same.1.symm.trans opens)
          (fun copy same => same.1.trans (kickoff?_mem opened).2) with ⟨copy, there, same⟩
        cases Option.some.inj (there.symm.trans found)
        exact ⟨same.2.trans (counted kickoff opened).1, fun isWatched => absurd isWatched (by decide)⟩
  cases replaces with
  | compaction _ succeeded =>
      exact compacts _ _ false (map_hiddenFromAgent_compactedInput session.conversation) succeeded rfl
  | clear _ =>
      intro kickoff found
      cases found
  | compact _ _ succeeded => exact compacts _ _ true rfl succeeded rfl
  | retry _ _ => exact absurd rfl other

/-! ## Steps -/

/-- No other message bears the id of the message that opened the turn. -/
def KickoffAlone (conversation : List Message) : Prop :=
  forall kickoff, kickoff ∈ kickoff? conversation -> forall message, message ∈ conversation ->
    message.id = kickoff.id -> message.id = none ∨ message = kickoff

instance (conversation : List Message) : Decidable (KickoffAlone conversation) :=
  inferInstanceAs (Decidable (forall kickoff, kickoff ∈ kickoff? conversation -> forall message,
    message ∈ conversation -> message.id = kickoff.id -> message.id = none ∨ message = kickoff))

theorem Counted.watch {session : Session} {attempts : Nat} (alone : KickoffAlone session.conversation)
    (counted : Counted false none attempts session) :
    Counted true ((kickoff? session.conversation).bind Message.id) attempts session := by
  intro kickoff opened
  have noted := (counted kickoff opened).1
  refine ⟨noted, fun _ => ⟨by rw [opened]; rfl, fun messageId named first isFirst => ?_⟩⟩
  rw [opened, Option.bind_some] at named
  have firstNamed := List.find?_some isFirst
  simp only [decide_eq_true_eq] at firstNamed
  have stored := (mem_getConversation _ _).mpr (List.mem_of_find?_eq_some isFirst)
  rcases alone kickoff opened first stored (firstNamed.trans named.symm) with unnamed | rfl
  · rw [unnamed] at firstNamed
    contradiction
  · exact noted

theorem HidesFromAgent.spares {session : Session} {effects : List AIBuddyEffect}
    (alone : KickoffAlone session.conversation) (hides : HidesFromAgent session.conversation effects)
    {effect : AIBuddyEffect} (member : effect ∈ effects) :
    effect.Spares true ((kickoff? session.conversation).bind Message.id) := by
  intro shown same
  refine ⟨rfl, fun named => ?_⟩
  rcases hides with nothing | keeps
  · rw [nothing effect member] at same
    contradiction
  · rcases (keeps effect member).2 shown same with ⟨_, message, stored, messageNamed, visible⟩
    cases opened : kickoff? session.conversation with
    | none =>
        rw [opened] at named
        contradiction
    | some kickoff =>
        rw [opened, Option.bind_some] at named
        rcases alone kickoff opened message stored (messageNamed.trans named.symm) with unnamed | rfl
        · rw [unnamed] at messageNamed
          contradiction
        · have opens := (kickoff?_mem opened).2
          simp only [isKickoff, Bool.and_eq_true] at opens
          rw [← visible]
          exact opens.1.2

/-- Where nothing is watched, a note is known. -/
theorem Counted.forget {id : Option String} {attempts : Nat} {session : Session}
    (counted : Counted true id attempts session) : Counted false none attempts session := by
  intro kickoff opened
  exact ⟨(counted kickoff opened).1, fun isWatched => absurd isWatched (by decide)⟩

theorem Counted.applyReplacing {machine : Machine} {env : StepEnv} {session next : Session} {name : OperationName}
    {effects : List AIBuddyEffect} {attempts : Nat} (counted : Counted false none attempts session)
    (replaces : ReplacesFirst (fun messages => Exists fun original =>
      ReplacesWith machine env session.conversation name original ∧
        messages = identified env.replacedId original) effects) (other : name ≠ .retry)
    (hides : HidesFromAgent session.conversation effects)
    (replaced : Exists fun effect => effect ∈ effects ∧ effect.replacement?.isSome = true)
    (applied : AIBuddy.applyEffects session effects = .ok next) (closed : opensTurn session effects = false) :
    Counted false none attempts next := by
  rcases replaced with ⟨effect, member, isReplacement⟩
  have nothing : forall effect, effect ∈ effects -> effect.shown? = none := by
    rcases hides with nothing | keeps
    · exact nothing
    · rw [(keeps effect member).1] at isReplacement
      contradiction
  cases replaces with
  | stays _ isLocal =>
      rw [AIBuddyEffect.replacement?_of_isLocal (isLocal effect member)] at isReplacement
      contradiction
  | replacing first rest messages replacement permitted isLocal =>
      rcases permitted with ⟨original, allowed, rfl⟩
      rcases (bind_eq_ok_iff _ _ _).mp applied with ⟨middle, here, onwards⟩
      have stored := applyEffect_replacement replacement here
      simp only [opensTurn, here, Bool.or_eq_false_iff, decide_eq_false_iff_not, Nat.not_lt] at closed
      subst stored
      refine (allowed.counted other counted closed.1).applyEffects ?_ ?_ onwards closed.2
      · exact fun later member => AIBuddyEffect.replacement?_of_isLocal (isLocal later member)
      · intro later member shown same
        rw [nothing later (List.mem_cons_of_mem _ member)] at same
        contradiction

theorem Counted.advance {machine : Machine} {env : StepEnv} {state next : State} {result : StepResult} {attempts : Nat}
    (alone : KickoffAlone state.session.conversation) (counted : Counted false none attempts state.session)
    (advanced : advance machine env state = .ok (some result, next)) (goesOn : result.startsOver = false)
    (closed : opensTurn state.session result.effects = false) : Counted false none attempts next.session := by
  rcases (advance_eq_ok_iff _ _ _ _ _).mp advanced with ⟨stepped, persisted⟩
  have hides := step_hides stepped
  by_cases replaced : Exists fun effect => effect ∈ result.effects ∧ effect.replacement?.isSome = true
  · cases step_effects stepped with
    | infers _ _ effects _ _ _ =>
        rcases replaced with ⟨effect, member, isReplacement⟩
        rcases effects effect member with ⟨message, rfl⟩ | rfl <;> contradiction
    | offline _ name applied effects =>
        refine counted.applyReplacing effects (fun retries => ?_) hides replaced persisted closed
        have startsOver : result.startsOver = true := by
          rw [StepResult.startsOver, applied, retries, show result.replaces = true from List.any_eq_true.mpr replaced]
          rfl
        exact absurd (startsOver.symm.trans goesOn) (by decide)
  · have stays : forall effect, effect ∈ result.effects -> effect.replacement? = none := by
      intro effect member
      rw [← Option.not_isSome_iff_eq_none]
      exact fun isReplacement => replaced ⟨effect, member, isReplacement⟩
    exact ((counted.watch alone).applyEffects stays (fun effect member => hides.spares alone member) persisted
      closed).forget

theorem Counted.startOver {machine : Machine} {env : StepEnv} {state next : State} {result : StepResult} {attempts : Nat}
    (counted : Counted false none attempts state.session)
    (advanced : AIBuddy.advance machine env state = .ok (some result, next)) (again : result.startsOver = true) :
    Exists fun retryConfig => state.session.recipe.bind Recipe.retry = some retryConfig ∧
      attempts < retryConfig.maxRetries ∧
        (retryConfig.maxRetries < UInt32.size -> Counted false none (attempts + 1) next.session) := by
  simp only [StepResult.startsOver, Bool.and_eq_true, beq_iff_eq] at again
  rcases retry_reset_stored advanced again.1 again.2 with
    ⟨prompt, rest, turn, ⟨retryConfig, configured, within⟩, front, id, ends⟩
  have opened := (turn?_eq_some_iff_kickoff? _ _).mp ⟨rest, turn⟩
  have noted := (counted prompt opened).1
  rw [retryAttempts_cons, noted] at within ends
  refine ⟨retryConfig, configured, within, fun fits kickoff found => ⟨?_, fun isWatched => absurd isWatched (by decide)⟩⟩
  rcases ensureId_eq id (prompt.withNote retryOperationName attemptsNote (.number (.integer (attempts + 1)))) with
    ⟨given, same⟩
  rw [same] at ends
  have opens : isKickoff { prompt.withNote retryOperationName attemptsNote (.number (.integer (attempts + 1))) with
      id := given } = true := (kickoff?_mem opened).2
  rw [ends, kickoff?, List.filter_append, List.filter_cons_of_pos opens, List.filter_nil, List.getLast?_concat] at found
  cases found
  have read : notedAttempts { prompt.withNote retryOperationName attemptsNote (.number (.integer (attempts + 1))) with
      id := given } = (attempts + 1) % UInt32.size := by
    have note : (prompt.withNote retryOperationName attemptsNote
        (.number (.integer (attempts + 1)))).metadata.operationNote retryOperationName attemptsNote =
          some (.number (.integer (attempts + 1))) := operationNote_setOperationNote _ _ _ _
    change (((MessageMetadata.operationNote _ _ _).bind Json.asNat).getD 0) % _ = _
    rw [note]
    simp only [Option.bind_some, Json.asNat]
    rw [if_pos (by omega), Option.getD_some]
    congr 1
  rw [read, Nat.mod_eq_of_lt (by omega)]

/-! ## Runs -/

/-- A state with the attempts that were noted when the turn was opened, and how often it started
over since. -/
structure Retried where
  state : State
  noted : Nat
  resets : Nat

namespace Retried

/-- The attempts noted on the kickoff. -/
def attemptsOf (conversation : List Message) : Nat :=
  ((kickoff? conversation).map notedAttempts).getD 0

/-- Behind a step, a new kickoff starts from zero. -/
def behind (retried : Retried) (next : State) : Option StepResult -> Retried
  | none => { retried with state := next }
  | some result =>
      if result.startsOver then ⟨next, retried.noted, retried.resets + 1⟩
      else if opensTurn retried.state.session result.effects then ⟨next, attemptsOf next.session.conversation, 0⟩
      else { retried with state := next }

/-- The state after an event. -/
def occur (machine : Machine) (event : Event) (retried : Retried) : Except String Retried :=
  match event with
  | .step env => (advance machine env retried.state).map fun outcome => retried.behind outcome.2 outcome.1
  | event => (AIBuddy.occur machine event retried.state).map fun next =>
      if kickoffs retried.state.session.conversation < kickoffs next.session.conversation then
        ⟨next, attemptsOf next.session.conversation, 0⟩
      else { retried with state := next }

def run (machine : Machine) : List Event -> Retried -> Except String Retried :=
  Runs.run (Retried.occur machine)

/-- What is asked of a session before every step: the kickoff is alone with its id, and the
number of retries is a 32-bit number. -/
structure Countable (session : Session) : Prop where
  alone : KickoffAlone session.conversation
  fits : forall retryConfig, retryConfig ∈ session.recipe.bind Recipe.retry -> retryConfig.maxRetries < UInt32.size

instance (session : Session) : Decidable (Countable session) :=
  decidable_of_iff (KickoffAlone session.conversation ∧ forall retryConfig,
    retryConfig ∈ session.recipe.bind Recipe.retry -> retryConfig.maxRetries < UInt32.size)
    ⟨fun both => ⟨both.1, both.2⟩, fun countable => ⟨countable.alone, countable.fits⟩⟩

/-- Whether that holds before every step of a run. -/
def AlongSteps (machine : Machine) : List Event -> Retried -> Prop :=
  Runs.Along (Retried.occur machine) fun retried event =>
    match event with
    | .step _ => Countable retried.state.session
    | _ => True

instance (machine : Machine) (events : List Event) (start : Retried) : Decidable (AlongSteps machine events start) :=
  have (retried : Retried) (event : Event) : Decidable (match event with
      | .step _ => Countable retried.state.session
      | _ => True) :=
    match event with
    | .step _ => inferInstanceAs (Decidable (Countable retried.state.session))
    | .submit _ | .decide _ _ _ _ | .setMode _ _ => inferInstanceAs (Decidable True)
  Runs.decidableAlong _ events start

/-- The kickoff has a note of every time that the turn started over. -/
def Faithful (retried : Retried) : Prop :=
  Counted false none (retried.noted + retried.resets) retried.state.session

theorem faithful_opened (next : State) : Faithful ⟨next, attemptsOf next.session.conversation, 0⟩ := by
  intro kickoff opened
  refine ⟨?_, fun isWatched => absurd isWatched (by decide)⟩
  change _ = attemptsOf _ + 0
  rw [attemptsOf, opened]
  rfl

private theorem Faithful.occur {machine : Machine} {event : Event} {retried next : Retried} (faithful : retried.Faithful)
    (countable : match event with
      | .step _ => Countable retried.state.session
      | _ => True)
    (occurred : Retried.occur machine event retried = .ok next) : next.Faithful := by
  have added : forall (message : Message) (state : State),
      state.session = { retried.state.session with rows := addMessage retried.state.session.rows message } ->
        (if kickoffs retried.state.session.conversation < kickoffs state.session.conversation then
          (⟨state, attemptsOf state.session.conversation, 0⟩ : Retried)
        else { retried with state := state }).Faithful := by
    intro message state stored
    split
    · exact faithful_opened state
    · case _ noMore =>
        change Counted false none _ state.session
        rw [stored] at noMore ⊢
        exact Counted.append faithful message (Nat.not_lt.mp noMore)
  have kept : forall (state : State), state.session.rows = retried.state.session.rows ->
      (if kickoffs retried.state.session.conversation < kickoffs state.session.conversation then
        (⟨state, attemptsOf state.session.conversation, 0⟩ : Retried)
      else { retried with state := state }).Faithful := by
    intro state same
    have read : state.session.conversation = retried.state.session.conversation := by
      rw [Session.conversation, Session.conversation, same]
    rw [read, if_neg (Nat.lt_irrefl _)]
    intro kickoff opened
    exact ⟨(faithful kickoff (read ▸ opened)).1, fun isWatched => absurd isWatched (by decide)⟩
  cases event with
  | step env =>
      rcases (map_eq_ok_iff _ _ _).mp occurred with ⟨⟨result, state⟩, advanced, rfl⟩
      cases result with
      | none =>
          rcases (advance_eq_ok_iff _ _ _ _ _).mp advanced with ⟨_, persisted⟩
          have same : state.session = retried.state.session := (Except.ok.inj persisted).symm
          change Counted false none _ state.session
          rw [same]
          exact faithful
      | some result =>
          unfold behind
          simp only
          split
          · case _ again =>
              rcases Counted.startOver faithful advanced again with ⟨retryConfig, configured, _, counts⟩
              change Counted false none (retried.noted + (retried.resets + 1)) state.session
              rw [← Nat.add_assoc]
              exact counts (countable.fits retryConfig configured)
          · case _ goesOn =>
              split
              · exact faithful_opened state
              · case _ closed =>
                  exact Counted.advance countable.alone faithful advanced (Bool.eq_false_iff.mpr goesOn)
                    (Bool.eq_false_iff.mpr closed)
  | submit message =>
      simp only [Retried.occur, AIBuddy.occur, map_eq_ok_iff, Except.ok.injEq] at occurred
      rcases occurred with ⟨state, rfl, rfl⟩
      exact added message _ rfl
  | decide now messageId requestId permission =>
      simp only [Retried.occur, AIBuddy.occur, map_eq_ok_iff] at occurred
      rcases occurred with ⟨state, ⟨rows, persisted, rfl⟩, rfl⟩
      rcases persistToolConfirmationDecision_rows persisted with rfl | rfl
      · exact kept _ rfl
      · exact added (decisionMessage now messageId requestId permission) _ rfl
  | setMode agentMode sessionMode =>
      simp only [Retried.occur, AIBuddy.occur, map_eq_ok_iff, Except.ok.injEq] at occurred
      rcases occurred with ⟨state, rfl, rfl⟩
      exact kept _ rfl

end Retried

namespace RetryCountExample

/-- The prompt is a command, and an earlier message bears its id. -/
def start : Retried :=
  ⟨⟨⟨.auto, none, none⟩, ⟨"s", [((Message.user 0).withContent (.plainText "hi")).withId "m",
    ((Message.assistant 0).withContent (.plainText "hello")).withId "a",
    ((Message.user 0).withContent (.plainText "/deploy")).withId "m"], none, .auto, .null⟩⟩, 0, 0⟩

/-- The command runs a recipe that is retried once. -/
def deploying : StepEnv :=
  { RetryExample.failing [((Message.assistant 0).withContent (.plainText "done")).withId "b"] with
    recipeCommand := fun _ => .ok (some (⟨none, some ⟨1, none⟩⟩, "deploy it")) }

/-- A prompt of its own, after which the provider first finds the conversation too long. -/
def compacted : Retried :=
  ⟨RetryExample.start, 0, 0⟩

end RetryCountExample

end AIBuddy
