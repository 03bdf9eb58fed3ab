import AIBuddy.Agent.ContextOperations
import AIBuddy.Agent.Store
import AIBuddy.Support.Runs

namespace AIBuddy

open LastSuffix
open Runs

/-!
# What a compaction keeps

A compaction hides every message from the agent and appends what the agent goes
on with: the summary, the continuation, the texts of the last prompt, and the
turn context behind it.  The store dates messages by creation time, so they come
back in this order only if nothing was dated after the summary.
-/

/-! ## The parts of the result -/

/-- A message hidden from the agent. -/
def hiddenFromAgent (message : Message) : Message :=
  message.withMetadata { message.metadata with agentVisible := false }

/-- The summary as the agent sees it. -/
def summaryMessage (summary : Message) : Message :=
  { summary with role := .user, metadata := MessageMetadata.agentOnly }

/-- The last prompt with the messages behind it, unless the user compacts. -/
def promptSuffix (now : Int) (messages : List Message) (manualCompact : Bool) : Option (List Message) :=
  if manualCompact then none
  else suffixFromLast (fun message => (preservedText now message).isSome) messages

/-- How the agent is told to go on. -/
def continuationText (now : Int) (messages : List Message) (manualCompact : Bool) : String :=
  let suffix := promptSuffix now messages manualCompact
  if manualCompact then manualCompactContinuationText
  else if suffix.isSome && ((suffix.map List.tail).getD []).all fun message => message.metadata.turnContext then
    conversationContinuationText
  else toolLoopContinuationText

def continuationMessage (machine : Machine) (env : StepEnv) (text : String) : Message :=
  (assistantText machine env text).withMetadata MessageMetadata.agentOnly

/-- The texts of the last prompt as the agent saw them. -/
def preservedPrompt (now : Int) (messages : List Message) (manualCompact : Bool) : Option Message :=
  ((promptSuffix now messages manualCompact).bind List.head?).bind (preservedText now)

/-- The result without the turn context that is carried along. -/
def compactedBase (machine : Machine) (env : StepEnv) (messages : List Message) (manualCompact : Bool)
    (summary : Message) : List Message :=
  messages.map hiddenFromAgent ++
    [summaryMessage summary, continuationMessage machine env (continuationText env.now messages manualCompact)] ++
      (preservedPrompt env.now messages manualCompact).toList

/-- The turn context that is carried along. -/
def carriedContext (machine : Machine) (env : StepEnv) (messages : List Message) (manualCompact : Bool)
    (summary : Message) : Option Message :=
  carriedTurnContext (((promptSuffix env.now messages manualCompact).map List.tail).getD [])
    (compactedBase machine env messages manualCompact summary)

theorem mergeConsecutiveMessages_pair {first second : Message}
    (apart : effectiveRole first ≠ effectiveRole second) :
    (mergeConsecutiveMessages [first, second]).1 = [first, second] := by
  simp [mergeConsecutiveMessages, mergeConsecutive, mergeConsecutiveStep, mergesInto, apart]

theorem effectiveRole_summary_ne (machine : Machine) (env : StepEnv) (summary : Message) (text : String) :
    effectiveRole (summaryMessage summary) ≠ effectiveRole (continuationMessage machine env text) := by
  have assistant : effectiveRole (continuationMessage machine env text) = .assistant := rfl
  rw [assistant]
  unfold effectiveRole summaryMessage
  simp only [true_and]
  split <;> simp

theorem compactMessages_eq (machine : Machine) (env : StepEnv) (messages : List Message) (manualCompact : Bool) :
    compactMessages machine env messages manualCompact = env.summary.map fun summary =>
      compactedBase machine env messages manualCompact summary ++
        (carriedContext machine env messages manualCompact summary).toList := by
  unfold compactMessages
  cases summarized : env.summary with
  | error error => rfl
  | ok summary =>
      have apart := mergeConsecutiveMessages_pair
        (effectiveRole_summary_ne machine env summary (continuationText env.now messages manualCompact))
      let compacted := messages.map hiddenFromAgent ++ (mergeConsecutiveMessages [summaryMessage summary,
        continuationMessage machine env (continuationText env.now messages manualCompact)]).1 ++
          (preservedPrompt env.now messages manualCompact).toList
      have base : compacted = compactedBase machine env messages manualCompact summary := by
        simp only [compacted, apart, compactedBase]
      change Except.ok (compacted ++ (carriedTurnContext
        (((promptSuffix env.now messages manualCompact).map List.tail).getD []) compacted).toList) = _
      rw [base]
      rfl

theorem compactMessages_eq_ok_iff (machine : Machine) (env : StepEnv) (messages : List Message)
    (manualCompact : Bool) (compacted : List Message) :
    compactMessages machine env messages manualCompact = .ok compacted ↔
      Exists fun summary => env.summary = .ok summary ∧
        compacted = compactedBase machine env messages manualCompact summary ++
          (carriedContext machine env messages manualCompact summary).toList := by
  rw [compactMessages_eq, map_eq_ok_iff]
  constructor
  · rintro ⟨summary, summarized, same⟩
    exact ⟨summary, summarized, same.symm⟩
  · rintro ⟨summary, summarized, same⟩
    exact ⟨summary, summarized, same.symm⟩

/-! ## What the agent goes on with -/

/-- A message of the user whose texts the agent saw, without tool content and
not a turn context. -/
def IsPrompt (message : Message) : Prop :=
  message.isAgentVisible = true ∧ message.metadata.turnContext = false ∧ message.role = .user ∧
    hasTextOnly message.agentVisibleContent = true

/-- A turn context that the agent saw. -/
def IsVisibleContext (message : Message) : Prop :=
  message.metadata.turnContext = true ∧ message.isAgentVisible = true

/-- The texts of a prompt as a message for the agent alone. -/
def promptCopy (now : Int) (prompt : Message) : Message :=
  { Message.user now with
    content := prompt.agentVisibleContent.content.filter fun block => block.asText.isSome
    metadata := MessageMetadata.agentOnly }

/-- What the agent keeps of a conversation besides its summary: nothing when the
user compacts or nothing is a prompt, else the last prompt, and behind it a copy
of the last turn context that follows the prompt. -/
inductive Retains (now : Int) (messages : List Message) : Bool -> List Message -> Prop where
  | manual : Retains now messages true []
  | nothing (noPrompt : forall message, message ∈ messages -> ¬ IsPrompt message) : Retains now messages false []
  | prompt (before : List Message) (prompt : Message) (after : List Message)
      (split : messages = before ++ prompt :: after) (isPrompt : IsPrompt prompt)
      (last : forall message, message ∈ after -> ¬ IsPrompt message)
      (noContext : forall message, message ∈ after -> ¬ IsVisibleContext message) :
      Retains now messages false [promptCopy now prompt]
  | context (before : List Message) (prompt : Message) (middle : List Message) (context : Message)
      (late : List Message) (created : Int)
      (split : messages = before ++ prompt :: (middle ++ context :: late)) (isPrompt : IsPrompt prompt)
      (last : forall message, message ∈ middle ++ context :: late -> ¬ IsPrompt message)
      (isContext : IsVisibleContext context)
      (lastContext : forall message, message ∈ late -> ¬ IsVisibleContext message)
      (notEarlier : context.created ≤ created) :
      Retains now messages false [promptCopy now prompt, { context with id := none, created := created }]

theorem preservedText_isSome_iff (now : Int) (message : Message) :
    (preservedText now message).isSome = true ↔ IsPrompt message := by
  unfold preservedText IsPrompt
  cases texts : hasTextOnly message.agentVisibleContent <;>
    cases message.isAgentVisible <;> cases message.metadata.turnContext <;> cases message.role <;> simp [texts]

theorem preservedText_of_isPrompt {message : Message} (isPrompt : IsPrompt message) (now : Int) :
    preservedText now message = some (promptCopy now message) := by
  rcases isPrompt with ⟨visible, notContext, user, texts⟩
  simp [preservedText, promptCopy, visible, notContext, user, texts]

private theorem find?_context_eq_some_iff (after : List Message) (context : Message) :
    (after.reverse.find? fun message => message.metadata.turnContext && message.isAgentVisible) = some context ↔
      IsVisibleContext context ∧ Exists fun middle => Exists fun late =>
        after = middle ++ context :: late ∧ forall message, message ∈ late -> ¬ IsVisibleContext message := by
  rw [List.find?_eq_some_iff_append]
  simp only [Bool.and_eq_true, Bool.not_eq_true', List.reverse_eq_iff, List.reverse_append,
    List.reverse_cons, List.append_assoc, List.singleton_append]
  constructor
  · rintro ⟨isContext, late, middle, split, none⟩
    refine ⟨isContext, middle.reverse, late.reverse, split, fun message member visible => ?_⟩
    have unseen := none message (List.mem_reverse.mp member)
    simp [visible.1, visible.2] at unseen
  · rintro ⟨isContext, middle, late, split, none⟩
    refine ⟨isContext, late.reverse, middle.reverse, by simpa using split, fun message member => ?_⟩
    have unseen := none message (List.mem_reverse.mp member)
    unfold IsVisibleContext at unseen
    cases turnContext : message.metadata.turnContext <;> cases visible : message.isAgentVisible <;>
      simp_all

theorem retains_preserved (machine : Machine) (env : StepEnv) (messages : List Message) (manualCompact : Bool)
    (summary : Message) :
    Retains env.now messages manualCompact
      ((preservedPrompt env.now messages manualCompact).toList ++
        (carriedContext machine env messages manualCompact summary).toList) := by
  cases manualCompact with
  | true => exact .manual
  | false =>
      cases suffix : suffixFromLast (fun message => (preservedText env.now message).isSome) messages with
      | none =>
          have noPrompt : forall message, message ∈ messages -> ¬ IsPrompt message := by
            intro message member isPrompt
            have unmatched := (suffixFromLast_eq_none_iff _ messages).mp suffix message member
            rw [(preservedText_isSome_iff env.now message).mpr isPrompt] at unmatched
            contradiction
          have nothingKept : preservedPrompt env.now messages false = none ∧
              carriedContext machine env messages false summary = none := by
            simp [preservedPrompt, carriedContext, promptSuffix, suffix, carriedTurnContext]
          rw [nothingKept.1, nothingKept.2]
          exact .nothing noPrompt
      | some found =>
          rcases (suffixFromLast_eq_some_iff _ messages found).mp suffix with
            ⟨before, prompt, after, whole, rfl, matched, unmatched⟩
          have isPrompt := (preservedText_isSome_iff env.now prompt).mp matched
          have last : forall message, message ∈ after -> ¬ IsPrompt message := by
            intro message member isPrompt
            have noMatch := unmatched message member
            rw [(preservedText_isSome_iff env.now message).mpr isPrompt] at noMatch
            contradiction
          have kept : preservedPrompt env.now messages false = some (promptCopy env.now prompt) := by
            simp [preservedPrompt, promptSuffix, suffix, preservedText_of_isPrompt isPrompt]
          have carried : carriedContext machine env messages false summary =
              carriedTurnContext after (compactedBase machine env messages false summary) := by
            simp [carriedContext, promptSuffix, suffix]
          rw [kept, carried]
          unfold carriedTurnContext
          cases found : after.reverse.find? fun message => message.metadata.turnContext && message.isAgentVisible with
          | none =>
              refine .prompt before prompt after whole isPrompt last fun message member visible => ?_
              have unseen := List.find?_eq_none.mp found message (List.mem_reverse.mpr member)
              simp [visible.1, visible.2] at unseen
          | some context =>
              rcases (find?_context_eq_some_iff after context).mp found with
                ⟨isContext, middle, late, split, lastContext⟩
              subst split
              exact .context before prompt middle context late _ whole isPrompt last isContext lastContext
                (le_max_left _ _)

theorem Retains.visible {now : Int} {messages retained : List Message} {manualCompact : Bool}
    (retains : Retains now messages manualCompact retained) {message : Message} (member : message ∈ retained) :
    message.isAgentVisible = true := by
  cases retains with
  | manual => contradiction
  | nothing noPrompt => contradiction
  | prompt before prompt after split isPrompt last noContext =>
      rw [List.mem_singleton.mp member]
      rfl
  | context before prompt middle context late created split isPrompt last isContext lastContext notEarlier =>
      rcases List.mem_cons.mp member with rfl | second
      · rfl
      · rw [List.mem_singleton.mp second]
        exact isContext.2

theorem promptCopy_forAgent (now : Int) (prompt : Message) {block : MessageContentBlock}
    (member : block ∈ (promptCopy now prompt).content) :
    block.filterForAudience .assistant = some block := by
  rcases List.mem_filter.mp member with ⟨projected, isText⟩
  rcases List.mem_filterMap.mp projected with ⟨original, _, filtered⟩
  cases original with
  | text content =>
      simp only [MessageContentBlock.filterForAudience] at filtered
      split at filtered
      · case _ admitted =>
          cases filtered
          simp [MessageContentBlock.filterForAudience, admitted]
      · contradiction
  | toolResponse response =>
      simp only [MessageContentBlock.filterForAudience] at filtered
      split at filtered <;> cases filtered <;> contradiction
  | _ =>
      simp only [MessageContentBlock.filterForAudience] at filtered
      first
      | (split at filtered <;> cases filtered <;> contradiction)
      | (cases filtered; contradiction)

theorem Retains.notForAgent {now : Int} {messages retained : List Message} {manualCompact : Bool}
    (retains : Retains now messages manualCompact retained) {message : Message} (member : message ∈ retained)
    {block : MessageContentBlock} (inside : block ∈ message.content)
    (secret : block.filterForAudience .assistant = none) :
    Exists fun original => original ∈ messages ∧ IsVisibleContext original ∧ message.content = original.content := by
  have notCopied : forall prompt, message ≠ promptCopy now prompt := by
    rintro prompt rfl
    rw [promptCopy_forAgent now prompt inside] at secret
    contradiction
  cases retains with
  | manual => contradiction
  | nothing noPrompt => contradiction
  | prompt before prompt after split isPrompt last noContext =>
      exact absurd (List.mem_singleton.mp member) (notCopied prompt)
  | context before prompt middle context late created split isPrompt last isContext lastContext notEarlier =>
      rcases List.mem_cons.mp member with first | second
      · exact absurd first (notCopied prompt)
      · refine ⟨context, by simp [split], isContext, ?_⟩
        rw [List.mem_singleton.mp second]

/-- A compaction keeps every message and its visibility to the user and hides it
from the agent, which goes on with the summary, the continuation and what it
retains of the conversation. -/
theorem compactMessages_result (machine : Machine) (env : StepEnv) (messages : List Message)
    (manualCompact : Bool) (compacted : List Message)
    (succeeded : compactMessages machine env messages manualCompact = .ok compacted) :
    Exists fun summary => Exists fun retained =>
      env.summary = .ok summary ∧ Retains env.now messages manualCompact retained ∧
        compacted = messages.map hiddenFromAgent ++
          (summaryMessage summary ::
            continuationMessage machine env (continuationText env.now messages manualCompact) :: retained) ∧
        compacted.filter Message.isAgentVisible =
          summaryMessage summary ::
            continuationMessage machine env (continuationText env.now messages manualCompact) :: retained ∧
        forall message block, message ∈ retained -> block ∈ message.content ->
          block.filterForAudience .assistant = none ->
            Exists fun original => original ∈ messages ∧ IsVisibleContext original ∧
              message.content = original.content := by
  rcases (compactMessages_eq_ok_iff machine env messages manualCompact compacted).mp succeeded with
    ⟨summary, summarized, rfl⟩
  have retains := retains_preserved machine env messages manualCompact summary
  refine ⟨summary, _, summarized, retains, ?_, ?_, fun message block member inside =>
    retains.notForAgent member inside⟩
  · simp [compactedBase]
  · have hidden : (messages.map hiddenFromAgent).filter Message.isAgentVisible = [] := by
      apply List.filter_eq_nil_iff.mpr
      intro message member
      rcases List.mem_map.mp member with ⟨original, _, rfl⟩
      exact Bool.false_ne_true
    have kept : ((preservedPrompt env.now messages manualCompact).toList ++
        (carriedContext machine env messages manualCompact summary).toList).filter Message.isAgentVisible =
          (preservedPrompt env.now messages manualCompact).toList ++
            (carriedContext machine env messages manualCompact summary).toList := by
      apply List.filter_eq_self.mpr
      intro message member
      exact retains.visible member
    have shown : [summaryMessage summary, continuationMessage machine env
        (continuationText env.now messages manualCompact)].filter Message.isAgentVisible =
          [summaryMessage summary, continuationMessage machine env
            (continuationText env.now messages manualCompact)] := rfl
    rw [compactedBase, List.append_assoc, List.append_assoc, List.filter_append, hidden, List.filter_append,
      shown, kept]
    rfl

/-- A prompt that consists of a picture, and the context of its turn. -/
def picturePrompt : List Message :=
  [(Message.user 0).withContent (.image ⟨"data", "image/png", none⟩),
    ((Message.user 0).withContent (.plainText "context")).withMetadata
      { MessageMetadata.agentOnly with turnContext := true }]

/-- The context of a turn whose prompt has no text is not carried along. -/
theorem compactMessages_drops_context :
    turn? picturePrompt = some picturePrompt ∧
      (Exists fun context => context ∈ picturePrompt ∧ IsVisibleContext context) ∧
      (compactMessages Machine.plain StepEnv.still picturePrompt false).toOption.map
        (fun compacted => (compacted.filter Message.isAgentVisible).map fun message =>
          message.metadata.turnContext) = some [false, false] := by
  refine ⟨by decide, ⟨picturePrompt[1], by simp [picturePrompt], rfl, rfl⟩, by decide⟩

/-- The compaction of a single prompt. -/
theorem compactMessages_result_hi :
    Exists fun retained => Retains 0 [userText Machine.plain StepEnv.still "hi"] false retained ∧
      (compactMessages Machine.plain StepEnv.still [userText Machine.plain StepEnv.still "hi"] false).toOption.map
        (fun compacted => compacted.filter Message.isAgentVisible) =
          some (summaryMessage (Message.assistant 0) :: continuationMessage Machine.plain StepEnv.still
            (continuationText 0 [userText Machine.plain StepEnv.still "hi"] false) :: retained) := by
  have succeeded := compactMessages_eq Machine.plain StepEnv.still [userText Machine.plain StepEnv.still "hi"] false
  rcases compactMessages_result Machine.plain StepEnv.still _ false _ succeeded with
    ⟨summary, retained, summarized, retains, _, visible, _⟩
  cases summarized
  rw [succeeded]
  exact ⟨retained, retains, congrArg some visible⟩

/-! ## Reloading a compaction -/

/-- A conversation with the ids that its messages get when it is stored. -/
def identified (replacedId : Nat -> String) (messages : List Message) : List Message :=
  messages.zipIdx.map fun entry => ensureId (replacedId entry.2) entry.1

theorem chronological_iff_dates (messages : List Message) :
    Chronological messages ↔ (messages.map Message.created).Pairwise (· ≤ ·) :=
  List.pairwise_map.symm

theorem ensureId_eq (id : String) (message : Message) :
    Exists fun given => ensureId id message = { message with id := given } := by
  unfold ensureId
  split
  · exact ⟨message.id, rfl⟩
  · exact ⟨some id, rfl⟩

theorem identified_append (replacedId : Nat -> String) (front back : List Message) :
    Exists fun rest => identified replacedId (front ++ back) = identified replacedId front ++ rest :=
  ⟨_, by rw [identified, List.zipIdx_append, List.map_append]; rfl⟩

/-- Identifying changes nothing but ids. -/
theorem identified_forall₂ (replacedId : Nat -> String) (messages : List Message) :
    List.Forall₂ (fun message stored => Exists fun given => stored = { message with id := given }) messages
      (identified replacedId messages) := by
  apply List.forall₂_iff_get.mpr
  refine ⟨by simp [identified], fun position first second => ?_⟩
  simp only [identified, List.get_eq_getElem, List.getElem_map, List.getElem_zipIdx, Nat.zero_add]
  exact ensureId_eq _ _

theorem ensureId_created (id : String) (message : Message) : (ensureId id message).created = message.created := by
  unfold ensureId
  split <;> rfl

theorem chronological_identified (replacedId : Nat -> String) (messages : List Message) :
    Chronological (identified replacedId messages) ↔ Chronological messages := by
  have dates : (identified replacedId messages).map Message.created = messages.map Message.created := by
    apply List.ext_getElem
    · simp [identified]
    · intro position first second
      simp [identified, ensureId_created]
  rw [chronological_iff_dates, chronological_iff_dates, dates]

/-- What is carried along is dated last. -/
theorem carriedTurnContext_youngest {after compacted : List Message} {context : Message}
    (carried : carriedTurnContext after compacted = some context) {message : Message}
    (member : message ∈ compacted) : message.created ≤ context.created := by
  unfold carriedTurnContext at carried
  rcases Option.map_eq_some_iff.mp carried with ⟨original, _, rfl⟩
  exact datedAfter_youngest original member

theorem chronological_append_carried (after compacted : List Message) :
    Chronological (compacted ++ (carriedTurnContext after compacted).toList) ↔ Chronological compacted := by
  unfold Chronological
  rw [List.pairwise_append]
  constructor
  · intro ordered
    exact ordered.1
  · intro ordered
    refine ⟨ordered, ?_, fun message member context isCarried => ?_⟩
    · cases carriedTurnContext after compacted <;> simp
    · exact carriedTurnContext_youngest (Option.mem_toList.mp isCarried) member

theorem chronological_compactedBase (machine : Machine) (env : StepEnv) (messages : List Message)
    (manualCompact : Bool) (summary : Message) :
    Chronological (compactedBase machine env messages manualCompact summary) ↔
      Chronological messages ∧ (forall message, message ∈ messages -> message.created ≤ summary.created) ∧
        summary.created ≤ env.now := by
  have now : forall message, message ∈ (preservedPrompt env.now messages manualCompact).toList ->
      message.created = env.now := by
    intro message member
    rcases Option.bind_eq_some_iff.mp (Option.mem_toList.mp member) with ⟨prompt, _, preserved⟩
    have isPrompt := (preservedText_isSome_iff env.now prompt).mp (by rw [preserved]; rfl)
    rw [preservedText_of_isPrompt isPrompt] at preserved
    cases preserved
    rfl
  have originals : Chronological (messages.map hiddenFromAgent) ↔ Chronological messages := List.pairwise_map
  have appended : compactedBase machine env messages manualCompact summary =
      messages.map hiddenFromAgent ++ (summaryMessage summary ::
        continuationMessage machine env (continuationText env.now messages manualCompact) ::
          (preservedPrompt env.now messages manualCompact).toList) := by
    simp [compactedBase]
  unfold Chronological at originals ⊢
  rw [appended, List.pairwise_append, originals]
  constructor
  · rintro ⟨ordered, kept, across⟩
    refine ⟨ordered, fun message member => ?_, ?_⟩
    · exact across (hiddenFromAgent message) (List.mem_map_of_mem member) (summaryMessage summary)
        (List.mem_cons_self ..)
    · exact (List.pairwise_cons.mp kept).1 (continuationMessage machine env _) (List.mem_cons_self ..)
  · rintro ⟨ordered, notAfter, onTime⟩
    refine ⟨ordered, ?_, ?_⟩
    · apply List.pairwise_cons.mpr
      refine ⟨fun message member => ?_, List.pairwise_cons.mpr ⟨fun message member => ?_, ?_⟩⟩
      · rcases List.mem_cons.mp member with rfl | preserved
        · exact onTime
        · exact le_of_le_of_eq onTime (now message preserved).symm
      · exact le_of_eq (now message member).symm
      · cases preservedPrompt env.now messages manualCompact <;> simp
    · intro hidden isHidden message member
      rcases List.mem_map.mp isHidden with ⟨original, inMessages, rfl⟩
      have first : original.created ≤ summary.created := notAfter original inMessages
      rcases List.mem_cons.mp member with rfl | later
      · exact first
      rcases List.mem_cons.mp later with rfl | preserved
      · exact le_trans first onTime
      · exact le_trans first (le_of_le_of_eq onTime (now message preserved).symm)

/-- A stored compaction is read back in the order in which it was produced
exactly when its messages were dated in order, none of them after the summary,
and the summary not after the continuation. -/
theorem compactMessages_reload_iff (machine : Machine) (env : StepEnv) (session : Session)
    (messages : List Message) (manualCompact : Bool) (compacted : List Message) (appendedId : String)
    (replacedId : Nat -> String)
    (succeeded : compactMessages machine env messages manualCompact = .ok compacted) :
    (applyEffect session (ensureMessageIds appendedId replacedId (.replaceConversation compacted))).map
        Session.conversation = .ok (identified replacedId compacted) ↔
      Chronological messages ∧ forall summary, env.summary = .ok summary ->
        (forall message, message ∈ messages -> message.created ≤ summary.created) ∧
          summary.created ≤ env.now := by
  rcases (compactMessages_eq_ok_iff machine env messages manualCompact compacted).mp succeeded with
    ⟨summary, summarized, rfl⟩
  have reloaded : (applyEffect session (ensureMessageIds appendedId replacedId (.replaceConversation
      (compactedBase machine env messages manualCompact summary ++
        (carriedContext machine env messages manualCompact summary).toList)))).map Session.conversation =
      .ok (getConversation (identified replacedId (compactedBase machine env messages manualCompact summary ++
        (carriedContext machine env messages manualCompact summary).toList))) := rfl
  rw [reloaded, Except.ok.injEq, getConversation_eq_self_iff, chronological_identified]
  unfold carriedContext
  rw [chronological_append_carried, chronological_compactedBase, summarized]
  constructor
  · rintro ⟨ordered, bounds⟩
    refine ⟨ordered, fun other same => ?_⟩
    cases same
    exact bounds
  · rintro ⟨ordered, bounds⟩
    exact ⟨ordered, bounds summary rfl⟩

/-- A prompt dated ahead of the clock. -/
def earlyPrompt : Message :=
  { (Message.user 5).withContent (.plainText "hi") with id := some "k" }

/-- After a reload, the prompt dated ahead of the clock stands behind the
messages that were to be last. -/
theorem compactMessages_reload_reorders :
    (compactMessages Machine.plain StepEnv.still [earlyPrompt] false).toOption.map (fun compacted =>
      (compacted.map Message.isAgentVisible,
        (applyEffect ⟨"s", [earlyPrompt], none, .auto, .null⟩
          (ensureMessageIds "m" (fun position => toString position) (.replaceConversation compacted))).toOption.map
            fun next => next.conversation.map Message.isAgentVisible)) =
      some ([false, true, true, true], some [true, true, true, false]) := by decide

/-- A prompt dated on time is reloaded in its place. -/
theorem compactMessages_reload_on_time :
    (applyEffect ⟨"s", picturePrompt, none, .auto, .null⟩
      (ensureMessageIds "m" (fun position => toString position)
        (.replaceConversation (compactedBase Machine.plain StepEnv.still picturePrompt false (Message.assistant 0) ++
          (carriedContext Machine.plain StepEnv.still picturePrompt false (Message.assistant 0)).toList)))).map
      Session.conversation =
    .ok (identified (fun position => toString position)
      (compactedBase Machine.plain StepEnv.still picturePrompt false (Message.assistant 0) ++
        (carriedContext Machine.plain StepEnv.still picturePrompt false (Message.assistant 0)).toList)) := by
  apply (compactMessages_reload_iff Machine.plain StepEnv.still ⟨"s", picturePrompt, none, .auto, .null⟩
    picturePrompt false _ "m" (fun position => toString position)
    (compactMessages_eq Machine.plain StepEnv.still picturePrompt false)).mpr
  refine ⟨by decide, fun summary summarized => ?_⟩
  cases summarized
  exact ⟨by decide, by decide⟩

end AIBuddy
