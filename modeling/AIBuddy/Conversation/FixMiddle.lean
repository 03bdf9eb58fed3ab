import AIBuddy.Conversation.FixRuns

namespace AIBuddy

open CallEvent CallLedger

/-!
# The middle of a repaired conversation

What the repair shows the agent, when its ends settle, is what it makes of the
messages between the two runs of assistant messages.  This middle is described
from the surviving messages alone: the calls in it, the runs of assistant
messages inside it, and what is true of it whatever the input was.
-/

/-! ## Deduplication of a sequence of messages -/

theorem foldl_remember_messageSigned (seen : List MessageContentBlock) (message : Message) :
    (messageSigned message).foldl remember seen =
      if message.role = .assistant then (dedupeContent seen message.content).2 else seen := by
  rw [messageSigned]
  split
  · rw [dedupeContent_remembers, foldl_remember_filter seen message.content]
  · rfl

theorem dedupeFrom_cons (seen : List MessageContentBlock) (message : Message) (rest : List Message) :
    (dedupeFrom seen (message :: rest)).1 =
      (if message.role = .assistant then { message with content := (dedupeContent seen message.content).1 }
        else message) :: (dedupeFrom ((messageSigned message).foldl remember seen) rest).1 := by
  rw [dedupeFrom, foldl_remember_messageSigned]
  cases role : message.role with
  | user => rfl
  | assistant =>
      simp only [if_true]
      split
      · rename_i full
        rw [dedupeContent_of_length full]
        simp [← role]
      · simp [← role]

theorem dedupeFrom_append (seen : List MessageContentBlock) (front back : List Message) :
    (dedupeFrom seen (front ++ back)).1 =
      (dedupeFrom seen front).1 ++ (dedupeFrom ((signedBlocks front).foldl remember seen) back).1 := by
  induction front generalizing seen with
  | nil => rfl
  | cons message rest ih =>
      have split : signedBlocks (message :: rest) = messageSigned message ++ signedBlocks rest := rfl
      rw [List.cons_append, dedupeFrom_cons, dedupeFrom_cons, ih, split, List.foldl_append]
      rfl

theorem dedupeFrom_length (seen : List MessageContentBlock) (messages : List Message) :
    (dedupeFrom seen messages).1.length = messages.length := by
  simpa using congrArg List.length (dedupeFrom_headers seen messages)

theorem dedupeFrom_cut {seen : List MessageContentBlock} {messages front back : List Message}
    (cut : (dedupeFrom seen messages).1 = front ++ back) :
    Exists fun left => Exists fun right => messages = left ++ right ∧ (dedupeFrom seen left).1 = front ∧
      (dedupeFrom ((signedBlocks left).foldl remember seen) right).1 = back := by
  refine ⟨messages.take front.length, messages.drop front.length, (List.take_append_drop _ _).symm, ?_⟩
  have lengths := congrArg List.length cut
  rw [dedupeFrom_length, List.length_append] at lengths
  rw [← List.take_append_drop front.length messages, dedupeFrom_append] at cut
  refine List.append_inj cut ?_
  rw [dedupeFrom_length, List.length_take]
  omega

theorem signedBlocks_append (front back : List Message) :
    signedBlocks (front ++ back) = signedBlocks front ++ signedBlocks back :=
  List.flatMap_append

theorem signedBlocks_collect (messages : List Message) :
    signedBlocks (messageJoining.collect messages) = signedBlocks messages := by
  apply messageJoining.flatMap_collect
  intro first second joined
  have sameRole := role_eq_of_joins joined
  cases role : first.role <;> rw [role] at sameRole <;>
    simp [messageSigned, messageJoining, appendContent, role, ← sameRole]

theorem dedupeFrom_fresh (seen : List MessageContentBlock) (messages : List Message) :
    Fresh seen (signedBlocks (dedupeFrom seen messages).1) := by
  induction messages generalizing seen with
  | nil => simp [dedupeFrom, signedBlocks, Fresh]
  | cons message rest ih =>
      have split : forall (first : Message) later, signedBlocks (first :: later) =
          messageSigned first ++ signedBlocks later := fun _ _ => rfl
      have tail := ih ((messageSigned message).foldl remember seen)
      rw [dedupeFrom_cons, split, fresh_append_iff, foldl_remember_messageSigned]
      rw [foldl_remember_messageSigned] at tail
      cases role : message.role with
      | user =>
          simp only [role, reduceCtorEq, if_false] at tail
          simpa [messageSigned, role, Fresh] using tail
      | assistant =>
          simp only [role, if_true, dedupeContent_seen] at tail
          simpa [messageSigned, dedupeContent_seen] using ⟨dedupeContent_fresh seen message.content, tail⟩

/-! ## Runs inside a conversation -/

/-- A longest run of assistant messages of one visibility that is at neither end. -/
structure InnerRun (messages before run after : List Message) : Prop where
  split : messages = before ++ run ++ after
  assistants : AssistantRun run
  filled : run ≠ []
  notFirst : before ≠ []
  notLast : after ≠ []
  startsHere : forall last, last ∈ before.getLast? -> ¬ AssistantRun (last :: run)
  endsHere : forall next, next ∈ after.head? -> ¬ AssistantRun (next :: run)

theorem SameHeaders.innerRun {α : Type} {left right : α -> Message} (same : SameHeaders left right)
    {items before run after : List α}
    (inner : InnerRun (items.map left) (before.map left) (run.map left) (after.map left))
    (split : items = before ++ run ++ after) :
    InnerRun (items.map right) (before.map right) (run.map right) (after.map right) := by
  have longer : forall item, ¬ AssistantRun (left item :: run.map left) ->
      ¬ AssistantRun (right item :: run.map right) := by
    intro item maximal extended
    have shorter : AssistantRun ((item :: run).map left) := same.symm.assistantRun extended
    exact maximal shorter
  refine ⟨by simp [split], same.assistantRun inner.assistants, ?_, ?_, ?_, ?_, ?_⟩
  · simpa using inner.filled
  · simpa using inner.notFirst
  · simpa using inner.notLast
  · intro last member
    rw [List.getLast?_map, Option.mem_map] at member
    rcases member with ⟨item, itemEq, rfl⟩
    exact longer item (inner.startsHere _ (by rw [List.getLast?_map, itemEq]; rfl))
  · intro next member
    rw [List.head?_map, Option.mem_map] at member
    rcases member with ⟨item, itemEq, rfl⟩
    exact longer item (inner.endsHere _ (by rw [List.head?_map, itemEq]; rfl))

theorem assistantRun_cons_iff {run : List Message} (assistants : AssistantRun run) {inside : Message}
    (member : inside ∈ run) (other : Message) :
    AssistantRun (other :: run) ↔ messageJoining.key other = messageJoining.key inside := by
  constructor
  · intro extended
    exact key_eq_of_run extended List.mem_cons_self (List.mem_cons_of_mem other member)
  · intro same
    rw [assistantRun_iff, messageJoining.collect_length_le_one_iff messageJoining_total]
    have keyed : forall message, message ∈ other :: run -> messageJoining.key message = messageJoining.key inside := by
      intro message position
      rcases List.mem_cons.mp position with rfl | later
      · exact same
      · exact key_eq_of_run assistants later member
    refine ⟨fun first firstMember second secondMember => ?_, fun message position => ?_⟩
    · rw [keyed first firstMember, keyed second secondMember]
    · rcases messageJoining.key_of_mem_collect _ message position with ⟨source, sourceMember, sameKey⟩
      rw [← role_eq_of_key sameKey, role_eq_of_key (keyed source sourceMember)]
      exact assistants.1 inside member

theorem collect_run {run : List Message} (assistants : AssistantRun run) (filled : run ≠ []) :
    Exists fun merged => messageJoining.collect run = [merged] ∧ merged.role = .assistant ∧
      merged.content = run.flatMap Message.content := by
  rcases (assistantRun_iff run).mp assistants with ⟨short, roles⟩
  have flat : (messageJoining.collect run).flatMap Message.content = run.flatMap Message.content :=
    messageJoining.flatMap_collect Message.content (fun _ _ _ => rfl) run
  cases collected : messageJoining.collect run with
  | nil => exact absurd ((collect_eq_nil_iff run).mp collected) filled
  | cons merged others =>
      have none : others = [] := List.length_eq_zero_iff.mp (by simpa [collected] using short)
      subst none
      rw [collected] at flat
      exact ⟨merged, rfl, roles merged (by simp [collected]), by simpa using flat⟩

theorem collect_inner_iff (messages front back : List Message) (merged : Message) :
    (messageJoining.collect messages = front ++ merged :: back ∧ front ≠ [] ∧ back ≠ [] ∧
        merged.role = .assistant) ↔
      Exists fun before => Exists fun run => Exists fun after => InnerRun messages before run after ∧
        messageJoining.collect before = front ∧ messageJoining.collect run = [merged] ∧
          messageJoining.collect after = back := by
  constructor
  · rintro ⟨collected, notFirst, notLast, role⟩
    rcases messageJoining.collect_cut collected with ⟨before, rest, rfl, beforeEq, restEq⟩
    have restCut : messageJoining.collect rest = [merged] ++ back := restEq
    rcases messageJoining.collect_cut restCut with ⟨run, after, rfl, runEq, afterEq⟩
    have assistants : AssistantRun run := (assistantRun_iff run).mpr (by simpa [runEq] using role)
    have filled : run ≠ [] := by
      rintro rfl
      exact absurd runEq (by simp [Joining.collect])
    have compact := messageJoining.collect_compact (before ++ (run ++ after))
    rw [collected] at compact
    have mergedKey : forall inside, inside ∈ run -> messageJoining.key inside = messageJoining.key merged := by
      intro inside member
      rcases messageJoining.key_of_mem member with ⟨kept, keptMember, same⟩
      rw [runEq, List.mem_singleton] at keptMember
      rw [← same, keptMember]
    rcases List.exists_mem_of_ne_nil run filled with ⟨inside, member⟩
    refine ⟨before, run, after, ⟨by simp, assistants, filled, ?_, ?_, ?_, ?_⟩, beforeEq, runEq, afterEq⟩
    · rintro rfl
      exact notFirst beforeEq.symm
    · rintro rfl
      exact notLast afterEq.symm
    · intro last lastMember extended
      have same := (assistantRun_cons_iff assistants member last).mp extended
      have lastKey := (messageJoining.collect_ends before).2
      rw [beforeEq, lastMember] at lastKey
      rcases Option.map_eq_some_iff.mp lastKey with ⟨kept, keptEq, keptKey⟩
      rcases List.getLast?_eq_some_iff.mp keptEq with ⟨others, rfl⟩
      rw [Joining.Compact, List.append_assoc] at compact
      have apart := (List.isChain_append.mp compact).2.1
      rw [List.singleton_append, List.isChain_cons_cons, joins_eq_false_iff] at apart
      exact apart.1 (by rw [keptKey, same, mergedKey inside member])
    · intro next nextMember extended
      have same := (assistantRun_cons_iff assistants member next).mp extended
      have headKey := (messageJoining.collect_ends after).1
      rw [afterEq, nextMember] at headKey
      rcases Option.map_eq_some_iff.mp headKey with ⟨kept, keptEq, keptKey⟩
      rcases List.head?_eq_some_iff.mp keptEq with ⟨others, rfl⟩
      rw [Joining.Compact] at compact
      have apart := (List.isChain_append.mp compact).2.1
      rw [List.isChain_cons_cons, joins_eq_false_iff] at apart
      exact apart.1 (by rw [keptKey, same, mergedKey inside member])
  · rintro ⟨before, run, after, inner, rfl, runEq, rfl⟩
    rcases List.exists_mem_of_ne_nil run inner.filled with ⟨inside, member⟩
    have role : merged.role = .assistant := ((assistantRun_iff run).mp inner.assistants).2 merged (by simp [runEq])
    have keyed : forall other, other ∈ run -> messageJoining.key other = messageJoining.key inside :=
      fun other otherMember => key_eq_of_run inner.assistants otherMember member
    have split : messageJoining.collect messages =
        messageJoining.collect before ++ messageJoining.collect run ++ messageJoining.collect after := by
      rw [inner.split, messageJoining.collect_append (before ++ run) after,
        messageJoining.collect_append before run]
      · intro last lastMember next nextMember
        rw [joins_eq_false_iff, keyed next (List.mem_of_head? nextMember)]
        exact fun same => inner.startsHere last lastMember ((assistantRun_cons_iff inner.assistants member last).mpr same)
      · intro last lastMember next nextMember
        have inRun : last ∈ run := by
          rw [List.getLast?_append] at lastMember
          cases ends : run.getLast? with
          | none => exact absurd (List.getLast?_eq_none_iff.mp ends) inner.filled
          | some other =>
              rw [ends] at lastMember
              rw [← Option.some.inj lastMember]
              exact List.mem_of_getLast? ends
        rw [joins_eq_false_iff, keyed last inRun]
        exact fun same => inner.endsHere next nextMember
          ((assistantRun_cons_iff inner.assistants member next).mpr same.symm)
    refine ⟨by rw [split, runEq]; simp, ?_, ?_, role⟩
    · exact fun empty => inner.notFirst ((collect_eq_nil_iff before).mp empty)
    · exact fun empty => inner.notLast ((collect_eq_nil_iff after).mp empty)

/-- What merging and deduplication leave of a run, given the messages before it. -/
def runContent (before run : List Message) : List MessageContentBlock :=
  (dedupeContent ((signedBlocks before).foldl remember []) (run.flatMap Message.content)).1

theorem forall_inner_iff (holds : List MessageContentBlock -> Prop) (messages : List Message) :
    (forall front shown back, (dedupeFrom [] (messageJoining.collect messages)).1 = front ++ shown :: back ->
        front ≠ [] -> back ≠ [] -> shown.role = .assistant -> holds shown.content) ↔
      forall before run after, InnerRun messages before run after -> holds (runContent before run) := by
  constructor
  · intro all before run after inner
    rcases collect_run inner.assistants inner.filled with ⟨merged, runEq, role, content⟩
    rcases (collect_inner_iff messages _ _ merged).mpr ⟨before, run, after, inner, rfl, runEq, rfl⟩ with
        ⟨collected, notFirst, notLast, _⟩
    have shown := all _ _ _ (by rw [collected, dedupeFrom_append, dedupeFrom_cons]) ?_ ?_ (by simp [role])
    · rw [signedBlocks_collect] at shown
      simpa [role, content, runContent] using shown
    · exact fun empty => notFirst (List.length_eq_zero_iff.mp
        (by rw [← dedupeFrom_length [], empty]; rfl))
    · exact fun empty => notLast (List.length_eq_zero_iff.mp
        (by rw [← dedupeFrom_length, empty]; rfl))
  · intro all front shown back cut notFirst notLast role
    rcases dedupeFrom_cut cut with ⟨left, right, collected, leftEq, rightEq⟩
    cases right with
    | nil => exact absurd rightEq (by simp [dedupeFrom])
    | cons merged others =>
        rw [dedupeFrom_cons, List.cons.injEq] at rightEq
        rcases rightEq with ⟨shownEq, backEq⟩
        have mergedRole : merged.role = .assistant := by
          rw [← role, ← shownEq]
          split <;> rfl
        rw [if_pos mergedRole] at shownEq
        have leftFilled : left ≠ [] := by
          rintro rfl
          exact notFirst leftEq.symm
        have othersFilled : others ≠ [] := by
          rintro rfl
          exact notLast backEq.symm
        rcases (collect_inner_iff messages left others merged).mp ⟨collected, leftFilled, othersFilled, mergedRole⟩ with
            ⟨before, run, after, inner, rfl, runEq, _⟩
        rcases collect_run inner.assistants inner.filled with ⟨other, otherEq, _, content⟩
        have sameMerged : other = merged := by simpa [runEq] using otherEq.symm
        subst sameMerged
        have result := all before run after inner
        rw [runContent, ← content, ← signedBlocks_collect before] at result
        rw [← shownEq]
        exact result

theorem mem_of_inner {α : Type} {lead middle trail front back : List α} {item : α}
    (leadShort : lead.length ≤ 1) (trailShort : trail.length ≤ 1)
    (cut : lead ++ middle ++ trail = front ++ item :: back) (notFirst : front ≠ []) (notLast : back ≠ []) :
    item ∈ middle := by
  have total := congrArg List.length cut
  simp only [List.length_append, List.length_cons] at total
  have frontLength := List.length_pos_iff.mpr notFirst
  have backLength := List.length_pos_iff.mpr notLast
  have here : (lead ++ middle ++ trail)[front.length]? = some item := by
    rw [cut]
    simp
  rw [List.append_assoc, List.getElem?_append_right (by omega), List.getElem?_append_left (by omega)] at here
  exact List.mem_of_getElem? here

theorem forall_shown_iff (holds : List MessageContentBlock -> Prop) {messages : List Message}
    (bounded : BoundedByUser (fixLeadTrail messages).1) :
    (forall shown, shown ∈ (fixLeadTrail messages).1 -> shown.role = .assistant -> holds shown.content) ↔
      forall front shown back, messages = front ++ shown :: back -> front ≠ [] -> back ≠ [] ->
        shown.role = .assistant -> holds shown.content := by
  rcases fixLeadTrail_split messages with ⟨lead, trail, split, ⟨leadShort, _⟩, trailShort, _⟩
  rcases bounded with ⟨⟨first, firstEq, firstRole⟩, last, lastEq, lastRole⟩
  constructor
  · intro all front shown back cut notFirst notLast role
    refine all shown ?_ role
    exact mem_of_inner leadShort trailShort (split.symm.trans cut) notFirst notLast
  · intro all shown member role
    rcases List.append_of_mem member with ⟨front, back, cut⟩
    refine all (lead ++ front) shown (back ++ trail) ?_ ?_ ?_ role
    · rw [split, cut]
      simp
    · intro empty
      rw [(List.append_eq_nil_iff.mp empty).2] at cut
      rw [cut] at firstEq
      rw [← Option.some.inj firstEq, role] at firstRole
      exact absurd firstRole (by decide)
    · intro empty
      rw [(List.append_eq_nil_iff.mp empty).1] at cut
      rw [cut, List.getLast?_concat] at lastEq
      rw [← Option.some.inj lastEq, role] at lastRole
      exact absurd lastRole (by decide)

/-! ## The calls in the middle -/

section Calls

variable (codec : TextCodec) (whole : List (CallEvent String))

/-- The identifiers that the pairing drops, given the calls of the whole conversation. -/
def droppedIn (whole : List (CallEvent String)) (id : String) : Bool :=
  decide (id ∈ whole.foldl record ∅)

theorem messageEvents_settledMessage (earlier : List (CallEvent String)) (message : Message) :
    messageEvents (settledMessage codec whole earlier message) =
      settle (droppedIn whole) (earlier.foldl record ∅) (messageEvents message) := by
  have prepared := messageEvents_prepareMessage codec message
  have scanned := scanContent_events (prepareMessage codec message).role (earlier.foldl record ∅)
    (prepareMessage codec message).content
  rw [messageEvents] at prepared
  rw [prepared] at scanned
  have dropped := dropOrphanedRequests_events (whole.foldl record ∅)
    [{ prepareMessage codec message with
      content := (scanContent (prepareMessage codec message).role (earlier.foldl record ∅)
        (prepareMessage codec message).content).kept }]
  rw [settle_eq_filter, ← scanned]
  simpa [dropOrphanedRequests, fixEachMessage, settledMessage, pairMessage, droppedIn, messageEvents]
    using dropped

theorem callEvents_survivorsFrom (earlier : List (CallEvent String)) (messages : List Message) :
    callEvents ((survivorsFrom whole earlier messages).map fun survivor =>
        settledMessage codec whole survivor.1 survivor.2) =
      settle (droppedIn whole) (earlier.foldl record ∅) (callEvents messages) := by
  induction messages generalizing earlier with
  | nil => rfl
  | cons message rest ih =>
      have tail := ih (earlier ++ messageEvents message)
      have here := messageEvents_settledMessage codec whole earlier message
      rw [callEvents_cons, settle_append, ← List.foldl_append, ← tail, ← here, survivorsFrom]
      cases survival : survives whole earlier message with
      | true => simp
      | false =>
          have gone : isEmptyMessage (settledMessage codec whole earlier message) = true := by
            rw [isEmptyMessage_settledMessage, survival]
            rfl
          simp [messageEvents_of_isEmptyMessage _ gone]

theorem survivorsFrom_cut {earlier : List (CallEvent String)} {messages : List Message}
    {front rest : List (List (CallEvent String) × Message)} {survivor : List (CallEvent String) × Message}
    (cut : survivorsFrom whole earlier messages = front ++ survivor :: rest) :
    Exists fun before => Exists fun after => messages = before ++ after ∧
      survivor.1 = earlier ++ callEvents before ∧ survivorsFrom whole earlier before = front := by
  induction messages generalizing earlier front with
  | nil => simp [survivorsFrom] at cut
  | cons message later ih =>
      rw [survivorsFrom] at cut
      cases survival : survives whole earlier message with
      | false =>
          simp only [survival, Bool.false_eq_true, if_false] at cut
          rcases ih cut with ⟨before, after, rfl, sameEvents, sameFront⟩
          refine ⟨message :: before, after, rfl, by simp [sameEvents], ?_⟩
          rw [survivorsFrom, survival]
          simpa using sameFront
      | true =>
          simp only [survival, if_true] at cut
          cases front with
          | nil =>
              rw [List.nil_append, List.cons.injEq] at cut
              exact ⟨[], message :: later, rfl, by simp [← cut.1], rfl⟩
          | cons head front =>
              rw [List.cons_append, List.cons.injEq] at cut
              rcases ih cut.2 with ⟨before, after, rfl, sameEvents, sameFront⟩
              refine ⟨message :: before, after, rfl, by simp [sameEvents], ?_⟩
              rw [survivorsFrom, survival]
              simp [sameFront, ← cut.1]

end Calls

end AIBuddy
