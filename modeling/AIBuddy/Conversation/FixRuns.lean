import AIBuddy.Conversation.FixQuiet
import AIBuddy.Support.Seam

namespace AIBuddy

open CallEvent CallLedger

/-!
# Runs of assistant messages inside a conversation

A run of assistant messages that is popped from neither end is merged into one
message.  Its texts were compacted message by message before blocks were
removed and messages appended, so texts for one audience may end up side by
side; and removing duplicates of signed thinking may leave nothing but blank
texts.  Both can be told from the blocks of the original messages, each marked
by what becomes of it.
-/

/-! ## Marks of the original blocks -/

/-- The signed blocks met so far, each once. -/
def remember (seen : List MessageContentBlock) (block : MessageContentBlock) : List MessageContentBlock :=
  if isSignedThinking block && !seen.contains block then seen ++ [block] else seen

/-- A block is dropped when the pairing of calls removes it or when it repeats
signed thinking; a text is keyed by its audience. -/
def blockMark (whole : List (CallEvent String)) (seen : List MessageContentBlock)
    (block : MessageContentBlock) : Mark (Option (List Role)) :=
  if !assistantBlockKept whole block || (isSignedThinking block && seen.contains block) then .gap
  else
    match block with
    | .text content => .keyed content.audience
    | _ => .solid

def contentMarks (whole : List (CallEvent String)) (seen : List MessageContentBlock) :
    List MessageContentBlock -> List (Mark (Option (List Role)))
  | [] => []
  | block :: rest => blockMark whole seen block :: contentMarks whole (remember seen block) rest

/-- The marks of a run, with a gap before each message. -/
def runMarks (whole : List (CallEvent String)) (seen : List MessageContentBlock) :
    List Message -> List (Mark (Option (List Role)))
  | [] => []
  | message :: rest =>
      .gap :: (contentMarks whole seen message.content ++
        runMarks whole (message.content.foldl remember seen) rest)

/-- A text that is not blank. -/
def hasWords : MessageContentBlock -> Bool
  | .text content => !Text.isBlank content.text
  | _ => false

/-- A run has something left besides blank texts. -/
def HasSubstance (whole : List (CallEvent String)) (seen : List MessageContentBlock)
    (run : List Message) : Prop :=
  .solid ∈ runMarks whole seen run ∨ Exists fun message => message ∈ run ∧ message.content.any hasWords = true

/-! ## Deduplication in steps -/

theorem dedupeContent_cons (seen rest : List MessageContentBlock) (block : MessageContentBlock) :
    dedupeContent seen (block :: rest) =
      ((if isSignedThinking block && seen.contains block then [] else [block]) ++
          (dedupeContent (remember seen block) rest).1,
        (dedupeContent (remember seen block) rest).2) := by
  rw [dedupeContent, remember]
  cases signed : isSignedThinking block <;> cases old : seen.contains block <;> simp

theorem dedupeContent_remembers (seen content : List MessageContentBlock) :
    (dedupeContent seen content).2 = content.foldl remember seen := by
  induction content generalizing seen with
  | nil => rfl
  | cons block rest ih => rw [dedupeContent_cons, List.foldl_cons, ih]

theorem dedupeContent_append (seen front back : List MessageContentBlock) :
    (dedupeContent seen (front ++ back)).1 =
      (dedupeContent seen front).1 ++ (dedupeContent (front.foldl remember seen) back).1 := by
  induction front generalizing seen with
  | nil => rfl
  | cons block rest ih =>
      rw [List.cons_append, dedupeContent_cons, dedupeContent_cons, ih, List.foldl_cons,
        List.append_assoc]

theorem foldl_remember_filter (seen content : List MessageContentBlock) :
    content.foldl remember seen = (content.filter isSignedThinking).foldl remember seen := by
  induction content generalizing seen with
  | nil => rfl
  | cons block rest ih =>
      cases signed : isSignedThinking block with
      | true => simp [signed, ih]
      | false => simp [signed, ih, remember]

/-! ## Marks and what is left -/

section Content

variable (whole : List (CallEvent String))

theorem signed_kept {block : MessageContentBlock} (signed : isSignedThinking block = true) :
    assistantBlockKept whole block = true ∧ trimTextBlock block = block ∧ textJoining.key block = none := by
  cases block <;> first | exact ⟨rfl, rfl, rfl⟩ | exact absurd signed (by simp [isSignedThinking])

theorem isSignedThinking_trimTextBlock (block : MessageContentBlock) :
    isSignedThinking (trimTextBlock block) = isSignedThinking block := by
  cases block <;> rfl

theorem dedupeContent_step (seen rest : List MessageContentBlock) (block : MessageContentBlock) :
    (dedupeContent seen (((block :: []).filter (assistantBlockKept whole)).map trimTextBlock ++ rest)).1.map
        textJoining.key =
      Mark.keysKept [blockMark whole seen block] ++
        (dedupeContent (remember seen block) rest).1.map textJoining.key := by
  cases kept : assistantBlockKept whole block with
  | false =>
      have unsigned : isSignedThinking block = false := by
        cases signed : isSignedThinking block with
        | false => rfl
        | true => exact absurd (signed_kept whole signed).1 (by simp [kept])
      simp [kept, blockMark, remember, unsigned]
  | true =>
      have shape : ((block :: []).filter (assistantBlockKept whole)).map trimTextBlock ++ rest =
          trimTextBlock block :: rest := by simp [kept]
      rw [shape, dedupeContent_cons]
      cases signed : isSignedThinking block with
      | true =>
          rw [(signed_kept whole signed).2.1]
          cases old : seen.contains block with
          | true =>
              have member : block ∈ seen := by simpa using old
              simp [signed, blockMark, member, remember]
          | false =>
              cases block <;> simp_all [blockMark, textJoining, isSignedThinking]
      | false =>
          have forget : remember seen (trimTextBlock block) = remember seen block := by
            simp [remember, isSignedThinking_trimTextBlock, signed]
          rw [forget]
          cases block <;> simp_all [blockMark, textJoining, isSignedThinking, trimTextBlock, TextContent.audience]

theorem key_blockMark (seen : List MessageContentBlock) (block : MessageContentBlock) :
    (Mark.joining (Option (List Role))).key (blockMark whole seen block) = textJoining.key block := by
  cases block with
  | text content => rfl
  | _ =>
      simp only [blockMark]
      split <;> rfl

theorem joins_blockMark (seen later : List MessageContentBlock) (first second : MessageContentBlock) :
    (Mark.joining (Option (List Role))).joins (blockMark whole seen first) (blockMark whole later second) =
      textJoining.joins first second := by
  simp only [Joining.joins, key_blockMark]

theorem keysKept_append (front back : List (Mark (Option (List Role)))) :
    Mark.keysKept (front ++ back) = Mark.keysKept front ++ Mark.keysKept back := by
  simp [Mark.keysKept]

theorem blockMark_combine (seen : List MessageContentBlock) {first second : MessageContentBlock}
    (joined : textJoining.joins first second = true) :
    blockMark whole seen (textJoining.combine first second) = blockMark whole seen first ∧
      remember seen (textJoining.combine first second) = seen ∧ remember seen first = seen ∧
        remember seen second = seen := by
  rcases (textJoining.joins_iff first second).mp joined with ⟨key, firstKey, secondKey⟩
  cases first <;> cases second <;> first | exact ⟨rfl, rfl, rfl, rfl⟩ | simp [textJoining] at firstKey secondKey

theorem dedupeContent_collectFrom (seen : List MessageContentBlock) (current : MessageContentBlock)
    (rest : List MessageContentBlock) :
    (dedupeContent seen (((textJoining.collectFrom current rest).filter (assistantBlockKept whole)).map
        trimTextBlock)).1.map textJoining.key =
      Mark.keysKept ((Mark.joining _).collectFrom (blockMark whole seen current)
        (contentMarks whole (remember seen current) rest)) := by
  induction rest generalizing seen current with
  | nil =>
      have single := dedupeContent_step whole seen [] current
      rw [List.append_nil] at single
      rw [Joining.collectFrom, single, contentMarks, Joining.collectFrom]
      simp [dedupeContent]
  | cons next rest ih =>
      have sameJoin := joins_blockMark whole seen (remember seen current) current next
      rw [Joining.collectFrom, contentMarks, Joining.collectFrom, sameJoin]
      split
      · rename_i joined
        rcases blockMark_combine whole seen joined with ⟨sameMark, forgets, forgetsFirst, forgetsSecond⟩
        rw [ih, sameMark, forgets, forgetsFirst, forgetsSecond]
        rfl
      · have split : forall tail : List MessageContentBlock,
            ((current :: tail).filter (assistantBlockKept whole)).map trimTextBlock =
              (((current :: []).filter (assistantBlockKept whole)).map trimTextBlock ++
                (tail.filter (assistantBlockKept whole)).map trimTextBlock) := by
          intro tail
          rw [← List.map_append, ← List.filter_append]
          rfl
        rw [split, dedupeContent_step, ih, ← keysKept_append]
        rfl

end Content

/-! ## A merged run -/

/-- What the pairing of calls leaves of an assistant message's content. -/
def settledContent (whole : List (CallEvent String)) (message : Message) : List MessageContentBlock :=
  ((textJoining.collect message.content).filter (assistantBlockKept whole)).map trimTextBlock

section Run

variable (whole : List (CallEvent String))

theorem dedupeContent_settledContent (seen : List MessageContentBlock) (message : Message) :
    (dedupeContent seen (settledContent whole message)).1.map textJoining.key =
      Mark.keysKept ((Mark.joining _).collect (contentMarks whole seen message.content)) := by
  rw [settledContent]
  cases message.content with
  | nil => rfl
  | cons first rest => exact dedupeContent_collectFrom whole seen first rest

theorem signed_settledContent (message : Message) :
    (settledContent whole message).filter isSignedThinking = message.content.filter isSignedThinking := by
  have trimmed : forall blocks : List MessageContentBlock,
      (blocks.map trimTextBlock).filter isSignedThinking = blocks.filter isSignedThinking :=
    filter_map_of_fixed isSignedThinking_trimTextBlock fun block signed => (signed_kept whole signed).2.1
  have parts : forall blocks : List MessageContentBlock, blocks.filter isSignedThinking =
      blocks.flatMap fun block => if isSignedThinking block then [block] else [] := by
    intro blocks
    induction blocks with
    | nil => rfl
    | cons block rest ih =>
        cases signed : isSignedThinking block <;> simp [signed, ih]
  have kept : forall block, isSignedThinking block = true -> assistantBlockKept whole block = true :=
    fun block signed => (signed_kept whole signed).1
  rw [settledContent, trimmed, List.filter_filter, List.filter_congr (q := isSignedThinking), parts, parts]
  · apply textJoining.flatMap_collect
    intro first second joined
    rcases (textJoining.joins_iff first second).mp joined with ⟨key, firstKey, secondKey⟩
    cases first <;> cases second <;> first | rfl | simp [textJoining] at firstKey secondKey
  · intro block _
    cases signed : isSignedThinking block with
    | false => simp
    | true => simp [kept block signed]

theorem foldl_remember_settledContent (seen : List MessageContentBlock) (message : Message) :
    (settledContent whole message).foldl remember seen = message.content.foldl remember seen := by
  rw [foldl_remember_filter, signed_settledContent, ← foldl_remember_filter]

theorem collect_gap (marks : List (Mark (Option (List Role)))) :
    (Mark.joining (Option (List Role))).collect (.gap :: marks) = .gap :: (Mark.joining _).collect marks := by
  cases marks with
  | nil => rfl
  | cons first rest => rfl

theorem collect_runMarks (seen : List MessageContentBlock) (message : Message) (rest : List Message) :
    (Mark.joining _).collect (runMarks whole seen (message :: rest)) =
      .gap :: ((Mark.joining _).collect (contentMarks whole seen message.content) ++
        (Mark.joining _).collect (runMarks whole (message.content.foldl remember seen) rest)) := by
  rw [runMarks, collect_gap, Joining.collect_append]
  intro last _ next nextMember
  cases rest with
  | nil => exact absurd nextMember (by simp [runMarks])
  | cons later rest =>
      have isGap : next = .gap := (Option.some.inj nextMember).symm
      rw [isGap]
      cases last <;> rfl

theorem dedupeContent_run (seen : List MessageContentBlock) (run : List Message) :
    (dedupeContent seen (run.flatMap (settledContent whole))).1.map textJoining.key =
      Mark.keysKept ((Mark.joining _).collect (runMarks whole seen run)) := by
  induction run generalizing seen with
  | nil => rfl
  | cons message rest ih =>
      rw [collect_runMarks, Mark.keysKept_gap, keysKept_append, List.flatMap_cons, dedupeContent_append,
        List.map_append, dedupeContent_settledContent, foldl_remember_settledContent, ih]

theorem compact_iff_allApart (content : List MessageContentBlock) :
    textJoining.Compact content ↔ Mark.AllApart (content.map textJoining.key) := by
  rw [Joining.Compact, Mark.AllApart, List.isChain_map]
  refine List.IsChain.iff fun first second => ?_
  cases firstKey : textJoining.key first <;>
    simp [Joining.joins, Mark.Apart, firstKey]

theorem dedupeContent_compact_iff (seen : List MessageContentBlock) (run : List Message) :
    textJoining.Compact (dedupeContent seen (run.flatMap (settledContent whole))).1 ↔
      Mark.SeamFree none false (runMarks whole seen run) := by
  rw [compact_iff_allApart, dedupeContent_run, Mark.allApart_iff]

theorem any_dedupeContent (test : MessageContentBlock -> Bool)
    (unsigned : forall block, isSignedThinking block = true -> test block = false)
    (seen content : List MessageContentBlock) : (dedupeContent seen content).1.any test = content.any test := by
  induction content generalizing seen with
  | nil => rfl
  | cons block rest ih =>
      rw [dedupeContent_cons]
      simp only [List.any_append, List.any_cons, ih]
      split
      · rename_i dropped
        simp [unsigned block (Bool.and_eq_true_iff.mp dropped).1]
      · simp

theorem any_hasWords_settledContent (message : Message) :
    (settledContent whole message).any hasWords = message.content.any hasWords := by
  have collected : (textJoining.collect message.content).any hasWords = message.content.any hasWords := by
    apply textJoining.any_collect
    intro first second joined
    rcases (textJoining.joins_iff first second).mp joined with ⟨key, firstKey, secondKey⟩
    cases first with
    | text left =>
        cases second with
        | text right => simp [textJoining, hasWords, Bool.not_and]
        | _ => exact absurd secondKey (by simp [textJoining])
    | _ => exact absurd firstKey (by simp [textJoining])
  rw [← collected, settledContent, List.any_map, List.any_filter]
  congr 1
  funext block
  cases block <;> simp [hasWords, trimTextBlock, assistantBlockKept, Text.isBlank_trimEnd]

theorem solid_mem_keysKept (marks : List (Mark (Option (List Role)))) :
    none ∈ Mark.keysKept ((Mark.joining _).collect marks) ↔ .solid ∈ marks := by
  have isSolid : forall mark : Mark (Option (List Role)),
      (mark.stays && mark.key?.isNone) = decide (mark = .solid) := by
    intro mark
    cases mark <;> rfl
  have kept : forall items : List (Mark (Option (List Role))),
      none ∈ Mark.keysKept items ↔ (items.any fun mark => decide (mark = .solid)) = true := by
    intro items
    simp only [Mark.keysKept, List.mem_map, List.mem_filter, List.any_eq_true, ← isSolid, Bool.and_eq_true,
      Option.isNone_iff_eq_none, and_assoc]
  rw [kept, Joining.any_collect]
  · simp
  · intro first second joined
    rcases (Mark.joins_iff_keyed first second).mp joined with ⟨key, rfl, rfl⟩
    rfl

theorem dedupeContent_filled_iff (seen : List MessageContentBlock) (run : List Message) :
    (((dedupeContent seen (run.flatMap (settledContent whole))).1.all fun block =>
        block.asText == some "") = false) ↔ HasSubstance whole seen run := by
  have blocks : forall block : MessageContentBlock, ((trimTextBlock block).asText == some "") = false ↔
      textJoining.key (trimTextBlock block) = none ∨ hasWords (trimTextBlock block) = true := by
    intro block
    cases block with
    | text content =>
        simp [trimTextBlock, MessageContentBlock.asText, textJoining, hasWords, Text.isBlank_trimEnd,
          Text.trimEnd_eq_empty_iff]
    | _ => simp [trimTextBlock, MessageContentBlock.asText, textJoining]
  have trimmed : forall block, block ∈ (dedupeContent seen (run.flatMap (settledContent whole))).1 ->
      Exists fun source => trimTextBlock source = block := by
    intro block member
    rcases List.mem_flatMap.mp ((dedupeContent_sublist _ _).mem member) with ⟨message, _, inside⟩
    rcases List.mem_map.mp inside with ⟨source, _, same⟩
    exact ⟨source, same⟩
  have signedWords : forall block, isSignedThinking block = true -> hasWords block = false := by
    intro block signed
    cases block <;> first | rfl | exact absurd signed (by simp [isSignedThinking])
  have words : (Exists fun block => block ∈ (dedupeContent seen (run.flatMap (settledContent whole))).1 ∧
      hasWords block = true) ↔ Exists fun message => message ∈ run ∧ message.content.any hasWords = true := by
    rw [← List.any_eq_true, any_dedupeContent hasWords signedWords, List.any_flatMap, List.any_eq_true]
    simp only [any_hasWords_settledContent]
  rw [HasSubstance, ← words, ← solid_mem_keysKept, ← dedupeContent_run, List.all_eq_false, List.mem_map,
    ← exists_or]
  refine exists_congr fun block => ?_
  rw [← and_or_left]
  refine and_congr_right fun member => ?_
  rcases trimmed block member with ⟨source, rfl⟩
  rw [Bool.not_eq_true]
  exact blocks source

end Run

end AIBuddy
