import Mathlib.Data.List.Infix
import AIBuddy.Provider.ThinkChunks

namespace AIBuddy

open Scanner

/-!
# Splitting a text with one think block

Brackets and quotes may stand anywhere in a text with a think block.  The block is
found if and only if no bracket before its tags starts something that reaches them: a
longer tag that ends at the bracket of a tag of the block, or a text that is kept back
as the possible beginning of a tag because a quote hides the rest.
-/

def openThink : List Char := "<think>".toList

def closeThink : List Char := "</think>".toList

/-- A text with a think block in it. -/
def withThinkBlock (before hidden after : List Char) : List Char :=
  before ++ (openThink ++ (hidden ++ (closeThink ++ after)))

/-- No complete think tag stands in a text. -/
def TagFree (text : List Char) : Prop :=
  forall place, place ∈ text.tails -> parseThinkTag place = none

/-- No place of a text starts a tag, or is taken for the beginning of one, with
another text behind it. -/
def StaysText (text behind : List Char) : Prop :=
  forall place, place ∈ text.tails -> place ≠ [] ->
    parseThinkTag (place ++ behind) = none ∧ isPossiblePartialThinkTag (place ++ behind) = false

instance decidableTagFree (text : List Char) : Decidable (TagFree text) := List.decidableBAll _ _

instance decidableStaysText (text behind : List Char) : Decidable (StaysText text behind) :=
  List.decidableBAll _ _

/-! ## The tags of the block -/

/-- Inside of one think block. -/
def ThinkState.inside : ThinkState := ⟨true, 1⟩

theorem verdict_openThink (rest : List Char) :
    thinkLook.verdict ThinkState.outside (openThink ++ rest) = .take 7 ThinkState.inside := by
  have found : parseThinkTag openThink = some (.openTag, 7) := by decide
  have beginning : (openThink ++ rest).take 7 = openThink := List.take_left' rfl
  have small : utf8Length ((openThink ++ rest).take 7) ≤ maxBufferedThinkTagBytes := by
    rw [beginning]
    decide
  have counts : (ThinkState.outside.insideThink || decide (ThinkTag.openTag ≠ .closeTag)) = true := rfl
  have taken := thinkVerdict_of_tag (parseThinkTag_append found rest) small counts
  exact taken

theorem verdict_closeThink (rest : List Char) :
    thinkLook.verdict ThinkState.inside (closeThink ++ rest) = .take 8 ThinkState.outside := by
  have found : parseThinkTag closeThink = some (.closeTag, 8) := by decide
  have beginning : (closeThink ++ rest).take 8 = closeThink := List.take_left' rfl
  have small : utf8Length ((closeThink ++ rest).take 8) ≤ maxBufferedThinkTagBytes := by
    rw [beginning]
    decide
  have counts : (ThinkState.inside.insideThink || decide (ThinkTag.closeTag ≠ .closeTag)) = true := rfl
  have taken := thinkVerdict_of_tag (parseThinkTag_append found rest) small counts
  exact taken

theorem readAll_openThink (rest : List Char) :
    readAll thinkLook ThinkState.outside (openThink ++ rest) = readAll thinkLook ThinkState.inside rest :=
  readAll_take (verdict_openThink rest)

theorem readAll_closeThink (rest : List Char) :
    readAll thinkLook ThinkState.inside (closeThink ++ rest) = readAll thinkLook ThinkState.outside rest :=
  readAll_take (verdict_closeThink rest)

/-! ## Places that are passed on -/

theorem readAttributes_kind {text : List Char} {quote lastNonWs : Option Char} {index : Nat}
    {result : ThinkTag × Nat} (found : readAttributes quote lastNonWs text index = some result) :
    result.1 ≠ .closeTag := by
  induction text generalizing quote lastNonWs index with
  | nil => contradiction
  | cons character rest ih =>
      unfold readAttributes at found
      split at found
      · exact ih found
      · split at found
        · exact ih found
        · split at found
          · rw [← Option.some.inj found]
            split
            · simp
            · simp
          · split at found
            · exact ih found
            · exact ih found

theorem readClose_inner {named : List Char} {index : Nat} {result : ThinkTag × Nat}
    (found : readName true named index = some result) : Exists fun inner => Exists fun behind =>
      named = inner ++ '>' :: behind ∧ result.2 = index + inner.length + 1 ∧ '<' ∉ inner := by
  simp only [readName, if_true] at found
  split at found
  · contradiction
  · unfold readClose at found
    split at found
    · rename_i behind rest
      refine ⟨named.takeWhile isAsciiAlphabetic ++
        (named.dropWhile isAsciiAlphabetic).takeWhile isAsciiWhitespace, behind, ?_, ?_, ?_⟩
      · rw [List.append_assoc, ← rest, List.takeWhile_append_dropWhile, List.takeWhile_append_dropWhile]
      · rw [← Option.some.inj found, List.length_append]
        omega
      · intro member
        rcases List.mem_append.mp member with letter | space
        · exact absurd (List.mem_takeWhile_imp letter) (by decide)
        · exact absurd (List.mem_takeWhile_imp space) (by decide)
    · contradiction

theorem parseThinkTag_closeTag {text more : List Char} {length : Nat} (nonempty : text ≠ [])
    (found : parseThinkTag (text ++ '<' :: more) = some (.closeTag, length)) : length ≤ text.length := by
  have shape : Exists fun inner => Exists fun behind =>
      text ++ '<' :: more = '<' :: (inner ++ '>' :: behind) ∧ length = inner.length + 2 ∧ '<' ∉ inner := by
    unfold parseThinkTag at found
    split at found
    · rename_i named same
      rcases readClose_inner found with ⟨inner, behind, split, size, single⟩
      refine ⟨'/' :: inner, behind, ?_, ?_, by simpa using single⟩
      · rw [same, split, List.cons_append]
      · simp only at size
        rw [size, List.length_cons]
        omega
    · simp only [readName, Bool.false_eq_true, if_false] at found
      split at found
      · contradiction
      · split at found
        · contradiction
        · exact absurd rfl (readAttributes_kind found)
    · contradiction
  rcases shape with ⟨inner, behind, split, size, single⟩
  cases text with
  | nil => exact absurd rfl nonempty
  | cons symbol rest =>
      rw [List.cons_append, List.cons.injEq] at split
      rw [List.length_cons, size]
      by_contra beyond
      have bracket : (inner ++ '>' :: behind)[rest.length]? = some '<' := by
        rw [← split.2]
        simp
      rcases Nat.lt_or_ge rest.length inner.length with within | behindInner
      · rw [List.getElem?_append_left within] at bracket
        exact single (List.mem_of_getElem? bracket)
      · have last : rest.length = inner.length := by omega
        rw [last] at bracket
        simp at bracket

/-- What is taken for the beginning of a tag starts with a bracket and is not closed
by one. -/
theorem isPossiblePartialThinkTag_shape {text : List Char} (held : isPossiblePartialThinkTag text = true) :
    text.head? = some '<' ∧ containsUnquotedGt text = false := by
  unfold isPossiblePartialThinkTag at held
  split at held
  · contradiction
  · rename_i unclosed
    rw [Bool.not_eq_true] at unclosed
    split at held
    · exact ⟨rfl, unclosed⟩
    · exact ⟨rfl, unclosed⟩
    · contradiction

theorem thinkVerdict_of_beginning {text : List Char} (state : ThinkState) (none : parseThinkTag text = none)
    (held : isPossiblePartialThinkTag text = true) : thinkVerdict state text = .hold := by
  have shape := isPossiblePartialThinkTag_shape held
  rw [thinkVerdict, if_neg (not_not.mpr shape.1), none]
  simp only [shape.2, held, Bool.not_false, Bool.and_true, if_true]

theorem StaysText.passes {text behind : List Char} (stays : StaysText text behind) (state : ThinkState) :
    Passes thinkLook state text behind := by
  induction text with
  | nil => trivial
  | cons symbol rest ih =>
      constructor
      · have plain := stays (symbol :: rest) List.mem_cons_self (List.cons_ne_nil _ _)
        exact thinkVerdict_of_none state plain.1 plain.2
      · exact ih fun place member => stays place (List.mem_cons_of_mem _ member)

theorem staysText_of_passes {text more : List Char} (free : TagFree text) {state : ThinkState}
    (passes : Passes thinkLook state text ('<' :: more)) : StaysText text ('<' :: more) := by
  induction text with
  | nil =>
      intro place member nonempty
      exact absurd (List.mem_singleton.mp member) nonempty
  | cons symbol rest ih =>
      intro place member nonempty
      rcases List.mem_cons.mp member with whole | later
      · subst whole
        have passed : thinkVerdict state (symbol :: rest ++ '<' :: more) = .pass 1 := passes.1
        have ownTag := free (symbol :: rest) List.mem_cons_self
        have noTag : parseThinkTag (symbol :: rest ++ '<' :: more) = none := by
          cases found : parseThinkTag (symbol :: rest ++ '<' :: more) with
          | none => rfl
          | some parsed =>
              rcases parsed with ⟨kind, length⟩
              have bounds := parseThinkTag_bounds found
              rw [thinkVerdict, if_neg (not_not.mpr (parseThinkTag_head found)), found] at passed
              simp only at passed
              split at passed
              · rw [Verdict.pass.injEq] at passed
                omega
              · split at passed
                · contradiction
                · rename_i uncounted
                  have closes : kind = .closeTag := by
                    by_contra opens
                    exact uncounted (by simp [opens])
                  subst closes
                  have short := parseThinkTag_closeTag (List.cons_ne_nil _ _) found
                  rw [parseThinkTag_of_append found short] at ownTag
                  contradiction
        refine ⟨noTag, ?_⟩
        by_contra held
        rw [thinkVerdict_of_beginning state noTag (by simpa using held)] at passed
        contradiction
      · have freeRest : TagFree rest := fun place inRest => free place (List.mem_cons_of_mem _ inRest)
        exact ih freeRest passes.2 place later nonempty

/-! ## Finding the block -/

theorem TagFree.quiet {text : List Char} (free : TagFree text) : ¬ ContainsOpening text := by
  rintro ⟨place, kind, length, inside, found, _⟩
  rw [free place ((List.mem_tails _ _).mpr inside)] at found
  contradiction

theorem filterOut_inside (text : List Char) (rest : List (ThinkState × Char)) :
    filterOut (readIn ThinkState.inside text ++ rest) =
      ⟨(filterOut rest).content, text ++ (filterOut rest).thinking⟩ := by
  rw [filterOut_append, filterOut_readIn]
  rfl

theorem filterOut_outside (text : List Char) (rest : List (ThinkState × Char)) :
    filterOut (readIn ThinkState.outside text ++ rest) =
      ⟨text ++ (filterOut rest).content, (filterOut rest).thinking⟩ := by
  rw [filterOut_append, filterOut_readIn]
  rfl

theorem splitThinkBlocks_eq_iff (text content thinking : List Char) :
    splitThinkBlocks text = (content, thinking) ↔
      filterOut (readAll thinkLook ThinkState.outside text) = ⟨content, thinking⟩ := by
  rw [← splitOut_eq, splitOut, FilterOut.mk.injEq]
  exact Prod.ext_iff

theorem readAll_before {before hidden after : List Char}
    (passes : Passes thinkLook ThinkState.outside before (openThink ++ (hidden ++ (closeThink ++ after)))) :
    readAll thinkLook ThinkState.outside (withThinkBlock before hidden after) =
      readIn ThinkState.outside before ++
        readAll thinkLook ThinkState.inside (hidden ++ (closeThink ++ after)) := by
  rw [withThinkBlock, readAll_passes passes, readAll_openThink]

theorem split_block_of_stays {before hidden after : List Char} (freeAfter : TagFree after)
    (staysBefore : StaysText before (openThink ++ (hidden ++ (closeThink ++ after))))
    (staysHidden : StaysText hidden (closeThink ++ after)) :
    splitThinkBlocks (withThinkBlock before hidden after) = (before ++ after, hidden) := by
  rw [splitThinkBlocks_eq_iff, readAll_before (staysBefore.passes _), readAll_passes (staysHidden.passes _),
    readAll_closeThink, readAll_quiet _ _ rfl freeAfter.quiet, filterOut_outside, filterOut_inside,
    filterOut_readIn]
  simp [ThinkState.outside]

/-! ## Losing the block -/

theorem stop_cases {state : ThinkState} {text word more : List Char} (none : parseThinkTag text = none)
    (first : '>' ∉ word)
    (stops : thinkLook.verdict state (text ++ (word ++ '>' :: more)) ≠ .pass 1) :
    thinkLook.verdict state (text ++ (word ++ '>' :: more)) = .hold ∨
      Exists fun length => text.length + word.length + 1 ≤ length ∧
        (thinkLook.verdict state (text ++ (word ++ '>' :: more)) = .pass length ∨
          Exists fun kind => parseThinkTag (text ++ (word ++ '>' :: more)) = some (kind, length) ∧
            (state.insideThink = true ∨ kind ≠ .closeTag) ∧
            thinkLook.verdict state (text ++ (word ++ '>' :: more)) = .take length (state.pass kind)) := by
  cases verdict : thinkLook.verdict state (text ++ (word ++ '>' :: more)) with
  | hold => exact Or.inl rfl
  | pass length =>
      rcases thinkVerdict_pass verdict with one | ⟨kind, found, _⟩
      · rw [verdict, one] at stops
        exact absurd rfl stops
      · exact Or.inr ⟨length, parseThinkTag_crosses found none first, Or.inl rfl⟩
  | take length next =>
      rcases thinkVerdict_take verdict with ⟨kind, found, isNext, counts, _⟩
      subst isNext
      exact Or.inr ⟨length, parseThinkTag_crosses found none first, Or.inr ⟨kind, found, counts, rfl⟩⟩

theorem staysText_hidden {hidden after : List Char} (free : TagFree hidden)
    (whole : filterOut (readAll thinkLook ThinkState.inside (hidden ++ (closeThink ++ after))) = ⟨after, hidden⟩) :
    StaysText hidden (closeThink ++ after) := by
  rcases passes_or_stops thinkLook ThinkState.inside hidden (closeThink ++ after) with
    passes | ⟨before, symbol, rest, split, passes, stops⟩
  · exact staysText_of_passes free passes
  · exfalso
    have none : parseThinkTag (symbol :: rest) = none :=
      free _ ((List.mem_tails _ _).mpr ⟨before, split.symm⟩)
    subst split
    rw [List.append_assoc, readAll_passes passes, filterOut_inside, FilterOut.mk.injEq,
      List.append_cancel_left_eq] at whole
    have total := length_filterOut (readAll thinkLook ThinkState.inside (symbol :: rest ++ (closeThink ++ after)))
    rw [whole.1, whole.2] at total
    have size : (symbol :: rest ++ (closeThink ++ after)).length = rest.length + 1 + (8 + after.length) := by
      rw [List.length_append, List.length_append, List.length_cons]
      rfl
    rw [List.length_cons] at total
    have noBracket : '>' ∉ "</think".toList := by decide
    rcases stop_cases none noBracket stops with
      held | ⟨length, beyond, passed | ⟨kind, _, _, taken⟩⟩
    · have read : readAll thinkLook ThinkState.inside (symbol :: rest ++ (closeThink ++ after)) =
          readIn ThinkState.inside (symbol :: rest ++ (closeThink ++ after)) := readAll_hold held
      rw [read, length_readIn, size] at total
      omega
    · change rest.length + 1 + 7 + 1 ≤ length at beyond
      have read : readAll thinkLook ThinkState.inside (symbol :: rest ++ (closeThink ++ after)) =
          readIn ThinkState.inside ((symbol :: rest ++ (closeThink ++ after)).take length) ++
            readAll thinkLook ThinkState.inside ((symbol :: rest ++ (closeThink ++ after)).drop length) :=
        readAll_pass passed
      have thought := congrArg List.length whole.2
      rw [read, filterOut_inside, List.length_append, List.length_take, size, List.length_cons] at thought
      omega
    · change rest.length + 1 + 7 + 1 ≤ length at beyond
      have read : readAll thinkLook ThinkState.inside (symbol :: rest ++ (closeThink ++ after)) =
          readAll thinkLook (ThinkState.inside.pass kind)
            ((symbol :: rest ++ (closeThink ++ after)).drop length) := readAll_take taken
      have shorter := readAll_length_le thinkLook (ThinkState.inside.pass kind)
        ((symbol :: rest ++ (closeThink ++ after)).drop length)
      rw [← read, ← total, List.length_drop, size] at shorter
      omega

theorem no_short_tag {symbol : Char} {more : List Char} {kind : ThinkTag} {length : Nat} :
    parseThinkTag (symbol :: (openThink ++ more)) ≠ some (kind, length) := by
  intro found
  have head := parseThinkTag_head found
  simp only [List.head?_cons, Option.some.injEq] at head
  subst head
  have none : parseThinkTag ('<' :: (openThink ++ more)) = Option.none := rfl
  rw [none] at found
  contradiction

/-- What stands behind an empty block does not begin like a tag without being one. -/
theorem not_closing_suffix {text : List Char} (free : parseThinkTag text = none) (head : text.head? = some '<')
    (short : text.length ≤ 8) (same : text = (openThink ++ closeThink).drop (15 - text.length)) : False := by
  have all : forall size, size < 9 -> parseThinkTag ((openThink ++ closeThink).drop (15 - size)) = none ->
      ((openThink ++ closeThink).drop (15 - size)).head? = some '<' -> False := by decide
  rw [same] at head free
  exact all text.length (by omega) free head

theorem staysText_before {before hidden after : List Char} (free : TagFree before) (freeAfter : TagFree after)
    (whole : filterOut (readAll thinkLook ThinkState.outside (withThinkBlock before hidden after)) =
      ⟨before ++ after, hidden⟩) :
    StaysText before (openThink ++ (hidden ++ (closeThink ++ after))) := by
  rw [withThinkBlock] at whole
  rcases passes_or_stops thinkLook ThinkState.outside before (openThink ++ (hidden ++ (closeThink ++ after))) with
    passes | ⟨start, symbol, rest, split, passes, stops⟩
  · exact staysText_of_passes free passes
  · exfalso
    have none : parseThinkTag (symbol :: rest) = none :=
      free _ ((List.mem_tails _ _).mpr ⟨start, split.symm⟩)
    subst split
    rw [List.append_assoc, readAll_passes passes, filterOut_outside, FilterOut.mk.injEq, List.append_assoc,
      List.append_cancel_left_eq] at whole
    generalize tail : hidden ++ (closeThink ++ after) = more at *
    have total := length_filterOut (readAll thinkLook ThinkState.outside (symbol :: rest ++ (openThink ++ more)))
    rw [whole.1, whole.2, List.length_append, List.length_cons] at total
    have moreSize : more.length = hidden.length + (8 + after.length) := by
      rw [← tail, List.length_append, List.length_append]
      rfl
    have size : (symbol :: rest ++ (openThink ++ more)).length = rest.length + 1 + (7 + more.length) := by
      rw [List.length_append, List.length_append, List.length_cons]
      rfl
    have noBracket : '>' ∉ "<think".toList := by decide
    rcases stop_cases none noBracket stops with
      held | ⟨length, beyond, passed | ⟨kind, found, counts, taken⟩⟩
    · have read : readAll thinkLook ThinkState.outside (symbol :: rest ++ (openThink ++ more)) =
          readIn ThinkState.outside (symbol :: rest ++ (openThink ++ more)) := readAll_hold held
      rw [read, length_readIn, size] at total
      omega
    · change rest.length + 1 + 6 + 1 ≤ length at beyond
      have read : readAll thinkLook ThinkState.outside (symbol :: rest ++ (openThink ++ more)) =
          readIn ThinkState.outside ((symbol :: rest ++ (openThink ++ more)).take length) ++
            readAll thinkLook ThinkState.outside ((symbol :: rest ++ (openThink ++ more)).drop length) :=
        readAll_pass passed
      have passedOn : symbol :: rest ++ openThink <+: (symbol :: rest ++ (openThink ++ more)).take length := by
        have early : symbol :: rest ++ openThink <+: symbol :: rest ++ (openThink ++ more) := by
          rw [← List.append_assoc]
          exact List.prefix_append _ _
        apply List.prefix_of_prefix_length_le early (List.take_prefix _ _)
        rw [List.length_take, size, List.length_append, List.length_cons]
        change rest.length + 1 + 7 ≤ _
        omega
      have content := whole.1
      rw [read, filterOut_outside] at content
      have opens : openThink <+: after := by
        rw [← List.prefix_append_right_inj (symbol :: rest), ← content]
        exact passedOn.trans (List.prefix_append _ _)
      rcases opens with ⟨behind, same⟩
      have found : parseThinkTag openThink = some (.openTag, 7) := by decide
      have tagged := parseThinkTag_append found behind
      rw [same, freeAfter after ((List.mem_tails _ _).mpr (List.suffix_refl _))] at tagged
      contradiction
    · change rest.length + 1 + 6 + 1 ≤ length at beyond
      change parseThinkTag (symbol :: rest ++ (openThink ++ more)) = some (kind, length) at found
      have read : readAll thinkLook ThinkState.outside (symbol :: rest ++ (openThink ++ more)) =
          readAll thinkLook (ThinkState.outside.pass kind)
            ((symbol :: rest ++ (openThink ++ more)).drop length) := readAll_take taken
      have less := readAll_length thinkLook thinkLook_takes (ThinkState.outside.pass kind)
        ((symbol :: rest ++ (openThink ++ more)).drop length)
      have bounds := parseThinkTag_bounds found
      rw [← read, ← total, List.length_drop, size] at less
      rw [size] at bounds
      rcases less with all | again
      · have tagSize : length = 15 := by omega
        subst tagSize
        have everything := readAll_of_length thinkLook (ThinkState.outside.pass kind)
          ((symbol :: rest ++ (openThink ++ more)).drop 15)
          (by rw [← read, ← total, List.length_drop, size, all])
        rw [read, everything, filterOut_readIn] at whole
        cases kind with
        | openTag =>
            have content : symbol :: rest ++ after = [] := whole.1.symm
            contradiction
        | closeTag =>
            rcases counts with inside | opens
            · contradiction
            · exact opens rfl
        | selfClosing =>
            have thinking : [] = hidden := whole.2
            have content : (symbol :: rest ++ (openThink ++ more)).drop 15 = symbol :: rest ++ after :=
              whole.1
            have head := parseThinkTag_head found
            rw [List.cons_append, List.head?_cons, ← List.head?_cons] at head
            subst thinking
            rw [← tail, List.nil_append, ← List.append_assoc openThink, ← List.append_assoc, List.drop_append_of_le_length,
              List.append_cancel_right_eq, List.drop_append, List.drop_of_length_le, List.nil_append] at content
            · exact not_closing_suffix none head (by rw [List.length_cons]; omega) content.symm
            · rw [List.length_cons]
              omega
            · rw [List.length_append]
              change 15 ≤ _ + 15
              omega
      · have single : rest = [] := by
          apply List.eq_nil_of_length_eq_zero
          omega
        subst single
        exact no_short_tag found

/-- A think block between tag-free texts is split off if and only if no place of the
text before it and no place of the thinking starts a tag, or is taken for the beginning
of one, with what follows it. -/
theorem split_block_iff (before hidden after : List Char) (freeBefore : TagFree before) (freeHidden : TagFree hidden)
    (freeAfter : TagFree after) :
    splitThinkBlocks (withThinkBlock before hidden after) = (before ++ after, hidden) ↔
      StaysText before (openThink ++ (hidden ++ (closeThink ++ after))) ∧
        StaysText hidden (closeThink ++ after) := by
  constructor
  · intro split
    rw [splitThinkBlocks_eq_iff] at split
    have stays := staysText_before freeBefore freeAfter split
    rw [readAll_before (stays.passes _), filterOut_outside, FilterOut.mk.injEq,
      List.append_cancel_left_eq] at split
    exact ⟨stays, staysText_hidden freeHidden (FilterOut.ext split.1 split.2)⟩
  · rintro ⟨staysBefore, staysHidden⟩
    exact split_block_of_stays freeAfter staysBefore staysHidden

/-- Comparison signs on both sides of the tags do no harm. -/
theorem comparison_split : splitThinkBlocks (withThinkBlock "1 < 2 and ".toList "a<b".toList " > 'y'".toList) =
    ("1 < 2 and ".toList ++ " > 'y'".toList, "a<b".toList) :=
  (split_block_iff _ _ _ (by decide +kernel) (by decide +kernel) (by decide +kernel)).mpr (by decide +kernel)

/-- An apostrophe behind a bracket and a letter of the tag name hides the block. -/
theorem apostrophe_hides_block : ¬ (forall before hidden after : List Char,
    TagFree before -> TagFree hidden -> TagFree after ->
    utf8Length (withThinkBlock before hidden after) ≤ maxBufferedThinkTagBytes ->
    splitThinkBlocks (withThinkBlock before hidden after) = (before ++ after, hidden)) := by
  intro splits
  have same := splits "if x <t don't ".toList "x".toList [] (by decide +kernel) (by decide +kernel)
    (by decide +kernel) (by decide +kernel)
  exact absurd same (by decide +kernel)

end AIBuddy
