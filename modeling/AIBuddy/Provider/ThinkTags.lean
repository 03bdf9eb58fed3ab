import Mathlib.Data.List.TakeWhile
import AIBuddy.Provider.ThinkFilter

namespace AIBuddy

/-!
# Where think tags end

A complete tag ends at an angle bracket, and nothing behind the bracket matters.  So
a tag that is found in a text is found there whatever follows, and a tag of a longer
text that fits into the beginning of the text is found in this beginning already.
-/

/-- A result of reading a tag depends on the text up to its closing bracket only. -/
structure TagEnds (read : List Char -> Option (ThinkTag × Nat)) (text : List Char) (index : Nat)
    (result : ThinkTag × Nat) (inner behind : List Char) : Prop where
  split : text = inner ++ '>' :: behind
  length : result.2 = index + inner.length + 1
  stays : forall more, read (inner ++ '>' :: more) = some result

theorem readAttributes_ends {text : List Char} {quote lastNonWs : Option Char} {index : Nat}
    {result : ThinkTag × Nat} (found : readAttributes quote lastNonWs text index = some result) :
    Exists fun inner => Exists fun behind =>
      TagEnds (fun text => readAttributes quote lastNonWs text index) text index result inner behind := by
  induction text generalizing quote lastNonWs index with
  | nil => contradiction
  | cons character rest ih =>
      have grows : forall {quote' lastNonWs' : Option Char},
          (forall text, readAttributes quote lastNonWs (character :: text) index =
            readAttributes quote' lastNonWs' text (index + 1)) ->
          Exists fun inner => Exists fun behind =>
            TagEnds (fun text => readAttributes quote lastNonWs text index) (character :: rest) index result
              inner behind := by
        intro quote' lastNonWs' step
        rcases ih (step rest ▸ found) with ⟨inner, behind, ends⟩
        refine ⟨character :: inner, behind, ⟨by rw [ends.split]; rfl, ?_, fun more => ?_⟩⟩
        · rw [ends.length, List.length_cons]
          omega
        · rw [List.cons_append, step]
          exact ends.stays more
      cases quote with
      | some quoteCharacter =>
          apply grows
          intro text
          rfl
      | none =>
          by_cases quoted : isQuote character = true
          · apply grows
            intro text
            simp only [readAttributes, quoted, if_true]
            rfl
          · by_cases bracket : character = '>'
            · subst bracket
              simp only [readAttributes, quoted, Bool.false_eq_true, if_false, if_true, Option.some.injEq] at found
              refine ⟨[], rest, ⟨rfl, by rw [← found]; rfl, fun more => ?_⟩⟩
              simp only [List.nil_append, readAttributes, quoted, Bool.false_eq_true, if_false, if_true]
              rw [found]
            · by_cases space : isAsciiWhitespace character = true
              · apply grows
                intro text
                simp only [readAttributes, quoted, bracket, space, Bool.false_eq_true, if_false, if_true]
                rfl
              · apply grows
                intro text
                simp only [readAttributes, quoted, bracket, space, Bool.false_eq_true, if_false]
                rfl

/-- The part of a text that satisfies a test is the same when only the text behind its
end changes. -/
theorem span_append_bracket {test : Char -> Bool} (stops : test '>' = false) {beginning inner : List Char}
    (all : forall character, character ∈ beginning -> test character = true)
    (first : (inner ++ ['>']).head?.any test = false) (more : List Char) :
    (beginning ++ (inner ++ '>' :: more)).takeWhile test = beginning ∧
      (beginning ++ (inner ++ '>' :: more)).dropWhile test = inner ++ '>' :: more := by
  have stop : (inner ++ '>' :: more).takeWhile test = [] ∧
      (inner ++ '>' :: more).dropWhile test = inner ++ '>' :: more := by
    cases inner with
    | nil => simp [stops]
    | cons character rest =>
        have failed : test character = false := by simpa using first
        simp [failed]
  constructor
  · rw [List.takeWhile_append_of_pos all, stop.1, List.append_nil]
  · rw [List.dropWhile_append_of_pos all, stop.2]

theorem readClose_ends {text : List Char} {index : Nat} {result : ThinkTag × Nat}
    (found : readClose text index = some result) :
    Exists fun inner => Exists fun behind =>
      TagEnds (fun text => readClose text index) text index result inner behind := by
  unfold readClose at found
  split at found
  · rename_i behind rest
    have split : text = text.takeWhile isAsciiWhitespace ++ '>' :: behind := by
      rw [← rest, List.takeWhile_append_dropWhile]
    refine ⟨text.takeWhile isAsciiWhitespace, behind, ⟨split, ?_, fun more => ?_⟩⟩
    · rw [← Option.some.inj found]
    · have stops : isAsciiWhitespace '>' = false := rfl
      have spaces : forall character, character ∈ text.takeWhile isAsciiWhitespace ->
          isAsciiWhitespace character = true := fun character member => List.mem_takeWhile_imp member
      have first : ([] ++ ['>']).head?.any isAsciiWhitespace = false := rfl
      have span := span_append_bracket stops spaces first more
      simp only [List.nil_append] at span
      simp only [readClose, span.1, span.2]
      exact found
  · contradiction

/-- Behind the name, what is read starts with a character that ends the name. -/
theorem head_dropWhile_alphabetic {named inner behind : List Char}
    (split : named.dropWhile isAsciiAlphabetic = inner ++ '>' :: behind) :
    (inner ++ ['>']).head?.any isAsciiAlphabetic = false := by
  cases inner with
  | nil => rfl
  | cons character rest =>
      have stopped := List.head?_dropWhile_not isAsciiAlphabetic named
      rw [split] at stopped
      simpa using stopped

theorem validOpenBoundary_inner (inner left right : List Char) :
    validOpenBoundary (inner ++ '>' :: left) = validOpenBoundary (inner ++ '>' :: right) := by
  cases inner with
  | nil => rfl
  | cons character rest => rfl

theorem readName_ends {isClose : Bool} {named : List Char} {index : Nat} {result : ThinkTag × Nat}
    (found : readName isClose named index = some result) :
    Exists fun inner => Exists fun behind =>
      TagEnds (fun text => readName isClose text index) named index result
        (named.takeWhile isAsciiAlphabetic ++ inner) behind := by
  have whole : named = named.takeWhile isAsciiAlphabetic ++ named.dropWhile isAsciiAlphabetic :=
    List.takeWhile_append_dropWhile.symm
  simp only [readName] at found
  split at found
  · contradiction
  · rename_i known
    have spans : forall {inner behind : List Char}, named.dropWhile isAsciiAlphabetic = inner ++ '>' :: behind ->
        forall more,
        (named.takeWhile isAsciiAlphabetic ++ (inner ++ '>' :: more)).takeWhile isAsciiAlphabetic =
          named.takeWhile isAsciiAlphabetic ∧
        (named.takeWhile isAsciiAlphabetic ++ (inner ++ '>' :: more)).dropWhile isAsciiAlphabetic =
          inner ++ '>' :: more := by
      intro inner behind split more
      exact span_append_bracket rfl (fun character member => List.mem_takeWhile_imp member)
        (head_dropWhile_alphabetic split) more
    cases isClose with
    | true =>
        rw [if_pos rfl] at found
        rcases readClose_ends found with ⟨inner, behind, ends⟩
        refine ⟨inner, behind, ⟨?_, ?_, fun more => ?_⟩⟩
        · rw [List.append_assoc, ← ends.split]
          exact whole
        · rw [ends.length, List.length_append]
          omega
        · have span := spans ends.split more
          simp only [readName, List.append_assoc, span.1, span.2, known, if_true]
          exact ends.stays more
    | false =>
        rw [if_neg Bool.false_ne_true] at found
        split at found
        · contradiction
        · rename_i boundary
          rcases readAttributes_ends found with ⟨inner, behind, ends⟩
          refine ⟨inner, behind, ⟨?_, ?_, fun more => ?_⟩⟩
          · rw [List.append_assoc, ← ends.split]
            exact whole
          · rw [ends.length, List.length_append]
            omega
          · have span := spans ends.split more
            have sameBoundary := validOpenBoundary_inner inner behind more
            rw [← ends.split] at sameBoundary
            simp only [readName, List.append_assoc, span.1, span.2, known, Bool.false_eq_true, if_false,
              ← sameBoundary, boundary]
            exact ends.stays more

/-- The name of a tag has at least five letters. -/
theorem isThinkName_length {name : List Char} (known : isThinkName name = true) : 5 ≤ name.length := by
  simp only [isThinkName, eqIgnoreAsciiCase, Bool.or_eq_true, beq_iff_eq] at known
  rcases known with same | same
  · have lengths := congrArg List.length same
    simp at lengths
    omega
  · have lengths := congrArg List.length same
    simp at lengths
    omega

/-- What a complete tag at the start of a text is made of: at least seven characters,
the last of them a bracket, whatever follows. -/
theorem parseThinkTag_ends {text : List Char} {kind : ThinkTag} {length : Nat}
    (found : parseThinkTag text = some (kind, length)) :
    Exists fun inner => Exists fun behind => text = inner ++ '>' :: behind ∧ length = inner.length + 1 ∧
      6 ≤ inner.length ∧ forall more, parseThinkTag (inner ++ '>' :: more) = some (kind, length) := by
  have nameKnown : forall {isClose : Bool} {named : List Char} {index : Nat} {result : ThinkTag × Nat},
      readName isClose named index = some result -> 5 ≤ (named.takeWhile isAsciiAlphabetic).length := by
    intro isClose named index result read
    simp only [readName] at read
    split at read
    · contradiction
    · rename_i known
      exact isThinkName_length (by simpa using known)
  unfold parseThinkTag at found
  split at found
  · rename_i named
    have enough := nameKnown found
    rcases readName_ends found with ⟨inner, behind, ends⟩
    refine ⟨'<' :: '/' :: (named.takeWhile isAsciiAlphabetic ++ inner), behind, ?_, ?_, ?_, fun more => ?_⟩
    · exact congrArg (fun text => '<' :: '/' :: text) ends.split
    · have length := ends.length
      simp only [List.length_cons] at length ⊢
      omega
    · simp only [List.length_cons, List.length_append]
      omega
    · exact ends.stays more
  · rename_i named noSlash
    have enough := nameKnown found
    rcases readName_ends found with ⟨inner, behind, ends⟩
    have shape : Exists fun letter => Exists fun letters =>
        named.takeWhile isAsciiAlphabetic = letter :: letters ∧ letter ≠ '/' := by
      cases first : named.takeWhile isAsciiAlphabetic with
      | nil =>
          rw [first] at enough
          contradiction
      | cons letter letters =>
          refine ⟨letter, letters, rfl, ?_⟩
          intro slash
          have alphabetic : isAsciiAlphabetic letter = true := by
            apply List.mem_takeWhile_imp (l := named)
            rw [first]
            exact List.mem_cons_self
          rw [slash] at alphabetic
          contradiction
    refine ⟨'<' :: (named.takeWhile isAsciiAlphabetic ++ inner), behind, ?_, ?_, ?_, fun more => ?_⟩
    · exact congrArg (fun text => '<' :: text) ends.split
    · have length := ends.length
      simp only [List.length_cons] at length ⊢
      omega
    · simp only [List.length_cons, List.length_append]
      omega
    · have stays := ends.stays more
      rcases shape with ⟨letter, letters, first, notSlash⟩
      rw [first] at stays ⊢
      simp only [List.cons_append] at stays ⊢
      unfold parseThinkTag
      split
      · rename_i same
        simp only [List.cons.injEq, true_and] at same
        exact absurd same.1 notSlash
      · rename_i same
        simp only [List.cons.injEq, true_and] at same
        rw [← same]
        exact stays
      · rename_i notOpen
        exact absurd rfl (notOpen _)
  · contradiction

/-! ## Tags in longer texts -/

theorem parseThinkTag_head {text : List Char} {result : ThinkTag × Nat} (found : parseThinkTag text = some result) :
    text.head? = some '<' := by
  unfold parseThinkTag at found
  split at found
  · rfl
  · rfl
  · contradiction

theorem parseThinkTag_bounds {text : List Char} {kind : ThinkTag} {length : Nat}
    (found : parseThinkTag text = some (kind, length)) : 7 ≤ length ∧ length ≤ text.length := by
  rcases parseThinkTag_ends found with ⟨inner, behind, split, size, enough, _⟩
  rw [split, List.length_append, List.length_cons]
  omega

theorem parseThinkTag_append {text : List Char} {kind : ThinkTag} {length : Nat}
    (found : parseThinkTag text = some (kind, length)) (more : List Char) :
    parseThinkTag (text ++ more) = some (kind, length) := by
  rcases parseThinkTag_ends found with ⟨inner, behind, split, _, _, stays⟩
  rw [split, List.append_assoc, List.cons_append]
  exact stays (behind ++ more)

theorem parseThinkTag_of_append {text more : List Char} {kind : ThinkTag} {length : Nat}
    (found : parseThinkTag (text ++ more) = some (kind, length)) (inside : length ≤ text.length) :
    parseThinkTag text = some (kind, length) := by
  rcases parseThinkTag_ends found with ⟨inner, behind, split, size, _, stays⟩
  have beginning : inner ++ ['>'] <+: text := by
    have tagged : inner ++ ['>'] <+: text ++ more := by
      rw [split]
      exact ⟨behind, by simp⟩
    apply List.prefix_of_prefix_length_le tagged (List.prefix_append text more)
    rw [List.length_append, List.length_singleton]
    omega
  rcases beginning with ⟨rest, whole⟩
  rw [← whole, List.append_assoc, List.singleton_append]
  exact stays rest

theorem parseThinkTag_crosses {text before behind : List Char} {kind : ThinkTag} {length : Nat}
    (found : parseThinkTag (text ++ (before ++ '>' :: behind)) = some (kind, length))
    (none : parseThinkTag text = none) (first : '>' ∉ before) : text.length + before.length + 1 ≤ length := by
  rcases parseThinkTag_ends found with ⟨inner, rest, split, size, _, _⟩
  have beyond : text.length < length := by
    by_contra short
    rw [parseThinkTag_of_append found (by omega)] at none
    contradiction
  by_contra tooShort
  have bracket : (text ++ (before ++ '>' :: behind))[inner.length]? = some '>' := by
    rw [split, List.getElem?_append_right (Nat.le_refl _)]
    simp
  rw [List.getElem?_append_right (by omega), List.getElem?_append_left (by omega)] at bracket
  exact first (List.mem_of_getElem? bracket)

end AIBuddy
