import AIBuddy.Recipe.RawBlocks

namespace AIBuddy
namespace RecipeTemplate

/-!
# Empty strings behind colons

The preparation first writes an empty string behind a colon with single quotes.  The texts with
such a string are changed by that at a place where both have a character, and the other texts
are not changed.  A brace ends the search, so that the pieces of a recipe are changed one by
one, text before and behind a literal's end taken together.
-/

/-! ## One text -/

theorem replaceEmptyQuotesFrom_skip (skip : Nat) (text : List Char) :
    replaceEmptyQuotesFrom skip text = replaceEmptyQuotes (text.drop skip) := by
  induction text generalizing skip with
  | nil => rw [List.drop_nil, replaceEmptyQuotes, replaceEmptyQuotesFrom, replaceEmptyQuotesFrom]
  | cons symbol rest ih =>
      cases skip with
      | zero => rfl
      | succ skip => rw [replaceEmptyQuotesFrom, ih, List.drop_succ_cons]

theorem replaceEmptyQuotes_found {rest : List Char} {length : Nat} (found : emptyQuotesLength rest = some length) :
    replaceEmptyQuotes (':' :: rest) = [':', ' ', '\x27', '\x27'] ++ replaceEmptyQuotes (rest.drop length) := by
  rw [← replaceEmptyQuotesFrom_skip, replaceEmptyQuotes, replaceEmptyQuotesFrom, if_pos rfl, found]

theorem replaceEmptyQuotes_missed {symbol : Char} {rest : List Char}
    (missed : (if symbol = ':' then emptyQuotesLength rest else none) = none) :
    replaceEmptyQuotes (symbol :: rest) = symbol :: replaceEmptyQuotes rest := by
  rw [replaceEmptyQuotes, replaceEmptyQuotesFrom, missed]
  rfl

theorem emptyQuotesLength_eq_some_iff (text : List Char) (length : Nat) :
    emptyQuotesLength text = some length ↔ Exists fun white => Exists fun after =>
      text = white ++ '\x22' :: '\x22' :: after ∧ Blank white ∧ length = white.length + 2 := by
  rw [emptyQuotesLength]
  constructor
  · intro found
    split at found
    case isTrue quotes =>
        cases found
        rcases List.isPrefixOf_iff_prefix.mp quotes with ⟨after, same⟩
        refine ⟨text.takeWhile Text.isWhitespace, after, ?_, fun character member => List.mem_takeWhile_imp member, rfl⟩
        have whole := List.takeWhile_append_dropWhile (p := Text.isWhitespace) (l := text)
        have behind : text.drop (text.takeWhile Text.isWhitespace).length = text.dropWhile Text.isWhitespace := by
          conv => lhs; arg 2; rw [← whole]
          rw [List.drop_left]
        rw [behind] at same
        exact whole.symm.trans (congrArg _ same.symm)
    case isFalse => contradiction
  · rintro ⟨white, after, same, blank, rfl⟩
    have taken : text.takeWhile Text.isWhitespace = white := by
      rw [same, List.takeWhile_append_of_pos blank, List.takeWhile_cons_of_neg (by decide), List.append_nil]
    rw [taken, same, List.drop_left]
    rfl

/-- The two texts have the same beginning, and behind it two characters that differ, of which
the second does not end a line. -/
def Diverges (text other : List Char) : Prop :=
  Exists fun front => Exists fun first => Exists fun rest => Exists fun second => Exists fun otherRest =>
    text = front ++ first :: rest ∧ other = front ++ second :: otherRest ∧ first ≠ second ∧ second ≠ '\n' ∧ second ≠ '\r'

theorem Diverges.behind {text other : List Char} (diverges : Diverges text other) (front back otherBack : List Char) :
    Diverges (front ++ (text ++ back)) (front ++ (other ++ otherBack)) := by
  rcases diverges with ⟨same, first, rest, second, otherRest, rfl, rfl, different⟩
  refine ⟨front ++ same, first, rest ++ back, second, otherRest ++ otherBack, ?_, ?_, different⟩
  · simp only [List.append_assoc, List.cons_append]
  · simp only [List.append_assoc, List.cons_append]

theorem Diverges.ne {text other : List Char} (diverges : Diverges text other) : text ≠ other := by
  rcases diverges with ⟨front, first, rest, second, otherRest, rfl, rfl, different, -⟩
  intro same
  exact different (List.cons.inj (List.append_cancel_left same)).1

theorem replaceEmptyQuotes_cases (text : List Char) :
    (¬ ColonQuotes text ∧ replaceEmptyQuotes text = text) ∨
      (ColonQuotes text ∧ Diverges text (replaceEmptyQuotes text)) := by
  induction text with
  | nil =>
      refine Or.inl ⟨?_, rfl⟩
      rintro ⟨before, white, after, same, -⟩
      exact absurd same.symm (List.append_ne_nil_of_right_ne_nil _ (List.cons_ne_nil _ _))
  | cons symbol rest ih =>
      cases found : (if symbol = ':' then emptyQuotesLength rest else none) with
      | none =>
          rw [replaceEmptyQuotes_missed found]
          rcases ih with ⟨without, same⟩ | ⟨inside, diverges⟩
          · refine Or.inl ⟨?_, by rw [same]⟩
            rintro ⟨before, white, after, shape, blank⟩
            cases before with
            | nil =>
                rcases List.cons.inj shape with ⟨colon, behind⟩
                have length := (emptyQuotesLength_eq_some_iff rest _).mpr ⟨white, after, behind, blank, rfl⟩
                rw [if_pos colon, length] at found
                contradiction
            | cons first before =>
                exact without ⟨before, white, after, (List.cons.inj shape).2, blank⟩
          · rcases inside with ⟨before, white, after, shape, blank⟩
            refine Or.inr ⟨⟨symbol :: before, white, after, by rw [shape, List.cons_append], blank⟩, ?_⟩
            have further := diverges.behind [symbol] [] []
            rw [List.append_nil, List.append_nil] at further
            exact further
      | some length =>
          rw [ite_eq_iff] at found
          rcases found with ⟨colon, found⟩ | ⟨-, found⟩
          · rcases (emptyQuotesLength_eq_some_iff rest length).mp found with ⟨white, after, shape, blank, -⟩
            rw [colon, replaceEmptyQuotes_found found, shape]
            refine Or.inr ⟨⟨[], white, after, rfl, blank⟩, ?_⟩
            generalize replaceEmptyQuotes _ = changed
            cases white with
            | nil =>
                exact ⟨[':'], '\x22', '\x22' :: after, ' ', ['\x27', '\x27'] ++ changed, rfl, rfl, by decide, by decide, by decide⟩
            | cons space white =>
                by_cases plain : space = ' '
                · rw [plain]
                  cases white with
                  | nil =>
                      exact ⟨[':', ' '], '\x22', '\x22' :: after, '\x27', '\x27' :: changed, rfl, rfl, by decide, by decide,
                        by decide⟩
                  | cons next white =>
                      have notQuote : next ≠ '\x27' := by
                        intro same
                        have white := blank next (List.mem_cons_of_mem _ List.mem_cons_self)
                        rw [same] at white
                        contradiction
                      exact ⟨[':', ' '], next, white ++ '\x22' :: '\x22' :: after, '\x27', '\x27' :: changed, rfl, rfl, notQuote,
                        by decide, by decide⟩
                · exact ⟨[':'], space, white ++ '\x22' :: '\x22' :: after, ' ', ['\x27', '\x27'] ++ changed, rfl, rfl, plain,
                    by decide, by decide⟩
          · contradiction

theorem colonQuotes_iff (text : List Char) : ColonQuotes text ↔ replaceEmptyQuotes text ≠ text := by
  rcases replaceEmptyQuotes_cases text with ⟨without, same⟩ | ⟨inside, diverges⟩
  · exact ⟨fun inside => absurd inside without, fun changed => absurd same changed⟩
  · exact ⟨fun _ => diverges.ne.symm, fun _ => inside⟩

theorem mem_replaceEmptyQuotes {text : List Char} {character : Char} (member : character ∈ replaceEmptyQuotes text) :
    character ∈ text ∨ character ∈ [':', ' ', '\x27'] := by
  generalize bound : text.length = length
  induction length using Nat.strong_induction_on generalizing text with
  | _ length ih =>
      cases text with
      | nil => cases member
      | cons symbol rest =>
          have shorter : rest.length < length := by
            rw [← bound, List.length_cons]
            omega
          cases found : (if symbol = ':' then emptyQuotesLength rest else none) with
          | none =>
              rw [replaceEmptyQuotes_missed found, List.mem_cons] at member
              rcases member with here | later
              · exact Or.inl (here ▸ List.mem_cons_self)
              · exact (ih rest.length shorter later rfl).imp_left (List.mem_cons_of_mem _)
          | some skipped =>
              rw [ite_eq_iff] at found
              rcases found with ⟨colon, found⟩ | ⟨-, found⟩
              · rw [colon, replaceEmptyQuotes_found found, List.mem_append] at member
                rcases member with written | later
                · right
                  simp only [List.mem_cons, List.not_mem_nil, or_false] at written ⊢
                  tauto
                · have dropped : (rest.drop skipped).length < length := by
                    rw [List.length_drop]
                    omega
                  refine (ih _ dropped later rfl).imp_left fun inRest => ?_
                  exact List.mem_cons_of_mem _ (List.mem_of_mem_drop inRest)
              · contradiction

/-! ## Texts one behind the other -/

/-- A character that no search goes over. -/
def Stops (stop : Char) : Prop :=
  Text.isWhitespace stop = false ∧ stop ≠ ':' ∧ stop ≠ '\x22'

theorem emptyQuotesLength_stop {stop : Char} (stops : Stops stop) (front rest : List Char) :
    emptyQuotesLength (front ++ stop :: rest) = emptyQuotesLength front := by
  apply Option.ext
  intro length
  rw [emptyQuotesLength_eq_some_iff, emptyQuotesLength_eq_some_iff]
  constructor
  · rintro ⟨white, after, shape, blank, same⟩
    rcases List.append_eq_append_iff.mp shape with ⟨more, whiteShape, restShape⟩ | ⟨more, frontShape, quotesShape⟩
    · cases more with
      | nil => exact absurd (List.cons.inj restShape).1 stops.2.2
      | cons first more =>
          have white := blank first (whiteShape ▸ List.mem_append_right _ List.mem_cons_self)
          rw [← (List.cons.inj restShape).1, stops.1] at white
          contradiction
    · cases more with
      | nil => exact absurd (List.cons.inj quotesShape).1.symm stops.2.2
      | cons first more =>
          rcases List.cons.inj quotesShape with ⟨rfl, behind⟩
          cases more with
          | nil => exact absurd (List.cons.inj behind).1.symm stops.2.2
          | cons second more =>
              rcases List.cons.inj behind with ⟨rfl, -⟩
              exact ⟨white, more, frontShape, blank, same⟩
  · rintro ⟨white, after, shape, blank, same⟩
    refine ⟨white, after ++ stop :: rest, ?_, blank, same⟩
    rw [shape]
    simp only [List.append_assoc, List.cons_append]

theorem replaceEmptyQuotes_stop {stop : Char} (stops : Stops stop) (front rest : List Char) :
    replaceEmptyQuotes (front ++ stop :: rest) = replaceEmptyQuotes front ++ stop :: replaceEmptyQuotes rest := by
  generalize bound : front.length = length
  induction length using Nat.strong_induction_on generalizing front with
  | _ length ih =>
      cases front with
      | nil => exact replaceEmptyQuotes_missed (if_neg stops.2.1)
      | cons symbol front =>
          have shorter : front.length < length := by
            rw [← bound, List.length_cons]
            omega
          rw [List.cons_append]
          cases found : (if symbol = ':' then emptyQuotesLength front else none) with
          | none =>
              have wider := found
              rw [← emptyQuotesLength_stop stops front rest] at wider
              rw [replaceEmptyQuotes_missed found, replaceEmptyQuotes_missed wider,
                ih front.length shorter front rfl, List.cons_append]
          | some skipped =>
              rw [ite_eq_iff] at found
              rcases found with ⟨rfl, found⟩ | ⟨-, found⟩
              · have wider := found
                rw [← emptyQuotesLength_stop stops front rest] at wider
                rcases (emptyQuotesLength_eq_some_iff front skipped).mp found with ⟨white, after, shape, -, same⟩
                have within : skipped ≤ front.length := by
                  rw [same, shape, List.length_append, List.length_cons, List.length_cons]
                  omega
                have dropped : (front.drop skipped).length < length := by
                  rw [List.length_drop]
                  omega
                rw [replaceEmptyQuotes_found found, replaceEmptyQuotes_found wider, List.drop_append_of_le_length within,
                  ih _ dropped _ rfl, List.append_assoc]
              · contradiction

theorem stops_openBrace : Stops '\x7b' :=
  ⟨by decide, by decide, by decide⟩

theorem stops_closeBrace : Stops '\x7d' :=
  ⟨by decide, by decide, by decide⟩

theorem replaceEmptyQuotes_braced (front content rest : List Char) :
    replaceEmptyQuotes (front ++ (braced content ++ rest)) =
      replaceEmptyQuotes front ++ (braced (replaceEmptyQuotes content) ++ replaceEmptyQuotes rest) := by
  have opens : front ++ (braced content ++ rest) =
      front ++ '\x7b' :: ([] ++ '\x7b' :: (content ++ '\x7d' :: ([] ++ '\x7d' :: rest))) := by
    simp only [braced, openBrace, closeBrace, List.append_assoc, List.cons_append, List.nil_append]
  rw [opens, replaceEmptyQuotes_stop stops_openBrace, replaceEmptyQuotes_stop stops_openBrace,
    replaceEmptyQuotes_stop stops_closeBrace, replaceEmptyQuotes_stop stops_closeBrace]
  simp only [braced, openBrace, closeBrace, replaceEmptyQuotes, replaceEmptyQuotesFrom, List.append_assoc, List.cons_append,
    List.nil_append]

theorem replaceEmptyQuotes_braceFree {text : List Char} (free : BraceFree text) : BraceFree (replaceEmptyQuotes text) := by
  refine ⟨fun inside => ?_, fun inside => ?_⟩
  · exact (mem_replaceEmptyQuotes inside).elim free.1 (by decide)
  · exact (mem_replaceEmptyQuotes inside).elim free.2 (by decide)

/-! ## Recipes -/

/-- A text without a colon is left alone. -/
theorem replaceEmptyQuotes_of_missing {text : List Char} (missing : ':' ∉ text) : replaceEmptyQuotes text = text := by
  rcases replaceEmptyQuotes_cases text with ⟨-, same⟩ | ⟨⟨before, white, after, shape, -⟩, -⟩
  · exact same
  · rw [shape] at missing
    exact absurd (List.mem_append_right _ List.mem_cons_self) missing

/-- A recipe, with text before it, after the replacement: it is made of pieces again, with the
spans changed one by one, and it is the same recipe or is rendered to something else. -/
structure Replaced (engine : Engine) (params : List Char -> Option (List Char)) (text : List Char)
    (pieces changed : List Piece) : Prop where
  written : replaceEmptyQuotes (text ++ document pieces) = document changed
  readable : AllReadable engine params changed
  spans_eq : spans changed = (spans pieces).map replaceEmptyQuotes
  outcome : (replaceEmptyQuotes (text ++ document pieces) = text ++ document pieces ∧
      rendered params changed = text ++ rendered params pieces ∧ spans changed = spans pieces) ∨
    Diverges (text ++ rendered params pieces) (rendered params changed)

section Replace

variable {engine : Engine} {params : List Char -> Option (List Char)} {text : List Char} {pieces : List Piece}

theorem allReadable_cons {piece : Piece} {others : List Piece} (first : piece.Readable engine params)
    (later : AllReadable engine params others) : AllReadable engine params (piece :: others) := by
  intro other member
  rcases List.mem_cons.mp member with here | inRest
  · rw [here]
    exact first
  · exact later other inRest

theorem replaced_nil (free : BraceFree text) : Replaced engine params text [] [.literal (replaceEmptyQuotes text)] where
  written := by
    rw [document, document, List.flatMap_nil, List.append_nil, List.flatMap_singleton, Piece.written]
  readable := allReadable_cons (replaceEmptyQuotes_braceFree free) fun piece member => absurd member List.not_mem_nil
  spans_eq := rfl
  outcome := by
    rw [document, rendered, rendered, List.flatMap_nil, List.flatMap_nil, List.append_nil, List.flatMap_singleton,
      Piece.value]
    exact (replaceEmptyQuotes_cases text).imp (fun same => ⟨same.2, same.2, rfl⟩) And.right

theorem replaced_braced {piece changedPiece : Piece} {content : List Char} {changed : List Piece} (free : BraceFree text)
    (written : piece.written = braced content) (changedWritten : changedPiece.written = braced (replaceEmptyQuotes content))
    (readable : changedPiece.Readable engine params)
    (span : changedPiece.span? = piece.span?.map replaceEmptyQuotes)
    (outcome : replaceEmptyQuotes content = content ∧ changedPiece = piece ∨
      Diverges (piece.value params) (changedPiece.value params))
    (later : Replaced engine params [] pieces changed) :
    Replaced engine params text (piece :: pieces) (.literal (replaceEmptyQuotes text) :: changedPiece :: changed) where
  written := by
    have rest := later.written
    rw [List.nil_append] at rest
    rw [document, List.flatMap_cons, written, replaceEmptyQuotes_braced, document, List.flatMap_cons, List.flatMap_cons,
      changedWritten, Piece.written]
    rw [document] at rest
    rw [rest, document]
  readable := allReadable_cons (replaceEmptyQuotes_braceFree free) (allReadable_cons readable later.readable)
  spans_eq := by
    have rest := later.spans_eq
    rw [spans, spans] at rest ⊢
    rw [List.filterMap_cons_none rfl, List.filterMap_cons, List.filterMap_cons, span, rest]
    cases piece.span? <;> rfl
  outcome := by
    have shown : rendered params (.literal (replaceEmptyQuotes text) :: changedPiece :: changed) =
        replaceEmptyQuotes text ++ (changedPiece.value params ++ rendered params changed) := by
      rw [rendered, List.flatMap_cons, List.flatMap_cons]
      rfl
    have before : rendered params (piece :: pieces) = piece.value params ++ rendered params pieces := by
      rw [rendered, List.flatMap_cons]
      rfl
    rw [shown, before]
    rcases replaceEmptyQuotes_cases text with ⟨-, sameText⟩ | ⟨-, diverges⟩
    · rw [sameText]
      rcases outcome with ⟨sameContent, rfl⟩ | diverges
      · rcases later.outcome with ⟨same, value, spansSame⟩ | diverges
        · refine Or.inl ⟨?_, ?_, ?_⟩
          · rw [List.nil_append] at same
            rw [document, List.flatMap_cons, written, replaceEmptyQuotes_braced, sameText, sameContent]
            rw [document] at same
            rw [same]
          · rw [value, List.nil_append]
          · rw [spans, spans] at spansSame ⊢
            rw [List.filterMap_cons_none rfl, List.filterMap_cons, List.filterMap_cons, spansSame]
        · right
          have further := diverges.behind (text ++ changedPiece.value params) [] []
          simp only [List.append_nil, List.nil_append, List.append_assoc] at further
          exact further
      · exact Or.inr (diverges.behind text _ _)
    · exact Or.inr (diverges.behind [] _ _)

theorem missing_colon {before name after : List Char} (blankBefore : Blank before) (blankAfter : Blank after)
    (identifier : isIdentifier name = true) : ':' ∉ before ++ (name ++ after) := by
  intro inside
  rcases List.mem_append.mp inside with early | later
  · exact absurd (blankBefore _ early) (by decide)
  · rcases List.mem_append.mp later with named | late
    · exact absurd (word_of_identifier identifier named) (by decide)
    · exact absurd (blankAfter _ late) (by decide)

theorem replaced_document (readable : AllReadable engine params pieces)
    (unparsed : forall content, content ∈ spans pieces -> engine.parses (replaceEmptyQuotes content) = false)
    (free : BraceFree text) : Exists fun changed => Replaced engine params text pieces changed := by
  induction pieces generalizing text with
  | nil => exact ⟨_, replaced_nil free⟩
  | cons piece pieces ih =>
      have own := readable piece List.mem_cons_self
      have others : AllReadable engine params pieces := fun other member => readable other (List.mem_cons_of_mem _ member)
      cases piece with
      | literal more =>
          rcases ih others unparsed (free.append own) with ⟨changed, replaced⟩
          have same : document (.literal more :: pieces) = more ++ document pieces := document_cons _ _
          have value : rendered params (.literal more :: pieces) = more ++ rendered params pieces := by
            rw [rendered, List.flatMap_cons]
            rfl
          refine ⟨changed, ?_, replaced.readable, replaced.spans_eq, ?_⟩
          · rw [same, ← List.append_assoc]
            exact replaced.written
          · rw [same, value, ← List.append_assoc, ← List.append_assoc]
            exact replaced.outcome
      | reference before name after =>
          rcases ih others unparsed ⟨List.not_mem_nil, List.not_mem_nil⟩ with ⟨changed, replaced⟩
          have same := replaceEmptyQuotes_of_missing (missing_colon own.1 own.2.1 own.2.2.1)
          exact ⟨_, replaced_braced free rfl (by rw [same]; rfl) own rfl (Or.inl ⟨same, rfl⟩) replaced⟩
      | span content =>
          have later : forall other, other ∈ spans pieces -> engine.parses (replaceEmptyQuotes other) = false :=
            fun other member => unparsed other (List.mem_cons_of_mem _ member)
          rcases ih others later ⟨List.not_mem_nil, List.not_mem_nil⟩ with ⟨changed, replaced⟩
          have single : '\n' ∉ replaceEmptyQuotes content :=
            fun inside => (mem_replaceEmptyQuotes inside).elim own.2.1 (by decide)
          have changedReadable : (Piece.span (replaceEmptyQuotes content)).Readable engine params :=
            ⟨replaceEmptyQuotes_braceFree own.1, single, unparsed content List.mem_cons_self⟩
          refine ⟨_, replaced_braced free rfl rfl changedReadable rfl ?_ replaced⟩
          rcases replaceEmptyQuotes_cases content with ⟨-, same⟩ | ⟨-, diverges⟩
          · exact Or.inl ⟨same, by rw [same]⟩
          · exact Or.inr (diverges.behind openBrace closeBrace closeBrace)

end Replace

end RecipeTemplate
end AIBuddy
