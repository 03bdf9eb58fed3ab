import AIBuddy.Recipe.RenderedRecipe

namespace AIBuddy
namespace RecipeTemplate

/-!
# A template engine by scanning

An engine whose only expressions are variables.  It scans a template once and has what is
relied on of the engine, so that the results about prepared recipes apply to something that
can be evaluated.
-/

open Occurrences

/-! ## Scanning -/

/-- The words of the expression grammar that are no variables. -/
def keywords : List (List Char) :=
  [['n', 'o', 't'], ['a', 'n', 'd'], ['o', 'r'], ['i', 'n'], ['i', 's'], ['i', 'f'], ['e', 'l', 's', 'e'],
    ['t', 'r', 'u', 'e'], ['f', 'a', 'l', 's', 'e'], ['n', 'o', 'n', 'e']]

def isName (name : List Char) : Bool :=
  isIdentifier name && !keywords.contains name

/-- The text behind a tag that ends a raw block, when the text starts with one. -/
def closesRaw : List Char -> Option (List Char)
  | [] => none
  | symbol :: rest =>
      if symbol = '\x7b' ∧ endsRaw (rest.takeWhile (· != '\x7d')) = true then some ((rest.dropWhile (· != '\x7d')).drop 1)
      else none

/-- The text of a raw block and the text behind its end. -/
def rawText : List Char -> Option (List Char × List Char)
  | [] => none
  | symbol :: rest =>
      match closesRaw (symbol :: rest) with
      | some behind => some ([], behind)
      | none => (rawText rest).map fun parts => (symbol :: parts.1, parts.2)

/-- Render a template with at most so many steps. -/
def scanFrom (params : List Char -> Option (List Char)) : Nat -> List Char -> Option (List Char)
  | 0, _ => none
  | _ + 1, [] => some []
  | steps + 1, symbol :: rest =>
      if openBrace.isPrefixOf (symbol :: rest) then
        (cut closeBrace (rest.drop 1)).bind fun parts =>
          if isName (trimmed parts.1) then
            (params (trimmed parts.1)).bind fun value => (scanFrom params steps parts.2).map fun later => value ++ later
          else none
      else if rawTag.isPrefixOf (symbol :: rest) then
        (rawText (rest.drop 8)).bind fun parts => (scanFrom params steps parts.2).map fun later => parts.1 ++ later
      else if ['\x7b', '%'].isPrefixOf (symbol :: rest) then none
      else (scanFrom params steps rest).map fun later => symbol :: later

def scanEngine : Engine where
  parses content := isName (trimmed content)
  isVariable := isName
  render content params := scanFrom params (content.length + 1) content

/-! ## Raw blocks -/

theorem rawText_plain {front : List Char} (missing : '\x7b' ∉ front) (rest : List Char) :
    rawText (front ++ rest) = (rawText rest).map fun parts => (front ++ parts.1, parts.2) := by
  induction front with
  | nil => exact Option.map_id'.symm
  | cons symbol front ih =>
      rw [List.mem_cons, not_or] at missing
      have unopened : closesRaw (symbol :: (front ++ rest)) = none := by
        rw [closesRaw, if_neg]
        exact fun closes => missing.1 closes.1.symm
      rw [List.cons_append, rawText, unopened, ih missing.2, Option.map_map]
      rfl

theorem rawText_brace {rest : List Char} (stays : endsRaw (rest.takeWhile (· != '\x7d')) = false) :
    rawText ('\x7b' :: rest) = (rawText rest).map fun parts => ('\x7b' :: parts.1, parts.2) := by
  have unclosed : closesRaw ('\x7b' :: rest) = none := by
    rw [closesRaw, if_neg]
    rw [stays]
    exact fun closes => Bool.false_ne_true closes.2
  rw [rawText, unclosed]

theorem rawText_tags (depth : Nat) (rest : List Char) :
    rawText ((List.replicate depth rawTag).flatten ++ rest) =
      (rawText rest).map fun parts => ((List.replicate depth rawTag).flatten ++ parts.1, parts.2) := by
  induction depth with
  | zero => exact Option.map_id'.symm
  | succ depth ih =>
      have split : rawTag = '\x7b' :: ['%', ' ', 'r', 'a', 'w', ' ', '%', '\x7d'] := rfl
      rw [List.replicate_succ, List.flatten_cons, List.append_assoc, split, List.cons_append, rawText_brace (by rfl),
        rawText_plain (by decide), ← split, ih, Option.map_map, Option.map_map]
      rfl

theorem takeWhile_closed {content : List Char} (free : '\x7d' ∉ content) (rest : List Char) :
    (content ++ '\x7d' :: rest).takeWhile (· != '\x7d') = content := by
  rw [List.takeWhile_append_of_pos, List.takeWhile_cons_of_neg, List.append_nil]
  · exact fun different => bne_iff_ne.mp different rfl
  · exact fun character member => bne_iff_ne.mpr fun same => free (same ▸ member)

theorem rawText_braced (content rest : List Char) :
    rawText (braced content ++ rest) =
      (rawText ('\x7b' :: (content ++ '\x7d' :: '\x7d' :: rest))).map fun parts => ('\x7b' :: parts.1, parts.2) := by
  have opens : braced content ++ rest = '\x7b' :: '\x7b' :: (content ++ '\x7d' :: '\x7d' :: rest) := by
    simp only [braced, openBrace, closeBrace, List.append_assoc, List.cons_append, List.nil_append]
  rw [opens, rawText_brace]
  rfl

theorem rawText_endTag (rest : List Char) : rawText (endRawTag ++ rest) = some ([], rest) :=
  rfl

theorem rawText_body {content : List Char} (free : BraceFree content) (stays : endsRaw content = false) (depth : Nat)
    (rest : List Char) :
    rawText (Segment.rawBody depth content ++ (endRawTag ++ rest)) = some (Segment.rawBody depth content, rest) := by
  have behind : '\x7b' ∉ content ++ ['\x7d', '\x7d'] :=
    fun inside => (List.mem_append.mp inside).elim free.1 (by decide)
  have inner : rawText ('\x7b' :: (content ++ '\x7d' :: '\x7d' :: (endRawTag ++ rest))) =
      some ('\x7b' :: (content ++ ['\x7d', '\x7d']), rest) := by
    have split : content ++ '\x7d' :: '\x7d' :: (endRawTag ++ rest) = (content ++ ['\x7d', '\x7d']) ++ (endRawTag ++ rest) := by
      simp only [List.append_assoc, List.cons_append, List.nil_append]
    rw [rawText_brace (by rw [takeWhile_closed free.2, stays]), split, rawText_plain behind, rawText_endTag, Option.map_some,
      Option.map_some, List.append_nil]
  rw [Segment.rawBody, List.append_assoc, rawText_tags, rawText_braced, inner, Option.map_some, Option.map_some]
  rfl

theorem rawText_closed {content : List Char} (free : BraceFree content) (ends : endsRaw content = true) (depth : Nat)
    (rest : List Char) :
    rawText (Segment.rawBody depth content ++ rest) =
      some ((List.replicate depth rawTag).flatten ++ ['\x7b'], '\x7d' :: rest) := by
  have closes : closesRaw ('\x7b' :: (content ++ '\x7d' :: '\x7d' :: rest)) = some ('\x7d' :: rest) := by
    have dropped : (content ++ '\x7d' :: '\x7d' :: rest).dropWhile (· != '\x7d') = '\x7d' :: '\x7d' :: rest := by
      rw [List.dropWhile_append_of_pos, List.dropWhile_cons_of_neg]
      · exact fun different => bne_iff_ne.mp different rfl
      · exact fun character member => bne_iff_ne.mpr fun same => free.2 (same ▸ member)
    rw [closesRaw, takeWhile_closed free.2, if_pos ⟨rfl, ends⟩, dropped]
    rfl
  rw [Segment.rawBody, List.append_assoc, rawText_tags, rawText_braced, rawText, closes, Option.map_some, Option.map_some]

/-! ## Segments -/

section Scan

variable {params : List Char -> Option (List Char)}

/-- A text with a value in front of what is rendered later. -/
def Scans (params : List Char -> Option (List Char)) (written value : List Char) : Prop :=
  forall (rest : List Char) (steps : Nat), (written ++ rest).length < steps -> Exists fun left =>
    rest.length < left ∧ scanFrom params steps (written ++ rest) = (scanFrom params left rest).map fun later => value ++ later

theorem Scans.nil : Scans params [] [] := by
  intro rest steps enough
  exact ⟨steps, enough, Option.map_id'.symm⟩

theorem Scans.append {first second firstValue secondValue : List Char} (one : Scans params first firstValue)
    (two : Scans params second secondValue) : Scans params (first ++ second) (firstValue ++ secondValue) := by
  intro rest steps enough
  rw [List.append_assoc] at enough ⊢
  rcases one (second ++ rest) steps enough with ⟨middle, middleEnough, firstScanned⟩
  rcases two rest middle middleEnough with ⟨left, leftEnough, secondScanned⟩
  refine ⟨left, leftEnough, ?_⟩
  rw [firstScanned, secondScanned, Option.map_map]
  congr 1
  funext later
  exact (List.append_assoc _ _ _).symm

theorem scans_symbol {symbol : Char} (ordinary : symbol ≠ '\x7b') : Scans params [symbol] [symbol] := by
  intro rest steps enough
  cases steps with
  | zero => exact absurd enough (Nat.not_lt_zero _)
  | succ steps =>
      have notTag : forall tag : List Char, ¬ ('\x7b' :: tag).isPrefixOf (symbol :: rest) = true := by
        intro tag leading
        exact ordinary (List.cons_prefix_cons.mp (List.isPrefixOf_iff_prefix.mp leading)).1.symm
      have notOpening : ¬ openBrace.isPrefixOf (symbol :: rest) = true := notTag _
      have notRaw : ¬ rawTag.isPrefixOf (symbol :: rest) = true := notTag _
      refine ⟨steps, Nat.lt_of_succ_lt_succ enough, ?_⟩
      rw [List.singleton_append, scanFrom, if_neg notOpening, if_neg notRaw, if_neg (notTag _)]
      rfl

theorem scans_plain {text : List Char} (missing : '\x7b' ∉ text) : Scans params text text := by
  induction text with
  | nil => exact Scans.nil
  | cons symbol text ih =>
      rw [List.mem_cons, not_or] at missing
      exact (scans_symbol fun same => missing.1 same.symm).append (ih missing.2)

theorem scanFrom_braced {content : List Char} (free : BraceFree content) (rest : List Char) (steps : Nat) :
    scanFrom params (steps + 1) (braced content ++ rest) =
      if isName (trimmed content) then
        (params (trimmed content)).bind fun value => (scanFrom params steps rest).map fun later => value ++ later
      else none := by
  have opens : braced content ++ rest = '\x7b' :: '\x7b' :: (content ++ (closeBrace ++ rest)) := by
    simp only [braced, openBrace, List.append_assoc, List.cons_append, List.nil_append]
  have found : cut closeBrace (content ++ (closeBrace ++ rest)) = some (content, rest) := by
    have clear : Clear closeBrace content (closeBrace ++ rest) := clear_of_missing free.2 _ _
    have nonempty : closeBrace ≠ [] := List.cons_ne_nil _ _
    rw [cut_clear clear, cut_pattern nonempty, Option.map_some, List.append_nil]
  have opening : openBrace.isPrefixOf ('\x7b' :: '\x7b' :: (content ++ (closeBrace ++ rest))) = true := rfl
  rw [opens, scanFrom, if_pos opening, List.drop_succ_cons, List.drop_zero, found, Option.bind_some]

theorem scanFrom_rawTag (rest : List Char) (steps : Nat) :
    scanFrom params (steps + 1) (rawTag ++ rest) =
      (rawText rest).bind fun parts => (scanFrom params steps parts.2).map fun later => parts.1 ++ later :=
  rfl

theorem scans_segment {segment : Segment} (formed : segment.Formed scanEngine params) :
    Scans params segment.written (segment.value params) := by
  cases segment with
  | plain text => exact scans_plain formed.1
  | reference before name after =>
      rcases formed with ⟨blankBefore, blankAfter, identifier, named, supplied⟩
      have known : isName name = true := named
      rcases Option.isSome_iff_exists.mp supplied with ⟨value, found⟩
      intro rest steps enough
      cases steps with
      | zero => exact absurd enough (Nat.not_lt_zero _)
      | succ steps =>
          refine ⟨steps, ?_, ?_⟩
          · rw [List.length_append, Segment.written, braced, openBrace, List.length_append, List.length_cons] at enough
            omega
          · rw [Segment.written, scanFrom_braced (braceFree_reference blankBefore blankAfter identifier),
              trimmed_reference blankBefore blankAfter identifier, if_pos known, found, Segment.value, found]
            rfl
  | raw depth content =>
      intro rest steps enough
      cases steps with
      | zero => exact absurd enough (Nat.not_lt_zero _)
      | succ steps =>
          refine ⟨steps, ?_, ?_⟩
          · rw [List.length_append, Segment.written, List.length_append, rawTag, List.length_cons] at enough
            omega
          · rw [Segment.written, List.append_assoc, List.append_assoc, scanFrom_rawTag, rawText_body formed.1 formed.2]
            rfl

theorem scans_template {segments : List Segment} (formed : AllFormed scanEngine params segments) :
    Scans params (template segments) (segments.flatMap (Segment.value params)) := by
  induction segments with
  | nil => exact Scans.nil
  | cons segment segments ih =>
      rw [template, List.flatMap_cons, List.flatMap_cons]
      exact (scans_segment (formed segment List.mem_cons_self)).append
        (ih fun other member => formed other (List.mem_cons_of_mem _ member))

theorem scanFrom_stray (steps : Nat) (rest : List Char) : scanFrom params steps (endRawTag ++ rest) = none := by
  cases steps with
  | zero => rfl
  | succ steps => rfl

theorem scanFrom_closeBrace (steps : Nat) (rest : List Char) :
    scanFrom params (steps + 1) ('\x7d' :: rest) = (scanFrom params steps rest).map fun later => '\x7d' :: later :=
  rfl

theorem render_of_rest {segments : List Segment} (formed : AllFormed scanEngine params segments) {rest : List Char}
    (bad : forall steps, scanFrom params steps rest = none) :
    scanEngine.render (template segments ++ rest) params = none := by
  rcases scans_template formed rest _ (Nat.lt_succ_self _) with ⟨left, -, scanned⟩
  rw [bad left] at scanned
  exact scanned

theorem scanEngine_lawful : scanEngine.Lawful where
  parses_reference := by
    intro before name after blankBefore blankAfter identifier named
    change isName (trimmed (before ++ (name ++ after))) = true
    rw [trimmed_reference blankBefore blankAfter identifier]
    exact named
  render_segments := by
    intro params segments formed
    rcases scans_template formed [] _ (Nat.lt_succ_self _) with ⟨left, enough, scanned⟩
    refine ⟨segments.flatMap (Segment.value params), ?_, Or.inl rfl⟩
    cases left with
    | zero => exact absurd enough (Nat.not_lt_zero _)
    | succ left =>
        rw [List.append_nil, scanFrom, Option.map_some, List.append_nil] at scanned
        exact scanned
  render_stray rest formed := render_of_rest formed fun steps => scanFrom_stray steps rest
  render_closed depth content rest formed free ends := by
    apply render_of_rest formed
    intro steps
    cases steps with
    | zero => rfl
    | succ steps =>
        rw [scanFrom_rawTag, rawText_closed free ends, Option.bind_some]
        cases steps with
        | zero => rfl
        | succ steps => rw [scanFrom_closeBrace, scanFrom_stray, Option.map_none, Option.map_none]
  render_malformed rest formed free _ _ _ unparsed := by
    apply render_of_rest formed
    intro steps
    cases steps with
    | zero => rfl
    | succ steps =>
        have unknown : ¬ isName (trimmed _) = true := Bool.eq_false_iff.mp unparsed
        rw [scanFrom_braced free, if_neg unknown]

end Scan

/-! ## Two recipes -/

def greetingParams (name : List Char) : Option (List Char) :=
  if name = ['n', 'a', 'm', 'e'] then some ['B', 'o'] else none

/-- A greeting with a reference and a span. -/
def greeting : List Piece :=
  [.literal ['H', 'i', ' '], .reference [' '] ['n', 'a', 'm', 'e'] [' '], .span ['t', 'h', 'e', ' ', 'e', 'n', 'd']]

theorem greeting_readable : AllReadable scanEngine greetingParams greeting :=
  allReadable_cons (by decide) (allReadable_cons (by decide) (allReadable_cons (by decide)
    fun piece member => absurd member List.not_mem_nil))

theorem greeting_returned :
    Returned scanEngine greetingParams greeting ∧ (Returned scanEngine greetingParams greeting ↔ Survives greeting) := by
  have survives : Survives greeting := by
    refine ⟨?_, by decide⟩
    rw [colonQuotes_iff, not_not]
    decide
  have stays : forall content, content ∈ spans greeting -> StaysUnparseable scanEngine content := by
    intro content member
    rw [List.mem_singleton.mp member]
    exact ⟨by decide, by decide⟩
  exact ⟨(returned_iff scanEngine_lawful greeting_readable).1 survives,
    (returned_iff scanEngine_lawful greeting_readable).2 stays⟩

/-- The same span twice. -/
def repeated : List Piece :=
  [.span ['m', 'y', ' ', 'm', 'o', 'd', 'e', 'l'], .literal [' '], .span ['m', 'y', ' ', 'm', 'o', 'd', 'e', 'l']]

theorem repeated_span_fails :
    ¬ forall (engine : Engine) (params : List Char -> Option (List Char)) (pieces : List Piece), engine.Lawful ->
      AllReadable engine params pieces -> (forall piece, piece ∈ pieces -> piece.Unquoted) ->
      Returned engine params pieces := by
  intro always
  have readable : AllReadable scanEngine (fun _ => none) repeated :=
    allReadable_cons (by decide) (allReadable_cons (by decide) (allReadable_cons (by decide)
      fun piece member => absurd member List.not_mem_nil))
  have unquoted : forall piece, piece ∈ repeated -> piece.Unquoted := by
    intro piece member
    rcases List.mem_cons.mp member with rfl | member
    · rfl
    · rcases List.mem_cons.mp member with rfl | member
      · rw [Piece.Unquoted, colonQuotes_iff, not_not]
        rfl
      · rw [List.mem_singleton.mp member]
        rfl
  rcases always scanEngine (fun _ => none) repeated scanEngine_lawful readable unquoted with ⟨text, returned, -⟩
  have same : replaceEmptyQuotes (document repeated) = document repeated := by decide +kernel
  have plain : forall content, content ∈ spans repeated -> startsQuoted (trimmed content) = false :=
    List.forall_mem_cons.mpr ⟨rfl, List.forall_mem_cons.mpr ⟨rfl, List.forall_mem_nil _⟩⟩
  rw [renderRecipeContentWithParams, same, render_not_single scanEngine_lawful readable plain
    (by decide)] at returned
  contradiction

end RecipeTemplate
end AIBuddy
