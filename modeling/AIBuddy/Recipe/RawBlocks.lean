import AIBuddy.Recipe.TemplateText

namespace AIBuddy
namespace RecipeTemplate

/-!
# Raw blocks around unparseable spans

The template variables of a text made of pieces are the contents of its braces.  Replacing one
unparseable content in the whole text puts one more raw block around each span that has it, and
leaves the other pieces alone, however many raw blocks there already are.
-/

open Occurrences

/-! ## Braces -/

theorem BraceFree.append {left right : List Char} (first : BraceFree left) (second : BraceFree right) :
    BraceFree (left ++ right) := by
  refine ⟨fun inside => ?_, fun inside => ?_⟩
  · exact (List.mem_append.mp inside).elim first.1 second.1
  · exact (List.mem_append.mp inside).elim first.2 second.2

theorem braceFree_of_blank {text : List Char} (blank : Blank text) : BraceFree text :=
  ⟨fun inside => absurd (blank _ inside) (by decide), fun inside => absurd (blank _ inside) (by decide)⟩

theorem braceFree_of_identifier {name : List Char} (identifier : isIdentifier name = true) : BraceFree name := by
  cases name with
  | nil => exact ⟨List.not_mem_nil, List.not_mem_nil⟩
  | cons first rest =>
      rw [isIdentifier, Bool.and_eq_true, List.all_eq_true] at identifier
      refine ⟨fun inside => ?_, fun inside => ?_⟩
      · rcases List.mem_cons.mp inside with here | later
        · rw [← here] at identifier
          exact absurd identifier.1 (by decide)
        · exact absurd (identifier.2 _ later) (by decide)
      · rcases List.mem_cons.mp inside with here | later
        · rw [← here] at identifier
          exact absurd identifier.1 (by decide)
        · exact absurd (identifier.2 _ later) (by decide)

theorem braceFree_reference {before name after : List Char} (blankBefore : Blank before) (blankAfter : Blank after)
    (identifier : isIdentifier name = true) : BraceFree (before ++ (name ++ after)) :=
  (braceFree_of_blank blankBefore).append ((braceFree_of_identifier identifier).append (braceFree_of_blank blankAfter))

/-- Texts without braces before two closing ones are the same when one text begins with the
other. -/
theorem eq_of_closed_front {left right rest : List Char} (first : '\x7d' ∉ left) (second : '\x7d' ∉ right)
    (leading : left ++ closeBrace <+: right ++ closeBrace ++ rest) : left = right := by
  induction left generalizing right with
  | nil =>
      cases right with
      | nil => rfl
      | cons symbol right =>
          have same := (List.cons_prefix_cons.mp leading).1
          exact absurd (same ▸ List.mem_cons_self) second
  | cons symbol left ih =>
      cases right with
      | nil =>
          have same := (List.cons_prefix_cons.mp leading).1
          exact absurd (same ▸ List.mem_cons_self) first
      | cons other right =>
          rcases List.cons_prefix_cons.mp leading with ⟨same, later⟩
          rw [List.mem_cons, not_or] at first second
          rw [same, ih first.2 second.2 later]

/-- No occurrence of a text in braces begins in a text with no two opening braces. -/
theorem clear_braced_of_missing {front : List Char} (missing : '\x7b' ∉ front) (var rest : List Char) :
    Clear (braced var) front rest :=
  clear_of_missing missing _ rest

theorem clear_braced_rawTag (var rest : List Char) : Clear (braced var) rawTag rest := by
  refine ⟨fun leading => ?_, clear_braced_of_missing (by decide) var rest⟩
  exact absurd (List.cons_prefix_cons.mp (List.cons_prefix_cons.mp leading).2).1 (by decide)

theorem clear_braced_endRawTag (var rest : List Char) : Clear (braced var) endRawTag rest := by
  refine ⟨fun leading => ?_, clear_braced_of_missing (by decide) var rest⟩
  exact absurd (List.cons_prefix_cons.mp (List.cons_prefix_cons.mp leading).2).1 (by decide)

/-- No occurrence of one text in braces begins in another one. -/
theorem clear_braced_braced {var content : List Char} (free : BraceFree var) (contentFree : BraceFree content)
    (different : var ≠ content) (rest : List Char) : Clear (braced var) (braced content) rest := by
  have missing : '\x7b' ∉ content ++ closeBrace := by
    intro inside
    exact (List.mem_append.mp inside).elim contentFree.1 (by decide)
  refine ⟨fun leading => ?_, fun leading => ?_, clear_braced_of_missing missing var rest⟩
  · have behind := (List.cons_prefix_cons.mp (List.cons_prefix_cons.mp leading).2).2
    exact different (eq_of_closed_front free.2 contentFree.2 behind)
  · have second := (List.cons_prefix_cons.mp leading).2
    cases content with
    | nil => exact absurd (List.cons_prefix_cons.mp second).1 (by decide)
    | cons symbol content => exact contentFree.1 ((List.cons_prefix_cons.mp second).1 ▸ List.mem_cons_self)

theorem clear_flatten {pattern : List Char} {tag : List Char} (clear : forall rest, Clear pattern tag rest)
    (depth : Nat) (rest : List Char) : Clear pattern (List.replicate depth tag).flatten rest := by
  induction depth with
  | zero => trivial
  | succ depth ih =>
      rw [List.replicate_succ, List.flatten_cons]
      exact clear_append (clear _) ih

/-! ## The template variables of a text -/

theorem upToClose_content {content : List Char} (free : '\x7d' ∉ content) (rest : List Char) :
    upToClose (content ++ (closeBrace ++ rest)) = if '\n' ∈ content then none else some (content, rest) := by
  induction content with
  | nil =>
      rw [List.nil_append, closeBrace, List.cons_append, upToClose, if_neg List.not_mem_nil]
      rfl
  | cons symbol content ih =>
      rw [List.mem_cons, not_or] at free
      have notClosing : ¬ closeBrace.isPrefixOf (symbol :: (content ++ (closeBrace ++ rest))) = true := by
        intro leading
        exact free.1 (List.cons_prefix_cons.mp (List.isPrefixOf_iff_prefix.mp leading)).1
      rw [List.cons_append, upToClose, if_neg notClosing, ih free.2]
      by_cases broken : symbol = '\n'
      · rw [if_pos broken, if_pos (broken ▸ List.mem_cons_self)]
      · rw [if_neg broken]
        by_cases later : '\n' ∈ content
        · rw [if_pos later, if_pos (List.mem_cons_of_mem _ later)]
          rfl
        · have missing : '\n' ∉ symbol :: content := by
            rw [List.mem_cons, not_or]
            exact ⟨fun same => broken same.symm, later⟩
          rw [if_neg later, if_neg missing]
          rfl

theorem upToClose_shrinks {text content rest : List Char} (found : upToClose text = some (content, rest)) :
    rest.length < text.length := by
  induction text generalizing content with
  | nil => contradiction
  | cons symbol text ih =>
      rw [upToClose] at found
      split at found
      case isTrue =>
          cases found
          rw [List.length_drop, List.length_cons]
          omega
      case isFalse =>
          split at found
          case isTrue => contradiction
          case isFalse =>
              rcases Option.map_eq_some_iff.mp found with ⟨parts, later, same⟩
              cases same
              exact Nat.lt_succ_of_lt (ih later)

theorem nextVariable_shrinks : Shrinks nextVariable := by
  intro text
  induction text with
  | nil => exact fun found => by contradiction
  | cons symbol text ih =>
      intro content rest found
      rw [nextVariable, Option.or_eq_some_iff] at found
      rcases found with here | ⟨-, later⟩
      · split at here
        case isTrue =>
            have shorter := upToClose_shrinks here
            rw [List.length_drop] at shorter
            rw [List.length_cons]
            omega
        case isFalse => contradiction
      · exact Nat.lt_succ_of_lt (ih later)

theorem nextVariable_clear {front rest : List Char} (clear : Clear openBrace front rest) :
    nextVariable (front ++ rest) = nextVariable rest := by
  induction front with
  | nil => rfl
  | cons symbol front ih =>
      have notOpening : ¬ openBrace.isPrefixOf (symbol :: (front ++ rest)) = true :=
        fun leading => clear.1 (List.isPrefixOf_iff_prefix.mp leading)
      rw [List.cons_append, nextVariable, if_neg notOpening, Option.none_or, ih clear.2]

theorem extract_clear {front rest : List Char} (clear : Clear openBrace front rest) :
    extractTemplateVariables (front ++ rest) = extractTemplateVariables rest := by
  rw [extractTemplateVariables, extractTemplateVariables, parts_eq nextVariable_shrinks,
    parts_eq nextVariable_shrinks rest, nextVariable_clear clear]

theorem extract_braced {content : List Char} (free : BraceFree content) (rest : List Char) :
    extractTemplateVariables (braced content ++ rest) =
      (if '\n' ∈ content then [] else [content]) ++ extractTemplateVariables rest := by
  have opens : braced content ++ rest = '\x7b' :: '\x7b' :: (content ++ (closeBrace ++ rest)) := by
    rw [braced, openBrace, List.append_assoc, List.append_assoc]
    rfl
  have missing : '\x7b' ∉ content ++ closeBrace := by
    intro inside
    exact (List.mem_append.mp inside).elim free.1 (by decide)
  have first : nextVariable (braced content ++ rest) =
      (if '\n' ∈ content then none else some (content, rest)).or
        (nextVariable ('\x7b' :: (content ++ (closeBrace ++ rest)))) := by
    have opening : openBrace.isPrefixOf ('\x7b' :: '\x7b' :: (content ++ (closeBrace ++ rest))) = true := rfl
    rw [opens, nextVariable, if_pos opening, List.drop_succ_cons, List.drop_zero, upToClose_content free.2]
  by_cases broken : '\n' ∈ content
  · have clear : Clear openBrace ('\x7b' :: (content ++ closeBrace)) rest := by
      refine ⟨fun leading => ?_, clear_of_missing missing _ rest⟩
      have second := (List.cons_prefix_cons.mp leading).2
      cases content with
      | nil => exact absurd (List.cons_prefix_cons.mp second).1 (by decide)
      | cons symbol content => exact free.1 ((List.cons_prefix_cons.mp second).1 ▸ List.mem_cons_self)
    have later := nextVariable_clear clear
    rw [List.cons_append, List.append_assoc] at later
    rw [if_pos broken, Option.none_or, later] at first
    rw [if_pos broken, List.nil_append, extractTemplateVariables, extractTemplateVariables,
      parts_eq nextVariable_shrinks, first, ← parts_eq nextVariable_shrinks]
  · rw [if_neg broken, Option.some_or] at first
    rw [if_neg broken, extractTemplateVariables, parts_eq nextVariable_shrinks, first]
    rfl

/-! ## Which variables are wrapped -/

theorem word_of_identifier {name : List Char} (identifier : isIdentifier name = true) {character : Char}
    (member : character ∈ name) : character.isAlphanum = true ∨ character = '_' := by
  cases name with
  | nil => cases member
  | cons first rest =>
      rw [isIdentifier, Bool.and_eq_true, List.all_eq_true, Bool.or_eq_true, beq_iff_eq] at identifier
      rcases List.mem_cons.mp member with here | later
      · rw [here]
        exact identifier.1.imp (fun letter => by rw [Char.isAlphanum, letter, Bool.true_or]) id
      · have tested := identifier.2 character later
        rw [Bool.or_eq_true, beq_iff_eq] at tested
        exact tested

theorem not_whitespace_of_identifier {name : List Char} (identifier : isIdentifier name = true) {character : Char}
    (member : character ∈ name) : Text.isWhitespace character = false := by
  rcases word_of_identifier identifier member with word | same
  · delta Char.isAlphanum Char.isAlpha Char.isUpper Char.isLower Char.isDigit at word
    simp only [Bool.or_eq_true, Bool.and_eq_true, decide_eq_true_eq, ge_iff_le, UInt32.le_iff_toNat_le] at word
    have code : character.toNat = character.val.toNat := rfl
    simp only [Text.isWhitespace, Bool.or_eq_false_iff, Bool.and_eq_false_iff, decide_eq_false_iff_not, beq_eq_false_iff_ne,
      code]
    simp at word
    omega
  · rw [same]
    decide

theorem trimmed_reference {before name after : List Char} (blankBefore : Blank before) (blankAfter : Blank after)
    (identifier : isIdentifier name = true) : trimmed (before ++ (name ++ after)) = name := by
  have solid := fun character => @not_whitespace_of_identifier name identifier character
  have nonempty : name ≠ [] := by
    intro empty
    rw [empty] at identifier
    contradiction
  have cutBehind : (before ++ (name ++ after)).rdropWhile Text.isWhitespace = before ++ name := by
    rw [List.rdropWhile, List.reverse_append, List.reverse_append, List.append_assoc,
      List.dropWhile_append_of_pos fun character member => blankAfter character (List.mem_reverse.mp member)]
    cases shape : name.reverse with
    | nil => exact absurd (List.reverse_eq_nil_iff.mp shape) nonempty
    | cons last front =>
        have member : last ∈ name := List.mem_reverse.mp (shape ▸ List.mem_cons_self)
        rw [List.cons_append, List.dropWhile_cons_of_neg (by rw [solid last member]; exact Bool.false_ne_true),
          ← List.cons_append, ← shape, ← List.reverse_append, List.reverse_reverse]
  rw [trimmed, cutBehind, List.dropWhile_append_of_pos blankBefore]
  cases name with
  | nil => exact absurd rfl nonempty
  | cons first rest =>
      rw [List.dropWhile_cons_of_neg (by rw [solid first List.mem_cons_self]; exact Bool.false_ne_true)]

/-- Whether a span is wrapped into a raw block. -/
def isWrapped (content : List Char) : Bool :=
  !isValidVar content && !startsQuoted (trimmed content)

theorem document_cons (piece : Piece) (pieces : List Piece) :
    document (piece :: pieces) = piece.written ++ document pieces :=
  List.flatMap_cons

theorem unparseable_document {engine : Engine}
    {params : List Char -> Option (List Char)} {pieces : List Piece}
    (readable : AllReadable engine params pieces) :
    filterUnparseableVariables engine (filterComplexVariables (extractTemplateVariables (document pieces))) =
      (spans pieces).filter isWrapped := by
  induction pieces with
  | nil => rfl
  | cons piece pieces ih =>
      have later := ih fun other member => readable other (List.mem_cons_of_mem _ member)
      have own := readable piece List.mem_cons_self
      rw [document_cons]
      cases piece with
      | literal text =>
          rw [Piece.written, extract_clear (clear_of_missing own.1 _ _)]
          exact later
      | reference before name after =>
          rcases own with ⟨blankBefore, blankAfter, identifier, -, -⟩
          have valid : isValidVar (before ++ (name ++ after)) = true := by
            rw [isValidVar, trimmed_reference blankBefore blankAfter identifier, identifier]
          rw [Piece.written, extract_braced (braceFree_reference blankBefore blankAfter identifier)]
          split
          case isTrue => exact later
          case isFalse =>
              rw [List.singleton_append, filterComplexVariables, List.filter_cons, valid]
              exact later
      | span content =>
          rcases own with ⟨free, single, unparsed⟩
          rw [Piece.written, extract_braced free, if_neg single, List.singleton_append, filterComplexVariables,
            List.filter_cons]
          have shown : spans (Piece.span content :: pieces) = content :: spans pieces := rfl
          rw [shown, List.filter_cons, isWrapped]
          cases valid : isValidVar content with
          | true => exact later
          | false =>
              rw [Bool.not_false, if_pos rfl, filterUnparseableVariables, List.filter_cons, unparsed, Bool.not_false,
                Bool.and_true, Bool.true_and]
              rw [filterComplexVariables, filterUnparseableVariables] at later
              rw [later]

/-! ## Raw blocks one around the other -/

/-- A piece in the text in which each span has been wrapped so many times. -/
def layered (counts : List Char -> Nat) : Piece -> List Char
  | .span content =>
      (List.replicate (counts content) rawTag).flatten ++
        (braced content ++ (List.replicate (counts content) endRawTag).flatten)
  | piece => piece.written

theorem layered_zero (piece : Piece) : layered (fun _ => 0) piece = piece.written := by
  cases piece with
  | span content => exact List.append_nil _
  | literal | reference => rfl

theorem replicate_flatten_append (depth : Nat) (tag : List Char) :
    (List.replicate depth tag).flatten ++ tag = (List.replicate (depth + 1) tag).flatten := by
  rw [List.replicate_succ', List.flatten_append, List.flatten_singleton]

theorem replaceAll_layered {engine : Engine} (lawful : engine.Lawful) {params : List Char -> Option (List Char)}
    {pieces : List Piece} (readable : AllReadable engine params pieces)
    (counts : List Char -> Nat) {var : List Char} (free : BraceFree var) (unparsed : engine.parses var = false) :
    replaceAll (braced var) (rawBlock var) (pieces.flatMap (layered counts)) =
      pieces.flatMap (layered fun content => counts content + if content = var then 1 else 0) := by
  have nonempty : braced var ≠ [] := by
    rw [braced, openBrace]
    exact List.cons_ne_nil _ _
  induction pieces with
  | nil => rfl
  | cons piece pieces ih =>
      have later := ih fun other member => readable other (List.mem_cons_of_mem _ member)
      have own := readable piece List.mem_cons_self
      rw [List.flatMap_cons, List.flatMap_cons, ← later]
      cases piece with
      | literal text => exact replaceAll_clear (clear_braced_of_missing own.1 _ _) _
      | reference before name after =>
          rcases own with ⟨blankBefore, blankAfter, identifier, named, -⟩
          have different : var ≠ before ++ (name ++ after) := by
            intro same
            rw [same, lawful.parses_reference blankBefore blankAfter identifier named] at unparsed
            contradiction
          exact replaceAll_clear
            (clear_braced_braced free (braceFree_reference blankBefore blankAfter identifier) different _) _
      | span content =>
          rcases own with ⟨contentFree, -, -⟩
          simp only [layered, List.append_assoc]
          rw [replaceAll_clear (clear_flatten (clear_braced_rawTag var) _ _)]
          by_cases same : content = var
          · rw [if_pos same, ← replicate_flatten_append, same, replaceAll_pattern nonempty,
              replaceAll_clear (clear_flatten (clear_braced_endRawTag var) _ _), List.replicate_succ, List.flatten_cons,
              rawBlock]
            simp only [List.append_assoc]
          · rw [if_neg same, Nat.add_zero,
              replaceAll_clear (clear_braced_braced free contentFree (fun equal => same equal.symm) _),
              replaceAll_clear (clear_flatten (clear_braced_endRawTag var) _ _)]

theorem preprocess_document {engine : Engine} (lawful : engine.Lawful) {params : List Char -> Option (List Char)}
    {pieces : List Piece} (readable : AllReadable engine params pieces) :
    preprocessTemplateVariables engine (document pieces) =
      pieces.flatMap (layered fun content => ((spans pieces).filter isWrapped).count content) := by
  have replaced : forall (vars : List (List Char)) (counts : List Char -> Nat),
      (forall var, var ∈ vars -> BraceFree var ∧ engine.parses var = false) ->
      replaceUnparseableVarsWithRaw (pieces.flatMap (layered counts)) vars =
        pieces.flatMap (layered fun content => counts content + vars.count content) := by
    intro vars
    induction vars with
    | nil => exact fun counts _ => rfl
    | cons var vars ih =>
        intro counts unparsed
        have own := unparsed var List.mem_cons_self
        rw [replaceUnparseableVarsWithRaw, List.foldl_cons, replaceAll_layered lawful readable counts own.1 own.2]
        have later := ih (fun content => counts content + if content = var then 1 else 0)
          fun other member => unparsed other (List.mem_cons_of_mem _ member)
        rw [replaceUnparseableVarsWithRaw] at later
        rw [later]
        congr 2
        funext content
        rw [List.count_cons, Nat.add_assoc, Nat.add_comm (vars.count content)]
        by_cases same : content = var
        · rw [if_pos same, if_pos (beq_iff_eq.mpr same.symm)]
        · rw [if_neg same, if_neg fun equal => same (beq_iff_eq.mp equal).symm]
  have plain : document pieces = pieces.flatMap (layered fun _ => 0) := by
    rw [document]
    congr 1
    funext piece
    exact (layered_zero piece).symm
  rw [preprocessTemplateVariables, unparseable_document readable, plain, replaced]
  · simp only [Nat.zero_add]
  · intro var member
    rcases List.mem_filterMap.mp (List.mem_filter.mp member).1 with ⟨piece, inside, shown⟩
    cases piece with
    | literal | reference => contradiction
    | span content =>
        cases shown
        have own := readable _ inside
        exact ⟨own.1, own.2.2⟩

end RecipeTemplate
end AIBuddy
