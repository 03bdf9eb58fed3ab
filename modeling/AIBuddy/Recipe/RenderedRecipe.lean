import Mathlib.Data.List.Nodup
import AIBuddy.Recipe.EmptyQuotes

namespace AIBuddy
namespace RecipeTemplate

/-!
# When a recipe survives its preparation

A recipe made of pieces comes out with its references replaced and its spans as they were
written exactly when no empty double-quoted string follows a colon in it, no span occurs twice,
and every span is wrapped into a raw block that it does not end itself.

The converse is stated for the spans that the empty strings and the quotes leave unparseable:
nothing is relied on of the engine for an expression that the preparation has made.
-/

open Occurrences

/-! ## Rendering the prepared text -/

/-- The segment that a wrapped piece becomes. -/
def Piece.segment : Piece -> Segment
  | literal text => .plain text
  | reference before name after => .reference before name after
  | span content => .raw 0 content

/-- Every span occurs once, is wrapped, and does not end its raw block. -/
def Single (contents : List (List Char)) : Prop :=
  contents.Nodup ∧ forall content, content ∈ contents -> isWrapped content = true ∧ endsRaw content = false

instance (contents : List (List Char)) : Decidable (Single contents) :=
  @instDecidableAnd _ _ inferInstance (List.decidableBAll _ contents)

/-- A piece that has become one segment. -/
def Settled (counts : List Char -> Nat) (piece : Piece) : Prop :=
  forall content, piece.span? = some content -> counts content = 1 ∧ endsRaw content = false

section Render

variable {engine : Engine} {params : List Char -> Option (List Char)} {counts : List Char -> Nat}

theorem layered_settled {piece : Piece} (settled : Settled counts piece) :
    layered counts piece = piece.segment.written := by
  cases piece with
  | literal | reference => rfl
  | span content =>
      rw [layered, (settled content rfl).1, List.replicate_one, List.replicate_one, List.flatten_singleton,
        List.flatten_singleton]
      rfl

theorem layered_template {pieces : List Piece} (settled : forall piece, piece ∈ pieces -> Settled counts piece) :
    pieces.flatMap (layered counts) = template (pieces.map Piece.segment) := by
  induction pieces with
  | nil => rfl
  | cons piece pieces ih =>
      rw [List.flatMap_cons, List.map_cons, template, List.flatMap_cons, layered_settled (settled piece List.mem_cons_self),
        ih fun other member => settled other (List.mem_cons_of_mem _ member), template]

theorem segments_formed {pieces : List Piece} (readable : AllReadable engine params pieces)
    (settled : forall piece, piece ∈ pieces -> Settled counts piece) :
    AllFormed engine params (pieces.map Piece.segment) := by
  intro segment member
  rcases List.mem_map.mp member with ⟨piece, inside, same⟩
  rw [← same]
  have own := readable piece inside
  cases piece with
  | literal text => exact own
  | reference before name after => exact own
  | span content => exact ⟨own.1, (settled _ inside content rfl).2⟩

theorem segments_value (pieces : List Piece) :
    (pieces.map Piece.segment).flatMap (Segment.value params) = rendered params pieces := by
  rw [List.flatMap_map, rendered]
  congr 1
  funext piece
  cases piece <;> rfl

/-- The first piece that is not one segment makes the prepared text an error. -/
theorem render_layered_unsettled (lawful : engine.Lawful) {front back : List Piece} {content : List Char}
    (readable : AllReadable engine params (front ++ .span content :: back))
    (settled : forall piece, piece ∈ front -> Settled counts piece)
    (bare : counts content = 0 -> '\x22' ∉ content ∧ '\x27' ∉ content)
    (unsettled : ¬ (counts content = 1 ∧ endsRaw content = false)) :
    engine.render ((front ++ .span content :: back).flatMap (layered counts)) params = none := by
  have own := readable (.span content) (List.mem_append_right _ List.mem_cons_self)
  have formed : AllFormed engine params (front.map Piece.segment) :=
    segments_formed (fun piece member => readable piece (List.mem_append_left _ member)) settled
  rw [List.flatMap_append, List.flatMap_cons, layered_template settled]
  cases counted : counts content with
  | zero =>
      rw [layered, counted, List.replicate_zero, List.flatten_nil, List.nil_append, List.replicate_zero, List.flatten_nil,
        List.append_nil]
      exact lawful.render_malformed _ formed own.1 own.2.1 (bare counted).1 (bare counted).2 own.2.2
  | succ depth =>
      have block : layered counts (.span content) ++ back.flatMap (layered counts) =
          rawTag ++ (Segment.rawBody depth content ++
            (endRawTag ++ ((List.replicate depth endRawTag).flatten ++ back.flatMap (layered counts)))) := by
        rw [layered, counted, List.replicate_succ, List.replicate_succ, List.flatten_cons, List.flatten_cons,
          Segment.rawBody]
        simp only [List.append_assoc]
      rw [block]
      cases ends : endsRaw content with
      | true => exact lawful.render_closed depth _ formed own.1 ends
      | false =>
          cases depth with
          | zero => exact absurd ⟨counted, ends⟩ unsettled
          | succ depth =>
              have more : AllFormed engine params (front.map Piece.segment ++ [.raw (depth + 1) content]) := by
                intro segment member
                rcases List.mem_append.mp member with early | last
                · exact formed segment early
                · rw [List.mem_singleton.mp last]
                  exact ⟨own.1, ends⟩
              have stray := lawful.render_stray
                ((List.replicate depth endRawTag).flatten ++ back.flatMap (layered counts)) more
              rw [template, List.flatMap_append, List.flatMap_singleton] at stray
              rw [List.replicate_succ, List.flatten_cons, template]
              simp only [Segment.written, List.append_assoc] at stray ⊢
              exact stray

end Render

/-! ## Spans that occur once -/

theorem single_iff (contents : List (List Char)) :
    Single contents ↔ forall content, content ∈ contents ->
      (contents.filter isWrapped).count content = 1 ∧ endsRaw content = false := by
  constructor
  · rintro ⟨distinct, wrapped⟩ content member
    rw [List.count_filter (wrapped content member).1]
    exact ⟨List.nodup_iff_count_eq_one.mp distinct content member, (wrapped content member).2⟩
  · intro once
    have wrapped : forall content, content ∈ contents -> isWrapped content = true := by
      intro content member
      have positive : 0 < (contents.filter isWrapped).count content := by
        rw [(once content member).1]
        exact Nat.zero_lt_one
      exact (List.mem_filter.mp (List.count_pos_iff.mp positive)).2
    refine ⟨List.nodup_iff_count_eq_one.mpr fun content member => ?_, fun content member => ?_⟩
    · rw [← (once content member).1, List.count_filter (wrapped content member)]
    · exact ⟨wrapped content member, (once content member).2⟩

theorem mem_spans {pieces : List Piece} {content : List Char} :
    content ∈ spans pieces ↔ .span content ∈ pieces := by
  rw [spans, List.mem_filterMap]
  constructor
  · rintro ⟨piece, member, shown⟩
    cases piece with
    | literal | reference => contradiction
    | span other =>
        cases shown
        exact member
  · exact fun member => ⟨_, member, rfl⟩

/-- A span that is not wrapped has no quote in it, unless one is its first character. -/
theorem unquoted_of_valid {content : List Char} (valid : isValidVar content = true) :
    '\x22' ∉ content ∧ '\x27' ∉ content := by
  have solid : forall character, character ∈ content -> Text.isWhitespace character = false ->
      character ∈ trimmed content := by
    intro character member visible
    have notBlank : ¬ Text.isWhitespace character = true := by
      rw [visible]
      exact Bool.false_ne_true
    have split := List.rdropWhile_append_rtakeWhile (p := Text.isWhitespace) (l := content)
    rw [← split, List.mem_append] at member
    have early := member.resolve_right fun late => notBlank (List.mem_rtakeWhile_imp late)
    have second := List.takeWhile_append_dropWhile (p := Text.isWhitespace) (l := content.rdropWhile Text.isWhitespace)
    rw [← second, List.mem_append] at early
    exact early.resolve_left fun late => notBlank (List.mem_takeWhile_imp late)
  have word : forall {character : Char}, character ∈ trimmed content -> character.isAlphanum = true ∨ character = '_' :=
    fun member => word_of_identifier valid member
  refine ⟨fun inside => ?_, fun inside => ?_⟩
  · exact absurd (word (solid _ inside (by decide))) (by decide)
  · exact absurd (word (solid _ inside (by decide))) (by decide)

section Prepared

variable {engine : Engine} {params : List Char -> Option (List Char)} {pieces : List Piece}

theorem render_single (lawful : engine.Lawful) (readable : AllReadable engine params pieces)
    (single : Single (spans pieces)) :
    Exists fun text => engine.render (preprocessTemplateVariables engine (document pieces)) params = some text ∧
      UpToNewline text (rendered params pieces) := by
  have settled : forall piece, piece ∈ pieces ->
      Settled (fun content => ((spans pieces).filter isWrapped).count content) piece := by
    intro piece member content shown
    exact (single_iff _).mp single content (List.mem_filterMap.mpr ⟨piece, member, shown⟩)
  rw [preprocess_document lawful readable, layered_template settled, ← segments_value]
  exact lawful.render_segments (segments_formed readable settled)

/-- A recipe with a span that occurs twice, or is not wrapped, or ends its raw block, is an
error after its preparation. -/
theorem render_not_single (lawful : engine.Lawful) (readable : AllReadable engine params pieces)
    (plain : forall content, content ∈ spans pieces -> startsQuoted (trimmed content) = false)
    (notSingle : ¬ Single (spans pieces)) :
    engine.render (preprocessTemplateVariables engine (document pieces)) params = none := by
  rw [preprocess_document lawful readable]
  generalize shown : (fun content => ((spans pieces).filter isWrapped).count content) = counts
  have unsettled : ¬ forall piece, piece ∈ pieces -> Settled counts piece := by
    intro settled
    apply notSingle
    apply (single_iff _).mpr
    intro content member
    have own := settled _ (mem_spans.mp member) content rfl
    rw [← shown] at own
    exact own
  have found : Exists fun front => Exists fun content => Exists fun back =>
      pieces = front ++ .span content :: back ∧ (forall piece, piece ∈ front -> Settled counts piece) ∧
        ¬ (counts content = 1 ∧ endsRaw content = false) := by
    clear notSingle readable plain shown
    induction pieces with
    | nil => exact absurd (fun piece member => absurd member List.not_mem_nil) unsettled
    | cons piece pieces ih =>
        by_cases own : Settled counts piece
        · have later : ¬ forall other, other ∈ pieces -> Settled counts other := by
            intro settled
            apply unsettled
            intro other member
            rcases List.mem_cons.mp member with here | inRest
            · rw [here]
              exact own
            · exact settled other inRest
          rcases ih later with ⟨front, content, back, same, settled, bad⟩
          refine ⟨piece :: front, content, back, by rw [same, List.cons_append], ?_, bad⟩
          intro other member
          rcases List.mem_cons.mp member with here | inRest
          · rw [here]
            exact own
          · exact settled other inRest
        · cases piece with
          | literal text => exact absurd (fun content shown => absurd shown (Option.some_ne_none content).symm) own
          | reference before name after =>
              exact absurd (fun content shown => absurd shown (Option.some_ne_none content).symm) own
          | span content =>
              refine ⟨[], content, pieces, rfl, fun other member => absurd member List.not_mem_nil, ?_⟩
              intro fine
              apply own
              intro other same
              cases same
              exact fine
  rcases found with ⟨front, content, back, same, settled, bad⟩
  have member : content ∈ spans pieces := by
    rw [mem_spans, same]
    exact List.mem_append_right _ List.mem_cons_self
  have bare : counts content = 0 -> '\x22' ∉ content ∧ '\x27' ∉ content := by
    intro absent
    rw [← shown] at absent
    have outside := List.count_eq_zero.mp absent
    have unwrapped : ¬ isWrapped content = true := fun wrapped => outside (List.mem_filter.mpr ⟨member, wrapped⟩)
    rw [isWrapped, plain content member, Bool.not_false, Bool.and_true, Bool.not_eq_true', Bool.not_eq_false] at unwrapped
    exact unquoted_of_valid unwrapped
  rw [same]
  rw [same] at readable
  exact render_layered_unsettled lawful readable settled bare bad

end Prepared

/-! ## Rendering a recipe -/

theorem not_diverges {text first second : List Char} (one : UpToNewline text first) (two : UpToNewline text second) :
    ¬ Diverges first second := by
  have shape : forall {expected : List Char}, UpToNewline text expected -> Exists fun ending =>
      expected = text ++ ending ∧ forall character, character ∈ ending -> character = '\n' ∨ character = '\r' := by
    rintro expected (rfl | rfl | rfl)
    · exact ⟨[], (List.append_nil _).symm, fun character member => absurd member List.not_mem_nil⟩
    · exact ⟨_, rfl, fun character member => Or.inl (List.mem_singleton.mp member)⟩
    · refine ⟨_, rfl, fun character member => ?_⟩
      rcases List.mem_cons.mp member with carriage | line
      · exact Or.inr carriage
      · exact Or.inl (List.mem_singleton.mp line)
  rcases shape one with ⟨oneEnd, rfl, -⟩
  rcases shape two with ⟨twoEnd, rfl, breaks⟩
  rintro ⟨front, symbol, rest, other, otherRest, oneShape, twoShape, different, notLine, notCarriage⟩
  rcases List.append_eq_append_iff.mp twoShape with ⟨more, frontShape, endShape⟩ | ⟨more, textShape, otherShape⟩
  · have inside : other ∈ twoEnd := endShape ▸ List.mem_append_right _ List.mem_cons_self
    exact (breaks other inside).elim notLine notCarriage
  · cases more with
    | nil =>
        have inside : other ∈ twoEnd := by
          rw [← List.nil_append twoEnd, ← otherShape]
          exact List.mem_cons_self
        exact (breaks other inside).elim notLine notCarriage
    | cons first more =>
        rw [textShape, List.append_assoc] at oneShape
        have same := List.append_cancel_left oneShape
        exact different ((List.cons.inj same).1.symm.trans (List.cons.inj otherShape).1.symm)

/-- A recipe is rendered to its text with the references replaced, up to a line break at its
end. -/
def Returned (engine : Engine) (params : List Char -> Option (List Char)) (pieces : List Piece) : Prop :=
  Exists fun text => renderRecipeContentWithParams engine (document pieces) params = some text ∧
    UpToNewline text (rendered params pieces)

/-- No empty string follows a colon, and the spans are single. -/
def Survives (pieces : List Piece) : Prop :=
  ¬ ColonQuotes (document pieces) ∧ Single (spans pieces)

/-- A content that is still not parsed, and has no quote at its start, when the empty strings
behind colons are written with single quotes. -/
def StaysUnparseable (engine : Engine) (content : List Char) : Prop :=
  startsQuoted (trimmed (replaceEmptyQuotes content)) = false ∧ engine.parses (replaceEmptyQuotes content) = false

/-- A recipe whose spans are single and without empty strings behind colons is rendered to its
text.  When every span stays unparseable, no other recipe is. -/
theorem returned_iff {engine : Engine} (lawful : engine.Lawful) {params : List Char -> Option (List Char)}
    {pieces : List Piece} (readable : AllReadable engine params pieces) :
    (Survives pieces -> Returned engine params pieces) ∧
      ((forall content, content ∈ spans pieces -> StaysUnparseable engine content) ->
        (Returned engine params pieces ↔ Survives pieces)) := by
  have enough : Survives pieces -> Returned engine params pieces := by
    rintro ⟨without, single⟩
    rw [colonQuotes_iff, not_not] at without
    rw [Returned, renderRecipeContentWithParams, without]
    exact render_single lawful readable single
  refine ⟨enough, fun stays => ⟨?_, enough⟩⟩
  rintro ⟨text, returned, expected⟩
  rcases replaced_document readable (fun content member => (stays content member).2)
    ⟨List.not_mem_nil, List.not_mem_nil⟩ with ⟨changed, replaced⟩
  have written := replaced.written
  rw [List.nil_append] at written
  rw [renderRecipeContentWithParams, written] at returned
  have single : Single (spans changed) := by
    apply Classical.byContradiction
    intro notSingle
    have plain : forall content, content ∈ spans changed -> startsQuoted (trimmed content) = false := by
      intro content member
      rw [replaced.spans_eq] at member
      rcases List.mem_map.mp member with ⟨original, inside, rfl⟩
      exact (stays original inside).1
    rw [render_not_single lawful replaced.readable plain notSingle] at returned
    contradiction
  rcases render_single lawful replaced.readable single with ⟨other, otherReturned, otherExpected⟩
  rw [returned] at otherReturned
  cases otherReturned
  rcases replaced.outcome with ⟨same, -, spansSame⟩ | diverges
  · rw [List.nil_append] at same
    exact ⟨fun inside => (colonQuotes_iff _).mp inside same, spansSame ▸ single⟩
  · exact absurd diverges (not_diverges expected otherExpected)

end RecipeTemplate
end AIBuddy
