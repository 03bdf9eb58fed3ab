import Mathlib.Data.List.Infix

namespace AIBuddy
namespace Occurrences

/-!
# Occurrences of a pattern in a text

Searching a text from its start, replacing every occurrence that does not overlap the one
before, and taking parts off a text until none is left.

A pattern that does not contain the separator that is written for another pattern is found
in the result only where it was found before.  This is why a list of patterns can be removed
one after the other.
-/

variable {α β : Type}

/-! ## Searching -/

section Search

variable [DecidableEq α]

/-- The texts before and behind the first occurrence of a pattern. -/
def cut (pattern : List α) : List α -> Option (List α × List α)
  | [] => if pattern = [] then some ([], []) else none
  | symbol :: rest =>
      if pattern.isPrefixOf (symbol :: rest) then some ([], (symbol :: rest).drop pattern.length)
      else (cut pattern rest).map fun parts => (symbol :: parts.1, parts.2)

/-- Whether a pattern occurs in a text. -/
def occurs (pattern text : List α) : Bool := (cut pattern text).isSome

/-- What a search finds is an occurrence. -/
theorem cut_eq {pattern text before after : List α} (found : cut pattern text = some (before, after)) :
    text = before ++ pattern ++ after := by
  induction text generalizing before with
  | nil =>
      rw [cut] at found
      split at found
      case isTrue none =>
          cases found
          rw [none, List.append_nil, List.append_nil]
      case isFalse => contradiction
  | cons symbol rest ih =>
      rw [cut] at found
      split at found
      case isTrue leading =>
          cases found
          rcases List.isPrefixOf_iff_prefix.mp leading with ⟨after, same⟩
          rw [List.nil_append, ← same, List.drop_left]
      case isFalse =>
          rcases Option.map_eq_some_iff.mp found with ⟨parts, later, same⟩
          cases same
          rw [ih later, List.cons_append, List.cons_append]

/-- What a search finds is the first occurrence. -/
theorem cut_first {pattern text before after : List α} (nonempty : pattern ≠ [])
    (found : cut pattern text = some (before, after)) : ¬ pattern <:+: before := by
  induction text generalizing before with
  | nil =>
      rw [cut, if_neg nonempty] at found
      contradiction
  | cons symbol rest ih =>
      rw [cut] at found
      split at found
      case isTrue =>
          cases found
          intro inside
          exact nonempty (List.eq_nil_of_infix_nil inside)
      case isFalse notLeading =>
          rcases Option.map_eq_some_iff.mp found with ⟨parts, later, same⟩
          cases same
          intro inside
          rcases List.infix_cons_iff.mp inside with leading | inRest
          · apply notLeading
            rw [List.isPrefixOf_iff_prefix, cut_eq later, List.append_assoc, ← List.cons_append]
            exact leading.trans (List.prefix_append _ _)
          · exact ih later inRest

/-- A search fails when there is no occurrence. -/
theorem cut_eq_none_iff {pattern text : List α} : cut pattern text = none ↔ ¬ pattern <:+: text := by
  induction text with
  | nil =>
      rw [cut]
      constructor
      · intro missed inside
        rw [if_pos (List.eq_nil_of_infix_nil inside)] at missed
        contradiction
      · intro missed
        apply if_neg
        intro none
        rw [none] at missed
        exact missed List.nil_infix
  | cons symbol rest ih =>
      rw [cut, List.infix_cons_iff, not_or, ← ih, ← List.isPrefixOf_iff_prefix]
      split
      case isTrue leading => simp [leading]
      case isFalse notLeading => simp [notLeading]

theorem occurs_iff {pattern text : List α} : occurs pattern text = true ↔ pattern <:+: text := by
  rw [occurs, Option.isSome_iff_ne_none, ne_eq, cut_eq_none_iff, not_not]

theorem cut_shrinks {pattern text before after : List α} (nonempty : pattern ≠ [])
    (found : cut pattern text = some (before, after)) : after.length < text.length := by
  have positive := List.length_pos_iff.mpr nonempty
  rw [cut_eq found, List.length_append, List.length_append]
  omega

/-- Replace the occurrences of a pattern, with the number of symbols that still belong to the
last one. -/
def replaceFrom (pattern replacement : List α) : Nat -> List α -> List α
  | _, [] => []
  | skip + 1, _ :: rest => replaceFrom pattern replacement skip rest
  | 0, symbol :: rest =>
      if pattern.isPrefixOf (symbol :: rest) then
        replacement ++ replaceFrom pattern replacement (pattern.length - 1) rest
      else symbol :: replaceFrom pattern replacement 0 rest

/-- Replace every occurrence of a pattern that is not empty. -/
def replaceAll (pattern replacement text : List α) : List α :=
  replaceFrom pattern replacement 0 text

theorem replaceFrom_skip (pattern replacement : List α) (skip : Nat) (text : List α) :
    replaceFrom pattern replacement skip text = replaceAll pattern replacement (text.drop skip) := by
  induction text generalizing skip with
  | nil => rw [List.drop_nil, replaceAll, replaceFrom, replaceFrom]
  | cons symbol rest ih =>
      cases skip with
      | zero => rfl
      | succ skip => rw [replaceFrom, ih, List.drop_succ_cons]

theorem replaceAll_of_missing {pattern text : List α} (missing : cut pattern text = none) (replacement : List α) :
    replaceAll pattern replacement text = text := by
  induction text with
  | nil => rfl
  | cons symbol rest ih =>
      rw [cut] at missing
      split at missing
      case isTrue => contradiction
      case isFalse notLeading =>
          have later := ih (Option.map_eq_none_iff.mp missing)
          rw [replaceAll] at later
          rw [replaceAll, replaceFrom, if_neg notLeading, later]

theorem replaceAll_of_found {pattern text before after : List α} (nonempty : pattern ≠ [])
    (found : cut pattern text = some (before, after)) (replacement : List α) :
    replaceAll pattern replacement text = before ++ replacement ++ replaceAll pattern replacement after := by
  induction text generalizing before with
  | nil =>
      rw [cut, if_neg nonempty] at found
      contradiction
  | cons symbol rest ih =>
      rw [cut] at found
      split at found
      case isTrue leading =>
          cases found
          have positive := List.length_pos_iff.mpr nonempty
          have same : (symbol :: rest).drop pattern.length = rest.drop (pattern.length - 1) := by
            rw [show pattern.length = pattern.length - 1 + 1 by omega, List.drop_succ_cons]
            rfl
          rw [replaceAll, replaceFrom, if_pos leading, replaceFrom_skip, same, List.nil_append]
      case isFalse notLeading =>
          rcases Option.map_eq_some_iff.mp found with ⟨parts, later, same⟩
          cases same
          have continued := ih later
          rw [replaceAll] at continued
          rw [replaceAll, replaceFrom, if_neg notLeading, continued, List.cons_append, List.cons_append]

/-! ## Texts in which no occurrence begins -/

/-- No occurrence of the pattern begins in the first of two texts that follow each other. -/
def Clear (pattern : List α) : List α -> List α -> Prop
  | [], _ => True
  | symbol :: front, rest => ¬ pattern <+: symbol :: (front ++ rest) ∧ Clear pattern front rest

omit [DecidableEq α] in
theorem clear_append {pattern left right rest : List α} (first : Clear pattern left (right ++ rest))
    (second : Clear pattern right rest) : Clear pattern (left ++ right) rest := by
  induction left with
  | nil => exact second
  | cons symbol left ih =>
      refine ⟨fun leading => first.1 ?_, ih first.2⟩
      rw [← List.append_assoc]
      exact leading

omit [DecidableEq α] in
theorem clear_of_missing {symbol : α} {front : List α} (missing : symbol ∉ front) (pattern rest : List α) :
    Clear (symbol :: pattern) front rest := by
  induction front with
  | nil => trivial
  | cons first front ih =>
      rw [List.mem_cons, not_or] at missing
      refine ⟨fun leading => missing.1 ?_, ih missing.2⟩
      exact (List.cons_prefix_cons.mp leading).1

/-- A search passes over a text in which no occurrence begins. -/
theorem cut_clear {pattern front rest : List α} (clear : Clear pattern front rest) :
    cut pattern (front ++ rest) = (cut pattern rest).map fun parts => (front ++ parts.1, parts.2) := by
  induction front with
  | nil => exact Option.map_id'.symm
  | cons symbol front ih =>
      have notLeading : ¬ pattern.isPrefixOf (symbol :: (front ++ rest)) = true :=
        fun leading => clear.1 (List.isPrefixOf_iff_prefix.mp leading)
      rw [List.cons_append, cut, if_neg notLeading, ih clear.2, Option.map_map]
      rfl

theorem cut_pattern {pattern : List α} (nonempty : pattern ≠ []) (rest : List α) :
    cut pattern (pattern ++ rest) = some ([], rest) := by
  cases pattern with
  | nil => exact absurd rfl nonempty
  | cons symbol pattern =>
      rw [List.cons_append, cut, ← List.cons_append,
        if_pos (List.isPrefixOf_iff_prefix.mpr (List.prefix_append _ _)), List.drop_left]

/-- Replacing passes over a text in which no occurrence begins. -/
theorem replaceAll_clear {pattern front rest : List α} (clear : Clear pattern front rest) (replacement : List α) :
    replaceAll pattern replacement (front ++ rest) = front ++ replaceAll pattern replacement rest := by
  induction front with
  | nil => rfl
  | cons symbol front ih =>
      have notLeading : ¬ pattern.isPrefixOf (symbol :: (front ++ rest)) = true :=
        fun leading => clear.1 (List.isPrefixOf_iff_prefix.mp leading)
      have later := ih clear.2
      rw [replaceAll] at later
      rw [List.cons_append, replaceAll, replaceFrom, if_neg notLeading, later, List.cons_append]

theorem replaceAll_pattern {pattern : List α} (nonempty : pattern ≠ []) (replacement rest : List α) :
    replaceAll pattern replacement (pattern ++ rest) = replacement ++ replaceAll pattern replacement rest := by
  rw [replaceAll_of_found nonempty (cut_pattern nonempty rest), List.nil_append]

end Search

/-- A text without the separator that occurs around one occurs on a side of it. -/
theorem infix_of_infix_separated {needle left right : List α} {separator : α} (nonempty : needle ≠ [])
    (fresh : separator ∉ needle) (inside : needle <:+: left ++ separator :: right) :
    needle <:+: left ∨ needle <:+: right := by
  induction left with
  | nil =>
      rw [List.nil_append, List.infix_cons_iff] at inside
      rcases inside with leading | later
      · cases needle with
        | nil => exact absurd rfl nonempty
        | cons symbol rest =>
            rw [List.cons_prefix_cons] at leading
            exact absurd (leading.1 ▸ List.mem_cons_self) fresh
      · exact Or.inr later
  | cons symbol left ih =>
      rw [List.cons_append, List.infix_cons_iff] at inside
      rcases inside with leading | later
      · left
        rw [← List.cons_append] at leading
        rcases List.prefix_or_prefix_of_prefix leading (List.prefix_append (symbol :: left) _) with short | long
        · exact short.isInfix
        · rcases long with ⟨rest, same⟩
          rw [← same, List.prefix_append_right_inj] at leading
          cases rest with
          | nil =>
              rw [← same, List.append_nil]
          | cons first rest =>
              rw [List.cons_prefix_cons] at leading
              rw [← same, leading.1] at fresh
              exact absurd (List.mem_append_right _ List.mem_cons_self) fresh
      · exact (ih later).imp List.infix_cons id

section Replace

variable [DecidableEq α]

theorem infix_replaceAll {pattern needle text : List α} {separator : α} (nonempty : pattern ≠ [])
    (some : needle ≠ []) (fresh : separator ∉ needle)
    (inside : needle <:+: replaceAll pattern [separator] text) : needle <:+: text ∧ needle ≠ pattern := by
  generalize bound : text.length = length
  induction length using Nat.strong_induction_on generalizing text with
  | _ length ih =>
      cases found : cut pattern text with
      | none =>
          rw [replaceAll_of_missing found] at inside
          refine ⟨inside, fun same => cut_eq_none_iff.mp found ?_⟩
          rw [← same]
          exact inside
      | some parts =>
          rcases parts with ⟨before, after⟩
          rw [replaceAll_of_found nonempty found, List.append_assoc, List.singleton_append] at inside
          have whole := cut_eq found
          rcases infix_of_infix_separated some fresh inside with first | later
          · refine ⟨?_, fun same => cut_first nonempty found (same ▸ first)⟩
            rw [whole, List.append_assoc]
            exact first.trans (List.prefix_append _ _).isInfix
          · have shorter := cut_shrinks nonempty found
            rcases ih after.length (bound ▸ shorter) later rfl with ⟨inAfter, different⟩
            refine ⟨?_, different⟩
            rw [whole]
            exact inAfter.trans (List.suffix_append _ _).isInfix

/-- Replace the occurrences of one pattern after the other by a separator. -/
def replaceEach (patterns : List (List α)) (separator : α) (text : List α) : List α :=
  patterns.foldl (fun replaced pattern => replaceAll pattern [separator] replaced) text

/-- Patterns that are not empty and do not contain the separator. -/
def Apart (patterns : List (List α)) (separator : α) : Prop :=
  forall pattern, pattern ∈ patterns -> pattern ≠ [] ∧ separator ∉ pattern

theorem not_infix_replaceEach_of_missing {patterns : List (List α)} {needle text : List α} {separator : α}
    (apart : Apart patterns separator) (nonempty : needle ≠ []) (fresh : separator ∉ needle)
    (missing : ¬ needle <:+: text) : ¬ needle <:+: replaceEach patterns separator text := by
  induction patterns generalizing text with
  | nil => exact missing
  | cons pattern patterns ih =>
      have first := apart pattern List.mem_cons_self
      apply ih fun other member => apart other (List.mem_cons_of_mem _ member)
      exact fun inside => missing (infix_replaceAll first.1 nonempty fresh inside).1

theorem not_infix_replaceEach {patterns : List (List α)} {needle : List α} {separator : α}
    (apart : Apart patterns separator) (member : needle ∈ patterns) (text : List α) :
    ¬ needle <:+: replaceEach patterns separator text := by
  have own := apart needle member
  induction patterns generalizing text with
  | nil => cases member
  | cons pattern patterns ih =>
      have others : Apart patterns separator := fun other inRest => apart other (List.mem_cons_of_mem _ inRest)
      rcases List.mem_cons.mp member with here | later
      · apply not_infix_replaceEach_of_missing others own.1 own.2
        rw [← here]
        exact fun inside => (infix_replaceAll own.1 own.1 own.2 inside).2 rfl
      · exact ih others later _

end Replace

/-! ## Taking parts off -/

/-- Take parts off a text, at most so many. -/
def partsFrom (next : List α -> Option (β × List α)) : Nat -> List α -> List β
  | 0, _ => []
  | bound + 1, text =>
      match next text with
      | none => []
      | some (part, rest) => part :: partsFrom next bound rest

/-- Take parts off a text until none is left. -/
def parts (next : List α -> Option (β × List α)) (text : List α) : List β :=
  partsFrom next text.length text

/-- Every part that is taken off makes the text shorter. -/
def Shrinks (next : List α -> Option (β × List α)) : Prop :=
  forall {text part rest}, next text = some (part, rest) -> rest.length < text.length

theorem partsFrom_eq {next : List α -> Option (β × List α)} (shrinks : Shrinks next) {bound : Nat} {text : List α}
    (enough : text.length ≤ bound) : partsFrom next bound text = parts next text := by
  have both : forall bound other text, text.length ≤ bound -> text.length ≤ other ->
      partsFrom next bound text = partsFrom next other text := by
    intro bound
    induction bound with
    | zero =>
        intro other text small otherEnough
        cases other with
        | zero => rfl
        | succ other =>
            cases taken : next text with
            | none => rw [partsFrom, partsFrom, taken]
            | some found => exact absurd (shrinks taken) (by omega)
    | succ bound ih =>
        intro other text small otherEnough
        cases taken : next text with
        | none =>
            cases other with
            | zero => rw [partsFrom, partsFrom, taken]
            | succ other => rw [partsFrom, partsFrom, taken]
        | some found =>
            have shorter := shrinks taken
            cases other with
            | zero => exact absurd shorter (by omega)
            | succ other =>
                rw [partsFrom, partsFrom, taken]
                exact congrArg _ (ih other found.2 (by omega) (by omega))
  exact both bound text.length text enough (Nat.le_refl _)

theorem parts_eq {next : List α -> Option (β × List α)} (shrinks : Shrinks next) (text : List α) :
    parts next text =
      match next text with
      | none => []
      | some (part, rest) => part :: parts next rest := by
  rw [← partsFrom_eq shrinks (Nat.le_succ text.length), partsFrom]
  cases taken : next text with
  | none => rfl
  | some found => exact congrArg _ (partsFrom_eq shrinks (by have := shrinks taken; omega))

end Occurrences
end AIBuddy
