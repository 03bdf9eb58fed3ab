import Mathlib.Data.List.Infix

namespace AIBuddy

/-!
# LIKE patterns

A pattern of SQL's LIKE without an escape character: a percent sign stands for any text, an
underscore for any character, and the case of ASCII letters does not matter.  A pattern without
these marks between two percent signs finds the texts that contain it.
-/

namespace LikePattern

/-- A mark for one character, and what follows it. -/
def likeMark (mark : Char) (follow : List Char -> Bool) : List Char -> Bool
  | [] => false
  | character :: others => (mark = '_' || mark.toLower == character.toLower) && follow others

/-- Whether a text is like a pattern. -/
def like : List Char -> List Char -> Bool
  | [], text => text.isEmpty
  | mark :: rest, text => if mark = '%' then text.tails.any (like rest) else likeMark mark (like rest) text

/-- A pattern without marks. -/
def Plain (pattern : List Char) : Prop :=
  '%' ∉ pattern ∧ '_' ∉ pattern

instance (pattern : List Char) : Decidable (Plain pattern) :=
  inferInstanceAs (Decidable (_ ∧ _))

theorem like_percent_iff (rest text : List Char) :
    like ('%' :: rest) text = true ↔ Exists fun behind => behind <:+ text ∧ like rest behind = true := by
  rw [like, if_pos rfl, List.any_eq_true]
  exact exists_congr fun behind => and_congr_left fun _ => List.mem_tails behind text

theorem like_plain_iff {pattern : List Char} (plain : Plain pattern) (text : List Char) :
    like (pattern ++ ['%']) text = true ↔ pattern.map Char.toLower <+: text.map Char.toLower := by
  induction pattern generalizing text with
  | nil =>
      rw [List.nil_append, like_percent_iff, List.map_nil]
      exact ⟨fun _ => List.nil_prefix, fun _ => ⟨[], List.nil_suffix, rfl⟩⟩
  | cons mark rest ih =>
      have notPercent : mark ≠ '%' := fun same => plain.1 (same ▸ List.mem_cons_self)
      have notUnderscore : mark ≠ '_' := fun same => plain.2 (same ▸ List.mem_cons_self)
      have later := ih ⟨fun member => plain.1 (List.mem_cons_of_mem _ member),
        fun member => plain.2 (List.mem_cons_of_mem _ member)⟩
      rw [List.cons_append, List.map_cons, like, if_neg notPercent]
      cases text with
      | nil => simp [likeMark]
      | cons character others =>
          simp only [likeMark, List.map_cons, List.cons_prefix_cons, Bool.and_eq_true, Bool.or_eq_true, decide_eq_true_eq,
            beq_iff_eq, later others, or_iff_right notUnderscore]

theorem like_surrounded_iff {pattern : List Char} (plain : Plain pattern) (text : List Char) :
    like ('%' :: (pattern ++ ['%'])) text = true ↔ pattern.map Char.toLower <:+: text.map Char.toLower := by
  rw [like_percent_iff, List.infix_iff_prefix_suffix]
  constructor
  · rintro ⟨behind, suffix, found⟩
    exact ⟨behind.map Char.toLower, (like_plain_iff plain behind).mp found, suffix.map Char.toLower⟩
  · rintro ⟨lowered, starts, ends⟩
    rcases ends with ⟨before, whole⟩
    rcases List.append_eq_map_iff.mp whole with ⟨front, back, rfl, _, rfl⟩
    exact ⟨back, List.suffix_append front back, (like_plain_iff plain back).mpr starts⟩

end LikePattern

end AIBuddy
