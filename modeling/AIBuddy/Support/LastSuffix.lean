import Mathlib.Data.List.Induction
import Mathlib.Data.List.Forall2

namespace AIBuddy
namespace LastSuffix

/-!
# The suffix that starts at the last match

Cutting a list at the last element that satisfies a predicate.  The cut moves
only when a new match is appended or the last one disappears.
-/

variable {α β : Type*}

/-- The suffix starting at the last element that satisfies the predicate. -/
def suffixFromLast (marked : α -> Bool) : List α -> Option (List α)
  | [] => none
  | first :: rest =>
      match suffixFromLast marked rest with
      | some suffix => some suffix
      | none => if marked first then some (first :: rest) else none

theorem suffixFromLast_eq_none_iff (marked : α -> Bool) (items : List α) :
    suffixFromLast marked items = none ↔ forall item, item ∈ items -> marked item = false := by
  induction items with
  | nil => simp [suffixFromLast]
  | cons first rest ih =>
      unfold suffixFromLast
      cases tail : suffixFromLast marked rest with
      | some suffix =>
          have found : ¬ forall item, item ∈ rest -> marked item = false := by
            rw [← ih, tail]
            simp
          simp only [List.mem_cons, forall_eq_or_imp, reduceCtorEq, false_iff, not_and]
          intro _
          exact found
      | none =>
          rw [tail] at ih
          simp only [List.mem_cons, forall_eq_or_imp]
          have unmatched := ih.mp rfl
          cases head : marked first with
          | true => simp
          | false => simpa using unmatched

/-- The suffix is cut at a match behind which nothing matches. -/
theorem suffixFromLast_eq_some_iff (marked : α -> Bool) (items suffix : List α) :
    suffixFromLast marked items = some suffix ↔
      Exists fun before => Exists fun first => Exists fun rest =>
        items = before ++ suffix ∧ suffix = first :: rest ∧ marked first = true ∧
          forall item, item ∈ rest -> marked item = false := by
  induction items with
  | nil =>
      simp only [suffixFromLast, reduceCtorEq, false_iff]
      rintro ⟨before, first, rest, whole, shape, _⟩
      simp [shape] at whole
  | cons head tail ih =>
      unfold suffixFromLast
      cases found : suffixFromLast marked tail with
      | some later =>
          rw [found] at ih
          simp only
          constructor
          · intro same
            rcases ih.mp same with ⟨before, first, rest, whole, shape⟩
            exact ⟨head :: before, first, rest, by rw [whole]; rfl, shape⟩
          · rintro ⟨before, first, rest, whole, shape, matched, unmatched⟩
            cases before with
            | nil =>
                simp only [List.nil_append, shape, List.cons.injEq] at whole
                have nothing := (suffixFromLast_eq_none_iff marked tail).mpr
                  (by rw [whole.2]; exact unmatched)
                rw [nothing] at found
                contradiction
            | cons same before =>
                simp only [List.cons_append, List.cons.injEq] at whole
                exact ih.mpr ⟨before, first, rest, whole.2, shape, matched, unmatched⟩
      | none =>
          have nothing := (suffixFromLast_eq_none_iff marked tail).mp found
          simp only
          constructor
          · intro same
            cases headMarked : marked head with
            | true =>
                simp only [headMarked, if_true, Option.some.injEq] at same
                exact ⟨[], head, tail, by simp [same], same.symm, headMarked, nothing⟩
            | false => simp [headMarked] at same
          · rintro ⟨before, first, rest, whole, shape, matched, unmatched⟩
            cases before with
            | nil =>
                simp only [List.nil_append] at whole
                have parts : head = first ∧ tail = rest := by simpa [shape] using whole
                rw [if_pos (by rw [parts.1]; exact matched), whole]
            | cons same before =>
                have inTail : first ∈ tail := by
                  simp only [List.cons_append, List.cons.injEq] at whole
                  simp [whole.2, shape]
                rw [nothing first inTail] at matched
                contradiction

theorem suffixFromLast_isSuffix {marked : α -> Bool} {items suffix : List α}
    (cut : suffixFromLast marked items = some suffix) : suffix <:+ items := by
  rcases (suffixFromLast_eq_some_iff marked items suffix).mp cut with ⟨before, _, _, whole, _⟩
  exact ⟨before, whole.symm⟩

theorem suffixFromLast_ne_nil {marked : α -> Bool} {items suffix : List α}
    (cut : suffixFromLast marked items = some suffix) : suffix ≠ [] := by
  rcases (suffixFromLast_eq_some_iff marked items suffix).mp cut with ⟨_, first, rest, _, shape, _⟩
  simp [shape]

theorem suffixFromLast_concat (marked : α -> Bool) (items : List α) (last : α) :
    suffixFromLast marked (items ++ [last]) =
      if marked last then some [last] else (suffixFromLast marked items).map (· ++ [last]) := by
  induction items with
  | nil => simp [suffixFromLast]
  | cons first rest ih =>
      simp only [List.cons_append, suffixFromLast, ih]
      cases marked last with
      | true => simp
      | false =>
          cases suffixFromLast marked rest with
          | some suffix => simp
          | none => cases marked first <;> simp

theorem suffixFromLast_append {marked : α -> Bool} {extra : List α}
    (unmatched : forall item, item ∈ extra -> marked item = false) (items : List α) :
    suffixFromLast marked (items ++ extra) = (suffixFromLast marked items).map (· ++ extra) := by
  induction extra using List.reverseRecOn with
  | nil => simp
  | append_singleton front last ih =>
      rw [← List.append_assoc, suffixFromLast_concat, if_neg (by simp [unmatched last]),
        ih (fun item member => unmatched item (by simp [member]))]
      simp [Function.comp_def]

theorem suffixFromLast_sublist {marked : α -> Bool} {items others : List α} (sublist : items.Sublist others)
    (noMore : others.countP marked ≤ items.countP marked) {later : List α}
    (cut : suffixFromLast marked others = some later) :
    Exists fun suffix => suffixFromLast marked items = some suffix ∧ suffix.Sublist later := by
  induction sublist with
  | slnil => contradiction
  | @cons items others extra sublist ih =>
      have unmarked : marked extra = false ∧ others.countP marked ≤ items.countP marked := by
        have fewer : items.countP marked ≤ others.countP marked := sublist.countP_le
        rw [List.countP_cons] at noMore
        cases head : marked extra with
        | false => exact ⟨rfl, by simpa [head] using noMore⟩
        | true =>
            simp only [head, if_true] at noMore
            omega
      apply ih unmarked.2
      unfold suffixFromLast at cut
      cases found : suffixFromLast marked others with
      | some suffix => rwa [found] at cut
      | none => simp [found, unmarked.1] at cut
  | @cons_cons items others shared sublist ih =>
      have noMoreBehind : others.countP marked ≤ items.countP marked := by
        rw [List.countP_cons, List.countP_cons] at noMore
        omega
      unfold suffixFromLast at cut ⊢
      cases found : suffixFromLast marked others with
      | some suffix =>
          rw [found] at cut
          cases cut
          rcases ih noMoreBehind found with ⟨suffix, cutHere, within⟩
          exact ⟨suffix, by rw [cutHere], within⟩
      | none =>
          have none : suffixFromLast marked items = none := by
            apply (suffixFromLast_eq_none_iff marked items).mpr
            intro item member
            exact (suffixFromLast_eq_none_iff marked others).mp found item (sublist.subset member)
          rw [found] at cut
          rw [none]
          simp only at cut ⊢
          split at cut
          · case _ isMarked =>
              cases cut
              exact ⟨shared :: items, by rw [if_pos isMarked], sublist.cons_cons shared⟩
          · contradiction

/-- Matches that disappear move the cut to the front. -/
theorem suffixFromLast_forall₂_fewer {related : α -> β -> Prop} {marked : α -> Bool} {marks : β -> Bool}
    (fewer : forall left right, related left right -> marks right = true -> marked left = true)
    {left : List α} {right : List β} (pairs : List.Forall₂ related left right) {later : List β}
    (cut : suffixFromLast marks right = some later) :
    Exists fun suffix => Exists fun tail => suffixFromLast marked left = some suffix ∧
      List.Forall₂ related suffix tail ∧ tail.Sublist later := by
  induction pairs with
  | nil => contradiction
  | @cons first second left right head pairs ih =>
      unfold suffixFromLast at cut
      cases found : suffixFromLast marks right with
      | some suffix =>
          rw [found] at cut
          cases cut
          rcases ih found with ⟨suffix, tail, cutHere, related, within⟩
          refine ⟨suffix, tail, ?_, related, within⟩
          unfold suffixFromLast
          rw [cutHere]
      | none =>
          rw [found] at cut
          simp only at cut
          split at cut
          · case _ isMarked =>
              cases cut
              unfold suffixFromLast
              cases cutHere : suffixFromLast marked left with
              | none =>
                  exact ⟨first :: left, second :: right, by simp [fewer first second head isMarked],
                    .cons head pairs, List.Sublist.refl _⟩
              | some suffix =>
                  rcases suffixFromLast_isSuffix cutHere with ⟨before, whole⟩
                  have behind : List.Forall₂ related suffix (right.drop before.length) := by
                    have dropped := List.forall₂_drop before.length pairs
                    rwa [← whole, List.drop_left] at dropped
                  exact ⟨suffix, right.drop before.length, rfl, behind,
                    (List.drop_sublist _ _).trans (List.sublist_cons_self second right)⟩
          · contradiction

end LastSuffix
end AIBuddy
