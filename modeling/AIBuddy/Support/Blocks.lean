import Mathlib.Data.List.Forall2

namespace AIBuddy
namespace Blocks

/-!
# Maximal blocks of marked elements

The number of maximal runs of marked elements of a list, counted from its end.
Elements that are added, wherever they are put, never lower the number.
-/

variable {α β : Type*}

/-- Count one more element: the number of blocks, and whether the first element
is inside one. -/
def countStep (marked : α -> Bool) (item : α) (state : Nat × Bool) : Nat × Bool :=
  if marked item then (if state.2 then state.1 else state.1 + 1, true) else (state.1, false)

def blocks (marked : α -> Bool) (items : List α) : Nat × Bool :=
  items.foldr (countStep marked) (0, false)

def blockCount (marked : α -> Bool) (items : List α) : Nat :=
  (blocks marked items).1

theorem blocks_cons (marked : α -> Bool) (first : α) (rest : List α) :
    blocks marked (first :: rest) = countStep marked first (blocks marked rest) := rfl

theorem countStep_fst_le (marked : α -> Bool) (item : α) (state : Nat × Bool) :
    state.1 ≤ (countStep marked item state).1 := by
  unfold countStep
  split
  · split
    · exact Nat.le_refl _
    · exact Nat.le_succ _
  · exact Nat.le_refl _

private theorem blocks_sublist (marked : α -> Bool) {items others : List α} (sublist : items.Sublist others) :
    (blocks marked items).1 ≤ (blocks marked others).1 ∧
      ((blocks marked items).2 = false -> (blocks marked others).2 = true ->
        (blocks marked items).1 + 1 ≤ (blocks marked others).1) := by
  induction sublist with
  | slnil => exact ⟨Nat.le_refl _, fun _ inside => absurd inside Bool.false_ne_true⟩
  | cons extra rest ih =>
      rcases ih with ⟨fewer, lost⟩
      rw [blocks_cons]
      refine ⟨Nat.le_trans fewer (countStep_fst_le marked extra _), fun outside inside => ?_⟩
      unfold countStep at inside ⊢
      split at inside
      · case _ isMarked =>
          rw [if_pos isMarked]
          split
          · case _ already => exact lost outside already
          · exact Nat.succ_le_succ fewer
      · contradiction
  | cons_cons shared rest ih =>
      rcases ih with ⟨fewer, lost⟩
      rw [blocks_cons, blocks_cons]
      unfold countStep
      cases marked shared with
      | false => exact ⟨fewer, fun _ inside => absurd inside Bool.false_ne_true⟩
      | true =>
          refine ⟨?_, fun outside => absurd outside.symm Bool.false_ne_true⟩
          simp only [if_true]
          split
          · split
            · exact fewer
            · exact Nat.le_succ_of_le fewer
          · case _ outside =>
              split
              · case _ inside => exact lost (eq_false_of_ne_true outside) inside
              · exact Nat.succ_le_succ fewer

theorem blockCount_le_of_sublist (marked : α -> Bool) {items others : List α} (sublist : items.Sublist others) :
    blockCount marked items ≤ blockCount marked others :=
  (blocks_sublist marked sublist).1

theorem blockCount_forall₂ {marked : α -> Bool} {marks : β -> Bool} {items : List α} {others : List β}
    (agree : List.Forall₂ (fun item other => marked item = marks other) items others) :
    blockCount marked items = blockCount marks others := by
  unfold blockCount
  have same : blocks marked items = blocks marks others := by
    induction agree with
    | nil => rfl
    | cons head rest ih =>
        rw [blocks_cons, blocks_cons, ih]
        unfold countStep
        rw [head]
  rw [same]

private theorem foldr_succ (marked : α -> Bool) (items : List α) (count : Nat) (inside : Bool) :
    items.foldr (countStep marked) (count + 1, inside) =
      ((items.foldr (countStep marked) (count, inside)).1 + 1,
        (items.foldr (countStep marked) (count, inside)).2) := by
  induction items with
  | nil => rfl
  | cons first rest ih =>
      rw [List.foldr_cons, List.foldr_cons, ih]
      unfold countStep
      cases marked first with
      | false => rfl
      | true =>
          simp only [if_true]
          split <;> rfl

theorem blockCount_concat_concat {marked : α -> Bool} (front : List α) {before last : α}
    (unmarked : marked before = false) (isMarked : marked last = true) :
    blockCount marked (front ++ [before, last]) = blockCount marked (front ++ [before]) + 1 := by
  have one : [before, last].foldr (countStep marked) (0, false) = (1, false) := by
    simp [countStep, unmarked, isMarked]
  have none : [before].foldr (countStep marked) (0, false) = (0, false) := by
    simp [countStep, unmarked]
  unfold blockCount blocks
  rw [List.foldr_append, List.foldr_append, one, none, foldr_succ]

end Blocks
end AIBuddy
