import Mathlib.Algebra.GroupWithZero.Nat
import Mathlib.Data.List.Flatten
import Mathlib.Data.List.Forall2
import Mathlib.Data.List.Perm.Basic

namespace AIBuddy
namespace Joining

/-!
# Pieces joined to wholes

A list of wholes tells a list of pieces once when every piece is part of exactly one whole, and
every whole is one piece or the join of two shorter wholes.
-/

variable {α : Type*} (join : α -> α -> Option α)

/-- A whole and the pieces it was joined from, in order. -/
inductive Joined : List α -> α -> Prop where
  | piece (item : α) : Joined [item] item
  | joined {left right : List α} {first second whole : α} (front : Joined left first) (back : Joined right second)
      (joins : join first second = some whole) : Joined (left ++ right) whole

/-- Every piece is part of exactly one whole. -/
def ToldOnce (pieces wholes : List α) : Prop :=
  Exists fun groups : List (List α) => groups.flatten.Perm pieces ∧ List.Forall₂ (Joined join) groups wholes

variable {join}

namespace ToldOnce

variable {pieces wholes : List α}

theorem refl (items : List α) : ToldOnce join items items := by
  refine ⟨items.map fun item => [item], ?_, ?_⟩
  · rw [← List.flatMap_def, List.flatMap_singleton']
  · rw [List.forall₂_map_left_iff, List.forall₂_same]
    exact fun item _ => .piece item

theorem eq_nil (told : ToldOnce join pieces []) : pieces = [] := by
  rcases told with ⟨groups, same, joined⟩
  cases joined
  exact List.nil_perm.mp same

theorem append {morePieces moreWholes : List α} (told : ToldOnce join pieces wholes)
    (toldMore : ToldOnce join morePieces moreWholes) : ToldOnce join (pieces ++ morePieces) (wholes ++ moreWholes) := by
  rcases told with ⟨groups, same, joined⟩
  rcases toldMore with ⟨moreGroups, sameMore, joinedMore⟩
  refine ⟨groups ++ moreGroups, ?_, List.rel_append joined joinedMore⟩
  rw [List.flatten_append]
  exact same.append sameMore

theorem perm {others : List α} (told : ToldOnce join pieces wholes) (reordered : wholes.Perm others) :
    ToldOnce join pieces others := by
  rcases told with ⟨groups, same, joined⟩
  rcases List.perm_comp_forall₂ reordered.symm joined.flip with ⟨regrouped, rejoined, sameGroups⟩
  exact ⟨regrouped, sameGroups.flatten.trans same, rejoined.flip⟩

theorem joinNeighbours {front back : List α} {first second whole : α}
    (told : ToldOnce join pieces (front ++ first :: second :: back)) (joins : join first second = some whole) :
    ToldOnce join pieces (front ++ whole :: back) := by
  rcases told with ⟨groups, same, joined⟩
  have joinedFront := List.forall₂_take_append groups front _ joined
  have joinedRest := List.forall₂_drop_append groups front _ joined
  have parts : groups.take front.length ++ groups.drop front.length = groups := List.take_append_drop _ _
  generalize groups.take front.length = frontGroups at joinedFront parts
  generalize groups.drop front.length = rest at joinedRest parts
  subst parts
  cases joinedRest with
  | @cons left _ _ _ joinedFirst joinedRest =>
      cases joinedRest with
      | @cons right _ backGroups _ joinedSecond joinedBack =>
          refine ⟨frontGroups ++ (left ++ right) :: backGroups, ?_, ?_⟩
          · simpa only [List.flatten_append, List.flatten_cons, List.append_assoc] using same
          · exact List.rel_append joinedFront (.cons (.joined joinedFirst joinedSecond joins) joinedBack)

end ToldOnce

/-! ## Sizes -/

section Sizes

variable {size : α -> Nat} (additive : forall first second whole, join first second = some whole ->
  size whole = size first + size second)

include additive

theorem Joined.size_eq {pieces : List α} {whole : α} (joined : Joined join pieces whole) :
    size whole = (pieces.map size).sum := by
  induction joined with
  | piece item => simp
  | joined front back joins inductionFront inductionBack =>
      rw [additive _ _ _ joins, inductionFront, inductionBack, List.map_append, List.sum_append]

theorem ToldOnce.size_eq {pieces wholes : List α} (told : ToldOnce join pieces wholes) :
    (wholes.map size).sum = (pieces.map size).sum := by
  rcases told with ⟨groups, same, joined⟩
  rw [← (same.map size).sum_nat]
  clear same
  induction joined with
  | nil => rfl
  | cons head _ ih =>
      rw [List.map_cons, List.sum_cons, head.size_eq additive, ih, List.flatten_cons, List.map_append,
        List.sum_append]

theorem ToldOnce.size_pos {pieces wholes : List α} (told : ToldOnce join pieces wholes)
    (sized : forall piece, piece ∈ pieces -> 0 < size piece) {whole : α} (member : whole ∈ wholes) : 0 < size whole := by
  rcases told with ⟨groups, same, joined⟩
  have part : Exists fun group => group ∈ groups ∧ Joined join group whole := by
    clear same
    induction joined with
    | nil => contradiction
    | @cons group head groups rest joinsHead _ ih =>
        rcases List.mem_cons.mp member with rfl | later
        · exact ⟨group, List.mem_cons_self .., joinsHead⟩
        · rcases ih later with ⟨other, inRest, joins⟩
          exact ⟨other, List.mem_cons_of_mem _ inRest, joins⟩
  rcases part with ⟨group, inGroups, joins⟩
  have all : forall piece, piece ∈ group -> 0 < size piece := fun piece inGroup =>
    sized piece (same.mem_iff.mp (List.mem_flatten.mpr ⟨group, inGroups, inGroup⟩))
  clear same joined inGroups member
  induction joins with
  | piece item => exact all item (List.mem_singleton_self item)
  | joined front back joins inductionFront inductionBack =>
      rw [additive _ _ _ joins]
      exact Nat.add_pos_left (inductionFront fun piece inFront => all piece (List.mem_append_left _ inFront)) _

theorem ToldOnce.rest_eq_nil {pieces wholes rest : List α} (told : ToldOnce join pieces (wholes ++ rest))
    (sized : forall piece, piece ∈ pieces -> 0 < size piece)
    (enough : (pieces.map size).sum ≤ (wholes.map size).sum) : rest = [] := by
  have same := told.size_eq additive
  rw [List.map_append, List.sum_append] at same
  cases rest with
  | nil => rfl
  | cons first others =>
      have positive := told.size_pos additive sized (List.mem_append_right wholes (List.mem_cons_self ..))
      rw [List.map_cons, List.sum_cons] at same
      omega

end Sizes

end Joining
end AIBuddy
