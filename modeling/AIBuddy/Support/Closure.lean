import Mathlib.Data.List.Sublists
import Mathlib.Logic.Relation

namespace AIBuddy
namespace Closure

/-!
# Finite sets closed under a relation

A set of items of a list grows round after round by the items that one of its
members leads to.  As many rounds as the list has items are enough for it to be
closed, so that it is the set of items that can be reached.
-/

variable {α : Type}

/-- One round: the items that are found, and those that a found item leads to. -/
def grow (leads : α -> α -> Bool) (items : List α) (found : α -> Bool) : α -> Bool :=
  fun item => found item || items.any fun source => found source && leads source item

/-- The items that are found after some rounds. -/
def rounds (leads : α -> α -> Bool) (items : List α) (start : α -> Bool) : Nat -> α -> Bool
  | 0 => start
  | count + 1 => grow leads items (rounds leads items start count)

/-- The items of a list that can be reached from the start. -/
def closure (leads : α -> α -> Bool) (items : List α) (start : α -> Bool) : List α :=
  items.filter (rounds leads items start items.length)

variable {leads : α -> α -> Bool} {items : List α} {start : α -> Bool}

theorem rounds_succ_of_rounds {count : Nat} {item : α} (found : rounds leads items start count item = true) :
    rounds leads items start (count + 1) item = true := by
  simp only [rounds, grow, found, Bool.true_or]

theorem reaches_of_rounds {count : Nat} {item : α} (found : rounds leads items start count item = true) :
    Exists fun source => start source = true ∧
      Relation.ReflTransGen (fun source target => leads source target = true) source item := by
  induction count generalizing item with
  | zero => exact ⟨item, found, Relation.ReflTransGen.refl⟩
  | succ count ih =>
      simp only [rounds, grow, Bool.or_eq_true, List.any_eq_true, Bool.and_eq_true] at found
      rcases found with found | ⟨source, _, sourceFound, step⟩
      · exact ih found
      · rcases ih sourceFound with ⟨first, started, path⟩
        exact ⟨first, started, path.tail step⟩

theorem quiet_or_grows (count : Nat) :
    (Exists fun round => round ≤ count ∧ forall item, item ∈ items ->
      rounds leads items start (round + 1) item = true -> rounds leads items start round item = true) ∨
    count ≤ (items.filter (rounds leads items start count)).length := by
  induction count with
  | zero => exact Or.inr (Nat.zero_le _)
  | succ count ih =>
      rcases ih with ⟨round, early, quiet⟩ | grown
      · exact Or.inl ⟨round, Nat.le_succ_of_le early, quiet⟩
      · by_cases quiet : forall item, item ∈ items ->
            rounds leads items start (count + 1) item = true -> rounds leads items start count item = true
        · exact Or.inl ⟨count, Nat.le_succ count, quiet⟩
        · right
          have kept : (items.filter (rounds leads items start count)).Sublist
              (items.filter (rounds leads items start (count + 1))) :=
            List.monotone_filter_right items fun item found => rounds_succ_of_rounds found
          have longer : (items.filter (rounds leads items start count)).length <
              (items.filter (rounds leads items start (count + 1))).length := by
            apply lt_of_le_of_ne kept.length_le
            intro sameLength
            apply quiet
            intro item member found
            have same := kept.eq_of_length sameLength
            have inAfter : item ∈ items.filter (rounds leads items start (count + 1)) :=
              List.mem_filter.mpr ⟨member, found⟩
            rw [← same] at inAfter
            exact (List.mem_filter.mp inAfter).2
          omega

theorem rounds_of_quiet {round : Nat}
    (quiet : forall item, item ∈ items ->
      rounds leads items start (round + 1) item = true -> rounds leads items start round item = true)
    (extra : Nat) : forall item, item ∈ items ->
      rounds leads items start (round + extra) item = true -> rounds leads items start round item = true := by
  induction extra with
  | zero => exact fun item _ found => found
  | succ extra ih =>
      intro item member found
      rw [← Nat.add_assoc, rounds, grow, Bool.or_eq_true, List.any_eq_true] at found
      rcases found with found | ⟨source, sourceMember, step⟩
      · exact ih item member found
      · rw [Bool.and_eq_true] at step
        apply quiet item member
        rw [rounds, grow, Bool.or_eq_true, List.any_eq_true]
        right
        refine ⟨source, sourceMember, ?_⟩
        rw [ih source sourceMember step.1, step.2]
        rfl

theorem rounds_length_closed {source target : α} (sourceMember : source ∈ items) (targetMember : target ∈ items)
    (found : rounds leads items start items.length source = true) (step : leads source target = true) :
    rounds leads items start items.length target = true := by
  have next : rounds leads items start (items.length + 1) target = true := by
    rw [rounds, grow, Bool.or_eq_true, List.any_eq_true]
    right
    exact ⟨source, sourceMember, by rw [found, step]; rfl⟩
  have outcome := @quiet_or_grows α leads items start items.length
  rcases outcome with ⟨round, early, quiet⟩ | full
  · have steps : items.length + 1 = round + (items.length + 1 - round) := by omega
    rw [steps] at next
    have atRound := rounds_of_quiet quiet _ target targetMember next
    have later : forall extra, rounds leads items start (round + extra) target = true := by
      intro extra
      induction extra with
      | zero => exact atRound
      | succ extra ih => exact rounds_succ_of_rounds ih
    have sum : items.length = round + (items.length - round) := by omega
    rw [sum]
    exact later _
  · have all : items.filter (rounds leads items start items.length) = items :=
      List.filter_sublist.eq_of_length (Nat.le_antisymm List.filter_sublist.length_le full)
    have inAll : target ∈ items.filter (rounds leads items start items.length) := by
      rw [all]
      exact targetMember
    exact (List.mem_filter.mp inAll).2

theorem mem_closure_iff {item : α} (started : forall item, start item = true -> item ∈ items)
    (stays : forall source target, leads source target = true -> target ∈ items) :
    item ∈ closure leads items start ↔ Exists fun source => start source = true ∧
      Relation.ReflTransGen (fun source target => leads source target = true) source item := by
  constructor
  · intro member
    exact reaches_of_rounds (List.mem_filter.mp member).2
  · rintro ⟨source, sourceStarted, path⟩
    have first : forall count, rounds leads items start count source = true := by
      intro count
      induction count with
      | zero => exact sourceStarted
      | succ count ih => exact rounds_succ_of_rounds ih
    have reached : item ∈ items ∧ rounds leads items start items.length item = true := by
      induction path with
      | refl => exact ⟨started source sourceStarted, first items.length⟩
      | tail _ step ih =>
          have target := stays _ _ step
          exact ⟨target, rounds_length_closed ih.1 target ih.2 step⟩
    exact List.mem_filter.mpr reached

end Closure
end AIBuddy
