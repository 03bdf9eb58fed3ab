import Mathlib.Data.List.Nodup
import Mathlib.Data.List.Range

namespace AIBuddy
namespace Middle

/-!
# Taking items out of the middle

Items are taken out of a list from the middle outwards, one from the front half and one from the
back half in turn.  What is taken out are the items between two places.
-/

variable {α : Type*}

/-- The place of a turn in a list of a length, if there is one. -/
def turnPlace (length turn : Nat) : Option Nat :=
  if turn % 2 = 0 then
    if length / 2 > turn / 2 then some (length / 2 - turn / 2 - 1) else none
  else if length / 2 + turn / 2 < length then some (length / 2 + turn / 2)
  else none

/-- The first place that a number of turns reaches. -/
def low (length turns : Nat) : Nat :=
  length / 2 - (turns + 1) / 2

/-- The place behind the last one that a number of turns reaches. -/
def high (length turns : Nat) : Nat :=
  min (length / 2 + turns / 2) length

theorem turnPlace_reaches (length turns place : Nat) :
    (Exists fun turn => turn < turns ∧ turnPlace length turn = some place) ↔
      low length turns ≤ place ∧ place < high length turns := by
  unfold turnPlace low high
  constructor
  · rintro ⟨turn, before, same⟩
    split at same
    · split at same
      · cases same
        omega
      · cases same
    · split at same
      · cases same
        omega
      · cases same
  · rintro ⟨after, before⟩
    by_cases front : place < length / 2
    · refine ⟨2 * (length / 2 - place - 1), by omega, ?_⟩
      rw [if_pos (by omega), if_pos (by omega)]
      congr 1
      omega
    · refine ⟨2 * (place - length / 2) + 1, by omega, ?_⟩
      rw [if_neg (by omega), if_pos (by omega)]
      congr 1
      omega

theorem low_le_high (length turns : Nat) : low length turns ≤ high length turns := by
  unfold low high
  omega

theorem high_le_length (length turns : Nat) : high length turns ≤ length :=
  Nat.min_le_right ..

/-- Every turn takes an item out, except the last one when an odd number of items is to be taken
out completely. -/
theorem high_sub_low_eq_iff {length turns : Nat} (some : 1 ≤ turns) (enough : turns ≤ length) :
    high length turns - low length turns = turns ↔ length % 2 = 0 ∨ turns < length := by
  unfold low high
  omega

theorem low_anti {length fewer more : Nat} (ordered : fewer ≤ more) : low length more ≤ low length fewer := by
  unfold low
  omega

theorem high_mono {length fewer more : Nat} (ordered : fewer ≤ more) : high length fewer ≤ high length more := by
  unfold high
  omega

/-- The items between two places. -/
def between (items : List α) (first last : Nat) : List α :=
  (items.take last).drop first

theorem take_append_between_append_drop (items : List α) {first last : Nat} (ordered : first ≤ last) :
    items.take first ++ between items first last ++ items.drop last = items := by
  have front : items.take first = (items.take last).take first := by
    rw [List.take_take, Nat.min_eq_left ordered]
  rw [front, between, List.take_append_drop, List.take_append_drop]

theorem mem_between_iff {items : List α} {first last : Nat} {item : α} :
    item ∈ between items first last ↔ Exists fun place => first ≤ place ∧ place < last ∧ items[place]? = some item := by
  rw [between, List.mem_iff_getElem?]
  constructor
  · rintro ⟨place, found⟩
    rw [List.getElem?_drop, List.getElem?_take] at found
    split at found
    · exact ⟨first + place, by omega, by assumption, found⟩
    · cases found
  · rintro ⟨place, after, before, found⟩
    refine ⟨place - first, ?_⟩
    rw [List.getElem?_drop, List.getElem?_take, if_pos (by omega), Nat.add_sub_cancel' after]
    exact found

theorem filter_notMem_between [DecidableEq α] {items : List α} (distinct : items.Nodup) {first last : Nat}
    (ordered : first ≤ last) :
    (items.filter fun item => decide (item ∉ between items first last)) = items.take first ++ items.drop last := by
  have split := take_append_between_append_drop items ordered
  generalize between items first last = middle at split ⊢
  generalize items.take first = front at split ⊢
  generalize items.drop last = back at split ⊢
  subst split
  rw [List.append_assoc, List.nodup_append, List.nodup_append] at distinct
  rcases distinct with ⟨-, ⟨-, -, behind⟩, apart⟩
  rw [List.filter_append, List.filter_append]
  have kept : front.filter (fun item => decide (item ∉ middle)) = front := by
    rw [List.filter_eq_self]
    intro item member
    refine decide_eq_true fun taken => ?_
    exact apart item member item (List.mem_append_left _ taken) rfl
  have gone : middle.filter (fun item => decide (item ∉ middle)) = [] := by
    rw [List.filter_eq_nil_iff]
    intro item member
    exact fun left => of_decide_eq_true left member
  have stays : back.filter (fun item => decide (item ∉ middle)) = back := by
    rw [List.filter_eq_self]
    intro item member
    refine decide_eq_true fun taken => ?_
    exact behind item taken item member rfl
  rw [kept, gone, stays, List.append_nil]

end Middle
end AIBuddy
