import Mathlib.Data.List.Basic
import Mathlib.Data.List.Induction

namespace AIBuddy

/-!
# Gathering events by their keys

Every event carries a key.  The first event of a key begins an item at the end of a list, and
the later ones extend that item where it stands.  So the list has one item for each key, in the
order in which the keys came up first, and an item depends only on the events of its own key.
-/

/-- How events begin and extend the items of their keys. -/
structure Gathering (ε α κ : Type*) where
  label : ε -> κ
  key : α -> κ
  start : ε -> α
  extend : α -> ε -> α
  key_start : forall event, key (start event) = label event
  key_extend : forall item event, key (extend item event) = key item

namespace Gathering

variable {ε α κ : Type*} [DecidableEq κ]

/-- Deliver an event to the first item of its key, or to a new one. -/
def deliver (rule : Gathering ε α κ) : List α -> ε -> List α
  | [], event => [rule.start event]
  | item :: rest, event =>
      if rule.key item = rule.label event then rule.extend item event :: rest
      else item :: rule.deliver rest event

/-- The item of events that all have one key. -/
def gathered (rule : Gathering ε α κ) : List ε -> Option α
  | [] => none
  | first :: rest => some (rest.foldl rule.extend (rule.start first))

/-- The events of a key. -/
def having (rule : Gathering ε α κ) (key : κ) (events : List ε) : List ε :=
  events.filter fun event => decide (rule.label event = key)

theorem gathered_concat (rule : Gathering ε α κ) (events : List ε) (event : ε) :
    rule.gathered (events ++ [event]) =
      some (((rule.gathered events).map fun item => rule.extend item event).getD (rule.start event)) := by
  cases events with
  | nil => rfl
  | cons first rest => simp [gathered]

theorem key_foldl_extend (rule : Gathering ε α κ) (item : α) (events : List ε) :
    rule.key (events.foldl rule.extend item) = rule.key item := by
  induction events generalizing item with
  | nil => rfl
  | cons event rest ih => rw [List.foldl_cons, ih, rule.key_extend]

theorem key_gathered_having (rule : Gathering ε α κ) (key : κ) (events : List ε) (item : α)
    (gathers : rule.gathered (rule.having key events) = some item) : rule.key item = key := by
  cases found : rule.having key events with
  | nil =>
      rw [found] at gathers
      contradiction
  | cons first rest =>
      have member : first ∈ rule.having key events := by
        rw [found]
        exact List.mem_cons_self
      rw [found, gathered, Option.some.injEq] at gathers
      rw [← gathers, key_foldl_extend, rule.key_start]
      simpa using (List.mem_filter.mp member).2

theorem having_concat (rule : Gathering ε α κ) (key : κ) (events : List ε) (event : ε) :
    rule.having key (events ++ [event]) =
      if rule.label event = key then rule.having key events ++ [event] else rule.having key events := by
  rw [having, List.filter_append]
  split
  · rename_i same
    rw [List.filter_cons_of_pos (by simpa using same)]
    rfl
  · rename_i other
    rw [List.filter_cons_of_neg (by simpa using other), List.filter_nil, List.append_nil]
    rfl

theorem deliver_of_absent (rule : Gathering ε α κ) (items : List α) (event : ε)
    (absent : forall item, item ∈ items -> rule.key item ≠ rule.label event) :
    rule.deliver items event = items ++ [rule.start event] := by
  induction items with
  | nil => rfl
  | cons item rest ih =>
      rw [deliver, if_neg (absent item List.mem_cons_self),
        ih fun other member => absent other (List.mem_cons_of_mem _ member)]
      rfl

theorem deliver_of_found (rule : Gathering ε α κ) (front back : List α) (item : α) (event : ε)
    (others : forall other, other ∈ front -> rule.key other ≠ rule.label event)
    (found : rule.key item = rule.label event) :
    rule.deliver (front ++ item :: back) event = front ++ rule.extend item event :: back := by
  induction front with
  | nil => rw [List.nil_append, deliver, if_pos found, List.nil_append]
  | cons other rest ih =>
      rw [List.cons_append, deliver, if_neg (others other List.mem_cons_self),
        ih fun next member => others next (List.mem_cons_of_mem _ member)]
      rfl

theorem deliver_of_present (rule : Gathering ε α κ) (build next : κ -> Option α) (keys : List κ) (event : ε)
    (distinct : keys.Nodup) (keyed : forall key item, build key = some item -> rule.key item = key)
    (present : rule.label event ∈ keys) (built : (build (rule.label event)).isSome)
    (extended : next (rule.label event) = (build (rule.label event)).map fun item => rule.extend item event)
    (unchanged : forall key, key ≠ rule.label event -> next key = build key) :
    rule.deliver (keys.filterMap build) event = keys.filterMap next := by
  induction keys with
  | nil => exact absurd present List.not_mem_nil
  | cons key rest ih =>
      rw [List.nodup_cons] at distinct
      by_cases same : key = rule.label event
      · subst same
        rcases Option.isSome_iff_exists.mp built with ⟨item, begun⟩
        have others : rest.filterMap build = rest.filterMap next := by
          apply List.filterMap_congr
          intro other member
          exact (unchanged other fun same => distinct.1 (same ▸ member)).symm
        rw [begun] at extended
        rw [List.filterMap_cons_some begun, List.filterMap_cons_some extended, deliver, if_pos (keyed _ item begun), others]
      · have inRest : rule.label event ∈ rest := by
          rcases List.mem_cons.mp present with first | later
          · exact absurd first.symm same
          · exact later
        have step := ih distinct.2 inRest
        cases begun : build key with
        | none => rw [List.filterMap_cons_none begun, List.filterMap_cons_none ((unchanged key same).trans begun), step]
        | some item =>
            rw [List.filterMap_cons_some begun, List.filterMap_cons_some ((unchanged key same).trans begun), deliver,
              if_neg, step]
            rw [keyed key item begun]
            exact same

theorem nodup_eraseDups {κ : Type*} [BEq κ] [LawfulBEq κ] (keys : List κ) : keys.eraseDups.Nodup := by
  induction keys using List.reverseRecOn with
  | nil => exact List.nodup_nil
  | append_singleton front last ih =>
      rw [List.eraseDups_append]
      by_cases member : last ∈ front
      · simpa [List.removeAll, member] using ih
      · have apart : forall key, key ∈ front -> ¬key = last := by
          rintro key inFront rfl
          exact member inFront
        simpa [List.removeAll, member, List.nodup_append, List.eraseDups_cons] using ⟨ih, apart⟩

theorem eraseDups_concat {κ : Type*} [BEq κ] [LawfulBEq κ] (keys : List κ) (key : κ) :
    (keys ++ [key]).eraseDups = if key ∈ keys then keys.eraseDups else keys.eraseDups ++ [key] := by
  rw [List.eraseDups_append]
  split
  · rename_i member
    simp [List.removeAll, member]
  · rename_i fresh
    simp [List.removeAll, fresh, List.eraseDups_cons]

theorem eraseDups_map {κ μ : Type*} [BEq κ] [LawfulBEq κ] [BEq μ] [LawfulBEq μ] (change : κ -> μ)
    (injective : Function.Injective change) (keys : List κ) : (keys.map change).eraseDups = keys.eraseDups.map change := by
  induction keys using List.reverseRecOn with
  | nil => rfl
  | append_singleton front last ih =>
      rw [List.map_append, List.map_cons, List.map_nil, eraseDups_concat, eraseDups_concat, ih]
      simp only [List.mem_map_of_injective injective]
      split
      · rfl
      · rw [List.map_append, List.map_cons, List.map_nil]

theorem foldl_deliver [BEq κ] [LawfulBEq κ] (rule : Gathering ε α κ) (events : List ε) :
    events.foldl rule.deliver [] =
      (events.map rule.label).eraseDups.filterMap fun key => rule.gathered (rule.having key events) := by
  induction events using List.reverseRecOn with
  | nil => rfl
  | append_singleton front event ih =>
      rw [List.foldl_append, List.foldl_cons, List.foldl_nil, ih, List.map_append, List.map_cons,
        List.map_nil, eraseDups_concat]
      have unchanged : forall key, key ≠ rule.label event ->
          rule.gathered (rule.having key (front ++ [event])) = rule.gathered (rule.having key front) := by
        intro key other
        rw [having_concat, if_neg (Ne.symm other)]
      split
      · rename_i present
        rcases List.mem_map.mp present with ⟨first, member, same⟩
        have some : (rule.gathered (rule.having (rule.label event) front)).isSome := by
          cases found : rule.having (rule.label event) front with
          | nil =>
              have inside : first ∈ rule.having (rule.label event) front :=
                List.mem_filter.mpr ⟨member, by simpa using same⟩
              rw [found] at inside
              exact absurd inside List.not_mem_nil
          | cons first rest => rfl
        refine rule.deliver_of_present _ _ _ event (nodup_eraseDups _)
          (fun key item gathers => rule.key_gathered_having key front item gathers) (List.mem_eraseDups.mpr present)
          some ?_ unchanged
        rw [having_concat, if_pos rfl, gathered_concat]
        rcases Option.isSome_iff_exists.mp some with ⟨item, gathers⟩
        rw [gathers]
        rfl
      · rename_i fresh
        have none : rule.having (rule.label event) front = [] := by
          rw [having, List.filter_eq_nil_iff]
          intro other member same
          exact fresh (List.mem_map.mpr ⟨other, member, by simpa using same⟩)
        rw [rule.deliver_of_absent, List.filterMap_append, List.filterMap_cons_some (b := rule.start event)]
        · congr 1
          apply List.filterMap_congr
          intro key member
          exact (unchanged key fun same => fresh (List.mem_eraseDups.mp (same ▸ member))).symm
        · rw [having_concat, if_pos rfl, none]
          rfl
        · intro item member same
          rcases List.mem_filterMap.mp member with ⟨key, inKeys, gathers⟩
          rw [rule.key_gathered_having key front item gathers] at same
          exact fresh (List.mem_eraseDups.mp (same ▸ inKeys))

end Gathering
end AIBuddy
