import Mathlib.Data.List.Chain

namespace AIBuddy

/-!
# Coalescing adjacent elements

A sequence is compacted by walking it once and folding each element into the
last one kept whenever the two join.  Whether two elements join depends only on
a key of each, and folding one element into another keeps the key of the
latter.  The result is then one element for each maximal run of joining
neighbours, no two neighbours of it join, and compacting it again changes
nothing.
-/

/-- Which neighbours join, and how one is folded into the other.  An element
without a key joins nothing. -/
structure Joining (α : Type*) (κ : Type*) where
  key : α -> Option κ
  combine : α -> α -> α
  key_combine : forall first second : α,
    key first = key second -> key (combine first second) = key first

namespace Joining

variable {α κ : Type*} [DecidableEq κ]

/-- Two elements join when they carry the same key. -/
def joins (rule : Joining α κ) (first second : α) : Bool :=
  (rule.key first).isSome && rule.key first == rule.key second

/-- Fold one element into the compacted sequence so far. -/
def push (rule : Joining α κ) (done : List α) (next : α) : List α :=
  match done.getLast? with
  | some last => if rule.joins last next then done.dropLast ++ [rule.combine last next] else done ++ [next]
  | none => [next]

/-- Compact a sequence whose last kept element is given. -/
def collectFrom (rule : Joining α κ) (current : α) : List α -> List α
  | [] => [current]
  | next :: rest =>
      if rule.joins current next then rule.collectFrom (rule.combine current next) rest
      else current :: rule.collectFrom next rest

/-- Compact a sequence. -/
def collect (rule : Joining α κ) : List α -> List α
  | [] => []
  | first :: rest => rule.collectFrom first rest

/-! ## The fold that computes it -/

@[simp] theorem push_nil (rule : Joining α κ) (next : α) : rule.push [] next = [next] := rfl

@[simp] theorem push_concat (rule : Joining α κ) (done : List α) (last next : α) :
    rule.push (done ++ [last]) next =
      if rule.joins last next then done ++ [rule.combine last next] else done ++ [last, next] := by
  simp [push]

theorem foldl_push_concat (rule : Joining α κ) (done : List α) (last : α) (items : List α) :
    items.foldl rule.push (done ++ [last]) = done ++ rule.collectFrom last items := by
  induction items generalizing done last with
  | nil => rfl
  | cons next rest ih =>
      rw [List.foldl_cons, push_concat, collectFrom]
      split
      · exact ih done (rule.combine last next)
      · have split_done : done ++ [last, next] = (done ++ [last]) ++ [next] := by simp
        rw [split_done, ih (done ++ [last]) next, List.append_assoc]
        rfl

/-- Folding from an empty sequence computes the compaction. -/
theorem foldl_push (rule : Joining α κ) (items : List α) :
    items.foldl rule.push [] = rule.collect items := by
  cases items with
  | nil => rfl
  | cons first rest => exact foldl_push_concat rule [] first rest

/-! ## Joining and keys -/

theorem joins_iff (rule : Joining α κ) (first second : α) :
    rule.joins first second = true ↔ Exists fun key => rule.key first = some key ∧ rule.key second = some key := by
  cases firstKey : rule.key first with
  | none => simp [joins, firstKey]
  | some key =>
      simp only [joins, firstKey, Option.isSome_some, Bool.true_and, beq_iff_eq, Option.some.injEq,
        exists_eq_left']
      exact eq_comm

theorem key_combine_of_joins (rule : Joining α κ) {first second : α}
    (joined : rule.joins first second = true) :
    rule.key (rule.combine first second) = rule.key first := by
  rcases (joins_iff rule first second).mp joined with ⟨key, firstKey, secondKey⟩
  exact rule.key_combine first second (firstKey.trans secondKey.symm)

theorem joins_congr (rule : Joining α κ) {first first' second second' : α}
    (sameFirst : rule.key first = rule.key first') (sameSecond : rule.key second = rule.key second') :
    rule.joins first second = rule.joins first' second' := by
  simp [joins, sameFirst, sameSecond]

/-! ## Compacted sequences -/

/-- No two neighbours of the sequence join. -/
def Compact (rule : Joining α κ) (items : List α) : Prop :=
  items.IsChain fun first second => rule.joins first second = false

theorem Compact.collect_eq {rule : Joining α κ} {items : List α} (compact : rule.Compact items) :
    rule.collect items = items := by
  cases items with
  | nil => rfl
  | cons first rest =>
      rw [collect]
      induction rest generalizing first with
      | nil => rfl
      | cons next rest ih =>
          have step := List.isChain_cons_cons.mp compact
          rw [collectFrom, step.1]
          simp [ih next step.2]

theorem collectFrom_length (rule : Joining α κ) (current : α) (items : List α) :
    (rule.collectFrom current items).length ≤ items.length + 1 := by
  induction items generalizing current with
  | nil => simp [collectFrom]
  | cons next rest ih =>
      rw [collectFrom]
      split
      · have shorter := ih (rule.combine current next)
        simp only [List.length_cons]
        omega
      · have shorter := ih next
        simp only [List.length_cons]
        omega

private theorem compact_of_length_collectFrom (rule : Joining α κ) (current : α) (items : List α)
    (full : (rule.collectFrom current items).length = items.length + 1) :
    rule.Compact (current :: items) := by
  induction items generalizing current with
  | nil => exact List.isChain_singleton _
  | cons next rest ih =>
      rw [collectFrom] at full
      split at full
      · have shorter := collectFrom_length rule (rule.combine current next) rest
        simp only [List.length_cons] at full
        omega
      · rename_i separate
        refine List.isChain_cons_cons.mpr ⟨by simpa using separate, ih next ?_⟩
        simpa using full

theorem collect_length_eq_iff (rule : Joining α κ) (items : List α) :
    (rule.collect items).length = items.length ↔ rule.Compact items := by
  constructor
  · intro full
    cases items with
    | nil => exact List.isChain_nil
    | cons first rest => exact compact_of_length_collectFrom rule first rest full
  · intro compact
    rw [compact.collect_eq]

private theorem collectFrom_compact (rule : Joining α κ) (current : α) (items : List α) :
    rule.Compact (rule.collectFrom current items) ∧
      forall first, first ∈ (rule.collectFrom current items).head? -> rule.key first = rule.key current := by
  induction items generalizing current with
  | nil => exact ⟨List.isChain_singleton _, by simp [collectFrom]⟩
  | cons next rest ih =>
      rw [collectFrom]
      split
      · rename_i joined
        rcases ih (rule.combine current next) with ⟨compact, headKey⟩
        refine ⟨compact, fun first member => ?_⟩
        rw [headKey first member, key_combine_of_joins rule joined]
      · rename_i separate
        rcases ih next with ⟨compact, headKey⟩
        refine ⟨List.isChain_cons.mpr ⟨fun first member => ?_, compact⟩, by simp⟩
        rw [joins_congr rule rfl (headKey first member)]
        simpa using separate

theorem flatMap_collect {β : Type*} (rule : Joining α κ) (parts : α -> List β)
    (appends : forall first second, rule.joins first second = true ->
      parts (rule.combine first second) = parts first ++ parts second) (items : List α) :
    (rule.collect items).flatMap parts = items.flatMap parts := by
  cases items with
  | nil => rfl
  | cons first rest =>
      rw [collect]
      induction rest generalizing first with
      | nil => rfl
      | cons next rest ih =>
          rw [collectFrom]
          split
          · rename_i joined
            rw [ih]
            simp [appends first next joined]
          · rw [List.flatMap_cons, ih]
            simp

theorem forall_collect (rule : Joining α κ) {holds : α -> Prop}
    (preserved : forall first second, rule.joins first second = true ->
      holds first -> holds second -> holds (rule.combine first second))
    {items : List α} (all : forall item, item ∈ items -> holds item) :
    forall item, item ∈ rule.collect items -> holds item := by
  cases items with
  | nil => simp [collect]
  | cons first rest =>
      rw [collect]
      induction rest generalizing first with
      | nil => simpa [collectFrom] using all
      | cons next rest ih =>
          rw [collectFrom]
          have firstHolds := all first List.mem_cons_self
          have nextHolds := all next (List.mem_cons_of_mem first List.mem_cons_self)
          have restHold : forall item, item ∈ rest -> holds item := fun item member =>
            all item (List.mem_cons_of_mem first (List.mem_cons_of_mem next member))
          split
          · rename_i joined
            exact ih _ (List.forall_mem_cons.mpr
              ⟨preserved first next joined firstHolds nextHolds, restHold⟩)
          · exact List.forall_mem_cons.mpr ⟨firstHolds,
              ih next (List.forall_mem_cons.mpr ⟨nextHolds, restHold⟩)⟩

theorem map_collect_sublist {β : Type*} (rule : Joining α κ) (view : α -> β)
    (unchanged : forall first second, view (rule.combine first second) = view first)
    (items : List α) : ((rule.collect items).map view).Sublist (items.map view) := by
  cases items with
  | nil => exact List.Sublist.refl _
  | cons first rest =>
      rw [collect]
      induction rest generalizing first with
      | nil => exact List.Sublist.refl _
      | cons next rest ih =>
          rw [collectFrom]
          split
          · have shorter := ih (rule.combine first next)
            rw [List.map_cons, unchanged] at shorter
            exact shorter.trans ((List.sublist_cons_self _ _).cons_cons (view first))
          · exact (ih next).cons_cons (view first)

/-- A test that combining takes as a disjunction passes on the compaction
exactly when it passes somewhere in the sequence. -/
theorem any_collect (rule : Joining α κ) (test : α -> Bool)
    (combined : forall first second, rule.joins first second = true ->
      test (rule.combine first second) = (test first || test second)) (items : List α) :
    (rule.collect items).any test = items.any test := by
  cases items with
  | nil => rfl
  | cons first rest =>
      rw [collect]
      induction rest generalizing first with
      | nil => rfl
      | cons next rest ih =>
          rw [collectFrom]
          split
          · rename_i joined
            rw [ih, List.any_cons, combined first next joined]
            simp [Bool.or_assoc]
          · rw [List.any_cons, ih next, ← List.any_cons]

theorem collectFrom_head (rule : Joining α κ) {holds : α -> Prop}
    (preserved : forall first second, holds first -> holds (rule.combine first second))
    (current : α) (items : List α) (start : holds current) :
    Exists fun first => Exists fun rest => rule.collectFrom current items = first :: rest ∧ holds first := by
  induction items generalizing current with
  | nil => exact ⟨current, [], rfl, start⟩
  | cons next rest ih =>
      rw [collectFrom]
      split
      · exact ih _ (preserved current next start)
      · exact ⟨current, _, rfl, start⟩

theorem collect_compact (rule : Joining α κ) (items : List α) : rule.Compact (rule.collect items) := by
  cases items with
  | nil => exact List.isChain_nil
  | cons first rest => exact (collectFrom_compact rule first rest).1

/-! ## Cutting a compaction -/

private theorem collectFrom_cut (rule : Joining α κ) (current : α) (items front back : List α)
    (filled : front ≠ []) (cut : rule.collectFrom current items = front ++ back) :
    Exists fun left => Exists fun right => items = left ++ right ∧
      rule.collectFrom current left = front ∧ rule.collect right = back := by
  induction items generalizing current front with
  | nil =>
      cases front with
      | nil => exact absurd rfl filled
      | cons first front =>
          rw [collectFrom, List.cons_append, List.cons.injEq, eq_comm (a := []), List.append_eq_nil_iff] at cut
          rcases cut with ⟨rfl, rfl, rfl⟩
          exact ⟨[], [], rfl, rfl, rfl⟩
  | cons next rest ih =>
      rw [collectFrom] at cut
      split at cut
      · rename_i joined
        rcases ih _ front filled cut with ⟨left, right, rfl, leftEq, rightEq⟩
        exact ⟨next :: left, right, rfl, by rw [collectFrom, if_pos joined, leftEq], rightEq⟩
      · rename_i separate
        cases front with
        | nil => exact absurd rfl filled
        | cons first front =>
            rw [List.cons_append, List.cons.injEq] at cut
            rcases cut with ⟨rfl, cut⟩
            cases front with
            | nil => exact ⟨[], next :: rest, rfl, rfl, cut⟩
            | cons second front =>
                rcases ih next (second :: front) (List.cons_ne_nil _ _) cut with
                    ⟨left, right, rfl, leftEq, rightEq⟩
                exact ⟨next :: left, right, rfl, by rw [collectFrom, if_neg separate, leftEq], rightEq⟩

theorem collect_cut (rule : Joining α κ) {items front back : List α}
    (cut : rule.collect items = front ++ back) :
    Exists fun left => Exists fun right => items = left ++ right ∧
      rule.collect left = front ∧ rule.collect right = back := by
  cases front with
  | nil => exact ⟨[], items, rfl, rfl, cut⟩
  | cons first front =>
      cases items with
      | nil => exact absurd cut (by simp [collect])
      | cons current items =>
          rcases collectFrom_cut rule current items _ back (List.cons_ne_nil first front) cut with
              ⟨left, right, rfl, leftEq, rightEq⟩
          exact ⟨current :: left, right, rfl, leftEq, rightEq⟩

private theorem collectFrom_append (rule : Joining α κ) (current : α) (left right : List α)
    (apart : forall next, next ∈ right.head? ->
      rule.joins ((current :: left).getLast (List.cons_ne_nil _ _)) next = false) :
    rule.collectFrom current (left ++ right) = rule.collectFrom current left ++ rule.collect right := by
  induction left generalizing current with
  | nil =>
      cases right with
      | nil => rfl
      | cons next rest =>
          have separate : rule.joins current next = false := by simpa using apart
          simp [collectFrom, collect, separate]
  | cons next left ih =>
      rw [List.cons_append, collectFrom, collectFrom]
      split
      · rename_i joined
        apply ih
        intro other member
        have separate := apart other member
        cases left with
        | nil =>
            have nextKey : rule.key (rule.combine current next) = rule.key next := by
              rcases (joins_iff rule current next).mp joined with ⟨key, firstKey, secondKey⟩
              rw [key_combine_of_joins rule joined, firstKey, secondKey]
            simp only [List.getLast_singleton]
            rw [joins_congr rule nextKey rfl]
            simpa using separate
        | cons third left => simpa using separate
      · rw [ih next]
        · rfl
        · intro other member
          simpa using apart other member

theorem collect_append (rule : Joining α κ) (left right : List α)
    (apart : forall last, last ∈ left.getLast? -> forall next, next ∈ right.head? ->
      rule.joins last next = false) :
    rule.collect (left ++ right) = rule.collect left ++ rule.collect right := by
  cases left with
  | nil => rfl
  | cons current left =>
      apply collectFrom_append
      intro next member
      exact apart _ (List.getLast?_eq_some_getLast (List.cons_ne_nil _ _)) next member

theorem key_of_mem_collect (rule : Joining α κ) (items : List α) :
    forall item, item ∈ rule.collect items -> Exists fun source => source ∈ items ∧ rule.key source = rule.key item := by
  refine rule.forall_collect ?_ fun item member => ⟨item, member, rfl⟩
  intro first second joined origin _
  rcases origin with ⟨source, member, same⟩
  exact ⟨source, member, by rw [same, key_combine_of_joins rule joined]⟩

private theorem collectFrom_keys (rule : Joining α κ) (current : α) (items : List α) :
    forall item, item ∈ current :: items ->
      Exists fun kept => kept ∈ rule.collectFrom current items ∧ rule.key kept = rule.key item := by
  induction items generalizing current with
  | nil => simp [collectFrom]
  | cons next rest ih =>
      rw [collectFrom]
      split
      · rename_i joined
        rcases (joins_iff rule current next).mp joined with ⟨key, firstKey, secondKey⟩
        have combinedKey := key_combine_of_joins rule joined
        rcases ih (rule.combine current next) _ List.mem_cons_self with ⟨kept, member, same⟩
        intro item inside
        rcases List.mem_cons.mp inside with rfl | inside
        · exact ⟨kept, member, same.trans combinedKey⟩
        · rcases List.mem_cons.mp inside with rfl | inside
          · exact ⟨kept, member, by rw [same, combinedKey, firstKey, secondKey]⟩
          · exact ih _ item (List.mem_cons_of_mem _ inside)
      · intro item inside
        rcases List.mem_cons.mp inside with rfl | inside
        · exact ⟨item, List.mem_cons_self, rfl⟩
        · rcases ih next item inside with ⟨kept, member, same⟩
          exact ⟨kept, List.mem_cons_of_mem current member, same⟩

theorem key_of_mem (rule : Joining α κ) {items : List α} {item : α} (member : item ∈ items) :
    Exists fun kept => kept ∈ rule.collect items ∧ rule.key kept = rule.key item := by
  cases items with
  | nil => exact absurd member List.not_mem_nil
  | cons first rest => exact collectFrom_keys rule first rest item member

theorem collect_length_le_one_iff (rule : Joining α κ) (total : forall item, (rule.key item).isSome = true)
    (items : List α) :
    (rule.collect items).length ≤ 1 ↔
      forall first, first ∈ items -> forall second, second ∈ items -> rule.key first = rule.key second := by
  constructor
  · intro short first firstMember second secondMember
    rcases rule.key_of_mem firstMember with ⟨kept, keptMember, keptKey⟩
    rcases rule.key_of_mem secondMember with ⟨other, otherMember, otherKey⟩
    have same : kept = other := by
      match shape : rule.collect items with
      | [] => exact absurd (shape ▸ keptMember) List.not_mem_nil
      | [only] =>
          rw [shape, List.mem_singleton] at keptMember otherMember
          exact keptMember.trans otherMember.symm
      | _ :: _ :: _ => simp [shape] at short
    rw [← keptKey, ← otherKey, same]
  · intro uniform
    match shape : rule.collect items with
    | [] => simp
    | [only] => simp
    | first :: second :: rest =>
        exfalso
        have compact := rule.collect_compact items
        rw [shape, Compact, List.isChain_cons_cons] at compact
        rcases rule.key_of_mem_collect items first (by simp [shape]) with ⟨source, sourceMember, sourceKey⟩
        rcases rule.key_of_mem_collect items second (by simp [shape]) with ⟨other, otherMember, otherKey⟩
        have sameKey : rule.key first = rule.key second := by
          rw [← sourceKey, ← otherKey, uniform source sourceMember other otherMember]
        have apart := compact.1
        have keyed := total second
        simp [joins, sameKey, keyed] at apart

private theorem collectFrom_ends (rule : Joining α κ) (current : α) (items : List α) :
    (rule.collectFrom current items).head?.map rule.key = some (rule.key current) ∧
      (rule.collectFrom current items).getLast?.map rule.key =
        (current :: items).getLast?.map rule.key := by
  induction items generalizing current with
  | nil => exact ⟨rfl, rfl⟩
  | cons next rest ih =>
      rw [collectFrom]
      split
      · rename_i joined
        rcases (joins_iff rule current next).mp joined with ⟨key, firstKey, secondKey⟩
        rcases ih (rule.combine current next) with ⟨headKey, lastKey⟩
        have combinedKey := key_combine_of_joins rule joined
        refine ⟨by rw [headKey, combinedKey], ?_⟩
        rw [lastKey]
        cases rest with
        | nil => simp [combinedKey, firstKey, secondKey]
        | cons third rest => simp [List.getLast?_cons_cons]
      · rcases ih next with ⟨_, lastKey⟩
        refine ⟨rfl, ?_⟩
        rw [List.getLast?_cons_cons, ← lastKey]
        cases found : rule.collectFrom next rest with
        | nil => simp [found, List.getLast?_cons] at lastKey
        | cons head tail => rw [List.getLast?_cons_cons]

theorem collect_ends (rule : Joining α κ) (items : List α) :
    (rule.collect items).head?.map rule.key = items.head?.map rule.key ∧
      (rule.collect items).getLast?.map rule.key = items.getLast?.map rule.key := by
  cases items with
  | nil => exact ⟨rfl, rfl⟩
  | cons first rest => exact collectFrom_ends rule first rest

/-! ## Parts that combining moves -/

section Moving

variable {β : Type*}

/-- Combining an element with one that it is followed by leaves the parts of the latter as they
are, for all that joins. -/
def Leaves (rule : Joining α κ) (parts : α -> List β) (moved : α -> α -> List β) (current : α) : List α -> Prop
  | [] => True
  | next :: rest =>
      if rule.joins current next then moved current next = parts next ∧ rule.Leaves parts moved current rest
      else rule.Leaves parts moved next rest

private theorem leaves_combine (rule : Joining α κ) (parts : α -> List β) (moved : α -> α -> List β)
    (constant : forall first second third, moved (rule.combine first second) third = moved first third)
    {first second : α} (joined : rule.joins first second = true) (items : List α) :
    rule.Leaves parts moved (rule.combine first second) items ↔ rule.Leaves parts moved first items := by
  induction items with
  | nil => exact Iff.rfl
  | cons next rest ih =>
      rw [Leaves, Leaves, joins_congr rule (key_combine_of_joins rule joined) rfl, constant, ih]

private theorem flatMap_collectFrom_begins (rule : Joining α κ) (parts : α -> List β) (moved : α -> α -> List β)
    (combined : forall first second, parts (rule.combine first second) = parts first ++ moved first second)
    (current : α) (items : List α) :
    Exists fun rest => (rule.collectFrom current items).flatMap parts = parts current ++ rest := by
  induction items generalizing current with
  | nil => exact ⟨[], by simp [collectFrom]⟩
  | cons next rest ih =>
      rw [collectFrom]
      split
      · rcases ih (rule.combine current next) with ⟨back, same⟩
        exact ⟨moved current next ++ back, by rw [same, combined, List.append_assoc]⟩
      · exact ⟨_, List.flatMap_cons⟩

private theorem flatMap_collectFrom_eq_iff (rule : Joining α κ) (parts : α -> List β) (moved : α -> α -> List β)
    (combined : forall first second, parts (rule.combine first second) = parts first ++ moved first second)
    (length : forall first second, (moved first second).length = (parts second).length)
    (constant : forall first second third, moved (rule.combine first second) third = moved first third)
    (current : α) (items : List α) :
    (rule.collectFrom current items).flatMap parts = (current :: items).flatMap parts ↔
      rule.Leaves parts moved current items := by
  induction items generalizing current with
  | nil => exact iff_of_true rfl trivial
  | cons next rest ih =>
      rw [collectFrom, Leaves]
      split
      · rename_i joined
        have step := ih (rule.combine current next)
        rw [leaves_combine rule parts moved constant joined] at step
        rw [← step]
        rcases flatMap_collectFrom_begins rule parts moved combined (rule.combine current next) rest with ⟨back, same⟩
        rw [same, List.flatMap_cons, List.flatMap_cons, List.flatMap_cons, List.append_right_inj, combined,
          List.append_assoc, List.append_right_inj]
        constructor
        · intro equal
          exact List.append_inj equal (length current next)
        · rintro ⟨left, right⟩
          rw [left, right]
      · rw [List.flatMap_cons, List.flatMap_cons, List.append_right_inj]
        exact ih next

theorem flatMap_collect_eq_iff (rule : Joining α κ) (parts : α -> List β) (moved : α -> α -> List β)
    (combined : forall first second, parts (rule.combine first second) = parts first ++ moved first second)
    (length : forall first second, (moved first second).length = (parts second).length)
    (constant : forall first second third, moved (rule.combine first second) third = moved first third)
    (first : α) (items : List α) :
    (rule.collect (first :: items)).flatMap parts = (first :: items).flatMap parts ↔
      rule.Leaves parts moved first items :=
  flatMap_collectFrom_eq_iff rule parts moved combined length constant first items

end Moving

/-! ## Rules that join more -/

section Refinement

variable {μ : Type*} [DecidableEq μ]

theorem collectFrom_length_le_of_refines (fine : Joining α κ) (coarse : Joining α μ)
    (alike : forall first second, fine.combine first second = coarse.combine first second)
    (refines : forall first second, fine.joins first second = true -> coarse.joins first second = true)
    (left right : α) (same : coarse.key left = coarse.key right) (items : List α) :
    (coarse.collectFrom left items).length ≤ (fine.collectFrom right items).length := by
  induction items generalizing left right with
  | nil => exact Nat.le_refl _
  | cons next rest ih =>
      have joinsAlike := joins_congr coarse same (rfl : coarse.key next = coarse.key next)
      rw [collectFrom, collectFrom]
      by_cases fineJoins : fine.joins right next = true
      · have rightJoins := refines right next fineJoins
        have leftJoins : coarse.joins left next = true := joinsAlike.trans rightJoins
        rw [if_pos leftJoins, if_pos fineJoins]
        apply ih
        rw [alike, key_combine_of_joins coarse leftJoins, key_combine_of_joins coarse rightJoins, same]
      · rw [if_neg fineJoins]
        split
        · rename_i leftJoins
          rcases (joins_iff coarse left next).mp leftJoins with ⟨key, leftKey, nextKey⟩
          refine Nat.le_trans (ih _ next ?_) (Nat.le_succ _)
          rw [key_combine_of_joins coarse leftJoins, leftKey, nextKey]
        · exact Nat.succ_le_succ (ih next next rfl)

private theorem collectFrom_eq_collectFrom_iff (fine : Joining α κ) (coarse : Joining α μ)
    (alike : forall first second, fine.combine first second = coarse.combine first second)
    (refines : forall first second, fine.joins first second = true -> coarse.joins first second = true)
    (current : α) (items : List α) :
    coarse.collectFrom current items = fine.collectFrom current items ↔
      (current :: items).IsChain fun first second => coarse.joins first second = true -> fine.joins first second = true := by
  induction items generalizing current with
  | nil => exact iff_of_true rfl (List.isChain_singleton _)
  | cons next rest ih =>
      rw [collectFrom, collectFrom, List.isChain_cons_cons]
      by_cases fineJoins : fine.joins current next = true
      · have coarseJoins := refines current next fineJoins
        rw [if_pos coarseJoins, if_pos fineJoins, alike, ih]
        have fineKey : fine.key (coarse.combine current next) = fine.key next := by
          rcases (joins_iff fine current next).mp fineJoins with ⟨key, currentKey, nextKey⟩
          rw [← alike, key_combine_of_joins fine fineJoins, currentKey, nextKey]
        have coarseKey : coarse.key (coarse.combine current next) = coarse.key next := by
          rcases (joins_iff coarse current next).mp coarseJoins with ⟨key, currentKey, nextKey⟩
          rw [key_combine_of_joins coarse coarseJoins, currentKey, nextKey]
        cases rest with
        | nil => exact iff_of_true (List.isChain_singleton _) ⟨fun _ => fineJoins, List.isChain_singleton _⟩
        | cons third rest =>
            rw [List.isChain_cons_cons, List.isChain_cons_cons, joins_congr fine fineKey rfl,
              joins_congr coarse coarseKey rfl]
            exact ⟨fun chain => ⟨fun _ => fineJoins, chain⟩, fun chain => chain.2⟩
      · rw [if_neg fineJoins]
        by_cases coarseJoins : coarse.joins current next = true
        · rw [if_pos coarseJoins]
          refine iff_of_false ?_ fun chain => fineJoins (chain.1 coarseJoins)
          intro same
          have shorter := collectFrom_length_le_of_refines fine coarse alike refines
            (coarse.combine current next) next (by
              rcases (joins_iff coarse current next).mp coarseJoins with ⟨key, currentKey, nextKey⟩
              rw [key_combine_of_joins coarse coarseJoins, currentKey, nextKey]) rest
          rw [same, List.length_cons] at shorter
          omega
        · rw [if_neg coarseJoins, List.cons.injEq, ih]
          exact ⟨fun both => ⟨fun joins => absurd joins coarseJoins, both.2⟩, fun chain => ⟨rfl, chain.2⟩⟩

theorem collect_eq_collect_iff (fine : Joining α κ) (coarse : Joining α μ)
    (alike : forall first second, fine.combine first second = coarse.combine first second)
    (refines : forall first second, fine.joins first second = true -> coarse.joins first second = true)
    (items : List α) :
    coarse.collect items = fine.collect items ↔
      items.IsChain fun first second => coarse.joins first second = true -> fine.joins first second = true := by
  cases items with
  | nil => exact iff_of_true rfl List.isChain_nil
  | cons first rest => exact collectFrom_eq_collectFrom_iff fine coarse alike refines first rest

end Refinement

end Joining
end AIBuddy
