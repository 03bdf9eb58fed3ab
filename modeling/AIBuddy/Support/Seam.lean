import AIBuddy.Support.Coalesce

namespace AIBuddy

/-!
# Seams

A sequence of marked items is compacted and its gaps are dropped.  Two items of
one key can then become neighbours although they were kept apart when the
sequence was compacted: a gap stood between them, and nothing else.  Such a
place is a seam.
-/

/-- An item with a key, an item that stands alone, or an item that will be dropped. -/
inductive Mark (κ : Type*) where
  | keyed (key : κ)
  | solid
  | gap
deriving DecidableEq, Repr

namespace Mark

variable {κ : Type*}

/-- The key of a mark. -/
def key? : Mark κ -> Option κ
  | keyed key => some key
  | solid | gap => none

/-- Whether the item stays. -/
def stays : Mark κ -> Bool
  | gap => false
  | keyed _ | solid => true

/-- No item follows one of its own key across a gap alone.  The arguments are
the key of the last item that stays and whether a gap came since. -/
def SeamFree (last : Option κ) (gapped : Bool) : List (Mark κ) -> Prop
  | [] => True
  | keyed key :: rest => ¬ (gapped = true ∧ last = some key) ∧ SeamFree (some key) false rest
  | solid :: rest => SeamFree none false rest
  | gap :: rest => SeamFree last true rest

instance decidableSeamFree [DecidableEq κ] (last : Option κ) (gapped : Bool) :
    (marks : List (Mark κ)) -> Decidable (SeamFree last gapped marks)
  | [] => isTrue trivial
  | keyed key :: rest =>
      let _ := decidableSeamFree (some key) false rest
      inferInstanceAs (Decidable (_ ∧ _))
  | solid :: rest => decidableSeamFree none false rest
  | gap :: rest => decidableSeamFree last true rest

/-- Two keys may stand next to each other. -/
def Apart (first second : Option κ) : Prop :=
  first.isSome = true -> first ≠ second

/-- No two neighbours of a sequence of keys are the same key. -/
def AllApart (keys : List (Option κ)) : Prop :=
  keys.IsChain Apart

theorem apart_some_iff (last : Option κ) (key : κ) : Apart last (some key) ↔ ¬ last = some key := by
  cases last <;> simp [Apart]

@[simp] theorem apart_none (last : Option κ) : Apart last none := by
  cases last <;> simp [Apart]

@[simp] theorem none_apart (next : Option κ) : Apart none next := by
  simp [Apart]

@[simp] theorem allApart_singleton (key : Option κ) : AllApart [key] :=
  List.isChain_singleton key

@[simp] theorem allApart_cons_cons (first second : Option κ) (rest : List (Option κ)) :
    AllApart (first :: second :: rest) ↔ Apart first second ∧ AllApart (second :: rest) :=
  List.isChain_cons_cons

/-- The keys of the items that stay. -/
def keysKept (marks : List (Mark κ)) : List (Option κ) :=
  (marks.filter stays).map key?

@[simp] theorem keysKept_nil : keysKept ([] : List (Mark κ)) = [] := rfl

@[simp] theorem keysKept_keyed (key : κ) (rest : List (Mark κ)) :
    keysKept (keyed key :: rest) = some key :: keysKept rest := rfl

@[simp] theorem keysKept_solid (rest : List (Mark κ)) :
    keysKept (solid :: rest) = none :: keysKept rest := rfl

@[simp] theorem keysKept_gap (rest : List (Mark κ)) : keysKept (gap :: rest) = keysKept rest := rfl

variable [DecidableEq κ]

/-- Keyed marks join marks of the same key. -/
def joining (κ : Type*) : Joining (Mark κ) κ where
  key := key?
  combine first _ := first
  key_combine _ _ _ := rfl

theorem joins_iff_keyed (first second : Mark κ) :
    (joining κ).joins first second = true ↔ Exists fun key => first = keyed key ∧ second = keyed key := by
  rw [Joining.joins_iff]
  cases first <;> cases second <;> simp [joining, key?]

private theorem allApart_collectFrom (last : Option κ) (current : Mark κ) (rest : List (Mark κ)) :
    AllApart (last :: keysKept ((joining κ).collectFrom current rest)) ↔
      match current with
      | keyed key => Apart last (some key) ∧ SeamFree (some key) false rest
      | solid => SeamFree none false rest
      | gap => SeamFree last true rest := by
  induction rest generalizing last current with
  | nil => cases current <;> simp [Joining.collectFrom, SeamFree]
  | cons next rest ih =>
      by_cases joined : (joining κ).joins current next = true
      · rcases (joins_iff_keyed current next).mp joined with ⟨key, rfl, rfl⟩
        rw [Joining.collectFrom, if_pos joined]
        exact (ih last (keyed key)).trans (by simp [SeamFree])
      · rw [Joining.collectFrom, if_neg joined]
        cases current with
        | keyed key =>
            rw [keysKept_keyed, allApart_cons_cons, ih (some key) next]
            cases next with
            | keyed other =>
                have different : ¬ key = other := fun same =>
                  joined ((joins_iff_keyed _ _).mpr ⟨key, rfl, by rw [same]⟩)
                simp [SeamFree, apart_some_iff, different]
            | solid => simp [SeamFree]
            | gap => simp [SeamFree]
        | solid =>
            rw [keysKept_solid, allApart_cons_cons, ih none next]
            cases next <;> simp [SeamFree]
        | gap =>
            rw [keysKept_gap, ih last next]
            cases next <;> simp [SeamFree, apart_some_iff]

/-- Compacting and then dropping the gaps leaves no equal neighbours exactly
when there is no seam. -/
theorem allApart_iff (marks : List (Mark κ)) :
    AllApart (keysKept ((joining κ).collect marks)) ↔ SeamFree none false marks := by
  have leading : AllApart (keysKept ((joining κ).collect marks)) ↔
      AllApart (none :: keysKept ((joining κ).collect marks)) := by
    cases keysKept ((joining κ).collect marks) with
    | nil => simp [AllApart]
    | cons first rest => simp
  rw [leading]
  cases marks with
  | nil => simp [Joining.collect, SeamFree]
  | cons first rest =>
      rw [Joining.collect, allApart_collectFrom]
      cases first <;> simp [SeamFree]

end Mark
end AIBuddy
