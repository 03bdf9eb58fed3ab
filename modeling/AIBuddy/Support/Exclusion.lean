import Mathlib.Tactic.TypeStar

namespace AIBuddy

/-!
# Holders under a flag

Every key has a flag, and holders may hold keys.  A holder that takes a free key and sets its
flag, and that resets the flag when it lets the key go, keeps the flags exact and is alone.
-/

/-- Every key has at most one holder, and its flag is set exactly while it has one. -/
structure Exclusion {κ ι : Type*} (flag : κ -> Prop) (holds : ι -> κ -> Prop) : Prop where
  single : forall key first second, holds first key -> holds second key -> first = second
  flagged : forall key, flag key ↔ Exists fun holder => holds holder key

namespace Exclusion

variable {κ ι : Type*} {flag nextFlag : κ -> Prop} {holds nextHolds : ι -> κ -> Prop}

theorem congr (exclusion : Exclusion flag holds) (flags : forall key, nextFlag key ↔ flag key)
    (holders : forall holder key, nextHolds holder key ↔ holds holder key) : Exclusion nextFlag nextHolds where
  single key first second one two :=
    exclusion.single key first second ((holders first key).mp one) ((holders second key).mp two)
  flagged key := by
    rw [flags, exclusion.flagged]
    simp only [holders]

theorem free (exclusion : Exclusion flag holds) {key : κ} (unset : ¬flag key) (holder : ι) : ¬holds holder key :=
  fun held => unset ((exclusion.flagged key).mpr ⟨holder, held⟩)

theorem enter (exclusion : Exclusion flag holds) {key : κ} {holder : ι} (free : forall other, ¬holds other key)
    (flags : forall other, nextFlag other ↔ other = key ∨ flag other)
    (holders : forall other name, nextHolds other name ↔ (other = holder ∧ name = key) ∨ holds other name) :
    Exclusion nextFlag nextHolds where
  single name first second one two := by
    rw [holders] at one two
    rcases one with ⟨rfl, rfl⟩ | one
    · rcases two with ⟨rfl, -⟩ | two
      · rfl
      · exact absurd two (free second)
    · rcases two with ⟨rfl, rfl⟩ | two
      · exact absurd one (free first)
      · exact exclusion.single name first second one two
  flagged name := by
    rw [flags, exclusion.flagged]
    constructor
    · rintro (rfl | ⟨other, held⟩)
      · exact ⟨holder, (holders ..).mpr (Or.inl ⟨rfl, rfl⟩)⟩
      · exact ⟨other, (holders ..).mpr (Or.inr held)⟩
    · rintro ⟨other, held⟩
      rcases (holders ..).mp held with ⟨-, same⟩ | held
      · exact Or.inl same
      · exact Or.inr ⟨other, held⟩

theorem leave (exclusion : Exclusion flag holds) {key : κ} {holder : ι} (held : holds holder key)
    (flags : forall other, nextFlag other ↔ other ≠ key ∧ flag other)
    (holders : forall other name, nextHolds other name ↔ other ≠ holder ∧ holds other name)
    (one : forall name, holds holder name -> name = key) : Exclusion nextFlag nextHolds where
  single name first second left right :=
    exclusion.single name first second ((holders ..).mp left).2 ((holders ..).mp right).2
  flagged name := by
    rw [flags, exclusion.flagged]
    constructor
    · rintro ⟨apart, other, holding⟩
      refine ⟨other, (holders ..).mpr ⟨fun same => ?_, holding⟩⟩
      exact apart (one name (same ▸ holding))
    · rintro ⟨other, next⟩
      rcases (holders ..).mp next with ⟨apart, holding⟩
      refine ⟨fun same => ?_, other, holding⟩
      subst same
      exact apart (exclusion.single name other holder holding held)

end Exclusion
end AIBuddy
