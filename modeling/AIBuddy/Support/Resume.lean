import Mathlib.Logic.Function.Iterate
import Mathlib.Data.List.Basic

namespace AIBuddy
namespace Resume

/-!
# Resuming a scan of a growing text

A scan reads a text step by step until it reaches the end.  The text then grows, and
the scan may resume at an earlier stage instead of starting again.  This gives the same
result whenever a scan of the longer text from the start would pass through that stage,
which is the case if the steps up to it do not depend on what comes behind the text.
-/

variable {Symbol Stage : Type}

/-- A scan moves on as long as it is within the text, and rests at its end. -/
structure Scan (Symbol Stage : Type) where
  start : Stage
  place : Stage -> Nat
  step : List Symbol -> Stage -> Stage
  rests : forall {text stage}, text.length ≤ place stage -> step text stage = stage
  moves : forall {text stage}, place stage < text.length -> place stage < place (step text stage)

namespace Scan

variable (scan : Scan Symbol Stage)

/-- The stage at the end of the text. -/
def final (text : List Symbol) (stage : Stage) : Stage :=
  (scan.step text)^[text.length] stage

/-- A scan of the text, and of every longer one, passes through the stage. -/
def Sound (text : List Symbol) (stage : Stage) : Prop :=
  forall more, Exists fun count => (scan.step (text ++ more))^[count] scan.start = stage

variable {scan} {text : List Symbol} {stage : Stage}

/-! ## Places -/

theorem place_le_iterate (count : Nat) : scan.place stage ≤ scan.place ((scan.step text)^[count] stage) := by
  induction count generalizing stage with
  | zero => exact Nat.le_refl _
  | succ count ih =>
      rw [Function.iterate_succ_apply]
      refine Nat.le_trans ?_ ih
      by_cases inside : scan.place stage < text.length
      · exact Nat.le_of_lt (scan.moves inside)
      · exact Nat.le_of_eq (congrArg scan.place (scan.rests (Nat.le_of_not_lt inside))).symm

theorem place_lt_iterate {first second : Nat} (before : first < second)
    (inside : scan.place ((scan.step text)^[second] stage) < text.length) :
    scan.place ((scan.step text)^[first] stage) < scan.place ((scan.step text)^[second] stage) := by
  rcases Nat.exists_eq_add_of_lt before with ⟨between, rfl⟩
  have order : first + between + 1 = between + (first + 1) := by omega
  rw [order, Function.iterate_add_apply] at inside ⊢
  have later := @place_le_iterate _ _ scan text ((scan.step text)^[first + 1] stage) between
  rw [Function.iterate_succ_apply'] at inside later ⊢
  have firstInside : scan.place ((scan.step text)^[first] stage) < text.length := by
    by_contra outside
    rw [scan.rests (Nat.le_of_not_lt outside)] at later inside
    omega
  exact Nat.lt_of_lt_of_le (scan.moves firstInside) later

/-- As many steps as there are symbols reach the end. -/
theorem length_le_iterate (count : Nat) :
    min text.length (scan.place stage + count) ≤ scan.place ((scan.step text)^[count] stage) := by
  induction count generalizing stage with
  | zero => exact Nat.min_le_right _ _
  | succ count ih =>
      rw [Function.iterate_succ_apply]
      have reached := @ih (scan.step text stage)
      by_cases inside : scan.place stage < text.length
      · have moved := scan.moves inside
        omega
      · rw [scan.rests (Nat.le_of_not_lt inside)] at reached ⊢
        omega

theorem iterate_of_rests (ended : text.length ≤ scan.place stage) (count : Nat) :
    (scan.step text)^[count] stage = stage :=
  Function.iterate_fixed (scan.rests ended) count

theorem final_ended : text.length ≤ scan.place (scan.final text stage) := by
  have reached := @length_le_iterate _ _ scan text stage text.length
  rw [final]
  omega

/-! ## Resuming -/

theorem final_of_passes {count : Nat} {first : Stage} (passes : (scan.step text)^[count] first = stage) :
    scan.final text stage = scan.final text first := by
  have ended := iterate_of_rests (@final_ended _ _ scan text first) count
  rw [final, ← Function.iterate_add_apply, Nat.add_comm, Function.iterate_add_apply, passes] at ended
  exact ended

theorem sound_start (text : List Symbol) : scan.Sound text scan.start :=
  fun _ => ⟨0, rfl⟩

/-- A sound stage stays sound when the text grows. -/
theorem Sound.append (sound : scan.Sound text stage) (more : List Symbol) : scan.Sound (text ++ more) stage := by
  intro further
  rw [List.append_assoc]
  exact sound (more ++ further)

theorem Sound.final_eq (sound : scan.Sound text stage) (more : List Symbol) :
    scan.final (text ++ more) stage = scan.final (text ++ more) scan.start := by
  rcases sound more with ⟨count, passes⟩
  exact final_of_passes passes

theorem Sound.iterate (sound : scan.Sound text stage) {count : Nat}
    (inside : scan.place ((scan.step text)^[count] stage) < text.length)
    (settled : forall earlier, scan.place earlier < scan.place ((scan.step text)^[count] stage) ->
      forall more, scan.step (text ++ more) earlier = scan.step text earlier) :
    scan.Sound text ((scan.step text)^[count] stage) := by
  intro more
  rcases sound more with ⟨front, passes⟩
  have same : forall number, number ≤ count ->
      (scan.step (text ++ more))^[number] stage = (scan.step text)^[number] stage := by
    intro number
    induction number with
    | zero => exact fun _ => rfl
    | succ number ih =>
        intro within
        rw [Function.iterate_succ_apply', Function.iterate_succ_apply', ih (Nat.le_of_lt within)]
        exact settled _ (place_lt_iterate within inside) more
  refine ⟨count + front, ?_⟩
  rw [Function.iterate_add_apply, passes, same count (Nat.le_refl _)]

theorem eq_start_of_place {count : Nat} (origin : scan.place scan.start = 0)
    (passes : (scan.step text)^[count] scan.start = stage) (atBeginning : scan.place stage = 0) :
    stage = scan.start := by
  by_cases empty : text.length = 0
  · rw [← passes]
    exact iterate_of_rests (by omega) count
  · have reached := @length_le_iterate _ _ scan text scan.start count
    rw [passes, atBeginning, origin] at reached
    have none : count = 0 := by omega
    rw [← passes, none]
    rfl

end Scan
end Resume
end AIBuddy
