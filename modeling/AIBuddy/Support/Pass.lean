import Mathlib.Data.List.Basic

namespace AIBuddy

/-!
# Repair passes

A pass rewrites a value and reports the issues it met.  A sequence of passes
collects the reports of all of them.  A pass is honest when it changes nothing
that it does not report; a sequence of honest passes is silent on a value
exactly when each of them is silent on that very value.
-/

/-- A pass over a value that reports issues. -/
abbrev Pass (α ι : Type*) := α -> α × List ι

namespace Pass

variable {α ι : Type*}

/-- One pass after what came before, with its report added. -/
def andThen (state : α × List ι) (pass : Pass α ι) : α × List ι :=
  let next := pass state.1
  (next.1, state.2 ++ next.2)

/-- Run passes in sequence. -/
def run (passes : List (Pass α ι)) : Pass α ι :=
  fun input => passes.foldl andThen (input, [])

/-- A pass that reports whatever it changes. -/
def Honest (pass : Pass α ι) : Prop :=
  forall input, (pass input).2 = [] -> (pass input).1 = input

/-- The pass has nothing to report about a value. -/
def Quiet (pass : Pass α ι) (input : α) : Prop :=
  (pass input).2 = []

private theorem foldl_quiet_iff (passes : List (Pass α ι))
    (honest : forall pass, pass ∈ passes -> Honest pass) (state : α × List ι) :
    (passes.foldl andThen state).2 = [] ↔
      state.2 = [] ∧ forall pass, pass ∈ passes -> Quiet pass state.1 := by
  induction passes generalizing state with
  | nil => simp
  | cons pass rest ih =>
      rw [List.foldl_cons, ih fun later member => honest later (List.mem_cons_of_mem pass member)]
      simp only [andThen, List.append_eq_nil_iff, List.forall_mem_cons, Quiet]
      constructor
      · rintro ⟨⟨clean, quiet⟩, later⟩
        rw [honest pass List.mem_cons_self state.1 quiet] at later
        exact ⟨clean, quiet, later⟩
      · rintro ⟨clean, quiet, later⟩
        rw [honest pass List.mem_cons_self state.1 quiet]
        exact ⟨⟨clean, quiet⟩, later⟩

theorem run_quiet_iff {passes : List (Pass α ι)} (honest : forall pass, pass ∈ passes -> Honest pass)
    (input : α) : (run passes).Quiet input ↔ forall pass, pass ∈ passes -> Quiet pass input := by
  rw [Quiet, run, foldl_quiet_iff passes honest]
  simp

theorem run_honest {passes : List (Pass α ι)} (honest : forall pass, pass ∈ passes -> Honest pass) :
    (run passes).Honest := by
  intro input quiet
  have each := (run_quiet_iff honest input).mp quiet
  rw [run]
  generalize issues : ([] : List ι) = log
  clear issues quiet
  induction passes generalizing log with
  | nil => rfl
  | cons pass rest ih =>
      rw [List.foldl_cons, andThen, honest pass List.mem_cons_self input (each pass List.mem_cons_self)]
      exact ih (fun later member => honest later (List.mem_cons_of_mem pass member))
        (fun later member => each later (List.mem_cons_of_mem pass member)) _

theorem andThen_quiet_iff {first second : Pass α ι} (honest : first.Honest) (input : α) :
    (andThen (first input) second).2 = [] ↔ first.Quiet input ∧ second.Quiet input := by
  simp only [andThen, List.append_eq_nil_iff, Quiet]
  refine and_congr_right fun quiet => ?_
  rw [honest input quiet]

end Pass
end AIBuddy
