import Mathlib.Tactic.TypeStar

namespace AIBuddy
namespace Runs

/-!
# Runs of a partial transition function

A run follows a list of labels from a state, as long as every transition
succeeds.  A property that the start has and that every transition preserves,
under a condition on the state before it, holds at the end of every run that
meets the condition all along.
-/

/-! ## Inverting computations that may fail -/

section Inversion

variable {α β ε : Type}

theorem bind_eq_ok_iff (computation : Except ε α) (next : α -> Except ε β) (result : β) :
    (computation >>= next) = .ok result ↔ Exists fun value => computation = .ok value ∧ next value = .ok result := by
  cases computation <;> simp [bind, Except.bind]

theorem map_eq_ok_iff (computation : Except ε α) (change : α -> β) (result : β) :
    computation.map change = .ok result ↔ Exists fun value => computation = .ok value ∧ change value = result := by
  cases computation <;> simp [Except.map]

theorem pure_eq_ok_iff (value result : α) : (pure value : Except ε α) = .ok result ↔ value = result := by
  simp [pure, Except.pure]

end Inversion

/-! ## Postconditions -/

section Postconditions

variable {α β ε : Type}

/-- Whatever a computation returns satisfies the postcondition. -/
def Ensures (computation : Except ε α) (post : α -> Prop) : Prop :=
  forall value, computation = .ok value -> post value

namespace Ensures

theorem ok {value : α} {post : α -> Prop} (holds : post value) :
    Ensures (.ok value : Except ε α) post := by
  intro result same
  cases same
  exact holds

theorem error (failure : ε) (post : α -> Prop) : Ensures (.error failure) post := by
  intro result same
  contradiction

/-- A sequence satisfies what its second part ensures on every result of the first. -/
theorem bind {computation : Except ε α} {next : α -> Except ε β} {post : β -> Prop}
    (each : forall value, computation = .ok value -> Ensures (next value) post) :
    Ensures (computation >>= next) post := by
  intro result returned
  rcases (bind_eq_ok_iff computation next result).mp returned with ⟨value, first, second⟩
  exact each value first result second

theorem map {computation : Except ε α} {change : α -> β} {post : β -> Prop}
    (each : Ensures computation fun value => post (change value)) : Ensures (computation.map change) post := by
  intro result returned
  rcases (map_eq_ok_iff computation change result).mp returned with ⟨value, first, rfl⟩
  exact each value first

end Ensures

end Postconditions

/-! ## Runs -/

variable {σ ι ε : Type*}

/-- Follow the labels from a state. -/
def run (advance : ι -> σ -> Except ε σ) : List ι -> σ -> Except ε σ
  | [], state => .ok state
  | label :: rest, state =>
      match advance label state with
      | .ok next => run advance rest next
      | .error error => .error error

/-- Whether a condition holds before every transition of a run. -/
def Along (advance : ι -> σ -> Except ε σ) (condition : σ -> ι -> Prop) : List ι -> σ -> Prop
  | [], _ => True
  | label :: rest, state =>
      condition state label ∧ forall next, advance label state = .ok next -> Along advance condition rest next

variable {advance : ι -> σ -> Except ε σ}

/-- A condition that can be decided before every transition can be decided along
a run. -/
instance decidableAlong (condition : σ -> ι -> Prop) [forall state label, Decidable (condition state label)]
    (labels : List ι) (state : σ) : Decidable (Along advance condition labels state) :=
  match labels with
  | [] => .isTrue trivial
  | label :: rest =>
      match outcome : advance label state with
      | .error _ => decidable_of_iff (condition state label) (by simp [Along, outcome])
      | .ok next =>
          have := decidableAlong condition rest next
          decidable_of_iff (condition state label ∧ Along advance condition rest next) (by simp [Along, outcome])

@[simp] theorem run_nil (state : σ) : run advance [] state = .ok state := rfl

theorem run_cons_eq_ok_iff (label : ι) (rest : List ι) (state last : σ) :
    run advance (label :: rest) state = .ok last ↔
      Exists fun next => advance label state = .ok next ∧ run advance rest next = .ok last := by
  cases outcome : advance label state <;> simp [run, outcome]

theorem run_append_eq_ok_iff (front back : List ι) (state last : σ) :
    run advance (front ++ back) state = .ok last ↔
      Exists fun middle => run advance front state = .ok middle ∧ run advance back middle = .ok last := by
  induction front generalizing state with
  | nil => simp
  | cons label rest ih =>
      simp only [List.cons_append, run_cons_eq_ok_iff, ih]
      constructor
      · rintro ⟨next, moved, middle, front, back⟩
        exact ⟨middle, ⟨next, moved, front⟩, back⟩
      · rintro ⟨middle, ⟨next, moved, front⟩, back⟩
        exact ⟨next, moved, middle, front, back⟩

theorem Along.of_append {condition : σ -> ι -> Prop} {front back : List ι} {state middle : σ}
    (along : Along advance condition (front ++ back) state) (reached : run advance front state = .ok middle) :
    Along advance condition back middle := by
  induction front generalizing state with
  | nil =>
      cases reached
      exact along
  | cons label rest ih =>
      rcases (run_cons_eq_ok_iff label rest state middle).mp reached with ⟨next, moved, rest⟩
      exact ih (along.2 next moved) rest

theorem Along.left {condition : σ -> ι -> Prop} {front back : List ι} {state : σ}
    (along : Along advance condition (front ++ back) state) : Along advance condition front state := by
  induction front generalizing state with
  | nil => trivial
  | cons label rest ih =>
      exact ⟨along.1, fun next moved => ih (along.2 next moved)⟩

theorem Along.and {first second : σ -> ι -> Prop} {labels : List ι} {state : σ} (one : Along advance first labels state)
    (two : Along advance second labels state) :
    Along advance (fun state label => first state label ∧ second state label) labels state := by
  induction labels generalizing state with
  | nil => trivial
  | cons label rest ih =>
      exact ⟨⟨one.1, two.1⟩, fun next moved => ih (one.2 next moved) (two.2 next moved)⟩

theorem Along.of_forall {holds : ι -> Prop} {labels : List ι} (each : forall label, label ∈ labels -> holds label)
    (state : σ) : Along advance (fun _ label => holds label) labels state := by
  induction labels generalizing state with
  | nil => trivial
  | cons label rest ih =>
      exact ⟨each label List.mem_cons_self, fun next _ =>
        ih (fun other member => each other (List.mem_cons_of_mem _ member)) next⟩

theorem run_invariant {condition : σ -> ι -> Prop} {invariant : σ -> Prop}
    (preserved : forall state label next, condition state label -> invariant state ->
      advance label state = .ok next -> invariant next)
    {labels : List ι} {state last : σ} (along : Along advance condition labels state)
    (begun : invariant state) (reached : run advance labels state = .ok last) : invariant last := by
  induction labels generalizing state with
  | nil =>
      cases reached
      exact begun
  | cons label rest ih =>
      rcases (run_cons_eq_ok_iff label rest state last).mp reached with ⟨next, moved, onwards⟩
      exact ih (along.2 next moved)
        (preserved state label next along.1 begun moved) onwards

/-- What the start has and every transition preserves holds at the end. -/
theorem run_preserved {invariant : σ -> Prop}
    (preserved : forall state label next, invariant state -> advance label state = .ok next -> invariant next)
    {labels : List ι} {state last : σ} (begun : invariant state)
    (reached : run advance labels state = .ok last) : invariant last := by
  induction labels generalizing state with
  | nil =>
      cases reached
      exact begun
  | cons label rest ih =>
      rcases (run_cons_eq_ok_iff label rest state last).mp reached with ⟨next, moved, onwards⟩
      exact ih (preserved state label next begun moved) onwards

theorem forall_reached_iff_along {condition : σ -> ι -> Prop} {invariant : σ -> Prop} (next : ι -> σ -> σ)
    (moves : forall state label, advance label state = .ok (next label state))
    (exactly : forall state label, invariant state -> (invariant (next label state) ↔ condition state label))
    {labels : List ι} {state : σ} (begun : invariant state) :
    (forall front back last, front ++ back = labels -> run advance front state = .ok last -> invariant last) ↔
      Along advance condition labels state := by
  induction labels generalizing state with
  | nil =>
      refine iff_of_true ?_ trivial
      intro front back last whole reached
      rw [List.append_eq_nil_iff] at whole
      rw [whole.1, run_nil] at reached
      cases reached
      exact begun
  | cons label rest ih =>
      constructor
      · intro all
        have first := all [label] rest (next label state) rfl (by rw [run, moves]; rfl)
        refine ⟨(exactly state label begun).mp first, ?_⟩
        intro other moved
        rw [moves, Except.ok.injEq] at moved
        rw [← moved]
        refine (ih first).mp ?_
        intro front back last whole reached
        exact all (label :: front) back last (by rw [List.cons_append, whole])
          ((run_cons_eq_ok_iff ..).mpr ⟨_, moves state label, reached⟩)
      · rintro ⟨first, others⟩ front back last whole reached
        cases front with
        | nil =>
            cases reached
            exact begun
        | cons other front =>
            rw [List.cons_append, List.cons.injEq] at whole
            rw [whole.1, run_cons_eq_ok_iff] at reached
            rcases reached with ⟨middle, moved, onwards⟩
            rw [moves, Except.ok.injEq] at moved
            rw [← moved] at onwards
            have kept := (exactly state label begun).mpr first
            exact (ih kept).mpr (others _ (moves state label)) front back last whole.2 onwards

end Runs
end AIBuddy
