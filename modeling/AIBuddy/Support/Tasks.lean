import Mathlib.Data.List.Count
import Mathlib.Data.List.Basic

namespace AIBuddy
namespace Tasks

/-!
# Lists of tasks

The tasks of a system stand in the order in which they began.  A step replaces one of them or
begins another one, and whatever is counted over all tasks changes by what that task counts.
-/

variable {α β : Type*}

theorem getElem?_concat_cases {tasks : List α} {begun task : α} {index : Nat}
    (found : (tasks ++ [begun])[index]? = some task) :
    tasks[index]? = some task ∨ index = tasks.length ∧ task = begun := by
  rw [List.getElem?_append] at found
  split at found
  · exact Or.inl found
  · rw [List.getElem?_singleton, Option.ite_none_right_eq_some, Option.some.injEq] at found
    exact Or.inr ⟨by omega, found.2.symm⟩

theorem getElem?_set_cases {tasks : List α} {next task : α} {place index : Nat}
    (found : (tasks.set place next)[index]? = some task) :
    index = place ∧ task = next ∨ index ≠ place ∧ tasks[index]? = some task := by
  by_cases same : place = index
  · rw [same, List.getElem?_set_self'] at found
    rcases Option.map_eq_some_iff.mp found with ⟨_, _, rfl⟩
    exact Or.inl ⟨same.symm, rfl⟩
  · rw [List.getElem?_set_ne same] at found
    exact Or.inr ⟨Ne.symm same, found⟩

theorem split_of_getElem? {tasks : List α} {task : α} {index : Nat} (found : tasks[index]? = some task) (next : α) :
    Exists fun before => Exists fun behind =>
      tasks = before ++ task :: behind ∧ tasks.set index next = before ++ next :: behind := by
  rcases List.getElem?_eq_some_iff.mp found with ⟨inside, same⟩
  refine ⟨tasks.take index, tasks.drop (index + 1), ?_, List.set_eq_take_append_cons_drop .. ▸ if_pos inside⟩
  rw [← same, List.getElem_cons_drop, List.take_append_drop]

theorem mem_set_of_mem {tasks : List α} {task other next : α} {index : Nat} (found : tasks[index]? = some task)
    (member : other ∈ tasks) (different : other ≠ task) : other ∈ tasks.set index next := by
  rcases split_of_getElem? found next with ⟨before, behind, split, replaced⟩
  rw [split, List.mem_append, List.mem_cons] at member
  rw [replaced, List.mem_append, List.mem_cons]
  exact member.imp_right fun rest => Or.inr (rest.resolve_left different)

theorem mem_set_self {tasks : List α} {task next : α} {index : Nat} (found : tasks[index]? = some task) :
    next ∈ tasks.set index next := by
  rcases split_of_getElem? found next with ⟨before, behind, _, replaced⟩
  rw [replaced]
  exact List.mem_append_right _ List.mem_cons_self

theorem mem_of_mem_set {tasks : List α} {task other next : α} {index : Nat} (found : tasks[index]? = some task)
    (member : other ∈ tasks.set index next) : other = next ∨ other ∈ tasks := by
  rcases split_of_getElem? found next with ⟨before, behind, split, replaced⟩
  rw [replaced, List.mem_append, List.mem_cons] at member
  rw [split, List.mem_append, List.mem_cons]
  tauto

theorem split_eraseIdx_of_getElem? {tasks : List α} {task : α} {index : Nat} (found : tasks[index]? = some task) :
    Exists fun before => Exists fun behind =>
      tasks = before ++ task :: behind ∧ tasks.eraseIdx index = before ++ behind := by
  rcases List.getElem?_eq_some_iff.mp found with ⟨inside, same⟩
  refine ⟨tasks.take index, tasks.drop (index + 1), ?_, List.eraseIdx_eq_take_drop_succ ..⟩
  rw [← same, List.getElem_cons_drop, List.take_append_drop]

theorem countP_set (holds : α -> Bool) {tasks : List α} {task : α} {index : Nat} (found : tasks[index]? = some task)
    (next : α) : (tasks.set index next).countP holds + [task].countP holds = tasks.countP holds + [next].countP holds := by
  rcases split_of_getElem? found next with ⟨before, behind, split, replaced⟩
  rw [replaced, split]
  simp only [List.countP_append, List.countP_cons, List.countP_nil]
  omega

theorem countP_eraseIdx (holds : α -> Bool) {tasks : List α} {task : α} {index : Nat}
    (found : tasks[index]? = some task) : (tasks.eraseIdx index).countP holds + [task].countP holds = tasks.countP holds := by
  rcases split_eraseIdx_of_getElem? found with ⟨before, behind, split, rest⟩
  rw [rest, split]
  simp only [List.countP_append, List.countP_cons, List.countP_nil]
  omega

section Count

variable [DecidableEq β]

theorem count_flatMap_set (holds : α -> List β) {tasks : List α} {task : α} {index : Nat}
    (found : tasks[index]? = some task) (next : α) (item : β) :
    ((tasks.set index next).flatMap holds).count item + (holds task).count item =
      (tasks.flatMap holds).count item + (holds next).count item := by
  rcases split_of_getElem? found next with ⟨before, behind, split, replaced⟩
  rw [replaced, split]
  simp only [List.flatMap_append, List.flatMap_cons, List.count_append]
  omega

theorem count_flatMap_concat (holds : α -> List β) (tasks : List α) (begun : α) (item : β) :
    ((tasks ++ [begun]).flatMap holds).count item = (tasks.flatMap holds).count item + (holds begun).count item := by
  rw [List.flatMap_append, List.flatMap_singleton, List.count_append]

theorem count_le_count_flatMap (holds : α -> List β) {tasks : List α} {task : α} (member : task ∈ tasks) (item : β) :
    (holds task).count item ≤ (tasks.flatMap holds).count item := by
  rcases List.append_of_mem member with ⟨before, behind, split⟩
  rw [split]
  simp only [List.flatMap_append, List.flatMap_cons, List.count_append]
  omega

theorem index_eq_of_holds (holds : α -> List β) {tasks : List α} {item : β}
    (once : (tasks.flatMap holds).count item ≤ 1) {first second : Nat} {task other : α}
    (foundFirst : tasks[first]? = some task) (foundSecond : tasks[second]? = some other)
    (held : item ∈ holds task) (alsoHeld : item ∈ holds other) : first = second := by
  have positive := List.count_pos_iff.mpr held
  have alsoPositive := List.count_pos_iff.mpr alsoHeld
  induction tasks generalizing first second with
  | nil => cases foundFirst
  | cons head rest ih =>
      rw [List.flatMap_cons, List.count_append] at once
      cases first with
      | zero =>
          cases second with
          | zero => rfl
          | succ second =>
              cases foundFirst
              have behind : rest[second]? = some other := foundSecond
              have inRest := count_le_count_flatMap holds (List.mem_of_getElem? behind) item
              omega
      | succ first =>
          cases second with
          | zero =>
              cases foundSecond
              have behind : rest[first]? = some task := foundFirst
              have inRest := count_le_count_flatMap holds (List.mem_of_getElem? behind) item
              omega
          | succ second =>
              exact congrArg Nat.succ (ih (by omega) foundFirst foundSecond)

end Count

end Tasks
end AIBuddy
