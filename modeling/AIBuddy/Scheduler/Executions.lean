import AIBuddy.Scheduler.Jobs
import AIBuddy.Support.Exclusion
import AIBuddy.Support.Runs

namespace AIBuddy
namespace Scheduler

/-!
# Executions of a job

An execution is in progress from the step that marks its job as running to the one that clears
the mark.  A user who runs a job looks at the mark first; a cron task does not, a removal does
not, and a kill clears the mark while the execution goes on.
-/

/-- The operation at an index executes a job. -/
def Executes (scheduler : Scheduler) (index : Nat) (id : String) : Prop :=
  (scheduler.operations[index]?).bind Operation.running? = some id

/-- A job is marked as running. -/
def IsRunning (jobs : Table String ScheduledJob) (id : String) : Prop :=
  (jobs.find? id).any ScheduledJob.currentlyRunning = true

/-- At most one execution of a job is in progress, the job is marked exactly while one is, and
the executions that a kill was for are cancelled. -/
structure Exclusive (scheduler : Scheduler) : Prop where
  marked : Exclusion (IsRunning scheduler.jobs) scheduler.Executes
  killed : forall index, index ∈ scheduler.targets -> index ∈ scheduler.cancelled

/-- No execution of a job is in progress. -/
def Idle (scheduler : Scheduler) (id : String) : Prop :=
  forall operation, operation ∈ scheduler.operations -> Operation.running? operation ≠ some id

instance (scheduler : Scheduler) (id : String) : Decidable (scheduler.Idle id) :=
  inferInstanceAs (Decidable (forall operation, operation ∈ scheduler.operations -> _))

/-- Whether an operation executes a recipe, with its token in the slot. -/
def isExecuting : Operation -> Bool
  | .execution _ _ stage => decide (stage = .executing)
  | _ => false

/-- A job comes to memory unmarked. -/
def Registers (scheduler : Scheduler) (fails : Bool) (job : ScheduledJob) : Prop :=
  fails = true ∨ (scheduler.Idle job.id ∧ job.currentlyRunning = false)

instance (scheduler : Scheduler) (fails : Bool) (job : ScheduledJob) : Decidable (scheduler.Registers fails job) :=
  inferInstanceAs (Decidable (_ ∨ _))

/-- What a step must find: a cron task starts its job, which is still there, only while no
execution of it is in progress; a job leaves memory, comes to memory or is cleared by a kill only
then; whoever runs a job persists it; and a kill takes the token of an execution after it was put
into the slot. -/
def Undisturbed (scheduler : Scheduler) : Step -> Prop
  | .call (.removeScheduledJob id) => scheduler.Idle id
  | .call _ => True
  | .proceed index fails =>
      match scheduler.operations[index]? with
      | some (.triggered id) => scheduler.Idle id ∧ (scheduler.jobs.find? id).isSome = true
      | some (.execution _ false .marked) => fails = false
      | some (.killing id) =>
          forall operation, operation ∈ scheduler.operations -> unfinished id operation = true ->
            isExecuting operation = true
      | some (.killed id) => scheduler.Idle id
      | some (.adding job) => scheduler.Registers fails job
      | some (.synchronizing (job :: _) _) => scheduler.Registers fails job
      | some (.synchronizing [] (id :: _)) => scheduler.Idle id
      | _ => True

instance (scheduler : Scheduler) (step : Step) : Decidable (scheduler.Undisturbed step) := by
  unfold Undisturbed
  split
  · infer_instance
  · infer_instance
  · split <;> infer_instance

/-! ## Marks and executions after a step -/

theorem isRunning_insert (jobs : Table String ScheduledJob) (id other : String) (job : ScheduledJob) :
    IsRunning (jobs.insert id job) other ↔
      if other = id then job.currentlyRunning = true else IsRunning jobs other := by
  rw [IsRunning, Table.find?_insert]
  split <;> rfl

theorem isRunning_erase (jobs : Table String ScheduledJob) (id other : String) :
    IsRunning (jobs.erase id) other ↔ other ≠ id ∧ IsRunning jobs other := by
  rw [IsRunning, Table.find?_erase]
  split
  · rename_i same
    exact iff_of_false (fun absent => Bool.false_ne_true absent) fun both => both.1 same
  · rename_i apart
    exact (and_iff_right apart).symm

theorem isRunning_of_find? {jobs : Table String ScheduledJob} {id : String} {job : ScheduledJob}
    (found : jobs.find? id = some job) : IsRunning jobs id ↔ job.currentlyRunning = true := by
  rw [IsRunning, found, Option.any_some]

theorem isRunning_mark (jobs : Table String ScheduledJob) (id other : String) (job : ScheduledJob) :
    IsRunning (jobs.insert id job.markRunning) other ↔ other = id ∨ IsRunning jobs other := by
  rw [isRunning_insert]
  split
  · rename_i same
    exact iff_of_true rfl (Or.inl same)
  · rename_i apart
    exact (or_iff_right apart).symm

/-- A job without a mark is put into memory, or the mark of one is cleared. -/
theorem isRunning_unmarked (jobs : Table String ScheduledJob) (id other : String) {job : ScheduledJob}
    (unmarked : job.currentlyRunning = false) :
    IsRunning (jobs.insert id job) other ↔ other ≠ id ∧ IsRunning jobs other := by
  rw [isRunning_insert, unmarked]
  split
  · rename_i same
    exact iff_of_false Bool.false_ne_true fun both => both.1 same
  · rename_i apart
    exact (and_iff_right apart).symm

theorem isRunning_clear (jobs : Table String ScheduledJob) (id other : String) :
    IsRunning (modify jobs id ScheduledJob.clearRunningState) other ↔ other ≠ id ∧ IsRunning jobs other := by
  rw [IsRunning, find?_modify]
  split
  · rename_i same
    refine iff_of_false (fun marked => ?_) fun both => both.1 same
    rw [Option.any_map] at marked
    cases found : jobs.find? id <;> rw [found] at marked <;> exact Bool.false_ne_true marked
  · rename_i apart
    exact (and_iff_right apart).symm

variable {scheduler next : Scheduler}

theorem executes_start (scheduler : Scheduler) (operation : Operation) (index : Nat) (id : String) :
    (scheduler.start operation).Executes index id ↔
      (index = scheduler.operations.length ∧ Operation.running? operation = some id) ∨ scheduler.Executes index id := by
  rw [Executes, Executes, start]
  simp only
  rcases Nat.lt_trichotomy index scheduler.operations.length with before | same | after
  · rw [List.getElem?_append_left before]
    exact (or_iff_right fun both => Nat.ne_of_lt before both.1).symm
  · subst same
    rw [List.getElem?_concat_length, List.getElem?_eq_none (Nat.le_refl _)]
    simp
  · rw [List.getElem?_eq_none (by rw [List.length_append]; exact after),
      List.getElem?_eq_none (Nat.le_of_lt after)]
    exact (or_iff_right fun both => Nat.ne_of_gt after both.1).symm

theorem executes_goto {index : Nat} {operation : Operation} (found : scheduler.operations[index]? = some operation)
    (following : Operation) (other : Nat) (id : String) :
    (scheduler.goto index following).Executes other id ↔
      if other = index then Operation.running? following = some id else scheduler.Executes other id := by
  rw [Executes, Executes, goto]
  simp only
  have inside : index < scheduler.operations.length := (List.getElem?_eq_some_iff.mp found).1
  split
  · rename_i same
    subst same
    rw [List.getElem?_set_self inside, Option.bind_some]
  · rename_i apart
    rw [List.getElem?_set_ne fun same => apart same.symm]

theorem executes_of_found {index : Nat} {operation : Operation} (found : scheduler.operations[index]? = some operation)
    (id : String) : scheduler.Executes index id ↔ Operation.running? operation = some id := by
  rw [Executes, found, Option.bind_some]

theorem executes_goto_same {index : Nat} {operation following : Operation}
    (found : scheduler.operations[index]? = some operation)
    (same : Operation.running? following = Operation.running? operation) (other : Nat) (id : String) :
    (scheduler.goto index following).Executes other id ↔ scheduler.Executes other id := by
  rw [executes_goto found]
  split
  · rename_i equal
    rw [equal, executes_of_found found, same]
  · exact Iff.rfl

theorem not_executes_of_idle {id : String} (idle : scheduler.Idle id) (index : Nat) : ¬scheduler.Executes index id := by
  intro executes
  rcases Option.bind_eq_some_iff.mp executes with ⟨operation, found, same⟩
  exact idle operation (List.mem_of_getElem? found) same

/-! ## Steps -/

/-- The marks and kills are exact, and the token of a recipe that runs is in its slot or
cancelled. -/
structure Guarded (scheduler : Scheduler) : Prop extends Exclusive scheduler where
  token : forall (index : Nat) (id : String) (cron : Bool),
    scheduler.operations[index]? = some (.execution id cron .executing) ->
      scheduler.runningTasks.find? id = some index ∨ index ∈ scheduler.cancelled

/-- No token is touched, and no recipe begins to run. -/
theorem Guarded.untouched (guarded : Guarded scheduler) (marked : Exclusion (IsRunning next.jobs) next.Executes)
    (executing : forall (index : Nat) (id : String) (cron : Bool),
      next.operations[index]? = some (.execution id cron .executing) ->
      scheduler.operations[index]? = some (.execution id cron .executing))
    (tasks : next.runningTasks = scheduler.runningTasks) (cancelled : next.cancelled = scheduler.cancelled)
    (targets : next.targets = scheduler.targets) : Guarded next where
  marked := marked
  killed index member := cancelled ▸ guarded.killed index (targets ▸ member)
  token index id cron found := by
    rw [tasks, cancelled]
    exact guarded.token index id cron (executing index id cron found)

theorem getElem?_start {operation : Operation} (none : Operation.running? operation = none) {index : Nat} {id : String}
    {cron : Bool} {stage : Stage}
    (found : (scheduler.start operation).operations[index]? = some (.execution id cron stage)) :
    scheduler.operations[index]? = some (.execution id cron stage) := by
  have executes : (scheduler.start operation).Executes index id := by
    rw [Executes, found]
    rfl
  rw [executes_start, none] at executes
  rcases executes with ⟨-, same⟩ | executes
  · contradiction
  · rcases Option.bind_eq_some_iff.mp executes with ⟨old, inside, -⟩
    have before := (List.getElem?_eq_some_iff.mp inside).1
    rw [start, List.getElem?_append_left before] at found
    exact found

theorem getElem?_goto {index : Nat} {following : Operation}
    (other : forall id cron, following ≠ .execution id cron .executing) {place : Nat} {id : String} {cron : Bool}
    (found : (scheduler.goto index following).operations[place]? = some (.execution id cron .executing)) :
    scheduler.operations[place]? = some (.execution id cron .executing) := by
  rw [goto, List.getElem?_set] at found
  split at found
  · split at found
    · exact absurd (Option.some.inj found) (other id cron)
    · contradiction
  · exact found

/-- An operation begins that executes nothing. -/
theorem Guarded.start (guarded : Guarded scheduler) {jobs : Table String ScheduledJob}
    (marks : forall id, IsRunning jobs id ↔ IsRunning scheduler.jobs id) {operation : Operation}
    (none : Operation.running? operation = none) : Guarded ({ scheduler with jobs := jobs }.start operation) := by
  refine guarded.untouched (guarded.marked.congr marks fun index id => ?_)
    (fun index id cron found => getElem?_start none found) rfl rfl rfl
  refine (executes_start { scheduler with jobs := jobs } operation index id).trans (or_iff_right fun both => ?_)
  rw [none] at both
  exact Option.some_ne_none id both.2.symm

theorem Guarded.goto (guarded : Guarded scheduler) {jobs : Table String ScheduledJob}
    (marks : forall id, IsRunning jobs id ↔ IsRunning scheduler.jobs id) {index : Nat} {operation following : Operation}
    (found : scheduler.operations[index]? = some operation)
    (same : Operation.running? following = Operation.running? operation)
    (other : forall id cron, following ≠ .execution id cron .executing) :
    Guarded ({ scheduler with jobs := jobs }.goto index following) :=
  guarded.untouched (guarded.marked.congr marks fun place id => executes_goto_same found same place id)
    (fun _ _ _ executing => getElem?_goto other executing) rfl rfl rfl

theorem Guarded.unmarked (guarded : Guarded scheduler) {id : String} (idle : scheduler.Idle id) :
    ¬IsRunning scheduler.jobs id := by
  rw [guarded.marked.flagged]
  rintro ⟨index, executes⟩
  exact not_executes_of_idle idle index executes

theorem Guarded.marks (guarded : Guarded scheduler) {id : String} (idle : scheduler.Idle id) (other : String) :
    (other ≠ id ∧ IsRunning scheduler.jobs other) ↔ IsRunning scheduler.jobs other :=
  and_iff_right_of_imp fun marked same => guarded.unmarked idle (same ▸ marked)

theorem guarded_remove (guarded : Guarded scheduler) {id : String} (idle : scheduler.Idle id) :
    Guarded { scheduler with
      jobs := scheduler.jobs.erase id
      operations := scheduler.operations.map (Operation.remove id) ++ [.persisting]
      owed := scheduler.owed.filter fun other => decide (other ≠ id) } := by
  have same : forall operation, Operation.running? (Operation.remove id operation) = Operation.running? operation := by
    intro operation
    cases operation <;> rfl
  have removed : Guarded { scheduler with
      jobs := scheduler.jobs.erase id
      operations := scheduler.operations.map (Operation.remove id)
      owed := scheduler.owed.filter fun other => decide (other ≠ id) } := by
    refine guarded.untouched (guarded.marked.congr (fun other => ?_) fun index other => ?_)
      (fun index other cron found => ?_) rfl rfl rfl
    · exact (isRunning_erase _ _ _).trans (guarded.marks idle other)
    · rw [Executes, Executes, List.getElem?_map, Option.bind_map]
      simp only [Function.comp_def, same]
    · rw [List.getElem?_map, Option.map_eq_some_iff] at found
      rcases found with ⟨operation, inside, execution⟩
      rw [inside]
      cases operation <;> first | exact congrArg some execution | contradiction
  exact @Guarded.start _ removed _ (fun _ => Iff.rfl) .persisting rfl

theorem guarded_call (guarded : Guarded scheduler) (first : Call) (undisturbed : scheduler.Undisturbed (.call first)) :
    Guarded (scheduler.call first) := by
  have called := scheduler.calls_call first
  generalize scheduler.call first = next at called ⊢
  cases called with
  | rejected => exact guarded
  | begins _ quiet => exact guarded.start (fun _ => Iff.rfl) quiet.1
  | changes _ found same running quiet =>
      refine guarded.start (fun other => ?_) quiet.1
      rw [isRunning_insert]
      split
      · rename_i equal
        rw [equal, isRunning_of_find? found, running]
      · exact Iff.rfl
  | @runs id job found waits =>
      have free : ¬IsRunning scheduler.jobs id := by
        rw [isRunning_of_find? found, waits]
        exact Bool.false_ne_true
      refine guarded.untouched (@Exclusion.enter _ _ _ _ _ _ guarded.marked id scheduler.operations.length
        (guarded.marked.free free) (fun other => isRunning_mark _ id other job) fun index name => ?_)
        (fun index name cron executing => ?_) rfl rfl rfl
      · refine (executes_start { scheduler with jobs := scheduler.jobs.insert id job.markRunning } _ index name).trans ?_
        rw [Operation.running?, Option.some.injEq, eq_comm (a := id)]
        exact Iff.rfl
      · rw [Scheduler.start, List.getElem?_append] at executing
        split at executing
        · exact executing
        · cases at_ : index - scheduler.operations.length with
          | zero => simp [at_] at executing
          | succ _ => simp [at_] at executing
  | removes id => exact guarded_remove guarded undisturbed

theorem Guarded.register (guarded : Guarded scheduler) {job : ScheduledJob} (idle : scheduler.Idle job.id)
    (unmarked : job.currentlyRunning = false) {index : Nat} {operation following : Operation}
    (found : scheduler.operations[index]? = some operation)
    (same : Operation.running? following = Operation.running? operation)
    (other : forall id cron, following ≠ .execution id cron .executing) :
    Guarded ({ scheduler with jobs := scheduler.jobs.insert job.id job }.goto index following) :=
  guarded.goto (fun id => (isRunning_unmarked _ _ _ unmarked).trans (guarded.marks idle id)) found same other

theorem guarded_mark (guarded : Guarded scheduler) {index : Nat} {id : String} {job : ScheduledJob}
    (found : scheduler.operations[index]? = some (.triggered id)) (idle : scheduler.Idle id)
    (present : scheduler.jobs.find? id = some job) :
    Guarded ({ scheduler with jobs := modify scheduler.jobs id ScheduledJob.markRunning }.goto index
      (.execution id true .marked)) := by
  rw [modify, present]
  refine guarded.untouched (@Exclusion.enter _ _ _ _ _ _ guarded.marked id index (not_executes_of_idle idle)
    (fun other => isRunning_mark _ id other job) fun place name => ?_)
    (fun _ _ _ executing => getElem?_goto (fun _ _ same => by cases same) executing) rfl rfl rfl
  refine (executes_goto found (.execution id true .marked) place name).trans ?_
  rw [Operation.running?, Option.some.injEq, eq_comm (a := id)]
  split
  · rename_i same
    rw [same, executes_of_found found]
    simp [Operation.running?]
  · rename_i apart
    simp [apart]

theorem guarded_insertToken (guarded : Guarded scheduler) {index : Nat} {id : String} {cron : Bool}
    (found : scheduler.operations[index]? = some (.execution id cron .persisted)) :
    Guarded ({ scheduler with runningTasks := scheduler.runningTasks.insert id index }.goto index
      (.execution id cron .executing)) where
  marked := guarded.marked.congr (fun _ => Iff.rfl) fun place name =>
    @executes_goto_same _ _ _ (.execution id cron .executing) found rfl place name
  killed := guarded.killed
  token place name other executing := by
    by_cases same : place = index
    · subst same
      have executes : scheduler.Executes place name := by
        rw [← @executes_goto_same _ _ _ (.execution id cron .executing) found rfl place name, Executes]
        exact congrArg (Option.bind · Operation.running?) executing
      rw [executes_of_found found, Operation.running?, Option.some.injEq] at executes
      subst executes
      exact Or.inl (Table.find?_insert_self _ _ _)
    · have old : scheduler.operations[place]? = some (.execution name other .executing) := by
        rw [goto, List.getElem?_set_ne fun equal => same equal.symm] at executing
        exact executing
      rcases guarded.token place name other old with slot | cancelled
      · have apart : name ≠ id := by
          rintro rfl
          refine same (guarded.marked.single name place index ?_ ?_)
          · rw [executes_of_found old, Operation.running?]
          · rw [executes_of_found found, Operation.running?]
        exact Or.inl ((Table.find?_insert_of_ne _ _ apart).trans slot)
      · exact Or.inr cancelled

/-- An execution empties the slot of its job. -/
theorem guarded_eraseToken (guarded : Guarded scheduler) {index : Nat} {id : String} {cron : Bool}
    (found : scheduler.operations[index]? = some (.execution id cron .returned)) :
    Guarded ({ scheduler with runningTasks := scheduler.runningTasks.erase id }.goto index
      (.execution id cron .unregistered)) where
  marked := guarded.marked.congr (fun _ => Iff.rfl) fun place name =>
    @executes_goto_same _ _ _ (.execution id cron .unregistered) found rfl place name
  killed := guarded.killed
  token place name other executing := by
    have old : scheduler.operations[place]? = some (.execution name other .executing) :=
      getElem?_goto (fun _ _ same => by cases same) executing
    rcases guarded.token place name other old with slot | cancelled
    · have apart : name ≠ id := by
        rintro rfl
        have same := guarded.marked.single name place index (by rw [executes_of_found old, Operation.running?])
          (by rw [executes_of_found found, Operation.running?])
        rw [same, found] at old
        cases old
      refine Or.inl ?_
      show (scheduler.runningTasks.erase id).find? name = _
      rw [Table.find?_erase, if_neg apart, slot]
    · exact Or.inr cancelled

theorem guarded_clear (guarded : Guarded scheduler) {index : Nat} {id : String} {cron : Bool}
    (found : scheduler.operations[index]? = some (.execution id cron .unregistered)) :
    Guarded ({ scheduler with jobs := modify scheduler.jobs id ScheduledJob.clearRunningState }.goto index
      .persisting) := by
  refine guarded.untouched (@Exclusion.leave _ _ _ _ _ _ guarded.marked id index ?_
    (fun other => isRunning_clear _ id other) (fun place name => ?_) fun name executes => ?_)
    (fun _ _ _ executing => getElem?_goto (fun _ _ same => by cases same) executing) rfl rfl rfl
  · rw [executes_of_found found, Operation.running?]
  · refine (executes_goto found .persisting place name).trans ?_
    split
    · rename_i same
      exact iff_of_false (fun none => by cases none) fun both => both.1 same
    · rename_i apart
      exact (and_iff_right apart).symm
  · rw [executes_of_found found, Operation.running?, Option.some.injEq] at executes
    exact executes.symm

/-- A kill cancels the token that is in the slot of its job. -/
theorem guarded_kill (guarded : Guarded scheduler) {index : Nat} {id : String}
    (found : scheduler.operations[index]? = some (.killing id))
    (registered : forall operation, operation ∈ scheduler.operations -> unfinished id operation = true ->
      isExecuting operation = true) :
    Guarded ({ scheduler with
      runningTasks := scheduler.runningTasks.erase id
      cancelled := (scheduler.runningTasks.find? id).toList ++ scheduler.cancelled
      targets := scheduler.unfinishedExecutions id ++ scheduler.targets }.goto index (.killed id)) where
  marked := guarded.marked.congr (fun _ => Iff.rfl) fun place name =>
    @executes_goto_same _ _ _ (.killed id) found rfl place name
  killed place member := by
    rcases List.mem_append.mp member with target | old
    · rcases (Option.any_eq_true _ _).mp (List.mem_filter.mp target).2 with ⟨operation, inside, lasts⟩
      have executing := registered operation (List.mem_of_getElem? inside) lasts
      cases operation with
      | execution name cron stage =>
          simp only [isExecuting, decide_eq_true_eq] at executing
          simp only [unfinished, Bool.and_eq_true, decide_eq_true_eq] at lasts
          rcases lasts with ⟨⟨rfl, -⟩, -⟩
          subst executing
          rcases guarded.token place name cron inside with slot | cancelled
          · exact List.mem_append_left _ (by rw [slot]; exact List.mem_singleton_self place)
          · exact List.mem_append_right _ cancelled
      | _ => exact absurd executing Bool.false_ne_true
    · exact List.mem_append_right _ (guarded.killed place old)
  token place name cron executing := by
    have old : scheduler.operations[place]? = some (.execution name cron .executing) :=
      getElem?_goto (fun _ _ same => by cases same) executing
    rcases guarded.token place name cron old with slot | cancelled
    · by_cases same : name = id
      · subst same
        exact Or.inr (List.mem_append_left _ (by rw [slot]; exact List.mem_singleton_self place))
      · refine Or.inl ?_
        show (scheduler.runningTasks.erase id).find? name = _
        rw [Table.find?_erase, if_neg same, slot]
    · exact Or.inr (List.mem_append_right _ cancelled)

/-- Every next step of an execution that finds what it must keeps the marks exact. -/
theorem guarded_execute (guarded : Guarded scheduler) {index : Nat} {id : String} {cron : Bool} {stage : Stage}
    (found : scheduler.operations[index]? = some (.execution id cron stage)) (fails : Bool)
    (persists : cron = false -> stage = .marked -> fails = false) :
    Guarded (scheduler.execute index fails id cron stage) := by
  have refl : forall id, IsRunning scheduler.jobs id ↔ IsRunning scheduler.jobs id := fun _ => Iff.rfl
  cases stage with
  | marked =>
      have goes : Guarded (scheduler.goto index (.execution id cron .persisted)) :=
        guarded.goto refl found rfl fun _ _ same => by cases same
      rw [execute]
      split
      · rename_i failed
        cases cron with
        | true => exact goes
        | false =>
            rw [persists rfl rfl] at failed
            contradiction
      · exact goes.untouched goes.marked (fun _ _ _ executing => executing) rfl rfl rfl
  | persisted => exact guarded_insertToken guarded found
  | executing => exact guarded.goto refl found rfl fun _ _ same => by cases same
  | returned => exact guarded_eraseToken guarded found
  | unregistered => exact guarded_clear guarded found

/-- Every next step of an operation that finds what it must keeps the marks exact. -/
theorem guarded_proceed (guarded : Guarded scheduler) {index : Nat} {operation : Operation}
    (found : scheduler.operations[index]? = some operation) (fails : Bool)
    (undisturbed : scheduler.Undisturbed (.proceed index fails)) :
    Guarded (scheduler.proceed index fails operation) := by
  have refl : forall id, IsRunning scheduler.jobs id ↔ IsRunning scheduler.jobs id := fun _ => Iff.rfl
  have goes : forall {following : Operation}, Operation.running? following = Operation.running? operation ->
      (forall id cron, following ≠ .execution id cron .executing) -> Guarded (scheduler.goto index following) :=
    fun same other => guarded.goto refl found same other
  simp only [Undisturbed, found] at undisturbed
  cases operation with
  | adding job =>
      rw [proceed]
      split
      · exact goes rfl fun _ _ same => by cases same
      · rename_i registers
        rcases undisturbed.resolve_left registers with ⟨idle, unmarked⟩
        exact guarded.register idle unmarked found rfl fun _ _ same => by cases same
  | added job removed =>
      have ends : Guarded (scheduler.goto index .ended) := goes rfl fun _ _ same => by cases same
      rw [proceed]
      split
      · exact ends
      · exact ends.untouched ends.marked (fun _ _ _ executing => executing) rfl rfl rfl
  | updating id =>
      rw [proceed]
      split
      · exact goes rfl fun _ _ same => by cases same
      · exact goes rfl fun _ _ same => by cases same
  | persisting =>
      have ends : Guarded (scheduler.goto index .ended) := goes rfl fun _ _ same => by cases same
      rw [proceed]
      split
      · exact ends
      · exact ends.untouched ends.marked (fun _ _ _ executing => executing) rfl rfl rfl
  | listing diskJobs => exact goes rfl fun _ _ same => by cases same
  | synchronizing toAdd toRemove =>
      cases toAdd with
      | cons job rest =>
          rw [proceed]
          split
          · exact goes rfl fun _ _ same => by cases same
          · rename_i registers
            rcases undisturbed.resolve_left registers with ⟨idle, unmarked⟩
            exact guarded.register idle unmarked found rfl fun _ _ same => by cases same
      | nil =>
          cases toRemove with
          | nil => exact goes rfl fun _ _ same => by cases same
          | cons id rest =>
              exact guarded.goto (fun other => (isRunning_erase _ _ _).trans (guarded.marks undisturbed other)) found rfl
                fun _ _ same => by cases same
  | triggered id =>
      rcases Option.isSome_iff_exists.mp undisturbed.2 with ⟨job, present⟩
      exact guarded_mark guarded found undisturbed.1 present
  | execution id cron stage =>
      refine guarded_execute guarded found fails fun user first => ?_
      subst user first
      exact undisturbed
  | killing id => exact guarded_kill guarded found undisturbed
  | killed id =>
      rw [proceed]
      split
      · rename_i job present
        exact guarded.goto (fun other => (isRunning_unmarked _ _ _ rfl).trans (guarded.marks undisturbed other)) found rfl
          fun _ _ same => by cases same
      · exact goes rfl fun _ _ same => by cases same
  | ended => exact guarded

theorem guarded_advance (guarded : Guarded scheduler) (step : Step) (undisturbed : scheduler.Undisturbed step)
    (moved : advance step scheduler = .ok next) : Guarded next := by
  cases step with
  | call first =>
      cases moved
      exact guarded_call guarded first undisturbed
  | proceed index fails =>
      rw [advance] at moved
      split at moved
      · contradiction
      · rename_i operation _ found
        cases moved
        exact guarded_proceed guarded found fails undisturbed
      · contradiction

/-! ## Runs -/

theorem not_isRunning_foldl (list : List ScheduledJob) (jobs : Table String ScheduledJob)
    (unmarked : forall job, job ∈ list -> job.currentlyRunning = false) (none : forall id, ¬IsRunning jobs id) (id : String) :
    ¬IsRunning (list.foldl (fun jobs job => jobs.insert job.id job) jobs) id := by
  induction list generalizing jobs with
  | nil => exact none id
  | cons first rest ih =>
      apply ih
      · exact fun job member => unmarked job (List.mem_cons_of_mem _ member)
      · intro other marked
        rw [isRunning_unmarked _ _ _ (unmarked first List.mem_cons_self)] at marked
        exact none other marked.2

theorem guarded_load (registers : ScheduledJob -> Bool) (storage : Option (List ScheduledJob)) :
    Guarded (load registers storage) where
  marked := by
    have unmarked : forall id, ¬IsRunning (load registers storage).jobs id := by
      apply not_isRunning_foldl
      · intro job member
        rcases List.mem_map.mp (List.mem_filter.mp member).1 with ⟨stored, -, rfl⟩
        rfl
      · exact fun id marked => Bool.false_ne_true marked
    refine ⟨fun id first second one => ?_, fun id => ?_⟩
    · exact absurd one fun executes => by cases executes
    · exact iff_of_false (unmarked id) fun held => by
        rcases held with ⟨index, executes⟩
        cases executes
  killed index member := absurd member List.not_mem_nil
  token index id cron found := by cases found

/-- In every run whose steps find what they must, at most one execution of a job is in progress,
the job is marked exactly while one is, and kills cancel the executions that are in progress. -/
theorem exclusive_of_run (registers : ScheduledJob -> Bool) (storage : Option (List ScheduledJob)) (steps : List Step)
    (last : Scheduler) (along : Runs.Along advance Undisturbed steps (load registers storage))
    (reached : Runs.run advance steps (load registers storage) = .ok last) : last.Exclusive :=
  (Runs.run_invariant (fun _ step _ allowed guarded moved => guarded_advance guarded step allowed moved) along
    (guarded_load registers storage) reached).toExclusive

/-- A job that runs every morning. -/
def alarm : ScheduledJob :=
  ⟨"alarm", "/recipes/alarm.yaml", "0 0 7 * * *", false, false⟩

/-- A cron task runs the job; a kill cancels it, and it ends before the mark is cleared.  The
user runs the job again and removes it. -/
def killedInTime : List Step :=
  [.call (.cronTask "alarm"), .proceed 0 false, .proceed 0 true, .proceed 0 false, .call (.killRunningJob "alarm"),
    .call (.pauseSchedule "alarm"), .proceed 1 false, .proceed 0 false, .proceed 0 false, .proceed 0 false,
    .proceed 1 false, .call (.runNow "alarm"), .proceed 2 false, .proceed 2 false, .proceed 2 false, .proceed 2 false,
    .proceed 2 false, .call (.removeScheduledJob "alarm")]

theorem killedInTime_exclusive :
    Exists fun last =>
      Runs.run advance killedInTime (load (fun _ => true) (some [alarm])) = .ok last ∧ last.targets = [0] ∧
        last.Exclusive :=
  ⟨_, rfl, by decide +kernel,
    exclusive_of_run (fun _ => true) (some [alarm]) killedInTime _ (by decide +kernel) rfl⟩

/-- A cron task begins while the user runs the job, and the job is killed. -/
def triggeredWhileRunning : List Step :=
  [.call (.runNow "alarm"), .proceed 0 false, .proceed 0 false, .call (.cronTask "alarm"), .proceed 1 false,
    .proceed 1 false, .proceed 1 false, .call (.killRunningJob "alarm"), .proceed 2 false]

/-- Two executions are in progress, and only the token of the second is cancelled. -/
theorem triggeredWhileRunning_twice :
    Exists fun last =>
      Runs.run advance triggeredWhileRunning (load (fun _ => true) (some [alarm])) = .ok last ∧
        last.Executes 0 "alarm" ∧ last.Executes 1 "alarm" ∧ last.targets = [0, 1] ∧ last.cancelled = [1] ∧
        ¬last.Exclusive := by
  refine ⟨_, rfl, rfl, rfl, by decide +kernel, by decide +kernel, fun exclusive => ?_⟩
  exact absurd (exclusive.marked.single "alarm" 0 1 rfl rfl) (by decide)

end Scheduler
end AIBuddy
