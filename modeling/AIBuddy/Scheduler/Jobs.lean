import Mathlib.Data.String.Basic
import AIBuddy.Support.Table

namespace AIBuddy

/-!
# The scheduler

A scheduler keeps its jobs in memory and writes all of them to a file whenever one has changed.
Operations run concurrently; each takes the lock of the jobs or of the running tasks for one
step at a time, and it persists under the lock of the jobs.  What a recipe, a cron line or the
file system does to a step is whether it fails.
-/

/-- A job, without the fields that no operation looks at. -/
structure ScheduledJob where
  id : String
  source : String
  cron : String
  currentlyRunning : Bool
  paused : Bool
deriving DecidableEq

namespace ScheduledJob

def clearRunningState (job : ScheduledJob) : ScheduledJob :=
  { job with currentlyRunning := false }

def markRunning (job : ScheduledJob) : ScheduledJob :=
  { job with currentlyRunning := true }

end ScheduledJob

/-! ## Operations -/

/-- How far an execution has come: the job was marked, this was persisted, the cancellation
token is in its slot and the recipe runs, the recipe has returned, the slot was emptied. -/
inductive Stage where
  | marked
  | persisted
  | executing
  | returned
  | unregistered
deriving DecidableEq

/-- An operation between two of its steps. -/
inductive Operation where
  /-- The identifier was not taken. -/
  | adding (job : ScheduledJob)
  /-- The job is in memory; whether it was removed since. -/
  | added (job : ScheduledJob) (removed : Bool)
  /-- The cron line of the job was replaced. -/
  | updating (id : String)
  /-- All that is left is to persist the jobs. -/
  | persisting
  /-- The file was read. -/
  | listing (diskJobs : List ScheduledJob)
  /-- The jobs to register and the identifiers to drop. -/
  | synchronizing (jobsToAdd : List ScheduledJob) (jobsToRemove : List String)
  /-- A cron task found its job not paused. -/
  | triggered (id : String)
  /-- An execution that a cron task or a user has started. -/
  | execution (id : String) (cron : Bool) (stage : Stage)
  /-- The job to kill was running. -/
  | killing (id : String)
  /-- The token was taken and cancelled. -/
  | killed (id : String)
  | ended
deriving DecidableEq

/-- What an operation does first. -/
inductive Call where
  | addScheduledJob (job : ScheduledJob)
  | removeScheduledJob (id : String)
  | pauseSchedule (id : String)
  | unpauseSchedule (id : String)
  | updateSchedule (id newCron : String)
  | listScheduledJobs
  | cronTask (id : String)
  | runNow (id : String)
  | killRunningJob (id : String)
deriving DecidableEq

/-- The scheduler, its file and the operations in the order in which they began.  An execution
is known by its index, and so is its token.  Next to these there are the identifiers that the
file has to have, which are those it had in the beginning and those that were added, as long as
they were not removed; and the executions that a kill was for. -/
structure Scheduler where
  jobs : Table String ScheduledJob
  storage : Option (List ScheduledJob)
  runningTasks : Table String Nat
  cancelled : List Nat
  operations : List Operation
  owed : List String
  targets : List Nat

namespace Scheduler

/-- Change a job, if it is there. -/
def modify (jobs : Table String ScheduledJob) (id : String) (change : ScheduledJob -> ScheduledJob) :
    Table String ScheduledJob :=
  match jobs.find? id with
  | some job => jobs.insert id (change job)
  | none => jobs

/-- Write the jobs in memory to the file. -/
def persistJobs (scheduler : Scheduler) : Scheduler :=
  { scheduler with storage := some (scheduler.jobs.entries.map Prod.snd) }

/-- An operation begins. -/
def start (scheduler : Scheduler) (operation : Operation) : Scheduler :=
  { scheduler with operations := scheduler.operations ++ [operation] }

/-- An operation has come to another point. -/
def goto (scheduler : Scheduler) (index : Nat) (operation : Operation) : Scheduler :=
  { scheduler with operations := scheduler.operations.set index operation }

/-- A removal of the job of an operation that adds it. -/
def Operation.remove (id : String) : Operation -> Operation
  | .added job removed => .added job (removed || decide (job.id = id))
  | operation => operation

/-- The first step of an operation. -/
def call (scheduler : Scheduler) : Call -> Scheduler
  | .addScheduledJob job =>
      if (scheduler.jobs.find? job.id).isSome then scheduler else scheduler.start (.adding job)
  | .removeScheduledJob id =>
      match scheduler.jobs.find? id with
      | some _ => { scheduler with
          jobs := scheduler.jobs.erase id
          operations := scheduler.operations.map (Operation.remove id) ++ [.persisting]
          owed := scheduler.owed.filter fun other => decide (other ≠ id) }
      | none => scheduler
  | .pauseSchedule id =>
      match scheduler.jobs.find? id with
      | some job =>
          if job.currentlyRunning then scheduler
          else { scheduler with jobs := scheduler.jobs.insert id { job with paused := true } }.start .persisting
      | none => scheduler
  | .unpauseSchedule id =>
      match scheduler.jobs.find? id with
      | some job => { scheduler with jobs := scheduler.jobs.insert id { job with paused := false } }.start .persisting
      | none => scheduler
  | .updateSchedule id newCron =>
      match scheduler.jobs.find? id with
      | some job =>
          if job.currentlyRunning ∨ newCron = job.cron then scheduler
          else { scheduler with jobs := scheduler.jobs.insert id { job with cron := newCron } }.start (.updating id)
      | none => scheduler
  | .listScheduledJobs =>
      match scheduler.storage with
      | some diskJobs => scheduler.start (.listing diskJobs)
      | none => scheduler
  | .cronTask id =>
      match scheduler.jobs.find? id with
      | some job => if job.paused then scheduler else scheduler.start (.triggered id)
      | none => scheduler
  | .runNow id =>
      match scheduler.jobs.find? id with
      | some job =>
          if job.currentlyRunning then scheduler
          else { scheduler with jobs := scheduler.jobs.insert id job.markRunning }.start (.execution id false .marked)
      | none => scheduler
  | .killRunningJob id =>
      match scheduler.jobs.find? id with
      | some job => if job.currentlyRunning then scheduler.start (.killing id) else scheduler
      | none => scheduler

/-- The jobs of the file that are not in memory. -/
def jobsToAdd (scheduler : Scheduler) (diskJobs : List ScheduledJob) : List ScheduledJob :=
  diskJobs.filter fun job => (scheduler.jobs.find? job.id).isNone

/-- The jobs in memory that are not in the file and do not run. -/
def jobsToRemove (scheduler : Scheduler) (diskJobs : List ScheduledJob) : List String :=
  (scheduler.jobs.entries.filter fun entry =>
    decide (entry.1 ∉ diskJobs.map ScheduledJob.id) && !entry.2.currentlyRunning).map Prod.fst

/-- Whether an operation executes a recipe that has not returned. -/
def unfinished (id : String) : Operation -> Bool
  | .execution other _ stage => decide (other = id) && decide (stage ≠ .returned) && decide (stage ≠ .unregistered)
  | _ => false

/-- The executions of a job that have not returned. -/
def unfinishedExecutions (scheduler : Scheduler) (id : String) : List Nat :=
  (List.range scheduler.operations.length).filter fun index => (scheduler.operations[index]?).any (unfinished id)

/-- The next step of an execution, which fails or not. -/
def execute (scheduler : Scheduler) (index : Nat) (fails : Bool) (id : String) (cron : Bool) : Stage -> Scheduler
  | .marked =>
      if fails then scheduler.goto index (if cron then .execution id cron .persisted else .ended)
      else scheduler.persistJobs.goto index (.execution id cron .persisted)
  | .persisted =>
      { scheduler with runningTasks := scheduler.runningTasks.insert id index }.goto index
        (.execution id cron .executing)
  | .executing => scheduler.goto index (.execution id cron .returned)
  | .returned =>
      { scheduler with runningTasks := scheduler.runningTasks.erase id }.goto index (.execution id cron .unregistered)
  | .unregistered =>
      { scheduler with jobs := modify scheduler.jobs id ScheduledJob.clearRunningState }.goto index .persisting

/-- The next step of an operation, which fails or not. -/
def proceed (scheduler : Scheduler) (index : Nat) (fails : Bool) : Operation -> Scheduler
  | .adding job =>
      if fails then scheduler.goto index .ended
      else { scheduler with jobs := scheduler.jobs.insert job.id job }.goto index (.added job false)
  | .added job removed =>
      if fails then scheduler.goto index .ended
      else { scheduler.persistJobs with
        owed := if removed then scheduler.owed else job.id :: scheduler.owed }.goto index .ended
  | .updating _ => scheduler.goto index (if fails then .ended else .persisting)
  | .persisting => if fails then scheduler.goto index .ended else scheduler.persistJobs.goto index .ended
  | .listing diskJobs =>
      scheduler.goto index (.synchronizing (scheduler.jobsToAdd diskJobs) (scheduler.jobsToRemove diskJobs))
  | .synchronizing (job :: rest) toRemove =>
      if fails then scheduler.goto index (.synchronizing rest toRemove)
      else { scheduler with jobs := scheduler.jobs.insert job.id job }.goto index (.synchronizing rest toRemove)
  | .synchronizing [] (id :: rest) =>
      { scheduler with jobs := scheduler.jobs.erase id }.goto index (.synchronizing [] rest)
  | .synchronizing [] [] => scheduler.goto index .ended
  | .triggered id =>
      { scheduler with jobs := modify scheduler.jobs id ScheduledJob.markRunning }.goto index
        (.execution id true .marked)
  | .execution id cron stage => scheduler.execute index fails id cron stage
  | .killing id =>
      { scheduler with
        runningTasks := scheduler.runningTasks.erase id
        cancelled := (scheduler.runningTasks.find? id).toList ++ scheduler.cancelled
        targets := scheduler.unfinishedExecutions id ++ scheduler.targets }.goto index (.killed id)
  | .killed id =>
      match scheduler.jobs.find? id with
      | some job => { scheduler with jobs := scheduler.jobs.insert id job.clearRunningState }.goto index .persisting
      | none => scheduler.goto index .ended
  | .ended => scheduler

inductive Step where
  | call (call : Call)
  | proceed (index : Nat) (fails : Bool)
deriving DecidableEq

/-- An operation begins, or one that has not ended takes its next step. -/
def advance (step : Step) (scheduler : Scheduler) : Except Unit Scheduler :=
  match step with
  | .call call => .ok (scheduler.call call)
  | .proceed index fails =>
      match scheduler.operations[index]? with
      | some .ended => .error ()
      | some operation => .ok (scheduler.proceed index fails operation)
      | none => .error ()

/-- A scheduler that has loaded the jobs of the file.  A job that cannot be registered is
skipped. -/
def load (registers : ScheduledJob -> Bool) (storage : Option (List ScheduledJob)) : Scheduler :=
  let list := (storage.getD []).map ScheduledJob.clearRunningState
  { jobs := (list.filter registers).foldl (fun jobs job => jobs.insert job.id job) Table.empty
    storage := storage.map fun _ => list
    runningTasks := Table.empty
    cancelled := []
    operations := []
    owed := list.map ScheduledJob.id
    targets := [] }

/-! ## Jobs in memory and in the file -/

theorem find?_modify (jobs : Table String ScheduledJob) (id other : String)
    (change : ScheduledJob -> ScheduledJob) :
    (modify jobs id change).find? other = if other = id then (jobs.find? id).map change else jobs.find? other := by
  rw [modify]
  split
  · rename_i job present
    rw [Table.find?_insert, present, Option.map_some]
  · rename_i absent
    rw [absent]
    split
    · rename_i same
      rw [same, absent, Option.map_none]
    · rfl

/-! ## How operations begin -/

/-- The job that an operation executes. -/
def Operation.running? : Operation -> Option String
  | .execution id _ _ => some id
  | _ => none

/-- An operation that executes nothing and has added nothing. -/
def Operation.Quiet (operation : Operation) : Prop :=
  Operation.running? operation = none ∧ forall job removed, operation ≠ .added job removed

/-- What the first step of an operation does: nothing, or nothing to the jobs, or it changes one
that keeps its identifier and goes on as it was, or it marks a job that does not run, or it
removes one. -/
inductive Calls (scheduler : Scheduler) : Call -> Scheduler -> Prop where
  | rejected (call : Call) : Calls scheduler call scheduler
  | begins (call : Call) {operation : Operation} (quiet : Operation.Quiet operation) :
      Calls scheduler call (scheduler.start operation)
  | changes (call : Call) {id : String} {job changed : ScheduledJob} (found : scheduler.jobs.find? id = some job)
      (same : changed.id = job.id) (running : changed.currentlyRunning = job.currentlyRunning)
      {operation : Operation} (quiet : Operation.Quiet operation) :
      Calls scheduler call ({ scheduler with jobs := scheduler.jobs.insert id changed }.start operation)
  | runs {id : String} {job : ScheduledJob} (found : scheduler.jobs.find? id = some job)
      (waits : job.currentlyRunning = false) :
      Calls scheduler (.runNow id)
        ({ scheduler with jobs := scheduler.jobs.insert id job.markRunning }.start (.execution id false .marked))
  | removes (id : String) : Calls scheduler (.removeScheduledJob id) { scheduler with
      jobs := scheduler.jobs.erase id
      operations := scheduler.operations.map (Operation.remove id) ++ [.persisting]
      owed := scheduler.owed.filter fun other => decide (other ≠ id) }

theorem calls_call (scheduler : Scheduler) (first : Call) : Calls scheduler first (scheduler.call first) := by
  cases first with
  | addScheduledJob job =>
      rw [call]
      split
      · exact .rejected _
      · exact .begins _ ⟨rfl, fun _ _ same => Operation.noConfusion same⟩
  | removeScheduledJob id =>
      rw [call]
      split
      · exact .removes id
      · exact .rejected _
  | pauseSchedule id =>
      rw [call]
      split
      · rename_i job found
        split
        · exact .rejected _
        · refine .changes _ found ?_ ?_ ?_
          · rfl
          · rfl
          · exact ⟨rfl, fun _ _ same => Operation.noConfusion same⟩
      · exact .rejected _
  | unpauseSchedule id =>
      rw [call]
      split
      · rename_i job found
        refine .changes _ found ?_ ?_ ?_
        · rfl
        · rfl
        · exact ⟨rfl, fun _ _ same => Operation.noConfusion same⟩
      · exact .rejected _
  | updateSchedule id newCron =>
      rw [call]
      split
      · rename_i job found
        split
        · exact .rejected _
        · refine .changes _ found ?_ ?_ ?_
          · rfl
          · rfl
          · exact ⟨rfl, fun _ _ same => Operation.noConfusion same⟩
      · exact .rejected _
  | listScheduledJobs =>
      rw [call]
      split
      · exact .begins _ ⟨rfl, fun _ _ same => Operation.noConfusion same⟩
      · exact .rejected _
  | cronTask id =>
      rw [call]
      split
      · split
        · exact .rejected _
        · exact .begins _ ⟨rfl, fun _ _ same => Operation.noConfusion same⟩
      · exact .rejected _
  | runNow id =>
      rw [call]
      split
      · rename_i job found
        split
        · exact .rejected _
        · rename_i waits
          exact .runs found (Bool.not_eq_true _ ▸ waits)
      · exact .rejected _
  | killRunningJob id =>
      rw [call]
      split
      · split
        · exact .begins _ ⟨rfl, fun _ _ same => Operation.noConfusion same⟩
        · exact .rejected _
      · exact .rejected _

end Scheduler
end AIBuddy
