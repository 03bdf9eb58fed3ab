import AIBuddy.Scheduler.Jobs
import AIBuddy.Toolshim.ToolNames

namespace AIBuddy
namespace Registration

/-!
# Cron tasks of jobs

Every job is known to the cron library as a task, whose identifier is kept beside the job.  An update of a
schedule changes the job in memory, and then removes the old task, makes a new one, adds it and writes the
jobs to their file.  What the library and the file system answer is given from outside.
-/

/-! ## Registries -/

/-- A task that the cron library runs. -/
structure CronTask where
  uuid : Nat
  jobId : String
  cron : String
deriving DecidableEq

/-- The jobs in memory with the identifiers of their tasks, the tasks, and the jobs in the file. -/
structure Registry where
  jobs : Table String (Nat × ScheduledJob)
  tasks : List CronTask
  storage : Option (List ScheduledJob)
  keyed : forall {id entry}, jobs.find? id = some entry -> entry.2.id = id

namespace Registry

def put (registry : Registry) (uuid : Nat) (job : ScheduledJob) : Registry where
  jobs := registry.jobs.insert job.id (uuid, job)
  tasks := registry.tasks
  storage := registry.storage
  keyed := by
    intro id entry found
    rw [Table.find?_insert] at found
    split at found
    · rename_i same
      cases found
      exact same.symm
    · exact registry.keyed found

def persistJobs (registry : Registry) : Registry :=
  { registry with storage := some (registry.jobs.entries.map fun entry => entry.2.2) }

end Registry

inductive SchedulerError where
  | jobNotFound (id : String)
  | anyhow (text : String)
  | schedulerInternal (text : String)
  | cronParse (text : String)
  | persist (text : String)
deriving DecidableEq

/-- What the steps of an update meet with: an error of the removal, an error of the library for an expression,
the identifier of the new task, and an error of the file system with what it leaves in the file. -/
structure Answers where
  remove : Option String
  reject : String -> Option String
  add : Except String Nat
  write : Option (String × Option (List ScheduledJob))

/-! ## Updates -/

/-- The expression for the library.  One of five fields has no seconds. -/
def cronExpression (cron : String) : Except SchedulerError String :=
  let cronParts := Toolshim.splitWhitespace cron
  if cronParts.length = 5 then .ok ("0 " ++ cron)
  else if cronParts.length = 6 then .ok cron
  else
    .error (.cronParse ("Invalid cron expression '" ++ cron ++ "': expected 5 or 6 fields, got " ++
      toString cronParts.length))

def createCronTask (answers : Answers) (job : ScheduledJob) : Except SchedulerError String :=
  match cronExpression job.cron with
  | .error error => .error error
  | .ok cron =>
      match answers.reject cron with
      | some text => .error (.cronParse text)
      | none => .ok cron

/-- What is left to do once the new task is made. -/
def addTask (answers : Answers) (job : ScheduledJob) (cron : String) (registry : Registry) :
    Except SchedulerError Unit × Registry :=
  match answers.add with
  | .error text => (.error (.schedulerInternal text), registry)
  | .ok uuid =>
      let added : Registry := { registry.put uuid job with tasks := registry.tasks ++ [⟨uuid, job.id, cron⟩] }
      match answers.write with
      | some (text, left) => (.error (.persist text), { added with storage := left })
      | none => (.ok (), added.persistJobs)

/-- What is left to do once the job has its new cron string in memory. -/
def replaceTask (answers : Answers) (oldUuid : Nat) (updatedJob : ScheduledJob) (registry : Registry) :
    Except SchedulerError Unit × Registry :=
  match answers.remove with
  | some text => (.error (.schedulerInternal text), registry)
  | none =>
      let removed : Registry := { registry with tasks := registry.tasks.filter fun task => task.uuid != oldUuid }
      match createCronTask answers updatedJob with
      | .error error => (.error error, removed)
      | .ok cron => addTask answers updatedJob cron removed

def updateSchedule (answers : Answers) (schedId newCron : String) (registry : Registry) :
    Except SchedulerError Unit × Registry :=
  match registry.jobs.find? schedId with
  | none => (.error (.jobNotFound schedId), registry)
  | some (oldUuid, job) =>
      if job.currentlyRunning then
        (.error (.anyhow ("Cannot update running schedule '" ++ schedId ++ "'")), registry)
      else if newCron = job.cron then (.ok (), registry)
      else
        let updatedJob := { job with cron := newCron }
        replaceTask answers oldUuid updatedJob (registry.put oldUuid updatedJob)

/-! ## Atomic updates -/

/-- The tasks of a job. -/
def Registry.tasksOf (registry : Registry) (id : String) : List CronTask :=
  registry.tasks.filter fun task => task.jobId == id

/-- The job has a cron string, and the one task that belongs to it. -/
def Registry.Registered (registry : Registry) (id cron : String) : Prop :=
  Exists fun uuid => Exists fun job => Exists fun expression =>
    registry.jobs.find? id = some (uuid, job) ∧ job.cron = cron ∧ cronExpression cron = .ok expression ∧
      registry.tasksOf id = [⟨uuid, id, expression⟩]

/-- The cron string of a job in the file. -/
def Registry.storedCron (registry : Registry) (id : String) : Option String :=
  ((registry.storage.getD []).find? fun job => job.id == id).map ScheduledJob.cron

/-- The job has the cron string that it had, in memory and in the file, and the one task if it had that. -/
structure Kept (before after : Registry) (id : String) (job : ScheduledJob) : Prop where
  memory : (after.jobs.find? id).map (fun entry => entry.2.cron) = some job.cron
  disk : after.storedCron id = before.storedCron id
  registered : before.Registered id job.cron -> after.Registered id job.cron

/-- A failed update keeps the schedule, and one that succeeds registers the new one. -/
def Atomic (before : Registry) (id newCron : String) (result : Except SchedulerError Unit × Registry) : Prop :=
  match result.1 with
  | .error _ => forall uuid job, before.jobs.find? id = some (uuid, job) -> Kept before result.2 id job
  | .ok _ => result.2.Registered id newCron

/-- No step fails, and the job has no task but the one that is known to be its own. -/
structure Smooth (answers : Answers) (registry : Registry) (uuid : Nat) (job : ScheduledJob) : Prop where
  removes : answers.remove = none
  creates : Exists fun cron => createCronTask answers job = .ok cron
  adds : Exists fun added => answers.add = .ok added
  writes : answers.write = none
  single : forall task, task ∈ registry.tasks -> task.jobId = job.id -> task.uuid = uuid

/-- A job that is updated at all is registered already, or everything goes well. -/
def Updatable (answers : Answers) (registry : Registry) (id newCron : String) : Prop :=
  forall uuid job, registry.jobs.find? id = some (uuid, job) -> job.currentlyRunning = false ->
    if newCron = job.cron then registry.Registered id newCron
    else Smooth answers registry uuid { job with cron := newCron }

variable {answers : Answers} {registry : Registry} {id newCron : String} {uuid : Nat} {job : ScheduledJob}

theorem find?_put : (registry.put uuid job).jobs.find? job.id = some (uuid, job) :=
  Table.find?_insert_self _ _ _

theorem not_kept_of_changed {after : Registry} {other : Nat} {changed : ScheduledJob}
    (found : after.jobs.find? id = some (other, changed)) (different : changed.cron ≠ job.cron) :
    ¬ Kept registry after id job := by
  intro kept
  have memory := kept.memory
  rw [found] at memory
  exact different (Option.some.inj memory)

theorem tasksOf_added (tasks : List CronTask) (task : CronTask) (same : task.jobId = id) :
    (((tasks.filter fun other => other.uuid != uuid) ++ [task]).filter fun other => other.jobId == id) = [task] ↔
      forall other, other ∈ tasks -> other.jobId = id -> other.uuid = uuid := by
  rw [List.filter_append, List.filter_cons_of_pos (by rw [same, beq_self_eq_true]), List.filter_nil]
  constructor
  · intro single other member own
    have empty := List.append_left_eq_self.mp single
    apply Classical.byContradiction
    intro foreign
    have inside : other ∈ (tasks.filter fun other => other.uuid != uuid).filter fun other => other.jobId == id :=
      List.mem_filter.mpr ⟨List.mem_filter.mpr ⟨member, bne_iff_ne.mpr foreign⟩, beq_iff_eq.mpr own⟩
    rw [empty] at inside
    cases inside
  · intro single
    apply List.append_left_eq_self.mpr
    rw [List.filter_eq_nil_iff]
    intro other member own
    have inside := List.mem_filter.mp member
    exact bne_iff_ne.mp inside.2 (single other inside.1 (beq_iff_eq.mp own))

theorem cronExpression_of_created {cron : String} (created : createCronTask answers job = .ok cron) :
    cronExpression job.cron = .ok cron := by
  unfold createCronTask at created
  split at created
  · cases created
  · rename_i made
    split at created
    · cases created
    · cases created
      exact made

theorem addTask_keeps {cron : String} (present : registry.jobs.find? job.id = some (uuid, job)) :
    Exists fun other => (addTask answers job cron registry).2.jobs.find? job.id = some (other, job) := by
  unfold addTask
  cases answers.add with
  | error text => exact ⟨uuid, present⟩
  | ok added =>
      cases answers.write with
      | none => exact ⟨added, find?_put⟩
      | some failure => exact ⟨added, find?_put⟩

theorem replaceTask_keeps (present : registry.jobs.find? job.id = some (uuid, job)) :
    Exists fun other => (replaceTask answers uuid job registry).2.jobs.find? job.id = some (other, job) := by
  unfold replaceTask
  cases answers.remove with
  | some text => exact ⟨uuid, present⟩
  | none =>
      cases createCronTask answers job with
      | error error => exact ⟨uuid, present⟩
      | ok cron => exact addTask_keeps present

theorem addTask_registers_iff {cron : String} (created : createCronTask answers job = .ok cron) :
    (Exists fun final => addTask answers job cron
        { registry with tasks := registry.tasks.filter fun task => task.uuid != uuid } = (.ok (), final) ∧
          final.Registered job.id job.cron) ↔
      (Exists fun added => answers.add = .ok added) ∧ answers.write = none ∧
        forall task, task ∈ registry.tasks -> task.jobId = job.id -> task.uuid = uuid := by
  have expression := cronExpression_of_created created
  unfold addTask
  cases adding : answers.add with
  | error text =>
      constructor
      · rintro ⟨final, same, _⟩
        cases same
      · rintro ⟨⟨added, same⟩, _⟩
        cases same
  | ok newUuid =>
      cases writing : answers.write with
      | some failure =>
          constructor
          · rintro ⟨final, same, _⟩
            cases same
          · rintro ⟨_, never, _⟩
            cases never
      | none =>
          have single := @tasksOf_added job.id uuid registry.tasks ⟨newUuid, job.id, cron⟩ rfl
          constructor
          · rintro ⟨final, same, registered⟩
            cases same
            rcases registered with ⟨other, present, made, found, _, spelled, tasks⟩
            cases found.symm.trans find?_put
            cases expression.symm.trans spelled
            exact ⟨⟨newUuid, rfl⟩, rfl, single.mp tasks⟩
          · rintro ⟨_, _, own⟩
            exact ⟨_, rfl, newUuid, job, cron, find?_put, rfl, expression, single.mpr own⟩

theorem replaceTask_registers_iff :
    (Exists fun final => replaceTask answers uuid job registry = (.ok (), final) ∧ final.Registered job.id job.cron) ↔
      Smooth answers registry uuid job := by
  unfold replaceTask
  cases removing : answers.remove with
  | some text =>
      constructor
      · rintro ⟨final, same, _⟩
        cases same
      · intro smooth
        cases removing.symm.trans smooth.removes
  | none =>
      cases creating : createCronTask answers job with
      | error error =>
          constructor
          · rintro ⟨final, same, _⟩
            cases same
          · intro smooth
            rcases smooth.creates with ⟨cron, created⟩
            cases creating.symm.trans created
      | ok cron =>
          refine (addTask_registers_iff creating).trans ⟨?_, ?_⟩
          · rintro ⟨adds, writes, single⟩
            exact ⟨removing, ⟨cron, creating⟩, adds, writes, single⟩
          · intro smooth
            exact ⟨smooth.adds, smooth.writes, smooth.single⟩

theorem atomic_replaceTask_iff {newCron : String} (found : registry.jobs.find? job.id = some (uuid, job))
    (different : newCron ≠ job.cron) :
    Atomic registry job.id newCron (replaceTask answers uuid { job with cron := newCron }
        (registry.put uuid { job with cron := newCron })) ↔
      Smooth answers registry uuid { job with cron := newCron } := by
  have registers := @replaceTask_registers_iff answers (registry.put uuid { job with cron := newCron }) uuid
    { job with cron := newCron }
  have kept : Smooth answers (registry.put uuid { job with cron := newCron }) uuid { job with cron := newCron } ↔
      Smooth answers registry uuid { job with cron := newCron } :=
    ⟨fun smooth => ⟨smooth.removes, smooth.creates, smooth.adds, smooth.writes, smooth.single⟩,
      fun smooth => ⟨smooth.removes, smooth.creates, smooth.adds, smooth.writes, smooth.single⟩⟩
  rcases @replaceTask_keeps answers (registry.put uuid { job with cron := newCron }) uuid
    { job with cron := newCron } find?_put with ⟨other, present⟩
  rw [← kept, ← registers]
  rcases result : replaceTask answers uuid { job with cron := newCron }
    (registry.put uuid { job with cron := newCron }) with ⟨outcome, final⟩
  rw [result] at present
  unfold Atomic
  cases outcome with
  | error error =>
      constructor
      · intro keeps
        exact absurd (keeps uuid job found) (not_kept_of_changed present different)
      · rintro ⟨other, same, _⟩
        cases same
  | ok success =>
      constructor
      · intro registered
        exact ⟨final, rfl, registered⟩
      · rintro ⟨other, same, registered⟩
        cases same
        exact registered

/-- An update is atomic if and only if it is refused, or there is nothing to update and the job is registered, or
no step fails and the job has no other task. -/
theorem updateSchedule_atomic_iff (answers : Answers) (registry : Registry) (id newCron : String) :
    Atomic registry id newCron (updateSchedule answers id newCron registry) ↔
      Updatable answers registry id newCron := by
  unfold updateSchedule Updatable
  cases present : registry.jobs.find? id with
  | none =>
      refine iff_of_true (fun uuid job found => ?_) fun uuid job found => ?_
      · cases present.symm.trans found
      · cases found
  | some entry =>
      rcases entry with ⟨uuid, job⟩
      have own : job.id = id := registry.keyed present
      subst own
      simp only
      by_cases running : job.currentlyRunning = true
      · rw [if_pos running]
        refine iff_of_true (fun otherUuid other found => ?_) fun otherUuid other found waits => ?_
        · cases present.symm.trans found
          exact ⟨congrArg (Option.map fun entry => entry.2.cron) present, rfl, fun registered => registered⟩
        · cases found
          cases running.symm.trans waits
      · rw [if_neg running]
        by_cases same : newCron = job.cron
        · rw [if_pos same]
          constructor
          · intro registered otherUuid other found _
            cases found
            rw [if_pos same]
            exact registered
          · intro updatable
            have registered := updatable uuid job rfl (Bool.eq_false_iff.mpr running)
            rw [if_pos same] at registered
            exact registered
        · rw [if_neg same]
          refine (atomic_replaceTask_iff present same).trans ⟨?_, ?_⟩
          · intro smooth otherUuid other found _
            cases found
            rw [if_neg same]
            exact smooth
          · intro updatable
            have smooth := updatable uuid job rfl (Bool.eq_false_iff.mpr running)
            rw [if_neg same] at smooth
            exact smooth

/-! ## A rejected expression -/

/-- A registry with one job, which runs at two every night. -/
def nightly : Registry where
  jobs := Table.empty.insert "backup" (1, ⟨"backup", "backup.yaml", "0 0 2 * * *", false, false⟩)
  tasks := [⟨1, "backup", "0 0 2 * * *"⟩]
  storage := some [⟨"backup", "backup.yaml", "0 0 2 * * *", false, false⟩]
  keyed := by
    intro id entry found
    rw [Table.find?_insert] at found
    split at found
    · rename_i same
      cases found
      exact same.symm
    · cases found

/-- A library that knows one expression and a file system without errors. -/
def nightlyAnswers : Answers :=
  ⟨none, fun cron => if cron = "0 0 2 * * *" then none else some "invalid", .ok 2, none⟩

/-- A cron string of two fields is rejected when the old task is gone and the job has the string in memory. -/
theorem updateSchedule_rejected :
    ¬ Atomic nightly "backup" "at noon" (updateSchedule nightlyAnswers "backup" "at noon" nightly) := by
  intro atomic
  have failed : (updateSchedule nightlyAnswers "backup" "at noon" nightly).1 =
      .error (.cronParse "Invalid cron expression 'at noon': expected 5 or 6 fields, got 2") := by decide +kernel
  have memory : ((updateSchedule nightlyAnswers "backup" "at noon" nightly).2.jobs.find? "backup").map
      (fun entry => entry.2.cron) = some "at noon" := by decide +kernel
  unfold Atomic at atomic
  rw [failed] at atomic
  have kept := atomic 1 ⟨"backup", "backup.yaml", "0 0 2 * * *", false, false⟩ (Table.find?_insert_self _ _ _)
  exact absurd (memory.symm.trans kept.memory) (by decide)

end Registration
end AIBuddy
