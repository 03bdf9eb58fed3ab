import AIBuddy.Scheduler.Jobs
import AIBuddy.Support.Runs

namespace AIBuddy
namespace Scheduler

/-!
# Jobs stay in the file

Whoever persists writes what is in memory, so a job stays in the file as long as it is in
memory.  It leaves memory when it is removed, and when the jobs of the file are synchronized; and
it is not there when it was skipped in the beginning.
-/

def storedIds (scheduler : Scheduler) : List String :=
  (scheduler.storage.getD []).map ScheduledJob.id

/-- The file has every job that it had in the beginning or that was added, and that was not
removed since. -/
def Stored (scheduler : Scheduler) : Prop :=
  forall id, id ∈ scheduler.owed -> id ∈ scheduler.storedIds

/-- The job that an operation has added and is going to persist. -/
def Operation.adds? : Operation -> Option String
  | .added job false => some job.id
  | _ => none

/-- A synchronization drops a job from memory only if the file does not have it, and no operation
that adds it has still to persist. -/
def Synchronizes (scheduler : Scheduler) : Step -> Prop
  | .proceed index _ =>
      match scheduler.operations[index]? with
      | some (.synchronizing [] (id :: _)) =>
          id ∉ scheduler.storedIds ∧
            forall operation, operation ∈ scheduler.operations -> Operation.adds? operation ≠ some id
      | _ => True
  | .call _ => True

/-! ## Jobs in memory -/

def Present (jobs : Table String ScheduledJob) (id : String) : Prop :=
  (jobs.find? id).isSome = true

/-- Jobs are under their identifiers. -/
def Named (jobs : Table String ScheduledJob) : Prop :=
  forall id job, jobs.find? id = some job -> job.id = id

/-- Jobs have changed or were added. -/
structure Grows (jobs next : Table String ScheduledJob) : Prop where
  present : forall id, Present jobs id -> Present next id
  named : Named jobs -> Named next

theorem Grows.refl (jobs : Table String ScheduledJob) : Grows jobs jobs :=
  ⟨fun _ present => present, id⟩

theorem grows_insert (jobs : Table String ScheduledJob) {id : String} {job : ScheduledJob} (named : job.id = id) :
    Grows jobs (jobs.insert id job) := by
  constructor
  · intro other present
    rw [Present, Table.find?_insert]
    split
    · rfl
    · exact present
  · intro all other known found
    rw [Table.find?_insert] at found
    split at found
    · cases found
      rename_i same
      rw [named, same]
    · exact all other known found

theorem grows_change {jobs : Table String ScheduledJob} {id : String} {job : ScheduledJob}
    (found : jobs.find? id = some job) {changed : ScheduledJob} (same : changed.id = job.id) :
    Grows jobs (jobs.insert id changed) := by
  constructor
  · intro other present
    rw [Present, Table.find?_insert]
    split
    · rfl
    · exact present
  · intro named
    exact (grows_insert jobs (by rw [same, named id job found])).named named

theorem grows_modify (jobs : Table String ScheduledJob) (id : String) {change : ScheduledJob -> ScheduledJob}
    (same : forall job, (change job).id = job.id) : Grows jobs (modify jobs id change) := by
  rw [modify]
  split
  · rename_i job found
    exact grows_change found (same job)
  · exact Grows.refl jobs

theorem named_erase {jobs : Table String ScheduledJob} (named : Named jobs) (id : String) : Named (jobs.erase id) := by
  intro other job found
  rw [Table.find?_erase] at found
  split at found
  · contradiction
  · exact named other job found

theorem present_erase {jobs : Table String ScheduledJob} {id other : String} (present : Present jobs other)
    (apart : other ≠ id) : Present (jobs.erase id) other := by
  rw [Present, Table.find?_erase, if_neg apart]
  exact present

/-! ## Steps -/

/-- Memory has the jobs that the file has to have, and those that are going to be persisted. -/
structure Backed (scheduler : Scheduler) : Prop where
  named : Named scheduler.jobs
  owed : forall id, id ∈ scheduler.owed -> Present scheduler.jobs id
  stored : scheduler.Stored
  added : forall job, .added job false ∈ scheduler.operations -> Present scheduler.jobs job.id

variable {scheduler next : Scheduler}

theorem Backed.grow (backed : Backed scheduler) (grows : Grows scheduler.jobs next.jobs)
    (storage : next.storage = scheduler.storage) (owed : next.owed = scheduler.owed)
    (added : forall job, .added job false ∈ next.operations ->
      .added job false ∈ scheduler.operations ∨ Present next.jobs job.id) : Backed next where
  named := grows.named backed.named
  owed id member := grows.present id (backed.owed id (owed ▸ member))
  stored id member := by
    rw [storedIds, storage]
    exact backed.stored id (owed ▸ member)
  added job member := by
    rcases added job member with old | present
    · exact grows.present _ (backed.added job old)
    · exact present

theorem Backed.persist (backed : Backed scheduler) (jobs : next.jobs = scheduler.jobs)
    (storage : next.storage = some (scheduler.jobs.entries.map Prod.snd))
    (owed : forall id, id ∈ next.owed -> Present scheduler.jobs id)
    (added : forall job, .added job false ∈ next.operations -> .added job false ∈ scheduler.operations) :
    Backed next where
  named := jobs ▸ backed.named
  owed id member := jobs ▸ owed id member
  stored id member := by
    rcases Option.isSome_iff_exists.mp (owed id member) with ⟨job, found⟩
    rw [storedIds, storage, Option.getD_some, List.map_map, List.mem_map]
    exact ⟨(id, job), Table.mem_of_find? _ found, backed.named id job found⟩
  added job member := jobs ▸ backed.added job (added job member)

theorem mem_start {operation : Operation} {job : ScheduledJob} (other : operation ≠ .added job false)
    (member : .added job false ∈ (scheduler.start operation).operations) : .added job false ∈ scheduler.operations := by
  rcases List.mem_append.mp member with old | new
  · exact old
  · exact absurd (List.mem_singleton.mp new).symm other

theorem mem_goto {index : Nat} {operation : Operation} {job : ScheduledJob} (other : operation ≠ .added job false)
    (member : .added job false ∈ (scheduler.goto index operation).operations) :
    .added job false ∈ scheduler.operations :=
  (List.mem_or_eq_of_mem_set member).resolve_right fun same => other same.symm

theorem backed_start (backed : Backed scheduler) {jobs : Table String ScheduledJob}
    (grows : Grows scheduler.jobs jobs) {operation : Operation} (other : forall job, operation ≠ .added job false) :
    Backed ({ scheduler with jobs := jobs }.start operation) :=
  backed.grow grows rfl rfl fun job member => Or.inl (mem_start (other job) member)

theorem backed_goto (backed : Backed scheduler) {jobs : Table String ScheduledJob}
    (grows : Grows scheduler.jobs jobs) (index : Nat) {operation : Operation}
    (other : forall job, operation ≠ .added job false) :
    Backed ({ scheduler with jobs := jobs }.goto index operation) :=
  backed.grow grows rfl rfl fun job member => Or.inl (mem_goto (other job) member)

theorem backed_remove (backed : Backed scheduler) (id : String) :
    Backed { scheduler with
      jobs := scheduler.jobs.erase id
      operations := scheduler.operations.map (Operation.remove id) ++ [.persisting]
      owed := scheduler.owed.filter fun other => decide (other ≠ id) } where
  named := named_erase backed.named id
  owed other member := by
    rw [List.mem_filter, decide_eq_true_eq] at member
    exact present_erase (backed.owed other member.1) member.2
  stored other member := backed.stored other (List.mem_filter.mp member).1
  added job member := by
    rcases List.mem_append.mp member with old | new
    · rcases List.mem_map.mp old with ⟨operation, inside, same⟩
      unfold Operation.remove at same
      split at same
      · rename_i known removed
        rw [Operation.added.injEq, Bool.or_eq_false_iff, decide_eq_false_iff_not] at same
        rcases same with ⟨rfl, rfl, apart⟩
        exact present_erase (backed.added known inside) apart
      · rename_i none
        subst same
        exact absurd rfl (none job false)
    · exact Operation.noConfusion (List.mem_singleton.mp new)

theorem backed_call (backed : Backed scheduler) (first : Call) : Backed (scheduler.call first) := by
  have called := scheduler.calls_call first
  generalize scheduler.call first = next at called ⊢
  cases called with
  | rejected => exact backed
  | begins _ quiet => exact backed_start backed (Grows.refl scheduler.jobs) fun job => quiet.2 job false
  | changes _ found same _ quiet => exact backed_start backed (grows_change found same) fun job => quiet.2 job false
  | runs found _ =>
      exact backed_start backed (grows_change found (by rfl)) fun _ same => Operation.noConfusion same
  | removes id => exact backed_remove backed id

theorem backed_persist (backed : Backed scheduler) (index : Nat) {operation : Operation}
    (other : forall job, operation ≠ .added job false) : Backed (scheduler.persistJobs.goto index operation) :=
  backed.persist rfl rfl backed.owed fun job member => mem_goto (other job) member

theorem backed_execute (backed : Backed scheduler) (index : Nat) (fails : Bool) (id : String) (cron : Bool)
    (stage : Stage) : Backed (scheduler.execute index fails id cron stage) := by
  have refl := Grows.refl scheduler.jobs
  cases stage with
  | marked =>
      rw [execute]
      split
      · refine backed_goto backed refl index fun job => ?_
        split <;> exact fun same => Operation.noConfusion same
      · exact backed_persist backed index fun _ same => Operation.noConfusion same
  | persisted =>
      exact backed.grow refl rfl rfl fun job member => Or.inl (mem_goto (fun same => Operation.noConfusion same) member)
  | executing => exact backed_goto backed refl index fun _ same => Operation.noConfusion same
  | returned =>
      exact backed.grow refl rfl rfl fun job member => Or.inl (mem_goto (fun same => Operation.noConfusion same) member)
  | unregistered =>
      refine backed_goto backed (grows_modify scheduler.jobs id ?_) index ?_
      · exact fun _ => rfl
      · exact fun _ same => Operation.noConfusion same

theorem backed_added (backed : Backed scheduler) (index : Nat) {job : ScheduledJob} {removed : Bool}
    (present : removed = false -> Present scheduler.jobs job.id) :
    Backed ({ scheduler.persistJobs with
      owed := if removed then scheduler.owed else job.id :: scheduler.owed }.goto index .ended) := by
  refine backed.persist rfl rfl (fun id member => ?_) fun job member =>
    mem_goto (fun same => Operation.noConfusion same) member
  cases removed with
  | true => exact backed.owed id member
  | false =>
      rcases List.mem_cons.mp member with rfl | old
      · exact present rfl
      · exact backed.owed id old

theorem backed_drop (backed : Backed scheduler) (index : Nat) {id : String} (rest : List String)
    (unstored : id ∉ scheduler.storedIds)
    (unadded : forall job, .added job false ∈ scheduler.operations -> job.id ≠ id) :
    Backed ({ scheduler with jobs := scheduler.jobs.erase id }.goto index (.synchronizing [] rest)) where
  named := named_erase backed.named id
  owed other member := present_erase (backed.owed other member) fun same =>
    unstored (same ▸ backed.stored other member)
  stored := backed.stored
  added job member := by
    have old := mem_goto (fun same => Operation.noConfusion same) member
    exact present_erase (backed.added job old) (unadded job old)

theorem backed_proceed (backed : Backed scheduler) {index : Nat} {operation : Operation}
    (found : scheduler.operations[index]? = some operation) (fails : Bool)
    (synchronizes : scheduler.Synchronizes (.proceed index fails)) :
    Backed (scheduler.proceed index fails operation) := by
  have refl := Grows.refl scheduler.jobs
  unfold proceed
  split
  · rename_i job
    split
    · exact backed_goto backed refl index fun _ same => Operation.noConfusion same
    · refine backed.grow (grows_insert scheduler.jobs rfl) rfl rfl fun other member => ?_
      rcases List.mem_or_eq_of_mem_set member with old | new
      · exact Or.inl old
      · cases new
        exact Or.inr (by rw [Present]; exact congrArg Option.isSome (Table.find?_insert_self _ _ _))
  · rename_i job removed
    split
    · exact backed_goto backed refl index fun _ same => Operation.noConfusion same
    · refine backed_added backed index fun kept => backed.added job ?_
      rw [← kept]
      exact List.mem_of_getElem? found
  · refine backed_goto backed refl index fun job => ?_
    split <;> exact fun same => Operation.noConfusion same
  · split
    · exact backed_goto backed refl index fun _ same => Operation.noConfusion same
    · exact backed_persist backed index fun _ same => Operation.noConfusion same
  · exact backed_goto backed refl index fun _ same => Operation.noConfusion same
  · rename_i job rest toRemove
    split
    · exact backed_goto backed refl index fun _ same => Operation.noConfusion same
    · exact backed_goto backed (grows_insert scheduler.jobs rfl) index fun _ same => Operation.noConfusion same
  · rename_i id rest
    simp only [Synchronizes, found] at synchronizes
    exact backed_drop backed index rest synchronizes.1 fun job member same =>
      synchronizes.2 _ member (congrArg some same)
  · exact backed_goto backed refl index fun _ same => Operation.noConfusion same
  · rename_i id
    refine backed_goto backed (grows_modify scheduler.jobs id ?_) index ?_
    · exact fun _ => rfl
    · exact fun _ same => Operation.noConfusion same
  · rename_i id cron stage
    exact backed_execute backed index fails id cron stage
  · exact backed.grow refl rfl rfl fun job member => Or.inl (mem_goto (fun same => Operation.noConfusion same) member)
  · rename_i id
    split
    · rename_i job present
      exact backed_goto backed (grows_change present (by rfl)) index fun _ same => Operation.noConfusion same
    · exact backed_goto backed refl index fun _ same => Operation.noConfusion same
  · exact backed

theorem backed_advance (backed : Backed scheduler) (step : Step) (synchronizes : scheduler.Synchronizes step)
    (moved : advance step scheduler = .ok next) : Backed next := by
  cases step with
  | call first =>
      cases moved
      exact backed_call backed first
  | proceed index fails =>
      rw [advance] at moved
      split at moved
      · contradiction
      · rename_i operation _ found
        cases moved
        exact backed_proceed backed found fails synchronizes
      · contradiction

/-! ## Runs -/

theorem present_foldl_insert (list : List ScheduledJob) (jobs : Table String ScheduledJob) :
    Grows jobs (list.foldl (fun jobs job => jobs.insert job.id job) jobs) ∧
      forall job, job ∈ list -> Present (list.foldl (fun jobs job => jobs.insert job.id job) jobs) job.id := by
  induction list generalizing jobs with
  | nil => exact ⟨Grows.refl jobs, fun job member => absurd member List.not_mem_nil⟩
  | cons first rest ih =>
      rcases ih (jobs.insert first.id first) with ⟨grows, present⟩
      have inserted := grows_insert jobs (rfl : first.id = first.id)
      refine ⟨⟨fun id old => grows.present id (inserted.present id old), fun named => grows.named (inserted.named named)⟩,
        fun job member => ?_⟩
      rcases List.mem_cons.mp member with rfl | later
      · exact grows.present _ (by rw [Present, Table.find?_insert_self]; rfl)
      · exact present job later

theorem backed_load {registers : ScheduledJob -> Bool} {storage : Option (List ScheduledJob)}
    (all : forall job, job ∈ storage.getD [] -> registers job.clearRunningState = true) :
    Backed (load registers storage) := by
  have registered : ((storage.getD []).map ScheduledJob.clearRunningState).filter registers =
      (storage.getD []).map ScheduledJob.clearRunningState := by
    rw [List.filter_eq_self]
    intro job member
    rcases List.mem_map.mp member with ⟨stored, inside, rfl⟩
    exact all stored inside
  have loaded := present_foldl_insert ((storage.getD []).map ScheduledJob.clearRunningState) Table.empty
  refine ⟨?_, fun id member => ?_, fun id member => ?_, fun job member => absurd member List.not_mem_nil⟩
  · rw [load]
    simp only
    rw [registered]
    exact loaded.1.named fun id job found => by contradiction
  · rcases List.mem_map.mp member with ⟨job, inside, rfl⟩
    rw [load]
    simp only
    rw [registered]
    exact loaded.2 job inside
  · cases storage with
    | none => exact absurd member List.not_mem_nil
    | some list => exact member

/-- In every run of a scheduler that has registered every job of the file, where each
synchronization drops only jobs that the file does not have and nobody adds, the file keeps the
jobs that it had and those that are added, until they are removed. -/
theorem stored_of_run {registers : ScheduledJob -> Bool} {storage : Option (List ScheduledJob)}
    (all : forall job, job ∈ storage.getD [] -> registers job.clearRunningState = true) (steps : List Step)
    (last : Scheduler) (along : Runs.Along advance Synchronizes steps (load registers storage))
    (reached : Runs.run advance steps (load registers storage) = .ok last) : last.Stored :=
  (Runs.run_invariant (fun _ step _ allowed backed moved => backed_advance backed step allowed moved) along
    (backed_load all) reached).stored

/-- The job that the next step of an operation drops from memory. -/
def Operation.drops? : Operation -> Option String
  | .synchronizing [] (id :: _) => some id
  | _ => none

theorem synchronizes_proceed_iff (scheduler : Scheduler) (index : Nat) (fails : Bool) :
    scheduler.Synchronizes (.proceed index fails) ↔
      forall id, id ∈ (scheduler.operations[index]?).bind Operation.drops? -> id ∉ scheduler.storedIds ∧
        forall operation, operation ∈ scheduler.operations -> Operation.adds? operation ≠ some id := by
  rw [Synchronizes]
  split
  · rename_i id rest found
    rw [found]
    simp [Operation.drops?]
  · rename_i other
    refine iff_of_true trivial fun id drops => ?_
    rcases Option.bind_eq_some_iff.mp drops with ⟨operation, found, same⟩
    unfold Operation.drops? at same
    split at same
    · exact absurd found (other _ _)
    · contradiction

instance (scheduler : Scheduler) (step : Step) : Decidable (scheduler.Synchronizes step) :=
  match step with
  | .call _ => .isTrue trivial
  | .proceed index fails => decidable_of_iff _ (synchronizes_proceed_iff scheduler index fails).symm

def dailyJob (id : String) : ScheduledJob :=
  ⟨id, "/recipes/" ++ id ++ ".yaml", "0 0 9 * * *", false, false⟩

/-- A job is added while the jobs are listed, it runs, and another one is removed. -/
def addedWhileListed : List Step :=
  [.call (.addScheduledJob (dailyJob "report")), .call .listScheduledJobs, .proceed 1 false, .proceed 0 false,
    .proceed 0 false, .proceed 1 false, .call (.runNow "report"), .proceed 2 false, .proceed 2 false,
    .call (.removeScheduledJob "backup"), .proceed 2 false, .proceed 3 false, .proceed 2 false, .proceed 2 false,
    .proceed 2 false]

theorem addedWhileListed_stored :
    Exists fun last =>
      Runs.run advance addedWhileListed (load (fun _ => true) (some [dailyJob "backup"])) = .ok last ∧
        last.owed = ["report"] ∧ last.Stored :=
  ⟨_, rfl, by decide +kernel, @stored_of_run (fun _ => true) (some [dailyJob "backup"]) (fun _ _ => rfl)
    addedWhileListed _ (by decide +kernel) rfl⟩

/-- A job is paused after another one was skipped, because its recipe was missing. -/
def pausedWhileMissing : List Step :=
  [.call (.pauseSchedule "report"), .proceed 0 false]

/-- The job that was skipped is erased from the file. -/
theorem pausedWhileMissing_erased :
    Exists fun last =>
      Runs.run advance pausedWhileMissing
          (load (fun job => decide (job.id ≠ "backup")) (some [dailyJob "backup", dailyJob "report"])) = .ok last ∧
        last.operations = [.ended] ∧ last.owed = ["backup", "report"] ∧ last.storedIds = ["report"] ∧ ¬last.Stored := by
  refine ⟨_, rfl, by decide +kernel, by decide +kernel, by decide +kernel, fun stored => ?_⟩
  exact absurd (stored "backup" (by decide +kernel)) (by decide +kernel)

end Scheduler
end AIBuddy
