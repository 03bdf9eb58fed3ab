import Mathlib.Data.List.Basic
import AIBuddy.Downloads.DownloadManager
import AIBuddy.Support.Runs
import AIBuddy.Support.Tasks

namespace AIBuddy
namespace Downloads

/-!
# Downloads of one model

An entry is claimed for as long as a call or a task works on it, and the task that works on it is
the only one.  What a download leaves in the registry is how it ended: a cancellation before the
end counts, and one after it would not.
-/

/-! ## What an observer notes -/

/-- The last download that was begun: whether it was cancelled before its end, and whether it
succeeded once its task has exited. -/
structure Attempt where
  cancelled : Bool
  succeeded : Option Bool
deriving DecidableEq

/-- A cancellation counts for a download that has not ended. -/
def Attempt.cancel (attempt : Attempt) : Attempt :=
  if attempt.succeeded = none then { attempt with cancelled := true } else attempt

def Attempt.finish (success : Bool) (attempt : Attempt) : Attempt :=
  { attempt with succeeded := some success }

/-- The registry, with what is noted of its last download. -/
structure Watched where
  manager : Manager
  attempt : Option Attempt
deriving DecidableEq

namespace Manager

/-- The tasks that have not exited. -/
def working (manager : Manager) : List Task :=
  manager.tasks.filter fun task => decide task.IsWorking

/-- The phase of a task. -/
def phase? (manager : Manager) (index : Nat) : Option Phase :=
  manager.tasks[index]?.map Task.phase

/-- What a step lets an observer note. -/
def note (manager : Manager) (step : Step) (attempt : Option Attempt) : Option Attempt :=
  match step with
  | .download _ totalSizeHint _ =>
      match claimEntry manager.entry manager.modelId totalSizeHint with
      | .ok _ => some ⟨false, none⟩
      | .error _ => attempt
  | .cancel => if manager.entry.isSome then attempt.map Attempt.cancel else attempt
  | .task index _ =>
      match (manager.phase? index).bind Phase.exit? with
      | some success => attempt.map (Attempt.finish success)
      | none => attempt
  | _ => attempt

end Manager

namespace Watched

def initial (modelId : String) : Watched :=
  ⟨.initial modelId, none⟩

def advance (step : Step) (watched : Watched) : Except Unit Watched :=
  (watched.manager.advance step).map fun next => ⟨next, watched.manager.note step watched.attempt⟩

/-- What is promised of the downloads of a model. -/
structure Sound (watched : Watched) : Prop where
  single : watched.manager.working.length ≤ 1
  active : forall progress, watched.manager.entry = some progress -> progress.status = .downloading ->
    watched.manager.calls ≠ [] ∨ watched.manager.working ≠ []
  kept : forall progress attempt success, watched.manager.entry = some progress ->
    watched.attempt = some attempt -> attempt.cancelled = false -> attempt.succeeded = some success ->
    progress.status = if success then .completed else .failed
  cancelled : forall progress attempt, watched.manager.entry = some progress ->
    watched.attempt = some attempt -> attempt.cancelled = true -> progress.status ≠ .completed
  restart : watched.manager.calls = [] -> watched.manager.working = [] -> forall totalSizeHint,
    (claimEntry watched.manager.entry watched.manager.modelId totalSizeHint).isOk = true

end Watched

namespace Manager

/-- What a step must find: no directory creation fails, a cancellation does not come after the
end, a task whose files are all in place has not been cancelled, and an update of the progress
leaves the status and the exit mark alone. -/
def Orderly (manager : Manager) : Step -> Prop
  | .createDirectory _ outcome => outcome.isOk = true
  | .cancel => forall progress, progress ∈ manager.entry -> progress.status ≠ .completed ∧ progress.status ≠ .failed
  | .update change => forall progress, progress ∈ manager.entry ->
      (change progress).status = progress.status ∧ (change progress).taskExited = progress.taskExited
  | .task index _ => (manager.phase? index).bind Phase.exit? = some true -> manager.entry.isCancelled = false
  | _ => True

instance (manager : Manager) (step : Step) : Decidable (manager.Orderly step) :=
  match step with
  | .download .. | .spawn _ | .clear => .isTrue trivial
  | .createDirectory _ outcome => inferInstanceAs (Decidable (outcome.isOk = true))
  | .cancel => inferInstanceAs (Decidable (forall progress, progress ∈ manager.entry -> _))
  | .update _ => inferInstanceAs (Decidable (forall progress, progress ∈ manager.entry -> _))
  | .task _ _ => inferInstanceAs (Decidable (_ -> _))

/-- A call starts its task only when the completion callback of the task before has returned. -/
def AwaitsCallback (manager : Manager) : Step -> Prop
  | .spawn _ => forall task, task ∈ manager.tasks -> task.IsWorking
  | _ => True

instance (manager : Manager) (step : Step) : Decidable (manager.AwaitsCallback step) :=
  match step with
  | .spawn _ => inferInstanceAs (Decidable (forall task, task ∈ manager.tasks -> _))
  | .download .. | .createDirectory .. | .cancel | .clear | .update _ | .task .. => .isTrue trivial

end Manager

/-! ## What holds between the steps -/

/-- The status that an attempt leaves in the registry. -/
def Attempt.status (attempt : Attempt) : DownloadStatus :=
  if attempt.cancelled then .cancelled
  else
    match attempt.succeeded with
    | none => .downloading
    | some true => .completed
    | some false => .failed

/-- An entry shows how the attempt stands. -/
structure Attempt.Shows (attempt : Attempt) (progress : DownloadProgress) : Prop where
  status : progress.status = attempt.status
  exited : progress.taskExited = attempt.succeeded.isSome

/-- The number of claims on an entry: one until its task has exited. -/
def Entry.claims : Entry -> Nat
  | some progress => if progress.taskExited then 0 else 1
  | none => 0

theorem Entry.claims_le_one (entry : Entry) : entry.claims ≤ 1 := by
  unfold claims
  split
  · split <;> decide
  · decide

/-- Whatever leaves the exit mark alone leaves the claims alone. -/
theorem Entry.claims_updateProgress (entry : Entry) {update : DownloadProgress -> DownloadProgress}
    (kept : forall progress, progress ∈ entry -> (update progress).taskExited = progress.taskExited) :
    (updateProgress entry update).claims = entry.claims := by
  cases entry with
  | none => rfl
  | some progress =>
      show (if (update progress).taskExited then 0 else 1) = if progress.taskExited then 0 else 1
      rw [kept progress rfl]

theorem Attempt.Shows.cancel {attempt : Attempt} {progress : DownloadProgress} (shows : attempt.Shows progress)
    (before : progress.status ≠ .completed ∧ progress.status ≠ .failed) :
    attempt.cancel.Shows { progress with status := .cancelled } := by
  rcases attempt with ⟨cancelled, succeeded⟩
  rcases shows with ⟨status, exited⟩
  cases succeeded with
  | none => exact ⟨rfl, exited⟩
  | some success =>
      cases cancelled with
      | true => exact ⟨rfl, exited⟩
      | false =>
          rw [status] at before
          cases success
          · exact absurd rfl before.2
          · exact absurd rfl before.1

theorem Attempt.Shows.complete {attempt : Attempt} {progress : DownloadProgress} (shows : attempt.Shows progress)
    (running : attempt.succeeded = none) (uncancelled : progress.status ≠ .cancelled) :
    (attempt.finish true).Shows (Task.complete progress) := by
  rcases attempt with ⟨cancelled, succeeded⟩
  rcases shows with ⟨status, exited⟩
  cases running
  cases cancelled with
  | true => exact absurd status uncancelled
  | false => exact ⟨rfl, rfl⟩

theorem Attempt.Shows.fail {attempt : Attempt} {progress : DownloadProgress} (shows : attempt.Shows progress)
    (running : attempt.succeeded = none) (message : String) :
    (attempt.finish false).Shows (Task.fail message progress) := by
  rcases attempt with ⟨cancelled, succeeded⟩
  rcases shows with ⟨status, exited⟩
  cases running
  refine ⟨?_, rfl⟩
  rw [Task.fail, status]
  cases cancelled <;> rfl

/-! ## Tasks at work -/

theorem Task.isWorking_of_exit? {task : Task} {success : Bool} (exits : task.phase.exit? = some success) :
    task.IsWorking := by
  intro ended
  rw [ended] at exits
  cases exits

theorem length_working_set {tasks : List Task} {task : Task} {index : Nat} (found : tasks[index]? = some task)
    (next : Task) :
    ((tasks.set index next).filter fun task => decide task.IsWorking).length + (if task.IsWorking then 1 else 0) =
      (tasks.filter fun task => decide task.IsWorking).length + if next.IsWorking then 1 else 0 := by
  have counted := Tasks.countP_set (fun task => decide (Task.IsWorking task)) found next
  simp only [List.countP_singleton, decide_eq_true_eq] at counted
  rw [← List.countP_eq_length_filter, ← List.countP_eq_length_filter, counted]

theorem length_working_eraseIdx {tasks : List Task} {task : Task} {index : Nat}
    (found : tasks[index]? = some task) :
    ((tasks.eraseIdx index).filter fun task => decide task.IsWorking).length + (if task.IsWorking then 1 else 0) =
      (tasks.filter fun task => decide task.IsWorking).length := by
  have counted := Tasks.countP_eraseIdx (fun task => decide (Task.IsWorking task)) found
  simp only [List.countP_singleton, decide_eq_true_eq] at counted
  rw [← List.countP_eq_length_filter, ← List.countP_eq_length_filter, counted]

theorem claimEntry_eq_ok {entry claimed : Entry} {modelId : String} {totalSizeHint : UInt64}
    (accepted : claimEntry entry modelId totalSizeHint = .ok claimed) :
    claimed = some (initialProgress modelId totalSizeHint) ∧ forall progress, entry = some progress ->
      progress.status ≠ .downloading ∧ ¬(progress.status = .cancelled ∧ ¬progress.taskExited) := by
  unfold claimEntry at accepted
  split at accepted
  · split at accepted
    · cases accepted
    · rename_i inactive
      split at accepted
      · cases accepted
      · rename_i ended
        cases accepted
        refine ⟨rfl, fun progress same => ?_⟩
        cases same
        exact ⟨inactive, ended⟩
  · cases accepted
    exact ⟨rfl, fun _ absent => absurd absent (Option.some_ne_none _).symm⟩

namespace Watched

/-- The calls in progress and the tasks at work are the claims on the entry, and the entry shows
the last attempt. -/
structure Consistent (watched : Watched) : Prop where
  balanced : watched.manager.calls.length + watched.manager.working.length = watched.manager.entry.claims
  shown : forall progress, watched.manager.entry = some progress ->
    Exists fun attempt => watched.attempt = some attempt ∧ attempt.Shows progress

theorem initial_consistent (modelId : String) : (initial modelId).Consistent :=
  ⟨rfl, fun _ found => absurd found (Option.some_ne_none _).symm⟩

namespace Consistent

variable {watched : Watched} {manager : Manager}

/-- A step that neither touches the entry nor changes the number of workers. -/
theorem congr (consistent : watched.Consistent) (entry : manager.entry = watched.manager.entry)
    (workers : manager.calls.length + manager.working.length =
      watched.manager.calls.length + watched.manager.working.length) :
    Consistent ⟨manager, watched.attempt⟩ where
  balanced := by rw [workers, entry, consistent.balanced]
  shown progress found := consistent.shown progress (entry ▸ found)

theorem claimEntry_isOk (consistent : watched.Consistent) (unclaimed : watched.manager.entry.claims = 0)
    (modelId : String) (totalSizeHint : UInt64) :
    (claimEntry watched.manager.entry modelId totalSizeHint).isOk = true := by
  cases found : watched.manager.entry with
  | none => rfl
  | some progress =>
      rcases consistent.shown progress found with ⟨attempt, -, shows⟩
      have exited : progress.taskExited = true := by
        rw [found, Entry.claims] at unclaimed
        by_contra running
        rw [if_neg running] at unclaimed
        exact Nat.one_ne_zero unclaimed
      have ended : attempt.succeeded.isSome = true := shows.exited ▸ exited
      have inactive : progress.status ≠ .downloading := by
        rw [shows.status, Attempt.status]
        cases same : attempt.succeeded with
        | none => simp [same] at ended
        | some success => cases attempt.cancelled <;> cases success <;> simp
      rw [claimEntry, if_neg inactive, if_neg (fun leaving => leaving.2 exited)]
      rfl

theorem claims_of_free (consistent : watched.Consistent)
    (free : forall progress, watched.manager.entry = some progress ->
      progress.status ≠ .downloading ∧ ¬(progress.status = .cancelled ∧ ¬progress.taskExited)) :
    watched.manager.entry.claims = 0 := by
  cases found : watched.manager.entry with
  | none => rfl
  | some progress =>
      rcases consistent.shown progress found with ⟨⟨cancelled, succeeded⟩, -, status, exited⟩
      rcases free progress found with ⟨inactive, ended⟩
      cases succeeded with
      | some success => rw [Entry.claims, exited, Option.isSome_some, if_pos rfl]
      | none =>
          cases cancelled with
          | true => exact absurd ⟨status, exited ▸ Bool.false_ne_true⟩ ended
          | false => exact absurd status inactive

theorem sound (consistent : watched.Consistent) : watched.Sound where
  single := by
    have bound := watched.manager.entry.claims_le_one
    have balanced := consistent.balanced
    omega
  active progress found downloading := by
    rcases consistent.shown progress found with ⟨attempt, -, shows⟩
    have claimed : watched.manager.entry.claims = 1 := by
      rw [found, Entry.claims, shows.exited]
      rw [shows.status, Attempt.status] at downloading
      split at downloading
      · cases downloading
      · split at downloading
        · rename_i same
          rw [same]
          rfl
        · cases downloading
        · cases downloading
    have balanced := consistent.balanced
    rw [claimed] at balanced
    by_contra idle
    rw [not_or, not_not, not_not] at idle
    rw [idle.1, idle.2] at balanced
    cases balanced
  kept progress attempt success found noted uncancelled ended := by
    rcases consistent.shown progress found with ⟨shown, same, shows⟩
    rw [noted, Option.some.injEq] at same
    subst same
    rw [shows.status, Attempt.status, uncancelled, ended]
    cases success <;> rfl
  cancelled progress attempt found noted cancelled completed := by
    rcases consistent.shown progress found with ⟨shown, same, shows⟩
    rw [noted, Option.some.injEq] at same
    subst same
    rw [shows.status, Attempt.status, cancelled] at completed
    cases completed
  restart idle resting totalSizeHint := by
    refine consistent.claimEntry_isOk ?_ ..
    rw [← consistent.balanced, idle, resting]
    rfl

theorem download (consistent : watched.Consistent) (files : List Destination) (totalSizeHint : UInt64)
    (hasCallback : Bool) :
    Consistent ⟨watched.manager.download files totalSizeHint hasCallback,
      watched.manager.note (.download files totalSizeHint hasCallback) watched.attempt⟩ := by
  simp only [Manager.download, Manager.note]
  cases claimed : claimEntry watched.manager.entry watched.manager.modelId totalSizeHint with
  | error refused => exact consistent
  | ok entry =>
      rcases claimEntry_eq_ok claimed with ⟨rfl, free⟩
      constructor
      · have balanced := consistent.balanced
        rw [consistent.claims_of_free free] at balanced
        simp only [List.length_append, List.length_singleton, Manager.working] at balanced ⊢
        have claims : Entry.claims (some (initialProgress watched.manager.modelId totalSizeHint)) = 1 := rfl
        omega
      · intro progress found
        cases found
        exact ⟨⟨false, none⟩, rfl, rfl, rfl⟩

theorem createDirectory (consistent : watched.Consistent) {index : Nat}
    (moved : watched.manager.createDirectory index (.ok ()) = .ok manager) :
    Consistent ⟨manager, watched.attempt⟩ := by
  unfold Manager.createDirectory at moved
  split at moved
  · split at moved
    · cases moved
      refine consistent.congr rfl ?_
      rw [List.length_set]
      rfl
    · contradiction
    · cases moved
  · cases moved

/-- A call hands its claim over to the task that it starts. -/
theorem spawn (consistent : watched.Consistent) {index : Nat} (moved : watched.manager.spawn index = .ok manager) :
    Consistent ⟨manager, watched.attempt⟩ := by
  unfold Manager.spawn at moved
  split at moved
  · rename_i call found
    split at moved
    · cases moved
      refine consistent.congr rfl ?_
      have inside := (List.getElem?_eq_some_iff.mp found).1
      have works : decide call.task.IsWorking = true := rfl
      simp only [Manager.working, List.filter_append, List.filter_cons, works, List.filter_nil, List.length_append,
        List.length_eraseIdx_of_lt inside, if_true, List.length_singleton]
      omega
    · cases moved
  · cases moved

theorem cancel (consistent : watched.Consistent)
    (before : forall progress, progress ∈ watched.manager.entry ->
      progress.status ≠ .completed ∧ progress.status ≠ .failed) :
    Consistent ⟨watched.manager.cancel, watched.manager.note .cancel watched.attempt⟩ := by
  unfold Manager.cancel Manager.note
  cases found : watched.manager.entry with
  | none => exact consistent
  | some progress =>
      rcases consistent.shown progress found with ⟨attempt, noted, shows⟩
      constructor
      · have balanced := consistent.balanced
        rw [found] at balanced
        exact balanced
      · intro cancelled same
        cases same
        refine ⟨attempt.cancel, by rw [noted]; rfl, ?_⟩
        exact shows.cancel (before progress found)

theorem clear (consistent : watched.Consistent) :
    Consistent ⟨{ watched.manager with entry := clearCompleted watched.manager.entry }, watched.attempt⟩ := by
  unfold clearCompleted
  cases found : watched.manager.entry with
  | none => exact consistent.congr found.symm rfl
  | some progress =>
      have balanced := consistent.balanced
      simp only
      split
      · rename_i final
        constructor
        · rw [found, Entry.claims, if_pos final.2] at balanced
          exact balanced
        · intro other absent
          cases absent
      · exact consistent.congr found.symm rfl

theorem update (consistent : watched.Consistent) {change : DownloadProgress -> DownloadProgress}
    (kept : forall progress, progress ∈ watched.manager.entry ->
      (change progress).status = progress.status ∧ (change progress).taskExited = progress.taskExited)
    (workers : manager.calls.length + manager.working.length =
      watched.manager.calls.length + watched.manager.working.length)
    (entry : manager.entry = updateProgress watched.manager.entry change) :
    Consistent ⟨manager, watched.attempt⟩ := by
  constructor
  · rw [workers, entry, Entry.claims_updateProgress _ fun progress member => (kept progress member).2]
    exact consistent.balanced
  · intro progress found
    rw [entry, updateProgress, Option.map_eq_some_iff] at found
    rcases found with ⟨former, member, rfl⟩
    rcases consistent.shown former member with ⟨attempt, noted, shows⟩
    exact ⟨attempt, noted, (kept former member).1.trans shows.status, (kept former member).2.trans shows.exited⟩

theorem exit (consistent : watched.Consistent) {write : DownloadProgress -> DownloadProgress} {success : Bool}
    (one : manager.calls.length + manager.working.length + 1 =
      watched.manager.calls.length + watched.manager.working.length)
    (entry : manager.entry = updateProgress watched.manager.entry write)
    (exits : forall progress (attempt : Attempt), watched.manager.entry = some progress -> attempt.Shows progress ->
      attempt.succeeded = none -> (attempt.finish success).Shows (write progress)) :
    Consistent ⟨manager, watched.attempt.map (Attempt.finish success)⟩ := by
  have balanced := consistent.balanced
  have bound := watched.manager.entry.claims_le_one
  cases found : watched.manager.entry with
  | none =>
      rw [found] at balanced
      have unclaimed : Entry.claims none = 0 := rfl
      omega
  | some progress =>
      rcases consistent.shown progress found with ⟨attempt, noted, shows⟩
      have running : attempt.succeeded = none := by
        rw [found, Entry.claims, shows.exited] at balanced
        cases same : attempt.succeeded with
        | none => rfl
        | some other =>
            rw [same, Option.isSome_some, if_pos rfl] at balanced
            omega
      have shown := exits progress attempt found shows running
      have left : manager.entry.claims = 0 := by
        rw [entry, found]
        show (if (write progress).taskExited then 0 else 1) = 0
        rw [shown.exited]
        rfl
      constructor
      · show manager.calls.length + manager.working.length = manager.entry.claims
        omega
      · intro other same
        rw [entry, found] at same
        cases same
        exact ⟨attempt.finish success, by rw [noted]; rfl, shown⟩

theorem task (consistent : watched.Consistent) {index : Nat} {answer : Answer}
    (uncancelled : (watched.manager.phase? index).bind Phase.exit? = some true ->
      watched.manager.entry.isCancelled = false)
    (moved : watched.manager.moveTask index answer = .ok manager) :
    Consistent ⟨manager, watched.manager.note (.task index answer) watched.attempt⟩ := by
  unfold Manager.moveTask at moved
  split at moved
  · rename_i task found
    have phase : watched.manager.phase? index = some task.phase := by rw [Manager.phase?, found]; rfl
    split at moved
    · rename_i move advanced
      cases moved
      simp only [Manager.note, phase, Option.bind_some] at uncancelled ⊢
      cases Task.steps_of_advance advanced with
      | quiet _ goesOn working quiet =>
          rcases quiet.working with ⟨next, same, nextWorking⟩
          rw [goesOn]
          refine consistent.update (fun progress _ => ⟨quiet.status progress, quiet.taskExited progress⟩) ?_ rfl
          have counted := length_working_set found next
          rw [if_pos working, if_pos nextWorking] at counted
          simp only [same, Manager.working]
          omega
      | completes next exits ended =>
          rw [exits] at uncancelled ⊢
          refine consistent.exit ?_ rfl ?_
          · have working := Task.isWorking_of_exit? exits
            cases next with
            | none =>
                have counted := length_working_eraseIdx found
                rw [if_pos working] at counted
                simp only [Manager.working]
                omega
            | some next =>
                have counted := length_working_set found next
                rw [if_pos working, if_neg (ended next rfl)] at counted
                simp only [Manager.working]
                omega
          · intro progress attempt same shows running
            have spared := uncancelled rfl
            rw [same] at spared
            exact shows.complete running (of_decide_eq_false spared)
      | fails message exits =>
          rw [exits]
          refine consistent.exit ?_ rfl fun progress attempt _ shows running => shows.fail running message
          have counted := length_working_eraseIdx found
          rw [if_pos (Task.isWorking_of_exit? exits)] at counted
          simp only [Manager.working]
          omega
      | returns ended =>
          have idle : task.phase.exit? = none := by rw [ended]; rfl
          rw [idle]
          refine consistent.congr (congrFun Option.map_id _) ?_
          have counted := length_working_eraseIdx found
          rw [if_neg (fun working => working ended)] at counted
          simp only [Manager.working]
          omega
    · cases moved
  · cases moved

theorem advance (consistent : watched.Consistent) {step : Step} {next : Watched}
    (orderly : watched.manager.Orderly step) (moved : watched.advance step = .ok next) : next.Consistent := by
  rcases (Runs.map_eq_ok_iff ..).mp moved with ⟨manager, advanced, rfl⟩
  cases step with
  | download files totalSizeHint hasCallback =>
      cases advanced
      exact consistent.download files totalSizeHint hasCallback
  | createDirectory call outcome =>
      cases outcome with
      | ok created => exact consistent.createDirectory advanced
      | error failure => cases orderly
  | spawn call => exact consistent.spawn advanced
  | cancel =>
      cases advanced
      exact consistent.cancel orderly
  | clear =>
      cases advanced
      exact consistent.clear
  | update change =>
      cases advanced
      exact consistent.update orderly rfl rfl
  | task index answer => exact consistent.task orderly advanced

end Consistent

end Watched

/-! ## Whole runs -/

namespace Watched

theorem Consistent.resting {watched : Watched} (consistent : watched.Consistent) {index : Nat} {call : Call}
    (found : watched.manager.calls[index]? = some call) : watched.manager.working = [] := by
  have inside := (List.getElem?_eq_some_iff.mp found).1
  have balanced := consistent.balanced
  have bound := watched.manager.entry.claims_le_one
  exact List.eq_nil_of_length_eq_zero (by omega)

theorem tasks_spawn {watched : Watched} {manager : Manager} {index : Nat} (consistent : watched.Consistent)
    (awaits : watched.manager.AwaitsCallback (.spawn index)) (moved : watched.manager.spawn index = .ok manager) :
    manager.tasks.length ≤ 1 := by
  unfold Manager.spawn at moved
  split at moved
  · rename_i call found
    have none_at_work := consistent.resting found
    have alone : watched.manager.tasks = [] := by
      rw [List.eq_nil_iff_forall_not_mem]
      intro task member
      have works : task ∈ watched.manager.working := List.mem_filter.mpr ⟨member, decide_eq_true (awaits task member)⟩
      rw [none_at_work] at works
      cases works
    split at moved
    · cases moved
      rw [alone]
      rfl
    · cases moved
  · cases moved

theorem tasks_advance {watched next : Watched} {step : Step} (consistent : watched.Consistent)
    (one : watched.manager.tasks.length ≤ 1) (awaits : watched.manager.AwaitsCallback step)
    (moved : watched.advance step = .ok next) : next.manager.tasks.length ≤ 1 := by
  rcases (Runs.map_eq_ok_iff ..).mp moved with ⟨manager, advanced, rfl⟩
  cases step with
  | download files totalSizeHint hasCallback =>
      cases advanced
      simp only [Manager.download]
      split <;> exact one
  | createDirectory call outcome =>
      simp only [Manager.advance, Manager.createDirectory] at advanced
      split at advanced
      · split at advanced <;> cases advanced <;> exact one
      · cases advanced
  | spawn call => exact tasks_spawn consistent awaits advanced
  | cancel =>
      cases advanced
      simp only [Manager.cancel]
      split <;> exact one
  | clear =>
      cases advanced
      exact one
  | update change =>
      cases advanced
      exact one
  | task index answer =>
      simp only [Manager.advance, Manager.moveTask] at advanced
      split at advanced
      · split at advanced
        · cases advanced
          simp only
          split
          · exact (List.length_set ..).trans_le one
          · exact (List.eraseIdx_sublist ..).length_le.trans one
        · cases advanced
      · cases advanced

/-- In a run of calls, cancellations, removals, updates and task steps that are all orderly, at
most one task of the model works at a time, the status says that a download goes on only while
one does, it stays what the end of the download made it, a cancelled download is never shown as
completed, and the model can be downloaded again once nothing is active.  If the calls wait for
completion callbacks, there is at most one task even with those that call back. -/
theorem downloads_sound (modelId : String) {steps : List Step} {last : Watched}
    (orderly : Runs.Along advance (fun watched => watched.manager.Orderly) steps (initial modelId))
    (reached : Runs.run advance steps (initial modelId) = .ok last) :
    last.Sound ∧
      (Runs.Along advance (fun watched => watched.manager.AwaitsCallback) steps (initial modelId) ->
        last.manager.tasks.length ≤ 1) := by
  have consistent := Runs.run_invariant (fun _ _ _ orderly consistent => consistent.advance orderly) orderly
    (initial_consistent modelId) reached
  refine ⟨consistent.sound, fun awaits => ?_⟩
  have preserved : forall (watched : Watched) (step : Step) (next : Watched),
      watched.manager.Orderly step ∧ watched.manager.AwaitsCallback step ->
        watched.Consistent ∧ watched.manager.tasks.length ≤ 1 -> watched.advance step = .ok next ->
          next.Consistent ∧ next.manager.tasks.length ≤ 1 := by
    intro watched step next conditions kept moved
    exact ⟨kept.1.advance conditions.1 moved, tasks_advance kept.1 kept.2 conditions.2 moved⟩
  exact (Runs.run_invariant preserved (orderly.and awaits) ⟨initial_consistent modelId, Nat.zero_le 1⟩ reached).2

/-- A file is downloaded in one chunk, and its callback returns.  Then the model is downloaded
again and cancelled, which its task notices before it looks at the file. -/
def cancelledAgain : List Step :=
  [.download [["models", "a.gguf"]] 4 true, .createDirectory 0 (.ok ()), .spawn 0, .task 0 .done,
    .task 0 (.length (some 4)), .task 0 .proceed, .task 0 (.length none), .task 0 .proceed, .task 0 .proceed,
    .task 0 (.found false), .task 0 (.length none), .task 0 (.length (some 4)), .task 0 .proceed,
    .task 0 (.response ⟨200, "200 OK"⟩ (some 4) none), .task 0 .done, .task 0 (.chunk 4), .task 0 .proceed,
    .task 0 .done, .task 0 (.measured fun _ => none), .task 0 .proceed, .task 0 .finished, .task 0 .done,
    .task 0 .done, .task 0 .proceed, .task 0 .proceed, .task 0 .done,
    .download [["models", "a.gguf"]] 4 true, .createDirectory 0 (.ok ()), .spawn 0, .task 0 .done, .cancel,
    .task 0 (.length (some 4)), .task 0 .proceed, .task 0 (.length (some 4)), .task 0 .proceed,
    .task 0 .proceed, .task 0 .proceed, .task 0 .proceed]

theorem downloads_sound_cancelled :
    Exists fun last => Runs.run advance cancelledAgain (initial "model") = .ok last ∧
      last.Sound ∧ last.manager.tasks.length ≤ 1 := by
  have orderly : Runs.Along advance (fun watched => watched.manager.Orderly) cancelledAgain (initial "model") := by
    decide +kernel
  have awaits : Runs.Along advance (fun watched => watched.manager.AwaitsCallback) cancelledAgain (initial "model") := by
    decide +kernel
  refine ⟨⟨⟨"model", some ⟨"model", .cancelled, 0, 4, 0, none, none, some "Download cancelled", true⟩, [], []⟩,
    some ⟨true, some false⟩⟩, rfl, ?_⟩
  have sound := downloads_sound "model" orderly rfl
  exact ⟨sound.1, sound.2 awaits⟩

/-- Where a directory cannot be created, the model stays claimed for good.  A cancellation hides
that a download has ended, or is lost to a task that looks at no status any more. -/
theorem downloads_unsound :
    (Exists fun last =>
      Runs.run advance [.download [["models", "a.gguf"]] 4 false, .createDirectory 0 (.error "read-only file system")]
        (initial "model") = .ok last ∧ ¬last.Sound) ∧
    (Exists fun last =>
      Runs.run advance
        [.download [] 0 false, .spawn 0, .task 0 (.failed "no TLS backend"), .task 0 .proceed, .cancel]
        (initial "model") = .ok last ∧ ¬last.Sound) ∧
    Exists fun last =>
      Runs.run advance
        [.download [["models", "a.gguf"]] 4 false, .createDirectory 0 (.ok ()), .spawn 0, .task 0 .done,
          .task 0 (.length (some 4)), .task 0 .proceed, .task 0 (.length (some 4)), .task 0 .proceed,
          .task 0 .proceed, .task 0 (.found true), .cancel, .task 0 .proceed, .task 0 .proceed]
        (initial "model") = .ok last ∧ ¬last.Sound := by
  refine ⟨⟨_, rfl, fun sound => ?_⟩, ⟨_, rfl, fun sound => ?_⟩, _, rfl, fun sound => ?_⟩
  · exact (sound.active _ rfl rfl).elim (fun busy => busy rfl) fun busy => busy rfl
  · cases sound.kept _ _ false rfl rfl rfl rfl
  · exact sound.cancelled _ _ rfl rfl rfl rfl

end Watched

end Downloads
end AIBuddy
