import AIBuddy.Downloads.DownloadTask

namespace AIBuddy
namespace Downloads

/-!
# The registry of downloads

The registry holds the progress of every model.  Calls that start a download claim the entry of
their model, create the directories of the files, which may fail, and only then start the task.
A cancellation changes the status, which the task looks at from time to time.  The operations on
other models leave the entry of a model alone, so one entry is the whole of the registry here.
-/

/-! ## Operations under the lock -/

/-- The progress with which a download begins. -/
def initialProgress (modelId : String) (totalSizeHint : UInt64) : DownloadProgress where
  modelId := modelId
  status := .downloading
  bytesDownloaded := 0
  totalBytes := totalSizeHint
  progressPercent := 0
  speedBps := none
  etaSeconds := none
  error := none
  taskExited := false

/-- The first section of a call that starts a download. -/
def claimEntry (entry : Entry) (modelId : String) (totalSizeHint : UInt64) : Except String Entry :=
  match entry with
  | some existing =>
      if existing.status = .downloading then .error "Download already in progress"
      else if existing.status = .cancelled ∧ ¬existing.taskExited then
        .error "Download is being cancelled; wait for it to finish before restarting"
      else .ok (some (initialProgress modelId totalSizeHint))
  | none => .ok (some (initialProgress modelId totalSizeHint))

def updateProgress (entry : Entry) (update : DownloadProgress -> DownloadProgress) : Entry :=
  entry.map update

/-- A cancellation only changes the status, whatever it is. -/
def cancelDownload (entry : Entry) : Except String Entry :=
  match entry with
  | some progress => .ok (some { progress with status := .cancelled })
  | none => .error "Download not found"

/-- Forget a download whose status is final and whose task has exited. -/
def clearCompleted (entry : Entry) : Entry :=
  match entry with
  | some progress =>
      if (progress.status = .completed ∨ progress.status = .failed ∨ progress.status = .cancelled) ∧
          progress.taskExited then none
      else entry
  | none => none

/-! ## Calls and tasks of one model -/

/-- A call that has claimed the entry, with the directories that it has not created yet. -/
structure Call where
  files : List Destination
  directories : List Destination
  hasCallback : Bool
deriving DecidableEq

/-- The task that a call starts. -/
def Call.task (call : Call) : Task where
  files := call.files
  hasCallback := call.hasCallback
  cumulativeBytes := 0
  bytesAtStart := 0
  phase := .building

/-- The entry of a model, its calls in progress and its tasks. -/
structure Manager where
  modelId : String
  entry : Entry
  calls : List Call
  tasks : List Task
deriving DecidableEq

/-- What can happen next: a call to start a download, the creation of the next directory of a
call, the start of the task of a call that has all of them, a cancellation, the removal of a
finished entry, an update of the progress, or a step of a task. -/
inductive Step where
  | download (files : List Destination) (totalSizeHint : UInt64) (hasCallback : Bool)
  | createDirectory (call : Nat) (outcome : Except String Unit)
  | spawn (call : Nat)
  | cancel
  | clear
  | update (change : DownloadProgress -> DownloadProgress)
  | task (index : Nat) (answer : Answer)

namespace Manager

/-- Nothing has been downloaded yet. -/
def initial (modelId : String) : Manager :=
  ⟨modelId, none, [], []⟩

/-- A refused call ends at once. -/
def download (manager : Manager) (files : List Destination) (totalSizeHint : UInt64) (hasCallback : Bool) : Manager :=
  match claimEntry manager.entry manager.modelId totalSizeHint with
  | .ok entry =>
      { manager with
        entry := entry
        calls := manager.calls ++ [⟨files, files.filterMap Destination.parent, hasCallback⟩] }
  | .error _ => manager

/-- The next directory of a call is created, or the call fails and ends. -/
def createDirectory (manager : Manager) (index : Nat) (outcome : Except String Unit) : Except Unit Manager :=
  match manager.calls[index]? with
  | some call =>
      match call.directories, outcome with
      | _ :: rest, .ok () => .ok { manager with calls := manager.calls.set index { call with directories := rest } }
      | _ :: _, .error _ => .ok { manager with calls := manager.calls.eraseIdx index }
      | [], _ => .error ()
  | none => .error ()

/-- A call that has created its directories starts the task and returns. -/
def spawn (manager : Manager) (index : Nat) : Except Unit Manager :=
  match manager.calls[index]? with
  | some call =>
      match call.directories with
      | [] => .ok { manager with calls := manager.calls.eraseIdx index, tasks := manager.tasks ++ [call.task] }
      | _ :: _ => .error ()
  | none => .error ()

/-- A failed cancellation changes nothing. -/
def cancel (manager : Manager) : Manager :=
  match cancelDownload manager.entry with
  | .ok entry => { manager with entry := entry }
  | .error _ => manager

/-- A task moves, or ends. -/
def moveTask (manager : Manager) (index : Nat) (answer : Answer) : Except Unit Manager :=
  match manager.tasks[index]? with
  | some task =>
      match task.advance manager.entry answer with
      | some move =>
          .ok { manager with
            entry := updateProgress manager.entry move.write
            tasks :=
              match move.task with
              | some next => manager.tasks.set index next
              | none => manager.tasks.eraseIdx index }
      | none => .error ()
  | none => .error ()

def advance (step : Step) (manager : Manager) : Except Unit Manager :=
  match step with
  | .download files totalSizeHint hasCallback => .ok (manager.download files totalSizeHint hasCallback)
  | .createDirectory call outcome => manager.createDirectory call outcome
  | .spawn call => manager.spawn call
  | .cancel => .ok manager.cancel
  | .clear => .ok { manager with entry := clearCompleted manager.entry }
  | .update change => .ok { manager with entry := updateProgress manager.entry change }
  | .task index answer => manager.moveTask index answer

end Manager

end Downloads
end AIBuddy
