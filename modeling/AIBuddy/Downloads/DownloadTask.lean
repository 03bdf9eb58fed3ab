import Mathlib.Algebra.Group.Nat.Defs
import Mathlib.Data.Rat.Defs

namespace AIBuddy
namespace Downloads

/-!
# The background task of a download

A download runs as a task that asks the servers for sizes, counts what is on disk already, and
fetches one file after the other into a partial file that it renames at the end.  The disk, the
network and the clock are outside, so each of their answers is an input of the step that waits
for it.  The task shares only its progress with the rest of the program.  It holds the lock for
one access at a time, and every access is a step of its own.
-/

/-! ## Progress -/

inductive DownloadStatus where
  | downloading
  | completed
  | failed
  | cancelled
deriving DecidableEq

/-- The progress of the download of one model.  The percentage is exact here. -/
structure DownloadProgress where
  modelId : String
  status : DownloadStatus
  bytesDownloaded : UInt64
  totalBytes : UInt64
  progressPercent : Rat
  speedBps : Option UInt64
  etaSeconds : Option UInt64
  error : Option String
  taskExited : Bool
deriving DecidableEq

/-- What the registry of downloads holds for one model. -/
abbrev Entry := Option DownloadProgress

def Entry.isCancelled (entry : Entry) : Bool :=
  entry.any fun progress => decide (progress.status = .cancelled)

def saturatingSub (first second : UInt64) : UInt64 :=
  if second ≤ first then first - second else 0

def saturatingAdd (first second : UInt64) : UInt64 :=
  UInt64.ofNat (min (first.toNat + second.toNat) (2 ^ 64 - 1))

/-! ## Phases of a task -/

/-- A file to download, as the components of the path where it goes. -/
abbrev Destination := List String

/-- The directory of a file.  Only the empty path and the root have none. -/
def Destination.parent : Destination -> Option Destination
  | [] => none
  | component :: rest => some (component :: rest).dropLast

def maxRetries : Nat := 10

/-- The counters of the loop that fetches one file. -/
structure Transfer where
  fileBytes : UInt64
  fileTotal : UInt64
  retries : Nat
deriving DecidableEq

/-- Where a task stands.  The files that are left are those behind the one it works on, except
where it still has to choose it. -/
inductive Phase where
  | building
  | probing (remaining : List Destination) (total : UInt64) (allResolved : Bool)
  | scanning (remaining : List Destination)
  | choosing (remaining : List Destination)
  | checking (rest : List Destination)
  | opening (rest : List Destination)
  | sizing (rest : List Destination) (fileBytes : UInt64)
  | promoting (rest : List Destination)
  | polling (rest : List Destination) (transfer : Transfer)
  | requesting (rest : List Destination) (transfer : Transfer)
  | sleeping (rest : List Destination) (transfer : Transfer)
  | preparing (rest : List Destination) (transfer : Transfer)
  | streaming (rest : List Destination) (transfer : Transfer)
  | received (rest : List Destination) (transfer : Transfer) (length : UInt64)
  | writing (rest : List Destination) (transfer : Transfer) (length : UInt64)
  | measuring (rest : List Destination) (transfer : Transfer)
  | reporting (rest : List Destination) (transfer : Transfer) (currentTotal : UInt64) (speed : Option UInt64)
  | flushing (rest : List Destination) (transfer : Transfer) (streamError : Bool)
  | renaming (rest : List Destination)
  | succeeded
  | cleaning (message : String) (remaining : List Destination)
  | calling
deriving DecidableEq

/-- A task, with the files it was started for and whether it has a completion callback. -/
structure Task where
  files : List Destination
  hasCallback : Bool
  cumulativeBytes : UInt64
  bytesAtStart : UInt64
  phase : Phase
deriving DecidableEq

/-- The status line of a response, with the text that an error shows for it. -/
structure HttpStatus where
  code : Nat
  text : String

namespace HttpStatus

def isSuccess (status : HttpStatus) : Bool :=
  decide (200 ≤ status.code ∧ status.code < 300)

def isServerError (status : HttpStatus) : Bool :=
  decide (500 ≤ status.code ∧ status.code < 600)

/-- Server errors, request timeouts and rate limits are worth another try. -/
def isTransient (status : HttpStatus) : Bool :=
  status.isServerError || decide (status.code = 408) || decide (status.code = 429)

end HttpStatus

/-- What a task learns from outside: that it goes on, that an operation is done or failed, a
length that may be unknown, whether a file exists, a response with its length and the total of
its range, a chunk, the end of a stream, or the speed at which a number of bytes came so far. -/
inductive Answer where
  | proceed
  | done
  | failed (message : String)
  | length (bytes : Option UInt64)
  | found (present : Bool)
  | response (status : HttpStatus) (contentLength rangeTotal : Option UInt64)
  | chunk (length : UInt64)
  | finished
  | measured (speed : UInt64 -> Option UInt64)

/-! ## Steps of a task -/

/-- What a step leaves: the task, unless it is over, and what it writes to the progress. -/
structure Move where
  task : Option Task
  write : DownloadProgress -> DownloadProgress

namespace Task

/-- Go on in another phase, and write nothing. -/
def enter (task : Task) (phase : Phase) : Move :=
  ⟨some { task with phase := phase }, id⟩

/-- Give up: the partial files of all destinations are removed next. -/
def bail (task : Task) (message : String) : Move :=
  task.enter (.cleaning message task.files)

/-- Go on unless the download is cancelled. -/
def poll (task : Task) (entry : Entry) (phase : Phase) : Move :=
  if entry.isCancelled then task.bail "Download cancelled" else task.enter phase

/-- The bytes of a partial file that is discarded no longer count. -/
def discard (task : Task) (fileBytes : UInt64) : Task :=
  { task with cumulativeBytes := saturatingSub task.cumulativeBytes fileBytes }

/-- Wait before the next try, unless too many were made. -/
def retry (task : Task) (rest : List Destination) (transfer : Transfer) (message : String) : Move :=
  if transfer.retries ≥ maxRetries then task.bail message
  else task.enter (.sleeping rest { transfer with retries := transfer.retries + 1 })

/-- The sizes of all files are known: the total is replaced only if every file had one. -/
def setTotal (total : UInt64) (allResolved : Bool) (progress : DownloadProgress) : DownloadProgress :=
  if allResolved ∧ total > 0 then { progress with totalBytes := total } else progress

/-- The size of a file is known: a complete partial file is promoted, and one that is too long
is discarded. -/
def size (task : Task) (rest : List Destination) (fileBytes fileTotal : UInt64) : Move :=
  if fileTotal > 0 ∧ fileBytes = fileTotal then task.enter (.promoting rest)
  else if fileTotal > 0 ∧ fileBytes > fileTotal then (task.discard fileBytes).enter (.polling rest ⟨0, fileTotal, 0⟩)
  else task.enter (.polling rest ⟨fileBytes, fileTotal, 0⟩)

/-- The body of a response is read, after its length was learned from its headers if the size of
the file was not known before. -/
def learn (task : Task) (rest : List Destination) (transfer : Transfer) (contentLength rangeTotal : Option UInt64) :
    Move :=
  if transfer.fileTotal = 0 then
    match if transfer.fileBytes > 0 then rangeTotal else contentLength with
    | some total =>
        ⟨some { task with phase := .preparing rest { transfer with fileTotal := total } },
          fun progress => { progress with totalBytes := saturatingAdd progress.totalBytes total }⟩
    | none => task.enter (.preparing rest transfer)
  else task.enter (.preparing rest transfer)

/-- A response arrived. -/
def respond (task : Task) (rest : List Destination) (transfer : Transfer) (status : HttpStatus)
    (contentLength rangeTotal : Option UInt64) : Move :=
  if status.code = 416 then
    if transfer.fileTotal > 0 ∧ transfer.fileBytes = transfer.fileTotal then task.enter (.renaming rest)
    else (task.discard transfer.fileBytes).enter (.polling rest { transfer with fileBytes := 0 })
  else if ¬status.isSuccess ∧ status.code ≠ 206 then
    if status.isTransient then task.retry rest transfer s!"Failed to download: HTTP {status.text}"
    else task.bail s!"Failed to download: HTTP {status.text}"
  else if transfer.fileBytes > 0 ∧ status.code = 200 then
    (task.discard transfer.fileBytes).learn rest { transfer with fileBytes := 0 } contentLength rangeTotal
  else task.learn rest transfer contentLength rangeTotal

/-- The body was read as far as it came: a stream that broke off is resumed. -/
def flush (task : Task) (rest : List Destination) (transfer : Transfer) (streamError : Bool) : Move :=
  if streamError then
    task.retry rest transfer s!"Download failed after {transfer.retries} retries due to stream interruption"
  else task.enter (.renaming rest)

/-- The remaining time at a speed. -/
def etaSeconds (task : Task) (currentTotal : UInt64) (speed : Option UInt64) : Option UInt64 :=
  match speed with
  | some speed =>
      if speed > 0 ∧ currentTotal > 0 then some (saturatingSub currentTotal task.cumulativeBytes / speed) else none
  | none => none

/-- A chunk is on disk: its bytes are reported. -/
def report (task : Task) (currentTotal : UInt64) (speed : Option UInt64) (progress : DownloadProgress) :
    DownloadProgress :=
  { progress with
    bytesDownloaded := task.cumulativeBytes
    progressPercent :=
      if currentTotal > 0 then (task.cumulativeBytes.toNat : Rat) / currentTotal.toNat * 100 else 0
    speedBps := speed
    etaSeconds := task.etaSeconds currentTotal speed }

/-- The exit of a task whose files are all in place.  It does not look at the status. -/
def complete (progress : DownloadProgress) : DownloadProgress :=
  { progress with status := .completed, progressPercent := 100, taskExited := true }

/-- The exit of a task that gave up. -/
def fail (message : String) (progress : DownloadProgress) : DownloadProgress :=
  { progress with
    status := if progress.status ≠ .cancelled then .failed else progress.status
    error := some message
    taskExited := true }

/-- One step of a task, on what the registry holds for its model.  An answer that the phase does
not wait for is no step. -/
def advance (task : Task) (entry : Entry) (answer : Answer) : Option Move :=
  match task.phase, answer with
  | .building, .done => some (task.enter (.probing task.files 0 true))
  | .building, .failed message => some (task.bail message)
  | .probing (_ :: rest) total allResolved, .length bytes =>
      some (task.enter (.probing rest (total + bytes.getD 0) (allResolved && decide (bytes.getD 0 ≠ 0))))
  | .probing [] total allResolved, .proceed =>
      some ⟨some { task with phase := .scanning task.files }, setTotal total allResolved⟩
  | .scanning (_ :: rest), .length bytes =>
      some ({ task with cumulativeBytes := task.cumulativeBytes + bytes.getD 0 }.enter (.scanning rest))
  | .scanning [], .proceed =>
      some ({ task with bytesAtStart := task.cumulativeBytes }.enter (.choosing task.files))
  | .choosing (_ :: rest), .proceed => some (task.poll entry (.checking rest))
  | .choosing [], .proceed => some (task.enter .succeeded)
  | .checking rest, .found true => some (task.enter (.choosing rest))
  | .checking rest, .found false => some (task.enter (.opening rest))
  | .opening rest, .length bytes => some (task.enter (.sizing rest (bytes.getD 0)))
  | .opening _, .failed message => some (task.bail message)
  | .sizing rest fileBytes, .length bytes => some (task.size rest fileBytes (bytes.getD 0))
  | .promoting rest, .done => some (task.enter (.choosing rest))
  | .promoting _, .failed message => some (task.bail message)
  | .polling rest transfer, .proceed => some (task.poll entry (.requesting rest transfer))
  | .requesting rest transfer, .failed message =>
      some (task.retry rest transfer s!"Download failed after {transfer.retries} retries: {message}")
  | .requesting rest transfer, .response status contentLength rangeTotal =>
      some (task.respond rest transfer status contentLength rangeTotal)
  | .sleeping rest transfer, .proceed => some (task.poll entry (.sleeping rest transfer))
  | .sleeping rest transfer, .done => some (task.enter (.polling rest transfer))
  | .preparing rest transfer, .done => some (task.enter (.streaming rest transfer))
  | .preparing _ _, .failed message => some (task.bail message)
  | .streaming rest transfer, .chunk length => some (task.enter (.received rest transfer length))
  | .streaming rest transfer, .finished => some (task.enter (.flushing rest transfer false))
  | .streaming rest transfer, .failed _ => some (task.enter (.flushing rest transfer true))
  | .received rest transfer length, .proceed => some (task.poll entry (.writing rest transfer length))
  | .writing rest transfer length, .done =>
      some ({ task with cumulativeBytes := task.cumulativeBytes + length }.enter
        (.measuring rest { transfer with fileBytes := transfer.fileBytes + length }))
  | .writing _ _ _, .failed message => some (task.bail message)
  | .measuring rest transfer, .measured speed =>
      some (task.enter (.reporting rest transfer ((entry.map DownloadProgress.totalBytes).getD 0)
        (speed (saturatingSub task.cumulativeBytes task.bytesAtStart))))
  | .reporting rest transfer currentTotal speed, .proceed =>
      some ⟨some { task with phase := .streaming rest transfer }, task.report currentTotal speed⟩
  | .flushing rest transfer streamError, .done => some (task.flush rest transfer streamError)
  | .flushing _ _ _, .failed message => some (task.bail message)
  | .renaming rest, .done => some (task.enter (.choosing rest))
  | .renaming _, .failed message => some (task.bail message)
  | .succeeded, .proceed =>
      some ⟨if task.hasCallback then some { task with phase := .calling } else none, complete⟩
  | .calling, .done => some ⟨none, id⟩
  | .cleaning message (_ :: rest), .proceed => some (task.enter (.cleaning message rest))
  | .cleaning message [], .proceed => some ⟨none, fail message⟩
  | _, _ => none

/-! ## What a step of a task can do -/

/-- A task works on its download until it exits.  It calls the completion callback afterwards. -/
def IsWorking (task : Task) : Prop :=
  task.phase ≠ .calling

instance (task : Task) : Decidable task.IsWorking :=
  inferInstanceAs (Decidable (task.phase ≠ .calling))

end Task

/-- The exit that a task is about to take, and whether it is that of a success. -/
def Phase.exit? : Phase -> Option Bool
  | .succeeded => some true
  | .cleaning _ [] => some false
  | _ => none

theorem Phase.exit?_eq_some {phase : Phase} {success : Bool} (exits : phase.exit? = some success) :
    (success = true ∧ phase = .succeeded) ∨
      (success = false ∧ Exists fun message => phase = .cleaning message []) := by
  unfold exit? at exits
  split at exits
  · cases exits
    exact Or.inl ⟨rfl, rfl⟩
  · cases exits
    exact Or.inr ⟨rfl, _, rfl⟩
  · cases exits

/-- A step leaves the task at work, and neither changes the status nor marks an exit. -/
structure Move.Quiet (move : Move) : Prop where
  working : Exists fun next => move.task = some next ∧ next.IsWorking
  status : forall progress, (move.write progress).status = progress.status
  taskExited : forall progress, (move.write progress).taskExited = progress.taskExited

namespace Task

variable (task : Task) (rest : List Destination) (transfer : Transfer)

@[simp] theorem enter_quiet (phase : Phase) : (task.enter phase).Quiet ↔ phase ≠ .calling := by
  constructor
  · rintro ⟨⟨next, same, working⟩, -, -⟩
    cases same
    exact working
  · intro working
    exact ⟨⟨_, rfl, working⟩, fun _ => rfl, fun _ => rfl⟩

@[simp] theorem bail_quiet (message : String) : (task.bail message).Quiet := by
  simp [bail]

theorem poll_quiet (entry : Entry) {phase : Phase} (working : phase ≠ .calling) :
    (task.poll entry phase).Quiet := by
  unfold poll
  split
  · exact task.bail_quiet _
  · exact (task.enter_quiet phase).mpr working

theorem retry_quiet (message : String) : (task.retry rest transfer message).Quiet := by
  unfold retry
  split <;> simp

theorem size_quiet (fileBytes fileTotal : UInt64) : (task.size rest fileBytes fileTotal).Quiet := by
  unfold size
  split
  · simp
  · split <;> simp

theorem learn_quiet (contentLength rangeTotal : Option UInt64) :
    (task.learn rest transfer contentLength rangeTotal).Quiet := by
  unfold learn
  split
  · split
    · exact ⟨⟨_, rfl, Phase.noConfusion⟩, fun _ => rfl, fun _ => rfl⟩
    · simp
  · simp

theorem respond_quiet (status : HttpStatus) (contentLength rangeTotal : Option UInt64) :
    (task.respond rest transfer status contentLength rangeTotal).Quiet := by
  unfold respond
  split
  · split <;> simp
  · split
    · split
      · exact task.retry_quiet rest transfer _
      · simp
    · split
      · exact learn_quiet ..
      · exact learn_quiet ..

theorem flush_quiet (streamError : Bool) : (task.flush rest transfer streamError).Quiet := by
  unfold flush
  split
  · exact task.retry_quiet rest transfer _
  · simp

theorem setTotal_quiet (total : UInt64) (allResolved : Bool) :
    Move.Quiet ⟨some { task with phase := .scanning rest }, setTotal total allResolved⟩ := by
  refine ⟨⟨_, rfl, Phase.noConfusion⟩, ?_, ?_⟩ <;>
  · intro progress
    unfold setTotal
    split <;> rfl

theorem report_quiet (currentTotal : UInt64) (speed : Option UInt64) :
    Move.Quiet ⟨some { task with phase := .streaming rest transfer }, task.report currentTotal speed⟩ :=
  ⟨⟨_, rfl, Phase.noConfusion⟩, fun _ => rfl, fun _ => rfl⟩

/-- Every step of a task goes on quietly, or it is one of its two exits or the end of its
callback. -/
inductive Steps : Move -> Prop where
  | quiet (move : Move) (goesOn : task.phase.exit? = none) (working : task.IsWorking) (quiet : move.Quiet) :
      Steps move
  | completes (next : Option Task) (exits : task.phase.exit? = some true)
      (ended : forall left, left ∈ next -> ¬left.IsWorking) : Steps ⟨next, complete⟩
  | fails (message : String) (exits : task.phase.exit? = some false) : Steps ⟨none, fail message⟩
  | returns (ended : task.phase = .calling) : Steps ⟨none, id⟩

theorem quiet_of_advance {task : Task} {entry : Entry} {answer : Answer} {move : Move}
    (moved : task.advance entry answer = some move) (goesOn : task.phase.exit? = none) (working : task.IsWorking) :
    move.Quiet := by
  unfold advance at moved
  split at moved <;> cases moved
  all_goals simp_all [Phase.exit?, IsWorking, poll_quiet, retry_quiet, size_quiet, respond_quiet, flush_quiet,
    setTotal_quiet, report_quiet]

theorem steps_of_advance {task : Task} {entry : Entry} {answer : Answer} {move : Move}
    (moved : task.advance entry answer = some move) : task.Steps move := by
  cases exits : task.phase.exit? with
  | none =>
      by_cases working : task.IsWorking
      · exact .quiet move exits working (quiet_of_advance moved exits working)
      · have ended : task.phase = .calling := Classical.not_not.mp working
        unfold advance at moved
        rw [ended] at moved
        cases answer <;> cases moved
        exact .returns ended
  | some success =>
      rcases Phase.exit?_eq_some exits with ⟨rfl, ended⟩ | ⟨rfl, message, ended⟩
      · unfold advance at moved
        rw [ended] at moved
        cases answer <;> cases moved
        refine .completes _ exits ?_
        intro left member
        cases called : task.hasCallback with
        | false =>
            rw [called] at member
            cases member
        | true =>
            rw [called] at member
            cases member
            exact fun working => working rfl
      · unfold advance at moved
        rw [ended] at moved
        cases answer <;> cases moved
        exact .fails message exits

end Task

end Downloads
end AIBuddy
