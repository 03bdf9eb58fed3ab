import Mathlib.Logic.Relation
import AIBuddy.Downloads.FileTransfer

namespace AIBuddy
namespace Downloads
namespace FileTransfer

/-!
# Passes of the loop are steps of the task

The background task takes the same pass in many steps, each of which waits for one answer from
outside.  When the download is not cancelled, it goes from one request to where the pass leads:
to the next request with the same counters, to the next file, or to the removal of the partial
files.
-/

open Relation

/-- One step of a task that leaves it running. -/
def Goes (entry : Entry) (task next : Task) : Prop :=
  Exists fun answer => Exists fun move => task.advance entry answer = some move ∧ move.task = some next

/-- Where the task stands after a pass of the loop. -/
def Task.StandsAt (rest : List Destination) (task : Task) : Download -> Prop
  | .fetching fetch => task.phase = .polling rest fetch.transfer
  | .promoted _ => task.phase = .choosing rest
  | .failed => Exists fun message => task.phase = .cleaning message task.files

/-- A task gets from one place to where a pass of the loop leads. -/
def Leads (entry : Entry) (rest : List Destination) (task : Task) (download : Download) : Prop :=
  Exists fun next => ReflTransGen (Goes entry) task next ∧ Task.StandsAt rest next download

section Steps

variable {entry : Entry} {rest : List Destination} {task next : Task} {download : Download}

theorem Leads.step (goes : Goes entry task next) (leads : Leads entry rest next download) :
    Leads entry rest task download := by
  rcases leads with ⟨last, steps, stands⟩
  exact ⟨last, steps.head goes, stands⟩

theorem Leads.steps (goes : ReflTransGen (Goes entry) task next) (leads : Leads entry rest next download) :
    Leads entry rest task download := by
  rcases leads with ⟨last, later, stands⟩
  exact ⟨last, goes.trans later, stands⟩

theorem goes_enter (answer : Answer) (phase : Phase) (advanced : task.advance entry answer = some (task.enter phase)) :
    Goes entry task { task with phase := phase } :=
  ⟨answer, task.enter phase, advanced, rfl⟩

/-- Waiting and asking again. -/
theorem leads_retry {fetch : Fetch} (answer : Answer) {message : String}
    (moved : task.advance entry answer = some (task.retry rest fetch.transfer message)) :
    Leads entry rest task fetch.retry := by
  rw [Task.retry] at moved
  rw [Fetch.retry]
  by_cases tooMany : fetch.transfer.retries ≥ maxRetries
  · rw [if_pos tooMany] at moved ⊢
    exact Leads.step ⟨answer, _, moved, rfl⟩ ⟨_, .refl, message, rfl⟩
  · rw [if_neg tooMany] at moved ⊢
    refine Leads.step ⟨answer, _, moved, rfl⟩ ?_
    exact Leads.step ⟨.done, _, rfl, rfl⟩ ⟨_, .refl, rfl⟩

theorem poll_live (live : entry.isCancelled = false) (phase : Phase) : task.poll entry phase = task.enter phase := by
  rw [Task.poll, live, if_neg Bool.false_ne_true]

theorem goes_chunks (task : Task) (live : entry.isCancelled = false) (chunks : List UInt64) (transfer : Transfer)
    (streams : task.phase = .streaming rest transfer) :
    Exists fun next => ReflTransGen (Goes entry) task next ∧
      next.phase = .streaming rest { transfer with fileBytes := received transfer.fileBytes chunks } := by
  induction chunks generalizing task transfer with
  | nil => exact ⟨task, .refl, streams⟩
  | cons length chunks ih =>
      have arrives : Goes entry task { task with phase := .received rest transfer length } := by
        apply goes_enter (.chunk length)
        unfold Task.advance
        rw [streams]
      have polled : Goes entry { task with phase := .received rest transfer length }
          { task with phase := .writing rest transfer length } := by
        refine ⟨.proceed, _, congrArg some (poll_live live _), rfl⟩
      have written : Goes entry { task with phase := .writing rest transfer length }
          { task with
            cumulativeBytes := task.cumulativeBytes + length
            phase := .measuring rest { transfer with fileBytes := transfer.fileBytes + length } } :=
        ⟨.done, _, rfl, rfl⟩
      have measured : Goes entry
          { task with
            cumulativeBytes := task.cumulativeBytes + length
            phase := .measuring rest { transfer with fileBytes := transfer.fileBytes + length } }
          { task with
            cumulativeBytes := task.cumulativeBytes + length
            phase := .reporting rest { transfer with fileBytes := transfer.fileBytes + length }
              ((entry.map DownloadProgress.totalBytes).getD 0) none } :=
        ⟨.measured fun _ => none, _, rfl, rfl⟩
      have reported : Goes entry
          { task with
            cumulativeBytes := task.cumulativeBytes + length
            phase := .reporting rest { transfer with fileBytes := transfer.fileBytes + length }
              ((entry.map DownloadProgress.totalBytes).getD 0) none }
          { task with
            cumulativeBytes := task.cumulativeBytes + length
            phase := .streaming rest { transfer with fileBytes := transfer.fileBytes + length } } :=
        ⟨.proceed, _, rfl, rfl⟩
      have counted : Phase.streaming rest { transfer with fileBytes := transfer.fileBytes + length } =
          .streaming rest { transfer with fileBytes := transfer.fileBytes + length } := rfl
      rcases ih { task with
        cumulativeBytes := task.cumulativeBytes + length
        phase := .streaming rest { transfer with fileBytes := transfer.fileBytes + length } } _ counted with
        ⟨next, later, stands⟩
      exact ⟨next, ((((later.head reported).head measured).head written).head polled).head arrives, stands⟩

/-- The partial file is renamed, or cannot be. -/
theorem leads_promote {fetch : Fetch} (renames : task.phase = .renaming rest) : Leads entry rest task fetch.promote := by
  rw [Fetch.promote]
  cases fetch.disk with
  | some size =>
      refine Leads.step (goes_enter .done (.choosing rest) ?_) ⟨_, .refl, rfl⟩
      unfold Task.advance
      rw [renames]
  | none =>
      refine Leads.step (goes_enter (.failed "") (.cleaning "" task.files) ?_) ⟨_, .refl, "", rfl⟩
      unfold Task.advance
      rw [renames]
      rfl

theorem leads_stream (live : entry.isCancelled = false) {fetch : Fetch} {response : Response} {answer : Answer}
    (moved : task.advance entry answer =
      some (next.learn rest fetch.transfer response.contentLength response.rangeTotal)) :
    Leads entry rest task (fetch.stream response) := by
  have learned : Exists fun prepared => Goes entry task prepared ∧
      prepared.phase = .preparing rest { fetch.transfer with fileTotal := Fetch.learnTotal fetch.transfer response } := by
    rw [Fetch.learnTotal]
    rw [Task.learn] at moved
    by_cases unknown : fetch.transfer.fileTotal = 0
    · rw [if_pos unknown] at moved ⊢
      split at moved
      case h_1 total named =>
          refine ⟨_, ⟨answer, _, moved, rfl⟩, ?_⟩
          rw [named]
          rfl
      case h_2 unnamed =>
          refine ⟨_, ⟨answer, _, moved, rfl⟩, ?_⟩
          rw [unnamed, Option.getD_none, ← unknown]
    · rw [if_neg unknown] at moved ⊢
      exact ⟨_, ⟨answer, _, moved, rfl⟩, rfl⟩
  rcases learned with ⟨prepared, goes, prepares⟩
  refine Leads.step goes ?_
  have opened : Goes entry prepared
      { prepared with
        phase := .streaming rest { fetch.transfer with fileTotal := Fetch.learnTotal fetch.transfer response } } := by
    apply goes_enter .done
    unfold Task.advance
    rw [prepares]
  refine Leads.step opened ?_
  rcases goes_chunks { prepared with
    phase := .streaming rest { fetch.transfer with fileTotal := Fetch.learnTotal fetch.transfer response } }
    live response.chunks _ rfl with ⟨streamed, chunks, streams⟩
  refine Leads.steps chunks ?_
  rw [Fetch.stream]
  cases ended : response.clean with
  | true =>
      rw [if_pos rfl]
      refine Leads.step (goes_enter .finished (.flushing rest
        { fetch.transfer with
          fileBytes := received fetch.transfer.fileBytes response.chunks
          fileTotal := Fetch.learnTotal fetch.transfer response } false) ?_) ?_
      · unfold Task.advance
        rw [streams]
      · exact Leads.step ⟨.done, _, rfl, rfl⟩ (leads_promote rfl)
  | false =>
      rw [if_neg Bool.false_ne_true]
      refine Leads.step (goes_enter (.failed "") (.flushing rest
        { fetch.transfer with
          fileBytes := received fetch.transfer.fileBytes response.chunks
          fileTotal := Fetch.learnTotal fetch.transfer response } true) ?_) ?_
      · unfold Task.advance
        rw [streams]
      · exact leads_retry .done rfl

theorem leads_respond (live : entry.isCancelled = false) {fetch : Fetch}
    (requests : task.phase = .requesting rest fetch.transfer) (response : Response) :
    Leads entry rest task (fetch.attempt (.answered response)) := by
  have moved : forall move,
      task.respond rest fetch.transfer response.status response.contentLength response.rangeTotal = move ->
      task.advance entry (.response response.status response.contentLength response.rangeTotal) = some move := by
    intro move same
    unfold Task.advance
    rw [requests, ← same]
  rw [Fetch.attempt]
  split
  case isTrue unsatisfiable =>
      split
      case isTrue complete =>
          have renames : task.respond rest fetch.transfer response.status response.contentLength response.rangeTotal =
              task.enter (.renaming rest) := by
            rw [Task.respond, if_pos unsatisfiable, if_pos complete]
          exact Leads.step (goes_enter _ _ (moved _ renames)) (leads_promote rfl)
      case isFalse incomplete =>
          have restarts : task.respond rest fetch.transfer response.status response.contentLength response.rangeTotal =
              (task.discard fetch.transfer.fileBytes).enter (.polling rest { fetch.transfer with fileBytes := 0 }) := by
            rw [Task.respond, if_pos unsatisfiable, if_neg incomplete]
          exact Leads.step ⟨_, _, moved _ restarts, rfl⟩ ⟨_, .refl, rfl⟩
  case isFalse satisfiable =>
      split
      case isTrue bad =>
          split
          case isTrue transient =>
              have retries : task.respond rest fetch.transfer response.status response.contentLength
                  response.rangeTotal =
                  task.retry rest fetch.transfer s!"Failed to download: HTTP {response.status.text}" := by
                rw [Task.respond, if_neg satisfiable, if_pos bad, if_pos transient]
              exact leads_retry _ (moved _ retries)
          case isFalse permanent =>
              have bails : task.respond rest fetch.transfer response.status response.contentLength response.rangeTotal =
                  task.bail s!"Failed to download: HTTP {response.status.text}" := by
                rw [Task.respond, if_neg satisfiable, if_pos bad, if_neg permanent]
              exact Leads.step ⟨_, _, moved _ bails, rfl⟩ ⟨_, .refl, _, rfl⟩
      case isFalse good =>
          split
          case isTrue whole =>
              have learns : task.respond rest fetch.transfer response.status response.contentLength response.rangeTotal =
                  (task.discard fetch.transfer.fileBytes).learn rest fetch.ignoreRange.transfer response.contentLength
                    response.rangeTotal := by
                rw [Task.respond, if_neg satisfiable, if_neg good, if_pos whole, Fetch.ignoreRange]
              exact leads_stream live (moved _ learns)
          case isFalse part =>
              have learns : task.respond rest fetch.transfer response.status response.contentLength response.rangeTotal =
                  task.learn rest fetch.transfer response.contentLength response.rangeTotal := by
                rw [Task.respond, if_neg satisfiable, if_neg good, if_neg part]
              exact leads_stream live (moved _ learns)

/-- A pass of the loop is a run of steps of the task. -/
theorem leads_attempt (live : entry.isCancelled = false) {fetch : Fetch}
    (polls : task.phase = .polling rest fetch.transfer) (behaviour : Behaviour) :
    Leads entry rest task (fetch.attempt behaviour) := by
  have asked : Goes entry task { task with phase := .requesting rest fetch.transfer } := by
    apply goes_enter .proceed
    unfold Task.advance
    rw [polls]
    exact congrArg some (poll_live live _)
  refine Leads.step asked ?_
  cases behaviour with
  | refused message => exact leads_retry (.failed message) rfl
  | answered response => exact leads_respond live rfl response

theorem leads_start {partialSize : Option UInt64} (sizes : task.phase = .sizing rest (partialSize.getD 0))
    (headLength : Option UInt64) : Leads entry rest task (start partialSize headLength) := by
  have moved : forall move, task.size rest (partialSize.getD 0) (headLength.getD 0) = move ->
      task.advance entry (.length headLength) = some move := by
    intro move same
    unfold Task.advance
    rw [sizes, ← same]
  rw [start]
  split
  case isTrue complete =>
      have promotes : task.size rest (partialSize.getD 0) (headLength.getD 0) = task.enter (.promoting rest) := by
        rw [Task.size, if_pos complete]
      cases partialSize with
      | none => exact absurd (complete.2 ▸ complete.1) (by decide)
      | some size =>
          refine Leads.step (goes_enter _ _ (moved _ promotes)) ?_
          exact Leads.step ⟨.done, _, rfl, rfl⟩ ⟨_, .refl, rfl⟩
  case isFalse incomplete =>
      split
      case isTrue oversized =>
          have discards : task.size rest (partialSize.getD 0) (headLength.getD 0) =
              (task.discard (partialSize.getD 0)).enter (.polling rest ⟨0, headLength.getD 0, 0⟩) := by
            rw [Task.size, if_neg incomplete, if_pos oversized]
          exact Leads.step ⟨_, _, moved _ discards, rfl⟩ ⟨_, .refl, rfl⟩
      case isFalse small =>
          have continues : task.size rest (partialSize.getD 0) (headLength.getD 0) =
              task.enter (.polling rest ⟨partialSize.getD 0, headLength.getD 0, 0⟩) := by
            rw [Task.size, if_neg incomplete, if_neg small]
          exact Leads.step (goes_enter _ _ (moved _ continues)) ⟨_, .refl, rfl⟩

end Steps

/-! ## Runs of the loop -/

/-- What the loop has come to after any number of requests, the task can come to in steps of its
own, with the same counters. -/
theorem leads_downloadOneFile {entry : Entry} (live : entry.isCancelled = false) {rest : List Destination} {task : Task}
    {partialSize : Option UInt64} (sizes : task.phase = .sizing rest (partialSize.getD 0)) (server : Server)
    (headLength : Option UInt64) (count : Nat) :
    Leads entry rest task (downloadOneFile server partialSize headLength count) := by
  induction count with
  | zero => exact leads_start sizes headLength
  | succ count ih =>
      rw [downloadOneFile]
      rcases ih with ⟨next, steps, stands⟩
      cases reached : downloadOneFile server partialSize headLength count with
      | fetching fetch =>
          rw [reached] at stands
          exact Leads.steps steps (leads_attempt live stands _)
      | promoted size =>
          rw [reached] at stands
          exact ⟨next, steps, stands⟩
      | failed =>
          rw [reached] at stands
          exact ⟨next, steps, stands⟩

/-- A partial file of ten bytes, for which the server refuses two connections. -/
theorem leads_refused :
    Leads none [] ⟨[["model.gguf"]], false, 0, 0, .sizing [] 10⟩
      (.fetching ⟨⟨10, 20, 2⟩, some 10, 0⟩) :=
  @leads_downloadOneFile none rfl [] ⟨[["model.gguf"]], false, 0, 0, .sizing [] 10⟩ (some 10) rfl
    (fun _ _ => .refused "refused") (some 20) 2

end FileTransfer
end Downloads
end AIBuddy
