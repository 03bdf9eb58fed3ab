import AIBuddy.Downloads.DownloadTask

namespace AIBuddy
namespace Downloads
namespace FileTransfer

/-!
# Fetching one file

The loop that fetches one file sends a request and does with the answer what its status says,
until the file is in place or the loop gives up.  Here an answer of the server is one input, with
the whole body that comes with it, and the partial file on disk is kept beside the counters of
the loop.  Each pass of this loop is a run of steps of the background task.

A request that is answered with 416 is sent again from the start of the file, and that is not
counted as a retry.
-/

/-! ## Answers of a server -/

/-- A response: its status, its length and the total of its range when it names them, and the
chunks of its body up to its end or to where it breaks off. -/
structure Response where
  status : HttpStatus
  contentLength : Option UInt64
  rangeTotal : Option UInt64
  chunks : List UInt64
  clean : Bool

/-- What becomes of a request. -/
inductive Behaviour where
  | refused (message : String)
  | answered (response : Response)

/-- The number of bytes after some chunks. -/
def received (start : UInt64) (chunks : List UInt64) : UInt64 :=
  chunks.foldl (fun total length => total + length) start

/-! ## The loop -/

/-- The counters of the loop, the size of the partial file, and how often it was discarded for a
416. -/
structure Fetch where
  transfer : Transfer
  disk : Option UInt64
  discards : Nat
deriving DecidableEq

/-- A download that goes on, or one that is over: the size of the file in place, or an error. -/
inductive Download where
  | fetching (fetch : Fetch)
  | promoted (size : UInt64)
  | failed
deriving DecidableEq

namespace Fetch

/-- Try again, unless that was done too often. -/
def retry (fetch : Fetch) : Download :=
  if fetch.transfer.retries ≥ maxRetries then .failed
  else .fetching { fetch with transfer := { fetch.transfer with retries := fetch.transfer.retries + 1 } }

/-- The partial file is renamed. -/
def promote (fetch : Fetch) : Download :=
  match fetch.disk with
  | some size => .promoted size
  | none => .failed

/-- Start again from the beginning of the file. -/
def restart (fetch : Fetch) : Download :=
  .fetching ⟨{ fetch.transfer with fileBytes := 0 }, none, fetch.discards + 1⟩

/-- The total of a file that was not known before. -/
def learnTotal (transfer : Transfer) (response : Response) : UInt64 :=
  if transfer.fileTotal = 0 then
    (if transfer.fileBytes > 0 then response.rangeTotal else response.contentLength).getD 0
  else transfer.fileTotal

/-- The partial file is opened, and cut or filled to the bytes that are counted. -/
def openPartial (disk : Option UInt64) (fileBytes : UInt64) : UInt64 :=
  if disk.getD 0 ≠ fileBytes then fileBytes else disk.getD 0

/-- Take the body of a response, behind the bytes that are counted. -/
def stream (fetch : Fetch) (response : Response) : Download :=
  let next : Fetch :=
    { fetch with
      transfer := { fetch.transfer with
        fileBytes := received fetch.transfer.fileBytes response.chunks
        fileTotal := learnTotal fetch.transfer response }
      disk := some (received (openPartial fetch.disk fetch.transfer.fileBytes) response.chunks) }
  if response.clean then next.promote else next.retry

/-- The server sends the whole file where the rest of it was asked for. -/
def ignoreRange (fetch : Fetch) : Fetch :=
  ⟨{ fetch.transfer with fileBytes := 0 }, none, fetch.discards⟩

/-- One pass of the loop. -/
def attempt (fetch : Fetch) : Behaviour -> Download
  | .refused _ => fetch.retry
  | .answered response =>
      if response.status.code = 416 then
        if fetch.transfer.fileTotal > 0 ∧ fetch.transfer.fileBytes = fetch.transfer.fileTotal then fetch.promote
        else fetch.restart
      else if ¬response.status.isSuccess ∧ response.status.code ≠ 206 then
        if response.status.isTransient then fetch.retry else .failed
      else if fetch.transfer.fileBytes > 0 ∧ response.status.code = 200 then fetch.ignoreRange.stream response
      else fetch.stream response

end Fetch

/-- The start of a download, with the size of a partial file and what a HEAD request said of the
length. -/
def start (partialSize headLength : Option UInt64) : Download :=
  let fileBytes := partialSize.getD 0
  let fileTotal := headLength.getD 0
  if fileTotal > 0 ∧ fileBytes = fileTotal then Fetch.promote ⟨⟨fileBytes, fileTotal, 0⟩, partialSize, 0⟩
  else if fileTotal > 0 ∧ fileBytes > fileTotal then .fetching ⟨⟨0, fileTotal, 0⟩, none, 0⟩
  else .fetching ⟨⟨fileBytes, fileTotal, 0⟩, partialSize, 0⟩

/-- A server says what becomes of each request, given the offset that is asked for. -/
abbrev Server := Nat -> UInt64 -> Behaviour

/-- The download after so many requests. -/
def downloadOneFile (server : Server) (partialSize headLength : Option UInt64) : Nat -> Download
  | 0 => start partialSize headLength
  | count + 1 =>
      match downloadOneFile server partialSize headLength count with
      | .fetching fetch => fetch.attempt (server count fetch.transfer.fileBytes)
      | ended => ended

/-! ## Servers of one file -/

/-- A server of a file of one size: a successful body that ends cleanly has all of the file from
the offset that a partial response was asked for, and lengths that are named are right. -/
structure Serves (server : Server) (size : UInt64) : Prop where
  complete : forall {count : Nat} {offset : UInt64} {response : Response},
    server count offset = .answered response -> response.status.isSuccess = true -> response.clean = true ->
    received (if response.status.code = 206 then offset else 0) response.chunks = size
  contentLength : forall {count : Nat} {offset : UInt64} {response : Response} {length : UInt64},
    server count offset = .answered response -> response.status.isSuccess = true ->
    (response.status.code = 206 -> offset = 0) -> response.contentLength = some length -> length = size
  rangeTotal : forall {count : Nat} {offset : UInt64} {response : Response} {length : UInt64},
    server count offset = .answered response -> response.status.isSuccess = true ->
    response.rangeTotal = some length -> length = size

/-- What the loop needs of one answer: at most one 416 comes before the file is complete, and
the rest of a file comes with 206, or the whole of it with 200. -/
def Orderly (fetch : Fetch) : Behaviour -> Prop
  | .refused _ => True
  | .answered response =>
      (response.status.code = 416 ->
        fetch.discards = 0 ∨ (fetch.transfer.fileTotal > 0 ∧ fetch.transfer.fileBytes = fetch.transfer.fileTotal)) ∧
      (response.status.isSuccess = true -> fetch.transfer.fileBytes > 0 ->
        response.status.code = 200 ∨ response.status.code = 206)

end FileTransfer
end Downloads
end AIBuddy
