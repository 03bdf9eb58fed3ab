import AIBuddy.Downloads.FileTransfer

namespace AIBuddy
namespace Downloads
namespace FileTransfer

/-!
# Requests and sizes of a fetched file

Every request after the first follows a retry or a discarded partial file, and the bytes that
are counted are those on disk.  So a loop that discards its partial file at most once for a 416
sends at most two requests more than it has retries, and what it puts in place has the size of
the file.
-/

/-! ## One pass of the loop -/

/-- What holds of the loop before a request. -/
structure Steady (size : UInt64) (count : Nat) (fetch : Fetch) : Prop where
  counted : count = fetch.transfer.retries + fetch.discards
  few : fetch.transfer.retries ≤ maxRetries
  once : fetch.discards ≤ 1
  total : fetch.transfer.fileTotal = 0 ∨ fetch.transfer.fileTotal = size
  disk : fetch.transfer.fileBytes > 0 -> fetch.disk = some fetch.transfer.fileBytes

/-- What holds of a download after so many requests. -/
def Kept (size : UInt64) (count : Nat) : Download -> Prop
  | .fetching fetch => Steady size count fetch
  | .promoted placed => placed = size
  | .failed => True

/-- What a server says of one request is right for a file of the size. -/
structure Right (size offset : UInt64) (response : Response) : Prop where
  complete : response.status.isSuccess = true -> response.clean = true ->
    received (if response.status.code = 206 then offset else 0) response.chunks = size
  contentLength : forall {length : UInt64}, response.status.isSuccess = true ->
    (response.status.code = 206 -> offset = 0) -> response.contentLength = some length -> length = size
  rangeTotal : forall {length : UInt64}, response.status.isSuccess = true -> response.rangeTotal = some length ->
    length = size

section Pass

variable {size : UInt64} {count : Nat} {fetch : Fetch}

theorem zero_of_not_pos {bytes : UInt64} (none : ¬ bytes > 0) : bytes = 0 := by
  apply UInt64.toNat_inj.mp
  have small : ¬ 0 < bytes.toNat := fun positive => none (UInt64.lt_iff_toNat_lt.mpr positive)
  exact Nat.eq_zero_of_not_pos small

theorem not_zero_pos : ¬ (0 : UInt64) > 0 := by
  decide

theorem openPartial_eq (disk : Option UInt64) (fileBytes : UInt64) : Fetch.openPartial disk fileBytes = fileBytes := by
  rw [Fetch.openPartial]
  split
  case isTrue => rfl
  case isFalse same => exact Classical.not_not.mp same

/-- A retry is one more request, and gives up when there were too many. -/
theorem kept_retry (counted : count = fetch.transfer.retries + fetch.discards) (once : fetch.discards ≤ 1)
    (total : fetch.transfer.fileTotal = 0 ∨ fetch.transfer.fileTotal = size)
    (disk : fetch.transfer.fileBytes > 0 -> fetch.disk = some fetch.transfer.fileBytes) :
    Kept size (count + 1) fetch.retry := by
  rw [Fetch.retry]
  split
  case isTrue => trivial
  case isFalse left =>
      refine ⟨?_, Nat.succ_le_of_lt (Nat.lt_of_not_le left), once, total, disk⟩
      change count + 1 = fetch.transfer.retries + 1 + fetch.discards
      omega

theorem success_of_partial {status : HttpStatus} (bad : ¬ (¬ status.isSuccess = true ∧ status.code ≠ 206)) :
    status.isSuccess = true := by
  apply Classical.byContradiction
  intro failed
  apply bad
  refine ⟨failed, fun code => failed ?_⟩
  rw [HttpStatus.isSuccess, code]
  decide

theorem kept_stream {response : Response} (steady : Steady size count fetch)
    (success : response.status.isSuccess = true) {offset : UInt64} (right : Right size offset response)
    (fits : fetch.transfer.fileBytes = if response.status.code = 206 then offset else 0) :
    Kept size (count + 1) (fetch.stream response) := by
  have total : Fetch.learnTotal fetch.transfer response = 0 ∨ Fetch.learnTotal fetch.transfer response = size := by
    rw [Fetch.learnTotal]
    split
    case isFalse known => exact Or.inr (steady.total.resolve_left known)
    case isTrue =>
        split
        case isTrue =>
            cases named : response.rangeTotal with
            | none => exact Or.inl rfl
            | some length => exact Or.inr (right.rangeTotal success named)
        case isFalse empty =>
            cases named : response.contentLength with
            | none => exact Or.inl rfl
            | some length =>
                refine Or.inr (right.contentLength success (fun code => ?_) named)
                rw [if_pos code] at fits
                rw [← fits]
                exact zero_of_not_pos empty
  rw [Fetch.stream, openPartial_eq]
  split
  case isTrue clean =>
      have complete := right.complete success clean
      rw [← fits] at complete
      exact complete
  case isFalse => exact kept_retry steady.counted steady.once total fun _ => rfl

/-- One pass of the loop. -/
theorem kept_attempt (steady : Steady size count fetch) {behaviour : Behaviour}
    (right : forall response, behaviour = .answered response -> Right size fetch.transfer.fileBytes response)
    (orderly : Orderly fetch behaviour) : Kept size (count + 1) (fetch.attempt behaviour) := by
  cases behaviour with
  | refused message => exact kept_retry steady.counted steady.once steady.total steady.disk
  | answered response =>
      have own := right response rfl
      rw [Fetch.attempt]
      split
      case isTrue unsatisfiable =>
          split
          case isTrue complete =>
              have placed := steady.disk (complete.2 ▸ complete.1)
              have size_eq := steady.total.resolve_left fun empty => absurd (empty ▸ complete.1) (by decide)
              rw [Fetch.promote, placed]
              exact complete.2.trans size_eq
          case isFalse incomplete =>
              have first := (orderly.1 unsatisfiable).resolve_right incomplete
              have counted := steady.counted
              refine ⟨?_, steady.few, ?_, steady.total, fun positive => absurd positive not_zero_pos⟩
              · change count + 1 = fetch.transfer.retries + (fetch.discards + 1)
                omega
              · change fetch.discards + 1 ≤ 1
                omega
      case isFalse =>
          split
          case isTrue =>
              split
              case isTrue => exact kept_retry steady.counted steady.once steady.total steady.disk
              case isFalse => trivial
          case isFalse good =>
              have success := success_of_partial good
              split
              case isTrue whole =>
                  have restarted : Steady size count fetch.ignoreRange :=
                    ⟨steady.counted, steady.few, steady.once, steady.total, fun positive => absurd positive not_zero_pos⟩
                  refine kept_stream restarted success own ?_
                  rw [if_neg (by rw [whole.2]; decide)]
                  rfl
              case isFalse rest =>
                  refine kept_stream steady success own ?_
                  split
                  case isTrue => rfl
                  case isFalse other =>
                      apply zero_of_not_pos
                      intro positive
                      rcases orderly.2 success positive with code | code
                      · exact rest ⟨positive, code⟩
                      · exact other code

end Pass

/-! ## The whole loop -/

section Run

variable {server : Server} {size : UInt64} {partialSize headLength : Option UInt64}

theorem kept_start (truthful : forall length, headLength = some length -> length = 0 ∨ length = size) :
    Kept size 0 (start partialSize headLength) := by
  have total : headLength.getD 0 = 0 ∨ headLength.getD 0 = size := by
    cases headLength with
    | none => exact Or.inl rfl
    | some length => exact truthful length rfl
  have onDisk : partialSize.getD 0 > 0 -> partialSize = some (partialSize.getD 0) := by
    intro positive
    cases partialSize with
    | none => exact absurd positive (by decide)
    | some bytes => rfl
  rw [start]
  split
  case isTrue complete =>
      have placed := onDisk (complete.2 ▸ complete.1)
      have same := total.resolve_left fun empty => absurd (empty ▸ complete.1) (by decide)
      rw [Fetch.promote]
      rw [placed]
      exact complete.2.trans same
  case isFalse =>
      split
      case isTrue => exact ⟨rfl, Nat.zero_le _, Nat.zero_le _, total, fun positive => absurd positive not_zero_pos⟩
      case isFalse => exact ⟨rfl, Nat.zero_le _, Nat.zero_le _, total, onDisk⟩

/-- A download from a server of the file, whose answers all come in order, is over after two
requests more than there are retries, and what it puts in place has the size of the file. -/
theorem downloadOneFile_bounded (serves : Serves server size)
    (truthful : forall length, headLength = some length -> length = 0 ∨ length = size)
    (orderly : forall count fetch, downloadOneFile server partialSize headLength count = .fetching fetch ->
      Orderly fetch (server count fetch.transfer.fileBytes)) :
    (forall fetch, downloadOneFile server partialSize headLength (maxRetries + 2) ≠ .fetching fetch) ∧
      forall count placed, downloadOneFile server partialSize headLength count = .promoted placed -> placed = size := by
  have kept : forall count, Kept size count (downloadOneFile server partialSize headLength count) := by
    intro count
    induction count with
    | zero => exact kept_start truthful
    | succ count ih =>
        rw [downloadOneFile]
        cases reached : downloadOneFile server partialSize headLength count with
        | promoted placed =>
            rw [reached] at ih
            exact ih
        | failed => trivial
        | fetching fetch =>
            rw [reached] at ih
            refine kept_attempt ih (fun response answered => ?_) (orderly count fetch reached)
            exact ⟨serves.complete answered, serves.contentLength answered, serves.rangeTotal answered⟩
  constructor
  · intro fetch reached
    have steady := kept (maxRetries + 2)
    rw [reached] at steady
    have counted := steady.counted
    have few := steady.few
    have once := steady.once
    omega
  · intro count placed reached
    have same := kept count
    rw [reached] at same
    exact same

end Run

/-! ## Two servers -/

/-- A server that refuses the first range and then sends the whole file of five bytes. -/
def forgetful : Server := fun count _ =>
  if count = 0 then .answered ⟨⟨416, "416 Range Not Satisfiable"⟩, none, none, [], true⟩
  else .answered ⟨⟨200, "200 OK"⟩, some 5, none, [2, 3], true⟩

theorem forgetful_bounded :
    downloadOneFile forgetful (some 3) none 2 = .promoted 5 ∧
      forall fetch, downloadOneFile forgetful (some 3) none (maxRetries + 2) ≠ .fetching fetch := by
  have answers : forall {count : Nat} {offset : UInt64} {response : Response},
      forgetful count offset = .answered response ->
      (count = 0 ∧ response = ⟨⟨416, "416 Range Not Satisfiable"⟩, none, none, [], true⟩) ∨
        response = ⟨⟨200, "200 OK"⟩, some 5, none, [2, 3], true⟩ := by
    intro count offset response same
    rw [forgetful] at same
    split at same
    case isTrue first =>
        cases same
        exact Or.inl ⟨first, rfl⟩
    case isFalse =>
        cases same
        exact Or.inr rfl
  have serves : Serves forgetful 5 := by
    refine ⟨fun same success clean => ?_, fun same success whole named => ?_, fun same success named => ?_⟩
    · rcases answers same with ⟨-, rfl⟩ | rfl
      · contradiction
      · rw [if_neg (by decide)]
        rfl
    · rcases answers same with ⟨-, rfl⟩ | rfl
      · contradiction
      · cases named
        rfl
    · rcases answers same with ⟨-, rfl⟩ | rfl
      · contradiction
      · contradiction
  refine ⟨by decide, (downloadOneFile_bounded serves (fun length named => by cases named) ?_).1⟩
  intro count fetch reached
  cases count with
  | zero =>
      cases reached
      exact ⟨fun _ => Or.inl rfl, fun success => absurd success (by decide)⟩
  | succ count =>
      have answer : forgetful (count + 1) fetch.transfer.fileBytes =
          .answered ⟨⟨200, "200 OK"⟩, some 5, none, [2, 3], true⟩ := by
        rw [forgetful, if_neg (Nat.succ_ne_zero count)]
      rw [answer]
      exact ⟨fun code => absurd code (by decide), fun _ _ => Or.inl rfl⟩

/-- A server that answers every request with 416 is asked again and again. -/
theorem stubborn_unbounded :
    ¬ forall (server : Server) (size : UInt64) (partialSize headLength : Option UInt64), Serves server size ->
      (forall length, headLength = some length -> length = 0 ∨ length = size) ->
      (forall fetch, downloadOneFile server partialSize headLength (maxRetries + 2) ≠ .fetching fetch) ∧
        forall count placed, downloadOneFile server partialSize headLength count = .promoted placed -> placed = size := by
  intro always
  have refusal : forall {response : Response},
      Behaviour.answered ⟨⟨416, ""⟩, none, none, [], true⟩ = .answered response -> ¬ response.status.isSuccess = true := by
    intro response same
    cases same
    decide
  have bounded := always (fun _ _ => .answered ⟨⟨416, ""⟩, none, none, [], true⟩) 0 none none
    ⟨fun same success => absurd success (refusal same), fun same success => absurd success (refusal same),
      fun same success => absurd success (refusal same)⟩ (fun length named => by cases named)
  exact bounded.1 ⟨⟨0, 0, 0⟩, none, 12⟩ (by decide)

end FileTransfer
end Downloads
end AIBuddy
