import AIBuddy.Support.Runs
import AIBuddy.Support.Tasks
import AIBuddy.Support.Text

namespace AIBuddy
namespace Gateway

/-!
# Tool confirmations of a gateway user

A turn of the user prompts for the tools that need an approval and queues their requests.
While there is an entry for the user, messages are replies: a decision is submitted for the
request at the front, which leaves the queue when the agent has taken it.  A prompt that
cannot be delivered is denied by the turn itself.

The turn and every reply are tasks, and each may pause wherever it lets go of the entries.
-/

inductive Permission where
  | allowOnce
  | alwaysAllow
  | denyOnce
  | alwaysDeny
deriving DecidableEq

/-- A request that was prompted for.  Its number tells requests with one id apart. -/
structure PendingRequest where
  id : String
  number : Nat
deriving DecidableEq

/-- Where the running turn stands. -/
inductive TurnPhase where
  | listening
  | prompting (request : PendingRequest)
  | denying (request : PendingRequest)
  | abandoning
deriving DecidableEq

/-- Where a reply that was recognised as a decision stands.  One that finds no request is
unused, whatever was waiting then. -/
inductive ReplyPhase where
  | recognised
  | locked
  | picked (request : PendingRequest)
  | submitted (request : PendingRequest)
  | refused (request : PendingRequest)
  | returned (request : PendingRequest)
  | unused (waiting : List PendingRequest) (cancelled : Bool)
deriving DecidableEq

structure Reply where
  permission : Permission
  phase : ReplyPhase
deriving DecidableEq

/-- An answer that the agent was given, with the requests that waited then if it comes from a
reply. -/
structure Submission where
  request : PendingRequest
  permission : Permission
  waiting : Option (List PendingRequest)
deriving DecidableEq

/-- What the handler keeps for one user.  Besides the entry of the pending confirmations there
are the turn, whether its token is cancelled, the messages that wait for the turn lock, and the
replies with the one that holds the reply lock.  The rest is there to be talked about: the
requests of the turn that wait for an answer, the latest last, and all submissions, the latest
first. -/
structure UserState where
  pending : Option (List PendingRequest)
  turn : Option TurnPhase
  cancelled : Bool
  queued : Nat
  replies : List Reply
  replyLock : Option Nat
  prompted : Nat
  waiting : List PendingRequest
  submissions : List Submission
deriving DecidableEq

inductive ReplyStep where
  | lock
  | pick
  | submit (accepted : Bool)
  | settle
deriving DecidableEq

inductive TurnStep where
  | begin
  | prompt (id : String)
  | delivered
  | undelivered
  | deny (accepted : Bool)
  | abandon
  | finish
deriving DecidableEq

inductive UserStep where
  | message (text : String)
  | turn (step : TurnStep)
  | reply (index : Nat) (step : ReplyStep)
deriving DecidableEq

/-- The decision that a text says. -/
def permissionOf (toLowercase : String -> String) (text : String) : Option Permission :=
  let text := toLowercase (Text.trim text)
  if text = "approve" ∨ text = "yes" ∨ text = "y" then some .allowOnce
  else if text = "approve always" then some .alwaysAllow
  else if text = "deny" ∨ text = "no" ∨ text = "n" then some .denyOnce
  else if text = "deny always" then some .alwaysDeny
  else none

namespace UserState

/-! ## Messages -/

/-- A message of a paired user.  A text that is no decision is only answered with a hint. -/
def handleMessage (toLowercase : String -> String) (text : String) (user : UserState) : UserState :=
  if user.pending.isSome then
    match permissionOf toLowercase text with
    | some permission => { user with replies := user.replies ++ [⟨permission, .recognised⟩] }
    | none => user
  else { user with queued := user.queued + 1 }

/-! ## The turn -/

/-- The entry without the requests of an id, if any are left. -/
def retainOthers (id : String) (pending : Option (List PendingRequest)) : Option (List PendingRequest) :=
  match pending with
  | some requests =>
      let others := requests.filter fun request => request.id ≠ id
      if others.isEmpty then none else some others
  | none => none

/-- A step of `relay_to_session`.  Events of the stream that need no approval change nothing
here, and a turn may end wherever it listens to the stream. -/
def advanceTurn (user : UserState) : TurnStep -> Except Unit UserState
  | .begin =>
      match user.turn, user.queued with
      | none, queued + 1 =>
          .ok { user with turn := some .listening, cancelled := false, queued := queued }
      | _, _ => .error ()
  | .prompt id =>
      match user.turn with
      | some .listening =>
          let request : PendingRequest := ⟨id, user.prompted⟩
          .ok { user with
            pending := some (user.pending.getD [] ++ [request])
            turn := some (.prompting request)
            prompted := user.prompted + 1
            waiting := user.waiting ++ [request] }
      | _ => .error ()
  | .delivered =>
      match user.turn with
      | some (.prompting _) => .ok { user with turn := some .listening }
      | _ => .error ()
  | .undelivered =>
      match user.turn with
      | some (.prompting request) => .ok { user with
          pending := retainOthers request.id user.pending
          turn := some (.denying request)
          waiting := user.waiting.filter fun other => other ≠ request }
      | _ => .error ()
  | .deny accepted =>
      match user.turn with
      | some (.denying request) => .ok { user with
          turn := some (if accepted then .listening else .abandoning)
          cancelled := user.cancelled || !accepted
          submissions := ⟨request, .denyOnce, none⟩ :: user.submissions }
      | _ => .error ()
  | .abandon =>
      match user.turn with
      | some .abandoning => .ok { user with pending := none, turn := some .listening }
      | _ => .error ()
  | .finish =>
      match user.turn with
      | some .listening => .ok { user with turn := none, waiting := [] }
      | _ => .error ()

/-! ## Replies -/

/-- The entry after its first request was answered. -/
def popAnswered (id : String) (pending : Option (List PendingRequest)) : Option (List PendingRequest) :=
  match pending with
  | some [] => none
  | some (front :: rest) =>
      if front.id = id then (if rest.isEmpty then none else some rest) else some (front :: rest)
  | none => none

/-- A step of `handle_pending_confirmation`, from the reply lock on. -/
def advanceReply (user : UserState) (index : Nat) (step : ReplyStep) : Except Unit UserState :=
  match user.replies[index]? with
  | none => .error ()
  | some reply =>
      match step, reply.phase with
      | .lock, .recognised =>
          if user.replyLock.isNone then
            .ok { user with
              replies := user.replies.set index { reply with phase := .locked }
              replyLock := some index }
          else .error ()
      | .pick, .locked =>
          match user.pending with
          | some (front :: _) => .ok { user with
              replies := user.replies.set index { reply with phase := .picked front } }
          | _ => .ok { user with
              replies := user.replies.set index { reply with phase := .unused user.waiting user.cancelled }
              replyLock := none }
      | .submit accepted, .picked request => .ok { user with
          cancelled := user.cancelled || !accepted
          replies := user.replies.set index
            { reply with phase := if accepted then .submitted request else .refused request }
          waiting := user.waiting.filter fun other => other ≠ request
          submissions := ⟨request, reply.permission, some user.waiting⟩ :: user.submissions }
      | .settle, .submitted request => .ok { user with
          pending := popAnswered request.id user.pending
          replies := user.replies.set index { reply with phase := .returned request }
          replyLock := none }
      | .settle, .refused request => .ok { user with
          pending := none
          replies := user.replies.set index { reply with phase := .returned request }
          replyLock := none }
      | _, _ => .error ()

def advance (toLowercase : String -> String) (step : UserStep) (user : UserState) : Except Unit UserState :=
  match step with
  | .message text => .ok (user.handleMessage toLowercase text)
  | .turn step => user.advanceTurn step
  | .reply index step => user.advanceReply index step

/-- A user of whom nothing is under way. -/
def start : UserState where
  pending := none
  turn := none
  cancelled := false
  queued := 0
  replies := []
  replyLock := none
  prompted := 0
  waiting := []
  submissions := []

end UserState
end Gateway
end AIBuddy
