import AIBuddy.Support.Json
import AIBuddy.Support.Runs
import Mathlib.Data.List.Basic

namespace AIBuddy
namespace Elicitation

/-!
# Elicitations

A tool asks the user by way of a request and waits for the answer until a timeout.  The
request is kept behind a lock, with the sending end of a channel whose receiving end the
waiter holds.  A response is claimed first, which keeps the lock, and then either
submitted or dropped.  A submit takes the sender, lets go of the lock, and sends.

Every waiter and every responder is a task, and each may pause wherever its code waits
or changes what others see.
-/

inductive ElicitationOutcome where
  | accept (value : Json)
  | decline
  | cancel
deriving DecidableEq

/-- Where the sending end of the channel is: in the pending request, with the responder
that took it, used up, or dropped. -/
inductive Sender where
  | inPlace
  | taken (responder : Nat)
  | sent (responder : Nat) (outcome : ElicitationOutcome)
  | dropped
deriving DecidableEq

/-- Who holds the lock of a pending request. -/
inductive Holder where
  | waiter
  | responder (index : Nat)
deriving DecidableEq

/-- Where a call of `request_and_wait` stands. -/
inductive WaitPhase where
  | started
  | found
  | registered
  | refused (reason : String)
  | waiting
  | elapsed
  | locked
  | draining
  | answered (result : Except String ElicitationOutcome)
  | returned (result : Except String ElicitationOutcome)
  | abandoned

/-- A request, from the call of its waiter on.  It is pending while it is registered, and
its id is known to others once it has been announced. -/
structure Request where
  id : String
  sessionId : String
  toolCallRequestId : String
  sender : Sender
  lock : Option Holder
  pending : Bool
  announced : Bool
  phase : WaitPhase

/-- Where a response stands, from its claim on. -/
inductive ResponsePhase where
  | asked
  | queued
  | locked
  | claimed
  | sending (outcome : ElicitationOutcome)
  | submitted (outcome : ElicitationOutcome)
  | failed (error : String)
  | dropped
deriving DecidableEq

/-- A response of a session to a request, or to an id that nobody has. -/
structure Response where
  sessionId : String
  requestId : String
  target : Option Nat
  phase : ResponsePhase

/-- The requests and the responses, in the order in which they began. -/
structure Manager where
  requests : List Request
  responses : List Response

inductive WaitStep where
  | findStream (registered : Bool)
  | register
  | announce (refusal : Option String)
  | withdraw
  | receive
  | elapse
  | lock
  | decide
  | drain
  | unregister
  | abandon
deriving DecidableEq

inductive ResponseStep where
  | lookUp
  | lock
  | inspect
  | submit (outcome : ElicitationOutcome)
  | send
  | drop
deriving DecidableEq

inductive Step where
  | request (id sessionId toolCallRequestId : String)
  | claim (sessionId : String) (target : Nat)
  | claimUnknown (sessionId requestId : String)
  | waiter (index : Nat) (step : WaitStep)
  | responder (index : Nat) (step : ResponseStep)
deriving DecidableEq

/-! ## Waiting -/

/-- What the receiving end has to say, if anything. -/
def Request.received (request : Request) : Option (Except String ElicitationOutcome) :=
  match request.sender with
  | .sent _ outcome => some (.ok outcome)
  | .dropped => some (.error "Response channel closed")
  | _ => none

/-- Whether the waiter still holds the receiving end. -/
def Request.receiverAlive (request : Request) : Bool :=
  match request.phase with
  | .answered _ | .returned _ | .abandoned => false
  | _ => true

/-- The waiter goes on.  It can be dropped wherever it waits.  The timer only counts when
nothing has been received. -/
def Request.advance (request : Request) (step : WaitStep) : Option Request :=
  match step, request.phase with
  | .findStream true, .started => some { request with phase := .found }
  | .findStream false, .started => some { request with
      phase := .returned (.error ("Tool call request not found for elicitation: " ++ request.toolCallRequestId)) }
  | .register, .found => some { request with phase := .registered, pending := true }
  | .announce none, .registered => some { request with phase := .waiting, announced := true }
  | .announce (some reason), .registered => some { request with phase := .refused reason }
  | .withdraw, .refused reason => some { request with
      pending := false
      phase := .returned (.error ("Tool call action-required " ++ reason ++ ": " ++ request.toolCallRequestId)) }
  | .receive, .waiting => request.received.map fun result => { request with phase := .answered result }
  | .elapse, .waiting => if request.received.isNone then some { request with phase := .elapsed } else none
  | .lock, .elapsed =>
      if request.lock = none then some { request with phase := .locked, lock := some .waiter } else none
  | .decide, .locked =>
      if request.sender = .inPlace then some { request with
        sender := .dropped
        lock := none
        phase := .answered (.error "Timeout waiting for user response") }
      else some { request with lock := none, phase := .draining }
  | .drain, .draining => request.received.map fun result => { request with phase := .answered result }
  | .unregister, .answered result => some { request with phase := .returned result, pending := false }
  | .abandon, .started | .abandon, .found | .abandon, .refused _ | .abandon, .waiting | .abandon, .elapsed
  | .abandon, .draining | .abandon, .answered _ => some { request with phase := .abandoned }
  | _, _ => none

/-! ## Responding -/

/-- A responder that holds the lock looks at the pending request. -/
def inspect (request : Request) (response : Response) : Request × ResponsePhase :=
  if request.sessionId ≠ response.sessionId then
    ({ request with lock := none },
      .failed ("Request " ++ response.requestId ++ " belongs to session " ++ request.sessionId ++ ", not " ++
        response.sessionId))
  else if request.sender ≠ .inPlace then
    ({ request with lock := none }, .failed ("Request already completed: " ++ response.requestId))
  else if !request.receiverAlive then
    ({ request with lock := none, sender := .dropped }, .failed "Response channel closed")
  else (request, .claimed)

/-- A responder goes on with the request that it is about. -/
def Response.advance (response : Response) (index : Nat) (request : Request) (step : ResponseStep) :
    Option (Request × ResponsePhase) :=
  match step, response.phase with
  | .lookUp, .asked =>
      if request.pending then some (request, .queued)
      else some (request, .failed ("Request not found: " ++ response.requestId))
  | .lock, .queued =>
      if request.lock = none then some ({ request with lock := some (.responder index) }, .locked) else none
  | .inspect, .locked => some (inspect request response)
  | .submit outcome, .claimed => some ({ request with sender := .taken index, lock := none }, .sending outcome)
  | .send, .sending outcome =>
      if request.receiverAlive then some ({ request with sender := .sent index outcome }, .submitted outcome)
      else some ({ request with sender := .dropped }, .failed "Response channel closed")
  | .drop, .asked | .drop, .queued => some (request, .dropped)
  | .drop, .claimed => some ({ request with lock := none }, .dropped)
  | _, _ => none

namespace Manager

/-- A step of the manager.  The id of a request is only known from the message that
announces it. -/
def advance (step : Step) (manager : Manager) : Except Unit Manager :=
  match step with
  | .request id sessionId toolCallRequestId => .ok { manager with
      requests := manager.requests ++ [⟨id, sessionId, toolCallRequestId, .inPlace, none, false, false, .started⟩] }
  | .claim sessionId target =>
      match manager.requests[target]? with
      | some request =>
          if request.announced then .ok { manager with
            responses := manager.responses ++ [⟨sessionId, request.id, some target, .asked⟩] }
          else .error ()
      | none => .error ()
  | .claimUnknown sessionId requestId => .ok { manager with
      responses := manager.responses ++ [⟨sessionId, requestId, none, .failed ("Request not found: " ++ requestId)⟩] }
  | .waiter index step =>
      match manager.requests[index]? with
      | some request =>
          match request.advance step with
          | some next => .ok { manager with requests := manager.requests.set index next }
          | none => .error ()
      | none => .error ()
  | .responder index step =>
      match manager.responses[index]? with
      | some response =>
          match response.target.bind fun target => manager.requests[target]? with
          | some request =>
              match response.advance index request step with
              | some (next, phase) => .ok {
                  requests := manager.requests.set (response.target.getD 0) next
                  responses := manager.responses.set index { response with phase := phase } }
              | none => .error ()
          | none => .error ()
      | none => .error ()

/-- A manager before the first request. -/
def fresh : Manager := ⟨[], []⟩

end Manager
end Elicitation
end AIBuddy
