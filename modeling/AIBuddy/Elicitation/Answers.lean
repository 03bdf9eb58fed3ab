import AIBuddy.Elicitation.ActionRequired

namespace AIBuddy
namespace Elicitation

/-!
# One answer for each request

The sending end of a channel is in one place at any time, and the lock decides between
the waiter whose time is up and the responder that has claimed the response.  So at most
one response is submitted, the waiter returns what was submitted, and it returns an error
when nothing was.
-/

/-! ## Where things are -/

/-- A response to a request is in one of some phases. -/
def Responding (responses : List Response) (target responder : Nat) (phases : ResponsePhase -> Prop) : Prop :=
  Exists fun response => responses[responder]? = some response ∧ response.target = some target ∧ phases response.phase

/-- What a waiter has been given in the end. -/
def Request.result (request : Request) : Option (Except String ElicitationOutcome) :=
  match request.phase with
  | .answered result => some result
  | .returned result => some result
  | _ => none

/-- Whether the message with the id is still to be sent. -/
def Request.unsent (request : Request) : Bool :=
  match request.phase with
  | .started | .found | .registered | .refused _ => true
  | _ => false

/-- The lock and the sending end of a request are where its waiter and its responders take
them to be. -/
structure RequestSound (responses : List Response) (index : Nat) (request : Request) : Prop where
  waiterLocks : request.phase = .locked ↔ request.lock = some .waiter
  responderLocks : forall responder, request.lock = some (.responder responder) ->
    Responding responses index responder fun phase => phase = .locked ∨ phase = .claimed
  senderTaken : forall responder, request.sender = .taken responder ->
    Responding responses index responder fun phase => Exists fun outcome => phase = .sending outcome
  senderUsed : forall responder outcome, request.sender = .sent responder outcome ->
    Responding responses index responder fun phase => phase = .submitted outcome
  succeeded : forall outcome, request.result = some (.ok outcome) ->
    Exists fun responder => request.sender = .sent responder outcome
  failed : forall error, request.result = some (.error error) -> request.sender = .dropped ∨ request.announced = false
  unknown : request.unsent = true -> request.announced = false
  drains : request.phase = .draining -> request.sender ≠ .inPlace

/-- What a responder has is what its phase says. -/
structure ResponseSound (request : Request) (responder : Nat) (response : Response) : Prop where
  announced : request.announced = true
  locks : response.phase = .locked ∨ response.phase = .claimed -> request.lock = some (.responder responder)
  claims : response.phase = .claimed -> request.sender = .inPlace ∧ request.sessionId = response.sessionId
  sends : forall outcome, response.phase = .sending outcome ->
    request.sender = .taken responder ∧ request.sessionId = response.sessionId
  submits : forall outcome, response.phase = .submitted outcome ->
    request.sender = .sent responder outcome ∧ request.sessionId = response.sessionId

/-- What holds of the manager between any two steps. -/
structure Manager.Sound (manager : Manager) : Prop where
  requests : forall index request, manager.requests[index]? = some request ->
    RequestSound manager.responses index request
  responses : forall responder response target, manager.responses[responder]? = some response ->
    response.target = some target -> Exists fun request => manager.requests[target]? = some request ∧
      ResponseSound request responder response

/-! ## The waiter -/

theorem ResponseSound.of_same {request next : Request} {responder : Nat} {response : Response}
    (sound : ResponseSound request responder response) (session : next.sessionId = request.sessionId)
    (announced : next.announced = request.announced ∨ next.announced = true) (lock : next.lock = request.lock)
    (sender : next.sender = request.sender) : ResponseSound next responder response where
  announced := by
    rcases announced with same | shown
    · rw [same]
      exact sound.announced
    · exact shown
  locks phase := by
    rw [lock]
    exact sound.locks phase
  claims phase := by
    rw [sender, session]
    exact sound.claims phase
  sends outcome phase := by
    rw [sender, session]
    exact sound.sends outcome phase
  submits outcome phase := by
    rw [sender, session]
    exact sound.submits outcome phase

theorem received_eq_some {request : Request} {result : Except String ElicitationOutcome}
    (received : request.received = some result) :
    (Exists fun responder => Exists fun outcome => request.sender = .sent responder outcome ∧ result = .ok outcome) ∨
      (request.sender = .dropped ∧ Exists fun error => result = .error error) := by
  unfold Request.received at received
  split at received
  case h_1 responder outcome sent => exact Or.inl ⟨responder, outcome, sent, (Option.some.inj received).symm⟩
  case h_2 dropped => exact Or.inr ⟨dropped, _, (Option.some.inj received).symm⟩
  case h_3 => contradiction

/-- A waiter that is given what was received is right about it. -/
theorem RequestSound.answer {responses : List Response} {index : Nat} {request : Request}
    (sound : RequestSound responses index request) (unlocked : request.phase ≠ .locked)
    {result : Except String ElicitationOutcome} (received : request.received = some result) :
    RequestSound responses index { request with phase := .answered result } where
  waiterLocks := ⟨fun phase => (by cases phase), fun lock => absurd (sound.waiterLocks.mpr lock) unlocked⟩
  responderLocks := sound.responderLocks
  senderTaken := sound.senderTaken
  senderUsed := sound.senderUsed
  succeeded outcome given := by
    have same := Option.some.inj given
    rcases received_eq_some received with ⟨responder, sent, used, isOk⟩ | ⟨_, error, isError⟩
    · rw [isOk] at same
      cases same
      exact ⟨responder, used⟩
    · rw [isError] at same
      cases same
  failed error given := by
    have same := Option.some.inj given
    rcases received_eq_some received with ⟨responder, sent, used, isOk⟩ | ⟨dropped, _⟩
    · rw [isOk] at same
      cases same
    · exact Or.inl dropped
  unknown unsent := by cases unsent
  drains phase := by cases phase

theorem RequestSound.wait {responses : List Response} {index : Nat} {request : Request}
    (sound : RequestSound responses index request) (unlocked : request.phase ≠ .locked) {phase : WaitPhase}
    {pending announced : Bool} (notLocked : phase ≠ .locked)
    (unanswered : { request with phase := phase }.result = none)
    (unknown : { request with phase := phase }.unsent = true -> announced = false) (undrained : phase ≠ .draining) :
    RequestSound responses index { request with phase := phase, pending := pending, announced := announced } where
  waiterLocks := ⟨fun same => absurd same notLocked, fun lock => absurd (sound.waiterLocks.mpr lock) unlocked⟩
  responderLocks := sound.responderLocks
  senderTaken := sound.senderTaken
  senderUsed := sound.senderUsed
  succeeded outcome given := by
    have same : { request with phase := phase }.result = some (.ok outcome) := given
    rw [unanswered] at same
    cases same
  failed error given := by
    have same : { request with phase := phase }.result = some (.error error) := given
    rw [unanswered] at same
    cases same
  unknown := unknown
  drains same := absurd same undrained

/-- A waiter that returns before its message was sent returns an error. -/
theorem RequestSound.refuse {responses : List Response} {index : Nat} {request : Request}
    (sound : RequestSound responses index request) (unlocked : request.phase ≠ .locked) (unsent : request.unsent = true)
    (pending : Bool) (error : String) :
    RequestSound responses index { request with phase := .returned (.error error), pending := pending } where
  waiterLocks := ⟨fun phase => (by cases phase), fun lock => absurd (sound.waiterLocks.mpr lock) unlocked⟩
  responderLocks := sound.responderLocks
  senderTaken := sound.senderTaken
  senderUsed := sound.senderUsed
  succeeded outcome given := by cases given
  failed _ _ := Or.inr (sound.unknown unsent)
  unknown unsent := by cases unsent
  drains phase := by cases phase

theorem advance_waiter {responses : List Response} {index : Nat} {request next : Request} {step : WaitStep}
    (sound : RequestSound responses index request) (moved : request.advance step = some next) :
    RequestSound responses index next ∧ forall responder response, ResponseSound request responder response ->
      ResponseSound next responder response := by
  have unlocked : request.phase ≠ .locked -> request.lock ≠ some .waiter :=
    fun phase lock => phase (sound.waiterLocks.mpr lock)
  unfold Request.advance at moved
  split at moved
  case h_1 phase =>
      cases moved
      exact ⟨sound.wait (by simp [phase]) (by simp) rfl (fun _ => sound.unknown (by simp [Request.unsent, phase])) (by simp),
        fun _ _ responding => responding.of_same rfl (Or.inl rfl) rfl rfl⟩
  case h_2 phase =>
      cases moved
      exact ⟨sound.refuse (by simp [phase]) (by simp [Request.unsent, phase]) _ _,
        fun _ _ responding => responding.of_same rfl (Or.inl rfl) rfl rfl⟩
  case h_3 phase =>
      cases moved
      exact ⟨sound.wait (by simp [phase]) (by simp) rfl (fun _ => sound.unknown (by simp [Request.unsent, phase])) (by simp),
        fun _ _ responding => responding.of_same rfl (Or.inl rfl) rfl rfl⟩
  case h_4 phase =>
      cases moved
      exact ⟨sound.wait (by simp [phase]) (by simp) rfl (by simp [Request.unsent]) (by simp),
        fun _ _ responding => responding.of_same rfl (Or.inr rfl) rfl rfl⟩
  case h_5 reason phase =>
      cases moved
      exact ⟨sound.wait (by simp [phase]) (by simp) rfl (fun _ => sound.unknown (by simp [Request.unsent, phase])) (by simp),
        fun _ _ responding => responding.of_same rfl (Or.inl rfl) rfl rfl⟩
  case h_6 reason phase =>
      cases moved
      exact ⟨sound.refuse (by simp [phase]) (by simp [Request.unsent, phase]) _ _,
        fun _ _ responding => responding.of_same rfl (Or.inl rfl) rfl rfl⟩
  case h_7 phase =>
      rcases Option.map_eq_some_iff.mp moved with ⟨result, received, rfl⟩
      exact ⟨sound.answer (by simp [phase]) received, fun _ _ responding => responding.of_same rfl (Or.inl rfl) rfl rfl⟩
  case h_8 phase =>
      split at moved
      · cases moved
        exact ⟨sound.wait (by simp [phase]) (by simp) rfl (by simp [Request.unsent]) (by simp),
          fun _ _ responding => responding.of_same rfl (Or.inl rfl) rfl rfl⟩
      · contradiction
  case h_9 phase =>
      split at moved
      case isFalse => contradiction
      case isTrue free =>
          cases moved
          refine ⟨⟨by simp, by simp, sound.senderTaken, sound.senderUsed, ?_, ?_, by simp [Request.unsent], by simp⟩, ?_⟩
          · intro outcome given
            cases given
          · intro error given
            cases given
          · intro responder response responding
            refine ⟨responding.announced, ?_, responding.claims, responding.sends, responding.submits⟩
            intro holds
            have held := responding.locks holds
            rw [free] at held
            cases held
  case h_10 phase =>
      have held := sound.waiterLocks.mp phase
      have freed : forall responder response, ResponseSound request responder response ->
          response.phase ≠ .locked ∧ response.phase ≠ .claimed := by
        intro responder response responding
        constructor
        · intro locked
          have other := responding.locks (Or.inl locked)
          rw [held] at other
          cases other
        · intro claimed
          have other := responding.locks (Or.inr claimed)
          rw [held] at other
          cases other
      split at moved
      case isTrue inPlace =>
          cases moved
          refine ⟨⟨by simp, by simp, by simp, by simp, ?_, fun _ _ => Or.inl rfl, by simp [Request.unsent], by simp⟩, ?_⟩
          · intro outcome given
            cases given
          · intro responder response responding
            rcases freed responder response responding with ⟨notLocked, notClaimed⟩
            refine ⟨responding.announced, ?_, fun claimed => absurd claimed notClaimed, ?_, ?_⟩
            · intro holds
              rcases holds with locked | claimed
              · exact absurd locked notLocked
              · exact absurd claimed notClaimed
            · intro outcome sending
              have taken := (responding.sends outcome sending).1
              rw [inPlace] at taken
              cases taken
            · intro outcome submitted
              have sent := (responding.submits outcome submitted).1
              rw [inPlace] at sent
              cases sent
      case isFalse gone =>
          cases moved
          refine ⟨⟨by simp, by simp, sound.senderTaken, sound.senderUsed, ?_, ?_, by simp [Request.unsent],
            fun _ => gone⟩, ?_⟩
          · intro outcome given
            cases given
          · intro error given
            cases given
          · intro responder response responding
            rcases freed responder response responding with ⟨notLocked, notClaimed⟩
            refine ⟨responding.announced, ?_, fun claimed => absurd claimed notClaimed, responding.sends,
              responding.submits⟩
            intro holds
            rcases holds with locked | claimed
            · exact absurd locked notLocked
            · exact absurd claimed notClaimed
  case h_11 phase =>
      rcases Option.map_eq_some_iff.mp moved with ⟨result, received, rfl⟩
      exact ⟨sound.answer (by simp [phase]) received, fun _ _ responding => responding.of_same rfl (Or.inl rfl) rfl rfl⟩
  case h_12 result phase =>
      cases moved
      refine ⟨⟨?_, sound.responderLocks, sound.senderTaken, sound.senderUsed, ?_, ?_, by simp [Request.unsent], by simp⟩,
        fun _ _ responding => responding.of_same rfl (Or.inl rfl) rfl rfl⟩
      · exact ⟨fun same => (by cases same), fun lock => absurd lock (unlocked (by simp [phase]))⟩
      · intro outcome given
        exact sound.succeeded outcome (by simpa [Request.result, phase] using given)
      · intro error given
        exact sound.failed error (by simpa [Request.result, phase] using given)
  case h_20 => contradiction
  all_goals
    rename_i phase
    cases moved
    exact ⟨sound.wait (by simp [phase]) (by simp) rfl (by simp [Request.unsent]) (by simp),
      fun _ _ responding => responding.of_same rfl (Or.inl rfl) rfl rfl⟩

/-! ## The responders -/

/-- What a step of a responder may do to its request: it takes the lock or lets go of it,
and only moves the sender while it holds the lock or the sender itself. -/
structure Handed (request next : Request) (responder : Nat) (phase : ResponsePhase) : Prop where
  session : next.sessionId = request.sessionId
  announced : next.announced = request.announced
  waits : next.phase = request.phase
  waiterLocks : next.lock = some .waiter ↔ request.lock = some .waiter
  locked : forall other, next.lock = some (.responder other) ->
    (other = responder ∧ (phase = .locked ∨ phase = .claimed)) ∨
      (other ≠ responder ∧ request.lock = some (.responder other))
  taken : forall other, next.sender = .taken other ->
    (other = responder ∧ Exists fun outcome => phase = .sending outcome) ∨
      (other ≠ responder ∧ request.sender = .taken other)
  used : forall other outcome, next.sender = .sent other outcome ->
    (other = responder ∧ phase = .submitted outcome) ∨ (other ≠ responder ∧ request.sender = .sent other outcome)
  keepsLock : forall other, other ≠ responder -> request.lock = some (.responder other) ->
    next.lock = some (.responder other) ∧ (request.sender = .inPlace -> next.sender = .inPlace)
  keepsTaken : forall other, other ≠ responder -> request.sender = .taken other -> next.sender = .taken other
  keepsSent : forall other outcome, request.sender = .sent other outcome -> next.sender = .sent other outcome
  keepsDropped : request.sender = .dropped -> next.sender = .dropped
  keepsPlace : next.sender = .inPlace -> request.sender = .inPlace

theorem Handed.others {request next : Request} {responder other : Nat} {phase : ResponsePhase} {response : Response}
    (handed : Handed request next responder phase) (different : other ≠ responder)
    (sound : ResponseSound request other response) : ResponseSound next other response where
  announced := by
    rw [handed.announced]
    exact sound.announced
  locks holds := (handed.keepsLock other different (sound.locks holds)).1
  claims claimed := by
    rcases sound.claims claimed with ⟨inPlace, session⟩
    exact ⟨(handed.keepsLock other different (sound.locks (Or.inr claimed))).2 inPlace, handed.session.trans session⟩
  sends outcome sending := by
    rw [handed.session]
    exact ⟨handed.keepsTaken other different (sound.sends outcome sending).1, (sound.sends outcome sending).2⟩
  submits outcome submitted := by
    rw [handed.session]
    exact ⟨handed.keepsSent other outcome (sound.submits outcome submitted).1, (sound.submits outcome submitted).2⟩

section Responders

variable {responses : List Response} {target responder other : Nat} {response : Response} {phase : ResponsePhase}

theorem Responding.set_other {phases : ResponsePhase -> Prop} (different : other ≠ responder)
    (responding : Responding responses target other phases) (new : Response) :
    Responding (responses.set responder new) target other phases := by
  rcases responding with ⟨present, found, same, holds⟩
  refine ⟨present, ?_, same, holds⟩
  rw [List.getElem?_set_ne different.symm, found]

theorem Responding.set_self {phases : ResponsePhase -> Prop} (found : responses[responder]? = some response)
    (same : response.target = some target) (holds : phases phase) :
    Responding (responses.set responder { response with phase := phase }) target responder phases := by
  refine ⟨{ response with phase := phase }, ?_, same, holds⟩
  rw [List.getElem?_set_self (List.getElem?_eq_some_iff.mp found).1]

theorem Handed.request {request next : Request} (handed : Handed request next responder phase)
    (sound : RequestSound responses target request) (found : responses[responder]? = some response)
    (same : response.target = some target) :
    RequestSound (responses.set responder { response with phase := phase }) target next where
  waiterLocks := by
    rw [handed.waits, handed.waiterLocks]
    exact sound.waiterLocks
  responderLocks other locked := by
    rcases handed.locked other locked with ⟨rfl, holds⟩ | ⟨different, before⟩
    · exact Responding.set_self found same holds
    · exact (sound.responderLocks other before).set_other different _
  senderTaken other taken := by
    rcases handed.taken other taken with ⟨rfl, holds⟩ | ⟨different, before⟩
    · exact Responding.set_self found same holds
    · exact (sound.senderTaken other before).set_other different _
  senderUsed other outcome used := by
    rcases handed.used other outcome used with ⟨rfl, holds⟩ | ⟨different, before⟩
    · exact Responding.set_self found same holds
    · exact (sound.senderUsed other outcome before).set_other different _
  succeeded outcome given := by
    rw [Request.result, handed.waits] at given
    rcases sound.succeeded outcome given with ⟨other, sent⟩
    exact ⟨other, handed.keepsSent other outcome sent⟩
  failed error given := by
    rw [Request.result, handed.waits] at given
    rw [handed.announced]
    exact (sound.failed error given).imp handed.keepsDropped id
  unknown unsent := by
    rw [Request.unsent, handed.waits] at unsent
    rw [handed.announced]
    exact sound.unknown unsent
  drains draining := by
    rw [handed.waits] at draining
    exact fun inPlace => sound.drains draining (handed.keepsPlace inPlace)

theorem Handed.of_idle {request : Request} (sound : RequestSound responses target request)
    (found : responses[responder]? = some response)
    (lock : request.lock = some (.responder responder) -> phase = .locked ∨ phase = .claimed)
    (idle : forall outcome, response.phase ≠ .sending outcome ∧ response.phase ≠ .submitted outcome) :
    Handed request request responder phase where
  session := rfl
  announced := rfl
  waits := rfl
  waiterLocks := Iff.rfl
  locked other locked := by
    by_cases same : other = responder
    · subst same
      exact Or.inl ⟨rfl, lock locked⟩
    · exact Or.inr ⟨same, locked⟩
  taken other taken := by
    refine Or.inr ⟨?_, taken⟩
    intro same
    rcases sound.senderTaken other taken with ⟨present, here, _, outcome, sending⟩
    rw [same, found, Option.some.injEq] at here
    exact (idle outcome).1 (here ▸ sending)
  used other outcome used := by
    refine Or.inr ⟨?_, used⟩
    intro same
    rcases sound.senderUsed other outcome used with ⟨present, here, _, submitted⟩
    rw [same, found, Option.some.injEq] at here
    exact (idle outcome).2 (here ▸ submitted)
  keepsLock _ _ lock := ⟨lock, id⟩
  keepsTaken _ _ taken := taken
  keepsSent _ _ sent := sent
  keepsDropped dropped := dropped
  keepsPlace inPlace := inPlace

theorem Handed.of_release {request : Request} (sound : RequestSound responses target request)
    (found : responses[responder]? = some response) (held : request.lock = some (.responder responder))
    (idle : forall outcome, response.phase ≠ .sending outcome ∧ response.phase ≠ .submitted outcome) :
    Handed request { request with lock := none } responder phase := by
  have kept : Handed request request responder .locked := .of_idle sound found (fun _ => Or.inl rfl) idle
  refine ⟨rfl, rfl, rfl, by simp [held], by simp, ?_, ?_, ?_, kept.keepsTaken, kept.keepsSent, kept.keepsDropped, id⟩
  · intro other taken
    rcases kept.taken other taken with ⟨same, outcome, sending⟩ | before
    · cases sending
    · exact Or.inr before
  · intro other outcome used
    rcases kept.used other outcome used with ⟨same, submitted⟩ | before
    · cases submitted
    · exact Or.inr before
  · intro other different lock
    rw [held] at lock
    cases lock
    exact absurd rfl different

theorem Handed.of_move {request : Request} {sender : Sender} (held : request.lock = some (.responder responder))
    (inPlace : request.sender = .inPlace)
    (moved : sender = .dropped ∨ (sender = .taken responder ∧ Exists fun outcome => phase = .sending outcome)) :
    Handed request { request with sender := sender, lock := none } responder phase := by
  refine ⟨rfl, rfl, rfl, by simp [held], by simp, ?_, ?_, ?_, by simp [inPlace], by simp [inPlace], by simp [inPlace],
    fun _ => inPlace⟩
  · intro other taken
    rcases moved with dropped | ⟨own, sending⟩
    · rw [dropped] at taken
      cases taken
    · rw [own] at taken
      cases taken
      exact Or.inl ⟨rfl, sending⟩
  · intro other outcome used
    rcases moved with dropped | ⟨own, sending⟩
    · rw [dropped] at used
      cases used
    · rw [own] at used
      cases used
  · intro other different lock
    rw [held] at lock
    cases lock
    exact absurd rfl different

theorem Handed.of_send {request : Request} {sender : Sender} (sound : RequestSound responses target request)
    (found : responses[responder]? = some response) (taken : request.sender = .taken responder)
    (sending : response.phase ≠ .locked ∧ response.phase ≠ .claimed)
    (moved : sender = .dropped ∨ Exists fun outcome => sender = .sent responder outcome ∧ phase = .submitted outcome) :
    Handed request { request with sender := sender } responder phase := by
  have unheld : forall other, request.lock = some (.responder other) -> other ≠ responder := by
    intro other lock same
    rcases sound.responderLocks other lock with ⟨present, here, _, holds⟩
    rw [same, found, Option.some.injEq] at here
    rcases here ▸ holds with locked | claimed
    · exact sending.1 locked
    · exact sending.2 claimed
  refine ⟨rfl, rfl, rfl, Iff.rfl, fun other lock => Or.inr ⟨unheld other lock, lock⟩, ?_, ?_, ?_, ?_, by simp [taken],
    by simp [taken], ?_⟩
  · intro other own
    rcases moved with dropped | ⟨outcome, sent, _⟩
    · rw [dropped] at own
      cases own
    · rw [sent] at own
      cases own
  · intro other outcome used
    rcases moved with dropped | ⟨submitted, sent, phase⟩
    · rw [dropped] at used
      cases used
    · rw [sent] at used
      cases used
      exact Or.inl ⟨rfl, phase⟩
  · intro other different lock
    exact ⟨lock, by simp [taken]⟩
  · intro other different own
    rw [taken] at own
    cases own
    exact absurd rfl different
  · intro inPlace
    rcases moved with dropped | ⟨outcome, sent, _⟩
    · rw [dropped] at inPlace
      cases inPlace
    · rw [sent] at inPlace
      cases inPlace

theorem advance_responder {request next : Request} {step : ResponseStep} (sound : RequestSound responses target request)
    (responding : ResponseSound request responder response) (found : responses[responder]? = some response)
    (moved : response.advance responder request step = some (next, phase)) :
    Handed request next responder phase ∧ ResponseSound next responder { response with phase := phase } := by
  unfold Response.advance at moved
  split at moved
  case h_1 asked =>
      have unheld : request.lock ≠ some (.responder responder) := by
        intro lock
        rcases sound.responderLocks responder lock with ⟨present, here, _, holds⟩
        rw [found, Option.some.injEq] at here
        simp [← here, asked] at holds
      have idle : forall outcome, response.phase ≠ .sending outcome ∧ response.phase ≠ .submitted outcome := by
        simp [asked]
      split at moved
      · cases moved
        exact ⟨Handed.of_idle sound found (fun lock => absurd lock unheld) idle,
          ⟨responding.announced, by simp, by simp, by simp, by simp⟩⟩
      · cases moved
        exact ⟨Handed.of_idle sound found (fun lock => absurd lock unheld) idle,
          ⟨responding.announced, by simp, by simp, by simp, by simp⟩⟩
  case h_2 queued =>
      split at moved
      case isFalse => contradiction
      case isTrue free =>
          cases moved
          have idle : forall outcome, response.phase ≠ .sending outcome ∧ response.phase ≠ .submitted outcome := by
            simp [queued]
          have kept : Handed request request responder .locked :=
            .of_idle sound found (fun _ => Or.inl rfl) idle
          refine ⟨⟨rfl, rfl, rfl, by simp [free], ?_, kept.taken, kept.used, by simp [free], kept.keepsTaken,
            kept.keepsSent, kept.keepsDropped, id⟩, ⟨responding.announced, by simp, by simp, by simp, by simp⟩⟩
          intro other lock
          simp only [Option.some.injEq, Holder.responder.injEq] at lock
          exact Or.inl ⟨lock.symm, Or.inl rfl⟩
  case h_3 locked =>
      have held := responding.locks (Or.inl locked)
      have idle : forall outcome, response.phase ≠ .sending outcome ∧ response.phase ≠ .submitted outcome := by
        simp [locked]
      unfold inspect at moved
      split at moved
      case isTrue =>
          cases moved
          exact ⟨Handed.of_release sound found held idle, ⟨responding.announced, by simp, by simp, by simp, by simp⟩⟩
      case isFalse session =>
          split at moved
          case isTrue =>
              cases moved
              exact ⟨Handed.of_release sound found held idle, ⟨responding.announced, by simp, by simp, by simp, by simp⟩⟩
          case isFalse inPlace =>
              have inPlace := not_not.mp inPlace
              split at moved
              case isTrue =>
                  cases moved
                  exact ⟨Handed.of_move held inPlace (Or.inl rfl),
                    ⟨responding.announced, by simp, by simp, by simp, by simp⟩⟩
              case isFalse =>
                  cases moved
                  exact ⟨Handed.of_idle sound found (fun _ => Or.inr rfl) idle,
                    ⟨responding.announced, fun _ => held, fun _ => ⟨inPlace, not_not.mp session⟩, by simp, by simp⟩⟩
  case h_4 outcome claimed =>
      cases moved
      have held := responding.locks (Or.inr claimed)
      rcases responding.claims claimed with ⟨inPlace, session⟩
      exact ⟨Handed.of_move held inPlace (Or.inr ⟨rfl, outcome, rfl⟩),
        ⟨responding.announced, by simp, by simp, fun _ _ => ⟨rfl, session⟩, by simp⟩⟩
  case h_5 outcome sending =>
      rcases responding.sends outcome sending with ⟨taken, session⟩
      split at moved
      · cases moved
        refine ⟨Handed.of_send sound found taken (by simp [sending]) (Or.inr ⟨outcome, rfl, rfl⟩),
          ⟨responding.announced, by simp, by simp, by simp, ?_⟩⟩
        intro sent same
        simp only [ResponsePhase.submitted.injEq] at same
        exact ⟨by rw [same], session⟩
      · cases moved
        exact ⟨Handed.of_send sound found taken (by simp [sending]) (Or.inl rfl),
          ⟨responding.announced, by simp, by simp, by simp, by simp⟩⟩
  case h_8 claimed =>
      cases moved
      have held := responding.locks (Or.inr claimed)
      exact ⟨Handed.of_release sound found held (by simp [claimed]),
        ⟨responding.announced, by simp, by simp, by simp, by simp⟩⟩
  case h_9 => contradiction
  all_goals
    rename_i waits
    cases moved
    refine ⟨Handed.of_idle sound found ?_ (by simp [waits]), ⟨responding.announced, by simp, by simp, by simp, by simp⟩⟩
    intro lock
    rcases sound.responderLocks responder lock with ⟨present, here, _, holds⟩
    rw [found, Option.some.injEq] at here
    simp [← here, waits] at holds

end Responders

/-! ## Runs -/

namespace Manager

theorem sound_fresh : Manager.fresh.Sound := by
  refine ⟨?_, ?_⟩
  · intro index request found
    cases found
  · intro responder response target found
    cases found

theorem requestSound_append {responses : List Response} {index : Nat} {request : Request}
    (sound : RequestSound responses index request) (response : Response) :
    RequestSound (responses ++ [response]) index request := by
  have kept : forall {responder : Nat} {phases : ResponsePhase -> Prop}, Responding responses index responder phases ->
      Responding (responses ++ [response]) index responder phases := by
    rintro responder phases ⟨present, found, same, holds⟩
    refine ⟨present, ?_, same, holds⟩
    rw [List.getElem?_append_left (List.getElem?_eq_some_iff.mp found).1, found]
  exact ⟨sound.waiterLocks, fun responder lock => kept (sound.responderLocks responder lock),
    fun responder taken => kept (sound.senderTaken responder taken),
    fun responder outcome used => kept (sound.senderUsed responder outcome used), sound.succeeded, sound.failed,
    sound.unknown, sound.drains⟩

theorem getElem?_append_cases {α : Type} {items : List α} {last item : α} {index : Nat}
    (found : (items ++ [last])[index]? = some item) : items[index]? = some item ∨ (index = items.length ∧ item = last) := by
  by_cases before : index < items.length
  · rw [List.getElem?_append_left before] at found
    exact Or.inl found
  · have place := (List.getElem?_eq_some_iff.mp found).1
    simp only [List.length_append, List.length_singleton] at place
    have same : index = items.length := by omega
    subst same
    rw [List.getElem?_concat_length] at found
    exact Or.inr ⟨rfl, (Option.some.inj found).symm⟩

theorem sound_claim {manager : Manager} (sound : manager.Sound) {response : Response}
    (begun : forall target, response.target = some target -> Exists fun request =>
      manager.requests[target]? = some request ∧ ResponseSound request manager.responses.length response) :
    Manager.Sound { manager with responses := manager.responses ++ [response] } where
  requests index request found := requestSound_append (sound.requests index request found) response
  responses responder other target found same := by
    rcases getElem?_append_cases found with before | ⟨rfl, rfl⟩
    · exact sound.responses responder other target before same
    · exact begun target same

theorem advance_sound (manager : Manager) (step : Step) (next : Manager) (sound : manager.Sound)
    (moved : advance step manager = .ok next) : next.Sound := by
  cases step with
  | request id sessionId toolCallRequestId =>
      cases moved
      refine ⟨?_, ?_⟩
      · intro index request found
        rcases getElem?_append_cases found with before | ⟨_, rfl⟩
        · exact sound.requests index request before
        · exact ⟨by simp, by simp, by simp, by simp, by simp [Request.result], by simp [Request.result], by simp, by simp⟩
      · intro responder response target found same
        rcases sound.responses responder response target found same with ⟨request, here, responding⟩
        refine ⟨request, ?_, responding⟩
        rw [List.getElem?_append_left (List.getElem?_eq_some_iff.mp here).1, here]
  | claim sessionId target =>
      simp only [advance] at moved
      split at moved
      case h_2 => contradiction
      case h_1 request found =>
          split at moved
          case isFalse => contradiction
          case isTrue announced =>
              cases moved
              apply sound_claim sound
              intro place same
              cases same
              exact ⟨request, found, announced, by simp, by simp, by simp, by simp⟩
  | claimUnknown sessionId requestId =>
      cases moved
      apply sound_claim sound
      intro place same
      cases same
  | waiter index step =>
      simp only [advance] at moved
      split at moved
      case h_2 => contradiction
      case h_1 request found =>
          split at moved
          case h_2 => contradiction
          case h_1 advanced waited =>
              cases moved
              have inside := (List.getElem?_eq_some_iff.mp found).1
              rcases advance_waiter (sound.requests index request found) waited with ⟨kept, responding⟩
              refine ⟨?_, ?_⟩
              · intro place other here
                by_cases same : index = place
                · subst same
                  rw [List.getElem?_set_self inside, Option.some.injEq] at here
                  exact here ▸ kept
                · rw [List.getElem?_set_ne same] at here
                  exact sound.requests place other here
              · intro responder response target here targeted
                rcases sound.responses responder response target here targeted with ⟨other, there, before⟩
                by_cases same : index = target
                · subst same
                  rw [found, Option.some.injEq] at there
                  subst there
                  exact ⟨advanced, List.getElem?_set_self inside, responding responder response before⟩
                · exact ⟨other, by rw [List.getElem?_set_ne same, there], before⟩
  | responder index step =>
      simp only [advance] at moved
      split at moved
      case h_2 => contradiction
      case h_1 response found =>
          split at moved
          case h_2 => contradiction
          case h_1 request targeted =>
              split at moved
              case h_2 => contradiction
              case h_1 advanced phase responded =>
                  cases moved
                  rcases Option.bind_eq_some_iff.mp targeted with ⟨target, same, there⟩
                  rcases sound.responses index response target found same with ⟨present, here, responding⟩
                  rw [there, Option.some.injEq] at here
                  subst here
                  have inside := (List.getElem?_eq_some_iff.mp there).1
                  have own := sound.requests target request there
                  rcases advance_responder own responding found responded with ⟨handed, goesOn⟩
                  have place : response.target.getD 0 = target := by rw [same, Option.getD_some]
                  rw [place]
                  refine ⟨?_, ?_⟩
                  · intro place other otherFound
                    by_cases samePlace : target = place
                    · subst samePlace
                      rw [List.getElem?_set_self inside, Option.some.injEq] at otherFound
                      exact otherFound ▸ handed.request own found same
                    · rw [List.getElem?_set_ne samePlace] at otherFound
                      have kept := sound.requests place other otherFound
                      have unrelated : forall {responder : Nat} {phases : ResponsePhase -> Prop},
                          Responding manager.responses place responder phases ->
                            Responding (manager.responses.set index { response with phase := phase }) place
                              responder phases := by
                        intro responder phases answering
                        apply answering.set_other
                        intro sameResponder
                        rcases answering with ⟨third, thirdFound, thirdTarget, _⟩
                        rw [sameResponder, found, Option.some.injEq] at thirdFound
                        rw [← thirdFound, same, Option.some.injEq] at thirdTarget
                        exact samePlace thirdTarget
                      exact ⟨kept.waiterLocks, fun responder lock => unrelated (kept.responderLocks responder lock),
                        fun responder taken => unrelated (kept.senderTaken responder taken),
                        fun responder outcome used => unrelated (kept.senderUsed responder outcome used),
                        kept.succeeded, kept.failed, kept.unknown, kept.drains⟩
                  · intro responder other place otherFound otherTarget
                    by_cases sameResponder : index = responder
                    · subst sameResponder
                      rw [List.getElem?_set_self (List.getElem?_eq_some_iff.mp found).1, Option.some.injEq] at otherFound
                      subst otherFound
                      have samePlace : target = place := Option.some.inj (same.symm.trans otherTarget)
                      subst samePlace
                      exact ⟨advanced, List.getElem?_set_self inside, goesOn⟩
                    · rw [List.getElem?_set_ne sameResponder] at otherFound
                      rcases sound.responses responder other place otherFound otherTarget with ⟨third, there', before⟩
                      by_cases samePlace : target = place
                      · subst samePlace
                        rw [there, Option.some.injEq] at there'
                        subst there'
                        exact ⟨advanced, List.getElem?_set_self inside, handed.others (Ne.symm sameResponder) before⟩
                      · exact ⟨third, by rw [List.getElem?_set_ne samePlace, there'], before⟩

/-! ## Going on -/

/-- Whether a step is one of a waiter that goes on, or of a responder to its request. -/
def Concerns (manager : Manager) (index : Nat) : Step -> Prop
  | .waiter other step => other = index ∧ step ≠ .abandon
  | .responder responder _ => Exists fun response =>
      manager.responses[responder]? = some response ∧ response.target = some index
  | _ => False

/-- A waiter that neither has returned nor was dropped can go on, or a responder to its request
can. -/
theorem goes_on {manager : Manager} (sound : manager.Sound) {index : Nat} {request : Request}
    (found : manager.requests[index]? = some request) (unreturned : forall result, request.phase ≠ .returned result)
    (kept : request.phase ≠ .abandoned) :
    Exists fun step => manager.Concerns index step ∧ Exists fun next => advance step manager = .ok next := by
  have own := sound.requests index request found
  have waits : forall step, step ≠ .abandon -> (request.advance step).isSome = true ->
      Exists fun step => manager.Concerns index step ∧ Exists fun next => advance step manager = .ok next := by
    intro step goes moves
    rcases Option.isSome_iff_exists.mp moves with ⟨next, moved⟩
    refine ⟨.waiter index step, ⟨rfl, goes⟩, { manager with requests := manager.requests.set index next }, ?_⟩
    simp only [advance, found, moved]
  have responds : forall (responder : Nat) (response : Response) (step : ResponseStep),
      manager.responses[responder]? = some response -> response.target = some index ->
        (response.advance responder request step).isSome = true ->
          Exists fun step => manager.Concerns index step ∧ Exists fun next => advance step manager = .ok next := by
    intro responder response step here target moves
    rcases Option.isSome_iff_exists.mp moves with ⟨⟨next, phase⟩, moved⟩
    have targeted : (response.target.bind fun place => manager.requests[place]?) = some request := by
      rw [target]
      exact found
    refine ⟨.responder responder step, ⟨response, here, target⟩, {
      requests := manager.requests.set (response.target.getD 0) next
      responses := manager.responses.set responder { response with phase := phase } }, ?_⟩
    simp only [advance, here, targeted, moved]
  cases phase : request.phase with
  | started => exact waits (.findStream true) (by simp) (by simp [Request.advance, phase])
  | found => exact waits .register (by simp) (by simp [Request.advance, phase])
  | registered => exact waits (.announce none) (by simp) (by simp [Request.advance, phase])
  | refused reason => exact waits .withdraw (by simp) (by simp [Request.advance, phase])
  | waiting =>
      cases received : request.received with
      | some result => exact waits .receive (by simp) (by simp [Request.advance, phase, received])
      | none => exact waits .elapse (by simp) (by simp [Request.advance, phase, received])
  | elapsed =>
      cases lock : request.lock with
      | none => exact waits .lock (by simp) (by simp [Request.advance, phase, lock])
      | some holder =>
          cases holder with
          | waiter =>
              have locked := own.waiterLocks.mpr lock
              rw [phase] at locked
              cases locked
          | responder responder =>
              rcases own.responderLocks responder lock with ⟨response, here, target, locked | claimed⟩
              · exact responds responder response .inspect here target (by simp [Response.advance, locked])
              · exact responds responder response .drop here target (by simp [Response.advance, claimed])
  | locked =>
      by_cases inPlace : request.sender = .inPlace
      · exact waits .decide (by simp) (by simp [Request.advance, phase, inPlace])
      · exact waits .decide (by simp) (by simp [Request.advance, phase, inPlace])
  | draining =>
      cases sender : request.sender with
      | inPlace => exact absurd sender (own.drains phase)
      | taken responder =>
          rcases own.senderTaken responder sender with ⟨response, here, target, outcome, sending⟩
          by_cases alive : request.receiverAlive = true
          · exact responds responder response .send here target (by simp [Response.advance, sending, alive])
          · exact responds responder response .send here target (by simp [Response.advance, sending, alive])
      | sent responder outcome => exact waits .drain (by simp) (by simp [Request.advance, phase, Request.received, sender])
      | dropped => exact waits .drain (by simp) (by simp [Request.advance, phase, Request.received, sender])
  | answered result => exact waits .unregister (by simp) (by simp [Request.advance, phase])
  | returned result => exact absurd phase (unreturned result)
  | abandoned => exact absurd phase kept

theorem foreign_step {manager next : Manager} (sound : manager.Sound) {responder target : Nat} {response : Response}
    {request : Request} (found : manager.responses[responder]? = some response) (same : response.target = some target)
    (here : manager.requests[target]? = some request) (foreign : request.sessionId ≠ response.sessionId)
    {step : ResponseStep} (moved : advance (.responder responder step) manager = .ok next) :
    Exists fun lock => Exists fun phase =>
      next.requests = manager.requests.set target { request with lock := lock } ∧
        next.responses = manager.responses.set responder { response with phase := phase } ∧
        (phase = .queued ∨ phase = .locked ∨ phase = .dropped ∨ Exists fun error => phase = .failed error) ∧
        (lock = some (.responder responder) -> phase = .locked) := by
  rcases sound.responses responder response target found same with ⟨present, there, responding⟩
  rw [here, Option.some.injEq] at there
  subst there
  have unclaimed : response.phase ≠ .claimed := fun claimed => foreign (responding.claims claimed).2
  have unsending : forall outcome, response.phase ≠ .sending outcome :=
    fun outcome sending => foreign (responding.sends outcome sending).2
  have unheld : response.phase ≠ .locked -> request.lock ≠ some (.responder responder) := by
    intro unlocked lock
    rcases (sound.requests target request here).responderLocks responder lock with ⟨other, otherFound, _, holds⟩
    rw [found, Option.some.injEq] at otherFound
    rcases otherFound ▸ holds with locked | claimed
    · exact unlocked locked
    · exact unclaimed claimed
  have targeted : (response.target.bind fun place => manager.requests[place]?) = some request := by
    rw [same]
    exact here
  have place : response.target.getD 0 = target := by rw [same, Option.getD_some]
  simp only [advance, found, targeted, place] at moved
  split at moved
  case h_2 => contradiction
  case h_1 advanced phase responded =>
      cases moved
      unfold Response.advance at responded
      split at responded
      case h_1 asked =>
          split at responded
          · cases responded
            exact ⟨request.lock, _, rfl, rfl, Or.inl rfl, fun lock => absurd lock (unheld (by simp [asked]))⟩
          · cases responded
            exact ⟨request.lock, _, rfl, rfl, by simp, fun lock => absurd lock (unheld (by simp [asked]))⟩
      case h_2 queued =>
          split at responded
          · cases responded
            exact ⟨_, _, rfl, rfl, by simp, fun _ => rfl⟩
          · contradiction
      case h_3 locked =>
          rw [inspect, if_pos foreign] at responded
          cases responded
          exact ⟨none, _, rfl, rfl, by simp, by simp⟩
      case h_4 outcome claimed => exact absurd claimed unclaimed
      case h_5 outcome sending => exact absurd sending (unsending outcome)
      case h_8 claimed => exact absurd claimed unclaimed
      case h_9 => contradiction
      all_goals
        rename_i waits
        cases responded
        exact ⟨request.lock, _, rfl, rfl, by simp, fun lock => absurd lock (unheld (by simp [waits]))⟩

/-- A submit of a response to a request has returned without an error. -/
def Submitted (manager : Manager) (index responder : Nat) (outcome : ElicitationOutcome) : Prop :=
  Responding manager.responses index responder fun phase => phase = .submitted outcome

/-- A response belongs to another session than the request it is about. -/
def Foreign (manager : Manager) (index responder : Nat) (request : Request) (response : Response) : Prop :=
  manager.responses[responder]? = some response ∧ response.target = some index ∧ request.sessionId ≠ response.sessionId

theorem sent_of_submitted {manager : Manager} (sound : manager.Sound) {index responder : Nat} {request : Request}
    (found : manager.requests[index]? = some request) {outcome : ElicitationOutcome}
    (submitted : manager.Submitted index responder outcome) :
    request.sender = .sent responder outcome ∧ request.announced = true := by
  rcases submitted with ⟨response, here, target, phase⟩
  rcases sound.responses responder response index here target with ⟨present, there, responding⟩
  rw [found, Option.some.injEq] at there
  subst there
  exact ⟨(responding.submits outcome phase).1, responding.announced⟩

/-- In every run: at most one response to a request is submitted; the waiter returns the outcome
that was submitted, and an error when none was; a waiter that neither has returned nor was dropped
can go on, or a responder to its request can; and a step of a response of another session changes
nothing but the lock, is not followed by a submit, and gives the lock back with the error. -/
theorem request_answered {steps : List Step} {manager : Manager} (reached : Runs.run advance steps fresh = .ok manager)
    {index : Nat} {request : Request} (found : manager.requests[index]? = some request) :
    (forall first second outcome other, manager.Submitted index first outcome ->
      manager.Submitted index second other -> first = second) ∧
    (forall responder outcome result, manager.Submitted index responder outcome -> request.phase = .returned result ->
      result = .ok outcome) ∧
    (forall result, request.phase = .returned result ->
      (forall responder outcome, ¬ manager.Submitted index responder outcome) ->
        Exists fun error => result = .error error) ∧
    ((forall result, request.phase ≠ .returned result) -> request.phase ≠ .abandoned ->
      Exists fun step => manager.Concerns index step ∧ Exists fun next => advance step manager = .ok next) ∧
    (forall responder response step next, manager.Foreign index responder request response ->
      advance (.responder responder step) manager = .ok next ->
        Exists fun lock => Exists fun phase =>
          next.requests = manager.requests.set index { request with lock := lock } ∧
            next.responses = manager.responses.set responder { response with phase := phase } ∧
            (phase = .queued ∨ phase = .locked ∨ phase = .dropped ∨ Exists fun error => phase = .failed error) ∧
            (lock = some (.responder responder) -> phase = .locked)) := by
  have sound : manager.Sound := Runs.run_preserved advance_sound sound_fresh reached
  have own := sound.requests index request found
  refine ⟨?_, ?_, ?_, fun unreturned kept => goes_on sound found unreturned kept, ?_⟩
  · intro first second outcome other firstSubmitted secondSubmitted
    have sent := (sent_of_submitted sound found firstSubmitted).1
    rw [(sent_of_submitted sound found secondSubmitted).1] at sent
    cases sent
    rfl
  · intro responder outcome result submitted returned
    rcases sent_of_submitted sound found submitted with ⟨sent, announced⟩
    cases result with
    | ok given =>
        rcases own.succeeded given (by rw [Request.result, returned]) with ⟨other, used⟩
        rw [sent] at used
        cases used
        rfl
    | error error =>
        rcases own.failed error (by rw [Request.result, returned]) with dropped | unannounced
        · rw [sent] at dropped
          cases dropped
        · rw [announced] at unannounced
          cases unannounced
  · intro result returned unsubmitted
    cases result with
    | error error => exact ⟨error, rfl⟩
    | ok outcome =>
        rcases own.succeeded outcome (by rw [Request.result, returned]) with ⟨responder, sent⟩
        exact absurd (own.senderUsed responder outcome sent) (unsubmitted responder outcome)
  · intro responder response step next foreign moved
    exact foreign_step sound foreign.1 foreign.2.1 found foreign.2.2 moved

/-- The manager behind a run in which the time is up while a response is claimed, after a claim of
another session has failed. -/
def lateManager : Manager where
  requests := [⟨"r", "a", "t", .sent 1 .decline, none, false, true, .returned (.ok .decline)⟩]
  responses := [⟨"b", "r", some 0, .failed "Request r belongs to session a, not b"⟩, ⟨"a", "r", some 0, .submitted .decline⟩]

/-- The claimed response is submitted behind the deadline and returned. -/
theorem late_response_returned :
    lateManager.Submitted 0 1 .decline ∧
      forall responder outcome, lateManager.Submitted 0 responder outcome -> responder = 1 := by
  have submitted : lateManager.Submitted 0 1 .decline :=
    ⟨⟨"a", "r", some 0, .submitted .decline⟩, rfl, rfl, rfl⟩
  refine ⟨submitted, fun responder outcome other => ?_⟩
  exact (@request_answered [.request "r" "a" "t", .waiter 0 (.findStream true), .waiter 0 .register,
    .waiter 0 (.announce none), .claim "b" 0, .responder 0 .lookUp, .claim "a" 0, .responder 1 .lookUp,
    .responder 0 .lock, .responder 0 .inspect, .responder 1 .lock, .responder 1 .inspect, .waiter 0 .elapse,
    .responder 1 (.submit .decline), .waiter 0 .lock, .waiter 0 .decide, .responder 1 .send, .waiter 0 .drain,
    .waiter 0 .unregister] lateManager rfl 0 _ rfl).1 responder 1 outcome .decline other submitted

end Manager

end Elicitation
end AIBuddy
