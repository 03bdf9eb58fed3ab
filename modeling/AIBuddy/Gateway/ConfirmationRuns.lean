import Mathlib.Data.List.Nodup
import AIBuddy.Gateway.Confirmations

namespace AIBuddy
namespace Gateway

/-!
# Runs of tool confirmations

The queue of a user holds the requests that wait for an answer, in the order of their prompts,
and at its front for a moment the one that was just answered.  This holds as long as no turn
ends over its queue, no prompt fails whose request a reply has already taken up, and no request
joins a queue that has its id or that was thrown away.
-/

/-- The request that a reply is about. -/
def Reply.request? (reply : Reply) : Option PendingRequest :=
  match reply.phase with
  | .picked request | .submitted request | .refused request | .returned request => some request
  | _ => none

/-- The request of a reply that has not returned. -/
def Reply.underway? (reply : Reply) : Option PendingRequest :=
  match reply.phase with
  | .picked request | .submitted request | .refused request => some request
  | _ => none

/-- The request that a reply has submitted, with the queue still to be changed. -/
def Reply.answered? (reply : Reply) : Option PendingRequest :=
  match reply.phase with
  | .submitted request | .refused request => some request
  | _ => none

/-- Whether a reply holds the reply lock. -/
def Reply.busy (reply : Reply) : Bool :=
  match reply.phase with
  | .locked | .picked _ | .submitted _ | .refused _ => true
  | _ => false

namespace UserState

/-- The step takes none of the turns at which the queue and the waiting requests part. -/
def Orderly (user : UserState) : UserStep -> Prop
  | .turn (.prompt id) =>
      id ∉ (user.pending.getD []).map PendingRequest.id ∧
        (user.pending = none -> user.waiting = [] ∧ forall reply, reply ∈ user.replies -> reply.underway? = none)
  | .turn .undelivered =>
      forall reply, reply ∈ user.replies -> forall request, request ∈ reply.request? ->
        user.turn ≠ some (.prompting request)
  | .turn .finish => user.pending = none ∧ forall reply, reply ∈ user.replies -> reply.underway? = none
  | _ => True

instance (user : UserState) (step : UserStep) : Decidable (Orderly user step) := by
  unfold Orderly
  split <;> infer_instance

/-- The request that was answered and is still in the queue. -/
def answering (user : UserState) : Option PendingRequest :=
  user.replyLock.bind fun index => user.replies[index]?.bind Reply.answered?

/-- The request whose denial is still to be submitted. -/
def denied (user : UserState) : List PendingRequest :=
  match user.turn with
  | some (.denying request) => [request]
  | _ => []

/-- In how many places a request is: waiting, being denied, or submitted. -/
def places (user : UserState) (request : PendingRequest) : Nat :=
  user.waiting.count request + user.denied.count request + (user.submissions.map Submission.request).count request

/-! ## What holds along a run -/

/-- The reply lock keeps replies apart. -/
structure Locked (user : UserState) : Prop where
  holds : forall index reply, user.replies[index]? = some reply -> reply.busy = true -> user.replyLock = some index

/-- The queue is what waits, behind what was just answered, unless it was thrown away. -/
structure Queued (user : UserState) : Prop where
  aligned : user.pending.getD [] = user.answering.toList ++ user.waiting ∨ user.cancelled = true ∧ user.pending = none
  nonempty : user.pending ≠ some []
  ids : ((user.answering.toList ++ user.waiting).map PendingRequest.id).Nodup
  front : forall reply request, reply ∈ user.replies -> reply.phase = .picked request ->
    user.waiting.head? = some request
  refused : forall reply request, reply ∈ user.replies -> reply.phase = .refused request -> user.cancelled = true

/-- Nothing is left of a turn. -/
structure Over (user : UserState) : Prop where
  pending : user.pending = none
  waiting : user.waiting = []
  replies : forall reply, reply ∈ user.replies -> reply.underway? = none

/-- A turn keeps track of what it prompts for. -/
structure Prompted (user : UserState) : Prop where
  turnOver : user.turn = none -> Over user
  prompting : forall request, user.turn = some (.prompting request) ->
    request ∈ user.waiting ∨ Exists fun reply => reply ∈ user.replies ∧ reply.request? = some request
  abandoning : user.turn = some .abandoning -> user.cancelled = true
  once : forall request, user.places request ≤ 1
  numbered : forall request, 0 < user.places request -> request.number < user.prompted

/-- What was submitted is as it should be. -/
structure Answered (user : UserState) : Prop where
  oldest : forall submission waiting, submission ∈ user.submissions -> submission.waiting = some waiting ->
    waiting.head? = some submission.request
  unused : forall reply waiting cancelled, reply ∈ user.replies -> reply.phase = .unused waiting cancelled ->
    waiting = [] ∨ cancelled = true

structure Consistent (user : UserState) : Prop where
  locked : Locked user
  queued : Queued user
  prompted : Prompted user
  answered : Answered user

variable {user : UserState}

theorem consistent_start : Consistent start := by
  refine ⟨⟨?_⟩, ⟨Or.inl rfl, ?_, List.nodup_nil, ?_, ?_⟩, ⟨fun _ => ⟨rfl, rfl, ?_⟩, ?_, ?_, ?_, ?_⟩, ⟨?_, ?_⟩⟩
  all_goals simp [start, places, denied]

/-! ## Messages -/

theorem answering_append {reply : Reply} (idle : reply.answered? = none) :
    ({ user with replies := user.replies ++ [reply] } : UserState).answering = user.answering := by
  rw [answering, answering]
  cases lock : user.replyLock with
  | none => rfl
  | some index =>
      simp only [Option.bind_some]
      cases found : (user.replies ++ [reply])[index]? with
      | none =>
          have absent : user.replies[index]? = none := by
            rw [List.getElem?_eq_none_iff] at found ⊢
            rw [List.length_append] at found
            omega
          rw [absent]
      | some present =>
          rcases Tasks.getElem?_concat_cases found with before | ⟨last, same⟩
          · rw [before]
          · have absent : user.replies[index]? = none := by rw [List.getElem?_eq_none_iff, last]
            rw [absent, same, Option.bind_some, idle, Option.bind_none]

/-- A reply that has just been recognised changes nothing yet. -/
theorem consistent_recognised (consistent : Consistent user) (permission : Permission) :
    Consistent { user with replies := user.replies ++ [⟨permission, .recognised⟩] } := by
  have same := @answering_append user ⟨permission, .recognised⟩ rfl
  have members : forall reply, reply ∈ user.replies ++ [⟨permission, .recognised⟩] ->
      reply ∈ user.replies ∨ reply.phase = .recognised := by
    intro reply member
    rcases List.mem_append.mp member with before | new
    · exact Or.inl before
    · rw [List.mem_singleton.mp new]
      exact Or.inr rfl
  refine ⟨⟨?_⟩, ⟨?_, consistent.queued.nonempty, ?_, ?_, ?_⟩, ⟨?_, ?_,
    consistent.prompted.abandoning, consistent.prompted.once, consistent.prompted.numbered⟩,
    ⟨consistent.answered.oldest, ?_⟩⟩
  · intro index reply found busy
    rcases Tasks.getElem?_concat_cases found with before | ⟨_, new⟩
    · exact consistent.locked.holds index reply before busy
    · rw [new] at busy
      cases busy
  · rw [same]
    exact consistent.queued.aligned
  · rw [same]
    exact consistent.queued.ids
  · intro reply request member phase
    rcases members reply member with before | new
    · exact consistent.queued.front reply request before phase
    · rw [new] at phase
      cases phase
  · intro reply request member phase
    rcases members reply member with before | new
    · exact consistent.queued.refused reply request before phase
    · rw [new] at phase
      cases phase
  · intro ended
    have turnOver := consistent.prompted.turnOver ended
    refine ⟨turnOver.pending, turnOver.waiting, ?_⟩
    intro reply member
    rcases members reply member with before | new
    · exact turnOver.replies reply before
    · rw [Reply.underway?, new]
  · intro request prompting
    rcases consistent.prompted.prompting request prompting with waits | ⟨reply, member, about⟩
    · exact Or.inl waits
    · exact Or.inr ⟨reply, List.mem_append_left _ member, about⟩
  · intro reply waiting cancelled member phase
    rcases members reply member with before | new
    · exact consistent.answered.unused reply waiting cancelled before phase
    · rw [new] at phase
      cases phase

theorem consistent_queued (consistent : Consistent user) (queued : Nat) : Consistent { user with queued := queued } where
  locked := ⟨consistent.locked.holds⟩
  queued := ⟨consistent.queued.aligned, consistent.queued.nonempty, consistent.queued.ids, consistent.queued.front,
    consistent.queued.refused⟩
  prompted := ⟨fun ended => ⟨(consistent.prompted.turnOver ended).pending, (consistent.prompted.turnOver ended).waiting,
    (consistent.prompted.turnOver ended).replies⟩, consistent.prompted.prompting, consistent.prompted.abandoning,
    consistent.prompted.once, consistent.prompted.numbered⟩
  answered := ⟨consistent.answered.oldest, consistent.answered.unused⟩

theorem consistent_message (toLowercase : String -> String) (text : String) (consistent : Consistent user) :
    Consistent (user.handleMessage toLowercase text) := by
  rw [handleMessage]
  split
  · split
    · exact consistent_recognised consistent _
    · exact consistent
  · exact consistent_queued consistent _

/-! ## Steps of a reply -/

/-- What the step of a reply that is alone with the lock has to keep. -/
structure ReplyKeeps (user after : UserState) (index : Nat) (reply next : Reply) : Prop where
  found : user.replies[index]? = some reply
  alone : user.replyLock = none ∨ reply.busy = true
  replies : after.replies = user.replies.set index next
  lock : after.replyLock = if next.busy then some index else none
  turn : after.turn = user.turn
  counter : after.prompted = user.prompted
  cancels : user.cancelled = true -> after.cancelled = true
  turnOver : Over user -> after.pending = none ∧ after.waiting = [] ∧ next.underway? = none
  keeps : forall request, reply.request? = some request -> next.request? = some request
  waits : forall request, request ∈ user.waiting -> request ∈ after.waiting ∨ next.request? = some request
  places : forall request, after.places request ≤ user.places request
  aligned : after.pending.getD [] = next.answered?.toList ++ after.waiting ∨ after.cancelled = true ∧ after.pending = none
  nonempty : after.pending ≠ some []
  ids : ((next.answered?.toList ++ after.waiting).map PendingRequest.id).Nodup
  front : forall request, next.phase = .picked request -> after.waiting.head? = some request
  refused : forall request, next.phase = .refused request -> after.cancelled = true
  oldest : forall submission waiting, submission ∈ after.submissions -> submission.waiting = some waiting ->
    waiting.head? = some submission.request
  unused : forall waiting cancelled, next.phase = .unused waiting cancelled -> waiting = [] ∨ cancelled = true

namespace ReplyKeeps

variable {after : UserState} {index : Nat} {reply next : Reply}

theorem locked (keeps : ReplyKeeps user after index reply next) (before : Locked user) : Locked after := by
  refine ⟨?_⟩
  intro other present at_other busy
  rw [keeps.replies] at at_other
  rcases Tasks.getElem?_set_cases at_other with ⟨same, isNext⟩ | ⟨different, present⟩
  · rw [keeps.lock, ← isNext, if_pos busy, same]
  · have holds := before.holds other _ present busy
    rcases keeps.alone with free | held
    · rw [free] at holds
      cases holds
    · have alsoHolds := before.holds index reply keeps.found held
      rw [holds, Option.some.injEq] at alsoHolds
      exact absurd alsoHolds different

theorem answering (keeps : ReplyKeeps user after index reply next) : after.answering = next.answered? := by
  rw [UserState.answering, keeps.lock, keeps.replies]
  split
  · rcases List.getElem?_eq_some_iff.mp keeps.found with ⟨inside, _⟩
    rw [Option.bind_some, List.getElem?_set_self inside, Option.bind_some]
  · rename_i idle
    rcases next with ⟨permission, phase⟩
    cases phase <;> first | rfl | (exact absurd rfl idle)

theorem busy_eq (keeps : ReplyKeeps user after index reply next) (before : Locked user) {other : Reply}
    (member : other ∈ after.replies) (busy : other.busy = true) : other = next := by
  rcases List.mem_iff_getElem?.mp member with ⟨place, at_place⟩
  have holds := (keeps.locked before).holds place other at_place busy
  rw [keeps.lock] at holds
  split at holds
  · rw [Option.some.injEq] at holds
    rw [keeps.replies, ← holds] at at_place
    rcases Tasks.getElem?_set_cases at_place with ⟨_, same⟩ | ⟨different, _⟩
    · exact same
    · exact absurd rfl different
  · cases holds

theorem about (keeps : ReplyKeeps user after index reply next) {request : PendingRequest}
    (about : Exists fun other => other ∈ user.replies ∧ other.request? = some request) :
    Exists fun other => other ∈ after.replies ∧ other.request? = some request := by
  rcases about with ⟨other, member, same⟩
  rw [keeps.replies]
  by_cases isReply : other = reply
  · rw [isReply] at same
    exact ⟨next, Tasks.mem_set_self keeps.found, keeps.keeps request same⟩
  · exact ⟨other, Tasks.mem_set_of_mem keeps.found member isReply, same⟩

theorem consistent (keeps : ReplyKeeps user after index reply next) (consistent : Consistent user) :
    Consistent after where
  locked := keeps.locked consistent.locked
  queued := {
    aligned := by
      rw [keeps.answering]
      exact keeps.aligned
    nonempty := keeps.nonempty
    ids := by
      rw [keeps.answering]
      exact keeps.ids
    front := by
      intro other request member phase
      have busy : other.busy = true := by rw [Reply.busy, phase]
      rw [keeps.busy_eq consistent.locked member busy] at phase
      exact keeps.front request phase
    refused := by
      intro other request member phase
      have busy : other.busy = true := by rw [Reply.busy, phase]
      rw [keeps.busy_eq consistent.locked member busy] at phase
      exact keeps.refused request phase }
  prompted := {
    turnOver := by
      rw [keeps.turn]
      intro ended
      have turnOver := consistent.prompted.turnOver ended
      rcases keeps.turnOver turnOver with ⟨pending, waiting, idle⟩
      refine ⟨pending, waiting, ?_⟩
      intro other member
      rw [keeps.replies] at member
      rcases Tasks.mem_of_mem_set keeps.found member with same | before
      · rw [same]
        exact idle
      · exact turnOver.replies other before
    prompting := by
      rw [keeps.turn]
      intro request prompting
      rcases consistent.prompted.prompting request prompting with waits | replied
      · rcases keeps.waits request waits with still | taken
        · exact Or.inl still
        · rw [keeps.replies]
          exact Or.inr ⟨next, Tasks.mem_set_self keeps.found, taken⟩
      · exact Or.inr (keeps.about replied)
    abandoning := by
      rw [keeps.turn]
      exact fun abandoning => keeps.cancels (consistent.prompted.abandoning abandoning)
    once := fun request => (keeps.places request).trans (consistent.prompted.once request)
    numbered := by
      rw [keeps.counter]
      exact fun request used => consistent.prompted.numbered request (lt_of_lt_of_le used (keeps.places request)) }
  answered := {
    oldest := keeps.oldest
    unused := by
      intro other waiting cancelled member phase
      rw [keeps.replies] at member
      rcases Tasks.mem_of_mem_set keeps.found member with same | before
      · rw [same] at phase
        exact keeps.unused waiting cancelled phase
      · exact consistent.answered.unused other waiting cancelled before phase }

end ReplyKeeps

section Steps

variable {index : Nat} {reply : Reply}

theorem answering_of_busy (locked : Locked user) (found : user.replies[index]? = some reply) (busy : reply.busy = true) :
    user.answering = reply.answered? := by
  rw [answering, locked.holds index reply found busy, Option.bind_some, found, Option.bind_some]

theorem consistent_lock (consistent : Consistent user) (found : user.replies[index]? = some reply)
    (recognised : reply.phase = .recognised) (free : user.replyLock = none) :
    Consistent { user with
      replies := user.replies.set index { reply with phase := .locked }
      replyLock := some index } := by
  have idle : user.answering = none := by rw [answering, free, Option.bind_none]
  have aligned := consistent.queued.aligned
  have ids := consistent.queued.ids
  rw [idle, Option.toList_none, List.nil_append] at aligned ids
  refine ReplyKeeps.consistent (?_ : ReplyKeeps user _ index reply { reply with phase := .locked }) consistent
  refine ⟨found, Or.inl free, rfl, rfl, rfl, rfl, id, fun turnOver => ⟨turnOver.pending, turnOver.waiting, rfl⟩, ?_, fun _ waits => Or.inl waits, fun _ => Nat.le_refl _, aligned,
    consistent.queued.nonempty, ids, ?_, ?_, consistent.answered.oldest, ?_⟩
  · intro request about
    rw [Reply.request?, recognised] at about
    cases about
  · intro request phase
    cases phase
  · intro request phase
    cases phase
  · intro waiting cancelled phase
    cases phase

theorem consistent_picked (consistent : Consistent user) (found : user.replies[index]? = some reply)
    (locked : reply.phase = .locked) {front : PendingRequest} {rest : List PendingRequest}
    (pending : user.pending = some (front :: rest)) :
    Consistent { user with replies := user.replies.set index { reply with phase := .picked front } } := by
  have busy : reply.busy = true := by rw [Reply.busy, locked]
  have idle : user.answering = none := by
    rw [answering_of_busy consistent.locked found busy, Reply.answered?, locked]
  have aligned := consistent.queued.aligned
  have ids := consistent.queued.ids
  rw [idle, Option.toList_none, List.nil_append] at aligned ids
  refine ReplyKeeps.consistent (?_ : ReplyKeeps user _ index reply { reply with phase := .picked front }) consistent
  refine ⟨found, Or.inr busy, rfl, consistent.locked.holds index reply found busy, rfl, rfl, id, ?_, ?_,
    fun _ waits => Or.inl waits, fun _ => Nat.le_refl _, aligned, consistent.queued.nonempty, ids, ?_, ?_,
    consistent.answered.oldest, ?_⟩
  · intro turnOver
    rw [turnOver.pending] at pending
    cases pending
  · intro request about
    rw [Reply.request?, locked] at about
    cases about
  · intro request phase
    cases phase
    rcases aligned with same | ⟨_, empty⟩
    · rw [pending, Option.getD_some] at same
      rw [← same, List.head?_cons]
    · rw [pending] at empty
      cases empty
  · intro request phase
    cases phase
  · intro waiting cancelled phase
    cases phase

theorem consistent_unused (consistent : Consistent user) (found : user.replies[index]? = some reply)
    (locked : reply.phase = .locked) (empty : forall front rest, user.pending ≠ some (front :: rest)) :
    Consistent { user with
      replies := user.replies.set index { reply with phase := .unused user.waiting user.cancelled }
      replyLock := none } := by
  have busy : reply.busy = true := by rw [Reply.busy, locked]
  have idle : user.answering = none := by
    rw [answering_of_busy consistent.locked found busy, Reply.answered?, locked]
  have aligned := consistent.queued.aligned
  have ids := consistent.queued.ids
  rw [idle, Option.toList_none, List.nil_append] at aligned ids
  have gone : user.pending = none := by
    cases pending : user.pending with
    | none => rfl
    | some requests =>
        cases requests with
        | nil => exact absurd pending consistent.queued.nonempty
        | cons front rest => exact absurd pending (empty front rest)
  refine ReplyKeeps.consistent
    (?_ : ReplyKeeps user _ index reply { reply with phase := .unused user.waiting user.cancelled }) consistent
  refine ⟨found, Or.inr busy, rfl, rfl, rfl, rfl, id, fun turnOver => ⟨turnOver.pending, turnOver.waiting, rfl⟩, ?_, fun _ waits => Or.inl waits, fun _ => Nat.le_refl _, aligned,
    consistent.queued.nonempty, ids, ?_, ?_, consistent.answered.oldest, ?_⟩
  · intro request about
    rw [Reply.request?, locked] at about
    cases about
  · intro request phase
    cases phase
  · intro request phase
    cases phase
  · intro waiting cancelled phase
    cases phase
    rcases aligned with same | ⟨given, _⟩
    · rw [gone, Option.getD_none] at same
      exact Or.inl same.symm
    · exact Or.inr given

theorem filter_of_head {waiting : List PendingRequest} {request : PendingRequest}
    (ids : (waiting.map PendingRequest.id).Nodup) (head : waiting.head? = some request) :
    waiting = request :: waiting.filter fun other => other ≠ request := by
  cases waiting with
  | nil => cases head
  | cons first rest =>
      cases head
      have distinct := List.Nodup.of_map PendingRequest.id ids
      rw [List.nodup_cons] at distinct
      rw [List.filter_cons_of_neg (by simp), List.filter_eq_self.mpr]
      intro other member
      rw [decide_eq_true_eq]
      intro same
      exact distinct.1 (same ▸ member)

theorem count_filter_ne (waiting : List PendingRequest) (request other : PendingRequest) :
    (waiting.filter fun present => present ≠ request).count other =
      if other = request then 0 else waiting.count other := by
  split
  · rename_i same
    rw [List.count_eq_zero, same]
    intro member
    simpa using List.of_mem_filter member
  · rename_i different
    exact List.count_filter (by simpa using different)

theorem consistent_submit (consistent : Consistent user) (found : user.replies[index]? = some reply)
    {request : PendingRequest} (picked : reply.phase = .picked request) (accepted : Bool) :
    Consistent { user with
      cancelled := user.cancelled || !accepted
      replies := user.replies.set index
        { reply with phase := if accepted then .submitted request else .refused request }
      waiting := user.waiting.filter fun other => other ≠ request
      submissions := ⟨request, reply.permission, some user.waiting⟩ :: user.submissions } := by
  have busy : reply.busy = true := by rw [Reply.busy, picked]
  have idle : user.answering = none := by
    rw [answering_of_busy consistent.locked found busy, Reply.answered?, picked]
  have aligned := consistent.queued.aligned
  have ids := consistent.queued.ids
  rw [idle, Option.toList_none, List.nil_append] at aligned ids
  have head := consistent.queued.front reply request (List.mem_of_getElem? found) picked
  have split := filter_of_head ids head
  have answered : Reply.answered? { reply with phase := if accepted then .submitted request else .refused request } =
      some request := by
    cases accepted <;> rfl
  refine ReplyKeeps.consistent (?_ : ReplyKeeps user _ index reply
    { reply with phase := if accepted then .submitted request else .refused request }) consistent
  refine ⟨found, Or.inr busy, rfl, ?_, rfl, rfl, ?_, ?_, ?_, ?_, ?_, ?_, consistent.queued.nonempty, ?_, ?_, ?_, ?_, ?_⟩
  · rw [consistent.locked.holds index reply found busy]
    cases accepted <;> rfl
  · intro cancelled
    rw [cancelled, Bool.true_or]
  · intro turnOver
    exact absurd (turnOver.replies reply (List.mem_of_getElem? found)) (by rw [Reply.underway?, picked]; simp)
  · intro other about
    rw [Reply.request?, picked] at about
    cases accepted <;> exact about
  · intro other waits
    by_cases same : other = request
    · rw [same]
      cases accepted <;> exact Or.inr rfl
    · exact Or.inl (List.mem_filter.mpr ⟨waits, by simpa using same⟩)
  · intro other
    have counted := count_filter_ne user.waiting request other
    have before : user.waiting.count request = (user.waiting.filter fun present => present ≠ request).count request + 1 := by
      conv_lhs => rw [split]
      rw [List.count_cons_self]
    simp only [places, denied, List.map_cons, List.count_cons, counted, beq_iff_eq]
    by_cases same : other = request
    · rw [same] at counted ⊢
      simp only [if_true] at counted ⊢
      omega
    · rw [if_neg same, if_neg (Ne.symm same)]
      omega
  · rw [answered]
    rcases aligned with same | ⟨cancelled, empty⟩
    · refine Or.inl ?_
      rw [same]
      exact split
    · refine Or.inr ⟨?_, empty⟩
      rw [cancelled, Bool.true_or]
  · rw [answered, Option.toList_some, List.singleton_append, ← split]
    exact ids
  · intro other phase
    cases accepted <;> cases phase
  · intro other phase
    cases accepted with
    | true => cases phase
    | false => exact Bool.or_true _
  · intro submission waiting member same
    rcases List.mem_cons.mp member with new | before
    · rw [new] at same ⊢
      cases same
      exact head
    · exact consistent.answered.oldest submission waiting before same
  · intro waiting cancelled phase
    cases accepted <;> cases phase

/-- A request that was accepted leaves the front of the queue. -/
theorem consistent_popped (consistent : Consistent user) (found : user.replies[index]? = some reply)
    {request : PendingRequest} (submitted : reply.phase = .submitted request) :
    Consistent { user with
      pending := popAnswered request.id user.pending
      replies := user.replies.set index { reply with phase := .returned request }
      replyLock := none } := by
  have busy : reply.busy = true := by rw [Reply.busy, submitted]
  have answering : user.answering = some request := by
    rw [answering_of_busy consistent.locked found busy, Reply.answered?, submitted]
  have ids := consistent.queued.ids
  rw [answering, Option.toList_some, List.singleton_append, List.map_cons, List.nodup_cons] at ids
  have popped : (popAnswered request.id user.pending).getD [] = user.waiting ∧
        popAnswered request.id user.pending ≠ some [] ∨
      user.cancelled = true ∧ popAnswered request.id user.pending = none := by
    rcases consistent.queued.aligned with same | ⟨cancelled, empty⟩
    · refine Or.inl ?_
      rw [answering, Option.toList_some, List.singleton_append] at same
      cases pending : user.pending with
      | none =>
          rw [pending, Option.getD_none] at same
          cases same
      | some requests =>
          rw [pending, Option.getD_some] at same
          rw [same, popAnswered, if_pos rfl]
          cases user.waiting with
          | nil => exact ⟨rfl, by simp⟩
          | cons first rest => exact ⟨rfl, by simp⟩
    · rw [empty]
      exact Or.inr ⟨cancelled, rfl⟩
  refine ReplyKeeps.consistent (?_ : ReplyKeeps user _ index reply { reply with phase := .returned request }) consistent
  refine ⟨found, Or.inr busy, rfl, rfl, rfl, rfl, id, ?_, ?_, fun _ waits => Or.inl waits, fun _ => Nat.le_refl _, ?_, ?_,
    ids.2, ?_, ?_, consistent.answered.oldest, ?_⟩
  · intro turnOver
    exact absurd (turnOver.replies reply (List.mem_of_getElem? found)) (by rw [Reply.underway?, submitted]; simp)
  · intro other about
    rw [Reply.request?, submitted] at about
    exact about
  · exact popped.imp_left And.left
  · rcases popped with ⟨_, nonempty⟩ | ⟨_, empty⟩
    · exact nonempty
    · rw [empty]
      simp
  · intro other phase
    cases phase
  · intro other phase
    cases phase
  · intro waiting cancelled phase
    cases phase

theorem consistent_refused (consistent : Consistent user) (found : user.replies[index]? = some reply)
    {request : PendingRequest} (refused : reply.phase = .refused request) :
    Consistent { user with
      pending := none
      replies := user.replies.set index { reply with phase := .returned request }
      replyLock := none } := by
  have busy : reply.busy = true := by rw [Reply.busy, refused]
  have answering : user.answering = some request := by
    rw [answering_of_busy consistent.locked found busy, Reply.answered?, refused]
  have ids := consistent.queued.ids
  rw [answering, Option.toList_some, List.singleton_append, List.map_cons, List.nodup_cons] at ids
  have cancelled := consistent.queued.refused reply request (List.mem_of_getElem? found) refused
  refine ReplyKeeps.consistent (?_ : ReplyKeeps user _ index reply { reply with phase := .returned request }) consistent
  refine ⟨found, Or.inr busy, rfl, rfl, rfl, rfl, id, ?_, ?_, fun _ waits => Or.inl waits, fun _ => Nat.le_refl _,
    Or.inr ⟨cancelled, rfl⟩, by simp, ids.2, ?_, ?_, consistent.answered.oldest, ?_⟩
  · intro turnOver
    exact absurd (turnOver.replies reply (List.mem_of_getElem? found)) (by rw [Reply.underway?, refused]; simp)
  · intro other about
    rw [Reply.request?, refused] at about
    exact about
  · intro other phase
    cases phase
  · intro other phase
    cases phase
  · intro waiting cancelled phase
    cases phase

theorem consistent_advanceReply (consistent : Consistent user) {step : ReplyStep} {after : UserState}
    (moved : user.advanceReply index step = .ok after) : Consistent after := by
  rw [advanceReply] at moved
  split at moved
  · cases moved
  · rename_i reply found
    split at moved
    · rename_i recognised
      split at moved
      · rename_i free
        cases moved
        exact consistent_lock consistent found recognised (Option.isNone_iff_eq_none.mp free)
      · cases moved
    · rename_i locked
      split at moved
      · rename_i front rest pending
        cases moved
        exact consistent_picked consistent found locked pending
      · rename_i empty
        cases moved
        exact consistent_unused consistent found locked empty
    · rename_i accepted request picked
      cases moved
      exact consistent_submit consistent found picked accepted
    · rename_i request submitted
      cases moved
      exact consistent_popped consistent found submitted
    · rename_i request refused
      cases moved
      exact consistent_refused consistent found refused
    · cases moved

end Steps

/-! ## Steps of a turn -/

section Turn

theorem answering_of_idle (idle : forall reply, reply ∈ user.replies -> reply.underway? = none) :
    user.answering = none := by
  rw [answering, Option.bind_eq_none_iff]
  intro index _
  rw [Option.bind_eq_none_iff]
  intro reply found
  have quiet := idle reply (List.mem_of_getElem? found)
  rcases reply with ⟨permission, phase⟩
  cases phase <;> first | rfl | cases quiet

theorem not_picked_of_idle (idle : forall reply, reply ∈ user.replies -> reply.underway? = none) {reply : Reply}
    {request : PendingRequest} (member : reply ∈ user.replies) : reply.phase ≠ .picked request := by
  intro phase
  have quiet := idle reply member
  rw [Reply.underway?, phase] at quiet
  cases quiet

theorem not_refused_of_idle (idle : forall reply, reply ∈ user.replies -> reply.underway? = none) {reply : Reply}
    {request : PendingRequest} (member : reply ∈ user.replies) : reply.phase ≠ .refused request := by
  intro phase
  have quiet := idle reply member
  rw [Reply.underway?, phase] at quiet
  cases quiet

theorem consistent_begin (consistent : Consistent user) (ended : user.turn = none) (queued : Nat) :
    Consistent { user with turn := some .listening, cancelled := false, queued := queued } := by
  have turnOver := consistent.prompted.turnOver ended
  have idle := answering_of_idle turnOver.replies
  refine ⟨⟨consistent.locked.holds⟩, ⟨Or.inl ?_, consistent.queued.nonempty, consistent.queued.ids,
    consistent.queued.front, ?_⟩, ⟨?_, ?_, ?_, ?_, ?_⟩, ⟨consistent.answered.oldest, consistent.answered.unused⟩⟩
  · change user.pending.getD [] = user.answering.toList ++ user.waiting
    rw [turnOver.pending, turnOver.waiting, idle]
    rfl
  · intro reply request member phase
    exact absurd phase (not_refused_of_idle turnOver.replies member)
  · intro never
    cases never
  · intro request never
    cases never
  · intro never
    cases never
  · intro request
    have once := consistent.prompted.once request
    rw [places, denied, ended] at once
    exact once
  · intro request used
    refine consistent.prompted.numbered request ?_
    rw [places, denied, ended]
    exact used

theorem consistent_prompt (consistent : Consistent user) (listening : user.turn = some .listening) (id : String)
    (fresh : id ∉ (user.pending.getD []).map PendingRequest.id)
    (whole : user.pending = none -> user.waiting = [] ∧ forall reply, reply ∈ user.replies -> reply.underway? = none) :
    Consistent { user with
      pending := some (user.pending.getD [] ++ [⟨id, user.prompted⟩])
      turn := some (.prompting ⟨id, user.prompted⟩)
      prompted := user.prompted + 1
      waiting := user.waiting ++ [⟨id, user.prompted⟩] } := by
  have aligned : user.pending.getD [] = user.answering.toList ++ user.waiting := by
    rcases consistent.queued.aligned with same | ⟨_, empty⟩
    · exact same
    · rcases whole empty with ⟨none, idle⟩
      rw [empty, none, answering_of_idle idle]
      rfl
  have unused : user.places ⟨id, user.prompted⟩ = 0 := by
    by_contra used
    exact absurd (consistent.prompted.numbered _ (Nat.pos_of_ne_zero used)) (Nat.lt_irrefl _)
  have places : forall request, UserState.places { user with
      pending := some (user.pending.getD [] ++ [⟨id, user.prompted⟩])
      turn := some (.prompting ⟨id, user.prompted⟩)
      prompted := user.prompted + 1
      waiting := user.waiting ++ [⟨id, user.prompted⟩] } request =
        user.places request + [(⟨id, user.prompted⟩ : PendingRequest)].count request := by
    intro request
    simp only [UserState.places, denied, listening, List.count_append]
    omega
  refine ⟨⟨consistent.locked.holds⟩, ⟨Or.inl ?_, by simp, ?_, ?_, consistent.queued.refused⟩, ⟨?_, ?_, ?_, ?_, ?_⟩,
    ⟨consistent.answered.oldest, consistent.answered.unused⟩⟩
  · change user.pending.getD [] ++ _ = user.answering.toList ++ (user.waiting ++ _)
    rw [aligned, List.append_assoc]
  · change ((user.answering.toList ++ (user.waiting ++ _)).map PendingRequest.id).Nodup
    rw [← List.append_assoc, ← aligned, List.map_append, List.map_singleton, List.nodup_append]
    have ids := consistent.queued.ids
    rw [← aligned] at ids
    refine ⟨ids, List.nodup_singleton _, ?_⟩
    intro present member other new
    rw [List.mem_singleton.mp new]
    intro same
    have named : present = id := same
    exact fresh (named ▸ member)
  · intro reply request member phase
    rw [List.head?_append, consistent.queued.front reply request member phase, Option.some_or]
  · intro never
    cases never
  · intro request prompting
    cases prompting
    exact Or.inl (List.mem_append_right _ (List.mem_singleton_self _))
  · intro never
    cases never
  · intro request
    rw [places]
    by_cases new : request = ⟨id, user.prompted⟩
    · rw [new, unused, List.count_singleton_self]
    · rw [List.count_eq_zero_of_not_mem (by simpa using new)]
      exact consistent.prompted.once request
  · intro request used
    rw [places] at used
    by_cases new : request = ⟨id, user.prompted⟩
    · rw [new]
      exact Nat.lt_succ_self _
    · rw [List.count_eq_zero_of_not_mem (by simpa using new)] at used
      exact Nat.lt_succ_of_lt (consistent.prompted.numbered request used)

theorem consistent_delivered (consistent : Consistent user) {request : PendingRequest}
    (prompting : user.turn = some (.prompting request)) : Consistent { user with turn := some .listening } := by
  refine ⟨⟨consistent.locked.holds⟩, ⟨consistent.queued.aligned, consistent.queued.nonempty, consistent.queued.ids,
    consistent.queued.front, consistent.queued.refused⟩, ⟨?_, ?_, ?_, ?_, ?_⟩,
    ⟨consistent.answered.oldest, consistent.answered.unused⟩⟩
  · intro never
    cases never
  · intro other never
    cases never
  · intro never
    cases never
  · intro other
    have once := consistent.prompted.once other
    rw [places, denied, prompting] at once
    exact once
  · intro other used
    refine consistent.prompted.numbered other ?_
    rw [places, denied, prompting]
    exact used

theorem filter_id_eq {queue : List PendingRequest} {request : PendingRequest}
    (ids : (queue.map PendingRequest.id).Nodup) (member : request ∈ queue) :
    (queue.filter fun other => other.id ≠ request.id) = queue.filter fun other => other ≠ request := by
  apply List.filter_congr
  intro other present
  have same : other.id = request.id ↔ other = request :=
    ⟨fun named => List.inj_on_of_nodup_map ids present member named, fun same => by rw [same]⟩
  simp only [ne_eq, same]

theorem consistent_undelivered (consistent : Consistent user) {request : PendingRequest}
    (prompting : user.turn = some (.prompting request))
    (untouched : forall reply, reply ∈ user.replies -> forall other, other ∈ reply.request? ->
      user.turn ≠ some (.prompting other)) :
    Consistent { user with
      pending := retainOthers request.id user.pending
      turn := some (.denying request)
      waiting := user.waiting.filter fun other => other ≠ request } := by
  have alone : forall reply, reply ∈ user.replies -> reply.request? ≠ some request :=
    fun reply member about => untouched reply member request about prompting
  have waits : request ∈ user.waiting := by
    rcases consistent.prompted.prompting request prompting with waits | ⟨reply, member, about⟩
    · exact waits
    · exact absurd about (alone reply member)
  have other : forall answered, user.answering = some answered -> answered ≠ request := by
    intro answered found same
    rcases Option.bind_eq_some_iff.mp found with ⟨index, _, at_index⟩
    rcases Option.bind_eq_some_iff.mp at_index with ⟨reply, present, answers⟩
    refine alone reply (List.mem_of_getElem? present) ?_
    rw [← same, ← answers]
    rcases reply with ⟨permission, phase⟩
    cases phase <;> first | rfl | cases answers
  have kept : (user.answering.toList.filter fun present => present ≠ request) = user.answering.toList := by
    rw [List.filter_eq_self]
    intro present member
    simpa using other present (Option.mem_toList.mp member)
  have ids := consistent.queued.ids
  refine ⟨⟨consistent.locked.holds⟩, ⟨?_, ?_, ?_, ?_, consistent.queued.refused⟩, ⟨?_, ?_, ?_, ?_, ?_⟩,
    ⟨consistent.answered.oldest, consistent.answered.unused⟩⟩
  · change (retainOthers request.id user.pending).getD [] = user.answering.toList ++ _ ∨
      user.cancelled = true ∧ retainOthers request.id user.pending = none
    rcases consistent.queued.aligned with same | ⟨cancelled, empty⟩
    · refine Or.inl ?_
      have retained : (retainOthers request.id user.pending).getD [] =
          (user.pending.getD []).filter fun present => present.id ≠ request.id := by
        cases user.pending with
        | none => rfl
        | some requests =>
            simp only [retainOthers, Option.getD_some]
            split
            · rename_i gone
              rw [Option.getD_none, List.isEmpty_iff.mp gone]
            · rfl
      rw [retained, same, filter_id_eq ids (List.mem_append_right _ waits), List.filter_append, kept]
    · rw [empty]
      exact Or.inr ⟨cancelled, rfl⟩
  · change retainOthers request.id user.pending ≠ some []
    cases user.pending with
    | none => simp [retainOthers]
    | some requests =>
        simp only [retainOthers]
        split
        · simp
        · rename_i left
          intro empty
          rw [Option.some.injEq] at empty
          rw [empty] at left
          exact left rfl
  · change ((user.answering.toList ++ _).map PendingRequest.id).Nodup
    exact ids.sublist ((List.filter_sublist.append_left _).map _)
  · intro reply picked member phase
    have head := consistent.queued.front reply picked member phase
    have different : picked ≠ request := by
      intro same
      refine alone reply member ?_
      rw [Reply.request?, phase, same]
    cases waiting : user.waiting with
    | nil =>
        rw [waiting] at head
        cases head
    | cons first rest =>
        rw [waiting] at head
        cases head
        rw [List.filter_cons_of_pos (by simpa using different), List.head?_cons]
  · intro never
    cases never
  · intro other never
    cases never
  · intro never
    cases never
  all_goals
    have moved : forall present, UserState.places { user with
        pending := retainOthers request.id user.pending
        turn := some (.denying request)
        waiting := user.waiting.filter fun other => other ≠ request } present ≤ user.places present := by
      intro present
      have counted := count_filter_ne user.waiting request present
      simp only [UserState.places, denied, prompting, counted, List.count_nil]
      split
      · rename_i same
        rw [same, List.count_singleton_self]
        have positive := List.count_pos_iff.mpr waits
        omega
      · rename_i different
        have elsewhere : [request].count present = 0 := List.count_eq_zero_of_not_mem (by simpa using different)
        omega
  · exact fun present => (moved present).trans (consistent.prompted.once present)
  · exact fun present used => consistent.prompted.numbered present (lt_of_lt_of_le used (moved present))

theorem consistent_deny (consistent : Consistent user) {request : PendingRequest}
    (denying : user.turn = some (.denying request)) (accepted : Bool) :
    Consistent { user with
      turn := some (if accepted then .listening else .abandoning)
      cancelled := user.cancelled || !accepted
      submissions := ⟨request, .denyOnce, none⟩ :: user.submissions } := by
  have moved : forall present, UserState.places { user with
      turn := some (if accepted then .listening else .abandoning)
      cancelled := user.cancelled || !accepted
      submissions := ⟨request, .denyOnce, none⟩ :: user.submissions } present = user.places present := by
    intro present
    cases accepted <;>
      simp only [UserState.places, denied, denying, if_true, Bool.false_eq_true, if_false, List.map_cons,
        List.count_cons, List.count_nil] <;> omega
  refine ⟨⟨consistent.locked.holds⟩, ⟨?_, consistent.queued.nonempty, consistent.queued.ids, consistent.queued.front, ?_⟩,
    ⟨?_, ?_, ?_, ?_, ?_⟩, ⟨?_, consistent.answered.unused⟩⟩
  · refine consistent.queued.aligned.imp_right ?_
    rintro ⟨cancelled, empty⟩
    exact ⟨by rw [cancelled, Bool.true_or], empty⟩
  · intro reply refused member phase
    rw [consistent.queued.refused reply refused member phase, Bool.true_or]
  · intro never
    cases never
  · intro other prompting
    cases accepted <;> cases prompting
  · intro abandoning
    cases accepted with
    | true => cases abandoning
    | false => exact Bool.or_true _
  · intro present
    rw [moved]
    exact consistent.prompted.once present
  · intro present used
    rw [moved] at used
    exact consistent.prompted.numbered present used
  · intro submission waiting member same
    rcases List.mem_cons.mp member with new | before
    · rw [new] at same
      cases same
    · exact consistent.answered.oldest submission waiting before same

theorem consistent_abandon (consistent : Consistent user) (abandoning : user.turn = some .abandoning) :
    Consistent { user with pending := none, turn := some .listening } := by
  refine ⟨⟨consistent.locked.holds⟩, ⟨Or.inr ⟨consistent.prompted.abandoning abandoning, rfl⟩, by simp,
    consistent.queued.ids, consistent.queued.front, consistent.queued.refused⟩, ⟨?_, ?_, ?_, ?_, ?_⟩,
    ⟨consistent.answered.oldest, consistent.answered.unused⟩⟩
  · intro never
    cases never
  · intro other never
    cases never
  · intro never
    cases never
  · intro other
    have once := consistent.prompted.once other
    rw [places, denied, abandoning] at once
    exact once
  · intro other used
    refine consistent.prompted.numbered other ?_
    rw [places, denied, abandoning]
    exact used

theorem consistent_finish (consistent : Consistent user) (empty : user.pending = none)
    (idle : forall reply, reply ∈ user.replies -> reply.underway? = none) :
    Consistent { user with turn := none, waiting := [] } := by
  have fewer : forall present, UserState.places { user with turn := none, waiting := [] } present ≤ user.places present := by
    intro present
    simp only [UserState.places, denied, List.count_nil]
    omega
  have gone : UserState.answering { user with turn := none, waiting := [] } = none := answering_of_idle idle
  refine ⟨⟨consistent.locked.holds⟩, ⟨Or.inl ?_, consistent.queued.nonempty, ?_, ?_, consistent.queued.refused⟩,
    ⟨fun _ => ⟨empty, rfl, idle⟩, ?_, ?_, ?_, ?_⟩, ⟨consistent.answered.oldest, consistent.answered.unused⟩⟩
  · rw [gone]
    change user.pending.getD [] = []
    rw [empty]
    rfl
  · rw [gone]
    exact List.nodup_nil
  · intro reply request member phase
    exact absurd phase (not_picked_of_idle idle member)
  · intro other never
    cases never
  · intro never
    cases never
  · exact fun present => (fewer present).trans (consistent.prompted.once present)
  · exact fun present used => consistent.prompted.numbered present (lt_of_lt_of_le used (fewer present))

theorem consistent_advanceTurn (consistent : Consistent user) {step : TurnStep} {after : UserState}
    (orderly : Orderly user (.turn step)) (moved : user.advanceTurn step = .ok after) : Consistent after := by
  cases step with
  | begin =>
      simp only [advanceTurn] at moved
      split at moved
      · rename_i queued ended _
        cases moved
        exact consistent_begin consistent ended queued
      · cases moved
  | prompt id =>
      simp only [advanceTurn] at moved
      split at moved
      · rename_i listening
        cases moved
        exact consistent_prompt consistent listening id orderly.1 orderly.2
      · cases moved
  | delivered =>
      simp only [advanceTurn] at moved
      split at moved
      · rename_i request prompting
        cases moved
        exact consistent_delivered consistent prompting
      · cases moved
  | undelivered =>
      simp only [advanceTurn] at moved
      split at moved
      · rename_i request prompting
        cases moved
        exact consistent_undelivered consistent prompting orderly
      · cases moved
  | deny accepted =>
      simp only [advanceTurn] at moved
      split at moved
      · rename_i request denying
        cases moved
        exact consistent_deny consistent denying accepted
      · cases moved
  | abandon =>
      simp only [advanceTurn] at moved
      split at moved
      · rename_i abandoning
        cases moved
        exact consistent_abandon consistent abandoning
      · cases moved
  | finish =>
      simp only [advanceTurn] at moved
      split at moved
      · cases moved
        exact consistent_finish consistent orderly.1 orderly.2
      · cases moved

end Turn

/-! ## Runs -/

/-- A user of whom no turn runs has no entry; replies are submitted for the request that waits
longest, and are unused only when none waits or the turn was cancelled; and no request is
submitted twice. -/
structure Sound (user : UserState) : Prop where
  noEntry : user.turn = none -> user.pending = none
  oldest : forall submission waiting, submission ∈ user.submissions -> submission.waiting = some waiting ->
    waiting.head? = some submission.request
  unused : forall reply waiting cancelled, reply ∈ user.replies -> reply.phase = .unused waiting cancelled ->
    waiting = [] ∨ cancelled = true
  once : (user.submissions.map Submission.request).Nodup

theorem Consistent.sound (consistent : Consistent user) : Sound user where
  noEntry ended := (consistent.prompted.turnOver ended).pending
  oldest := consistent.answered.oldest
  unused := consistent.answered.unused
  once := by
    rw [List.nodup_iff_count]
    intro request
    have once := consistent.prompted.once request
    rw [places] at once
    omega

theorem advance_consistent (toLowercase : String -> String) (state : UserState) (step : UserStep) (next : UserState)
    (orderly : Orderly state step) (consistent : Consistent state) (moved : advance toLowercase step state = .ok next) :
    Consistent next := by
  cases step with
  | message text =>
      cases moved
      exact consistent_message toLowercase text consistent
  | turn step => exact consistent_advanceTurn consistent orderly moved
  | reply index step => exact consistent_advanceReply consistent moved

/-- In every orderly run the confirmations of a user are sound. -/
theorem confirmations_sound (toLowercase : String -> String) {steps : List UserStep} {last : UserState}
    (along : Runs.Along (advance toLowercase) Orderly steps start)
    (reached : Runs.run (advance toLowercase) steps start = .ok last) : Sound last :=
  (Runs.run_invariant (advance_consistent toLowercase) along consistent_start reached).sound

/-- A prompt is approved, and the turn goes on to its end. -/
def approvedPrompt : List UserStep :=
  [.message "list the files", .turn .begin, .turn (.prompt "call_1"), .turn .delivered, .message "approve",
    .reply 0 .lock, .reply 0 .pick, .reply 0 (.submit true), .reply 0 .settle, .turn .finish]

theorem approvedPrompt_sound :
    Exists fun last =>
      Runs.run (advance id) approvedPrompt start = .ok last ∧
        last.submissions = [⟨⟨"call_1", 0⟩, .allowOnce, some [⟨"call_1", 0⟩]⟩] ∧ Sound last := by
  have reached : Runs.run (advance id) approvedPrompt start = .ok
      ⟨none, none, false, 0, [⟨.allowOnce, .returned ⟨"call_1", 0⟩⟩], none, 1, [],
        [⟨⟨"call_1", 0⟩, .allowOnce, some [⟨"call_1", 0⟩]⟩]⟩ := by
    decide +kernel
  exact ⟨_, reached, rfl, confirmations_sound id (by decide +kernel) reached⟩

/-- The stream of a turn fails while its prompt waits, and the entry outlives the turn. -/
theorem entry_outlives_turn :
    Exists fun last =>
      Runs.run (advance id)
          [.message "list the files", .turn .begin, .turn (.prompt "call_1"), .turn .delivered, .turn .finish] start =
          .ok last ∧
        last.turn = none ∧ last.pending = some [⟨"call_1", 0⟩] ∧ ¬ Sound last := by
  refine ⟨_, rfl, rfl, rfl, ?_⟩
  intro sound
  cases sound.noEntry rfl

end UserState
end Gateway
end AIBuddy
