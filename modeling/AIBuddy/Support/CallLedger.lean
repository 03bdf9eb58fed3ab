import Mathlib.Data.Finset.Basic
import Mathlib.Data.List.Basic

namespace AIBuddy

/-!
# Calls and their answers

A transcript of calls is a sequence of requests and responses that carry
identifiers.  An identifier is open when its latest event is a request.  A
ledger pass over the transcript accepts a response only when its identifier is
open at that point, and afterwards drops the requests whose identifier is still
open at the end.

Identifiers may be reused, so the pass is studied one identifier at a time: the
history of an identifier is a word over requests and responses, and every
statement about the transcript reduces to one about these words.
-/

/-- A request or a response with its identifier. -/
inductive CallEvent (ι : Type*) where
  | request (id : ι)
  | response (id : ι)
deriving DecidableEq, Repr

namespace CallEvent

variable {ι : Type*}

/-- The identifier an event is about. -/
def callId : CallEvent ι -> ι
  | request id | response id => id

/-- Whether an event is a request. -/
def isRequest : CallEvent ι -> Bool
  | request _ => true
  | response _ => false

end CallEvent

namespace CallLedger

open CallEvent

variable {ι : Type*} [DecidableEq ι]

/-! ## Histories of one identifier -/

/-- The events of one identifier, a request as `true` and a response as `false`. -/
def history (id : ι) (events : List (CallEvent ι)) : List Bool :=
  (events.filter fun event => event.callId = id).map isRequest

@[simp] theorem history_nil (id : ι) : history id [] = [] := rfl

@[simp] theorem history_append (id : ι) (before after : List (CallEvent ι)) :
    history id (before ++ after) = history id before ++ history id after := by
  simp [history]

@[simp] theorem history_request (id other : ι) (events : List (CallEvent ι)) :
    history id (request other :: events) =
      if other = id then true :: history id events else history id events := by
  by_cases same : other = id <;> simp [history, callId, isRequest, same]

@[simp] theorem history_response (id other : ι) (events : List (CallEvent ι)) :
    history id (response other :: events) =
      if other = id then false :: history id events else history id events := by
  by_cases same : other = id <;> simp [history, callId, isRequest, same]

/-- The identifier's latest event is a request. -/
def IsOpen (id : ι) (events : List (CallEvent ι)) : Prop :=
  (history id events).getLast? = some true

instance (id : ι) (events : List (CallEvent ι)) : Decidable (IsOpen id events) :=
  inferInstanceAs (Decidable (_ = _))

/-! ## The ledger pass -/

/-- The open identifiers after one more event. -/
def record (pending : Finset ι) : CallEvent ι -> Finset ι
  | request id => insert id pending
  | response id => pending.erase id

/-- The events the pass lets through: requests that are not dropped, and
responses to identifiers open at that point. -/
def settle (dropped : ι -> Bool) (pending : Finset ι) : List (CallEvent ι) -> List (CallEvent ι)
  | [] => []
  | request id :: rest =>
      if dropped id then settle dropped (insert id pending) rest
      else request id :: settle dropped (insert id pending) rest
  | response id :: rest =>
      if id ∈ pending then response id :: settle dropped (pending.erase id) rest
      else settle dropped pending rest

theorem mem_foldl_record (id : ι) (pending : Finset ι) (events : List (CallEvent ι)) :
    id ∈ events.foldl record pending ↔
      ((history id events).getLast?.getD (decide (id ∈ pending))) = true := by
  induction events generalizing pending with
  | nil => simp
  | cons event rest ih =>
      rw [List.foldl_cons, ih]
      cases event with
      | request other =>
          by_cases same : other = id
          · subst same
            cases last : (history other rest).getLast? <;> simp [record, List.getLast?_cons, last]
          · simp [record, same, Ne.symm (a := other) same]
      | response other =>
          by_cases same : other = id
          · subst same
            cases last : (history other rest).getLast? <;> simp [record, List.getLast?_cons, last]
          · simp [record, same, Ne.symm (a := other) same]

theorem mem_pending_iff (id : ι) (events : List (CallEvent ι)) :
    id ∈ events.foldl record ∅ ↔ IsOpen id events := by
  rw [mem_foldl_record, IsOpen]
  cases (history id events).getLast? <;> simp

theorem settle_append (dropped : ι -> Bool) (pending : Finset ι) (before after : List (CallEvent ι)) :
    settle dropped pending (before ++ after) =
      settle dropped pending before ++ settle dropped (before.foldl record pending) after := by
  induction before generalizing pending with
  | nil => rfl
  | cons event rest ih =>
      cases event with
      | request id =>
          cases drop : dropped id <;> simp [settle, record, drop, ih]
      | response id =>
          by_cases member : id ∈ pending
          · simp [settle, record, member, ih]
          · simp [settle, record, member, ih]

theorem settle_eq_filter (dropped : ι -> Bool) (pending : Finset ι) (events : List (CallEvent ι)) :
    settle dropped pending events =
      (settle (fun _ => false) pending events).filter fun event =>
        !(event.isRequest && dropped event.callId) := by
  induction events generalizing pending with
  | nil => rfl
  | cons event rest ih =>
      cases event with
      | request id =>
          cases drop : dropped id <;> simp [settle, isRequest, callId, drop, ih]
      | response id =>
          by_cases member : id ∈ pending <;> simp [settle, isRequest, member, ih]

theorem settle_sublist (dropped : ι -> Bool) (pending : Finset ι) (events : List (CallEvent ι)) :
    (settle dropped pending events).Sublist events := by
  induction events generalizing pending with
  | nil => exact List.Sublist.refl _
  | cons event rest ih =>
      cases event with
      | request id =>
          cases drop : dropped id
          · simpa [settle, drop] using ih (insert id pending)
          · simpa [settle, drop] using (ih (insert id pending)).cons (request id)
      | response id =>
          by_cases member : id ∈ pending
          · simpa [settle, member] using ih (pending.erase id)
          · simpa [settle, member] using (ih pending).cons (response id)

/-- The pass removes nothing from a transcript exactly when it removes nothing
from either part of it. -/
theorem settle_append_eq_iff (dropped : ι -> Bool) (pending : Finset ι) (before after : List (CallEvent ι)) :
    settle dropped pending (before ++ after) = before ++ after ↔
      settle dropped pending before = before ∧
        settle dropped (before.foldl record pending) after = after := by
  rw [settle_append]
  constructor
  · intro whole
    have front := settle_sublist dropped pending before
    have back := settle_sublist dropped (before.foldl record pending) after
    have total := congrArg List.length whole
    simp only [List.length_append] at total
    have frontLe := front.length_le
    have backLe := back.length_le
    exact ⟨front.eq_of_length (by omega), back.eq_of_length (by omega)⟩
  · rintro ⟨front, back⟩
    rw [front, back]

theorem settle_eq_self_iff (dropped : ι -> Bool) (pending : Finset ι) (events : List (CallEvent ι)) :
    settle dropped pending events = events ↔
      settle (fun _ => false) pending events = events ∧
        forall event, event ∈ events -> (event.isRequest && dropped event.callId) = false := by
  rw [settle_eq_filter]
  constructor
  · intro whole
    have front := settle_sublist (fun _ => false) pending events
    have back := List.filter_sublist (p := fun event : CallEvent ι => !(event.isRequest && dropped event.callId))
      (l := settle (fun _ => false) pending events)
    have total := congrArg List.length whole
    have frontLe := front.length_le
    have backLe := back.length_le
    have accepted := front.eq_of_length (by omega)
    refine ⟨accepted, fun event member => ?_⟩
    rw [accepted] at whole
    simpa only [Bool.not_eq_true'] using List.filter_eq_self.mp whole event member
  · rintro ⟨accepted, kept⟩
    rw [accepted, List.filter_eq_self]
    intro event member
    rw [kept event member]
    rfl

/-! ## The pass on one history -/

/-- The pass as one identifier sees it: its requests are dropped or all kept,
and a response is kept when a request came since the last one. -/
def settleHistory (dropped isOpen : Bool) : List Bool -> List Bool
  | [] => []
  | true :: rest =>
      if dropped then settleHistory dropped true rest else true :: settleHistory dropped true rest
  | false :: rest =>
      if isOpen then false :: settleHistory dropped false rest else settleHistory dropped false rest

theorem history_settle (dropped : ι -> Bool) (pending : Finset ι) (id : ι)
    (events : List (CallEvent ι)) :
    history id (settle dropped pending events) =
      settleHistory (dropped id) (decide (id ∈ pending)) (history id events) := by
  induction events generalizing pending with
  | nil => rfl
  | cons event rest ih =>
      cases event with
      | request other =>
          by_cases same : other = id
          · subst same
            cases drop : dropped other <;> simp [settle, settleHistory, drop, ih]
          · cases drop : dropped other <;>
              simp [settle, drop, same, ih, Ne.symm (a := other) same]
      | response other =>
          by_cases same : other = id
          · subst same
            by_cases member : other ∈ pending <;>
              simp [settle, settleHistory, member, ih]
          · by_cases member : other ∈ pending <;>
              simp [settle, member, same, ih, Ne.symm (a := other) same]

/-- Every request of the history is followed by exactly one response, and every
response is preceded by a request. -/
def HistoryAnsweredOnce (word : List Bool) : Prop :=
  (forall before after, word = before ++ true :: after -> after.count false = 1) ∧
    forall before after, word = before ++ false :: after -> true ∈ before

private theorem eq_replicate_of_not_mem {word : List Bool} (absent : false ∉ word) :
    word = List.replicate word.length true := by
  refine List.eq_replicate_iff.mpr ⟨rfl, fun letter member => ?_⟩
  cases letter with
  | true => rfl
  | false => exact absurd member absent

/-- Such a history is a block of requests closed by a single response. -/
theorem historyAnsweredOnce_iff (word : List Bool) :
    HistoryAnsweredOnce word ↔
      word = [] ∨ Exists fun count => word = true :: (List.replicate count true ++ [false]) := by
  constructor
  · rintro ⟨once, preceded⟩
    cases word with
    | nil => exact Or.inl rfl
    | cons letter rest =>
        right
        cases letter with
        | false => exact absurd (preceded [] rest rfl) List.not_mem_nil
        | true =>
            have single : rest.count false = 1 := once [] rest rfl
            have occurs : false ∈ rest := List.count_pos_iff.mp (by omega)
            rcases List.append_of_mem occurs with ⟨front, back, rfl⟩
            rw [List.count_append, List.count_cons_self] at single
            have frontClear : false ∉ front := List.count_eq_zero.mp (by omega)
            have backClear : false ∉ back := List.count_eq_zero.mp (by omega)
            rw [eq_replicate_of_not_mem frontClear]
            cases backShape : back.reverse with
            | nil => exact ⟨front.length, by rw [List.reverse_eq_nil_iff.mp backShape]⟩
            | cons last others =>
                have backEq : back = others.reverse ++ [last] := by
                  rw [← List.reverse_reverse back, backShape, List.reverse_cons]
                have lastTrue : last = true := by
                  cases last with
                  | true => rfl
                  | false => exact absurd (by simp [backEq]) backClear
                have noneAfter := once (true :: front ++ false :: others.reverse) []
                  (by simp [backEq, lastTrue])
                simp at noneAfter
  · rintro (rfl | ⟨count, rfl⟩)
    · exact ⟨by simp, by simp⟩
    · refine ⟨fun before after split => ?_, fun before after split => ?_⟩
      · have total := congrArg (List.count false) split
        rw [List.count_append] at total
        have beforeClear : List.count false before = 0 := by
          rw [List.count_eq_zero]
          intro member
          have cut := congrArg List.dropLast split
          have short : true :: List.replicate count true = before ++ (true :: after).dropLast := by
            have appended : (true :: (List.replicate count true ++ [false])).dropLast =
                true :: List.replicate count true := by
              rw [← List.cons_append, List.dropLast_concat]
            rw [← appended, cut, List.dropLast_append_of_ne_nil (List.cons_ne_nil _ _)]
          have inFront : false ∈ true :: List.replicate count true := by
            rw [short]
            exact List.mem_append_left _ member
          simp at inFront
        simp [beforeClear, List.count_replicate] at total
        omega
      · cases before with
        | nil => simp at split
        | cons first before =>
            rw [List.cons_append, List.cons.injEq] at split
            rw [← split.1]
            exact List.mem_cons_self

private theorem settleHistory_closed_eq_nil_iff (word : List Bool) :
    settleHistory false false word = [] ↔ true ∉ word := by
  induction word with
  | nil => simp [settleHistory]
  | cons letter rest ih =>
      cases letter <;> simp [settleHistory, ih]

private theorem settleHistory_open_iff (word : List Bool) (ended : word.getLast? = some false) :
    (Exists fun count => settleHistory false true word = List.replicate count true ++ [false]) ↔
      ¬ [false, true].Sublist word := by
  induction word with
  | nil => simp at ended
  | cons letter rest ih =>
      cases letter with
      | false =>
          have reopened : [false, true].Sublist (false :: rest) ↔ true ∈ rest := by
            rw [List.cons_sublist_cons, List.singleton_sublist]
          rw [reopened, ← settleHistory_closed_eq_nil_iff]
          simp only [settleHistory, if_true]
          constructor
          · rintro ⟨count, shape⟩
            cases count with
            | zero => simpa using shape
            | succ count => simp [List.replicate_succ] at shape
          · intro empty
            exact ⟨0, by simp [empty]⟩
      | true =>
          have restEnded : rest.getLast? = some false := by
            cases rest with
            | nil => simp at ended
            | cons next rest => simpa [List.getLast?_cons_cons] using ended
          have skip : [false, true].Sublist (true :: rest) ↔ [false, true].Sublist rest := by
            simp [List.sublist_cons_iff]
          rw [skip, ← ih restEnded]
          simp only [settleHistory, Bool.false_eq_true, if_false]
          constructor
          · rintro ⟨count, shape⟩
            cases count with
            | zero => simp at shape
            | succ count => exact ⟨count, by simpa [List.replicate_succ] using shape⟩
          · rintro ⟨count, shape⟩
            exact ⟨count + 1, by simp [List.replicate_succ, shape]⟩

private theorem settleHistory_dropping_eq_nil_iff (word : List Bool) :
    (settleHistory true true word = [] ↔ false ∉ word) ∧
      (settleHistory true false word = [] ↔ ¬ [true, false].Sublist word) := by
  induction word with
  | nil => simp [settleHistory]
  | cons letter rest ih =>
      cases letter with
      | true =>
          refine ⟨by simpa [settleHistory] using ih.1, ?_⟩
          rw [List.cons_sublist_cons, List.singleton_sublist]
          simpa [settleHistory] using ih.1
      | false =>
          refine ⟨by simp [settleHistory], ?_⟩
          have skip : [true, false].Sublist (false :: rest) ↔ [true, false].Sublist rest := by
            simp [List.sublist_cons_iff]
          rw [skip]
          simpa [settleHistory] using ih.2

private theorem settleHistory_dropping_requestFree (isOpen : Bool) (word : List Bool) :
    true ∉ settleHistory true isOpen word := by
  induction word generalizing isOpen with
  | nil => simp [settleHistory]
  | cons letter rest ih =>
      cases letter <;> cases isOpen <;> simp [settleHistory, ih]

/-- Dropping the requests of an identifier that ends open, the pass leaves a
history answered once exactly when the identifier was never answered and then
requested again. -/
theorem settleHistory_answeredOnce_iff (word : List Bool) :
    HistoryAnsweredOnce (settleHistory (word.getLast? = some true) false word) ↔
      ¬ [true, false, true].Sublist word := by
  by_cases endsOpen : word.getLast? = some true
  · simp only [endsOpen, decide_true]
    have emptied : HistoryAnsweredOnce (settleHistory true false word) ↔
        settleHistory true false word = [] := by
      rw [historyAnsweredOnce_iff]
      refine or_iff_left ?_
      rintro ⟨count, shape⟩
      apply settleHistory_dropping_requestFree false word
      rw [shape]
      exact List.mem_cons_self
    have reopened : [true, false, true].Sublist word ↔ [true, false].Sublist word := by
      rcases List.getLast?_eq_some_iff.mp endsOpen with ⟨front, rfl⟩
      constructor
      · intro pattern
        exact (List.sublist_append_left [true, false] [true]).trans pattern
      · intro pattern
        have inFront : [true, false].Sublist front := by
          rcases List.sublist_append_iff.mp pattern with ⟨first, second, split, left, right⟩
          rcases List.sublist_singleton.mp right with rfl | rfl
          · rw [split, List.append_nil]
            exact left
          · have lastLetter := congrArg List.getLast? split
            simp at lastLetter
        exact inFront.append (List.Sublist.refl [true])
    rw [emptied, reopened]
    exact (settleHistory_dropping_eq_nil_iff word).2
  · simp only [endsOpen, decide_false]
    induction word with
    | nil => simp [settleHistory, historyAnsweredOnce_iff]
    | cons letter rest ih =>
        cases letter with
        | false =>
            have skip : [true, false, true].Sublist (false :: rest) ↔
                [true, false, true].Sublist rest := by
              simp [List.sublist_cons_iff]
            rw [skip]
            simp only [settleHistory, Bool.false_eq_true, if_false]
            apply ih
            intro restOpen
            apply endsOpen
            simp [List.getLast?_cons, restOpen]
        | true =>
            have restEnded : rest.getLast? = some false := by
              cases last : rest.getLast? with
              | none => simp [List.getLast?_cons, last] at endsOpen
              | some letter =>
                  cases letter with
                  | false => rfl
                  | true => simp [List.getLast?_cons, last] at endsOpen
            rw [List.cons_sublist_cons, ← settleHistory_open_iff rest restEnded,
              historyAnsweredOnce_iff]
            simp [settleHistory]

private theorem settleHistory_getLast (isOpen : Bool) (word : List Bool)
    (ends : (settleHistory false isOpen word).getLast? = some true) : word.getLast? = some true := by
  induction word generalizing isOpen with
  | nil => simp [settleHistory] at ends
  | cons letter rest ih =>
      have restEnds : (Exists fun isOpen => (settleHistory false isOpen rest).getLast? = some true) ∨
          letter = true ∧ rest = [] := by
        cases letter with
        | false =>
            left
            cases isOpen with
            | false => exact ⟨false, by simpa [settleHistory] using ends⟩
            | true =>
                refine ⟨false, ?_⟩
                simp only [settleHistory, if_true, List.getLast?_cons] at ends
                cases last : (settleHistory false false rest).getLast? <;> simp [last] at ends ⊢
                exact ends
        | true =>
            cases rest with
            | nil => exact Or.inr ⟨rfl, rfl⟩
            | cons next rest =>
                left
                refine ⟨true, ?_⟩
                have kept : settleHistory false true (next :: rest) ≠ [] := by
                  cases next <;> simp [settleHistory]
                simp only [settleHistory, Bool.false_eq_true, if_false] at ends
                rwa [List.getLast?_cons_of_ne_nil kept] at ends
      rcases restEnds with ⟨isOpen, restEnds⟩ | ⟨rfl, rfl⟩
      · rw [List.getLast?_cons, ih isOpen restEnds]
        rfl
      · rfl

theorem settle_getLast_ne_request (events : List (CallEvent ι)) (id : ι) :
    (settle (fun id => decide (id ∈ events.foldl record ∅)) ∅ events).getLast? ≠ some (request id) := by
  intro last
  rcases List.getLast?_eq_some_iff.mp last with ⟨front, split⟩
  have word := congrArg (history id) split
  rw [history_settle, history_append, history_request, if_pos rfl, history_nil] at word
  by_cases isOpen : id ∈ events.foldl record ∅
  · simp only [isOpen, decide_true] at word
    apply settleHistory_dropping_requestFree (decide (id ∈ (∅ : Finset ι))) (history id events)
    rw [word]
    exact List.mem_append_right _ (List.mem_singleton_self true)
  · simp only [isOpen, decide_false] at word
    apply isOpen
    rw [mem_pending_iff]
    exact settleHistory_getLast _ _ (by rw [word, List.getLast?_concat])

/-! ## The pass on a rest of its own result -/

private theorem settleHistory_append (dropped isOpen : Bool) (front back : List Bool) :
    settleHistory dropped isOpen (front ++ back) =
      settleHistory dropped isOpen front ++ settleHistory dropped (front.getLast?.getD isOpen) back := by
  induction front generalizing isOpen with
  | nil => rfl
  | cons letter rest ih =>
      cases letter <;> cases dropped <;> cases isOpen <;>
        simp [settleHistory, ih, List.getLast?_cons]

private theorem settleHistory_length_le (dropped isOpen : Bool) (word : List Bool) :
    (settleHistory dropped isOpen word).length ≤ word.length := by
  induction word generalizing isOpen with
  | nil => simp [settleHistory]
  | cons letter rest ih =>
      have closed := ih false
      have opened := ih true
      cases letter <;> cases dropped <;> cases isOpen <;> simp [settleHistory] <;> omega

private theorem settleHistory_settled (isOpen : Bool) (word : List Bool) :
    settleHistory false isOpen (settleHistory false isOpen word) = settleHistory false isOpen word := by
  induction word generalizing isOpen with
  | nil => rfl
  | cons letter rest ih =>
      cases letter <;> cases isOpen <;> simp [settleHistory, ih]

private theorem settleHistory_answerless (isOpen : Bool) (word : List Bool)
    (answerless : false ∉ settleHistory false isOpen word) (requested : isOpen = true ∨ true ∈ word) :
    word.getLast?.getD isOpen = true := by
  induction word generalizing isOpen with
  | nil => simpa using requested
  | cons letter rest ih =>
      rw [List.getLast?_cons]
      cases letter with
      | true =>
          have restAnswerless : false ∉ settleHistory false true rest := by
            simpa [settleHistory] using answerless
          simpa using ih true restAnswerless (Or.inl rfl)
      | false =>
          cases isOpen with
          | true => simp [settleHistory] at answerless
          | false =>
              have inRest : true ∈ rest := by simpa using requested
              simpa using ih false (by simpa [settleHistory] using answerless) (Or.inr inRest)

/-- When nothing was accepted before a cut, the pass leaves its own result after
the cut alone exactly when an open identifier was never answered, and one that
was requested before the cut is not answered first thing after it. -/
private theorem settleHistory_cut_iff (front back : List Bool) (dropped : Bool)
    (dropping : dropped = decide ((front ++ back).getLast? = some true))
    (answerless : false ∉ settleHistory dropped false front) (kept : List Bool)
    (keptEq : kept = settleHistory dropped (front.getLast?.getD false) back) :
    settleHistory (decide (kept.getLast? = some true)) false kept = kept ↔
      if dropped then ¬ [true, false].Sublist (front ++ back)
      else true ∈ front -> back.head? ≠ some false := by
  cases dropped with
  | true =>
      have requestFree : true ∉ kept := by
        rw [keptEq]
        exact settleHistory_dropping_requestFree _ back
      have frontEmpty : settleHistory true false front = [] := by
        refine List.eq_nil_iff_forall_not_mem.mpr fun letter member => ?_
        cases letter with
        | true => exact settleHistory_dropping_requestFree false front member
        | false => exact answerless member
      have closed : kept.getLast? ≠ some true := fun last => requestFree (List.mem_of_getLast? last)
      have refused : settleHistory false false kept = [] :=
        (settleHistory_closed_eq_nil_iff kept).mpr requestFree
      have whole : settleHistory true false (front ++ back) = kept := by
        rw [settleHistory_append, frontEmpty, List.nil_append, keptEq]
      simp only [closed, decide_false, refused, if_true]
      rw [← (settleHistory_dropping_eq_nil_iff (front ++ back)).2, whole, eq_comm]
  | false =>
      have endsClosed : (front ++ back).getLast? ≠ some true := by simpa using dropping.symm
      have closed : kept.getLast? ≠ some true := by
        intro last
        rw [keptEq] at last
        apply endsClosed
        rw [List.getLast?_append, settleHistory_getLast _ back last]
        rfl
      simp only [closed, decide_false, Bool.false_eq_true, if_false]
      cases isOpen : front.getLast?.getD false with
      | false =>
          rw [isOpen] at keptEq
          rw [keptEq, settleHistory_settled]
          simp only [true_iff]
          intro requested
          have stillOpen := settleHistory_answerless false front answerless (Or.inr requested)
          rw [isOpen] at stillOpen
          exact absurd stillOpen (by decide)
      | true =>
          have requested : true ∈ front := by
            cases last : front.getLast? with
            | none => simp [last] at isOpen
            | some letter =>
                have isTrue : letter = true := by simpa [last] using isOpen
                exact isTrue ▸ List.mem_of_getLast? last
          rw [isOpen] at keptEq
          cases back with
          | nil => simp [keptEq, settleHistory]
          | cons letter rest =>
              cases letter with
              | true =>
                  simp [keptEq, settleHistory, settleHistory_settled]
              | false =>
                  have shape : kept = false :: settleHistory false false rest := by
                    rw [keptEq]
                    rfl
                  have shorter := settleHistory_length_le false false (settleHistory false false rest)
                  have differs : settleHistory false false kept ≠ kept := by
                    intro same
                    have lengths := congrArg List.length same
                    rw [shape] at lengths
                    simp only [settleHistory, Bool.false_eq_true, if_false, List.length_cons] at lengths
                    omega
                  simp [differs, requested]

/-! ## Transcripts answered once -/

/-- Every request is followed by exactly one response with its identifier, and
every response is preceded by a request with its identifier. -/
def AnsweredOnce (events : List (CallEvent ι)) : Prop :=
  (forall before id after, events = before ++ request id :: after -> after.count (response id) = 1) ∧
    forall before id after, events = before ++ response id :: after -> request id ∈ before

theorem count_history (id : ι) (events : List (CallEvent ι)) :
    (history id events).count false = events.count (response id) := by
  induction events with
  | nil => rfl
  | cons event rest ih =>
      cases event with
      | request other =>
          by_cases same : other = id <;> simp [same, ih]
      | response other =>
          by_cases same : other = id <;> simp [same, ih]

theorem mem_history_true (id : ι) (events : List (CallEvent ι)) :
    true ∈ history id events ↔ request id ∈ events := by
  induction events with
  | nil => simp
  | cons event rest ih =>
      cases event with
      | request other =>
          by_cases same : other = id <;> simp [same, ih, eq_comm (a := id)]
      | response other =>
          by_cases same : other = id <;> simp [same, ih]

private theorem history_split (id : ι) (events : List (CallEvent ι)) (letter : Bool)
    (before after : List Bool) (split : history id events = before ++ letter :: after) :
    Exists fun front => Exists fun back =>
      events = front ++ (if letter then request id else response id) :: back ∧
        history id front = before ∧ history id back = after := by
  rw [history, List.map_eq_append_iff] at split
  rcases split with ⟨front, rest, filtered, frontEq, restEq⟩
  rcases List.map_eq_cons_iff.mp restEq with ⟨event, back, rfl, letterEq, backEq⟩
  rcases List.filter_eq_append_iff.mp filtered with ⟨left, right, rfl, leftEq, rightEq⟩
  rcases List.filter_eq_cons_iff.mp rightEq with ⟨skipped, later, rfl, skippedClear, selected, laterEq⟩
  have skippedHistory : history id skipped = [] := by
    simp only [history, List.map_eq_nil_iff, List.filter_eq_nil_iff]
    exact skippedClear
  have eventEq : event = if letter then request id else response id := by
    subst letterEq
    cases event with
    | request other => simp [isRequest, show other = id from of_decide_eq_true selected]
    | response other => simp [isRequest, show other = id from of_decide_eq_true selected]
  refine ⟨left ++ skipped, later, by rw [← eventEq, List.append_assoc], ?_, ?_⟩
  · rw [history_append, skippedHistory, List.append_nil, ← frontEq, ← leftEq, history]
  · rw [← backEq, ← laterEq, history]

theorem answeredOnce_iff (events : List (CallEvent ι)) :
    AnsweredOnce events ↔ forall id, HistoryAnsweredOnce (history id events) := by
  constructor
  · rintro ⟨once, preceded⟩ id
    refine ⟨fun before after split => ?_, fun before after split => ?_⟩
    · rcases history_split id events true before after split with ⟨front, back, eventsEq, _, backEq⟩
      rw [← backEq, count_history]
      exact once front id back eventsEq
    · rcases history_split id events false before after split with ⟨front, back, eventsEq, frontEq, _⟩
      rw [← frontEq, mem_history_true]
      exact preceded front id back eventsEq
  · intro histories
    refine ⟨fun before id after split => ?_, fun before id after split => ?_⟩
    · rw [← count_history]
      apply (histories id).1 (history id before)
      rw [split, history_append, history_request, if_pos rfl]
    · rw [← mem_history_true]
      apply (histories id).2 (history id before) (history id after)
      rw [split, history_append, history_response, if_pos rfl]

/-- The event of an identifier that a letter of its history stands for. -/
def letterEvent (id : ι) (letter : Bool) : CallEvent ι :=
  if letter then request id else response id

theorem sublist_history_iff (id : ι) (word : List Bool) (events : List (CallEvent ι)) :
    word.Sublist (history id events) ↔ (word.map (letterEvent id)).Sublist events := by
  constructor
  · intro pattern
    rcases List.sublist_map_iff.mp pattern with ⟨chosen, sublist, rfl⟩
    have chosenEq : (chosen.map isRequest).map (letterEvent id) = chosen := by
      rw [List.map_map]
      refine (List.map_congr_left fun event member => ?_).trans (List.map_id chosen)
      have own : event.callId = id := by simpa using (List.mem_filter.mp (sublist.mem member)).2
      subst own
      cases event <;> rfl
    rw [chosenEq]
    exact sublist.trans List.filter_sublist
  · intro pattern
    have filtered := (pattern.filter fun event => decide (event.callId = id)).map isRequest
    have letters : ((word.map (letterEvent id)).filter fun event => decide (event.callId = id)).map isRequest =
        word := by
      induction word with
      | nil => rfl
      | cons letter rest ih =>
          have tail := ih ((List.sublist_cons_self _ _).trans pattern)
            (((List.sublist_cons_self _ _).trans pattern).filter _ |>.map _)
          cases letter <;> simpa [letterEvent, callId, isRequest] using tail
    rw [letters] at filtered
    exact filtered

theorem settle_answeredOnce_iff (events : List (CallEvent ι)) :
    AnsweredOnce (settle (fun id => decide (id ∈ events.foldl record ∅)) ∅ events) ↔
      forall id, ¬ [request id, response id, request id].Sublist events := by
  rw [answeredOnce_iff]
  refine forall_congr' fun id => ?_
  have dropped : decide (id ∈ events.foldl record ∅) =
      decide ((history id events).getLast? = some true) :=
    decide_eq_decide.mpr (mem_pending_iff id events)
  have reused := sublist_history_iff id [true, false, true] events
  simp only [List.map_cons, List.map_nil, letterEvent, if_true, Bool.false_eq_true, if_false] at reused
  rw [history_settle, dropped, ← reused]
  simpa using settleHistory_answeredOnce_iff (history id events)

/-! ## Transcripts the pass leaves alone -/

theorem count_request_history (id : ι) (events : List (CallEvent ι)) :
    (history id events).count true = events.count (request id) := by
  induction events with
  | nil => rfl
  | cons event rest ih =>
      cases event with
      | request other =>
          by_cases same : other = id <;> simp [same, ih]
      | response other =>
          by_cases same : other = id <;> simp [same, ih]

theorem eq_of_histories {part events : List (CallEvent ι)} (sublist : part.Sublist events)
    (histories : forall id, history id part = history id events) : part = events := by
  have counts : forall event, part.count event = events.count event := by
    intro event
    cases event with
    | request id => rw [← count_request_history, ← count_request_history, histories]
    | response id => rw [← count_history, ← count_history, histories]
  exact sublist.eq_of_length (List.perm_iff_count.mpr counts).length_eq

theorem settle_cut_iff (front back : List (CallEvent ι)) (dropped : ι -> Bool)
    (dropping : dropped = fun id => decide (id ∈ (front ++ back).foldl record ∅))
    (answerless : forall id, response id ∉ settle dropped ∅ front) (kept : List (CallEvent ι))
    (keptEq : kept = settle dropped (front.foldl record ∅) back) :
    settle (fun id => decide (id ∈ kept.foldl record ∅)) ∅ kept = kept ↔
      forall id, if IsOpen id (front ++ back) then ¬ [request id, response id].Sublist (front ++ back)
        else request id ∈ front -> (history id back).head? ≠ some false := by
  have byHistory : settle (fun id => decide (id ∈ kept.foldl record ∅)) ∅ kept = kept ↔
      forall id, history id (settle (fun id => decide (id ∈ kept.foldl record ∅)) ∅ kept) = history id kept :=
    ⟨fun same id => by rw [same], eq_of_histories (settle_sublist _ _ _)⟩
  rw [byHistory]
  refine forall_congr' fun id => ?_
  have isOpen : forall events : List (CallEvent ι),
      decide (id ∈ events.foldl record ∅) = decide ((history id events).getLast? = some true) :=
    fun events => decide_eq_decide.mpr (mem_pending_iff id events)
  have frontOpen : decide (id ∈ front.foldl record ∅) = (history id front).getLast?.getD false := by
    rw [isOpen]
    cases (history id front).getLast? <;> simp
  have frontAnswerless : false ∉ settleHistory (dropped id) false (history id front) := by
    have none := answerless id
    rw [← List.count_eq_zero, ← count_history, List.count_eq_zero, history_settle] at none
    simpa using none
  have answered := sublist_history_iff id [true, false] (front ++ back)
  simp only [List.map_cons, List.map_nil, letterEvent, if_true, Bool.false_eq_true, if_false] at answered
  have cut := settleHistory_cut_iff (history id front) (history id back) (dropped id)
    (by rw [dropping, ← history_append, ← isOpen]) frontAnswerless (history id kept)
    (by rw [keptEq, history_settle, frontOpen])
  rw [history_settle, isOpen, ← mem_history_true, ← answered]
  simp only [IsOpen, history_append] at cut ⊢
  rw [dropping] at cut
  simp only [isOpen, history_append, decide_eq_true_eq] at cut
  simpa using cut

end CallLedger
end AIBuddy
