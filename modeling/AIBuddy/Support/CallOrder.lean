import AIBuddy.Support.CallLedger

namespace AIBuddy
namespace CallLedger

/-!
# Calls moved in front of answers

A transcript may be written down with some of its requests moved in front of responses
that came before them.  The order of the requests stays, and an identifier that has one
request with one response behind it still has.
-/

open CallEvent

variable {ι : Type*}

/-! ## Requests and responses of a transcript -/

def requestId : CallEvent ι -> Option ι
  | request id => some id
  | response _ => none

def responseId : CallEvent ι -> Option ι
  | request _ => none
  | response id => some id

/-- The identifiers of the requests, in order. -/
def requestIds (events : List (CallEvent ι)) : List ι :=
  events.filterMap requestId

/-- The identifiers of the responses, in order. -/
def responseIds (events : List (CallEvent ι)) : List ι :=
  events.filterMap responseId

theorem requestIds_append (front back : List (CallEvent ι)) :
    requestIds (front ++ back) = requestIds front ++ requestIds back :=
  List.filterMap_append

theorem requestIds_map_request (ids : List ι) : requestIds (ids.map request) = ids := by
  rw [requestIds, List.filterMap_map]
  exact List.filterMap_some

theorem requestIds_map_response (ids : List ι) : requestIds (ids.map response) = [] := by
  rw [requestIds, List.filterMap_map]
  exact List.filterMap_none ids

/-! ## Moving requests forward -/

/-- The second transcript is the first with requests moved in front of responses. -/
inductive Hoists : List (CallEvent ι) -> List (CallEvent ι) -> Prop where
  | refl (events : List (CallEvent ι)) : Hoists events events
  | swap (front back : List (CallEvent ι)) (answer call : ι) :
      Hoists (front ++ response answer :: request call :: back) (front ++ request call :: response answer :: back)
  | trans {first second third : List (CallEvent ι)} :
      Hoists first second -> Hoists second third -> Hoists first third

namespace Hoists

variable {before after : List (CallEvent ι)}

theorem append_left (hoists : Hoists before after) (front : List (CallEvent ι)) :
    Hoists (front ++ before) (front ++ after) := by
  induction hoists with
  | refl events => exact refl _
  | swap left right answer call =>
      rw [← List.append_assoc, ← List.append_assoc]
      exact swap (front ++ left) right answer call
  | trans _ _ firstHypothesis secondHypothesis => exact trans firstHypothesis secondHypothesis

theorem append_right (hoists : Hoists before after) (back : List (CallEvent ι)) :
    Hoists (before ++ back) (after ++ back) := by
  induction hoists with
  | refl events => exact refl _
  | swap left right answer call =>
      rw [List.append_assoc, List.append_assoc]
      exact swap left (right ++ back) answer call
  | trans _ _ firstHypothesis secondHypothesis => exact trans firstHypothesis secondHypothesis

theorem append {otherBefore otherAfter : List (CallEvent ι)} (hoists : Hoists before after)
    (others : Hoists otherBefore otherAfter) : Hoists (before ++ otherBefore) (after ++ otherAfter) :=
  trans (hoists.append_right otherBefore) (others.append_left after)

theorem of_eq (same : before = after) : Hoists before after := by
  rw [same]
  exact refl after

theorem answer_calls (answer : ι) (calls : List ι) :
    Hoists (response answer :: calls.map request) (calls.map request ++ [response answer]) := by
  induction calls with
  | nil => exact refl _
  | cons call rest ih =>
      refine trans (swap [] (rest.map request) answer call) ?_
      exact ih.append_left [request call]

/-- All requests of a transcript can be moved to its front. -/
theorem partition (events : List (CallEvent ι)) :
    Hoists events ((requestIds events).map request ++ (responseIds events).map response) := by
  induction events with
  | nil => exact refl _
  | cons event rest ih =>
      cases event with
      | request id => exact ih.append_left [request id]
      | response id =>
          refine trans (ih.append_left [response id]) ?_
          have first := (answer_calls id (requestIds rest)).append_right ((responseIds rest).map response)
          rw [List.append_assoc] at first
          exact first

theorem requestIds_eq (hoists : Hoists before after) : requestIds after = requestIds before := by
  induction hoists with
  | refl events => rfl
  | swap front back answer call =>
      rw [requestIds_append, requestIds_append]
      rfl
  | trans _ _ firstHypothesis secondHypothesis => rw [secondHypothesis, firstHypothesis]

/-- An identifier with one request and one response behind it keeps its history. -/
theorem history_eq [DecidableEq ι] (hoists : Hoists before after) {id : ι}
    (answered : history id before = [true, false]) : history id after = [true, false] := by
  induction hoists with
  | refl events => exact answered
  | swap front back answer call =>
      rw [history_append, history_response, history_request] at answered
      rw [history_append, history_request, history_response]
      by_cases sameAnswer : answer = id
      · by_cases sameCall : call = id
        · rw [if_pos sameAnswer, if_pos sameCall] at answered
          cases frontHistory : history id front with
          | nil =>
              rw [frontHistory] at answered
              cases answered
          | cons letter rest =>
              rw [frontHistory] at answered
              have lengths := congrArg List.length answered
              rw [List.length_append, List.length_cons, List.length_cons, List.length_cons] at lengths
              simp only [List.length_cons, List.length_nil] at lengths
              omega
        · rw [if_neg sameCall] at answered ⊢
          exact answered
      · rw [if_neg sameAnswer] at answered ⊢
        exact answered
  | trans _ _ firstHypothesis secondHypothesis => exact secondHypothesis (firstHypothesis answered)

end Hoists
end CallLedger
end AIBuddy
