import Mathlib.Data.List.Forall2
import AIBuddy.LocalInference.NativeToolText

namespace AIBuddy
namespace NativeTools

/-!
# Generated text that is one JSON value

The calls of a text that is a JSON value are those of the value, unless a bracketed part of the
text has tool calls in a field and the value has not, or the value is no call and some part is.
A request is then made for each call, and carries the arguments of the call when these are an
object, or a string of one that needs no repair.
-/

section Calls

variable (json : JsonParser)

/-- The object that a value gives as the arguments of a call, in itself or as text. -/
def givenArguments (call : Json) : Option JsonObject :=
  match rawArguments call with
  | none | some .null => some []
  | some (.string arguments) =>
      if Text.isBlank arguments then some []
      else ((json.value? arguments).filter Json.isObject).map Json.toObject
  | some (.object fields) => some fields
  | some _ => none

/-- A request that runs what a call asks for, or nothing. -/
def Carries (call : Json) (request : ToolRequest) : Prop :=
  forall params, request.toolCall = .ok params ->
    params.name = callName call ∧ Exists fun arguments =>
      givenArguments json call = some arguments ∧ params.arguments = some arguments

/-- The request for one call runs what another one asks for, or nothing. -/
def StandsFor (call other : Json) : Prop :=
  isValidFunctionName (callName other) = true -> forall params, parsedArguments json other = .ok params ->
    callName other = callName call ∧ givenArguments json call = some params.toObject

theorem carries_toolCallContent_iff (services : Services) (place : Nat) (call other : Json) :
    Carries services.json call (toolCallContent services place other) ↔ StandsFor services.json call other := by
  rw [Carries, StandsFor, toolCallContent]
  cases valid : isValidFunctionName (callName other) with
  | false => exact ⟨fun _ impossible => absurd impossible Bool.false_ne_true, fun _ params same => by cases same⟩
  | true =>
      cases parsed : parsedArguments services.json other with
      | error error => exact ⟨fun _ _ params same => (by cases same), fun _ params same => (by cases same)⟩
      | ok value =>
          constructor
          · intro carries _ params same
            cases same
            rcases carries _ rfl with ⟨name, arguments, given, shown⟩
            refine ⟨name, ?_⟩
            rw [given, ← shown]
          · intro stands params same
            cases same
            rcases stands rfl value rfl with ⟨name, given⟩
            exact ⟨name, _, given, rfl⟩

theorem forall₂_toolCallContent_iff (services : Services) (calls others : List Json) (start : Nat) :
    List.Forall₂ (Carries services.json) calls
        (others.mapIdx fun place call => toolCallContent services (start + place) call) ↔
      List.Forall₂ (StandsFor services.json) calls others := by
  induction others generalizing calls start with
  | nil =>
      rw [List.mapIdx_nil]
      cases calls <;> simp only [List.forall₂_nil_right_iff]
  | cons other others ih =>
      have shift : (others.mapIdx fun place call => toolCallContent services (start + (place + 1)) call) =
          others.mapIdx fun place call => toolCallContent services (start + 1 + place) call := by
        congr 1
        funext place call
        rw [Nat.add_assoc, Nat.add_comm 1 place]
      rw [List.mapIdx_cons, shift]
      cases calls with
      | nil => exact ⟨fun related => (by cases related), fun related => (by cases related)⟩
      | cons call calls =>
          rw [List.forall₂_cons, List.forall₂_cons, carries_toolCallContent_iff, ih]

end Calls

/-! ## The calls that are taken -/

section Taken

variable {services : Services} {now : Int} {text messageId : String}

theorem requests_appendToolCalls (services : Services) (calls : List Json) :
    (appendToolCalls services calls).filterMap MessageContentBlock.asToolRequest =
      calls.mapIdx (toolCallContent services) := by
  rw [appendToolCalls, List.filterMap_map]
  exact List.filterMap_some

theorem requests_appendText (value : Option Json) :
    (appendText value).filterMap MessageContentBlock.asToolRequest = [] := by
  rw [appendText]
  cases (value.bind Json.asStr).filter (· != "") <;> rfl

theorem nativeRequests_eq :
    nativeRequests services now text messageId =
      (nativeContent services text).filterMap MessageContentBlock.asToolRequest := by
  rw [nativeRequests, messageFromNativeToolText]
  split
  case isTrue => rfl
  case isFalse without =>
      rw [Option.map_none, Option.getD_none, List.filterMap_nil, eq_comm, List.filterMap_eq_nil_iff]
      intro block member
      apply Option.not_isSome_iff_eq_none.mp
      exact fun request => without (List.any_eq_true.mpr ⟨block, member, request⟩)

theorem isSome_toolCallsField {value : Json} {calls : List Json} (field : toolCallsField value = some calls) :
    callsOf value = some calls := by
  have object : value.asArray = none := by
    cases value with
    | array items => contradiction
    | null | bool | number | string | object => rfl
  rw [callsOf, isToolCallArray, object, Option.any_none, if_neg Bool.false_ne_true, field, Option.isSome_some,
    if_pos rfl]

/-- What looks like tool calls has some. -/
theorem callsOf_ne_nil {value : Json} {calls : List Json} (called : callsOf value = some calls) : calls ≠ [] := by
  have nonempty : forall {array : Json}, isToolCallArray array = true -> array.asArray = some calls -> calls ≠ [] := by
    intro array test items empty
    rw [isToolCallArray, items, empty] at test
    contradiction
  rw [callsOf] at called
  split at called
  case isTrue array => exact nonempty array called
  case isFalse =>
      split at called
      case isTrue =>
          rw [toolCallsField] at called
          rcases Option.bind_eq_some_iff.mp called with ⟨array, field, items⟩
          exact nonempty (Option.filter_eq_some_iff.mp field).2 items
      case isFalse =>
          split at called
          case isTrue =>
              cases called
              exact List.cons_ne_nil _ _
          case isFalse => contradiction

/-- The calls that are taken of a text that is a value. -/
def takenCalls (json : JsonParser) (text : String) (value : Json) : Option (List Json) :=
  ((toolCallsField value).or ((bracketCandidates json text).findSome? toolCallsField)).or
    ((callsOf value).or ((bracketCandidates json text).findSome? callsOf))

theorem nativeRequests_taken {value : Json} (read : services.json.value? (Text.trim text) = some value) :
    nativeRequests services now text messageId =
      ((takenCalls services.json text value).getD []).mapIdx (toolCallContent services) := by
  have candidates : jsonCandidates services.json text = value :: bracketCandidates services.json text := by
    rw [jsonCandidates, read]
    rfl
  have fields : forall values : List Json,
      values.findSome? toolCallsField = (values.find? fun other => (toolCallsField other).isSome).bind toolCallsField := by
    intro values
    induction values with
    | nil => rfl
    | cons first rest ih =>
        rw [List.findSome?_cons, List.find?_cons]
        cases field : toolCallsField first with
        | none => exact ih
        | some calls => exact field.symm
  have taken : takenCalls services.json text value =
      ((jsonCandidates services.json text).findSome? toolCallsField).or
        ((jsonCandidates services.json text).findSome? callsOf) := by
    rw [takenCalls, candidates, List.findSome?_cons, List.findSome?_cons]
    cases toolCallsField value <;> cases callsOf value <;> rfl
  rw [nativeRequests_eq, nativeContent, parseOpenaiMessageJson, parseToolCallsJson, taken, fields]
  cases found : (jsonCandidates services.json text).find? fun other => (toolCallsField other).isSome with
  | some message =>
      have some_field := List.find?_some found
      rcases Option.isSome_iff_exists.mp some_field with ⟨calls, field⟩
      rw [Option.bind_some, field, List.filterMap_append, requests_appendText, requests_appendToolCalls, field,
        List.nil_append]
      rfl
  | none =>
      cases (jsonCandidates services.json text).findSome? callsOf with
      | some calls => exact requests_appendToolCalls services calls
      | none =>
          rw [read]
          rfl

end Taken

/-! ## When the calls are those of the value -/

/-- No requests for a value that has no calls, and for any other one request for each of its
calls, that runs it or nothing. -/
def Answers (services : Services) (value : Json) (requests : List ToolRequest) : Prop :=
  match callsOf value with
  | none => requests = []
  | some calls => List.Forall₂ (Carries services.json) calls requests

/-- The calls of a value are taken, and stand for themselves: their arguments are objects, or
text that is one.  When other calls are taken they would do for the calls of the value. -/
def Faithful (json : JsonParser) (text : String) (value : Json) : Prop :=
  match callsOf value, (bracketCandidates json text).findSome? toolCallsField with
  | none, _ => forall other, other ∈ bracketCandidates json text -> callsOf other = none
  | some calls, none => forall call, call ∈ calls -> StandsFor json call call
  | some calls, some others =>
      if (toolCallsField value).isSome then forall call, call ∈ calls -> StandsFor json call call
      else List.Forall₂ (StandsFor json) calls others

theorem answers_iff (services : Services) (now : Int) {text : String} (messageId : String) {value : Json}
    (read : services.json.value? (Text.trim text) = some value) :
    Answers services value (nativeRequests services now text messageId) ↔ Faithful services.json text value := by
  have compared : forall calls others, List.Forall₂ (Carries services.json) calls
      (others.mapIdx (toolCallContent services)) ↔ List.Forall₂ (StandsFor services.json) calls others := by
    intro calls others
    have general := forall₂_toolCallContent_iff services calls others 0
    simp only [Nat.zero_add] at general
    exact general
  rw [nativeRequests_taken read, Answers, Faithful, takenCalls]
  cases own : callsOf value with
  | none =>
      have noField : toolCallsField value = none := by
        cases field : toolCallsField value with
        | none => rfl
        | some calls =>
            rw [isSome_toolCallsField field] at own
            contradiction
      rw [noField, Option.none_or, Option.none_or]
      constructor
      · intro quiet other member
        apply Option.not_isSome_iff_eq_none.mp
        intro called
        cases taken : ((bracketCandidates services.json text).findSome? toolCallsField).or
            ((bracketCandidates services.json text).findSome? callsOf) with
        | none =>
            rw [Option.or_eq_none_iff] at taken
            rw [List.findSome?_eq_none_iff.mp taken.2 other member] at called
            contradiction
        | some calls =>
            rw [taken, Option.getD_some, List.mapIdx_eq_nil_iff] at quiet
            rw [quiet, Option.or_eq_some_iff] at taken
            rcases taken with field | ⟨-, called⟩
            · rcases List.exists_of_findSome?_eq_some field with ⟨source, -, shown⟩
              exact callsOf_ne_nil (isSome_toolCallsField shown) rfl
            · rcases List.exists_of_findSome?_eq_some called with ⟨source, -, shown⟩
              exact callsOf_ne_nil shown rfl
      · intro quiet
        have without : forall other, other ∈ bracketCandidates services.json text -> callsOf other = none := quiet
        have noFields : (bracketCandidates services.json text).findSome? toolCallsField = none := by
          apply List.findSome?_eq_none_iff.mpr
          intro other member
          cases field : toolCallsField other with
          | none => rfl
          | some calls =>
              have absent := without other member
              rw [isSome_toolCallsField field] at absent
              contradiction
        rw [noFields, List.findSome?_eq_none_iff.mpr without]
        rfl
  | some calls =>
      cases field : toolCallsField value with
      | some fieldCalls =>
          have same : fieldCalls = calls := by
            rw [isSome_toolCallsField field] at own
            exact Option.some.inj own
          rw [Option.some_or, Option.some_or, Option.getD_some, same]
          cases (bracketCandidates services.json text).findSome? toolCallsField with
          | none => exact (compared calls calls).trans List.forall₂_same
          | some others => exact (compared calls calls).trans List.forall₂_same
      | none =>
          rw [Option.none_or, Option.some_or]
          cases (bracketCandidates services.json text).findSome? toolCallsField with
          | none => exact (compared calls calls).trans List.forall₂_same
          | some others => exact compared calls others

/-! ## Two texts -/

def directCall : Json :=
  .object [("name", .string "ls"), ("arguments", .object [])]

def directText : String := "\x7b\x22name\x22:\x22ls\x22,\x22arguments\x22:\x7b\x7d\x7d"

/-- An answer that quotes a call. -/
def quotedCall : Json :=
  .object [("note", directCall)]

def quotedText : String := "\x7b\x22note\x22:" ++ directText ++ "\x7d"

def tableServices : Services where
  json := .ofTable [(directText, directCall), (quotedText, quotedCall)] (by decide +kernel)
  render _ := ""
  newId place := toString place

theorem direct_call_answered :
    tableServices.json.value? (Text.trim directText) = some directCall ∧
      Answers tableServices directCall (nativeRequests tableServices 0 directText "reply") := by
  have read : tableServices.json.value? (Text.trim directText) = some directCall := by decide +kernel
  refine ⟨read, (answers_iff tableServices 0 "reply" read).mpr ?_⟩
  have own : callsOf directCall = some [directCall] := by decide +kernel
  have fields : (bracketCandidates tableServices.json directText).findSome? toolCallsField = none := by decide +kernel
  rw [Faithful, own, fields]
  intro call member _ params parsed
  rw [List.mem_singleton.mp member] at parsed ⊢
  cases parsed
  exact ⟨rfl, rfl⟩

theorem quoted_call_requested :
    ¬ forall (services : Services) (now : Int) (text messageId : String) (value : Json),
      services.json.value? (Text.trim text) = some value ->
      Answers services value (nativeRequests services now text messageId) := by
  intro always
  have answered := always tableServices 0 quotedText "reply" quotedCall (by decide +kernel)
  have own : callsOf quotedCall = none := by decide +kernel
  rw [Answers, own] at answered
  exact absurd answered (by decide +kernel)

end NativeTools
end AIBuddy
