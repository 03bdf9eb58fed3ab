import AIBuddy.Provider.OpenAiStream

namespace AIBuddy
namespace OpenAi

/-!
# The decoder of whole OpenAI chat responses

A response that is not streamed comes as one JSON value.  Its message is decoded on its
own, with rules that the decoder of streams states once more.
-/

/-! ## Parts of a response -/

/-- What the first part of a JSON pointer into an array selects. -/
def pointerZero : Json -> Option Json
  | .array items => items.head?
  | .object fields => fields.lookup "0"
  | _ => none

/-- The first item of an array. -/
def firstItem (value : Json) : Option Json :=
  value.asArray.bind List.head?

def responseFinishReason (response : Json) : Option String :=
  (((response.get "choices").bind pointerZero).bind fun choice => choice.get "finish_reason").bind Json.asStr

def responseMessage (response : Json) : Option Json :=
  ((response.get "choices").bind firstItem).bind fun choice => choice.get "message"

/-- The error of a response without a message. -/
def responseError (response : Json) : String :=
  match response.get "error" with
  | some error => "API error: " ++ ((error.get "message").bind Json.asStr).getD "Unknown error"
  | none => "No message in API response. This may indicate a quota limit or other restriction."

/-! ## Content -/

/-- The reasoning of a message.  The field `reasoning` counts only where the field
`reasoning_content` is missing. -/
def structuredReasoning (original : Json) : Option String :=
  (((original.get "reasoning_content").or (original.get "reasoning")).bind Json.asStr).filter (· ≠ "")

/-- The reasoning and the text of a message. -/
def responseText (original : Json) : List MessageContentBlock :=
  let reasoning := structuredReasoning original
  let structured := (reasoning.map fun reasoning => thinkingBlock reasoning.toList "").toList
  match (original.get "content").bind Json.asStr with
  | none => structured
  | some text =>
      let split := splitThinkBlocks text.toList
      structured ++ (if reasoning.isNone && !split.2.isEmpty then [thinkingBlock split.2 ""] else []) ++
        flushedBlocks split.1 []

def standardFields : List String := ["id", "function", "type", "index"]

/-- The text at a key, which is empty unless the value is an object that has one. -/
def textAt (value : Json) (key : String) : String :=
  ((value.get key).bind Json.asStr).getD ""

def emptyNameError : ErrorData :=
  ⟨invalidRequest, "The provided function name was empty; a tool call must name a tool", none⟩

/-- What is made of a call with a name and arguments. -/
def plainToolCall (json : JsonParser) (limitReached : Bool) (name id arguments : String) :
    ToolResult CallToolRequestParams :=
  let arguments := if arguments = "" then "\x7b\x7d" else arguments
  if limitReached then .error (outputTokenLimitToolError name id)
  else if name = "" then .error emptyNameError
  else readArguments json name id arguments

/-- The fields of a call that the format does not define. -/
def extraFields : Json -> Option JsonObject
  | .object fields => some (fields.filter fun field => !standardFields.contains field.1)
  | _ => none

def responseToolRequest (json : JsonParser) (limitReached : Bool) (toolCall : Json) : MessageContentBlock :=
  let function := (toolCall.get "function").getD .null
  .toolRequest ⟨textAt toolCall "id",
    plainToolCall json limitReached (textAt function "name") (textAt toolCall "id") (textAt function "arguments"),
    (extraFields toolCall).filter fun fields => !fields.isEmpty, none⟩

def responseToMessage (json : JsonParser) (now : Int) (response : Json) : Except String Message :=
  let limitReached := responseFinishReason response == some "length"
  match responseMessage response with
  | none => .error (responseError response)
  | some original =>
      let toolCalls := (((original.get "tool_calls").bind Json.asArray).getD []).map
        (responseToolRequest json limitReached)
      .ok { assistantMessage now none (responseText original ++ toolCalls) with
        metadata := { outputTokenLimitReached := limitReached } }

/-! ## Responses -/

/-- A text field of a response, which may be missing or null. -/
inductive TextField where
  | absent
  | null
  | text (value : String)
deriving DecidableEq

namespace TextField

/-- The text of a field, as the deltas of a stream carry it. -/
def content : TextField -> String
  | .text value => value
  | _ => ""

/-- The field as a member of an object. -/
def member (key : String) : TextField -> JsonObject
  | .absent => []
  | .null => [(key, Json.null)]
  | .text value => [(key, .string value)]

/-- The value of the member, if there is one. -/
def value? : TextField -> Option Json
  | .absent => none
  | .null => some Json.null
  | .text value => some (.string value)

theorem lookup_member (field : TextField) (key other : String) :
    (field.member key).lookup other = if other = key then field.value? else none := by
  cases field with
  | absent => simp [member, value?]
  | null =>
      by_cases same : other = key
      · simp [member, value?, same]
      · simp [member, List.lookup_cons, beq_eq_false_iff_ne.mpr same, if_neg same]
  | text value =>
      by_cases same : other = key
      · simp [member, value?, same]
      · simp [member, List.lookup_cons, beq_eq_false_iff_ne.mpr same, if_neg same]

theorem asStr_value? (field : TextField) :
    (field.value?.bind Json.asStr).filter (· ≠ "") = (some field.content).filter (· ≠ "") := by
  cases field with
  | absent => rfl
  | null => rfl
  | text value => rfl

end TextField

structure ChatCall where
  id : String
  name : String
  arguments : String
deriving DecidableEq

/-- What a response says, before it is sent as a whole or in chunks. -/
structure ChatResponse where
  reasoningContent : TextField
  reasoning : TextField
  text : TextField
  toolCalls : List ChatCall
  finishReason : Option String
deriving DecidableEq

def ChatCall.toJson (call : ChatCall) : Json :=
  .object [("id", .string call.id), ("type", .string "function"),
    ("function", .object [("name", .string call.name), ("arguments", .string call.arguments)])]

namespace ChatResponse

def message (response : ChatResponse) : Json :=
  .object (response.reasoningContent.member "reasoning_content" ++ response.reasoning.member "reasoning" ++
    response.text.member "content" ++ [("tool_calls", .array (response.toolCalls.map ChatCall.toJson))])

/-- The response as one JSON value. -/
def toJson (response : ChatResponse) : Json :=
  .object [("choices", .array [.object [("message", response.message),
    ("finish_reason", (response.finishReason.map Json.string).getD .null)]])]

/-- Whether the response was cut off at the token limit. -/
def limited (response : ChatResponse) : Bool :=
  response.finishReason == some "length"

/-- The reasoning that counts when the response comes as a whole. -/
def plainReasoning (response : ChatResponse) : String :=
  match response.reasoningContent with
  | .absent => response.reasoning.content
  | field => field.content

/-- The thinking of the whole response. -/
def plainThinking (response : ChatResponse) : List Char :=
  if response.plainReasoning = "" then (splitThinkBlocks response.text.content.toList).2
  else response.plainReasoning.toList

end ChatResponse

/-! ## Decoding a response -/

namespace ChatResponse

theorem get_message (response : ChatResponse) :
    response.message.get "reasoning_content" = response.reasoningContent.value? ∧
      response.message.get "reasoning" = response.reasoning.value? ∧
      response.message.get "content" = response.text.value? ∧
      response.message.get "tool_calls" = some (.array (response.toolCalls.map ChatCall.toJson)) := by
  refine ⟨?_, ?_, ?_, ?_⟩
  · simp [message, Json.get, List.lookup_append, TextField.lookup_member, List.lookup_cons]
  · simp [message, Json.get, List.lookup_append, TextField.lookup_member, List.lookup_cons]
  · simp [message, Json.get, List.lookup_append, TextField.lookup_member, List.lookup_cons]
  · simp [message, Json.get, List.lookup_append, TextField.lookup_member]

theorem structuredReasoning_message (response : ChatResponse) :
    structuredReasoning response.message = (some response.plainReasoning).filter (· ≠ "") := by
  rw [structuredReasoning, response.get_message.1, response.get_message.2.1, plainReasoning]
  cases response.reasoningContent with
  | absent => exact TextField.asStr_value? response.reasoning
  | null => rfl
  | text value => rfl

theorem responseToolRequest_toJson (json : JsonParser) (limitReached : Bool) (call : ChatCall) :
    responseToolRequest json limitReached call.toJson =
      .toolRequest ⟨call.id, plainToolCall json limitReached call.name call.id call.arguments, none, none⟩ := by
  simp [responseToolRequest, ChatCall.toJson, textAt, Json.get, Json.asStr, extraFields, standardFields,
    List.lookup_cons]

/-- The requests of the calls of a response. -/
def requests (response : ChatResponse) (json : JsonParser) : List MessageContentBlock :=
  response.toolCalls.map fun call => .toolRequest
    ⟨call.id, plainToolCall json response.limited call.name call.id call.arguments, none, none⟩

theorem responseToMessage_toJson (json : JsonParser) (now : Int) (response : ChatResponse) :
    Exists fun message => responseToMessage json now response.toJson = .ok message ∧
      message.content = responseText response.message ++ response.requests json := by
  have chosen : response.toJson.get "choices" = some (.array [.object [("message", response.message),
      ("finish_reason", (response.finishReason.map Json.string).getD .null)]]) := by
    simp [toJson, Json.get]
  have finish : responseFinishReason response.toJson = response.finishReason := by
    rw [responseFinishReason, chosen]
    cases response.finishReason with
    | none => simp [pointerZero, Json.get, Json.asStr, List.lookup_cons]
    | some reason => simp [pointerZero, Json.get, Json.asStr, List.lookup_cons]
  have original : responseMessage response.toJson = some response.message := by
    rw [responseMessage, chosen]
    simp [firstItem, Json.asArray, Json.get]
  rw [responseToMessage, original, finish]
  refine ⟨_, rfl, ?_⟩
  simp only [content_assistantMessage, response.get_message.2.2.2, Option.bind_some, Json.asArray, Option.getD_some,
    List.map_map, requests]
  have same : responseToolRequest json (response.finishReason == some "length") ∘ ChatCall.toJson = fun call =>
      .toolRequest ⟨call.id, plainToolCall json response.limited call.name call.id call.arguments, none, none⟩ := by
    funext call
    exact responseToolRequest_toJson json _ call
  rw [same]

end ChatResponse

end OpenAi
end AIBuddy
