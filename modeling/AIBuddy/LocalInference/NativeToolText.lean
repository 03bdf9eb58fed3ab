import AIBuddy.Support.Occurrences
import AIBuddy.Provider.ToolArguments

namespace AIBuddy
namespace NativeTools

/-!
# Tool calls in generated text

A local model writes its tool calls into its text, as JSON or between tags.  The values that
are read are those of the text as a whole and of every part from an opening bracket to the one
that closes it; the first of them that looks like tool calls is taken for the answer.
-/

open Occurrences

/-! ## Values that look like tool calls -/

def isValidFunctionName (name : String) : Bool :=
  name != "" && name.toList.all fun character => character.isAlphanum || character == '_' || character == '-'

def isToolCallValue (value : Json) : Bool :=
  let directName := ((value.get "name").bind Json.asStr).isSome
  let directArguments := (value.get "arguments").isSome
  let functionName := (((value.get "function").bind fun function => function.get "name").bind Json.asStr).isSome
  (directName && directArguments) || functionName

def isToolCallArray (value : Json) : Bool :=
  value.asArray.any fun items => !items.isEmpty && items.all isToolCallValue

/-- The calls in the `tool_calls` field of a value, when they are an array of calls. -/
def toolCallsField (value : Json) : Option (List Json) :=
  ((value.get "tool_calls").filter isToolCallArray).bind Json.asArray

/-! ## Candidates -/

/-- The length of a text up to the bracket that closes the ones open. -/
def closedLength (opening closing : Char) (depth : Int) (inString escaped : Bool) : List Char -> Option Nat
  | [] => none
  | character :: rest =>
      (if escaped then closedLength opening closing depth inString false rest
      else if character = '\\' ∧ inString = true then closedLength opening closing depth inString true rest
      else if character = '\x22' then closedLength opening closing depth (!inString) false rest
      else if inString then closedLength opening closing depth inString false rest
      else if character = opening then closedLength opening closing (depth + 1) inString false rest
      else if character = closing then
        if depth - 1 = 0 then some 0 else closedLength opening closing (depth - 1) inString false rest
      else closedLength opening closing depth inString false rest).map (· + 1)

/-- The value of a text from an opening bracket to the one that closes it. -/
def bracketed (json : JsonParser) (opening closing : Char) (text : List Char) : Option Json :=
  if text.head? = some opening then
    (closedLength opening closing 0 false false text).bind fun length => json.value? (String.ofList (text.take length))
  else none

/-- The values of the bracketed parts of a text. -/
def bracketCandidates (json : JsonParser) (text : String) : List Json :=
  text.toList.tails.filterMap (bracketed json '\x7b' '\x7d') ++ text.toList.tails.filterMap (bracketed json '[' ']')

def jsonCandidates (json : JsonParser) (text : String) : List Json :=
  (json.value? (Text.trim text)).toList ++ bracketCandidates json text

def parseOpenaiMessageJson (json : JsonParser) (text : String) : Option Json :=
  (jsonCandidates json text).find? fun value => (toolCallsField value).isSome

/-- The calls that a value is or holds. -/
def callsOf (value : Json) : Option (List Json) :=
  if isToolCallArray value then value.asArray
  else if (toolCallsField value).isSome then toolCallsField value
  else if isToolCallValue value then some [value]
  else none

def parseToolCallsJson (json : JsonParser) (text : String) : Option (List Json) :=
  (jsonCandidates json text).findSome? callsOf

/-! ## Requests -/

/-- What is used of other parts: the JSON parser, the text of a JSON value, and new names for
requests. -/
structure Services where
  json : JsonParser
  render : Json -> String
  newId : Nat -> String

def callFunction (call : Json) : Json :=
  (call.get "function").getD call

def callName (call : Json) : String :=
  (((callFunction call).get "name").bind Json.asStr).getD ""

/-- The arguments that a call has in its function or in itself. -/
def rawArguments (call : Json) : Option Json :=
  ((callFunction call).get "arguments").or (call.get "arguments")

/-- The value of the arguments of a call. -/
def parsedArguments (json : JsonParser) (call : Json) : Except String Json :=
  match (rawArguments call).getD (.object []) with
  | .string arguments => if Text.isBlank arguments then .ok (.object []) else safelyParseJson json arguments
  | .null => .ok (.object [])
  | value => .ok value

/-- The request for a call, which is the given one of its list. -/
def toolCallContent (services : Services) (place : Nat) (call : Json) : ToolRequest :=
  let id := ((call.get "id").bind Json.asStr).getD (services.newId place)
  let toolCall :=
    if isValidFunctionName (callName call) then
      match parsedArguments services.json call with
      | .ok params => .ok ⟨callName call, some params.toObject⟩
      | .error error =>
          .error ⟨-32602, "Could not interpret tool use parameters for id " ++ id ++ ": " ++ error ++
            ". Raw arguments: '" ++ services.render ((rawArguments call).getD (.object [])) ++ "'", none⟩
    else
      .error ⟨-32600, "The provided function name '" ++ callName call ++
        "' had invalid characters, it must match this regex [a-zA-Z0-9_-]+", none⟩
  ⟨id, toolCall, none, none⟩

def appendToolCalls (services : Services) (calls : List Json) : List MessageContentBlock :=
  (calls.mapIdx (toolCallContent services)).map .toolRequest

/-! ## Tags -/

/-- What stands between two tags, the first of which has a name. -/
def elementAt (opening closing text : List Char) : Option ((List Char × List Char) × List Char) :=
  if opening.isPrefixOf text then
    let name := (text.drop opening.length).takeWhile (· != '>')
    match (text.drop opening.length).drop name.length with
    | [] => none
    | _ :: body => if name = [] then none else (cut closing body).map fun parts => ((name, parts.1), parts.2)
  else none

def nextElement (opening closing : List Char) : List Char -> Option ((List Char × List Char) × List Char)
  | [] => none
  | symbol :: rest => (elementAt opening closing (symbol :: rest)).or (nextElement opening closing rest)

def trimmedText (text : List Char) : String :=
  Text.trim (String.ofList text)

/-- The call that is written between two function tags. -/
def functionCall (element : List Char × List Char) : Json :=
  let parameters := parts (nextElement "<parameter=".toList "</parameter>".toList) element.2
  let arguments := parameters.foldl
    (fun object parameter => JsonObject.insert object (trimmedText parameter.1) (.string (trimmedText parameter.2))) []
  .object [("function", .object [("name", .string (trimmedText element.1)), ("arguments", .object arguments)])]

def parseXmlToolCalls (services : Services) (content : String) : List MessageContentBlock :=
  let leading := ((cut "<function=".toList content.toList).map fun halves => trimmedText halves.1).filter (· != "")
  let calls := (parts (nextElement "<function=".toList "</function>".toList) content.toList).map functionCall
  (leading.map MessageContentBlock.plainText).toList ++ appendToolCalls services calls

/-! ## The message -/

/-- The text of a message value, when it has some. -/
def appendText (value : Option Json) : List MessageContentBlock :=
  (((value.bind Json.asStr).filter (· != "")).map MessageContentBlock.plainText).toList

def nativeContent (services : Services) (text : String) : List MessageContentBlock :=
  match parseOpenaiMessageJson services.json text with
  | some message =>
      appendText (message.get "content") ++ appendToolCalls services ((toolCallsField message).getD [])
  | none =>
      match parseToolCallsJson services.json text with
      | some calls => appendToolCalls services calls
      | none =>
          if (services.json.value? (Text.trim text)).isSome then []
          else if occurs "<function=".toList text.toList then parseXmlToolCalls services text
          else []

/-- The message with the tool calls of a text, when it has any. -/
def messageFromNativeToolText (services : Services) (now : Int) (text messageId : String) : Option Message :=
  let content := nativeContent services text
  if content.any fun block => block.asToolRequest.isSome then
    some { Message.assistant now with id := some messageId, content := content }
  else none

/-- The requests of a text. -/
def nativeRequests (services : Services) (now : Int) (text messageId : String) : List ToolRequest :=
  ((messageFromNativeToolText services now text messageId).map Message.content).getD []
    |>.filterMap MessageContentBlock.asToolRequest

end NativeTools
end AIBuddy
