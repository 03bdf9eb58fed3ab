import AIBuddy.Conversation.Message
import AIBuddy.Support.Text

namespace AIBuddy

/-!
# Arguments of tool calls

A model writes the arguments of a tool call as JSON text.  Texts that are wrapped,
encoded twice or spoilt by control characters are repaired; texts that look cut off
are not.  The JSON parser belongs to another package and is passed in.
-/

/-- The JSON parser of the other package, which gives a value or the text of an error.
An empty text is no value, and a pair of braces is the empty object. -/
structure JsonParser where
  fromStr : String -> Except String Json
  empty : forall value, fromStr "" ≠ .ok value
  emptyObject : fromStr "\x7b\x7d" = .ok (.object [])

/-- The value of a text, when it is JSON. -/
def JsonParser.value? (json : JsonParser) (text : String) : Option Json :=
  (json.fromStr text).toOption

/-- A parser that knows some texts, besides the pair of braces. -/
def JsonParser.ofTable (entries : List (String × Json)) (solid : entries.lookup "" = none) : JsonParser where
  fromStr text :=
    if text = "\x7b\x7d" then .ok (.object [])
    else
      match entries.lookup text with
      | some value => .ok value
      | none => .error "expected value at line 1 column 1"
  empty := by
    intro value read
    rw [if_neg (by decide), solid] at read
    contradiction
  emptyObject := rfl

/-- The members of an object.  Any other value has none: it is taken for the empty
object unless debug assertions are on. -/
def Json.toObject : Json -> JsonObject
  | .object fields => fields
  | _ => []

def Json.isObject : Json -> Bool
  | .object _ => true
  | _ => false

/-! ## Repairs -/

/-- Where a reader of JSON text stands: in a string or not, behind a backslash or not,
and inside of which brackets. -/
structure JsonNesting where
  inString : Bool
  escapeNext : Bool
  closers : List Char
deriving DecidableEq, Repr

namespace JsonNesting

def start : JsonNesting := ⟨false, false, []⟩

/-- One character inside of a string. -/
def stepString (nesting : JsonNesting) (character : Char) : JsonNesting :=
  if nesting.escapeNext then { nesting with escapeNext := false }
  else if character = '\\' then { nesting with escapeNext := true }
  else if character = '\x22' then { nesting with inString := false }
  else nesting

/-- One character outside of strings that is no closing bracket. -/
def stepOpen (nesting : JsonNesting) (character : Char) : JsonNesting :=
  if character = '\x22' then { nesting with inString := true }
  else if character = '\x7b' then { nesting with closers := '\x7d' :: nesting.closers }
  else if character = '[' then { nesting with closers := ']' :: nesting.closers }
  else nesting

end JsonNesting

def isCloser (character : Char) : Bool :=
  character == '\x7d' || character == ']'

/-- The nesting at the end of a text.  Closing brackets that match nothing are passed
over. -/
def repairNesting (nesting : JsonNesting) : List Char -> JsonNesting
  | [] => nesting
  | character :: rest =>
      if nesting.inString then repairNesting (nesting.stepString character) rest
      else if isCloser character then
        if nesting.closers.head? = some character then
          repairNesting { nesting with closers := nesting.closers.tail } rest
        else repairNesting nesting rest
      else repairNesting (nesting.stepOpen character) rest

/-- Close what is open at the end of a text. -/
def repairTruncatedJson (text : String) : String :=
  let nesting := repairNesting JsonNesting.start text.toList
  let quote := if nesting.inString then (if nesting.escapeNext then ['\\', '\x22'] else ['\x22']) else []
  text ++ String.ofList (quote ++ nesting.closers)

def hexDigit (digit : Nat) : Char :=
  if digit < 10 then Char.ofNat (48 + digit) else Char.ofNat (87 + digit)

/-- The escape of a control character. -/
def escapeControlChar (character : Char) : List Char :=
  if character = '\x08' then ['\\', 'b']
  else if character = '\x0c' then ['\\', 'f']
  else if character = '\n' then ['\\', 'n']
  else if character = '\r' then ['\\', 'r']
  else if character = '\t' then ['\\', 't']
  else ['\\', 'u', '0', '0', hexDigit (character.toNat / 16), hexDigit (character.toNat % 16)]

/-- Escape the control characters of a text, wherever they stand. -/
def jsonEscapeControlCharsInString (text : String) : String :=
  String.ofList (text.toList.flatMap fun character =>
    if character.toNat ≤ 0x1F then escapeControlChar character else [character])

/-- Parse a text, as it is or repaired in one of three ways. -/
def safelyParseJson (json : JsonParser) (text : String) : Except String Json :=
  match json.fromStr text with
  | .ok value => .ok value
  | .error _ =>
      match json.fromStr (repairTruncatedJson text) with
      | .ok value => .ok value
      | .error _ =>
          match json.fromStr (jsonEscapeControlCharsInString text) with
          | .ok value => .ok value
          | .error _ => json.fromStr (repairTruncatedJson (jsonEscapeControlCharsInString text))

/-! ## Truncation -/

/-- Whether brackets or a string are left open, or a closing bracket matches nothing. -/
def looksTruncatedFrom (nesting : JsonNesting) : List Char -> Bool
  | [] => nesting.inString || nesting.escapeNext || !nesting.closers.isEmpty
  | character :: rest =>
      if nesting.inString then looksTruncatedFrom (nesting.stepString character) rest
      else if isCloser character then
        if nesting.closers.head? = some character then
          looksTruncatedFrom { nesting with closers := nesting.closers.tail } rest
        else true
      else looksTruncatedFrom (nesting.stepOpen character) rest

def looksTruncated (arguments : String) : Bool :=
  looksTruncatedFrom JsonNesting.start (Text.trimEnd arguments).toList

/-- The last characters of a text that is too long to be shown. -/
def errorSnippet (trimmed : String) : String :=
  if trimmed.length > 80 then "…" ++ String.ofList (trimmed.toList.drop (trimmed.length - 80)) else trimmed

def truncationGuidance : String :=
  "The model's response was truncated — it hit the output token limit while generating this tool call. " ++
    "Try increasing max_tokens for this provider or breaking the task into smaller steps."

def malformedGuidance : String :=
  "The model produced malformed tool arguments. Try resending your message or breaking the task into smaller steps."

/-- What the model is told about arguments that are not JSON. -/
def truncationErrorMessage (json : JsonParser) (arguments : String) : Option String :=
  if arguments = "" then none
  else if (json.value? arguments).isSome then none
  else
    let trimmed := Text.trimEnd arguments
    let guidance := if looksTruncated trimmed then truncationGuidance else malformedGuidance
    some (guidance ++ "\nReceived " ++ toString trimmed.length ++ " characters; cut off at: " ++ errorSnippet trimmed)

/-! ## Wrappers -/

/-- The text behind the word that names the language of a fence. -/
def stripFenceLanguage (body : String) : String :=
  ((Text.stripPrefix "json" body).orElse fun _ => Text.stripPrefix "JSON" body).getD body

def isTagNameCharacter (character : Char) : Bool :=
  character.isAlphanum || character == '_' || character == '-'

/-- The text inside of a fence or of a pair of tags. -/
def stripJsonWrapper (arguments : String) : Option String :=
  let trimmed := Text.trim arguments
  match Text.stripPrefix "```" trimmed with
  | some rest =>
      (Text.stripSuffix "```" rest).map fun body => Text.trim (stripFenceLanguage (Text.trimStart body))
  | none =>
      if Text.startsWith "<" trimmed && !Text.startsWith "</" trimmed then
        (Text.splitOnce '>' trimmed).bind fun parts =>
          (Text.firstWord (String.ofList (parts.1.toList.drop 1))).bind fun tagName =>
            if tagName.toList.all isTagNameCharacter then
              (Text.stripSuffix ("</" ++ tagName ++ ">") (Text.trimEnd parts.2)).map Text.trim
            else none
      else none

/-- Read a text that is JSON of a text, up to so many times, until it is an object. -/
def unwrapRounds (json : JsonParser) (value : Json) : Nat -> String -> Json
  | 0, _ => value
  | rounds + 1, current =>
      match json.value? current with
      | some (.object fields) => .object fields
      | some (.string inner) => unwrapRounds json value rounds (Text.trim inner)
      | _ => value

def unwrapDoubleEncodedObject (json : JsonParser) : Json -> Json
  | .string text => unwrapRounds json (.string text) 3 (Text.trim text)
  | value => value

/-! ## Arguments -/

/-- The value of a text that is JSON or can be repaired without adding an end to it. -/
def repairedValue (json : JsonParser) (arguments : String) : Option Json :=
  if looksTruncated arguments then none else (safelyParseJson json arguments).toOption

/-- The value of a wrapped text. -/
def wrappedValue (json : JsonParser) (arguments : String) : Option Json :=
  (stripJsonWrapper arguments).bind fun inner => (json.value? inner).orElse fun _ => repairedValue json inner

/-- The arguments of a tool call, or nothing when the text looks truncated or cannot be
repaired. -/
def parseToolArguments (json : JsonParser) (arguments : String) : Option Json :=
  if arguments = "" then some (.object [])
  else
    (((json.value? arguments).orElse fun _ => wrappedValue json arguments).orElse fun _ =>
      repairedValue json arguments).map (unwrapDoubleEncodedObject json)

/-! ## Requests -/

def invalidParams : Int := -32602

def invalidRequest : Int := -32600

def describeJsonValue : Json -> String
  | .array _ => "an array"
  | .string _ => "a string"
  | .number _ => "a number"
  | .bool _ => "a boolean"
  | .null => "null"
  | .object _ => "an object"

/-- A call with its arguments. -/
def callWith (name : String) (arguments : JsonObject) : ToolResult CallToolRequestParams :=
  .ok ⟨name, some arguments⟩

theorem JsonParser.value?_empty (json : JsonParser) : json.value? "" = none := by
  rw [JsonParser.value?]
  cases read : json.fromStr "" with
  | ok value => exact absurd read (json.empty value)
  | error message => rfl

theorem JsonParser.value?_emptyObject (json : JsonParser) : json.value? "\x7b\x7d" = some (.object []) := by
  rw [JsonParser.value?, json.emptyObject]
  rfl

theorem parseToolArguments_of_value {json : JsonParser} {arguments : String} {value : Json}
    (read : json.value? arguments = some value) :
    parseToolArguments json arguments = some (unwrapDoubleEncodedObject json value) := by
  have nonempty : arguments ≠ "" := by
    intro same
    rw [same, json.value?_empty] at read
    contradiction
  rw [parseToolArguments, if_neg nonempty, read]
  rfl

end AIBuddy
