import AIBuddy.Toolshim.InlineCalls

namespace AIBuddy
namespace Toolshim

/-!
# Augmenting a message with tool calls

The tool calls that are written in the texts of a message are added to it as requests, and
the texts are cleaned.  When none can be read, an interpreter is asked for them.
-/

/-- What happens to a message before an interpreter is asked, or the text to ask it about. -/
inductive Direct where
  | returned (message : Message)
  | consults (content : String)
deriving DecidableEq

/-- The names of new requests. -/
abbrev FreshIds := Nat -> String

/-- The blocks of calls, but for calls of the tool that does nothing. -/
def requestBlocks (newId : FreshIds) (toolCalls : List CallToolRequestParams) : List MessageContentBlock :=
  ((toolCalls.filter fun toolCall => toolCall.name != "noop").zipIdx).map fun entry =>
    .newToolRequest (newId entry.2) (.ok entry.1)

def appendToolCallsToMessage (newId : FreshIds) (message : Message) (toolCalls : List CallToolRequestParams) : Message :=
  { message with content := message.content ++ requestBlocks newId toolCalls }

/-- The texts of a message, one to a line. -/
def contentOf (message : Message) : String :=
  "\n".intercalate (texts message)

section Augment

variable (readers : Readers) (newId : FreshIds) (tools : List Tool)

/-- What becomes of a message without the interpreter. -/
def augmentDirectly (message : Message) : Direct :=
  if tools = [] then .returned message
  else if Text.isBlank (contentOf message) then .returned message
  else
    let direct := parseTokenizedToolCallsWithStatus readers tools (contentOf message)
    if direct.rejectedExecute then .returned (sanitizeMessageAfterTokenizedParse message)
    else if direct.calls ≠ [] then
      .returned (appendToolCallsToMessage newId (sanitizeMessageAfterTokenizedParse message) direct.calls)
    else
      let inline := parseInlineJsonToolCalls readers.json (contentOf message) tools
      if inline ≠ [] then
        .returned (appendToolCallsToMessage newId (sanitizeMessageAfterJsonToolParse message) inline)
      else if message.isToolCall then .returned (sanitizeResidualMarkers message)
      else .consults (contentOf message)

/-- Add the tool calls of a message to it. -/
def augmentMessageWithToolCalls {ε : Type}
    (interpret : String -> List Tool -> Except ε (List CallToolRequestParams)) (message : Message) :
    Except ε Message :=
  match augmentDirectly readers newId tools message with
  | .returned augmented => .ok augmented
  | .consults content =>
      match interpret content tools with
      | .error error => .error error
      | .ok [] => .ok (sanitizeResidualMarkers message)
      | .ok toolCalls => .ok (sanitizeResidualMarkers (appendToolCallsToMessage newId message toolCalls))

end Augment

end Toolshim
end AIBuddy
