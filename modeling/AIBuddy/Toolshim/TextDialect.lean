import AIBuddy.Support.JsonWriter
import AIBuddy.Toolshim.Augment
import Mathlib.Data.List.Basic

namespace AIBuddy
namespace Toolshim

open Occurrences JsonText

/-!
# The textual dialect of tool calls

Requests and responses are written as texts for a model without tool support.  A request
becomes an announcement and a JSON object with the name and the arguments of the call, which
is what the parser of inline calls reads.

How arguments are written and how an error is displayed belong to other packages and are
passed in.
-/

/-! ## Writing -/

/-- The writers of other packages. -/
structure Writers where
  toStringPretty : Option JsonObject -> List Char
  displayError : ErrorData -> String

def contentBlockText : ContentBlock -> Option String
  | .text content => some content.text
  | _ => none

def responseText (writers : Writers) (response : ToolResponse) : String :=
  match response.toolResult with
  | .ok result => "Tool result:\n" ++ "\n".intercalate (result.content.filterMap contentBlockText)
  | .error error => "Tool error: " ++ writers.displayError error

/-- The call of a block, when it is a parsed request. -/
def blockCall (block : MessageContentBlock) : Option CallToolRequestParams :=
  block.asToolRequest.bind fun request => request.toolCall.toOption

/-- The calls of a message. -/
def callsOf (message : Message) : List CallToolRequestParams :=
  message.content.filterMap blockCall

/-- A call with arguments: absent ones count as an empty object. -/
def withArguments (toolCall : CallToolRequestParams) : CallToolRequestParams :=
  ⟨toolCall.name, some (toolCall.arguments.getD [])⟩

/-! ## Scanning what was written -/

section Reading

variable {json : JsonParser} {writers : Writers} {reread : Option JsonObject -> Option Json} {tools : List Tool}
  {toolCall : CallToolRequestParams}

end Reading

end Toolshim
end AIBuddy
