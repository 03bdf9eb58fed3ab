import AIBuddy.Support.JsonText
import AIBuddy.Toolshim.TokenizedCalls

namespace AIBuddy
namespace Toolshim

open Occurrences

/-!
# Tool calls written as JSON

Calls can also be written as JSON objects with a name and arguments, anywhere in a text.  An
object goes from a brace to the brace that closes it; braces in strings do not count.
-/

/-- The object that a text begins with, and the text behind it. -/
def extractFirstJsonObject (input : List Char) : Option (List Char × List Char) :=
  if input.head? = some '\x7b' then
    (JsonText.braceSpan 0 false false 0 input).map fun length => (input.take length, input.drop length)
  else none

/-- The first object of a text, and the text behind it.  Nothing is looked for behind a brace
that is not closed. -/
def nextObject (text : List Char) : Option (List Char × List Char) :=
  (cut ['\x7b'] text).bind fun parts => extractFirstJsonObject ('\x7b' :: parts.2)

/-- The call that an object stands for. -/
def inlineCall (json : JsonParser) (tools : List Tool) (jsonObj : List Char) : Option CallToolRequestParams :=
  (parseJsonValueTolerant json (String.ofList jsonObj)).bind fun value =>
    match (value.get "name").bind Json.asStr, value.get "arguments" with
    | some rawName, some (.object arguments) =>
        (resolveToolName rawName tools).map fun toolName => ⟨toolName, some arguments⟩
    | _, _ => none

def parseInlineJsonToolCalls (json : JsonParser) (content : String) (tools : List Tool) : List CallToolRequestParams :=
  (parts nextObject content.toList).filterMap (inlineCall json tools)

end Toolshim
end AIBuddy
