import AIBuddy.Conversation.Message
import AIBuddy.Support.Text
import Mathlib.Data.List.Destutter
import Mathlib.Data.List.Sort

namespace AIBuddy
namespace Toolshim

/-!
# Names of tools in texts

A model without tool support writes the names of tools as it remembers them: with an index
behind a colon, with a `functions.` before it, with dots instead of underscores, or without
the extension that the tool belongs to.
-/

/-- A tool that is offered to the model. -/
structure Tool where
  name : String
deriving DecidableEq, Repr

/-- The parts of a text between the characters of a kind. -/
def splitBy (separates : Char -> Bool) : List Char -> List (List Char)
  | [] => [[]]
  | character :: rest =>
      if separates character then [] :: splitBy separates rest
      else
        match splitBy separates rest with
        | [] => [[character]]
        | part :: parts => (character :: part) :: parts

/-- The words of a text. -/
def splitWhitespace (text : String) : List String :=
  ((splitBy Text.isWhitespace text.toList).filter fun word => !word.isEmpty).map String.ofList

/-- The part of a text before the first colon. -/
def beforeColon (text : String) : String :=
  String.ofList (text.toList.takeWhile (· != ':'))

/-- The part of a text behind the last dot. -/
def behindLastDot (text : String) : String :=
  String.ofList (text.toList.rtakeWhile (· != '.'))

def withoutIndex (rawToolName : String) : String :=
  Text.trim (beforeColon (Text.trim rawToolName))

def withoutFunctionsPrefix (rawToolName : String) : String :=
  Text.trim ((Text.stripPrefix "functions." (withoutIndex rawToolName)).getD (withoutIndex rawToolName))

/-- A text with its dots written as two underscores. -/
def withDunder (text : String) : String :=
  String.ofList (text.toList.flatMap fun character => if character = '.' then ['_', '_'] else [character])

/-- The names that a text may stand for, the likeliest one first. -/
def candidates (rawToolName : String) : List String :=
  let name := withoutFunctionsPrefix rawToolName
  [Text.trim rawToolName, withoutIndex rawToolName, name, withDunder name,
    Text.trim (behindLastDot name)].destutter (· ≠ ·)

def endsWith (trailing text : String) : Bool :=
  trailing.toList.isSuffixOf text.toList

/-- The tools that have a name behind the name of their extension. -/
def extensionMatches (candidate : String) (tools : List Tool) : List String :=
  (((tools.filter fun tool => endsWith ("__" ++ candidate) tool.name).map Tool.name).insertionSort (· ≤ ·)).destutter
    (· ≠ ·)

/-- The offered tool that a text names, if it names one. -/
def resolveToolName (rawToolName : String) (tools : List Tool) : Option String :=
  ((candidates rawToolName).find? fun candidate => tools.any fun tool => tool.name == candidate).or
    ((candidates rawToolName).findSome? fun candidate =>
      match extensionMatches candidate tools with
      | [single] => some single
      | _ => none)

example : resolveToolName " functions.shell:0 " [⟨"developer__shell"⟩] = some "developer__shell" := by decide +kernel

end Toolshim
end AIBuddy
