import AIBuddy.Provider.ToolArguments
import AIBuddy.Toolshim.ToolNames

namespace AIBuddy
namespace Toolshim

/-!
# Aliases of code execution

A model that was given a code tool elsewhere asks for `execute` or `execute_code`, which may
not be on offer.  Such a request is looked for in the words of a text and in the names
of the JSON values that the text holds, whether these can be parsed as a whole or not.

The readers belong to other packages and are passed in.
-/

/-- A node of a syntax tree: its kind, its text, and its children by field and by order. -/
inductive SyntaxNode where
  | node (kind : String) (text : Option String) (fields : List (String × SyntaxNode)) (namedChildren : List SyntaxNode)

namespace SyntaxNode

def kind : SyntaxNode -> String
  | .node kind _ _ _ => kind

def text : SyntaxNode -> Option String
  | .node _ text _ _ => text

def childByFieldName (field : String) : SyntaxNode -> Option SyntaxNode
  | .node _ _ fields _ => fields.lookup field

def namedChildren : SyntaxNode -> List SyntaxNode
  | .node _ _ _ children => children

end SyntaxNode

structure SyntaxTree where
  root : SyntaxNode
  hasError : Bool

/-- The readers of other packages: a parser of JSON texts; a reader of the JSON value at the
start of a text, which gives the text behind it; a reader that keeps all members of an
object, those with a key that comes again included; and a parser of TypeScript. -/
structure Readers where
  json : JsonParser
  leadingValue : String -> Option (Json × String)
  leadingValue_shorter : forall {text value rest},
    leadingValue text = some (value, rest) -> rest.toList.length < text.toList.length
  leadingMembers : String -> Option Json
  parseTypeScript : String -> Option SyntaxTree

/-! ## Words -/

/-- A text without what is neither a letter, a digit nor an underscore at its ends. -/
def trimPunctuation (text : List Char) : List Char :=
  let punctuation := fun character : Char => !character.isAlphanum && character != '_'
  (text.rdropWhile punctuation).dropWhile punctuation

/-- The name of a tool without index, prefix, punctuation and capitals. -/
def normalizedToolAlias (rawToolName : String) : String :=
  String.ofList ((trimPunctuation (Text.trim (behindLastDot (withoutFunctionsPrefix rawToolName))).toList).map
    Char.toLower)

def isExecuteAlias (rawToolName : String) : Bool :=
  normalizedToolAlias rawToolName == "execute" || normalizedToolAlias rawToolName == "execute_code"

/-- The words of a text and the parts of them between colons. -/
def segments (text : String) : List String :=
  (splitWhitespace text).flatMap fun word => (splitBy (· == ':') word.toList).map String.ofList

/-- Whether a word of a text asks for code execution and is no offered tool. -/
def containsUnresolvedExecuteAlias (rawToolHeader : String) (tools : List Tool) : Bool :=
  (segments rawToolHeader).any fun segment => isExecuteAlias segment && (resolveToolName segment tools).isNone

/-! ## Values -/

/-- Whether the name of a value asks for code execution. -/
def namesExecute (tools : List Tool) (value : Json) : Bool :=
  match (value.get "name").bind Json.asStr with
  | some name => containsUnresolvedExecuteAlias name tools
  | none => false

mutual

/-- Whether a value, or one inside of it, has a name that asks for code execution. -/
def containsStructuredUnresolvedExecuteAlias (tools : List Tool) : Json -> Bool
  | .object fields => namesExecute tools (.object fields) || fieldsContainAlias tools fields
  | .array items => itemsContainAlias tools items
  | _ => false

def fieldsContainAlias (tools : List Tool) : List (String × Json) -> Bool
  | [] => false
  | (_, value) :: rest => containsStructuredUnresolvedExecuteAlias tools value || fieldsContainAlias tools rest

def itemsContainAlias (tools : List Tool) : List Json -> Bool
  | [] => false
  | value :: rest => containsStructuredUnresolvedExecuteAlias tools value || itemsContainAlias tools rest

end

mutual

/-- Whether any member with the key `name` asks for code execution, also one that is
overwritten later. -/
def visitMembers (tools : List Tool) (inspectString : Bool) : Json -> Bool
  | .string value => inspectString && containsUnresolvedExecuteAlias value tools
  | .array items => visitSeq tools items
  | .object members => visitMap tools members
  | _ => false

def visitSeq (tools : List Tool) : List Json -> Bool
  | [] => false
  | value :: rest => visitMembers tools false value || visitSeq tools rest

def visitMap (tools : List Tool) : List (String × Json) -> Bool
  | [] => false
  | (key, value) :: rest => visitMembers tools (key == "name") value || visitMap tools rest

end

section Texts

variable (readers : Readers) (tools : List Tool)

def rawArgumentsContainStructuredUnresolvedExecuteAlias (rawArguments : String) : Bool :=
  match readers.leadingMembers rawArguments with
  | some value => visitMembers tools false value
  | none => false

/-- Look for aliases in the values of a text and in the words between them, within so many
steps. -/
def malformedContain : Nat -> String -> Bool
  | 0, _ => false
  | bound + 1, remainder =>
      if remainder = "" then false
      else
        match readers.leadingValue remainder with
        | some (value, rest) =>
            containsStructuredUnresolvedExecuteAlias tools value || malformedContain bound (Text.trimStart rest)
        | none =>
            let nonJsonPrefix := remainder.toList.takeWhile (· != '\x7b')
            let jsonSuffix := remainder.toList.dropWhile (· != '\x7b')
            if containsUnresolvedExecuteAlias (String.ofList nonJsonPrefix) tools then true
            else if nonJsonPrefix = [] then malformedContain bound (Text.trimStart (String.ofList jsonSuffix.tail))
            else if jsonSuffix = [] then false
            else malformedContain bound (String.ofList jsonSuffix)

def malformedArgumentsContainUnresolvedExecuteAlias (rawArguments : String) : Bool :=
  malformedContain readers tools (Text.trim rawArguments).toList.length (Text.trim rawArguments)

end Texts

end Toolshim
end AIBuddy
