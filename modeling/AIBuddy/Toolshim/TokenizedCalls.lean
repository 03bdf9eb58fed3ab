import AIBuddy.Support.StringLiteral
import AIBuddy.Toolshim.ExecuteAlias
import AIBuddy.Toolshim.Markup

namespace AIBuddy
namespace Toolshim

open Occurrences

/-!
# Tokenized tool calls

A tokenized call is a header and arguments between two tokens.  A call of a code tool that
is not on offer becomes a call of the shell when its code has exactly one call of
`Developer.shell` with a literal command, and is rejected otherwise.
-/

/-! ## Shell commands in code -/

/-- What stands in a quoted text, with the backslashes taken off. -/
def decodeQuotedString (literal : String) : Option String :=
  match literal.toList with
  | [] => none
  | quote :: rest =>
      if (quote = '\x22' ∨ quote = '\'') ∧ rest.getLast? = some quote then
        (StringLiteral.unescaped false rest.dropLast).map String.ofList
      else none

def isDeveloperShellCall (node : SyntaxNode) : Bool :=
  match node.childByFieldName "function" with
  | none => false
  | some function =>
      function.kind == "member_expression" &&
        match function.childByFieldName "object", function.childByFieldName "property" with
        | some object, some property =>
            object.kind == "identifier" && property.kind == "property_identifier" &&
              object.text == some "Developer" && property.text == some "shell"
        | _, _ => false

/-- Whether a key of an object is `command`. -/
def isCommandKey (key : SyntaxNode) : Bool :=
  if key.kind = "property_identifier" then key.text == some "command"
  else if key.kind = "string" then key.text.bind decodeQuotedString == some "command"
  else false

/-- The literal that a call gives as its only argument, when that is the command. -/
def commandLiteral (node : SyntaxNode) : Option String :=
  (node.childByFieldName "arguments").bind fun arguments =>
    match arguments.namedChildren with
    | [object] =>
        if object.kind = "object" then
          match object.namedChildren with
          | [pair] =>
              if pair.kind = "pair" then
                (pair.childByFieldName "key").bind fun key =>
                  if isCommandKey key then
                    (pair.childByFieldName "value").bind fun value => if value.kind = "string" then value.text else none
                  else none
              else none
          | _ => none
        else none
    | _ => none

def shellCommandFromCall (node : SyntaxNode) : Option String :=
  (commandLiteral node).bind decodeQuotedString

mutual

/-- The nodes of a tree in the order in which a stack of nodes gives them. -/
def visited : SyntaxNode -> List SyntaxNode
  | .node kind text fields children => .node kind text fields children :: visitedAll children

def visitedAll : List SyntaxNode -> List SyntaxNode
  | [] => []
  | child :: rest => visitedAll rest ++ visited child

end

/-- The command of the only shell call among the nodes. -/
def onlyCommand (command : Option String) : List SyntaxNode -> Option String
  | [] => command
  | node :: rest =>
      if node.kind == "call_expression" && isDeveloperShellCall node then
        if command.isSome then none
        else
          match shellCommandFromCall node with
          | none => none
          | some found => onlyCommand (some found) rest
      else onlyCommand command rest

def extractShellCommandFromExecuteCode (readers : Readers) (code : String) : Option String :=
  match readers.parseTypeScript code with
  | none => none
  | some tree => if tree.hasError then none else onlyCommand none (visited tree.root)

def maybeConvertExecuteToShellToolCall (readers : Readers) (tools : List Tool) (rawToolName : String)
    (argumentsValue : Json) : Option CallToolRequestParams :=
  if isExecuteAlias rawToolName then
    (resolveToolName "shell" tools).bind fun shellToolName =>
      ((argumentsValue.get "code").bind Json.asStr).bind fun code =>
        (extractShellCommandFromExecuteCode readers code).map fun command =>
          ⟨shellToolName, some [("command", .string command)]⟩
  else none

/-! ## JSON with stray backslashes -/

/-- Write a second backslash where one stands before a letter that is no escape. -/
def escapeInvalidBackslashesFrom (inString escaped : Bool) : List Char -> List Char
  | [] => if escaped then ['\\'] else []
  | character :: rest =>
      if inString then
        if escaped then
          if character ∈ ['\x22', '\\', '/', 'b', 'f', 'n', 'r', 't', 'u'] then
            character :: escapeInvalidBackslashesFrom true false rest
          else '\\' :: character :: escapeInvalidBackslashesFrom true false rest
        else if character = '\\' then '\\' :: escapeInvalidBackslashesFrom true true rest
        else character :: escapeInvalidBackslashesFrom (character != '\x22') false rest
      else character :: escapeInvalidBackslashesFrom (character == '\x22') false rest

def escapeInvalidBackslashesInJsonStrings (input : String) : String :=
  String.ofList (escapeInvalidBackslashesFrom false false input.toList)

def parseJsonValueTolerant (json : JsonParser) (input : String) : Option Json :=
  (json.value? input).orElse fun _ => json.value? (escapeInvalidBackslashesInJsonStrings input)

/-! ## Calls -/

/-- What stands behind a token that begins a call, up to the token that ends it. -/
inductive Block where
  | terminated (body : List Char)
  | unterminated (body : List Char)
deriving DecidableEq, Repr

/-- The first block of a text, with the text behind it. -/
def nextBlock (text : List Char) : Option (Block × List Char) :=
  (cut toolCallBegin text).map fun parts =>
    match cut toolCallEnd parts.2 with
    | some (body, rest) => (.terminated body, rest)
    | none => (.unterminated parts.2, [])

/-- The blocks of a text. -/
def blocks (content : String) : List Block :=
  parts nextBlock content.toList

/-- The header of a block and its arguments, if there are any. -/
def headerAndArguments (body : List Char) : String × Option String :=
  match cut toolCallArgumentBegin body with
  | some (name, arguments) => (String.ofList name, some (String.ofList arguments))
  | none =>
      match cut ['\x7b'] body with
      | some (name, arguments) => (String.ofList name, some (String.ofList ('\x7b' :: arguments)))
      | none => (String.ofList body, none)

/-- The header of a block and its arguments, without whitespace around them where the block
is terminated and has arguments. -/
def Block.split : Block -> String × Option String
  | .terminated body =>
      match headerAndArguments body with
      | (header, none) => (header, none)
      | (header, some arguments) => (Text.trim header, some (Text.trim arguments))
  | .unterminated body => headerAndArguments body

/-- What becomes of a block. -/
inductive Verdict where
  | call (toolCall : CallToolRequestParams)
  | rejectedExecute
  | ignored
deriving DecidableEq

/-- A shell call, or else a rejection. -/
def Verdict.ofConversion : Option CallToolRequestParams -> Verdict
  | some shellCall => .call shellCall
  | none => .rejectedExecute

def Verdict.rejectedIf (mentioned : Bool) : Verdict :=
  if mentioned then .rejectedExecute else .ignored

section Verdicts

variable (readers : Readers) (tools : List Tool)

/-- What becomes of a terminated block whose arguments have a value. -/
def verdictOfValue (rawToolName rawArgs : String) (argumentsValue : Json) : Verdict :=
  if containsUnresolvedExecuteAlias rawToolName tools then
    .ofConversion (maybeConvertExecuteToShellToolCall readers tools rawToolName argumentsValue)
  else
    match resolveToolName rawToolName tools with
    | some toolName =>
        match argumentsValue with
        | .object fields => .call ⟨toolName, some fields⟩
        | _ => .ignored
    | none =>
        match ((argumentsValue.get "name").bind Json.asStr).filter fun name => containsUnresolvedExecuteAlias name tools with
        | some structuredExecuteName =>
            .ofConversion ((argumentsValue.get "arguments").bind fun arguments =>
              maybeConvertExecuteToShellToolCall readers tools structuredExecuteName arguments)
        | none =>
            .rejectedIf (containsStructuredUnresolvedExecuteAlias tools argumentsValue ||
              rawArgumentsContainStructuredUnresolvedExecuteAlias readers tools rawArgs)

/-- What becomes of a terminated block with a header and arguments. -/
def verdictOfArguments (rawToolName rawArgs : String) : Verdict :=
  match parseJsonValueTolerant readers.json rawArgs with
  | some argumentsValue => verdictOfValue readers tools rawToolName rawArgs argumentsValue
  | none =>
      .rejectedIf (containsUnresolvedExecuteAlias rawToolName tools ||
        rawArgumentsContainStructuredUnresolvedExecuteAlias readers tools rawArgs ||
        malformedArgumentsContainUnresolvedExecuteAlias readers tools rawArgs)

def verdict (block : Block) : Verdict :=
  match block.split with
  | (header, none) => .rejectedIf (containsUnresolvedExecuteAlias header tools)
  | (header, some arguments) =>
      match block with
      | .terminated _ => verdictOfArguments readers tools header arguments
      | .unterminated _ =>
          .rejectedIf (containsUnresolvedExecuteAlias header tools ||
            malformedArgumentsContainUnresolvedExecuteAlias readers tools arguments)

structure TokenizedToolCallParse where
  calls : List CallToolRequestParams
  rejectedExecute : Bool
deriving DecidableEq

def Verdict.toolCall : Verdict -> Option CallToolRequestParams
  | .call toolCall => some toolCall
  | _ => none

def parseTokenizedToolCallsWithStatus (content : String) : TokenizedToolCallParse where
  calls := (blocks content).filterMap fun block => (verdict readers tools block).toolCall
  rejectedExecute := (blocks content).any fun block => verdict readers tools block == .rejectedExecute

end Verdicts

theorem nextBlock_shrinks : Shrinks nextBlock := by
  intro text part rest taken
  rcases Option.map_eq_some_iff.mp taken with ⟨found, first, same⟩
  have shorter := cut_shrinks (by decide) first
  cases ended : cut toolCallEnd found.2 with
  | none =>
      rw [ended] at same
      cases same
      exact Nat.lt_of_le_of_lt (Nat.zero_le _) shorter
  | some ends =>
      rw [ended] at same
      cases same
      exact Nat.lt_trans (cut_shrinks (by decide) ended) shorter

theorem blocks_eq (content : String) :
    blocks content =
      match nextBlock content.toList with
      | none => []
      | some (block, rest) => block :: blocks (String.ofList rest) := by
  rw [blocks, parts_eq nextBlock_shrinks]
  cases nextBlock content.toList with
  | none => rfl
  | some found => simp only [blocks, String.toList_ofList]

end Toolshim
end AIBuddy
