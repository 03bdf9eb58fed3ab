import AIBuddy.Toolshim.MarkerLeaks

namespace AIBuddy
namespace Toolshim

open Occurrences StringLiteral

/-!
# Requests for code execution

A block of a tokenized call that is not for an offered tool and mentions code execution
should become a shell call with the literal command of its code, or have the message
returned as it is, without calls.  Several scanners look for the mention, each in one kind of
block, and what they miss is run or interpreted as if it were not there.
-/

/-! ## Commands in code -/

/-- What stands between the quotes of a literal. -/
def quotedBody (literal : String) : Option (List Char) :=
  match literal.toList with
  | [] => none
  | quote :: rest => if (quote = '\x22' ∨ quote = '\'') ∧ rest.getLast? = some quote then some rest.dropLast else none

theorem decodeQuotedString_eq (literal : String) :
    decodeQuotedString literal = ((quotedBody literal).bind (unescaped false)).map String.ofList := by
  rw [decodeQuotedString, quotedBody]
  cases literal.toList with
  | nil => rfl
  | cons quote rest =>
      dsimp only
      split <;> rfl

/-- A command is the value of a literal. -/
def IsCommand (literal command : String) : Prop :=
  Exists fun body => quotedBody literal = some body ∧ LiteralValue body (utf16 command.toList)

/-- Behind every backslash of a literal stands a character that stands for itself. -/
def PlainLiteral (literal : String) : Prop :=
  Exists fun body => quotedBody literal = some body ∧ plainEscapes body = true

theorem isCommand_decoded_iff {literal command : String} (decoded : decodeQuotedString literal = some command) :
    IsCommand literal command ↔ PlainLiteral literal := by
  rw [decodeQuotedString_eq] at decoded
  rcases Option.map_eq_some_iff.mp decoded with ⟨text, bound, same⟩
  rcases Option.bind_eq_some_iff.mp bound with ⟨body, found, read⟩
  have exact_iff := literalValue_unescaped_iff read
  rw [IsCommand, PlainLiteral, ← same, String.toList_ofList, found]
  constructor
  · rintro ⟨other, equal, literalValue⟩
    cases equal
    exact ⟨body, rfl, exact_iff.mp literalValue⟩
  · rintro ⟨other, equal, plain⟩
    cases equal
    exact ⟨body, rfl, exact_iff.mpr plain⟩

def isShellCallNode (node : SyntaxNode) : Bool :=
  node.kind == "call_expression" && isDeveloperShellCall node

theorem onlyCommand_some_iff (nodes : List SyntaxNode) (found command : String) :
    onlyCommand (some found) nodes = some command ↔ nodes.filter isShellCallNode = [] ∧ found = command := by
  induction nodes with
  | nil => simp [onlyCommand]
  | cons node rest ih =>
      rw [onlyCommand, List.filter_cons, show (node.kind == "call_expression" && isDeveloperShellCall node) =
        isShellCallNode node from rfl]
      cases isShellCallNode node with
      | true => simp
      | false => simpa using ih

theorem onlyCommand_none_iff (nodes : List SyntaxNode) (command : String) :
    onlyCommand none nodes = some command ↔
      Exists fun node => nodes.filter isShellCallNode = [node] ∧ shellCommandFromCall node = some command := by
  induction nodes with
  | nil => simp [onlyCommand]
  | cons node rest ih =>
      rw [onlyCommand, List.filter_cons, show (node.kind == "call_expression" && isDeveloperShellCall node) =
        isShellCallNode node from rfl]
      cases isShellCallNode node with
      | false => simpa using ih
      | true =>
          rw [if_pos rfl, if_neg (by decide), if_pos rfl]
          cases read : shellCommandFromCall node with
          | none =>
              apply iff_of_false
              · intro same
                cases same
              · rintro ⟨other, same, found⟩
                rw [← (List.cons.inj same).1, read] at found
                cases found
          | some found =>
              dsimp only
              rw [onlyCommand_some_iff]
              constructor
              · rintro ⟨none, same⟩
                exact ⟨node, by rw [none], by rw [read, same]⟩
              · rintro ⟨other, same, command⟩
                rw [← (List.cons.inj same).1, read] at command
                exact ⟨(List.cons.inj same).2, Option.some.inj command⟩

/-- The code of a value has exactly one call of `Developer.shell`, and that has this literal
as its command. -/
def OnlyLiteral (readers : Readers) (value : Json) (literal : String) : Prop :=
  Exists fun code => Exists fun tree => Exists fun node =>
    (value.get "code").bind Json.asStr = some code ∧ readers.parseTypeScript code = some tree ∧
      tree.hasError = false ∧ (visited tree.root).filter isShellCallNode = [node] ∧ commandLiteral node = some literal

theorem OnlyLiteral.unique {readers : Readers} {value : Json} {first second : String}
    (left : OnlyLiteral readers value first) (right : OnlyLiteral readers value second) : first = second := by
  rcases left with ⟨code, tree, node, coded, parsed, _, only, literal⟩
  rcases right with ⟨otherCode, otherTree, otherNode, otherCoded, otherParsed, _, otherOnly, otherLiteral⟩
  rw [coded] at otherCoded
  cases otherCoded
  rw [parsed] at otherParsed
  cases otherParsed
  rw [only] at otherOnly
  cases otherOnly
  rw [literal] at otherLiteral
  exact Option.some.inj otherLiteral

theorem converted_call {readers : Readers} {tools : List Tool} {name : String} {value : Json}
    {toolCall : CallToolRequestParams}
    (converted : maybeConvertExecuteToShellToolCall readers tools name value = some toolCall) :
    Exists fun literal => Exists fun command =>
      OnlyLiteral readers value literal ∧ decodeQuotedString literal = some command ∧
        resolveToolName "shell" tools = some toolCall.name ∧
        toolCall.arguments = some [("command", .string command)] := by
  rw [maybeConvertExecuteToShellToolCall] at converted
  split at converted
  case isFalse => cases converted
  case isTrue =>
      rcases Option.bind_eq_some_iff.mp converted with ⟨shellToolName, resolved, coded⟩
      rcases Option.bind_eq_some_iff.mp coded with ⟨code, read, extracted⟩
      rcases Option.map_eq_some_iff.mp extracted with ⟨command, found, same⟩
      rw [extractShellCommandFromExecuteCode] at found
      cases parsed : readers.parseTypeScript code with
      | none =>
          rw [parsed] at found
          cases found
      | some tree =>
          rw [parsed] at found
          dsimp only at found
          split at found
          case isTrue => cases found
          case isFalse noError =>
              rcases (onlyCommand_none_iff _ _).mp found with ⟨node, only, fromCall⟩
              rcases Option.bind_eq_some_iff.mp fromCall with ⟨literal, written, decoded⟩
              rw [Bool.not_eq_true] at noError
              rw [← same]
              exact ⟨literal, command, ⟨code, tree, node, read, parsed, noError, only, written⟩, decoded, resolved, rfl⟩

theorem shell_ne_noop {tools : List Tool} {name : String} (resolved : resolveToolName "shell" tools = some name) :
    name ≠ "noop" := by
  have only : candidates "shell" = ["shell"] := by decide +kernel
  rw [resolveToolName, only, Option.or_eq_some_iff] at resolved
  intro same
  rcases resolved with direct | ⟨_, extended⟩
  · have member := List.mem_of_find?_eq_some direct
    rw [List.mem_singleton, same] at member
    exact absurd member (by decide)
  · rcases List.exists_of_findSome?_eq_some extended with ⟨candidate, known, found⟩
    rw [List.mem_singleton] at known
    split at found
    case h_2 => exact absurd found.symm (Option.some_ne_none name)
    case h_1 single listed =>
        rw [Option.some_inj] at found
        have member : single ∈ extensionMatches candidate tools := by
          rw [listed]
          exact List.mem_singleton_self single
        have filtered := (List.destutter_sublist _ _).subset member
        rw [List.mem_insertionSort, List.mem_map] at filtered
        rcases filtered with ⟨tool, inTools, named⟩
        have ends := List.of_mem_filter inTools
        rw [named, found, same, known] at ends
        exact absurd ends (by decide +kernel)

end Toolshim
end AIBuddy
