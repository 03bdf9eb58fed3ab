import AIBuddy.Conversation.Message
import AIBuddy.Support.Occurrences
import AIBuddy.Support.Text

namespace AIBuddy
namespace Toolshim

open Occurrences

/-!
# Markup of tool calls

Models write tool calls into their texts in two dialects: between tokens, and as JSON behind
an announcement.  Neither should be seen in a final text, and there are three functions that
take it out: one for each dialect, and one for both.
-/

/-! ## Markers -/

def toolCallsSectionBegin : List Char := "<|tool_calls_section_begin|>".toList

def toolCallsSectionEnd : List Char := "<|tool_calls_section_end|>".toList

def toolCallBegin : List Char := "<|tool_call_begin|>".toList

def toolCallArgumentBegin : List Char := "<|tool_call_argument_begin|>".toList

def toolCallArgumentEnd : List Char := "<|tool_call_argument_end|>".toList

def toolCallEnd : List Char := "<|tool_call_end|>".toList

/-- The tokens, in the order in which they are taken out. -/
def tokenMarkers : List (List Char) :=
  [toolCallBegin, toolCallArgumentBegin, toolCallArgumentEnd, toolCallEnd, toolCallsSectionBegin, toolCallsSectionEnd]

/-- Whether a text has tokens of tool calls. -/
def hasTokenMarkers (text : String) : Bool :=
  tokenMarkers.any fun marker => occurs marker text.toList

/-- Whether a text looks like a tool call in JSON. -/
def looksLikeToolDirective (text : String) : Bool :=
  occurs "using tool:".toList (text.toList.map Char.toLower) ||
    (occurs "\x22name\x22".toList text.toList && occurs "\x22arguments\x22".toList text.toList)

/-- Whether a text has markup of tool calls that should never appear in final output. -/
def hasToolMarkers (text : String) : Bool :=
  hasTokenMarkers text || looksLikeToolDirective text

/-! ## Taking markup out -/

/-- Cut out sections of tool calls, at most so many.  A section without an end goes up to the
end of the text. -/
def cutSections : Nat -> List Char -> List Char
  | 0, text => text
  | bound + 1, text =>
      match cut toolCallsSectionBegin text with
      | none => text
      | some (before, after) =>
          match cut toolCallsSectionEnd after with
          | some (_, rest) => cutSections bound (before ++ rest)
          | none => before

def stripTokenizedToolMarkup (content : String) : String :=
  Text.trim (String.ofList (replaceEach tokenMarkers ' ' (cutSections content.toList.length content.toList)))

/-- Change the texts of a message. -/
def mapTexts (change : String -> String) (message : Message) : Message :=
  { message with
    content := message.content.map fun block =>
      match block with
      | .text content => .text { content with text := change content.text }
      | other => other }

/-- Drop the texts of a message that are blank. -/
def retainTexts (message : Message) : Message :=
  { message with
    content := message.content.filter fun block =>
      match block with
      | .text content => !Text.isBlank content.text
      | _ => true }

def sanitizeMessageAfterTokenizedParse (message : Message) : Message :=
  retainTexts (mapTexts stripTokenizedToolMarkup message)

/-- A text that looks like a tool call is cleared. -/
def clearDirective (text : String) : String :=
  if looksLikeToolDirective text then "" else text

def sanitizeMessageAfterJsonToolParse (message : Message) : Message :=
  retainTexts (mapTexts clearDirective message)

/-- Take out what is marked in a text. -/
def clearResidual (text : String) : String :=
  if hasToolMarkers text then clearDirective (stripTokenizedToolMarkup text) else text

/-- The texts of a message. -/
def texts (message : Message) : List String :=
  message.content.filterMap MessageContentBlock.asText

/-- Take out what is marked in any text of a message. -/
def sanitizeResidualMarkers (message : Message) : Message :=
  let cleared := mapTexts clearResidual message
  if (texts message).any hasToolMarkers then retainTexts cleared else cleared

/-! ## What is left -/

theorem tokenMarkers_apart : Apart tokenMarkers ' ' := by
  unfold Apart
  decide

theorem hasTokenMarkers_strip (text : String) : hasTokenMarkers (stripTokenizedToolMarkup text) = false := by
  rw [hasTokenMarkers, List.any_eq_false]
  intro marker member found
  rw [occurs_iff] at found
  apply not_infix_replaceEach tokenMarkers_apart member (cutSections text.toList.length text.toList)
  have inside := found.trans (Text.trim_infix _)
  rw [String.toList_ofList] at inside
  exact inside

theorem hasToolMarkers_strip (text : String) :
    hasToolMarkers (stripTokenizedToolMarkup text) = looksLikeToolDirective (stripTokenizedToolMarkup text) := by
  rw [hasToolMarkers, hasTokenMarkers_strip, Bool.false_or]

theorem hasToolMarkers_empty : hasToolMarkers "" = false := by decide

theorem hasToolMarkers_clearDirective (text : String) :
    hasToolMarkers (clearDirective text) = (hasTokenMarkers text && !looksLikeToolDirective text) := by
  rw [clearDirective]
  split
  case isTrue directive => rw [hasToolMarkers_empty, directive, Bool.not_true, Bool.and_false]
  case isFalse plain =>
      rw [Bool.not_eq_true] at plain
      rw [hasToolMarkers, plain, Bool.or_false, Bool.not_false, Bool.and_true]

theorem hasToolMarkers_clearResidual (text : String) : hasToolMarkers (clearResidual text) = false := by
  rw [clearResidual]
  split
  case isTrue => rw [hasToolMarkers_clearDirective, hasTokenMarkers_strip, Bool.false_and]
  case isFalse plain =>
      rw [Bool.not_eq_true] at plain
      exact plain

/-! ## Texts of messages -/

@[simp] theorem texts_mapTexts (change : String -> String) (message : Message) :
    texts (mapTexts change message) = (texts message).map change := by
  rw [texts, mapTexts, List.filterMap_map, texts, List.map_filterMap]
  congr 1
  funext block
  cases block <;> rfl

@[simp] theorem texts_retainTexts (message : Message) :
    texts (retainTexts message) = (texts message).filter fun text => !Text.isBlank text := by
  rw [texts, retainTexts, List.filterMap_filter, texts, List.filter_filterMap]
  congr 1
  funext block
  cases block with
  | text content => rfl
  | _ => rfl

end Toolshim
end AIBuddy
