import Mathlib.Data.List.DropRight
import AIBuddy.Support.Occurrences
import AIBuddy.Support.Text

namespace AIBuddy
namespace RecipeTemplate

/-!
# Recipe templates

A recipe is rendered by a template engine.  Before that, the text between two opening and two
closing braces that the engine would not parse is wrapped into a raw block, so that it comes
out as it was written.  The engine itself is not part of the repository: it is a parameter, and
what is relied on of it is stated for texts that are made of segments.
-/

open Occurrences

/-! ## The text of a template -/

def openBrace : List Char := ['\x7b', '\x7b']

def closeBrace : List Char := ['\x7d', '\x7d']

def rawTag : List Char := ['\x7b', '%', ' ', 'r', 'a', 'w', ' ', '%', '\x7d']

def endRawTag : List Char := ['\x7b', '%', ' ', 'e', 'n', 'd', 'r', 'a', 'w', ' ', '%', '\x7d']

/-- A text between two opening and two closing braces. -/
def braced (content : List Char) : List Char :=
  openBrace ++ (content ++ closeBrace)

/-- A text without braces. -/
def BraceFree (text : List Char) : Prop :=
  '\x7b' ∉ text ∧ '\x7d' ∉ text

instance (text : List Char) : Decidable (BraceFree text) :=
  inferInstanceAs (Decidable (_ ∧ _))

def Blank (text : List Char) : Prop :=
  forall character, character ∈ text -> Text.isWhitespace character = true

instance (text : List Char) : Decidable (Blank text) :=
  List.decidableBAll _ text

/-- A text without the whitespace around it. -/
def trimmed (text : List Char) : List Char :=
  (text.rdropWhile Text.isWhitespace).dropWhile Text.isWhitespace

def isIdentifier : List Char -> Bool
  | [] => false
  | first :: rest =>
      (first.isAlpha || first == '_') && rest.all fun character => character.isAlphanum || character == '_'

def startsQuoted (text : List Char) : Bool :=
  text.head?.any fun character => character == '\x27' || character == '\x22'

/-! ## Preparing a template -/

/-- What stands before the first two closing braces of a line, and what behind them. -/
def upToClose : List Char -> Option (List Char × List Char)
  | [] => none
  | symbol :: rest =>
      if closeBrace.isPrefixOf (symbol :: rest) then some ([], rest.drop 1)
      else if symbol = '\n' then none
      else (upToClose rest).map fun parts => (symbol :: parts.1, parts.2)

/-- The first match of the pattern for a template variable, and the text behind it. -/
def nextVariable : List Char -> Option (List Char × List Char)
  | [] => none
  | symbol :: rest =>
      (if openBrace.isPrefixOf (symbol :: rest) then upToClose (rest.drop 1) else none).or (nextVariable rest)

def extractTemplateVariables (content : List Char) : List (List Char) :=
  parts nextVariable content

/-- Whether a text is an identifier with whitespace around it. -/
def isValidVar (var : List Char) : Bool :=
  isIdentifier (trimmed var)

def filterComplexVariables (templateVariables : List (List Char)) : List (List Char) :=
  templateVariables.filter fun var => !isValidVar var

/-- The template engine: which texts it parses between braces, which identifiers it reads as
variables, and what it renders a template to. -/
structure Engine where
  parses : List Char -> Bool
  isVariable : List Char -> Bool
  render : List Char -> (List Char -> Option (List Char)) -> Option (List Char)

def filterUnparseableVariables (engine : Engine) (templateVariables : List (List Char)) : List (List Char) :=
  templateVariables.filter fun var => !startsQuoted (trimmed var) && !engine.parses var

/-- A text between braces inside of a raw block. -/
def rawBlock (var : List Char) : List Char :=
  rawTag ++ (braced var ++ endRawTag)

def replaceUnparseableVarsWithRaw (content : List Char) (unparsable : List (List Char)) : List Char :=
  unparsable.foldl (fun result var => replaceAll (braced var) (rawBlock var) result) content

def preprocessTemplateVariables (engine : Engine) (content : List Char) : List Char :=
  replaceUnparseableVarsWithRaw content
    (filterUnparseableVariables engine (filterComplexVariables (extractTemplateVariables content)))

/-- The length of whitespace and an empty double-quoted string at the start of a text. -/
def emptyQuotesLength (text : List Char) : Option Nat :=
  let white := text.takeWhile Text.isWhitespace
  if ['\x22', '\x22'].isPrefixOf (text.drop white.length) then some (white.length + 2) else none

/-- Replace each colon with an empty double-quoted string behind it, with the number of
characters that still belong to the last one. -/
def replaceEmptyQuotesFrom : Nat -> List Char -> List Char
  | _, [] => []
  | skip + 1, _ :: rest => replaceEmptyQuotesFrom skip rest
  | 0, symbol :: rest =>
      match (if symbol = ':' then emptyQuotesLength rest else none) with
      | some length => [':', ' ', '\x27', '\x27'] ++ replaceEmptyQuotesFrom length rest
      | none => symbol :: replaceEmptyQuotesFrom 0 rest

def replaceEmptyQuotes (content : List Char) : List Char :=
  replaceEmptyQuotesFrom 0 content

def renderRecipeContentWithParams (engine : Engine) (content : List Char)
    (params : List Char -> Option (List Char)) : Option (List Char) :=
  engine.render (preprocessTemplateVariables engine (replaceEmptyQuotes content)) params

/-! ## What is relied on of the engine -/

/-- Whether the text behind a brace, up to the next closing one, makes the tag that ends a raw
block. -/
def endsRaw (content : List Char) : Bool :=
  let sign := fun character => character == '-' || character == '+'
  let unsigned := fun text : List Char => if text.head?.any sign then text.drop 1 else text
  let inner := (unsigned (unsigned (content.drop 1).dropLast).reverse).reverse
  content.head? == some '%' && (content.drop 1).getLast? == some '%' &&
    trimmed inner == ['e', 'n', 'd', 'r', 'a', 'w']

/-- Parts of a template: text, references, and raw blocks around a text between braces, with
more tags that open a raw block before it. -/
inductive Segment where
  | plain (text : List Char)
  | reference (before name after : List Char)
  | raw (depth : Nat) (content : List Char)

namespace Segment

/-- What stands in a raw block. -/
def rawBody (depth : Nat) (content : List Char) : List Char :=
  (List.replicate depth rawTag).flatten ++ braced content

def written : Segment -> List Char
  | plain text => text
  | reference before name after => braced (before ++ (name ++ after))
  | raw depth content => rawTag ++ (rawBody depth content ++ endRawTag)

def value (params : List Char -> Option (List Char)) : Segment -> List Char
  | plain text => text
  | reference _ name _ => (params name).getD []
  | raw depth content => rawBody depth content

/-- The segments that the engine is known to render. -/
def Formed (engine : Engine) (params : List Char -> Option (List Char)) : Segment -> Prop
  | plain text => BraceFree text
  | reference before name after =>
      Blank before ∧ Blank after ∧ isIdentifier name = true ∧ engine.isVariable name = true ∧ (params name).isSome = true
  | raw _ content => BraceFree content ∧ endsRaw content = false

end Segment

/-- The text is the expected one, or that without a line break at its end. -/
def UpToNewline (text expected : List Char) : Prop :=
  text = expected ∨ text ++ ['\n'] = expected ∨ text ++ ['\r', '\n'] = expected

/-- The text of a template made of segments. -/
def template (segments : List Segment) : List Char :=
  segments.flatMap Segment.written

def AllFormed (engine : Engine) (params : List Char -> Option (List Char)) (segments : List Segment) : Prop :=
  forall segment, segment ∈ segments -> segment.Formed engine params

/-- What is relied on of the engine.  It substitutes variables and gives raw blocks as they are
written.  A tag that ends a raw block where none is open is an error, and so is a text between
braces that is no expression; the second is only asked for where no quote could hide the
closing braces. -/
structure Engine.Lawful (engine : Engine) : Prop where
  parses_reference : forall {before name after : List Char}, Blank before -> Blank after ->
    isIdentifier name = true -> engine.isVariable name = true -> engine.parses (before ++ (name ++ after)) = true
  render_segments : forall {params : List Char -> Option (List Char)} {segments : List Segment},
    AllFormed engine params segments ->
    Exists fun text => engine.render (template segments) params = some text ∧
      UpToNewline text (segments.flatMap (Segment.value params))
  render_stray : forall {params : List Char -> Option (List Char)} {segments : List Segment} (rest : List Char),
    AllFormed engine params segments -> engine.render (template segments ++ (endRawTag ++ rest)) params = none
  render_closed : forall {params : List Char -> Option (List Char)} {segments : List Segment} (depth : Nat)
    {content : List Char} (rest : List Char), AllFormed engine params segments -> BraceFree content ->
    endsRaw content = true ->
    engine.render (template segments ++ (rawTag ++ (Segment.rawBody depth content ++ (endRawTag ++ rest)))) params = none
  render_malformed : forall {params : List Char -> Option (List Char)} {segments : List Segment}
    {content : List Char} (rest : List Char), AllFormed engine params segments -> BraceFree content ->
    '\n' ∉ content -> '\x22' ∉ content -> '\x27' ∉ content -> engine.parses content = false ->
    engine.render (template segments ++ (braced content ++ rest)) params = none

/-! ## Texts made of pieces -/

/-- The pieces of a recipe. -/
inductive Piece where
  | literal (text : List Char)
  | reference (before name after : List Char)
  | span (content : List Char)

/-- Whether a colon with an empty double-quoted string behind it occurs in a text. -/
def ColonQuotes (text : List Char) : Prop :=
  Exists fun before => Exists fun white => Exists fun after =>
    text = before ++ ':' :: (white ++ '\x22' :: '\x22' :: after) ∧ Blank white

namespace Piece

def written : Piece -> List Char
  | literal text => text
  | reference before name after => braced (before ++ (name ++ after))
  | span content => braced content

/-- What a piece is rendered to: the value of a parameter, and all else as it is written. -/
def value (params : List Char -> Option (List Char)) : Piece -> List Char
  | literal text => text
  | reference _ name _ => (params name).getD []
  | span content => braced content

/-- The content of a span. -/
def span? : Piece -> Option (List Char)
  | span content => some content
  | literal _ | reference _ _ _ => none

/-- Text without braces, a reference to a supplied parameter, or a span that is not parsed. -/
def Readable (engine : Engine) (params : List Char -> Option (List Char)) : Piece -> Prop
  | literal text => BraceFree text
  | reference before name after =>
      Blank before ∧ Blank after ∧ isIdentifier name = true ∧ engine.isVariable name = true ∧ (params name).isSome = true
  | span content => BraceFree content ∧ '\n' ∉ content ∧ engine.parses content = false

instance (engine : Engine) (params : List Char -> Option (List Char)) :
    (piece : Piece) -> Decidable (piece.Readable engine params)
  | literal text => inferInstanceAs (Decidable (BraceFree text))
  | reference _ _ _ => inferInstanceAs (Decidable (_ ∧ _ ∧ _ ∧ _ ∧ _))
  | span _ => inferInstanceAs (Decidable (_ ∧ _ ∧ _))

/-- Text without an empty string behind a colon, or a span that does not start with a quote. -/
def Unquoted : Piece -> Prop
  | literal text => ¬ ColonQuotes text
  | reference _ _ _ => True
  | span content => startsQuoted content = false

end Piece

/-- The text of a recipe. -/
def document (pieces : List Piece) : List Char :=
  pieces.flatMap Piece.written

def AllReadable (engine : Engine) (params : List Char -> Option (List Char)) (pieces : List Piece) : Prop :=
  forall piece, piece ∈ pieces -> piece.Readable engine params

/-- What a recipe is to be rendered to. -/
def rendered (params : List Char -> Option (List Char)) (pieces : List Piece) : List Char :=
  pieces.flatMap (Piece.value params)

/-- The contents of the spans of a recipe. -/
def spans (pieces : List Piece) : List (List Char) :=
  pieces.filterMap Piece.span?

end RecipeTemplate
end AIBuddy
