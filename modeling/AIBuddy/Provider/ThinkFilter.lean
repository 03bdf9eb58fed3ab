import Mathlib.Algebra.GroupWithZero.Nat
import AIBuddy.Support.ByteOffsets
import AIBuddy.Support.Text

namespace AIBuddy

/-!
# Think blocks in streamed text

Models put their reasoning between think tags inside the text.  A filter separates
the two while the text comes in pieces.  It keeps a piece of text back as long as it
may be the beginning of a tag.  Positions count characters, and limits count bytes.
-/

/-! ## Characters -/

def isAsciiWhitespace (character : Char) : Bool :=
  character == ' ' || character == '\t' || character == '\n' || character == '\x0c' || character == '\r'

def isAsciiAlphabetic (character : Char) : Bool :=
  ('a' ≤ character && character ≤ 'z') || ('A' ≤ character && character ≤ 'Z')

def eqIgnoreAsciiCase (left right : List Char) : Bool :=
  left.map Char.toLower == right.map Char.toLower

/-! ## Complete tags -/

inductive ThinkTag where
  | openTag
  | closeTag
  | selfClosing
deriving DecidableEq, Repr

def maxBufferedThinkTagBytes : Nat := 8 * 1024

def isThinkName (name : List Char) : Bool :=
  eqIgnoreAsciiCase name "think".toList || eqIgnoreAsciiCase name "thinking".toList

/-- Whether a name may end before this text: a longer word is not a think tag. -/
def validOpenBoundary : List Char -> Bool
  | [] => false
  | character :: _ => character == '>' || character == '/' || isAsciiWhitespace character

def isQuote (character : Char) : Bool :=
  character == '\x22' || character == '\x27'

/-- Read the attributes of an opening tag up to its end, which may be quoted away.
The position behind the tag is returned. -/
def readAttributes (quote lastNonWs : Option Char) : List Char -> Nat -> Option (ThinkTag × Nat)
  | [], _ => none
  | character :: rest, index =>
      match quote with
      | some quoteCharacter =>
          readAttributes (if character = quoteCharacter then none else some quoteCharacter) lastNonWs rest (index + 1)
      | none =>
          if isQuote character then readAttributes (some character) (some character) rest (index + 1)
          else if character = '>' then
            some (if lastNonWs = some '/' then .selfClosing else .openTag, index + 1)
          else if isAsciiWhitespace character then readAttributes none lastNonWs rest (index + 1)
          else readAttributes none (some character) rest (index + 1)

/-- Read the rest of a closing tag. -/
def readClose (behind : List Char) (index : Nat) : Option (ThinkTag × Nat) :=
  match behind.dropWhile isAsciiWhitespace with
  | '>' :: _ => some (.closeTag, index + (behind.takeWhile isAsciiWhitespace).length + 1)
  | _ => none

/-- Read a tag behind its first character and slash. -/
def readName (isClose : Bool) (named : List Char) (index : Nat) : Option (ThinkTag × Nat) :=
  let name := named.takeWhile isAsciiAlphabetic
  let behind := named.dropWhile isAsciiAlphabetic
  if !isThinkName name then none
  else if isClose then readClose behind (index + name.length)
  else if !validOpenBoundary behind then none
  else readAttributes none none behind (index + name.length)

/-- The complete tag at the start of a text, with its length. -/
def parseThinkTag : List Char -> Option (ThinkTag × Nat)
  | '<' :: '/' :: named => readName true named 2
  | '<' :: named => readName false named 1
  | _ => none

/-! ## Beginnings of tags -/

/-- Whether a text has a closing angle bracket outside of quotes. -/
def containsUnquotedGtFrom (quote : Option Char) : List Char -> Bool
  | [] => false
  | character :: rest =>
      match quote with
      | some quoteCharacter =>
          containsUnquotedGtFrom (if character = quoteCharacter then none else some quoteCharacter) rest
      | none =>
          if isQuote character then containsUnquotedGtFrom (some character) rest
          else if character = '>' then true
          else containsUnquotedGtFrom none rest

def containsUnquotedGt (text : List Char) : Bool :=
  containsUnquotedGtFrom none text

/-- Whether a character matches a letter of a pattern that ignores case.  The Kelvin
sign folds to a letter. -/
def matchesLetter (letter character : Char) : Bool :=
  character.toLower == letter || (letter == 'k' && character.toNat == 0x212A)

/-- Whether a text is a non-empty beginning of the longer tag name. -/
def matchesNamePrefix (name : List Char) : Bool :=
  !name.isEmpty && name.length ≤ "thinking".toList.length &&
    (List.zipWith matchesLetter "thinking".toList name).all fun matched => matched

/-- What the pattern for opening tags allows behind the name. -/
def openTail : List Char -> Bool
  | [] => true
  | ['/'] => true
  | character :: _ => Text.isWhitespace character

/-- What the pattern for closing tags allows behind the name. -/
def closeTail (tail : List Char) : Bool :=
  tail.all Text.isWhitespace

/-- Whether a text splits into a beginning of the name and an allowed tail. -/
def matchesPattern (tail : List Char -> Bool) (named : List Char) : Bool :=
  (List.range (named.length + 1)).any fun length =>
    matchesNamePrefix (named.take length) && tail (named.drop length)

def isPossiblePartialThinkTag (suffix : List Char) : Bool :=
  if containsUnquotedGt suffix then false
  else
    match suffix with
    | '<' :: '/' :: named => matchesPattern closeTail named
    | '<' :: named => matchesPattern openTail named
    | _ => false

/-! ## The filter -/

inductive BufferEvent where
  | tag (pos endPos : Nat) (kind : ThinkTag)
  | oversizedTag (endPos : Nat)
  | partialTag (pos : Nat)
deriving DecidableEq, Repr

/-- An event one position later. -/
def BufferEvent.later : BufferEvent -> BufferEvent
  | tag pos endPos kind => tag (pos + 1) (endPos + 1) kind
  | oversizedTag endPos => oversizedTag (endPos + 1)
  | partialTag pos => partialTag (pos + 1)

/-- The first thing in the buffer that is not plain text.  A closing tag matters
inside of a think block only. -/
def nextBufferEvent (insideThink : Bool) : List Char -> Option BufferEvent
  | [] => none
  | first :: rest =>
      let searched := (nextBufferEvent insideThink rest).map BufferEvent.later
      if first ≠ '<' then searched
      else
        match parseThinkTag (first :: rest) with
        | some (kind, length) =>
            if utf8Length ((first :: rest).take length) > maxBufferedThinkTagBytes then some (.oversizedTag length)
            else if insideThink || kind ≠ .closeTag then some (.tag 0 length kind)
            else searched
        | none =>
            if !containsUnquotedGt (first :: rest) && isPossiblePartialThinkTag (first :: rest) then
              some (.partialTag 0)
            else searched

@[ext]
structure FilterOut where
  content : List Char
  thinking : List Char
deriving DecidableEq, Repr

namespace FilterOut

def empty : FilterOut := ⟨[], []⟩

/-- Add text to one of the two outputs. -/
def add (out : FilterOut) (insideThink : Bool) (text : List Char) : FilterOut :=
  if insideThink then { out with thinking := out.thinking ++ text } else { out with content := out.content ++ text }

def append (left right : FilterOut) : FilterOut :=
  ⟨left.content ++ right.content, left.thinking ++ right.thinking⟩

end FilterOut

structure ThinkFilter where
  buffer : List Char
  insideThink : Bool
  thinkDepth : Nat
deriving DecidableEq, Repr

namespace ThinkFilter

def new : ThinkFilter := ⟨[], false, 0⟩

/-- What a tag does to the nesting. -/
def pass (filter : ThinkFilter) : ThinkTag -> ThinkFilter
  | .openTag => { filter with thinkDepth := filter.thinkDepth + 1, insideThink := true }
  | .closeTag =>
      { filter with thinkDepth := filter.thinkDepth - 1, insideThink := decide (filter.thinkDepth - 1 > 0) }
  | .selfClosing => filter

/-- Process the buffer until nothing is left or the rest may begin a tag.  Each round
takes something from the buffer, so that the fuel suffices when it exceeds the length
of the buffer. -/
def processLoop : Nat -> ThinkFilter -> FilterOut -> ThinkFilter × FilterOut
  | 0, filter, out => (filter, out)
  | fuel + 1, filter, out =>
      match nextBufferEvent filter.insideThink filter.buffer with
      | some (.tag pos endPos kind) =>
          processLoop fuel ({ filter with buffer := filter.buffer.drop endPos }.pass kind)
            (out.add filter.insideThink (filter.buffer.take pos))
      | some (.oversizedTag endPos) =>
          processLoop fuel { filter with buffer := filter.buffer.drop endPos }
            (out.add filter.insideThink (filter.buffer.take endPos))
      | some (.partialTag pos) =>
          let flushed := out.add filter.insideThink (filter.buffer.take pos)
          let held := filter.buffer.drop pos
          if utf8Length held > maxBufferedThinkTagBytes then
            ({ filter with buffer := [] }, flushed.add filter.insideThink held)
          else ({ filter with buffer := held }, flushed)
      | none => ({ filter with buffer := [] }, out.add filter.insideThink filter.buffer)

def processBuffer (filter : ThinkFilter) : ThinkFilter × FilterOut :=
  processLoop (filter.buffer.length + 1) filter FilterOut.empty

def push (filter : ThinkFilter) (chunk : List Char) : ThinkFilter × FilterOut :=
  { filter with buffer := filter.buffer ++ chunk }.processBuffer

def finish (filter : ThinkFilter) : FilterOut :=
  let processed := filter.processBuffer
  processed.2.add processed.1.insideThink processed.1.buffer

/-- Push all chunks and finish. -/
def run (filter : ThinkFilter) : List (List Char) -> FilterOut
  | [] => filter.finish
  | chunk :: rest => (filter.push chunk).2.append ((filter.push chunk).1.run rest)

end ThinkFilter

def splitThinkBlocks (text : List Char) : List Char × List Char :=
  let pushed := ThinkFilter.new.push text
  let out := pushed.2.append pushed.1.finish
  (out.content, out.thinking)

end AIBuddy
