import AIBuddy.Support.Text

namespace AIBuddy

/-!
# The streaming markdown buffer

The buffer holds back the end of a stream that is not yet safe to render, and drains
it up to the last place where no markdown construct is open.  A scan of the buffer
resumes at a checkpoint, the start of a line up to which the buffer can no longer be
read in another way.  Texts are lists of characters, and places in them are counted in
characters.
-/

namespace Markdown

/-! ## Parse states -/

/-- The markdown constructs that are open. -/
structure ParseState where
  inCodeBlock : Bool
  codeFenceChar : Char
  codeFenceLen : Nat
  inTable : Bool
  pendingHeading : Bool
  inInlineCode : Bool
  inlineCodeLen : Nat
  inBold : Bool
  inItalic : Bool
  inStrikethrough : Bool
  inLinkText : Bool
  inLinkUrl : Bool
  inImageAlt : Bool
deriving DecidableEq, Repr

namespace ParseState

def start : ParseState :=
  ⟨false, '\x00', 0, false, false, false, 0, false, false, false, false, false, false⟩

/-- No construct is open. -/
def isClean (state : ParseState) : Bool :=
  !state.inCodeBlock && !state.inTable && !state.pendingHeading && !state.inInlineCode && !state.inBold &&
    !state.inItalic && !state.inStrikethrough && !state.inLinkText && !state.inLinkUrl && !state.inImageAlt

end ParseState

/-- Where a scan stands, what is open there, and the last place where nothing was. -/
structure ScanCheckpoint where
  pos : Nat
  state : ParseState
  lastSafe : Nat
deriving DecidableEq, Repr

def ScanCheckpoint.start : ScanCheckpoint := ⟨0, ParseState.start, 0⟩

/-! ## Starts of lines -/

/-- The first line of a text, with the newline behind it where there is one. -/
def takeLine : List Char -> List Char
  | [] => []
  | first :: rest => if first = '\n' then [first] else first :: takeLine rest

def startsWith (text : List Char) (first : Char) : Bool :=
  text.head? == some first

/-- A run of at least three backticks or tildes behind whitespace opens a code block.
In a block, a run of the same kind that is no shorter closes it if nothing else stands
on its line, or nothing but whitespace in all of the rest of the text. -/
def checkCodeFence (line : List Char) (state : ParseState) : ParseState × Option Nat :=
  let trimmed := line.dropWhile Text.isWhitespace
  match trimmed with
  | [] => (state, none)
  | fenceChar :: _ =>
      if fenceChar ≠ '`' ∧ fenceChar ≠ '~' then (state, none)
      else
        let fenceLen := (trimmed.takeWhile fun character => character == fenceChar).length
        if fenceLen < 3 then (state, none)
        else
          let afterFence := trimmed.drop fenceLen
          if state.inCodeBlock then
            if fenceChar = state.codeFenceChar ∧ state.codeFenceLen ≤ fenceLen ∧
                (afterFence.isEmpty || startsWith afterFence '\n' || afterFence.all Text.isWhitespace) = true then
              ({ state with inCodeBlock := false, codeFenceChar := '\x00', codeFenceLen := 0 },
                some (takeLine line).length)
            else (state, none)
          else
            ({ state with inCodeBlock := true, codeFenceChar := fenceChar, codeFenceLen := fenceLen },
              some (takeLine line).length)

/-- Whether the line is a heading. -/
def opensHeading (remaining : List Char) : Bool :=
  let hashes := (remaining.takeWhile fun character => character == '#').length
  let afterHashes := remaining.drop hashes
  startsWith remaining '#' && decide (hashes ≤ 6) &&
    (afterHashes.isEmpty || startsWith afterHashes ' ' || startsWith afterHashes '\n')

/-- The constructs that begin or end with a line, and the length of what they use up. -/
def processLineStart (state : ParseState) (remaining : List Char) : ParseState × Option Nat :=
  let state := { state with pendingHeading := false }
  match checkCodeFence remaining state with
  | (state, some length) => (state, some length)
  | (state, none) =>
      if state.inCodeBlock then (state, none)
      else if opensHeading remaining then ({ state with pendingHeading := true }, none)
      else if startsWith remaining '|' then ({ state with inTable := true }, none)
      else if (startsWith remaining '\n' || remaining.isEmpty) && state.inTable then
        ({ state with inTable := false }, some 1)
      else ({ state with inTable := false }, none)

/-! ## Inline tokens -/

/-- The characters that are not plain text. -/
def isSpecial (character : Char) : Bool :=
  ['\\', '*', '_', '`', '~', '[', ']', '!', '(', ')'].contains character

/-- The length of the token at the beginning of a text, by the first pattern that
matches there. -/
def tokenLength : List Char -> Nat
  | '\\' :: next :: _ => if next = '\n' then 1 else 2
  | '`' :: rest => 1 + (rest.takeWhile fun character => character == '`').length
  | '*' :: '*' :: '*' :: _ => 3
  | '*' :: '*' :: _ => 2
  | '_' :: '_' :: '_' :: _ => 3
  | '_' :: '_' :: _ => 2
  | '~' :: '~' :: _ => 2
  | '!' :: '[' :: _ => 2
  | ']' :: '(' :: _ => 2
  | first :: rest =>
      if isSpecial first then 1 else 1 + (rest.takeWhile fun character => !isSpecial character).length
  | [] => 0

/-- Cut a text into tokens. -/
def inlineTokens : Nat -> List Char -> List (List Char)
  | 0, _ => []
  | _ + 1, [] => []
  | fuel + 1, text => text.take (tokenLength text) :: inlineTokens fuel (text.drop (tokenLength text))

/-- The number of bytes of a token. -/
def byteLength (token : List Char) : Nat :=
  token.foldl (fun bytes character => bytes + character.utf8Size) 0

/-- The emphasis of three stars or underscores. -/
def toggleBoth (state : ParseState) : ParseState :=
  if state.inBold && state.inItalic then { state with inBold := false, inItalic := false }
  else if state.inBold then { state with inItalic := !state.inItalic }
  else if state.inItalic then { state with inBold := !state.inBold }
  else { state with inBold := true, inItalic := true }

def processInlineToken (state : ParseState) (token : List Char) : ParseState :=
  if startsWith token '\\' && byteLength token == 2 then state
  else if startsWith token '`' then
    if state.inInlineCode then
      if byteLength token = state.inlineCodeLen then { state with inInlineCode := false, inlineCodeLen := 0 }
      else state
    else { state with inInlineCode := true, inlineCodeLen := byteLength token }
  else if state.inInlineCode then state
  else
    match token with
    | ['*', '*', '*'] | ['_', '_', '_'] => toggleBoth state
    | ['*', '*'] | ['_', '_'] => { state with inBold := !state.inBold }
    | ['*'] | ['_'] => { state with inItalic := !state.inItalic }
    | ['~', '~'] => { state with inStrikethrough := !state.inStrikethrough }
    | ['!', '['] => { state with inImageAlt := true }
    | ['['] => if !state.inLinkText && !state.inImageAlt then { state with inLinkText := true } else state
    | [']', '('] =>
        if state.inLinkText then { state with inLinkText := false, inLinkUrl := true }
        else if state.inImageAlt then { state with inImageAlt := false, inLinkUrl := true }
        else state
    | [')'] => if state.inLinkUrl then { state with inLinkUrl := false } else state
    | _ => state

/-- Move the last safe place here if nothing is open. -/
def markSafe (scan : ScanCheckpoint) : ScanCheckpoint :=
  if scan.state.isClean then { scan with lastSafe := scan.pos } else scan

/-- Read one token. -/
def readToken (scan : ScanCheckpoint) (token : List Char) : ScanCheckpoint :=
  markSafe ⟨scan.pos + token.length, processInlineToken scan.state token, scan.lastSafe⟩

/-- Read a line outside of code blocks; a newline at its end closes a heading. -/
def readLine (scan : ScanCheckpoint) (line : List Char) : ScanCheckpoint :=
  let read := (inlineTokens line.length line).foldl readToken scan
  let ends := { read with pos := scan.pos + line.length }
  if line.getLast? = some '\n' then
    markSafe { ends with state := { ends.state with pendingHeading := false } }
  else ends

/-! ## Scanning -/

/-- Whether a place is the start of a line. -/
def atLineStart (buffer : List Char) (pos : Nat) : Bool :=
  pos == 0 || buffer[pos - 1]? == some '\n'

/-- One turn of the scan.  There is nothing to do at the end of the buffer. -/
def scanStep (buffer : List Char) (scan : ScanCheckpoint) : ScanCheckpoint :=
  let remaining := buffer.drop scan.pos
  let line := takeLine remaining
  let opened := if atLineStart buffer scan.pos then processLineStart scan.state remaining else (scan.state, none)
  if buffer.length ≤ scan.pos then scan
  else
    match opened with
    | (state, some length) => markSafe ⟨scan.pos + length, state, scan.lastSafe⟩
    | (state, none) =>
        if state.inCodeBlock then ⟨scan.pos + line.length, state, scan.lastSafe⟩
        else readLine ⟨scan.pos, state, scan.lastSafe⟩ line

/-- The place behind the last newline before a place. -/
def lineStartBefore (buffer : List Char) (limit : Nat) : Nat :=
  ((buffer.take limit).rdropWhile fun character => character != '\n').length

/-- The characters of a line that may still be read in another way. -/
def reinterpretable (character : Char) : Bool :=
  ['`', '~', ' ', '\t', '\r', '\n'].contains character

/-- Go up over the complete lines that may still be read in another way. -/
def retreat (buffer : List Char) : Nat -> Nat -> Nat
  | 0, limit => limit
  | fuel + 1, limit =>
      if limit = 0 then 0
      else
        let previous := lineStartBefore buffer (limit - 1)
        if ((buffer.drop previous).take (limit - previous)).all reinterpretable then retreat buffer fuel previous
        else limit

/-- Where the part of the buffer begins that may still be read in another way. -/
def stableScanLimit (buffer : List Char) : Nat :=
  retreat buffer buffer.length (lineStartBefore buffer buffer.length)

/-- Scan to the end of the buffer, and keep the last start of a line up to the limit. -/
def scanLoop (buffer : List Char) (limit : Nat) :
    Nat -> ScanCheckpoint -> ScanCheckpoint -> ScanCheckpoint × ScanCheckpoint
  | 0, scan, checkpoint => (scan, checkpoint)
  | fuel + 1, scan, checkpoint =>
      if scan.pos < buffer.length then
        scanLoop buffer limit fuel (scanStep buffer scan)
          (if atLineStart buffer scan.pos ∧ scan.pos ≤ limit then scan else checkpoint)
      else (scan, checkpoint)

/-- The last safe place of a buffer, and the checkpoint for the next scan. -/
def findSafeEnd (buffer : List Char) (checkpoint : ScanCheckpoint) : Nat × ScanCheckpoint :=
  let result := scanLoop buffer (stableScanLimit buffer) buffer.length checkpoint checkpoint
  (result.1.lastSafe, result.2)

/-! ## The buffer -/

structure MarkdownBuffer where
  buffer : List Char
  checkpoint : ScanCheckpoint
deriving DecidableEq, Repr

namespace MarkdownBuffer

def new : MarkdownBuffer := ⟨[], ScanCheckpoint.start⟩

/-- Add a chunk, and drain what is safe.  What is drained is still to be shortened for
display. -/
def push (markdown : MarkdownBuffer) (chunk : List Char) : Option (List Char) × MarkdownBuffer :=
  let buffer := markdown.buffer ++ chunk
  let (safeEnd, checkpoint) := findSafeEnd buffer markdown.checkpoint
  if 0 < safeEnd then (some (buffer.take safeEnd), ⟨buffer.drop safeEnd, ScanCheckpoint.start⟩)
  else (none, ⟨buffer, checkpoint⟩)

/-- Give up what is left. -/
def flush (markdown : MarkdownBuffer) : List Char × MarkdownBuffer :=
  (markdown.buffer, new)

/-- Forget the checkpoint. -/
def reset (markdown : MarkdownBuffer) : MarkdownBuffer :=
  { markdown with checkpoint := ScanCheckpoint.start }

/-- What the pushes drain, one after the other, and what is left at the end. -/
def stream (markdown : MarkdownBuffer) : List (List Char) -> List (Option (List Char)) × List Char
  | [] => ([], markdown.flush.1)
  | chunk :: rest =>
      let pushed := markdown.push chunk
      let later := stream pushed.2 rest
      (pushed.1 :: later.1, later.2)

/-- The same with a checkpoint that is forgotten before every push. -/
def rescan (markdown : MarkdownBuffer) : List (List Char) -> List (Option (List Char)) × List Char
  | [] => ([], markdown.flush.1)
  | chunk :: rest =>
      let pushed := markdown.reset.push chunk
      let later := rescan pushed.2 rest
      (pushed.1 :: later.1, later.2)

end MarkdownBuffer
end Markdown
end AIBuddy
