import AIBuddy.Support.ByteOffsets
import AIBuddy.Support.Text

namespace AIBuddy
namespace ToolEmulation

open ByteOffsets

/-!
# Tool calls in the text of a local model

Models without native tool calls write shell commands on lines of their own and code in fenced
blocks.  The parser reads the output of such a model line by line while it is streamed, and asks a
Markdown parser whether a line stands where it may be executed.

A text is a list of characters and offsets count bytes.  Reading outside of a text, between the bytes
of a character or below zero is a panic, which is `none`.
-/

inductive EmulatorAction where
  | text (text : List Char)
  | shellCommand (command : List Char)
  | executeCode (code : List Char)
deriving DecidableEq

def maxMarkdownContextBytes : Nat := 256 * 1024
def maxMarkdownParseBytes : Nat := 1024 * 1024

inductive ParserState where
  | normal
  | inExecuteBlock (fenceLen : Nat)
deriving DecidableEq

structure StreamingEmulatorParser where
  buffer : List Char
  document : List Char
  markdownContextAvailable : Bool
  markdownParseBytesRemaining : Nat
  state : ParserState
  codeModeEnabled : Bool
deriving DecidableEq

/-! ## Fences -/

/-- A line without the carriage return at its end. -/
def stripCarriageReturn (line : List Char) : List Char :=
  if line.getLast? = some '\r' then line.dropLast else line

def isBlankByte (character : Char) : Bool :=
  character == ' ' || character == '\t'

/-- The number of leading occurrences of an ASCII character. -/
def leading (character : Char) (text : List Char) : Nat :=
  (text.takeWhile (· == character)).length

/-- The text behind an offset. -/
def behind (bytes : Nat) (text : List Char) : Option (List Char) :=
  (splitBytes bytes text).map Prod.snd

def backtick : Char := '\x60'

def executeInfo : List Char := "execute_typescript".toList

def executeFenceLen (line : List Char) : Option Nat := do
  let line := stripCarriageReturn line
  let indent := leading ' ' line
  if indent > 3 then none
  else
    let rest <- behind indent line
    let fenceLen := leading backtick rest
    if fenceLen < 3 then none
    else
      let info <- behind fenceLen rest
      if (info.dropWhile isBlankByte).rdropWhile isBlankByte = executeInfo then some fenceLen else none

def isClosingFence (line : List Char) (minimumLen : Nat) : Bool :=
  let line := stripCarriageReturn line
  let indent := leading ' ' line
  if indent > 3 then false
  else
    match behind indent line with
    | none => false
    | some rest =>
        let fenceLen := leading backtick rest
        decide (minimumLen ≤ fenceLen) && (behind fenceLen rest).any fun suffix => suffix.all isBlankByte

/-! ## The Markdown parser -/

inductive MarkdownTag where
  | fencedCodeBlock (info : List Char)
  | paragraph
  | other
deriving DecidableEq

inductive MarkdownEvent where
  | start (tag : MarkdownTag)
  | close
  | other
deriving DecidableEq

/-- An event and the bytes of the document that it is about. -/
structure LocatedEvent where
  event : MarkdownEvent
  start : Nat
  stop : Nat
deriving DecidableEq

/-- Whether an element outside of all others is wanted. -/
def hasTopLevel (wanted : MarkdownTag -> LocatedEvent -> Bool) : Int -> List LocatedEvent -> Bool
  | _, [] => false
  | depth, located :: rest =>
      match located.event with
      | .start tag => if depth == 0 && wanted tag located then true else hasTopLevel wanted (depth + 1) rest
      | .close => hasTopLevel wanted (depth - 1) rest
      | .other => hasTopLevel wanted depth rest

section Markdown

variable (markdownParser : List Char -> List LocatedEvent)

def isTopLevelExecuteFence (markdown : List Char) (lineStart : Nat) : Bool :=
  hasTopLevel (fun tag located => located.start == lineStart && tag == .fencedCodeBlock executeInfo) 0
    (markdownParser markdown)

def isTopLevelParagraphLine (markdown : List Char) (lineStart : Nat) : Bool :=
  hasTopLevel (fun tag located =>
    tag == .paragraph && decide (located.start ≤ lineStart) && decide (lineStart < located.stop)) 0
      (markdownParser markdown)

end Markdown

/-! ## Closing fences -/

theorem splitBytes_length {bytes : Nat} {text front back : List Char} (cut : splitBytes bytes text = some (front, back)) :
    bytes + utf8Length back = utf8Length text := by
  rcases (splitBytes_eq_some_iff _ _ _ _).mp cut with ⟨rfl, rfl⟩
  rw [utf8Length_append]

theorem findChar_lt {wanted : Char} {text : List Char} {offset : Nat} (found : findChar wanted text = some offset) :
    offset < utf8Length text := by
  rcases findChar_eq_some found with ⟨before, after, rfl, _, rfl⟩
  have size := wanted.utf8Size_pos
  rw [utf8Length_append, utf8Length_cons]
  omega

/-- The end of the line that begins at an offset. -/
def lineEndFrom (input : List Char) (lineStart : Nat) (newlineOffset : Option Nat) : Nat :=
  (newlineOffset.map (lineStart + ·)).getD (utf8Length input)

/-- The closing fence at or behind the beginning of a line: where it begins, and what is consumed with
it.  The last line counts only when the stream has ended. -/
def closingFenceFrom (input : List Char) (minimumLen : Nat) (allowEndOfStream : Bool) (lineStart : Nat) :
    Option (Option (Nat × Nat)) :=
  match cut : splitBytes lineStart input with
  | none => none
  | some (_, remaining) =>
      if (findChar '\n' remaining).isNone && !allowEndOfStream then some none
      else
        let lineEnd := lineEndFrom input lineStart (findChar '\n' remaining)
        match sliceBytes lineStart lineEnd input with
        | none => none
        | some line =>
            if isClosingFence line minimumLen then
              some (some (lineStart, if lineEnd < utf8Length input then lineEnd + 1 else lineEnd))
            else if ends : lineEnd = utf8Length input then some none
            else closingFenceFrom input minimumLen allowEndOfStream (lineEnd + 1)
termination_by utf8Length input - lineStart
decreasing_by
  have whole := splitBytes_length cut
  cases found : findChar '\n' remaining with
  | none => exact absurd (by simp only [lineEnd, lineEndFrom, found, Option.map_none, Option.getD_none]) ends
  | some offset =>
      have within := findChar_lt found
      simp only [lineEnd, lineEndFrom, found, Option.map_some, Option.getD_some] at ends ⊢
      omega

def closingFenceRange (input : List Char) (minimumLen : Nat) (allowEndOfStream : Bool) : Option (Option (Nat × Nat)) :=
  closingFenceFrom input minimumLen allowEndOfStream 0

section ClosingFences

variable {minimumLen : Nat} {allowEndOfStream : Bool} {front line rest : List Char}

theorem closingFenceFrom_line (complete : '\n' ∉ line) :
    closingFenceFrom (front ++ (line ++ '\n' :: rest)) minimumLen allowEndOfStream (utf8Length front) =
      if isClosingFence line minimumLen then some (some (utf8Length front, utf8Length front + utf8Length line + 1))
      else closingFenceFrom (front ++ (line ++ '\n' :: rest)) minimumLen allowEndOfStream
        (utf8Length (front ++ (line ++ ['\n']))) := by
  have newline : Char.utf8Size '\n' = 1 := rfl
  have total : utf8Length (front ++ (line ++ '\n' :: rest)) = utf8Length front + utf8Length line + 1 + utf8Length rest := by
    rw [utf8Length_append, utf8Length_append, utf8Length_cons, newline]
    omega
  have next : utf8Length (front ++ (line ++ ['\n'])) = utf8Length front + utf8Length line + 1 := by
    rw [utf8Length_append, utf8Length_append, utf8Length_cons, newline]
    rfl
  rw [closingFenceFrom, next]
  split
  · case _ cut =>
      rw [splitBytes_append] at cut
      contradiction
  · case _ before remaining cut =>
      rw [splitBytes_append] at cut
      cases cut
      have ending : lineEndFrom (front ++ (line ++ '\n' :: rest)) (utf8Length front) (some (utf8Length line)) =
          utf8Length front + utf8Length line := rfl
      simp only [findChar_append complete, Option.isNone_some, Bool.false_and, Bool.false_eq_true, if_false, ending,
        sliceBytes_append]
      split
      · rw [if_pos (by omega)]
      · rw [dif_neg (by omega)]

theorem closingFenceFrom_last (incomplete : '\n' ∉ line) :
    closingFenceFrom (front ++ line) minimumLen allowEndOfStream (utf8Length front) =
      if allowEndOfStream && isClosingFence line minimumLen then
        some (some (utf8Length front, utf8Length (front ++ line)))
      else some none := by
  rw [closingFenceFrom]
  split
  · case _ cut =>
      rw [splitBytes_append] at cut
      contradiction
  · case _ before remaining cut =>
      rw [splitBytes_append] at cut
      cases cut
      have ending : lineEndFrom (front ++ line) (utf8Length front) none = utf8Length (front ++ line) := rfl
      have whole : sliceBytes (utf8Length front) (utf8Length (front ++ line)) (front ++ line) = some line := by
        have sliced := sliceBytes_append front line []
        rw [List.append_nil] at sliced
        rw [utf8Length_append]
        exact sliced
      simp only [(findChar_eq_none_iff '\n' line).mpr incomplete, Option.isNone_none, Bool.true_and, ending, whole]
      cases allowEndOfStream with
      | false => rfl
      | true => simp

/-- Where a closing fence was found in what is left of an input. -/
structure ClosesAt (front remaining : List Char) (allowEndOfStream : Bool) (found : Nat × Nat) : Prop where
  parts : Exists fun skipped => Exists fun line => Exists fun rest => remaining = skipped ++ (line ++ rest) ∧
    found.1 = utf8Length (front ++ skipped) ∧ (skipped = [] ∨ Exists fun lines => skipped = lines ++ ['\n']) ∧
      ((Exists fun after => rest = '\n' :: after ∧ found.2 = found.1 + utf8Length line + 1) ∨
        (rest = [] ∧ allowEndOfStream = true ∧ found.2 = found.1 + utf8Length line))

theorem lines_cases (text : List Char) :
    '\n' ∉ text ∨ Exists fun line => Exists fun rest => '\n' ∉ line ∧ text = line ++ '\n' :: rest := by
  by_cases member : '\n' ∈ text
  · rcases List.eq_append_cons_of_mem member with ⟨line, rest, same, absent⟩
    exact Or.inr ⟨line, rest, absent, same⟩
  · exact Or.inl member

/-- The search for a closing fence never panics, and finds complete lines. -/
theorem closingFenceFrom_spec (front remaining : List Char) :
    Exists fun result => closingFenceFrom (front ++ remaining) minimumLen allowEndOfStream (utf8Length front) = some result ∧
      forall found, result = some found -> ClosesAt front remaining allowEndOfStream found := by
  induction length : remaining.length using Nat.strongRecOn generalizing front remaining with
  | _ size ih =>
      rcases lines_cases remaining with incomplete | ⟨line, rest, complete, rfl⟩
      · rw [closingFenceFrom_last incomplete]
        split
        · case _ closes =>
            refine ⟨_, rfl, fun found same => ?_⟩
            cases same
            refine ⟨[], remaining, [], by simp, by simp, Or.inl rfl, Or.inr ⟨rfl, ?_, utf8Length_append _ _⟩⟩
            exact (Bool.and_eq_true _ _ ▸ closes).1
        · exact ⟨none, rfl, fun found same => absurd same (by simp)⟩
      · rw [closingFenceFrom_line complete]
        split
        · refine ⟨_, rfl, fun found same => ?_⟩
          cases same
          exact ⟨[], line, '\n' :: rest, rfl, by simp, Or.inl rfl, Or.inl ⟨rest, rfl, rfl⟩⟩
        · have shorter : rest.length < size := by
            rw [← length, List.length_append, List.length_cons]
            omega
          rcases ih rest.length shorter (front ++ (line ++ ['\n'])) rest rfl with
            ⟨result, returned, closes⟩
          have same : front ++ (line ++ ['\n']) ++ rest = front ++ (line ++ '\n' :: rest) := by simp
          rw [same] at returned
          refine ⟨result, returned, fun found isFound => ?_⟩
          rcases closes found isFound with ⟨skipped, closing, after, whole, start, bounded, stop⟩
          refine ⟨line ++ '\n' :: skipped, closing, after, by rw [whole]; simp, by rw [start]; simp, Or.inr ?_, stop⟩
          rcases bounded with rfl | ⟨lines, rfl⟩
          · exact ⟨line, rfl⟩
          · exact ⟨line ++ '\n' :: lines, by simp⟩

theorem closingFenceFrom_extend {front remaining : List Char} {found : Nat × Nat}
    (closes : closingFenceFrom (front ++ remaining) minimumLen false (utf8Length front) = some (some found))
    (more : List Char) :
    closingFenceFrom (front ++ (remaining ++ more)) minimumLen false (utf8Length front) = some (some found) := by
  induction length : remaining.length using Nat.strongRecOn generalizing front remaining with
  | _ size ih =>
      rcases lines_cases remaining with incomplete | ⟨line, rest, complete, rfl⟩
      · rw [closingFenceFrom_last incomplete] at closes
        cases closes
      · rw [closingFenceFrom_line complete] at closes
        rw [List.append_assoc, List.cons_append, closingFenceFrom_line complete]
        split
        · case _ isFence =>
            rw [if_pos isFence] at closes
            exact closes
        · case _ goesOn =>
            rw [if_neg goesOn] at closes
            have same : forall after : List Char,
                front ++ (line ++ '\n' :: after) = front ++ (line ++ ['\n']) ++ after := by simp
            rw [same] at closes ⊢
            refine ih rest.length ?_ closes rfl
            rw [← length, List.length_append, List.length_cons]
            omega

end ClosingFences

/-! ## The state of the parser -/

namespace StreamingEmulatorParser

def new (codeModeEnabled : Bool) : StreamingEmulatorParser where
  buffer := []
  document := []
  markdownContextAvailable := true
  markdownParseBytesRemaining := maxMarkdownParseBytes
  state := .normal
  codeModeEnabled := codeModeEnabled

def disableMarkdownEmulation (parser : StreamingEmulatorParser) : StreamingEmulatorParser :=
  { parser with document := [], markdownContextAvailable := false, markdownParseBytesRemaining := 0 }

def appendMarkdownContext (parser : StreamingEmulatorParser) (chunk : List Char) : StreamingEmulatorParser :=
  if !parser.markdownContextAvailable then parser
  else if utf8Length parser.document + utf8Length chunk > maxMarkdownContextBytes then parser.disableMarkdownEmulation
  else { parser with document := parser.document ++ chunk }

def consumeMarkdownParseBudget (parser : StreamingEmulatorParser) (bytes : Nat) : Bool × StreamingEmulatorParser :=
  if bytes > parser.markdownParseBytesRemaining then (false, parser.disableMarkdownEmulation)
  else (true, { parser with markdownParseBytesRemaining := parser.markdownParseBytesRemaining - bytes })

def markdownMatches (parser : StreamingEmulatorParser) (range : Option (Nat × Nat))
    (predicate : List Char -> Nat -> Bool) : Option (Bool × StreamingEmulatorParser) :=
  match range with
  | none => some (false, parser)
  | some (lineStart, markdownEnd) =>
      match parser.consumeMarkdownParseBudget markdownEnd with
      | (false, parser) => some (false, parser)
      | (true, parser) =>
          (splitBytes markdownEnd parser.document).map fun parts => (predicate parts.1 lineStart, parser)

/-- Where the document ends before the buffer, and where it ends behind some bytes of the buffer. -/
def markdownRange (parser : StreamingEmulatorParser) (bytes : Nat) : Option (Option (Nat × Nat)) :=
  if !parser.markdownContextAvailable then some none
  else if utf8Length parser.document < utf8Length parser.buffer then none
  else
    let lineStart := utf8Length parser.document - utf8Length parser.buffer
    some (some (lineStart, lineStart + bytes))

end StreamingEmulatorParser

/-! ## Reading a chunk -/

/-- The end of the code before a closing fence. -/
def codeEnd (buffer : List Char) (closingStart : Nat) : Option Nat :=
  if closingStart = 0 then some 0
  else (byteIs '\n' buffer (closingStart - 1)).map fun newline => if newline then closingStart - 1 else closingStart

def isBlank (text : List Char) : Bool :=
  text.all Text.isWhitespace

def trim (text : List Char) : List Char :=
  (text.rdropWhile Text.isWhitespace).dropWhile Text.isWhitespace

/-- The command of a line with a dollar sign before it. -/
def shellAction (command : List Char) : List EmulatorAction :=
  if trim command = [] then [] else [.shellCommand (trim command)]

section Chunks

variable (markdownParser : List Char -> List LocatedEvent)

open StreamingEmulatorParser

/-- Whether a line opens a block of code: the length of its fence. -/
def opensExecuteBlock (parser : StreamingEmulatorParser) (line : List Char) (range : Option (Nat × Nat)) :
    Option (Option Nat × StreamingEmulatorParser) :=
  match (if parser.codeModeEnabled then executeFenceLen line else none) with
  | none => some (none, parser)
  | some fenceLen =>
      (parser.markdownMatches range (isTopLevelExecuteFence markdownParser)).map fun outcome =>
        (if outcome.1 then some fenceLen else none, outcome.2)

/-- What a line that opens no block amounts to. -/
def lineAction (parser : StreamingEmulatorParser) (line lineWithNewline : List Char) (range : Option (Nat × Nat)) :
    Option (List EmulatorAction × StreamingEmulatorParser) :=
  match line with
  | '$' :: command =>
      (parser.markdownMatches range (isTopLevelParagraphLine markdownParser)).map fun outcome =>
        (if outcome.1 then shellAction command else [.text lineWithNewline], outcome.2)
  | _ => some ([.text lineWithNewline], parser)

/-- One pass of the loop: it ends, or it has actions and goes on. -/
def iterate (parser : StreamingEmulatorParser) :
    Option (Option (List EmulatorAction × StreamingEmulatorParser)) :=
  match parser.state with
  | .inExecuteBlock fenceLen => do
      match (<- closingFenceRange parser.buffer fenceLen false) with
      | none => return none
      | some (closingStart, consumed) =>
          let codeEnd <- codeEnd parser.buffer closingStart
          let code <- splitBytes codeEnd parser.buffer
          let code := stripCarriageReturn code.1
          let remaining <- splitBytes consumed parser.buffer
          return some (if isBlank code then [] else [.executeCode code],
            { parser with buffer := remaining.2, state := .normal })
  | .normal =>
      match findChar '\n' parser.buffer with
      | none => some none
      | some lineEnd => do
          let range <- parser.markdownRange (lineEnd + 1)
          let line <- splitBytes lineEnd parser.buffer
          let lineWithNewline <- splitBytes (lineEnd + 1) parser.buffer
          let opened <- opensExecuteBlock markdownParser { parser with buffer := lineWithNewline.2 } line.1 range
          match opened with
          | (some fenceLen, parser) => return some ([], { parser with state := .inExecuteBlock fenceLen })
          | (none, parser) =>
              let outcome <- lineAction markdownParser parser (stripCarriageReturn line.1) lineWithNewline.1 range
              return some outcome

variable {markdownParser}

/-- Asking the Markdown parser spends its budget, and may take the document away. -/
structure SameText (parser next : StreamingEmulatorParser) : Prop where
  buffer : next.buffer = parser.buffer
  state : next.state = parser.state
  codeModeEnabled : next.codeModeEnabled = parser.codeModeEnabled
  document : next.markdownContextAvailable = true ->
    parser.markdownContextAvailable = true ∧ next.document = parser.document

theorem SameText.refl (parser : StreamingEmulatorParser) : SameText parser parser :=
  ⟨rfl, rfl, rfl, fun available => ⟨available, rfl⟩⟩

theorem markdownMatches_sameText {parser next : StreamingEmulatorParser} {range : Option (Nat × Nat)}
    {predicate : List Char -> Nat -> Bool} {verdict : Bool}
    (matched : parser.markdownMatches range predicate = some (verdict, next)) : SameText parser next := by
  unfold markdownMatches consumeMarkdownParseBudget at matched
  cases range with
  | none =>
      cases matched
      exact .refl parser
  | some range =>
      simp only at matched
      split at matched
      · case _ spent =>
          split at spent
          · cases spent
            cases matched
            exact ⟨rfl, rfl, rfl, fun available => absurd available (by simp [disableMarkdownEmulation])⟩
          · cases spent
      · case _ left =>
          split at left
          · cases left
          · cases left
            rcases Option.map_eq_some_iff.mp matched with ⟨parts, _, same⟩
            cases same
            exact ⟨rfl, rfl, rfl, fun available => ⟨available, rfl⟩⟩

theorem opensExecuteBlock_sameText {parser next : StreamingEmulatorParser} {line : List Char}
    {range : Option (Nat × Nat)} {fenceLen : Option Nat}
    (opened : opensExecuteBlock markdownParser parser line range = some (fenceLen, next)) : SameText parser next := by
  unfold opensExecuteBlock at opened
  split at opened
  · cases opened
    exact .refl parser
  · rcases Option.map_eq_some_iff.mp opened with ⟨outcome, matched, same⟩
    cases same
    exact markdownMatches_sameText matched

theorem lineAction_sameText {parser next : StreamingEmulatorParser} {line lineWithNewline : List Char}
    {range : Option (Nat × Nat)} {actions : List EmulatorAction}
    (acted : lineAction markdownParser parser line lineWithNewline range = some (actions, next)) :
    SameText parser next := by
  unfold lineAction at acted
  split at acted
  · rcases Option.map_eq_some_iff.mp acted with ⟨outcome, matched, same⟩
    cases same
    exact markdownMatches_sameText matched
  · cases acted
    exact .refl parser

/-- A pass that goes on has read a part of the buffer that is not empty, and keeps what is behind it. -/
structure Consumes (parser next : StreamingEmulatorParser) : Prop where
  buffer : Exists fun front => front ≠ [] ∧ parser.buffer = front ++ next.buffer
  codeModeEnabled : next.codeModeEnabled = parser.codeModeEnabled
  document : next.markdownContextAvailable = true ->
    parser.markdownContextAvailable = true ∧ next.document = parser.document

theorem iterate_consumes {parser next : StreamingEmulatorParser} {actions : List EmulatorAction}
    (goesOn : iterate markdownParser parser = some (some (actions, next))) : Consumes parser next := by
  have nonempty : forall {bytes : Nat} {text front back : List Char}, 0 < bytes ->
      splitBytes bytes text = some (front, back) -> front ≠ [] ∧ text = front ++ back := by
    intro bytes text front back positive cut
    rcases (splitBytes_eq_some_iff _ _ _ _).mp cut with ⟨same, length⟩
    refine ⟨?_, same⟩
    rintro rfl
    rw [← length] at positive
    exact absurd positive (Nat.lt_irrefl 0)
  unfold iterate at goesOn
  split at goesOn
  · case _ fenceLen _ =>
      rcases Option.bind_eq_some_iff.mp goesOn with ⟨closing, found, goesOn⟩
      cases closing with
      | none => cases goesOn
      | some range =>
          rcases range with ⟨closingStart, consumed⟩
          rcases Option.bind_eq_some_iff.mp goesOn with ⟨codeEnd, _, goesOn⟩
          rcases Option.bind_eq_some_iff.mp goesOn with ⟨code, _, goesOn⟩
          rcases Option.bind_eq_some_iff.mp goesOn with ⟨remaining, cut, goesOn⟩
          cases goesOn
          have positive : 0 < consumed := by
            have closes : ClosesAt [] parser.buffer false (closingStart, consumed) := by
              rcases closingFenceFrom_spec [] parser.buffer with ⟨result, returned, closes⟩
              exact closes _ (Option.some.inj (returned.symm.trans found))
            rcases closes.parts with ⟨_, line, _, _, _, _, ⟨_, _, stop⟩ | ⟨_, atEnd, _⟩⟩
            · have same : consumed = closingStart + utf8Length line + 1 := stop
              omega
            · cases atEnd
          exact ⟨⟨remaining.1, nonempty positive cut⟩, rfl, fun available => ⟨available, rfl⟩⟩
  · split at goesOn
    · cases goesOn
    · case _ lineEnd _ =>
        rcases Option.bind_eq_some_iff.mp goesOn with ⟨range, _, goesOn⟩
        rcases Option.bind_eq_some_iff.mp goesOn with ⟨line, _, goesOn⟩
        rcases Option.bind_eq_some_iff.mp goesOn with ⟨lineWithNewline, cut, goesOn⟩
        rcases Option.bind_eq_some_iff.mp goesOn with ⟨⟨fenceLen, between⟩, opened, goesOn⟩
        have same := opensExecuteBlock_sameText opened
        have front := nonempty (Nat.succ_pos lineEnd) cut
        cases fenceLen with
        | some fenceLen =>
            cases goesOn
            exact ⟨⟨lineWithNewline.1, front.1, same.buffer ▸ front.2⟩, same.codeModeEnabled, same.document⟩
        | none =>
            rcases Option.bind_eq_some_iff.mp goesOn with ⟨outcome, acted, goesOn⟩
            cases goesOn
            have kept := lineAction_sameText acted
            refine ⟨⟨lineWithNewline.1, front.1, ?_⟩, kept.codeModeEnabled.trans same.codeModeEnabled, fun available => ?_⟩
            · rw [kept.buffer, same.buffer]
              exact front.2
            · rcases kept.document available with ⟨before, sameDocument⟩
              rcases same.document before with ⟨first, sameFirst⟩
              exact ⟨first, sameDocument.trans sameFirst⟩

theorem iterate_shortens {parser next : StreamingEmulatorParser} {actions : List EmulatorAction}
    (goesOn : iterate markdownParser parser = some (some (actions, next))) :
    next.buffer.length < parser.buffer.length := by
  rcases (iterate_consumes goesOn).buffer with ⟨front, nonempty, same⟩
  rw [same, List.length_append]
  have positive := List.length_pos_of_ne_nil nonempty
  omega

variable (markdownParser)

/-- The loop over the buffer. -/
def drain (parser : StreamingEmulatorParser) : Option (List EmulatorAction × StreamingEmulatorParser) :=
  match goesOn : iterate markdownParser parser with
  | none => none
  | some none => some ([], parser)
  | some (some (actions, next)) =>
      have _shorter := iterate_shortens goesOn
      (drain next).map fun later => (actions ++ later.1, later.2)
termination_by parser.buffer.length

def processChunk (parser : StreamingEmulatorParser) (chunk : List Char) :
    Option (List EmulatorAction × StreamingEmulatorParser) :=
  drain markdownParser ({ parser with buffer := parser.buffer ++ chunk }.appendMarkdownContext chunk)

/-- What is left in a block of code at the end of the stream. -/
def flushBlock (parser : StreamingEmulatorParser) (fenceLen : Nat) : Option (List EmulatorAction) := do
  let codeEnd <- match (<- closingFenceRange parser.buffer fenceLen true) with
    | some (closingStart, _) => codeEnd parser.buffer closingStart
    | none => some (utf8Length parser.buffer)
  let code <- splitBytes codeEnd parser.buffer
  let code := trim (stripCarriageReturn code.1)
  return if code = [] then [] else [.executeCode code]

/-- The last line at the end of the stream. -/
def flushLine (parser : StreamingEmulatorParser) : Option (List EmulatorAction) := do
  let line := stripCarriageReturn parser.buffer
  let range <- parser.markdownRange 0
  let range := range.map fun range => (range.1, utf8Length parser.document)
  match (<- opensExecuteBlock markdownParser parser line range) with
  | (some _, _) => return []
  | (none, next) => (lineAction markdownParser next line parser.buffer range).map Prod.fst

def flush (parser : StreamingEmulatorParser) : Option (List EmulatorAction × StreamingEmulatorParser) := do
  let processed <- processChunk markdownParser parser []
  let last <- match processed.2.state with
    | .inExecuteBlock fenceLen => flushBlock processed.2 fenceLen
    | .normal => if processed.2.buffer = [] then some [] else flushLine markdownParser processed.2
  return (processed.1 ++ last, .new parser.codeModeEnabled)

/-- The chunks of an output, one after the other. -/
def processChunks (parser : StreamingEmulatorParser) :
    List (List Char) -> Option (List EmulatorAction × StreamingEmulatorParser)
  | [] => some ([], parser)
  | chunk :: rest => do
      let processed <- processChunk markdownParser parser chunk
      let later <- processChunks processed.2 rest
      return (processed.1 ++ later.1, later.2)

/-- The actions of an output that comes in chunks. -/
def parseChunks (codeModeEnabled : Bool) (chunks : List (List Char)) : Option (List EmulatorAction) := do
  let processed <- processChunks markdownParser (.new codeModeEnabled) chunks
  let flushed <- flush markdownParser processed.2
  return processed.1 ++ flushed.1

end Chunks

end ToolEmulation
end AIBuddy
