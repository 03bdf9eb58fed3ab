import AIBuddy.LocalInference.ToolEmulation

namespace AIBuddy
namespace ToolEmulation

open ByteOffsets
open StreamingEmulatorParser

/-!
# Tool calls in chunks

A pass of the loop that can be taken can also be taken when more of the output is there already, with
the same actions.  So it does not matter where the output is cut, as long as the Markdown parser is
never taken away for the length of the document.
-/

/-! ## More output -/

/-- The parser with more of the output behind its buffer, and behind its document if it has one. -/
def StreamingEmulatorParser.feed (parser : StreamingEmulatorParser) (more : List Char) : StreamingEmulatorParser :=
  { parser with
    buffer := parser.buffer ++ more
    document := if parser.markdownContextAvailable then parser.document ++ more else parser.document }

theorem feed_feed (parser : StreamingEmulatorParser) (more later : List Char) :
    (parser.feed more).feed later = parser.feed (more ++ later) := by
  unfold StreamingEmulatorParser.feed
  cases parser.markdownContextAvailable <;> simp

section Feeding

variable {markdownParser : List Char -> List LocatedEvent} {parser next : StreamingEmulatorParser}
  {range : Option (Nat × Nat)}

theorem markdownMatches_feed {predicate : List Char -> Nat -> Bool} {verdict : Bool}
    (matched : parser.markdownMatches range predicate = some (verdict, next)) (more : List Char) :
    (parser.feed more).markdownMatches range predicate = some (verdict, next.feed more) := by
  unfold markdownMatches consumeMarkdownParseBudget at matched ⊢
  cases range with
  | none =>
      cases matched
      rfl
  | some range =>
      have same : (parser.feed more).markdownParseBytesRemaining = parser.markdownParseBytesRemaining := rfl
      by_cases spent : range.2 > parser.markdownParseBytesRemaining
      · simp only [same, if_pos spent] at matched ⊢
        cases matched
        rfl
      · simp only [same, if_neg spent] at matched ⊢
        rcases Option.map_eq_some_iff.mp matched with ⟨parts, cut, same⟩
        cases same
        apply Option.map_eq_some_iff.mpr
        unfold StreamingEmulatorParser.feed
        cases parser.markdownContextAvailable with
        | false => exact ⟨parts, cut, rfl⟩
        | true => exact ⟨_, splitBytes_extend cut more, rfl⟩

theorem opensExecuteBlock_feed {line : List Char} {fenceLen : Option Nat}
    (opened : opensExecuteBlock markdownParser parser line range = some (fenceLen, next)) (more : List Char) :
    opensExecuteBlock markdownParser (parser.feed more) line range = some (fenceLen, next.feed more) := by
  unfold opensExecuteBlock at opened ⊢
  have mode : (parser.feed more).codeModeEnabled = parser.codeModeEnabled := rfl
  rw [mode]
  cases fence : (if parser.codeModeEnabled then executeFenceLen line else none) with
  | none =>
      rw [fence] at opened
      cases opened
      rfl
  | some length =>
      rw [fence] at opened
      rcases Option.map_eq_some_iff.mp opened with ⟨outcome, matched, same⟩
      cases same
      exact Option.map_eq_some_iff.mpr ⟨_, markdownMatches_feed matched more, rfl⟩

theorem lineAction_feed {line lineWithNewline : List Char} {actions : List EmulatorAction}
    (acted : lineAction markdownParser parser line lineWithNewline range = some (actions, next)) (more : List Char) :
    lineAction markdownParser (parser.feed more) line lineWithNewline range = some (actions, next.feed more) := by
  unfold lineAction at acted ⊢
  split at acted
  · rcases Option.map_eq_some_iff.mp acted with ⟨outcome, matched, same⟩
    cases same
    exact Option.map_eq_some_iff.mpr ⟨_, markdownMatches_feed matched more, rfl⟩
  · cases acted
    rfl

theorem markdownRange_feed {bytes : Nat} (known : parser.markdownRange bytes = some range) (more : List Char) :
    (parser.feed more).markdownRange bytes = some range := by
  unfold markdownRange StreamingEmulatorParser.feed at *
  cases available : parser.markdownContextAvailable with
  | false =>
      rw [available] at known
      exact known
  | true =>
      rw [available] at known
      simp only [Bool.not_true, Bool.false_eq_true, if_false, if_true] at known ⊢
      split at known
      · contradiction
      · case _ within =>
          rw [utf8Length_append, utf8Length_append, if_neg (by omega), ← known]
          have same : utf8Length parser.document + utf8Length more - (utf8Length parser.buffer + utf8Length more) =
              utf8Length parser.document - utf8Length parser.buffer := by omega
          rw [same]

theorem codeEnd_extend {text : List Char} {closingStart stop : Nat} (ends : codeEnd text closingStart = some stop)
    (more : List Char) : codeEnd (text ++ more) closingStart = some stop := by
  unfold codeEnd at ends ⊢
  split at ends
  · case _ start =>
      rw [if_pos start]
      exact ends
  · case _ start =>
      rw [if_neg start]
      rcases Option.map_eq_some_iff.mp ends with ⟨newline, known, same⟩
      exact Option.map_eq_some_iff.mpr ⟨newline, byteIs_extend known more, same⟩

/-- A pass that can be taken is also taken when there is more output. -/
theorem iterate_feed {actions : List EmulatorAction}
    (goesOn : iterate markdownParser parser = some (some (actions, next))) (more : List Char) :
    iterate markdownParser (parser.feed more) = some (some (actions, next.feed more)) := by
  unfold iterate at goesOn ⊢
  have sameState : (parser.feed more).state = parser.state := rfl
  rw [sameState]
  cases state : parser.state with
  | inExecuteBlock fenceLen =>
      rw [state] at goesOn
      rcases Option.bind_eq_some_iff.mp goesOn with ⟨closing, found, goesOn⟩
      cases closing with
      | none => cases goesOn
      | some range =>
          rcases range with ⟨closingStart, consumed⟩
          rcases Option.bind_eq_some_iff.mp goesOn with ⟨stop, ends, goesOn⟩
          rcases Option.bind_eq_some_iff.mp goesOn with ⟨code, cutCode, goesOn⟩
          rcases Option.bind_eq_some_iff.mp goesOn with ⟨remaining, cut, goesOn⟩
          cases goesOn
          have foundMore : closingFenceRange (parser.buffer ++ more) fenceLen false = some (some (closingStart, consumed)) := by
            have closes : closingFenceFrom ([] ++ parser.buffer) fenceLen false (utf8Length []) =
                some (some (closingStart, consumed)) := found
            exact closingFenceFrom_extend closes more
          apply Option.bind_eq_some_iff.mpr
          refine ⟨_, foundMore, Option.bind_eq_some_iff.mpr ⟨stop, codeEnd_extend ends more, ?_⟩⟩
          refine Option.bind_eq_some_iff.mpr ⟨_, splitBytes_extend cutCode more, ?_⟩
          exact Option.bind_eq_some_iff.mpr ⟨_, splitBytes_extend cut more, rfl⟩
  | normal =>
      rw [state] at goesOn
      simp only at goesOn ⊢
      split at goesOn
      · cases goesOn
      · case _ lineEnd found =>
          rcases Option.bind_eq_some_iff.mp goesOn with ⟨range, known, goesOn⟩
          rcases Option.bind_eq_some_iff.mp goesOn with ⟨line, cutLine, goesOn⟩
          rcases Option.bind_eq_some_iff.mp goesOn with ⟨lineWithNewline, cut, goesOn⟩
          rcases Option.bind_eq_some_iff.mp goesOn with ⟨⟨fenceLen, between⟩, opened, goesOn⟩
          have foundMore : findChar '\n' (parser.feed more).buffer = some lineEnd := findChar_extend found more
          rw [foundMore]
          apply Option.bind_eq_some_iff.mpr
          refine ⟨range, markdownRange_feed known more, ?_⟩
          refine Option.bind_eq_some_iff.mpr ⟨_, splitBytes_extend cutLine more, ?_⟩
          refine Option.bind_eq_some_iff.mpr ⟨_, splitBytes_extend cut more, ?_⟩
          refine Option.bind_eq_some_iff.mpr ⟨_, opensExecuteBlock_feed opened more, ?_⟩
          cases fenceLen with
          | some fenceLen =>
              cases goesOn
              rfl
          | none =>
              rcases Option.bind_eq_some_iff.mp goesOn with ⟨outcome, acted, goesOn⟩
              cases goesOn
              exact Option.bind_eq_some_iff.mpr ⟨_, lineAction_feed acted more, rfl⟩

/-! ## The loop -/

theorem drain_of_settled (settled : iterate markdownParser parser = some none) :
    drain markdownParser parser = some ([], parser) := by
  unfold drain
  split
  · case _ panics =>
      rw [settled] at panics
      contradiction
  · rfl
  · case _ goesOn =>
      rw [settled] at goesOn
      cases goesOn

theorem drain_of_iterate {actions : List EmulatorAction}
    (goesOn : iterate markdownParser parser = some (some (actions, next))) :
    drain markdownParser parser =
      (drain markdownParser next).map fun later => (actions ++ later.1, later.2) := by
  conv_lhs => unfold drain
  split
  · case _ panics =>
      rw [goesOn] at panics
      contradiction
  · case _ settled =>
      rw [goesOn] at settled
      cases settled
  · case _ same =>
      cases Option.some.inj (Option.some.inj (same.symm.trans goesOn))
      rfl

/-- The loop over more output goes on where the loop ended before. -/
theorem drain_feed {actions : List EmulatorAction} (drained : drain markdownParser parser = some (actions, next))
    (more : List Char) :
    drain markdownParser (parser.feed more) =
      (drain markdownParser (next.feed more)).map fun later => (actions ++ later.1, later.2) := by
  induction length : parser.buffer.length using Nat.strongRecOn generalizing parser actions with
  | _ size ih =>
      cases passed : iterate markdownParser parser with
      | none =>
          unfold drain at drained
          split at drained
          · contradiction
          · case _ settled =>
              rw [passed] at settled
              contradiction
          · case _ goesOn =>
              rw [passed] at goesOn
              contradiction
      | some outcome =>
          cases outcome with
          | none =>
              rw [drain_of_settled passed] at drained
              cases drained
              simp
          | some pass =>
              rcases pass with ⟨first, between⟩
              rw [drain_of_iterate passed] at drained
              rcases Option.map_eq_some_iff.mp drained with ⟨later, drainedLater, same⟩
              cases same
              have onwards := ih between.buffer.length (length ▸ iterate_shortens passed) drainedLater rfl
              rw [drain_of_iterate (iterate_feed passed more), onwards, Option.map_map]
              congr 1
              funext rest
              simp [List.append_assoc]

/-! ## Panics -/

variable (markdownParser)

/-- A sequence does not panic when neither of its parts does. -/
theorem returns_bind {α β : Type} {computation : Option α} {onwards : α -> Option β} {value : α}
    (first : computation = some value) (rest : Exists fun result => onwards value = some result) :
    Exists fun result => (computation >>= onwards) = some result := by
  rw [first]
  exact rest

/-- The buffer is the end of the document. -/
def Aligned (parser : StreamingEmulatorParser) : Prop :=
  parser.markdownContextAvailable = true -> Exists fun front => parser.document = front ++ parser.buffer

/-- The document goes as far as is asked for, or the budget does not. -/
def Askable (parser : StreamingEmulatorParser) (range : Option (Nat × Nat)) : Prop :=
  forall bounds, range = some bounds -> 0 < bounds.2 ∧
    (parser.markdownParseBytesRemaining < bounds.2 ∨
      Exists fun parts => splitBytes bounds.2 parser.document = some parts)

theorem markdownMatches_total (askable : Askable parser range) (predicate : List Char -> Nat -> Bool) :
    Exists fun verdict => Exists fun next => parser.markdownMatches range predicate = some (verdict, next) ∧
      Askable next range := by
  unfold markdownMatches consumeMarkdownParseBudget
  cases range with
  | none => exact ⟨false, parser, rfl, askable⟩
  | some bounds =>
      rcases askable bounds rfl with ⟨positive, reach⟩
      simp only
      by_cases spent : bounds.2 > parser.markdownParseBytesRemaining
      · rw [if_pos spent]
        refine ⟨false, _, rfl, fun other same => ?_⟩
        cases same
        exact ⟨positive, Or.inl positive⟩
      · rw [if_neg spent]
        rcases reach.resolve_left spent with ⟨parts, cut⟩
        refine ⟨_, _, Option.map_eq_some_iff.mpr ⟨parts, cut, rfl⟩, fun other same => ?_⟩
        cases same
        exact ⟨positive, Or.inr ⟨parts, cut⟩⟩

theorem opensExecuteBlock_total (askable : Askable parser range) (line : List Char) :
    Exists fun fenceLen => Exists fun next =>
      opensExecuteBlock markdownParser parser line range = some (fenceLen, next) ∧ Askable next range := by
  unfold opensExecuteBlock
  split
  · exact ⟨none, parser, rfl, askable⟩
  · rcases markdownMatches_total askable (isTopLevelExecuteFence markdownParser) with ⟨verdict, next, matched, kept⟩
    exact ⟨_, next, Option.map_eq_some_iff.mpr ⟨_, matched, rfl⟩, kept⟩

theorem lineAction_total (askable : Askable parser range) (line lineWithNewline : List Char) :
    Exists fun outcome => lineAction markdownParser parser line lineWithNewline range = some outcome := by
  unfold lineAction
  split
  · rcases markdownMatches_total askable (isTopLevelParagraphLine markdownParser) with ⟨verdict, next, matched, _⟩
    exact ⟨_, Option.map_eq_some_iff.mpr ⟨_, matched, rfl⟩⟩
  · exact ⟨_, rfl⟩

theorem markdownRange_total (aligned : Aligned parser) {line rest : List Char} (nonempty : line ≠ [])
    (buffer : parser.buffer = line ++ rest) :
    Exists fun range => parser.markdownRange (utf8Length line) = some range ∧ Askable parser range ∧
      forall bounds, range = some bounds ->
        parser.markdownContextAvailable = true ∧ bounds.2 + utf8Length rest = utf8Length parser.document := by
  have positive : 0 < utf8Length line :=
    Nat.pos_of_ne_zero fun empty => nonempty (eq_nil_of_utf8Length_eq_zero empty)
  unfold markdownRange
  cases available : parser.markdownContextAvailable with
  | false => exact ⟨none, rfl, fun bounds same => absurd same (by simp), fun bounds same => absurd same (by simp)⟩
  | true =>
      rcases aligned available with ⟨front, document⟩
      have whole : utf8Length parser.document = utf8Length front + utf8Length parser.buffer := by
        rw [document, utf8Length_append]
      have cut : splitBytes (utf8Length (front ++ line)) parser.document = some (front ++ line, rest) := by
        rw [document, buffer, ← List.append_assoc]
        exact splitBytes_append _ _
      have start : utf8Length parser.document - utf8Length parser.buffer + utf8Length line =
          utf8Length (front ++ line) := by
        rw [utf8Length_append]
        omega
      have length : utf8Length parser.buffer = utf8Length line + utf8Length rest := by
        rw [buffer, utf8Length_append]
      simp only [Bool.not_true, Bool.false_eq_true, if_false]
      rw [if_neg (by omega)]
      refine ⟨_, rfl, fun bounds same => ?_, fun bounds same => ?_⟩
      · cases same
        refine ⟨by simp only; omega, Or.inr ⟨(front ++ line, rest), ?_⟩⟩
        simp only [start]
        exact cut
      · cases same
        refine ⟨trivial, ?_⟩
        simp only
        omega

theorem codeEnd_total {buffer : List Char} {allowEndOfStream : Bool} {found : Nat × Nat}
    (closes : ClosesAt [] buffer allowEndOfStream found) :
    (Exists fun stop => Exists fun parts => codeEnd buffer found.1 = some stop ∧ splitBytes stop buffer = some parts) ∧
      Exists fun parts => splitBytes found.2 buffer = some parts := by
  rcases closes.parts with ⟨skipped, line, rest, rfl, start, bounded, stop⟩
  rw [List.nil_append] at start
  constructor
  · rcases bounded with rfl | ⟨lines, rfl⟩
    · have zero : found.1 = 0 := start
      exact ⟨0, _, by rw [codeEnd, if_pos zero], splitBytes_append [] _⟩
    · have newline : Char.utf8Size '\n' = 1 := rfl
      rw [utf8Length_append, utf8Length_cons, newline] at start
      have before : found.1 - 1 = utf8Length lines := by
        simp only [utf8Length, List.map_nil, List.sum_nil] at start ⊢
        omega
      have shape : lines ++ ['\n'] ++ (line ++ rest) = lines ++ '\n' :: (line ++ rest) := by simp
      refine ⟨utf8Length lines, _, ?_, by rw [shape]; exact splitBytes_append _ _⟩
      rw [codeEnd, if_neg (by omega), before, shape, byteIs_append]
      rfl
  · rcases stop with ⟨after, rfl, stop⟩ | ⟨rfl, _, stop⟩
    · have newline : Char.utf8Size '\n' = 1 := rfl
      have offset : found.2 = utf8Length (skipped ++ (line ++ ['\n'])) := by
        rw [stop, start, utf8Length_append, utf8Length_append, utf8Length_cons, newline, Nat.add_assoc]
        rfl
      refine ⟨(skipped ++ (line ++ ['\n']), after), ?_⟩
      rw [offset, show skipped ++ (line ++ '\n' :: after) = skipped ++ (line ++ ['\n']) ++ after by simp]
      exact splitBytes_append _ _
    · have offset : found.2 = utf8Length (skipped ++ line) := by
        rw [stop, start, utf8Length_append]
      refine ⟨(skipped ++ line, []), ?_⟩
      rw [offset, ← List.append_assoc]
      exact splitBytes_append _ _

theorem iterate_total (aligned : Aligned parser) : Exists fun outcome => iterate markdownParser parser = some outcome := by
  unfold iterate
  cases state : parser.state with
  | inExecuteBlock fenceLen =>
      rcases closingFenceFrom_spec [] parser.buffer with ⟨result, returned, closes⟩
      cases result with
      | none => exact returns_bind returned ⟨none, rfl⟩
      | some found =>
          rcases codeEnd_total (closes found rfl) with ⟨⟨stop, code, ends, cutCode⟩, remaining, cut⟩
          exact returns_bind returned (returns_bind ends (returns_bind cutCode (returns_bind cut ⟨_, rfl⟩)))
  | normal =>
      simp only
      cases found : findChar '\n' parser.buffer with
      | none => exact ⟨none, rfl⟩
      | some lineEnd =>
          rcases findChar_eq_some found with ⟨line, rest, buffer, _, rfl⟩
          have newline : Char.utf8Size '\n' = 1 := rfl
          have length : utf8Length (line ++ ['\n']) = utf8Length line + 1 := by
            rw [utf8Length_append, utf8Length_cons, newline]
            rfl
          have shape : parser.buffer = line ++ ['\n'] ++ rest := by rw [buffer]; simp
          rcases markdownRange_total aligned (by simp) shape with ⟨range, known, askable, _⟩
          rw [length] at known
          have askableRest : Askable { parser with buffer := rest, state := .normal } range := askable
          rcases opensExecuteBlock_total markdownParser askableRest line with
            ⟨fenceLen, between, opened, stillAskable⟩
          have cutLine : splitBytes (utf8Length line) parser.buffer = some (line, '\n' :: rest) := by
            rw [buffer]
            exact splitBytes_append _ _
          have cut : splitBytes (utf8Length line + 1) parser.buffer = some (line ++ ['\n'], rest) := by
            rw [shape, ← length]
            exact splitBytes_append _ _
          cases fenceLen with
          | some fenceLen =>
              exact returns_bind known (returns_bind cutLine (returns_bind cut (returns_bind opened ⟨_, rfl⟩)))
          | none =>
              rcases lineAction_total markdownParser stillAskable (stripCarriageReturn line)
                (line ++ ['\n']) with ⟨outcome, acted⟩
              exact returns_bind known (returns_bind cutLine (returns_bind cut (returns_bind opened
                (returns_bind acted ⟨_, rfl⟩))))

/-- What the loop leaves: an aligned parser that waits for more, with the document it had unless that
was taken away. -/
structure Settled (markdownParser : List Char -> List LocatedEvent) (parser next : StreamingEmulatorParser) : Prop where
  waits : iterate markdownParser next = some none
  aligned : Aligned next
  document : next.markdownContextAvailable = true ->
    parser.markdownContextAvailable = true ∧ next.document = parser.document

theorem Aligned.consume (aligned : Aligned parser) (consumes : Consumes parser next) : Aligned next := by
  intro available
  rcases consumes.document available with ⟨before, sameDocument⟩
  rcases aligned before with ⟨front, document⟩
  rcases consumes.buffer with ⟨read, _, buffer⟩
  exact ⟨front ++ read, by rw [sameDocument, document, buffer, List.append_assoc]⟩

theorem drain_total (aligned : Aligned parser) :
    Exists fun actions => Exists fun next => drain markdownParser parser = some (actions, next) ∧
      Settled markdownParser parser next := by
  induction length : parser.buffer.length using Nat.strongRecOn generalizing parser with
  | _ size ih =>
      rcases iterate_total markdownParser aligned with ⟨outcome, passed⟩
      cases outcome with
      | none => exact ⟨[], parser, drain_of_settled passed, passed, aligned, fun available => ⟨available, rfl⟩⟩
      | some pass =>
          rcases pass with ⟨first, between⟩
          have consumes := iterate_consumes passed
          rcases ih between.buffer.length (length ▸ iterate_shortens passed) (aligned.consume consumes) rfl
            with ⟨later, next, drained, settled⟩
          refine ⟨first ++ later, next, ?_, settled.waits, settled.aligned, fun available => ?_⟩
          · rw [drain_of_iterate passed, drained]
            rfl
          · rcases settled.document available with ⟨before, sameDocument⟩
            rcases consumes.document before with ⟨first, sameFirst⟩
            exact ⟨first, sameDocument.trans sameFirst⟩

/-! ## Chunks -/

/-- More output finds room in the document, if there is one. -/
def Fits (parser : StreamingEmulatorParser) (more : List Char) : Prop :=
  parser.markdownContextAvailable = true -> utf8Length parser.document + utf8Length more ≤ maxMarkdownContextBytes

theorem processChunk_of_fits {chunk : List Char} (fits : Fits parser chunk) :
    processChunk markdownParser parser chunk = drain markdownParser (parser.feed chunk) := by
  unfold processChunk appendMarkdownContext StreamingEmulatorParser.feed
  cases available : parser.markdownContextAvailable with
  | false => simp
  | true =>
      have room := fits available
      simp only [Bool.not_true, Bool.false_eq_true, if_false, if_true]
      rw [if_neg (by omega)]

theorem Aligned.feed (aligned : Aligned parser) (more : List Char) : Aligned (parser.feed more) := by
  intro available
  rcases aligned available with ⟨front, document⟩
  have before : parser.markdownContextAvailable = true := available
  exact ⟨front, by simp only [StreamingEmulatorParser.feed, before, if_true, document, List.append_assoc]⟩

theorem Fits.rest {chunk rest : List Char} (fits : Fits parser (chunk ++ rest))
    (settled : Settled markdownParser (parser.feed chunk) next) : Fits next rest := by
  intro available
  rcases settled.document available with ⟨before, document⟩
  have known : parser.markdownContextAvailable = true := before
  have room := fits known
  rw [document, StreamingEmulatorParser.feed]
  simp only [known, if_true, utf8Length_append] at room ⊢
  omega

theorem feed_nil (parser : StreamingEmulatorParser) : parser.feed [] = parser := by
  unfold StreamingEmulatorParser.feed
  simp

theorem processChunks_eq {chunks : List (List Char)} (aligned : Aligned parser)
    (waits : iterate markdownParser parser = some none) (fits : Fits parser chunks.flatten) :
    processChunks markdownParser parser chunks = drain markdownParser (parser.feed chunks.flatten) := by
  induction chunks generalizing parser with
  | nil => rw [List.flatten_nil, feed_nil, drain_of_settled waits, processChunks]
  | cons chunk rest ih =>
      have fitsChunk : Fits parser chunk := by
        intro available
        have room := fits available
        rw [List.flatten_cons, utf8Length_append] at room
        omega
      rcases drain_total markdownParser (aligned.feed chunk) with ⟨actions, next, drained, settled⟩
      have onwards := ih settled.aligned settled.waits (fits.rest markdownParser settled)
      rw [List.flatten_cons, ← feed_feed, drain_feed drained, ← onwards, processChunks, processChunk_of_fits markdownParser fitsChunk,
        drained]
      change (processChunks markdownParser next rest >>= _) = _
      cases processChunks markdownParser next rest <;> rfl

/-- However long the document gets, the buffer stays its end. -/
theorem Aligned.append (aligned : Aligned parser) (chunk : List Char) :
    Aligned ({ parser with buffer := parser.buffer ++ chunk }.appendMarkdownContext chunk) := by
  unfold appendMarkdownContext
  split
  · case _ unavailable =>
      intro available
      rw [available] at unavailable
      contradiction
  · split
    · intro available
      contradiction
    · intro available
      rcases aligned available with ⟨front, document⟩
      exact ⟨front, by simp only [document, List.append_assoc]⟩

theorem flushBlock_total (parser : StreamingEmulatorParser) (fenceLen : Nat) :
    Exists fun actions => flushBlock parser fenceLen = some actions := by
  rcases closingFenceFrom_spec [] parser.buffer with ⟨result, returned, closes⟩
  unfold flushBlock
  refine returns_bind returned ?_
  cases result with
  | none =>
      have cut : splitBytes (utf8Length parser.buffer) parser.buffer = some (parser.buffer, []) := by
        simpa using splitBytes_append parser.buffer []
      exact returns_bind rfl (returns_bind cut ⟨_, rfl⟩)
  | some found =>
      rcases (codeEnd_total (closes found rfl)).1 with ⟨stop, parts, ends, cut⟩
      exact returns_bind ends (returns_bind cut ⟨_, rfl⟩)

theorem flushLine_total (aligned : Aligned parser) (left : parser.buffer ≠ []) :
    Exists fun actions => flushLine markdownParser parser = some actions := by
  have known : Exists fun range => parser.markdownRange 0 = some range ∧
      Askable parser (range.map fun bounds => (bounds.1, utf8Length parser.document)) := by
    unfold markdownRange
    cases available : parser.markdownContextAvailable with
    | false => exact ⟨none, rfl, fun bounds same => absurd same (by simp)⟩
    | true =>
        rcases aligned available with ⟨front, document⟩
        have longer : utf8Length parser.document = utf8Length front + utf8Length parser.buffer := by
          rw [document, utf8Length_append]
        have positive : 0 < utf8Length parser.buffer :=
          Nat.pos_of_ne_zero fun empty => left (eq_nil_of_utf8Length_eq_zero empty)
        simp only [Bool.not_true, Bool.false_eq_true, if_false]
        rw [if_neg (by omega)]
        refine ⟨_, rfl, fun bounds same => ?_⟩
        cases same
        refine ⟨by simp only; omega, Or.inr ⟨(parser.document, []), ?_⟩⟩
        simpa using splitBytes_append parser.document []
  rcases known with ⟨range, known, askable⟩
  rcases opensExecuteBlock_total markdownParser askable (stripCarriageReturn parser.buffer) with
    ⟨fenceLen, next, opened, stillAskable⟩
  unfold flushLine
  refine returns_bind known (returns_bind opened ?_)
  cases fenceLen with
  | some fenceLen => exact ⟨[], rfl⟩
  | none =>
      rcases lineAction_total markdownParser stillAskable (stripCarriageReturn parser.buffer)
        parser.buffer with ⟨outcome, acted⟩
      exact ⟨outcome.1, Option.map_eq_some_iff.mpr ⟨outcome, acted, rfl⟩⟩

/-- The end of the stream does not panic. -/
theorem flush_total (aligned : Aligned parser) : Exists fun outcome => flush markdownParser parser = some outcome := by
  rcases drain_total markdownParser (aligned.append []) with ⟨actions, next, drained, settled⟩
  unfold flush
  refine returns_bind drained ?_
  cases state : next.state with
  | inExecuteBlock fenceLen =>
      rcases flushBlock_total next fenceLen with ⟨last, flushed⟩
      exact returns_bind flushed ⟨_, rfl⟩
  | normal =>
      by_cases empty : next.buffer = []
      · exact ⟨_, (if_pos empty).trans rfl⟩
      · rcases flushLine_total markdownParser settled.aligned empty with ⟨last, flushed⟩
        refine Exists.imp (fun result same => (if_neg empty).trans same) ?_
        exact returns_bind flushed ⟨_, rfl⟩

theorem aligned_new (codeModeEnabled : Bool) : Aligned (.new codeModeEnabled) := fun _ => ⟨[], rfl⟩

/-- No output makes the parser panic, however long it is and however it is cut. -/
theorem parseChunks_total (codeModeEnabled : Bool) (chunks : List (List Char)) :
    Exists fun actions => parseChunks markdownParser codeModeEnabled chunks = some actions := by
  have processed : forall (rest : List (List Char)) (parser : StreamingEmulatorParser), Aligned parser ->
      Exists fun actions => Exists fun next => processChunks markdownParser parser rest = some (actions, next) ∧
        Aligned next := by
    intro rest
    induction rest with
    | nil => exact fun parser aligned => ⟨[], parser, rfl, aligned⟩
    | cons chunk rest ih =>
        intro parser aligned
        rcases drain_total markdownParser (aligned.append chunk) with ⟨actions, next, drained, settled⟩
        rcases ih next settled.aligned with ⟨later, last, onwards, alignedLast⟩
        refine ⟨actions ++ later, last, ?_, alignedLast⟩
        rw [processChunks, show processChunk markdownParser parser chunk = some (actions, next) from drained]
        change (processChunks markdownParser next rest >>= _) = _
        rw [onwards]
        rfl
  rcases processed chunks (.new codeModeEnabled) (aligned_new codeModeEnabled) with ⟨actions, next, done, aligned⟩
  rcases flush_total markdownParser aligned with ⟨flushed, ended⟩
  exact returns_bind done (returns_bind ended ⟨_, rfl⟩)

end Feeding

/-- An output that fits into the document is read alike however it is cut into chunks, and no call
panics. -/
theorem parseChunks_eq_whole (markdownParser : List Char -> List LocatedEvent) (codeModeEnabled : Bool)
    (chunks : List (List Char)) (fits : utf8Length chunks.flatten ≤ maxMarkdownContextBytes) :
    Exists fun actions => parseChunks markdownParser codeModeEnabled chunks = some actions ∧
      parseChunks markdownParser codeModeEnabled [chunks.flatten] = some actions := by
  have waits : iterate markdownParser (.new codeModeEnabled) = some none := rfl
  have room : Fits (.new codeModeEnabled) chunks.flatten := by
    intro _
    change utf8Length [] + _ ≤ _
    simpa [utf8Length] using fits
  have single : [chunks.flatten].flatten = chunks.flatten := List.flatten_singleton
  have parts := processChunks_eq markdownParser (aligned_new codeModeEnabled) waits room
  have whole : processChunks markdownParser (.new codeModeEnabled) [chunks.flatten] = _ :=
    processChunks_eq markdownParser (aligned_new codeModeEnabled) waits (single.symm ▸ room)
  rcases parseChunks_total markdownParser codeModeEnabled chunks with ⟨actions, parsed⟩
  refine ⟨actions, parsed, ?_⟩
  rw [← parsed, parseChunks, parseChunks, parts, whole, single]

/-- What a Markdown parser makes of a document of one paragraph. -/
def oneParagraph (markdown : List Char) : List LocatedEvent :=
  [⟨.start .paragraph, 0, utf8Length markdown⟩, ⟨.other, 0, utf8Length markdown⟩, ⟨.close, 0, utf8Length markdown⟩]

/-- A command that is cut in two. -/
theorem parseChunks_eq_whole_command :
    Exists fun actions => parseChunks oneParagraph true ["$ l".toList, "s\n".toList] = some actions ∧
      parseChunks oneParagraph true [["$ l".toList, "s\n".toList].flatten] = some actions :=
  parseChunks_eq_whole oneParagraph true ["$ l".toList, "s\n".toList] (by decide)

end ToolEmulation
end AIBuddy
