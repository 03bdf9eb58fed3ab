import AIBuddy.Support.Scanner
import AIBuddy.Provider.ThinkTags

namespace AIBuddy

open Scanner

/-!
# The think filter as a scanner

The filter is a scanner of characters.  Its state is the nesting of think blocks, it
takes tags out, and it holds back what may begin a tag.
-/

/-- The nesting of think blocks. -/
structure ThinkState where
  insideThink : Bool
  thinkDepth : Nat
deriving DecidableEq, Repr

namespace ThinkState

def outside : ThinkState := ⟨false, 0⟩

/-- What a tag does to the nesting. -/
def pass (state : ThinkState) : ThinkTag -> ThinkState
  | .openTag => ⟨true, state.thinkDepth + 1⟩
  | .closeTag => ⟨decide (state.thinkDepth - 1 > 0), state.thinkDepth - 1⟩
  | .selfClosing => state

end ThinkState

/-- What the filter does at a place of its buffer. -/
def thinkVerdict (state : ThinkState) (text : List Char) : Verdict ThinkState :=
  if text.head? ≠ some '<' then .pass 1
  else
    match parseThinkTag text with
    | some (kind, length) =>
        if utf8Length (text.take length) > maxBufferedThinkTagBytes then .pass length
        else if state.insideThink || kind ≠ .closeTag then .take length (state.pass kind)
        else .pass 1
    | none =>
        if !containsUnquotedGt text && isPossiblePartialThinkTag text then .hold else .pass 1

theorem thinkVerdict_take {state next : ThinkState} {text : List Char} {length : Nat}
    (taken : thinkVerdict state text = .take length next) : Exists fun kind =>
      parseThinkTag text = some (kind, length) ∧ next = state.pass kind ∧
        (state.insideThink = true ∨ kind ≠ .closeTag) ∧
        utf8Length (text.take length) ≤ maxBufferedThinkTagBytes := by
  unfold thinkVerdict at taken
  split at taken
  · contradiction
  · split at taken
    · rename_i kind tagLength found
      split at taken
      · contradiction
      · rename_i small
        split at taken
        · rename_i counts
          cases taken
          exact ⟨kind, found, rfl, by simpa using counts, Nat.not_lt.mp small⟩
        · contradiction
    · split at taken
      · contradiction
      · contradiction

theorem thinkVerdict_of_tag {state : ThinkState} {text : List Char} {kind : ThinkTag} {length : Nat}
    (found : parseThinkTag text = some (kind, length))
    (small : utf8Length (text.take length) ≤ maxBufferedThinkTagBytes)
    (counts : (state.insideThink || decide (kind ≠ .closeTag)) = true) :
    thinkVerdict state text = .take length (state.pass kind) := by
  rw [thinkVerdict, if_neg (by simp [parseThinkTag_head found]), found]
  simp only [Nat.not_lt.mpr small, if_false, counts, if_true]

/-- A place that is neither a tag nor taken for the beginning of one is passed on. -/
theorem thinkVerdict_of_none {text : List Char} (state : ThinkState) (none : parseThinkTag text = none)
    (unheld : isPossiblePartialThinkTag text = false) : thinkVerdict state text = .pass 1 := by
  unfold thinkVerdict
  split
  · rfl
  · rw [none]
    simp only [unheld, Bool.and_false, Bool.false_eq_true, if_false]

theorem thinkVerdict_pass {state : ThinkState} {text : List Char} {length : Nat}
    (passed : thinkVerdict state text = .pass length) :
    length = 1 ∨ Exists fun kind => parseThinkTag text = some (kind, length) ∧
      maxBufferedThinkTagBytes < utf8Length (text.take length) := by
  unfold thinkVerdict at passed
  split at passed
  · cases passed
    exact Or.inl rfl
  · split at passed
    · rename_i kind tagLength found
      split at passed
      · rename_i large
        cases passed
        exact Or.inr ⟨kind, found, large⟩
      · split at passed
        · contradiction
        · cases passed
          exact Or.inl rfl
    · split at passed
      · contradiction
      · cases passed
        exact Or.inl rfl

/-- The scanner of the filter. -/
def thinkLook : Look ThinkState Char where
  verdict := thinkVerdict
  pass_bounds := by
    intro state symbol rest length passed
    rcases thinkVerdict_pass passed with one | ⟨kind, found, _⟩
    · rw [one, List.length_cons]
      omega
    · have bounds := parseThinkTag_bounds found
      omega
  take_bounds := by
    intro state symbol rest length next taken
    rcases thinkVerdict_take taken with ⟨kind, found, _⟩
    have bounds := parseThinkTag_bounds found
    omega

theorem thinkLook_takes (state : ThinkState) (text : List Char) (length : Nat) (next : ThinkState)
    (taken : thinkLook.verdict state text = .take length next) : 7 ≤ length := by
  rcases thinkVerdict_take taken with ⟨kind, found, _⟩
  exact (parseThinkTag_bounds found).1

/-- Whether a tag is taken out does not depend on what follows it. -/
theorem thinkLook_final : Final thinkLook := by
  intro state text more length next taken
  rcases thinkVerdict_take taken with ⟨kind, found, isNext, counts, small⟩
  have bounds := parseThinkTag_bounds found
  have longer := parseThinkTag_append found more
  rw [isNext]
  apply thinkVerdict_of_tag longer
  · rw [List.take_append_of_le_length bounds.2]
    exact small
  · simpa using counts

/-! ## The buffer -/

/-- The outputs for characters that were read in some states. -/
def filterOut (characters : List (ThinkState × Char)) : FilterOut where
  content := (characters.filter fun entry => !entry.1.insideThink).map Prod.snd
  thinking := (characters.filter fun entry => entry.1.insideThink).map Prod.snd

theorem filterOut_append (left right : List (ThinkState × Char)) :
    filterOut (left ++ right) = (filterOut left).append (filterOut right) := by
  simp [filterOut, FilterOut.append]

theorem FilterOut.append_assoc (first second third : FilterOut) :
    (first.append second).append third = first.append (second.append third) := by
  simp [FilterOut.append]

@[simp] theorem FilterOut.empty_append (out : FilterOut) : FilterOut.empty.append out = out := rfl

@[simp] theorem FilterOut.append_empty (out : FilterOut) : out.append FilterOut.empty = out := by
  simp [FilterOut.append, FilterOut.empty]

theorem filterOut_readIn (state : ThinkState) (text : List Char) :
    filterOut (readIn state text) = if state.insideThink then ⟨[], text⟩ else ⟨text, []⟩ := by
  cases inside : state.insideThink with
  | true => simp [filterOut, readIn, List.filter_map, Function.comp_def, inside]
  | false => simp [filterOut, readIn, List.filter_map, Function.comp_def, inside]

theorem FilterOut.add_eq (out : FilterOut) (state : ThinkState) (text : List Char) :
    out.add state.insideThink text = out.append (filterOut (readIn state text)) := by
  rw [filterOut_readIn, FilterOut.add]
  split
  · simp [FilterOut.append]
  · simp [FilterOut.append]

theorem scan_nextBufferEvent (state : ThinkState) (text : List Char) :
    match nextBufferEvent state.insideThink text with
    | none => scan thinkLook state text = ⟨readIn state text, state, []⟩
    | some (.tag pos endPos kind) => pos < endPos ∧ endPos ≤ text.length ∧ scan thinkLook state text =
        (scan thinkLook (state.pass kind) (text.drop endPos)).after (readIn state (text.take pos))
    | some (.oversizedTag endPos) => 0 < endPos ∧ endPos ≤ text.length ∧ scan thinkLook state text =
        (scan thinkLook state (text.drop endPos)).after (readIn state (text.take endPos))
    | some (.partialTag pos) => scan thinkLook state text =
        ⟨readIn state (text.take pos), state, text.drop pos⟩ := by
  induction text with
  | nil => simp [nextBufferEvent]
  | cons first rest ih =>
      have later : thinkLook.verdict state (first :: rest) = .pass 1 ->
          match (nextBufferEvent state.insideThink rest).map BufferEvent.later with
          | none => scan thinkLook state (first :: rest) = ⟨readIn state (first :: rest), state, []⟩
          | some (.tag pos endPos kind) => pos < endPos ∧ endPos ≤ (first :: rest).length ∧
              scan thinkLook state (first :: rest) =
                (scan thinkLook (state.pass kind) ((first :: rest).drop endPos)).after
                  (readIn state ((first :: rest).take pos))
          | some (.oversizedTag endPos) => 0 < endPos ∧ endPos ≤ (first :: rest).length ∧
              scan thinkLook state (first :: rest) =
                (scan thinkLook state ((first :: rest).drop endPos)).after
                  (readIn state ((first :: rest).take endPos))
          | some (.partialTag pos) => scan thinkLook state (first :: rest) =
              ⟨readIn state ((first :: rest).take pos), state, (first :: rest).drop pos⟩ := by
        intro passed
        have step := scan_pass passed
        simp only [List.drop_succ_cons, List.drop_zero, List.take_succ_cons, List.take_zero, readIn_cons,
          readIn_nil] at step
        rw [step]
        cases event : nextBufferEvent state.insideThink rest with
        | none =>
            rw [event] at ih
            simp only [Option.map_none]
            rw [ih]
            rfl
        | some found =>
            rw [event] at ih
            cases found with
            | tag pos endPos kind =>
                simp only [Option.map_some, BufferEvent.later] at ih ⊢
                refine ⟨by omega, by simpa using ih.2.1, ?_⟩
                rw [ih.2.2, Scan.after_after]
                rfl
            | oversizedTag endPos =>
                simp only [Option.map_some, BufferEvent.later] at ih ⊢
                refine ⟨by omega, by simpa using ih.2.1, ?_⟩
                rw [ih.2.2, Scan.after_after]
                rfl
            | partialTag pos =>
                simp only [Option.map_some, BufferEvent.later] at ih ⊢
                rw [ih]
                rfl
      by_cases bracket : first = '<'
      · subst bracket
        cases found : parseThinkTag ('<' :: rest) with
        | some parsed =>
            rcases parsed with ⟨kind, length⟩
            have bounds := parseThinkTag_bounds found
            by_cases large : utf8Length (('<' :: rest).take length) > maxBufferedThinkTagBytes
            · have verdict : thinkLook.verdict state ('<' :: rest) = .pass length := by
                simp [thinkLook, thinkVerdict, found, large]
              simp only [nextBufferEvent, found, large, ne_eq, not_true_eq_false, if_false, if_true]
              exact ⟨by omega, bounds.2, scan_pass verdict⟩
            · by_cases counts : (state.insideThink || decide (kind ≠ .closeTag)) = true
              · have verdict : thinkLook.verdict state ('<' :: rest) = .take length (state.pass kind) := by
                  simp only [thinkLook, thinkVerdict, found, large, counts, List.head?_cons, ne_eq,
                    not_true_eq_false, if_false, if_true]
                simp only [nextBufferEvent, found, large, counts, ne_eq, not_true_eq_false, if_false, if_true]
                exact ⟨by omega, bounds.2, by rw [scan_take verdict]; rfl⟩
              · have verdict : thinkLook.verdict state ('<' :: rest) = .pass 1 := by
                  simp only [thinkLook, thinkVerdict, found, large, counts, List.head?_cons, ne_eq,
                    not_true_eq_false, if_false, Bool.false_eq_true]
                simp only [nextBufferEvent, found, large, counts, ne_eq, not_true_eq_false, if_false,
                  Bool.false_eq_true]
                exact later verdict
        | none =>
            by_cases held : (!containsUnquotedGt ('<' :: rest) && isPossiblePartialThinkTag ('<' :: rest)) = true
            · have verdict : thinkLook.verdict state ('<' :: rest) = .hold := by
                simp only [thinkLook, thinkVerdict, found, held, List.head?_cons, ne_eq, not_true_eq_false,
                  if_false, if_true]
              simp only [nextBufferEvent, found, held, ne_eq, not_true_eq_false, if_false, if_true]
              rw [scan_hold verdict]
              rfl
            · have verdict : thinkLook.verdict state ('<' :: rest) = .pass 1 := by
                simp only [thinkLook, thinkVerdict, found, held, List.head?_cons, ne_eq, not_true_eq_false,
                  if_false, Bool.false_eq_true]
              simp only [nextBufferEvent, found, held, ne_eq, not_true_eq_false, if_false, Bool.false_eq_true]
              exact later verdict
      · have verdict : thinkLook.verdict state (first :: rest) = .pass 1 := by
          simp [thinkLook, thinkVerdict, bracket]
        simp only [nextBufferEvent, ne_eq, bracket, not_false_eq_true, if_true]
        exact later verdict

/-! ## Running the filter -/

namespace ThinkFilter

/-- The nesting that a filter has reached. -/
def state (filter : ThinkFilter) : ThinkState :=
  ⟨filter.insideThink, filter.thinkDepth⟩

/-- A filter with a buffer and a nesting. -/
def of (state : ThinkState) (buffer : List Char) : ThinkFilter :=
  ⟨buffer, state.insideThink, state.thinkDepth⟩

@[simp] theorem of_state (filter : ThinkFilter) : of filter.state filter.buffer = filter := rfl

theorem pass_of (state : ThinkState) (buffer : List Char) (kind : ThinkTag) :
    (of state buffer).pass kind = of (state.pass kind) buffer := by
  cases kind <;> rfl

theorem processLoop_eq (fuel : Nat) (state : ThinkState) (buffer : List Char) (out : FilterOut)
    (enough : buffer.length < fuel) :
    let result := scan thinkLook state buffer
    processLoop fuel (of state buffer) out =
      if utf8Length result.held > maxBufferedThinkTagBytes then
        (of result.state [], (out.append (filterOut result.passed)).append
          (filterOut (readIn result.state result.held)))
      else (of result.state result.held, out.append (filterOut result.passed)) := by
  have nothing : ¬ utf8Length [] > maxBufferedThinkTagBytes := by decide
  induction fuel generalizing state buffer out with
  | zero => exact absurd enough (Nat.not_lt_zero _)
  | succ fuel ih =>
      have event := scan_nextBufferEvent state buffer
      simp only [processLoop, of]
      cases found : nextBufferEvent state.insideThink buffer with
      | none =>
          rw [found] at event
          simp only at event
          simp only [event, if_neg nothing]
          rw [FilterOut.add_eq]
      | some first =>
          rw [found] at event
          cases first with
          | tag pos endPos kind =>
              simp only at event
              have shorter : (buffer.drop endPos).length < fuel := by
                rw [List.length_drop]
                omega
              have rest := ih (state.pass kind) (buffer.drop endPos)
                (out.append (filterOut (readIn state (buffer.take pos)))) shorter
              simp only at rest ⊢
              rw [FilterOut.add_eq]
              have passed := pass_of state (buffer.drop endPos) kind
              rw [of] at passed
              rw [passed, rest, event.2.2]
              simp only [Scan.after, filterOut_append, FilterOut.append_assoc]
              rfl
          | oversizedTag endPos =>
              simp only at event
              have shorter : (buffer.drop endPos).length < fuel := by
                rw [List.length_drop]
                omega
              have rest := ih state (buffer.drop endPos)
                (out.append (filterOut (readIn state (buffer.take endPos)))) shorter
              simp only [of] at rest ⊢
              rw [FilterOut.add_eq, rest, event.2.2]
              simp only [Scan.after, filterOut_append, FilterOut.append_assoc]
          | partialTag pos =>
              simp only at event
              simp only [event]
              rw [FilterOut.add_eq, FilterOut.add_eq]
              rfl

theorem push_eq (state : ThinkState) (buffer chunk : List Char) :
    let result := scan thinkLook state (buffer ++ chunk)
    (of state buffer).push chunk =
      if utf8Length result.held > maxBufferedThinkTagBytes then
        (of result.state [], (filterOut result.passed).append (filterOut (readIn result.state result.held)))
      else (of result.state result.held, filterOut result.passed) := by
  have loop := processLoop_eq ((buffer ++ chunk).length + 1) state (buffer ++ chunk) FilterOut.empty
    (Nat.lt_succ_self _)
  simp only [FilterOut.empty_append] at loop
  exact loop

theorem finish_eq (state : ThinkState) (buffer : List Char) :
    (of state buffer).finish = filterOut (readAll thinkLook state buffer) := by
  have loop := processLoop_eq (buffer.length + 1) state buffer FilterOut.empty (Nat.lt_succ_self _)
  simp only [FilterOut.empty_append] at loop
  simp only [finish, processBuffer, readAll, filterOut_append]
  change ((processLoop (buffer.length + 1) (of state buffer) FilterOut.empty).2.add
    (processLoop (buffer.length + 1) (of state buffer) FilterOut.empty).1.insideThink
    (processLoop (buffer.length + 1) (of state buffer) FilterOut.empty).1.buffer) = _
  rw [loop]
  split
  · simp only [of]
    rw [FilterOut.add_eq, readIn_nil]
    exact FilterOut.append_empty _
  · simp only [of]
    rw [FilterOut.add_eq]

end ThinkFilter

theorem splitThinkBlocks_eq (text : List Char) :
    splitThinkBlocks text =
      ((filterOut (readAll thinkLook ThinkState.outside text)).content,
        (filterOut (readAll thinkLook ThinkState.outside text)).thinking) := by
  have pushed := ThinkFilter.push_eq ThinkState.outside [] text
  have whole : ThinkFilter.new = ThinkFilter.of ThinkState.outside [] := rfl
  have held := readAll_held thinkLook ThinkState.outside text
  simp only [splitThinkBlocks, whole]
  simp only [List.nil_append] at pushed
  rw [pushed]
  split
  · simp only
    rw [ThinkFilter.finish_eq, readAll_nil]
    simp only [readAll, filterOut_append]
    rw [show filterOut ([] : List (ThinkState × Char)) = FilterOut.empty from rfl, FilterOut.append_empty]
  · simp only
    rw [ThinkFilter.finish_eq, held, ← filterOut_append]
    rfl

end AIBuddy
