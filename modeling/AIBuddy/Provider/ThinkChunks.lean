import Mathlib.Data.List.Infix
import AIBuddy.Provider.ThinkScan

namespace AIBuddy

open Scanner

/-!
# Think blocks in pieces

Up to the buffer limit, a filter that gets a text in pieces puts out what it puts out
for the whole text, provided that every cut is settled.  Not every cut is: nothing is
held back for a bare bracket at the end of a piece, so that a text with an opening tag
always has cuts that lose the tag.
-/

/-! ## Running the filter on pieces -/

theorem utf8Length_le_of_suffix {part whole : List Char} (suffix : part <:+ whole) :
    utf8Length part ≤ utf8Length whole := by
  rcases suffix with ⟨before, same⟩
  rw [← same, utf8Length_append]
  omega

theorem ThinkFilter.run_eq (chunks : List (List Char)) (state : ThinkState) (buffer : List Char)
    (start : readAll thinkLook state buffer = readIn state buffer)
    (fits : utf8Length (buffer ++ chunks.flatten) ≤ maxBufferedThinkTagBytes) :
    (ThinkFilter.of state buffer).run chunks = filterOut (readPieces thinkLook state buffer chunks) := by
  induction chunks generalizing state buffer with
  | nil => rw [ThinkFilter.run, ThinkFilter.finish_eq, start, readPieces]
  | cons chunk rest ih =>
      have suffix : (scan thinkLook state (buffer ++ chunk)).held ++ rest.flatten <:+
          buffer ++ (chunk :: rest).flatten := by
        rcases held_suffix thinkLook state (buffer ++ chunk) with ⟨before, same⟩
        refine ⟨before, ?_⟩
        rw [← List.append_assoc, same, List.flatten_cons, List.append_assoc]
      have fitsRest := Nat.le_trans (utf8Length_le_of_suffix suffix) fits
      have small : ¬ utf8Length (scan thinkLook state (buffer ++ chunk)).held > maxBufferedThinkTagBytes := by
        rw [utf8Length_append] at fitsRest
        omega
      have pushed := ThinkFilter.push_eq state buffer chunk
      simp only [if_neg small] at pushed
      rw [ThinkFilter.run, pushed]
      simp only [readPieces, filterOut_append]
      rw [ih _ _ (readAll_held thinkLook state (buffer ++ chunk)) fitsRest]

/-- The two outputs of a split as outputs of the filter. -/
def splitOut (text : List Char) : FilterOut :=
  ⟨(splitThinkBlocks text).1, (splitThinkBlocks text).2⟩

theorem splitOut_eq (text : List Char) :
    splitOut text = filterOut (readAll thinkLook ThinkState.outside text) := by
  rw [splitOut, splitThinkBlocks_eq]

theorem new_run_eq {chunks : List (List Char)} (fits : utf8Length chunks.flatten ≤ maxBufferedThinkTagBytes) :
    ThinkFilter.new.run chunks = filterOut (readPieces thinkLook ThinkState.outside [] chunks) :=
  ThinkFilter.run_eq chunks ThinkState.outside [] (by simp) (by simpa using fits)

/-! ## Texts without an opening tag -/

/-- Whether an opening or self-closing think tag stands somewhere in a text. -/
def ContainsOpening (text : List Char) : Prop :=
  Exists fun suffix => Exists fun kind => Exists fun length => suffix <:+ text ∧
    parseThinkTag suffix = some (kind, length) ∧ kind ≠ .closeTag

theorem ContainsOpening.of_suffix {part whole : List Char} (contains : ContainsOpening part)
    (suffix : part <:+ whole) : ContainsOpening whole := by
  rcases contains with ⟨place, kind, length, inside, found, opens⟩
  exact ⟨place, kind, length, inside.trans suffix, found, opens⟩

theorem ContainsOpening.append {text : List Char} (contains : ContainsOpening text) (more : List Char) :
    ContainsOpening (text ++ more) := by
  rcases contains with ⟨place, kind, length, ⟨before, same⟩, found, opens⟩
  refine ⟨place ++ more, kind, length, ⟨before, ?_⟩, parseThinkTag_append found more, opens⟩
  rw [← same, List.append_assoc]

theorem scan_quiet (state : ThinkState) (text : List Char) (outside : state.insideThink = false)
    (quiet : ¬ ContainsOpening text) :
    (scan thinkLook state text).state = state ∧
      (scan thinkLook state text).passed ++ readIn state (scan thinkLook state text).held = readIn state text := by
  induction state, text using scan_induction thinkLook with
  | nil state => simp
  | pass state symbol rest length verdict ih =>
      have quietRest : ¬ ContainsOpening ((symbol :: rest).drop length) :=
        fun contains => quiet (contains.of_suffix (List.drop_suffix length _))
      have read := ih outside quietRest
      rw [scan_pass verdict]
      refine ⟨read.1, ?_⟩
      simp only [Scan.after, List.append_assoc]
      rw [read.2, readIn_take_drop]
  | take state symbol rest length next verdict ih =>
      rcases thinkVerdict_take verdict with ⟨kind, found, _, counts, _⟩
      rcases counts with inside | opens
      · rw [outside] at inside
        contradiction
      · exact absurd ⟨symbol :: rest, kind, length, List.suffix_refl _, found, opens⟩ quiet
  | hold state symbol rest verdict =>
      rw [scan_hold verdict]
      exact ⟨rfl, rfl⟩

theorem readAll_quiet (state : ThinkState) (text : List Char) (outside : state.insideThink = false)
    (quiet : ¬ ContainsOpening text) : readAll thinkLook state text = readIn state text := by
  have read := scan_quiet state text outside quiet
  rw [readAll]
  simp only [read.1]
  exact read.2

theorem readPieces_quiet (pieces : List (List Char)) (state : ThinkState) (held : List Char)
    (outside : state.insideThink = false) (quiet : ¬ ContainsOpening (held ++ pieces.flatten)) :
    readPieces thinkLook state held pieces = readIn state (held ++ pieces.flatten) := by
  induction pieces generalizing held with
  | nil => simp [readPieces]
  | cons piece rest ih =>
      have whole : held ++ (piece :: rest).flatten = held ++ piece ++ rest.flatten := by
        simp
      rw [whole] at quiet ⊢
      have quietPiece : ¬ ContainsOpening (held ++ piece) := fun contains => quiet (contains.append _)
      have read := scan_quiet state (held ++ piece) outside quietPiece
      have quietRest : ¬ ContainsOpening ((scan thinkLook state (held ++ piece)).held ++ rest.flatten) := by
        intro contains
        apply quiet
        apply contains.of_suffix
        rcases held_suffix thinkLook state (held ++ piece) with ⟨before, same⟩
        exact ⟨before, by rw [← List.append_assoc, same]⟩
      simp only [readPieces]
      rw [read.1, ih _ quietRest, readIn_append, ← List.append_assoc, read.2, ← readIn_append]

theorem ThinkFilter.run_quiet (chunks : List (List Char)) (state : ThinkState) (buffer : List Char)
    (outside : state.insideThink = false) (quiet : ¬ ContainsOpening (buffer ++ chunks.flatten)) :
    ((ThinkFilter.of state buffer).run chunks).content = buffer ++ chunks.flatten := by
  induction chunks generalizing buffer with
  | nil =>
      rw [List.flatten_nil, List.append_nil] at quiet ⊢
      rw [ThinkFilter.run, ThinkFilter.finish_eq, readAll_quiet state buffer outside quiet, filterOut_readIn, outside]
      rfl
  | cons chunk rest ih =>
      rw [List.flatten_cons, ← List.append_assoc] at quiet ⊢
      have read := scan_quiet state (buffer ++ chunk) outside fun contains => quiet (contains.append _)
      have passed := congrArg (fun characters => (filterOut characters).content) read.2
      simp only [filterOut_append, FilterOut.append, filterOut_readIn, outside, Bool.false_eq_true, if_false] at passed
      have pushed := ThinkFilter.push_eq state buffer chunk
      have quietRest : ¬ ContainsOpening ((scan thinkLook state (buffer ++ chunk)).held ++ rest.flatten) := by
        intro contains
        rcases held_suffix thinkLook state (buffer ++ chunk) with ⟨before, same⟩
        exact quiet (contains.of_suffix ⟨before, by rw [← List.append_assoc, same]⟩)
      rw [ThinkFilter.run, pushed]
      simp only [read.1, filterOut_readIn, outside, Bool.false_eq_true, if_false]
      split
      · have quietLater : ¬ ContainsOpening ([] ++ rest.flatten) :=
          fun contains => quiet (contains.of_suffix (List.suffix_append _ _))
        simp only [FilterOut.append]
        rw [passed, ih [] quietLater, List.nil_append]
      · simp only [FilterOut.append]
        rw [ih _ quietRest, ← List.append_assoc, passed]

/-- A filter puts out nothing that is not in its pieces. -/
theorem ThinkFilter.length_run_le (chunks : List (List Char)) (state : ThinkState) (buffer : List Char) :
    ((ThinkFilter.of state buffer).run chunks).content.length ≤ buffer.length + chunks.flatten.length := by
  have shorter : forall characters : List (ThinkState × Char),
      (filterOut characters).content.length ≤ characters.length := by
    intro characters
    rw [filterOut, List.length_map]
    exact List.length_filter_le _ _
  induction chunks generalizing state buffer with
  | nil =>
      rw [ThinkFilter.run, ThinkFilter.finish_eq]
      exact Nat.le_trans (shorter _) (Nat.le_trans (readAll_length_le thinkLook state buffer) (Nat.le_add_right _ _))
  | cons chunk rest ih =>
      have whole := readAll_length_le thinkLook state (buffer ++ chunk)
      simp only [readAll, List.length_append, length_readIn] at whole
      have passed := shorter (scan thinkLook state (buffer ++ chunk)).passed
      rw [ThinkFilter.run, ThinkFilter.push_eq, List.flatten_cons, List.length_append]
      split
      · have later := ih (scan thinkLook state (buffer ++ chunk)).state []
        have held := shorter (readIn (scan thinkLook state (buffer ++ chunk)).state
          (scan thinkLook state (buffer ++ chunk)).held)
        simp only [FilterOut.append, List.length_append, List.length_nil, length_readIn] at later held ⊢
        omega
      · have later := ih (scan thinkLook state (buffer ++ chunk)).state
          (scan thinkLook state (buffer ++ chunk)).held
        simp only [FilterOut.append, List.length_append] at later ⊢
        omega

/-! ## Pushing nothing -/

/-- A filter for which an empty piece changes nothing. -/
def ThinkFilter.AtRest (filter : ThinkFilter) : Prop :=
  filter.push [] = (filter, FilterOut.empty)

theorem ThinkFilter.atRest_new : ThinkFilter.new.AtRest := rfl

theorem ThinkFilter.atRest_push (filter : ThinkFilter) (chunk : List Char) : (filter.push chunk).1.AtRest := by
  rw [← ThinkFilter.of_state filter, ThinkFilter.push_eq]
  split
  · rw [ThinkFilter.AtRest, ThinkFilter.push_eq]
    simp
    rfl
  · rename_i small
    rw [ThinkFilter.AtRest, ThinkFilter.push_eq, List.append_nil, scan_held, if_neg small]
    rfl

/-! ## Single characters -/

theorem thinkVerdict_single (state : ThinkState) (character : Char) :
    thinkVerdict state [character] = .pass 1 := by
  by_cases bracket : character = '<'
  · subst bracket
    rfl
  · simp [thinkVerdict, bracket]

theorem readPieces_singles (state : ThinkState) (text : List Char) (pieces : List (List Char)) :
    readPieces thinkLook state [] (text.map (fun character => [character]) ++ pieces) =
      readIn state text ++ readPieces thinkLook state [] pieces := by
  induction text with
  | nil => simp
  | cons character rest ih =>
      have step : scan thinkLook state [character] = ⟨[(state, character)], state, []⟩ := by
        rw [scan_pass (by exact thinkVerdict_single state character)]
        simp [Scan.after]
      simp only [List.map_cons, List.cons_append, readPieces, List.nil_append, step, ih]
      rfl

/-! ## Cuts -/

theorem length_filterOut (characters : List (ThinkState × Char)) :
    (filterOut characters).content.length + (filterOut characters).thinking.length = characters.length := by
  induction characters with
  | nil => rfl
  | cons entry rest ih =>
      rcases entry with ⟨state, character⟩
      cases inside : state.insideThink with
      | true =>
          simp only [filterOut, List.filter_cons, inside] at ih ⊢
          simp at ih ⊢
          omega
      | false =>
          simp only [filterOut, List.filter_cons, inside] at ih ⊢
          simp at ih ⊢
          omega

/-- The filter puts out the same for a text up to the buffer limit in any pieces, if
and only if no opening or self-closing tag stands in the text.  It puts out the same
for those pieces whose cuts are all settled, whatever the text. -/
theorem think_filter_chunking (text : List Char) (fits : utf8Length text ≤ maxBufferedThinkTagBytes) :
    ((forall chunks : List (List Char), chunks.flatten = text ->
        ThinkFilter.new.run chunks = splitOut text) ↔ ¬ ContainsOpening text) ∧
      forall chunks : List (List Char), chunks.flatten = text ->
        SettledPieces thinkLook ThinkState.outside [] chunks -> ThinkFilter.new.run chunks = splitOut text := by
  refine ⟨⟨?_, ?_⟩, ?_⟩
  · rintro same ⟨suffix, kind, length, ⟨before, split⟩, found, opens⟩
    have singles : (text.map fun character => [character]).flatten = text := by
      rw [← List.flatMap_def, List.flatMap_singleton']
    have pieces : (before.map (fun character => [character]) ++ [suffix]).flatten = text := by
      rw [List.flatten_append, ← List.flatMap_def, List.flatMap_singleton']
      simpa using split
    have allOut := same _ singles
    have someOut := same _ pieces
    rw [← allOut, new_run_eq (by rw [pieces]; exact fits), new_run_eq (by rw [singles]; exact fits)] at someOut
    have lengths := congrArg (fun out => out.content.length + out.thinking.length) someOut
    simp only [length_filterOut] at lengths
    have everything := readPieces_singles ThinkState.outside text []
    rw [List.append_nil] at everything
    rw [readPieces_singles, everything] at lengths
    have small : utf8Length (suffix.take length) ≤ maxBufferedThinkTagBytes := by
      have part : utf8Length suffix ≤ utf8Length text := utf8Length_le_of_suffix ⟨before, split⟩
      have cut := utf8Length_append (suffix.take length) (suffix.drop length)
      rw [List.take_append_drop] at cut
      omega
    have bounds := parseThinkTag_bounds found
    have taken : thinkLook.verdict ThinkState.outside suffix = .take length (ThinkState.outside.pass kind) :=
      thinkVerdict_of_tag found small (by simp [opens])
    cases suffix with
    | nil => contradiction
    | cons symbol rest =>
        have shorter := readAll_length_le thinkLook (ThinkState.outside.pass kind) ((symbol :: rest).drop length)
        rw [← readAll_take taken, List.length_drop] at shorter
        have whole := congrArg List.length split
        simp only [List.length_append] at whole
        simp only [readPieces, List.nil_append, List.length_append, length_readIn, List.length_nil] at lengths
        rw [readAll, List.length_append, length_readIn] at shorter
        omega
  · intro quiet chunks whole
    rw [new_run_eq (by rw [whole]; exact fits), splitOut_eq, readAll_quiet _ _ rfl quiet,
      readPieces_quiet _ _ _ rfl (by rw [List.nil_append, whole]; exact quiet), List.nil_append, whole]
  · intro chunks whole settled
    rw [new_run_eq (by rw [whole]; exact fits), splitOut_eq,
      readPieces_eq thinkLook_final chunks [] (by simp) settled, List.nil_append, whole]

/-- A comparison sign survives the cuts around it. -/
theorem comparison_chunking :
    ThinkFilter.new.run ["a ".toList, "<".toList, "b".toList] = splitOut "a <b".toList := by
  refine (think_filter_chunking "a <b".toList (by decide)).1.mpr ?_ _ rfl
  rintro ⟨place, kind, length, inside, found, _⟩
  have none : forall place, place ∈ "a <b".toList.tails -> parseThinkTag place = none := by decide
  rw [none place ((List.mem_tails _ _).mpr inside)] at found
  contradiction

/-- The tag of this text is lost when its bracket is the end of a chunk. -/
theorem think_tag_lost : ¬ (forall chunks : List (List Char), chunks.flatten = "<think>x</think>y".toList ->
    ThinkFilter.new.run chunks = splitOut "<think>x</think>y".toList) := by
  intro same
  exact absurd (same ["<".toList, "think>x</think>y".toList] rfl) (by decide)

end AIBuddy
