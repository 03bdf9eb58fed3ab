import AIBuddy.Provider.TruncatedArguments

namespace AIBuddy

open JsonText

/-!
# Raw control characters

Models write line breaks into the strings of a JSON text as they are.  The repair escapes
every control character of the text, also those that stand between tokens, so it gives
back what was meant exactly when the raw characters are all in strings.
-/

/-- Where a character of a JSON text stands. -/
inductive Place where
  | outside
  | inside
  | escaped
deriving DecidableEq, Repr

namespace Place

/-- The place behind a character. -/
def step : Place -> Char -> Place
  | outside, character => if character = '\x22' then inside else outside
  | inside, character => if character = '\\' then escaped else if character = '\x22' then outside else inside
  | escaped, _ => inside

def after (place : Place) (text : List Char) : Place :=
  text.foldl step place

end Place

def isControl (character : Char) : Bool :=
  character.toNat ≤ 0x1F

/-- The text in which the control characters of some places are escaped. -/
def escapeAt (selected : Place -> Bool) (place : Place) : List Char -> List Char
  | [] => []
  | character :: rest =>
      (if selected place && isControl character then escapeControlChar character else [character]) ++
        escapeAt selected (place.step character) rest

/-- Whether control characters stand at some places. -/
def controlsAt (selected : Place -> Bool) (place : Place) : List Char -> Bool
  | [] => false
  | character :: rest => selected place && isControl character || controlsAt selected (place.step character) rest

/-- The text in which the raw control characters of strings are escaped. -/
def escapeStrings (text : String) : String :=
  String.ofList (escapeAt (· == .inside) .outside text.toList)

/-- Whether a string contains raw control characters. -/
def hasRawControls (text : String) : Bool :=
  controlsAt (· == .inside) .outside text.toList

/-- Whether control characters stand between tokens, as line breaks and tabs do. -/
def hasControlSpace (text : String) : Bool :=
  controlsAt (· == .outside) .outside text.toList

/-! ## Escaping -/

section Escaping

variable {selected other : Place -> Bool} {place : Place} {text : List Char} {character : Char}

theorem jsonEscapeControlCharsInString_eq (place : Place) (text : String) :
    (jsonEscapeControlCharsInString text).toList = escapeAt (fun _ => true) place text.toList := by
  rw [jsonEscapeControlCharsInString, String.toList_ofList]
  generalize text.toList = characters
  induction characters generalizing place with
  | nil => rfl
  | cons character rest ih =>
      rw [List.flatMap_cons, escapeAt, ih (place.step character)]
      congr 1
      simp [isControl]

theorem controlsAt_or (selected other : Place -> Bool) (place : Place) (text : List Char) :
    controlsAt (fun place => selected place || other place) place text =
      (controlsAt selected place text || controlsAt other place text) := by
  induction text generalizing place with
  | nil => rfl
  | cons character rest ih =>
      rw [controlsAt, controlsAt, controlsAt, ih, Bool.and_or_distrib_right]
      ac_rfl

theorem escapeAt_congr (none : controlsAt (fun place => selected place != other place) place text = false) :
    escapeAt selected place text = escapeAt other place text := by
  induction text generalizing place with
  | nil => rfl
  | cons character rest ih =>
      rw [controlsAt, Bool.or_eq_false_iff] at none
      rw [escapeAt, escapeAt, ih none.2]
      congr 1
      cases control : isControl character with
      | false => rw [Bool.and_false, Bool.and_false]
      | true =>
          rw [control, Bool.and_true, bne_eq_false_iff_eq] at none
          rw [none.1]

theorem escapeAt_never (place : Place) (text : List Char) : escapeAt (fun _ => false) place text = text := by
  induction text generalizing place with
  | nil => rfl
  | cons character rest ih =>
      rw [escapeAt, ih]
      rfl

theorem escapeAt_of_controlsAt (none : controlsAt selected place text = false) :
    escapeAt selected place text = text := by
  have same : escapeAt selected place text = escapeAt (fun _ => false) place text :=
    escapeAt_congr (by simpa using none)
  rw [same, escapeAt_never]

private theorem ordinary_hexDigit : forall digit : Fin 16, Ordinary (hexDigit digit) := by
  decide

private theorem plain_hexDigit : forall digit : Fin 16, JsonNesting.Plain (hexDigit digit) := by
  decide

theorem quotable_escapeControlChar (control : isControl character = true) : Quotable (escapeControlChar character) := by
  have small : character.toNat ≤ 0x1F := of_decide_eq_true control
  unfold escapeControlChar
  split_ifs
  · exact Quotable.escape (by decide) Quotable.empty
  · exact Quotable.escape (by decide) Quotable.empty
  · exact Quotable.escape (by decide) Quotable.empty
  · exact Quotable.escape (by decide) Quotable.empty
  · exact Quotable.escape (by decide) Quotable.empty
  · apply Quotable.escape (by decide)
    have high := ordinary_hexDigit ⟨character.toNat / 16, by omega⟩
    have low := ordinary_hexDigit ⟨character.toNat % 16, by omega⟩
    exact Quotable.ordinary (by decide) (Quotable.ordinary (by decide)
      (Quotable.ordinary high (Quotable.ordinary low Quotable.empty)))

theorem plain_escapeControlChar (control : isControl character = true) :
    forall letter, letter ∈ escapeControlChar character -> JsonNesting.Plain letter := by
  have small : character.toNat ≤ 0x1F := of_decide_eq_true control
  unfold escapeControlChar
  split_ifs
  · exact List.all_iff_forall_prop.mp (by decide)
  · exact List.all_iff_forall_prop.mp (by decide)
  · exact List.all_iff_forall_prop.mp (by decide)
  · exact List.all_iff_forall_prop.mp (by decide)
  · exact List.all_iff_forall_prop.mp (by decide)
  · have high := plain_hexDigit ⟨character.toNat / 16, by omega⟩
    have low := plain_hexDigit ⟨character.toNat % 16, by omega⟩
    simp only [List.forall_mem_cons]
    exact ⟨by decide, by decide, by decide, by decide, high, low, by simp⟩

end Escaping

/-! ## Tidy texts -/

namespace Place

/-- Whether a character may stand at a place of a JSON text, as far as its kind matters. -/
def Fits : Place -> Char -> Prop
  | outside, character => character ∈ marks ∨ character = '\x22'
  | inside, character => isControl character = false
  | escaped, character => isControl character = false

end Place

/-- A text with marks outside of strings and no control characters in strings. -/
def Tidy (place : Place) : List Char -> Prop
  | [] => True
  | character :: rest => place.Fits character ∧ Tidy (place.step character) rest

section Tidying

variable {selected : Place -> Bool} {place : Place} {text left right : List Char}

theorem tidy_append : Tidy place (left ++ right) ↔ Tidy place left ∧ Tidy (place.after left) right := by
  induction left generalizing place with
  | nil => exact ⟨fun tidy => ⟨trivial, tidy⟩, fun both => both.2⟩
  | cons character rest ih =>
      rw [List.cons_append, Tidy, ih, Tidy, and_assoc]
      rfl

/-- A tidy text that leads back to where it begins. -/
structure Returns (place : Place) (text : List Char) : Prop where
  tidy : Tidy place text
  back : place.after text = place

theorem Returns.append (first : Returns place left) (second : Returns place right) : Returns place (left ++ right) := by
  constructor
  · rw [tidy_append, first.back]
    exact ⟨first.tidy, second.tidy⟩
  · rw [Place.after, List.foldl_append]
    exact (congrArg (fun middle => middle.after right) first.back).trans second.back

theorem Returns.single {character : Char} (fits : place.Fits character) (back : place.step character = place) :
    Returns place [character] :=
  ⟨⟨fits, trivial⟩, back⟩

private theorem printed_of_escapeLetter : forall letter, letter ∈ escapeLetters -> isControl letter = false :=
  List.all_iff_forall_prop.mp (by decide)

theorem Returns.of_quotable (quotable : Quotable text) : Returns .inside text := by
  induction quotable with
  | empty => exact ⟨trivial, rfl⟩
  | @ordinary character rest plain _ ih =>
      rcases plain with ⟨noQuote, noBackslash, printed⟩
      have first : Returns .inside [character] := by
        apply Returns.single
        · exact decide_eq_false (by omega)
        · rw [Place.step, if_neg noBackslash, if_neg noQuote]
      exact first.append ih
  | @escape letter rest known _ ih =>
      have first : Returns .inside ['\\', letter] :=
        ⟨⟨rfl, printed_of_escapeLetter letter known, trivial⟩, rfl⟩
      exact first.append ih

/-- The texts of JSON values are tidy. -/
theorem Returns.of_woven (woven : Woven text) : Returns .outside text := by
  induction woven with
  | empty => exact ⟨trivial, rfl⟩
  | @mark character known noOpener noCloser =>
      have noQuote : character ≠ '\x22' := by
        rintro rfl
        exact absurd known (by decide)
      have back : Place.step .outside character = .outside := by rw [Place.step, if_neg noQuote]
      exact Returns.single (Or.inl known) back
  | @string body quotable =>
      have inside := Returns.of_quotable quotable
      constructor
      · refine ⟨Or.inr rfl, ?_⟩
        rw [tidy_append]
        exact ⟨inside.tidy, inside.back ▸ ⟨rfl, trivial⟩⟩
      · rw [quoted, Place.after, List.foldl_cons, List.foldl_append]
        change (Place.after .inside body).step '\x22' = _
        rw [inside.back]
        rfl
  | @braces text _ ih =>
      have opener : Returns .outside ['\x7b'] := Returns.single (Or.inl (by decide)) (by decide)
      have closer : Returns .outside ['\x7d'] := Returns.single (Or.inl (by decide)) (by decide)
      exact opener.append (ih.append closer)
  | append _ _ first second => exact first.append second

theorem Tidy.of_written {numbers : Numbers} {form : Form} (written : Written numbers text form) :
    Tidy .outside text :=
  (Returns.of_woven written.woven).tidy

theorem Tidy.controlsAt (tidy : Tidy place text) (between : selected .outside = false) :
    controlsAt selected place text = false := by
  induction text generalizing place with
  | nil => rfl
  | cons character rest ih =>
      rw [AIBuddy.controlsAt, ih tidy.2, Bool.or_false]
      cases place with
      | outside => rw [between, Bool.false_and]
      | inside => rw [show isControl character = false from tidy.1, Bool.and_false]
      | escaped => rw [show isControl character = false from tidy.1, Bool.and_false]

private theorem step_of_control {character : Char} (control : isControl character = true) :
    Place.step .inside character = .inside := by
  have other : forall letter : Char, isControl letter = false -> character ≠ letter := by
    rintro letter printed rfl
    rw [control] at printed
    cases printed
  rw [Place.step, if_neg (other _ (by decide)), if_neg (other _ (by decide))]

private theorem after_escapeControlChar {character : Char} (control : isControl character = true) :
    Place.after .inside (escapeControlChar character) = Place.step .inside character :=
  (Returns.of_quotable (quotable_escapeControlChar control)).back.trans (step_of_control control).symm

theorem controlsAt_escaped (tidy : Tidy place (escapeAt (· == .inside) place text)) :
    controlsAt (· == .escaped) place text = false := by
  induction text generalizing place with
  | nil => rfl
  | cons character rest ih =>
      rw [escapeAt, tidy_append] at tidy
      rw [controlsAt, Bool.or_eq_false_iff]
      cases control : isControl character with
      | false =>
          rw [control, Bool.and_false, if_neg Bool.false_ne_true] at tidy
          exact ⟨Bool.and_false _, ih tidy.2⟩
      | true =>
          cases place with
          | outside =>
              rw [if_neg (by simp)] at tidy
              exact ⟨rfl, ih tidy.2⟩
          | inside =>
              rw [control, if_pos (by rfl), after_escapeControlChar control] at tidy
              exact ⟨rfl, ih tidy.2⟩
          | escaped =>
              rw [if_neg (by simp)] at tidy
              exact absurd tidy.1.1 (by rw [Place.Fits, control]; decide)

private theorem not_fits_backslash : ¬ Place.Fits .outside '\\' := by
  rintro (known | quote)
  · exact absurd known (by decide)
  · exact absurd quote (by decide)

/-- Escaping what stands between tokens puts backslashes there. -/
theorem controlsAt_outside (behind : controlsAt (· == .escaped) place text = false)
    (tidy : Tidy place (escapeAt (fun _ => true) place text)) : controlsAt (· == .outside) place text = false := by
  induction text generalizing place with
  | nil => rfl
  | cons character rest ih =>
      rw [escapeAt, Bool.true_and, tidy_append] at tidy
      rw [controlsAt, Bool.or_eq_false_iff] at behind ⊢
      cases control : isControl character with
      | false =>
          rw [control, if_neg Bool.false_ne_true] at tidy
          exact ⟨Bool.and_false _, ih behind.2 tidy.2⟩
      | true =>
          rw [control, if_pos rfl] at tidy
          cases place with
          | outside =>
              rcases escapeControlChar_shape character with ⟨letters, shape⟩
              rw [shape] at tidy
              exact absurd tidy.1.1 not_fits_backslash
          | inside =>
              rw [after_escapeControlChar control] at tidy
              exact ⟨rfl, ih behind.2 tidy.2⟩
          | escaped =>
              rw [control] at behind
              exact absurd behind.1 (by decide)

end Tidying

/-! ## Brackets -/

/-- The nesting at a place. -/
def Place.nesting (place : Place) (closers : List Char) : JsonNesting :=
  ⟨place != .outside, place == .escaped, closers⟩

namespace JsonNesting

variable {selected : Place -> Bool} {place : Place} {closers text : List Char} {character : Char} {next : JsonNesting}

theorem step?_place (read : (place.nesting closers).step? character = some next) :
    Exists fun others => next = (place.step character).nesting others := by
  cases place with
  | outside =>
      have outside : (Place.outside.nesting closers).step? character =
          if isCloser character then
            if closers.head? = some character then some (Place.outside.nesting closers.tail) else none
          else some ((Place.outside.nesting closers).stepOpen character) := rfl
      rw [outside] at read
      split at read
      · rename_i closer
        have noQuote : character ≠ '\x22' := by
          rintro rfl
          exact absurd closer (by decide)
        split at read
        · exact ⟨closers.tail, by rw [← Option.some.inj read, Place.step, if_neg noQuote]⟩
        · cases read
      · rw [← Option.some.inj read, stepOpen, Place.step]
        split
        · exact ⟨closers, rfl⟩
        · split
          · exact ⟨_, rfl⟩
          · split
            · exact ⟨_, rfl⟩
            · exact ⟨closers, rfl⟩
  | inside =>
      have inside : (Place.inside.nesting closers).step? character =
          some (if character = '\\' then Place.escaped.nesting closers
            else if character = '\x22' then Place.outside.nesting closers else Place.inside.nesting closers) := rfl
      rw [inside] at read
      rw [← Option.some.inj read, Place.step]
      split
      · exact ⟨closers, rfl⟩
      · split
        · exact ⟨closers, rfl⟩
        · exact ⟨closers, rfl⟩
  | escaped => exact ⟨closers, (Option.some.inj read).symm⟩

private theorem plain_of_control (control : isControl character = true) : Plain character := by
  have other : forall letter : Char, isControl letter = false -> character ≠ letter := by
    rintro letter printed rfl
    rw [control] at printed
    cases printed
  refine ⟨other _ (by decide), other _ (by decide), other _ (by decide), ?_⟩
  rw [isCloser, Bool.or_eq_false_iff, beq_eq_false_iff_ne, beq_eq_false_iff_ne]
  exact ⟨other _ (by decide), other _ (by decide)⟩

theorem after?_singleton (nesting : JsonNesting) (character : Char) :
    nesting.after? [character] = nesting.step? character := by
  rw [after?_cons]
  cases nesting.step? character with
  | none => rfl
  | some next => rfl

theorem after?_escapeControlChar (control : isControl character = true) (before : place ≠ .escaped) :
    (place.nesting closers).after? (escapeControlChar character) = (place.nesting closers).step? character := by
  cases place with
  | outside =>
      rw [after?_plain (plain_escapeControlChar control) rfl, ← after?_singleton,
        after?_plain (List.forall_mem_singleton.mpr (plain_of_control control)) rfl]
  | inside =>
      rcases plain_of_control control with ⟨noQuote, _, _, _⟩
      have noBackslash : character ≠ '\\' := by
        rintro rfl
        exact absurd control (by decide)
      have stays : (Place.inside.nesting closers).step? character = some (Place.inside.nesting closers) := by
        rw [step?, if_pos (by rfl), stepString, if_neg (by exact Bool.false_ne_true), if_neg noBackslash, if_neg noQuote]
      rw [stays]
      exact after?_quotable (quotable_escapeControlChar control) closers
  | escaped => exact absurd rfl before

theorem after?_escapeAt (behind : controlsAt (· == .escaped) place text = false) :
    (place.nesting closers).after? (escapeAt selected place text) = (place.nesting closers).after? text := by
  induction text generalizing place closers with
  | nil => rfl
  | cons character rest ih =>
      rw [controlsAt, Bool.or_eq_false_iff] at behind
      have piece : (place.nesting closers).after?
          (if selected place && isControl character then escapeControlChar character else [character]) =
            (place.nesting closers).step? character := by
        split
        · rename_i chosen
          have control := (Bool.and_eq_true_iff.mp chosen).2
          apply after?_escapeControlChar control
          rintro rfl
          rw [control] at behind
          exact absurd behind.1 (by decide)
        · exact after?_singleton _ _
      rw [escapeAt, after?_append, piece, after?_cons]
      cases read : (place.nesting closers).step? character with
      | none => rfl
      | some next =>
          rcases step?_place read with ⟨others, rfl⟩
          exact ih behind.2

end JsonNesting

theorem repairTruncatedJson_of_balanced {text : String} (balanced : JsonNesting.Balanced text.toList) :
    repairTruncatedJson text = text := by
  rw [repairTruncatedJson, JsonNesting.repairNesting_of_after? balanced]
  exact String.append_empty

/-! ## Parsing -/

section Parsing

variable {json : JsonParser} {numbers : Numbers} {text : String} {value : Json}

/-- The parser accepts nothing but the texts of JSON values. -/
def JsonParser.AcceptsOnly (json : JsonParser) (numbers : Numbers) : Prop :=
  forall text, (json.value? text).isSome = true -> Exists fun value => Written numbers text.toList (.document value)

theorem JsonParser.AcceptsOnly.tidy (sound : json.AcceptsOnly numbers) (read : json.value? text = some value) :
    Tidy .outside text.toList := by
  rcases sound text (by rw [read, Option.isSome_some]) with ⟨other, written⟩
  exact Tidy.of_written written

theorem JsonParser.AcceptsOnly.value?_eq_none (sound : json.AcceptsOnly numbers)
    (untidy : ¬ Tidy .outside text.toList) : json.value? text = none := by
  cases read : json.value? text with
  | none => rfl
  | some value => exact absurd (sound.tidy read) untidy

/-- A text whose strings are read when their control characters are escaped. -/
structure Readable (text : String) : Prop where
  behind : controlsAt (· == .escaped) .outside text.toList = false
  tidy : Tidy .outside (escapeStrings text).toList
  balanced : JsonNesting.Balanced text.toList

theorem JsonParser.AcceptsOnly.readable (sound : json.AcceptsOnly numbers)
    (read : json.value? (escapeStrings text) = some value) : Readable text := by
  rcases sound _ (by rw [read, Option.isSome_some]) with ⟨other, written⟩
  have tidy := Tidy.of_written written
  have balanced := JsonNesting.Balanced.of_written written
  rw [escapeStrings, String.toList_ofList] at tidy balanced
  have behind := controlsAt_escaped tidy
  refine ⟨behind, by rw [escapeStrings, String.toList_ofList]; exact tidy, ?_⟩
  exact (JsonNesting.after?_escapeAt behind).symm.trans balanced

theorem value?_eq_none_of_raw (sound : json.AcceptsOnly numbers) (raw : hasRawControls text = true) :
    json.value? text = none := by
  apply sound.value?_eq_none
  intro tidy
  rw [hasRawControls, tidy.controlsAt rfl] at raw
  cases raw

theorem Readable.balanced_escaped (readable : Readable text) :
    JsonNesting.Balanced (jsonEscapeControlCharsInString text).toList := by
  rw [jsonEscapeControlCharsInString_eq .outside]
  exact (JsonNesting.after?_escapeAt readable.behind).trans readable.balanced

theorem Readable.escaped_eq (readable : Readable text) (none : hasControlSpace text = false) :
    jsonEscapeControlCharsInString text = escapeStrings text := by
  rw [← String.toList_inj, jsonEscapeControlCharsInString_eq .outside, escapeStrings, String.toList_ofList]
  have places : (fun place : Place => true != (place == .inside)) = fun place => place == .outside || place == .escaped := by
    funext place
    cases place with
    | outside => rfl
    | inside => rfl
    | escaped => rfl
  apply escapeAt_congr
  rw [places, controlsAt_or, readable.behind, Bool.or_false]
  exact none

theorem Readable.escaped_value?_eq_none (readable : Readable text) (sound : json.AcceptsOnly numbers)
    (space : hasControlSpace text = true) : json.value? (jsonEscapeControlCharsInString text) = none := by
  apply sound.value?_eq_none
  rw [jsonEscapeControlCharsInString_eq .outside]
  intro tidy
  rw [hasControlSpace, controlsAt_outside readable.behind tidy] at space
  cases space

private theorem eq_ok_iff {result : Except String Json} : result = .ok value ↔ result.toOption = some value := by
  cases result with
  | ok other => exact ⟨fun same => by rw [same]; rfl, fun same => congrArg Except.ok (Option.some.inj same)⟩
  | error message =>
      constructor
      · intro same
        cases same
      · intro same
        cases same

/-- A text that stands for a value when the control characters in its strings are escaped is parsed as this value
exactly when its strings contain no control characters, or none stand between tokens. -/
theorem safelyParseJson_eq_ok_iff (sound : json.AcceptsOnly numbers)
    (rendering : json.value? (escapeStrings text) = some value) :
    safelyParseJson json text = .ok value ↔ hasRawControls text = false ∨ hasControlSpace text = false := by
  have readable := sound.readable rendering
  rw [eq_ok_iff, safelyParseJson_toOption, repairTruncatedJson_of_balanced readable.balanced,
    repairTruncatedJson_of_balanced readable.balanced_escaped]
  cases raw : hasRawControls text with
  | false =>
      have same : escapeStrings text = text := by
        rw [← String.toList_inj, escapeStrings, String.toList_ofList]
        exact escapeAt_of_controlsAt raw
      rw [same] at rendering
      rw [rendering]
      exact ⟨fun _ => Or.inl rfl, fun _ => rfl⟩
  | true =>
      rw [value?_eq_none_of_raw sound raw]
      cases space : hasControlSpace text with
      | false =>
          rw [readable.escaped_eq space, rendering]
          exact ⟨fun _ => Or.inr rfl, fun _ => rfl⟩
      | true =>
          rw [readable.escaped_value?_eq_none sound space]
          constructor
          · intro read
            cases read
          · rintro (none | none)
            · cases none
            · cases none

end Parsing

theorem JsonParser.ofTable_acceptsOnly {numbers : Numbers} {entries : List (String × Json)}
    {solid : entries.lookup "" = none}
    (known : forall entry, entry ∈ entries -> Written numbers entry.1.toList (.document entry.2)) :
    (JsonParser.ofTable entries solid).AcceptsOnly numbers := by
  intro text some
  by_cases empty : text = "\x7b\x7d"
  · rw [empty]
    exact ⟨_, (Written.emptyObject blank_nil).plain⟩
  · cases found : entries.lookup text with
    | none =>
        have unknown : (JsonParser.ofTable entries solid).fromStr text =
            .error "expected value at line 1 column 1" := by
          simp only [JsonParser.ofTable, if_neg empty, found]
        rw [JsonParser.value?, unknown] at some
        cases some
    | some value =>
        rcases List.lookup_eq_some_iff.mp found with ⟨before, after, rfl, _⟩
        exact ⟨value, known (text, value) (List.mem_append_right _ List.mem_cons_self)⟩

/-! ## Two texts -/

/-- An object with a line break in a string. -/
def lineBreak : Json := .object [("a", .string "x\ny")]

private theorem written_lineBreak {gap : List Char} (blank : Blank gap) :
    Written zeroNumbers ('\x7b' :: (gap ++ quoted ['a'] ++ [] ++ ':' :: quoted ['x', '\\', 'n', 'y'] ++ ['\x7d']))
      (.document lineBreak) := by
  have key : StringBody ['a'] ['a'] := StringBody.cons (Spelled.ordinary (by decide)) StringBody.empty
  have text : StringBody ['x', '\\', 'n', 'y'] ['x', '\n', 'y'] :=
    StringBody.cons (Spelled.ordinary (by decide)) (StringBody.cons (Spelled.escape rfl)
      (StringBody.cons (Spelled.ordinary (by decide)) StringBody.empty))
  exact (Written.object (Written.lastMember blank key blank_nil (Written.string text).plain)).plain

private theorem blank_lineBreak : Blank ['\n'] :=
  List.all_iff_forall_prop.mp (by decide)

/-- A parser that knows the object, with and without a line break between the tokens. -/
def lineBreakParser : JsonParser :=
  JsonParser.ofTable [("\x7b\x22a\x22:\x22x\\ny\x22\x7d", lineBreak), ("\x7b\n\x22a\x22:\x22x\\ny\x22\x7d", lineBreak)]
    (by decide +kernel)

theorem lineBreakParser_acceptsOnly : lineBreakParser.AcceptsOnly zeroNumbers := by
  apply JsonParser.ofTable_acceptsOnly
  simp only [List.forall_mem_cons]
  refine ⟨written_lineBreak blank_nil, written_lineBreak blank_lineBreak, ?_⟩
  exact fun entry member => absurd member List.not_mem_nil

/-- A line break in a string is read. -/
theorem safelyParseJson_lineBreak :
    safelyParseJson lineBreakParser "\x7b\x22a\x22:\x22x\ny\x22\x7d" = .ok lineBreak :=
  (safelyParseJson_eq_ok_iff lineBreakParser_acceptsOnly (by decide +kernel)).mpr (Or.inr (by decide +kernel))

/-- A line break in a string is not read when another one stands between tokens. -/
theorem safelyParseJson_indented :
    Written zeroNumbers (escapeStrings "\x7b\n\x22a\x22:\x22x\ny\x22\x7d").toList (.document lineBreak) ∧
      lineBreakParser.value? (escapeStrings "\x7b\n\x22a\x22:\x22x\ny\x22\x7d") = some lineBreak ∧
      safelyParseJson lineBreakParser "\x7b\n\x22a\x22:\x22x\ny\x22\x7d" ≠ .ok lineBreak := by
  refine ⟨?_, by decide +kernel, by decide +kernel⟩
  have strict : escapeStrings "\x7b\n\x22a\x22:\x22x\ny\x22\x7d" = "\x7b\n\x22a\x22:\x22x\\ny\x22\x7d" := by
    decide +kernel
  rw [strict]
  exact written_lineBreak blank_lineBreak

end AIBuddy
