import AIBuddy.Provider.JsonNesting
import AIBuddy.Support.JsonWriter

namespace AIBuddy

open JsonText

/-!
# Arguments that are cut off

The end of the output cuts the arguments of a call off anywhere.  As long as the object
itself is not complete its brace stays open, and a text with an open brace is neither
JSON nor repaired.  What is left of a wrapper begins with a character that no repair
removes and that no JSON text begins with.
-/

/-- The parser accepts the texts of JSON values, and no others. -/
def JsonParser.AcceptsExactly (json : JsonParser) (numbers : Numbers) : Prop :=
  forall text, (json.value? text).isSome = true ↔ Exists fun value => Written numbers text.toList (.document value)

/-- A text that the parser does not read, and that is not read when it is repaired either. -/
structure Refused (json : JsonParser) (text : String) : Prop where
  value : json.value? text = none
  repaired : repairedValue json text = none

theorem parseToolArguments_eq_none {json : JsonParser} {arguments : String} (some : arguments ≠ "")
    (refused : Refused json arguments)
    (wrapped : forall inner, stripJsonWrapper arguments = Option.some inner -> Refused json inner) :
    parseToolArguments json arguments = none := by
  have noWrapped : wrappedValue json arguments = none := by
    unfold wrappedValue
    cases stripped : stripJsonWrapper arguments with
    | none => rfl
    | some inner =>
        have inside := wrapped inner stripped
        rw [Option.bind_some, inside.value, inside.repaired]
        rfl
  rw [parseToolArguments, if_neg some, refused.value, noWrapped, refused.repaired]
  rfl

section Texts

variable {json : JsonParser} {numbers : Numbers}

theorem JsonParser.AcceptsExactly.value?_eq_none (exact : json.AcceptsExactly numbers) {text : String}
    (none : forall value, ¬ Written numbers text.toList (.document value)) : json.value? text = Option.none := by
  cases read : json.value? text with
  | none => rfl
  | some value =>
      rcases (exact text).mp (by rw [read, Option.isSome_some]) with ⟨other, written⟩
      exact absurd written (none other)

theorem JsonParser.AcceptsExactly.not_spells_nil (exact : json.AcceptsExactly numbers) (number : JsonNumber) :
    ¬ numbers.spells [] number := by
  intro spelled
  have empty := (exact "").mpr ⟨_, (Written.number spelled).plain⟩
  rw [json.value?_empty] at empty
  cases empty

/-! ## Open braces -/

theorem Refused.of_leavesOpen (exact : json.AcceptsExactly numbers) {inside : List Char} {text : String}
    (balanced : JsonNesting.Balanced inside) (leaves : JsonNesting.LeavesOpen inside text.toList)
    (trimmed : JsonNesting.LeavesOpen inside (Text.trimEnd text).toList) : Refused json text := by
  constructor
  · apply exact.value?_eq_none
    intro value written
    have closed : looksTruncatedFrom JsonNesting.start text.toList = false := by
      rw [JsonNesting.looksTruncatedFrom_eq, JsonNesting.Balanced.of_written written]
      rfl
    rw [leaves.looksTruncatedFrom balanced] at closed
    cases closed
  · rw [repairedValue, looksTruncated, if_pos (trimmed.looksTruncatedFrom balanced)]

/-! ## Foreign characters -/

/-- A character that no JSON text begins with and that escaping keeps. -/
def Foreign (character : Char) : Prop :=
  character ∉ marks ∧ character ≠ '\x22' ∧ Text.isWhitespace character = false ∧ 0x1F < character.toNat

instance (character : Char) : Decidable (Foreign character) :=
  inferInstanceAs (Decidable (_ ∧ _ ∧ _ ∧ _))

/-- A text whose first character, but for whitespace, is foreign, or that is blank. -/
def Unreadable (text : List Char) : Prop :=
  forall character rest, text.dropWhile Text.isWhitespace = character :: rest -> Foreign character

theorem Unreadable.of_foreign {character : Char} (foreign : Foreign character) (rest : List Char) :
    Unreadable (character :: rest) := by
  intro first others same
  rw [List.dropWhile_cons_of_neg (Bool.eq_false_iff.mp foreign.2.2.1)] at same
  rw [← (List.cons.inj same).1]
  exact foreign

theorem Unreadable.of_blank {text : List Char} (blank : forall character, character ∈ text -> Text.isWhitespace character) :
    Unreadable text := by
  intro first others same
  rw [List.dropWhile_eq_nil_iff.mpr blank] at same
  cases same

theorem unreadable_cons_whitespace {character : Char} (white : Text.isWhitespace character = true) {rest : List Char} :
    Unreadable (character :: rest) ↔ Unreadable rest := by
  unfold Unreadable
  rw [List.dropWhile_cons_of_pos white]

theorem unreadable_lead {lead : List Char} (white : forall character, character ∈ lead -> Text.isWhitespace character)
    {rest : List Char} : Unreadable (lead ++ rest) ↔ Unreadable rest := by
  unfold Unreadable
  rw [List.dropWhile_append_of_pos white]

private theorem whitespace_of_space : forall character, character ∈ spaces -> Text.isWhitespace character = true :=
  List.all_iff_forall_prop.mp (by decide)

private theorem dark_of_numeral : forall character, character ∈ numerals ->
    character ∈ marks ∧ Text.isWhitespace character = false :=
  List.all_iff_forall_prop.mp (by decide)

theorem Written.first (some : forall number, ¬ numbers.spells [] number) {text : List Char} {value : Json}
    (written : Written numbers text (.value value)) :
    Exists fun character => Exists fun rest =>
      text = character :: rest ∧ ¬ Foreign character ∧ Text.isWhitespace character = false := by
  cases written with
  | null => exact ⟨_, _, rfl, by decide, by decide⟩
  | isTrue => exact ⟨_, _, rfl, by decide, by decide⟩
  | isFalse => exact ⟨_, _, rfl, by decide, by decide⟩
  | number spelled =>
      cases text with
      | nil => exact absurd spelled (some _)
      | cons character rest =>
          rcases dark_of_numeral character (numbers.numerals spelled character List.mem_cons_self) with ⟨known, dark⟩
          exact ⟨character, rest, rfl, fun foreign => foreign.1 known, dark⟩
  | string written => exact ⟨_, _, rfl, by decide, by decide⟩
  | emptyArray blank => exact ⟨_, _, rfl, by decide, by decide⟩
  | array written => exact ⟨_, _, rfl, by decide, by decide⟩
  | emptyObject blank => exact ⟨_, _, rfl, by decide, by decide⟩
  | object written => exact ⟨_, _, rfl, by decide, by decide⟩

theorem Unreadable.not_written (some : forall number, ¬ numbers.spells [] number) {text : List Char}
    (unreadable : Unreadable text) (value : Json) : ¬ Written numbers text (.document value) := by
  intro written
  cases written with
  | document blankBefore written blankAfter =>
      rcases Written.first some written with ⟨character, rest, rfl, known, dark⟩
      rw [List.append_assoc, unreadable_lead fun other member => whitespace_of_space other (blankBefore other member),
        List.cons_append] at unreadable
      exact known (unreadable _ _ (List.dropWhile_cons_of_neg (Bool.eq_false_iff.mp dark)))

theorem Unreadable.value?_eq_none (exact : json.AcceptsExactly numbers) {text : String}
    (unreadable : Unreadable text.toList) : json.value? text = none :=
  exact.value?_eq_none (unreadable.not_written exact.not_spells_nil)

private theorem plain_of_whitespace {character : Char} (white : Text.isWhitespace character = true) :
    JsonNesting.Plain character := by
  have other : forall marked : Char, Text.isWhitespace marked = false -> character ≠ marked := by
    intro marked dark same
    rw [same, dark] at white
    cases white
  refine ⟨other _ (by decide), other _ (by decide), other _ (by decide), ?_⟩
  rw [isCloser, Bool.or_eq_false_iff, beq_eq_false_iff_ne, beq_eq_false_iff_ne]
  exact ⟨other _ (by decide), other _ (by decide)⟩

/-- Nothing is added to a blank text, and elsewhere only behind the first character. -/
theorem Unreadable.repairTruncatedJson {text : String} (unreadable : Unreadable text.toList) :
    Unreadable (repairTruncatedJson text).toList := by
  by_cases blank : forall character, character ∈ text.toList -> Text.isWhitespace character
  · have settled : repairNesting JsonNesting.start text.toList = JsonNesting.start :=
      JsonNesting.repairNesting_plain (fun character member => plain_of_whitespace (blank character member)) rfl
    rw [AIBuddy.repairTruncatedJson, settled]
    simpa [JsonNesting.start] using unreadable
  · rw [AIBuddy.repairTruncatedJson, String.toList_append]
    intro character rest same
    rw [List.dropWhile_append] at same
    split at same
    · rename_i empty
      exact absurd (List.dropWhile_eq_nil_iff.mp (List.isEmpty_iff.mp empty)) blank
    · cases dark : text.toList.dropWhile Text.isWhitespace with
      | nil => exact absurd (List.dropWhile_eq_nil_iff.mp dark) blank
      | cons first others =>
          rw [dark, List.cons_append] at same
          rw [← (List.cons.inj same).1]
          exact unreadable first others dark

theorem escapeControlChar_shape (character : Char) :
    Exists fun rest => escapeControlChar character = '\\' :: rest := by
  unfold escapeControlChar
  split_ifs
  all_goals exact ⟨_, rfl⟩

theorem Unreadable.jsonEscapeControlCharsInString {text : String} (unreadable : Unreadable text.toList) :
    Unreadable (jsonEscapeControlCharsInString text).toList := by
  rw [AIBuddy.jsonEscapeControlCharsInString, String.toList_ofList]
  generalize text.toList = characters at unreadable
  induction characters with
  | nil => exact unreadable
  | cons character rest ih =>
      rw [List.flatMap_cons]
      split
      · rcases escapeControlChar_shape character with ⟨others, shape⟩
        rw [shape, List.cons_append]
        exact Unreadable.of_foreign (by decide) _
      · rename_i printed
        rw [List.singleton_append]
        cases white : Text.isWhitespace character with
        | true =>
            rw [unreadable_cons_whitespace white] at unreadable ⊢
            exact ih unreadable
        | false =>
            exact Unreadable.of_foreign (unreadable _ _ (List.dropWhile_cons_of_neg (Bool.eq_false_iff.mp white))) _

theorem safelyParseJson_toOption (json : JsonParser) (text : String) :
    (safelyParseJson json text).toOption =
      (((json.value? text).orElse fun _ => json.value? (repairTruncatedJson text)).orElse fun _ =>
        json.value? (jsonEscapeControlCharsInString text)).orElse fun _ =>
          json.value? (repairTruncatedJson (jsonEscapeControlCharsInString text)) := by
  unfold safelyParseJson JsonParser.value?
  cases json.fromStr text with
  | ok value => rfl
  | error message =>
      cases json.fromStr (repairTruncatedJson text) with
      | ok value => rfl
      | error message =>
          cases json.fromStr (jsonEscapeControlCharsInString text) with
          | ok value => rfl
          | error message => rfl

theorem Refused.of_unreadable (exact : json.AcceptsExactly numbers) {text : String}
    (unreadable : Unreadable text.toList) : Refused json text := by
  constructor
  · exact unreadable.value?_eq_none exact
  · rw [repairedValue]
    split
    · rfl
    · rw [safelyParseJson_toOption, unreadable.value?_eq_none exact,
        unreadable.repairTruncatedJson.value?_eq_none exact,
        unreadable.jsonEscapeControlCharsInString.value?_eq_none exact,
        unreadable.jsonEscapeControlCharsInString.repairTruncatedJson.value?_eq_none exact]
      rfl

end Texts

/-! ## Wrappers -/

/-- How an object is given: bare, in a code fence, or in a tag. -/
inductive Wrapper where
  | bare
  | fence (lead : List Char) (mark : Char) (length : Nat) (info : List Char)
  | tag (lead name attributes : List Char)

/-- Whether a tag is still open behind a text: quotes are closed, and only between quotes
stands what closes a tag. -/
def staysOpen : Option Char -> List Char -> Bool
  | none, [] => true
  | some _, [] => false
  | none, character :: rest =>
      if character = '>' then false
      else staysOpen (if character = '\x22' ∨ character = '\'' then some character else none) rest
  | some quote, character :: rest => staysOpen (if character = quote then none else some quote) rest

namespace Wrapper

def opening : Wrapper -> List Char
  | .bare => []
  | .fence lead mark length info => lead ++ (List.replicate length mark ++ (info ++ ['\n']))
  | .tag lead name attributes => lead ++ '<' :: (name ++ attributes ++ ['>'])

def closing : Wrapper -> List Char
  | .bare => []
  | .fence _ mark length _ => '\n' :: List.replicate length mark
  | .tag _ name _ => '<' :: '/' :: (name ++ ['>'])

/-- What makes a fence of Markdown, and a tag with a name and attributes. -/
def Proper : Wrapper -> Prop
  | .bare => True
  | .fence lead mark length info =>
      (forall character, character ∈ lead -> Text.isWhitespace character = true) ∧ 3 ≤ length ∧ '\n' ∉ info ∧
        (mark = '\x60' ∧ '\x60' ∉ info ∨ mark = '~')
  | .tag lead name attributes =>
      (forall character, character ∈ lead -> Text.isWhitespace character = true) ∧
        name ≠ [] ∧ (forall character, character ∈ name -> isTagNameCharacter character = true) ∧
        staysOpen none attributes = true

instance : (wrapper : Wrapper) -> Decidable wrapper.Proper
  | .bare => instDecidableTrue
  | .fence lead _ _ _ => @instDecidableAnd _ _ (List.decidableBAll _ lead) inferInstance
  | .tag lead _ _ =>
      @instDecidableAnd _ _ (List.decidableBAll _ lead)
        (@instDecidableAnd _ _ inferInstance (@instDecidableAnd _ _ (List.decidableBAll _ _) inferInstance))

/-- The wrappers whose opening hides nothing of the object: the word behind three backquotes leaves
no string open, and no attribute contains what closes a tag. -/
def Clear : Wrapper -> Prop
  | .bare => True
  | .fence _ mark length info =>
      mark = '\x60' -> length = 3 -> (repairNesting JsonNesting.start info).inString = false
  | .tag _ _ attributes => '>' ∉ attributes

instance : (wrapper : Wrapper) -> Decidable wrapper.Clear
  | .bare => inferInstanceAs (Decidable True)
  | .fence _ _ _ _ => inferInstanceAs (Decidable (_ -> _ -> _))
  | .tag _ _ _ => inferInstanceAs (Decidable (_ ∉ _))

end Wrapper

/-- A part of the text of an object that ends before the object does. -/
inductive CutOff (numbers : Numbers) (wrapper : Wrapper) (part : String) : Prop where
  | intro {fields : JsonObject} {before object after : List Char}
      (written : Written numbers object (.value (.object fields)))
      (blankBefore : Blank before) (blankAfter : Blank after) (proper : wrapper.Proper) (some : part ≠ "")
      (beginning : part.toList <+: wrapper.opening ++ (before ++ object ++ after) ++ wrapper.closing)
      (incomplete : part.toList.length < (wrapper.opening ++ (before ++ object)).length)

/-- What there can be of an object that is cut off. -/
inductive Remains (opening : List Char) (part : List Char) : Prop where
  | opening (beginning : part <+: opening)
  | gap {gap : List Char} (same : part = opening ++ gap)
      (blank : forall character, character ∈ gap -> Text.isWhitespace character = true)
  | object {gap behind inside : List Char} (same : part = opening ++ (gap ++ '\x7b' :: behind))
      (blank : forall character, character ∈ gap -> Text.isWhitespace character = true)
      (balanced : JsonNesting.Balanced inside) (beginning : behind <+: inside)

private theorem prefix_append_cases {part left right : List Char} (beginning : part <+: left ++ right) :
    part <+: left ∨ Exists fun others => part = left ++ others ∧ others <+: right := by
  rcases beginning with ⟨rest, same⟩
  rcases List.append_eq_append_iff.mp same with ⟨others, whole, _⟩ | ⟨others, whole, split⟩
  · exact Or.inl ⟨others, whole.symm⟩
  · exact Or.inr ⟨others, whole, rest, split.symm⟩

theorem CutOff.remains {numbers : Numbers} {wrapper : Wrapper} {part : String} (cut : CutOff numbers wrapper part) :
    Remains wrapper.opening part.toList := by
  rcases cut with @⟨fields, before, object, after, written, blankBefore, _, _, _, beginning, incomplete⟩
  rcases JsonNesting.balanced_inside written with ⟨inside, rfl, balanced⟩
  have white : forall character, character ∈ before -> Text.isWhitespace character = true :=
    fun character member => whitespace_of_space character (blankBefore character member)
  have shorter : part.toList <+: wrapper.opening ++ (before ++ '\x7b' :: inside) := by
    apply List.prefix_of_prefix_length_le beginning ⟨'\x7d' :: (after ++ wrapper.closing), by simp⟩
    simp only [List.length_append, List.length_cons, List.length_nil] at incomplete ⊢
    omega
  rcases prefix_append_cases shorter with opening | ⟨others, same, others_prefix⟩
  · exact Remains.opening opening
  · rcases prefix_append_cases others_prefix with blank | ⟨object, split, object_prefix⟩
    · exact Remains.gap same fun character member => white character (blank.subset member)
    · cases object with
      | nil => exact Remains.gap (by rw [same, split, List.append_nil]) white
      | cons first behind =>
          rcases List.cons_prefix_cons.mp object_prefix with ⟨rfl, beginning⟩
          exact Remains.object (by rw [same, split]) white balanced beginning

/-! ## Trimmed texts -/

section Trimmed

variable {text : String}

private theorem not_mem_of_whitespace {white : List Char} {character : Char}
    (all : forall character, character ∈ white -> Text.isWhitespace character = true)
    (dark : Text.isWhitespace character = false) : character ∉ white := by
  intro member
  rw [all character member] at dark
  cases dark

theorem trim_of_blank (blank : forall character, character ∈ text.toList -> Text.isWhitespace character = true) :
    (Text.trim text).toList = [] := by
  have empty : Text.trimEnd text = "" := (Text.trimEnd_eq_empty_iff text).mpr (List.all_eq_true.mpr blank)
  rw [Text.trim, empty]
  rfl

private theorem split_before_white {kept white left right : List Char} {character : Char}
    (same : kept ++ white = left ++ character :: right) (absent : character ∉ white) :
    Exists fun others => kept = left ++ character :: others ∧ right = others ++ white := by
  rcases List.append_eq_append_iff.mp same with ⟨others, split, rest⟩ | ⟨others, split, rest⟩
  · rw [rest] at absent
    exact absurd (List.mem_append_right _ List.mem_cons_self) absent
  · cases others with
    | nil =>
        rw [List.nil_append] at rest
        rw [← rest] at absent
        exact absurd List.mem_cons_self absent
    | cons first others =>
        rcases List.cons.inj rest with ⟨rfl, rfl⟩
        exact ⟨others, split, rfl⟩

theorem trim_of_lead {lead more : List Char} {character : Char} (same : text.toList = lead ++ character :: more)
    (blank : forall character, character ∈ lead -> Text.isWhitespace character = true)
    (dark : Text.isWhitespace character = false) :
    Exists fun kept => Exists fun white => more = kept ++ white ∧
      (forall character, character ∈ white -> Text.isWhitespace character = true) ∧
      (Text.trim text).toList = character :: kept := by
  rcases Text.toList_trimEnd text with ⟨white, whole, all⟩
  rcases split_before_white (whole.symm.trans same) (not_mem_of_whitespace all dark) with ⟨kept, left, more⟩
  refine ⟨kept, white, more, all, ?_⟩
  rw [Text.trim, Text.trimStart, left, List.dropWhile_append_of_pos blank,
    List.dropWhile_cons_of_neg (Bool.eq_false_iff.mp dark), String.toList_ofList]

variable {inside : List Char}

theorem leavesOpen_trimEnd (leaves : JsonNesting.LeavesOpen inside text.toList) :
    JsonNesting.LeavesOpen inside (Text.trimEnd text).toList := by
  rcases Text.toList_trimEnd text with ⟨white, whole, all⟩
  rw [whole] at leaves
  exact leaves.dropBehind (not_mem_of_whitespace all (by decide))

theorem leavesOpen_trimStart (leaves : JsonNesting.LeavesOpen inside text.toList) :
    JsonNesting.LeavesOpen inside (Text.trimStart text).toList := by
  rcases Text.toList_trimStart text with ⟨white, whole, all⟩
  rw [whole] at leaves
  exact leaves.dropFront fun character member => plain_of_whitespace (all character member)

theorem leavesOpen_trim (leaves : JsonNesting.LeavesOpen inside text.toList) :
    JsonNesting.LeavesOpen inside (Text.trim text).toList :=
  leavesOpen_trimStart (leavesOpen_trimEnd leaves)

theorem leavesOpen_stripFenceLanguage (leaves : JsonNesting.LeavesOpen inside text.toList) :
    JsonNesting.LeavesOpen inside (stripFenceLanguage text).toList := by
  unfold stripFenceLanguage
  cases lower : Text.stripPrefix "json" text with
  | some rest =>
      rw [Text.toList_of_stripPrefix lower] at leaves
      exact leaves.dropFront (List.all_iff_forall_prop.mp (by decide))
  | none =>
      cases upper : Text.stripPrefix "JSON" text with
      | some rest =>
          rw [Text.toList_of_stripPrefix upper] at leaves
          exact leaves.dropFront (List.all_iff_forall_prop.mp (by decide))
      | none => exact leaves

end Trimmed

/-! ## What a wrapper leaves -/

/-- What is found in a fence, or between tags. -/
inductive Stripped (trimmed : List Char) (inner : String) : Prop where
  | fence {body : String} (same : trimmed = "```".toList ++ (body.toList ++ "```".toList))
      (inside : inner = Text.trim (stripFenceLanguage (Text.trimStart body)))
  | tag {head name : List Char} {behind body : String} (opened : trimmed.head? = some '<')
      (same : trimmed = head ++ '>' :: behind.toList) (first : '>' ∉ head) (plain : '\x7b' ∉ name)
      (closed : (Text.trimEnd behind).toList = body.toList ++ ('<' :: '/' :: (name ++ ['>'])))
      (inside : inner = Text.trim body)

theorem stripped_of_stripJsonWrapper {arguments inner : String} (stripped : stripJsonWrapper arguments = some inner) :
    Stripped (Text.trim arguments).toList inner := by
  rw [stripJsonWrapper] at stripped
  cases fence : Text.stripPrefix "```" (Text.trim arguments) with
  | some rest =>
      rw [fence] at stripped
      rcases Option.map_eq_some_iff.mp stripped with ⟨body, ends, same⟩
      exact Stripped.fence (by rw [Text.toList_of_stripPrefix fence, Text.toList_of_stripSuffix ends]) same.symm
  | none =>
      simp only [fence] at stripped
      split at stripped
      · rename_i starts
        rcases Option.bind_eq_some_iff.mp stripped with ⟨parts, split, others⟩
        rcases Option.bind_eq_some_iff.mp others with ⟨tagName, _, named⟩
        split at named
        · rename_i plain
          rcases Option.map_eq_some_iff.mp named with ⟨body, ends, same⟩
          rcases Text.toList_of_splitOnce split with ⟨whole, first⟩
          have opened := List.isPrefixOf_iff_prefix.mp (Bool.and_eq_true_iff.mp starts).1
          have noBrace : '\x7b' ∉ tagName.toList := fun member =>
            absurd (List.all_eq_true.mp plain '\x7b' member) (by decide)
          rcases opened with ⟨rest, start⟩
          refine Stripped.tag (by rw [← start]; rfl) whole first noBrace ?_ same.symm
          rw [Text.toList_of_stripSuffix ends]
          simp
        · cases named
      · cases stripped

theorem stripFenceLanguage_of_backquote {text : String} {rest : List Char} (same : text.toList = '\x60' :: rest) :
    stripFenceLanguage text = text := by
  have other : forall leading : String, leading.toList.head? ≠ some '\x60' -> leading.toList ≠ [] ->
      Text.stripPrefix leading text = none := by
    intro leading different nonempty
    cases stripped : Text.stripPrefix leading text with
    | none => rfl
    | some others =>
        have whole := Text.toList_of_stripPrefix stripped
        rw [same] at whole
        cases characters : leading.toList with
        | nil => exact absurd characters nonempty
        | cons first more =>
            rw [characters, List.cons_append] at whole
            rw [characters, ← (List.cons.inj whole).1] at different
            exact absurd rfl different
  rw [stripFenceLanguage, other "json" (by decide) (by decide), other "JSON" (by decide) (by decide)]
  rfl

private theorem unreadable_of_backquote {body : String} (ticks : body.toList = [] ∨ body.toList.head? = some '\x60') :
    Unreadable (Text.trim (stripFenceLanguage (Text.trimStart body))).toList := by
  cases characters : body.toList with
  | nil =>
      have nothing : (Text.trim (stripFenceLanguage (Text.trimStart ""))).toList = [] := by decide +kernel
      rw [String.toList_eq_nil_iff.mp characters, nothing]
      exact Unreadable.of_blank (List.forall_mem_nil _)
  | cons first rest =>
      rw [characters] at ticks
      have backquote : first = '\x60' := by simpa using ticks
      subst backquote
      have started : Text.trimStart body = body := by
        rw [← String.toList_inj, Text.trimStart, String.toList_ofList, characters,
          List.dropWhile_cons_of_neg (by decide)]
      rw [started, stripFenceLanguage_of_backquote characters]
      rcases trim_of_lead (characters.trans (List.nil_append _).symm) (by simp) (by decide) with ⟨kept, white, _, _, trimmed⟩
      rw [trimmed]
      exact Unreadable.of_foreign (by decide) kept

section Remainders

variable {json : JsonParser} {numbers : Numbers} {part inner : String} {inside : List Char}

/-- A part that is refused, with what it may wrap. -/
structure Handled (json : JsonParser) (part : String) : Prop where
  refused : Refused json part
  wrapped : forall inner, Stripped (Text.trim part).toList inner -> Refused json inner

theorem not_stripped_of_head {trimmed : List Char} (backquote : trimmed.head? ≠ some '\x60')
    (angle : trimmed.head? ≠ some '<') : ¬ Stripped trimmed inner := by
  intro stripped
  cases stripped with
  | fence same inside =>
      rw [same] at backquote
      exact backquote rfl
  | tag opened same first plain closed inside => exact angle opened

theorem Handled.of_blank (exact : json.AcceptsExactly numbers)
    (blank : forall character, character ∈ part.toList -> Text.isWhitespace character = true) : Handled json part := by
  constructor
  · exact Refused.of_unreadable exact (Unreadable.of_blank blank)
  · intro inner stripped
    rw [trim_of_blank blank] at stripped
    exact absurd stripped (not_stripped_of_head (by simp) (by simp))

theorem leavesOpen_of_gap {gap behind : List Char}
    (blank : forall character, character ∈ gap -> Text.isWhitespace character = true) (beginning : behind <+: inside) :
    JsonNesting.LeavesOpen inside (gap ++ '\x7b' :: behind) := by
  refine ⟨gap, behind, rfl, ?_, beginning⟩
  rw [JsonNesting.repairNesting_plain (fun character member => plain_of_whitespace (blank character member)) rfl]
  rfl

/-- Nothing is wrapped in the rest of a bare object. -/
theorem Handled.of_bare (exact : json.AcceptsExactly numbers) (remains : Remains [] part.toList)
    (some : part ≠ "") : Handled json part := by
  cases remains with
  | opening beginning => exact absurd (String.toList_eq_nil_iff.mp (List.prefix_nil.mp beginning)) some
  | gap same blank =>
      rw [List.nil_append] at same
      exact Handled.of_blank exact (by rw [same]; exact blank)
  | @object gap behind inside same blank balanced beginning =>
      rw [List.nil_append] at same
      have leaves := leavesOpen_of_gap blank beginning
      rw [← same] at leaves
      constructor
      · exact Refused.of_leavesOpen exact balanced leaves (leavesOpen_trimEnd leaves)
      · intro inner stripped
        rcases trim_of_lead same blank (by decide) with ⟨kept, white, _, _, trimmed⟩
        rw [trimmed] at stripped
        exact absurd stripped (not_stripped_of_head (by simp) (by simp))

theorem Handled.of_foreign (exact : json.AcceptsExactly numbers) {lead more : List Char} {character : Char}
    (foreign : Foreign character) (noFence : character ≠ '\x60') (noTag : character ≠ '<')
    (white : forall other, other ∈ lead -> Text.isWhitespace other = true)
    (same : part.toList = lead ++ character :: more) : Handled json part := by
  constructor
  · apply Refused.of_unreadable exact
    rw [same, unreadable_lead white]
    exact Unreadable.of_foreign foreign more
  · intro inner stripped
    rcases trim_of_lead same white foreign.2.2.1 with ⟨kept, _, _, _, trimmed⟩
    rw [trimmed] at stripped
    exact absurd stripped (not_stripped_of_head (by simpa using noFence) (by simpa using noTag))

/-! ## Tags -/

private theorem first_separator {separator : Char} {left right before behind : List Char}
    (same : left ++ separator :: right = before ++ separator :: behind) (noLeft : separator ∉ left)
    (noBefore : separator ∉ before) : right = behind := by
  rcases List.append_eq_append_iff.mp same with ⟨others, split, rest⟩ | ⟨others, split, rest⟩
  · cases others with
    | nil => exact (List.cons.inj rest).2
    | cons first others =>
        rw [split, (List.cons.inj rest).1] at noBefore
        exact absurd (List.mem_append_right _ List.mem_cons_self) noBefore
  · cases others with
    | nil => exact (List.cons.inj rest).2.symm
    | cons first others =>
        rw [split, (List.cons.inj rest).1] at noLeft
        exact absurd (List.mem_append_right _ List.mem_cons_self) noLeft

theorem closed_of_tag {lead named rest : List Char} (white : forall other, other ∈ lead -> Text.isWhitespace other = true)
    (noClose : '>' ∉ named) (same : part.toList = lead ++ '<' :: (named ++ '>' :: rest))
    (stripped : Stripped (Text.trim part).toList inner) :
    Exists fun body => Exists fun closing => Exists fun behind => rest = body.toList ++ '<' :: (closing ++ behind) ∧
      '\x7b' ∉ '<' :: (closing ++ behind) ∧ inner = Text.trim body := by
  rcases trim_of_lead same white (by decide) with ⟨kept, white, more, all, trimmed⟩
  rcases split_before_white more.symm (not_mem_of_whitespace all (by decide)) with ⟨others, rfl, rfl⟩
  rw [trimmed] at stripped
  cases stripped with
  | fence found inside => exact absurd (List.cons.inj found).1 (by decide)
  | @tag head name behind body opened found first plain closed inside =>
      rw [← List.cons_append] at found
      have rest := first_separator found (by simpa using noClose) first
      rcases Text.toList_trimEnd behind with ⟨tail, whole, blank⟩
      refine ⟨body, '/' :: (name ++ ['>']), tail ++ white, ?_, ?_, inside⟩
      · rw [rest, whole, closed]
        simp
      · have noTail := not_mem_of_whitespace blank (by decide : Text.isWhitespace '\x7b' = false)
        have noWhite := not_mem_of_whitespace all (by decide : Text.isWhitespace '\x7b' = false)
        simp [plain, noTail, noWhite]

theorem Handled.of_openTag (exact : json.AcceptsExactly numbers) {lead named : List Char}
    (white : forall other, other ∈ lead -> Text.isWhitespace other = true) (noClose : '>' ∉ named)
    (beginning : part.toList <+: lead ++ '<' :: named) : Handled json part := by
  rcases prefix_append_cases beginning with blank | ⟨others, same, started⟩
  · exact Handled.of_blank exact fun other member => white other (blank.subset member)
  · cases others with
    | nil =>
        rw [List.append_nil] at same
        exact Handled.of_blank exact (by rw [same]; exact white)
    | cons first others =>
        rcases List.cons_prefix_cons.mp started with ⟨rfl, cut⟩
        constructor
        · apply Refused.of_unreadable exact
          rw [same, unreadable_lead white]
          exact Unreadable.of_foreign (by decide) others
        · intro inner stripped
          rcases trim_of_lead same white (by decide) with ⟨kept, tail, whole, _, trimmed⟩
          rw [trimmed] at stripped
          cases stripped with
          | fence found inside => exact absurd (List.cons.inj found).1 (by decide)
          | tag opened found first plain closed inside =>
              have member : '>' ∈ '<' :: kept := by
                rw [found]
                exact List.mem_append_right _ List.mem_cons_self
              have later : '>' ∈ kept := by simpa using member
              rw [whole] at cut
              exact absurd (cut.subset (List.mem_append_left _ later)) noClose

/-- Between tags stands what is left of the object. -/
theorem Handled.of_tag (exact : json.AcceptsExactly numbers) {lead named : List Char}
    (white : forall other, other ∈ lead -> Text.isWhitespace other = true) (noClose : '>' ∉ named)
    (remains : Remains (lead ++ '<' :: (named ++ ['>'])) part.toList) : Handled json part := by
  have refused : forall {more : List Char}, part.toList = lead ++ '<' :: more -> Refused json part := by
    intro more same
    apply Refused.of_unreadable exact
    rw [same, unreadable_lead white]
    exact Unreadable.of_foreign (by decide) more
  have ofBlank : forall {rest : List Char}, part.toList = lead ++ '<' :: (named ++ '>' :: rest) ->
      (forall other, other ∈ rest -> Text.isWhitespace other = true) -> Handled json part := by
    intro rest same blank
    refine ⟨refused same, fun inner stripped => ?_⟩
    rcases closed_of_tag white noClose same stripped with ⟨body, closing, behind, whole, _, _⟩
    rw [whole] at blank
    exact absurd (blank '<' (List.mem_append_right _ List.mem_cons_self)) (by decide)
  cases remains with
  | opening beginning =>
      rw [← List.cons_append, ← List.append_assoc] at beginning
      rcases prefix_append_cases beginning with open_ | ⟨others, same, last⟩
      · exact Handled.of_openTag exact white noClose open_
      · rcases List.prefix_cons_iff.mp last with rfl | ⟨tail, rfl, empty⟩
        · exact Handled.of_openTag exact white noClose ⟨[], same.symm ▸ by simp⟩
        · rw [List.prefix_nil.mp empty] at same
          exact @ofBlank [] (by rw [same]; simp) (by simp)
  | @gap gap same blank => exact @ofBlank gap (by rw [same]; simp) blank
  | @object gap behind inside same blank balanced beginning =>
      have opened : part.toList = lead ++ '<' :: (named ++ '>' :: (gap ++ '\x7b' :: behind)) := by
        rw [same]
        simp
      refine ⟨refused opened, fun inner stripped => ?_⟩
      rcases closed_of_tag white noClose opened stripped with ⟨body, closing, rest, whole, plain, rfl⟩
      have leaves := leavesOpen_of_gap blank beginning
      rw [whole] at leaves
      have kept := leavesOpen_trim (leaves.dropBehind plain)
      exact Refused.of_leavesOpen exact balanced kept (leavesOpen_trimEnd kept)

/-! ## Fences -/

/-- What is found in a fence stands behind three backquotes. -/
theorem body_of_fence {lead more : List Char} (white : forall other, other ∈ lead -> Text.isWhitespace other = true)
    (same : part.toList = lead ++ '\x60' :: more) (stripped : Stripped (Text.trim part).toList inner) :
    Exists fun body => Exists fun rest =>
      more = '\x60' :: '\x60' :: (body.toList ++ '\x60' :: '\x60' :: '\x60' :: rest) ∧
      (forall other, other ∈ rest -> Text.isWhitespace other = true) ∧
      inner = Text.trim (stripFenceLanguage (Text.trimStart body)) := by
  rcases trim_of_lead same white (by decide) with ⟨kept, tail, whole, blank, trimmed⟩
  rw [trimmed] at stripped
  cases stripped with
  | @fence body found inside =>
      have rest : kept = '\x60' :: '\x60' :: (body.toList ++ ['\x60', '\x60', '\x60']) := (List.cons.inj found).2
      refine ⟨body, tail, ?_, blank, inside⟩
      rw [whole, rest]
      simp
  | tag opened found first plain closed inside => exact absurd opened (by simp)

/-- Backquotes behind which none stand enclose nothing but backquotes. -/
theorem Handled.of_ticks (exact : json.AcceptsExactly numbers) {lead tail : List Char} {length : Nat}
    (white : forall other, other ∈ lead -> Text.isWhitespace other = true) (noTick : '\x60' ∉ tail)
    (same : part.toList = lead ++ '\x60' :: (List.replicate length '\x60' ++ tail)) : Handled json part := by
  constructor
  · apply Refused.of_unreadable exact
    rw [same, unreadable_lead white]
    exact Unreadable.of_foreign (by decide) _
  · intro inner stripped
    rcases body_of_fence white same stripped with ⟨body, rest, whole, _, rfl⟩
    apply Refused.of_unreadable exact
    apply unreadable_of_backquote
    cases characters : body.toList with
    | nil => exact Or.inl rfl
    | cons first others =>
        right
        rw [characters] at whole
        by_cases tick : first = '\x60'
        · rw [tick, List.head?_cons]
        · rcases List.append_eq_append_iff.mp (show ['\x60', '\x60'] ++ (first :: (others ++ '\x60' :: '\x60' :: '\x60' :: rest)) =
            List.replicate length '\x60' ++ tail by rw [whole]; rfl) with ⟨more, split, left⟩ | ⟨more, split, left⟩
          · cases more with
            | nil =>
                rw [List.nil_append] at left
                exact absurd (by rw [← left]; simp) noTick
            | cons character more =>
                rw [(List.cons.inj left).1] at tick
                exact absurd (List.eq_of_mem_replicate (by rw [split]; simp)) tick
          · exact absurd (by rw [left]; simp) noTick

/-- More than three backquotes enclose something that begins with a backquote. -/
theorem Handled.of_longFence (exact : json.AcceptsExactly numbers) {lead more : List Char}
    (white : forall other, other ∈ lead -> Text.isWhitespace other = true)
    (same : part.toList = lead ++ '\x60' :: '\x60' :: '\x60' :: '\x60' :: more) : Handled json part := by
  constructor
  · apply Refused.of_unreadable exact
    rw [same, unreadable_lead white]
    exact Unreadable.of_foreign (by decide) _
  · intro inner stripped
    rcases body_of_fence white same stripped with ⟨body, rest, whole, _, rfl⟩
    apply Refused.of_unreadable exact
    apply unreadable_of_backquote
    cases characters : body.toList with
    | nil => exact Or.inl rfl
    | cons first others =>
        rw [characters] at whole
        simp only [List.cons_append, List.cons.injEq, true_and] at whole
        rw [← whole.1]
        exact Or.inr rfl

/-- Three backquotes enclose what is left of the object. -/
theorem Handled.of_shortFence (exact : json.AcceptsExactly numbers) {lead more : List Char}
    (white : forall other, other ∈ lead -> Text.isWhitespace other = true)
    (same : part.toList = lead ++ '\x60' :: more) (balanced : JsonNesting.Balanced inside)
    (leaves : JsonNesting.LeavesOpen inside part.toList) : Handled json part := by
  refine ⟨Refused.of_leavesOpen exact balanced leaves (leavesOpen_trimEnd leaves), fun inner stripped => ?_⟩
  rcases body_of_fence white same stripped with ⟨body, rest, whole, blank, rfl⟩
  have behind : JsonNesting.LeavesOpen inside (body.toList ++ '\x60' :: '\x60' :: '\x60' :: rest) := by
    rw [same, whole] at leaves
    have opened := leaves.dropFront fun character member => plain_of_whitespace (white character member)
    rw [show '\x60' :: '\x60' :: '\x60' :: (body.toList ++ '\x60' :: '\x60' :: '\x60' :: rest) =
      "```".toList ++ (body.toList ++ '\x60' :: '\x60' :: '\x60' :: rest) from rfl] at opened
    exact opened.dropFront (List.all_iff_forall_prop.mp (by decide))
  have inBody : JsonNesting.LeavesOpen inside body.toList :=
    behind.dropBehind (by simpa using not_mem_of_whitespace blank (by decide))
  have kept := leavesOpen_trim (leavesOpen_stripFenceLanguage (leavesOpen_trimStart inBody))
  exact Refused.of_leavesOpen exact balanced kept (leavesOpen_trimEnd kept)

private theorem prefix_of_fence {others tail : List Char} {length : Nat} {mark : Char}
    (beginning : others <+: List.replicate length mark ++ tail) :
    Exists fun count => Exists fun rest => others = List.replicate count mark ++ rest ∧ rest <+: tail ∧
      (count = length ∨ rest = []) := by
  rcases prefix_append_cases beginning with marks | ⟨rest, same, cut⟩
  · exact ⟨others.length, [], by rw [List.append_nil]; exact (List.prefix_replicate_iff.mp marks).2,
      List.nil_prefix, Or.inr rfl⟩
  · exact ⟨length, rest, same, cut, Or.inl rfl⟩

theorem Handled.of_fence (exact : json.AcceptsExactly numbers) {lead info : List Char} {length : Nat}
    (white : forall other, other ∈ lead -> Text.isWhitespace other = true) (three : 3 ≤ length)
    (noTick : '\x60' ∉ info) (quiet : length = 3 -> (repairNesting JsonNesting.start info).inString = false)
    (remains : Remains (lead ++ (List.replicate length '\x60' ++ (info ++ ['\n']))) part.toList) :
    Handled json part := by
  rcases Nat.exists_eq_add_of_le' three with ⟨more, rfl⟩
  cases remains with
  | opening beginning =>
      rcases prefix_append_cases beginning with blank | ⟨others, same, cut⟩
      · exact Handled.of_blank exact fun other member => white other (blank.subset member)
      · rcases prefix_of_fence cut with ⟨count, rest, rfl, started, whole⟩
        cases count with
        | zero =>
            rcases whole with none | rfl
            · omega
            · exact Handled.of_blank exact (by rw [same]; simpa using white)
        | succ count =>
            have noTail : '\x60' ∉ rest := by
              intro member
              have inInfo := started.subset member
              simp only [List.mem_append, List.mem_singleton] at inInfo
              exact inInfo.elim noTick (by decide)
            exact Handled.of_ticks exact white noTail same
  | @gap gap same blank =>
      have noTail : '\x60' ∉ info ++ '\n' :: gap := by
        simp [noTick, not_mem_of_whitespace blank (by decide : Text.isWhitespace '\x60' = false)]
      have ticks : part.toList =
          lead ++ '\x60' :: (List.replicate (more + 2) '\x60' ++ (info ++ '\n' :: gap)) := by
        rw [same, List.replicate_succ]
        simp
      exact Handled.of_ticks exact white noTail ticks
  | @object gap behind inside same blank balanced beginning =>
      cases more with
      | zero =>
          have opened : part.toList =
              lead ++ '\x60' :: '\x60' :: '\x60' :: (info ++ '\n' :: (gap ++ '\x7b' :: behind)) := by
            rw [same]
            simp [List.replicate]
          apply Handled.of_shortFence exact white opened balanced
          refine ⟨lead ++ ("```".toList ++ (info ++ '\n' :: gap)), behind, ?_, ?_, beginning⟩
          · rw [same]
            simp [List.replicate]
          · have inFront : forall other, other ∈ lead ++ "```".toList -> JsonNesting.Plain other := by
              intro other member
              rcases List.mem_append.mp member with inLead | tick
              · exact plain_of_whitespace (white other inLead)
              · exact List.all_iff_forall_prop.mp (by decide) other tick
            have inBack : forall other, other ∈ '\n' :: gap -> JsonNesting.Plain other := by
              intro other member
              rcases List.mem_cons.mp member with rfl | inGap
              · decide
              · exact plain_of_whitespace (blank other inGap)
            have silent := quiet rfl
            rw [← List.append_assoc, JsonNesting.repairNesting_append, JsonNesting.repairNesting_plain inFront rfl,
              JsonNesting.repairNesting_append, JsonNesting.repairNesting_plain inBack silent]
            exact silent
      | succ more =>
          apply Handled.of_longFence exact white
          rw [same, List.replicate_succ, List.replicate_succ, List.replicate_succ, List.replicate_succ]
          simp only [List.cons_append, List.append_assoc]
          rfl

theorem Handled.of_foreignOpening (exact : json.AcceptsExactly numbers) {lead rest : List Char} {character : Char}
    (foreign : Foreign character) (noFence : character ≠ '\x60') (noTag : character ≠ '<')
    (white : forall other, other ∈ lead -> Text.isWhitespace other = true)
    (remains : Remains (lead ++ character :: rest) part.toList) : Handled json part := by
  cases remains with
  | opening beginning =>
      rcases prefix_append_cases beginning with blank | ⟨others, same, cut⟩
      · exact Handled.of_blank exact fun other member => white other (blank.subset member)
      · rcases List.prefix_cons_iff.mp cut with rfl | ⟨tail, rfl, _⟩
        · exact Handled.of_blank exact (by rw [same]; simpa using white)
        · exact Handled.of_foreign exact foreign noFence noTag white same
  | gap same blank =>
      rw [List.append_assoc] at same
      exact Handled.of_foreign exact foreign noFence noTag white same
  | object same blank balanced beginning =>
      rw [List.append_assoc] at same
      exact Handled.of_foreign exact foreign noFence noTag white same

end Remainders

theorem CutOff.handled {json : JsonParser} {numbers : Numbers} (exact : json.AcceptsExactly numbers)
    {wrapper : Wrapper} {part : String} (cut : CutOff numbers wrapper part) (clear : wrapper.Clear) :
    Handled json part := by
  have remains := cut.remains
  cases cut with
  | intro written blankBefore blankAfter proper some beginning incomplete =>
      cases wrapper with
      | bare => exact Handled.of_bare exact remains some
      | tag lead name attributes =>
          rcases proper with ⟨white, _, named, _⟩
          apply Handled.of_tag exact white _ remains
          rw [List.mem_append, not_or]
          exact ⟨fun member => absurd (named '>' member) (by decide), clear⟩
      | fence lead mark length info =>
          rcases proper with ⟨white, three, _, ⟨rfl, noTick⟩ | rfl⟩
          · exact Handled.of_fence exact white three noTick (clear rfl) remains
          · rcases Nat.exists_eq_add_of_le' three with ⟨more, rfl⟩
            exact Handled.of_foreignOpening exact (by decide) (by decide) (by decide) white remains

/-- Arguments that are cut off are nothing, unless the opening of their wrapper hides what follows. -/
theorem parseToolArguments_cutOff {json : JsonParser} {numbers : Numbers} (exact : json.AcceptsExactly numbers)
    {wrapper : Wrapper} {part : String} (cut : CutOff numbers wrapper part) (clear : wrapper.Clear) :
    parseToolArguments json part = none := by
  have handled := cut.handled exact clear
  apply parseToolArguments_eq_none _ handled.refused
  · exact fun inner stripped => handled.wrapped inner (stripped_of_stripJsonWrapper stripped)
  · cases cut with
    | intro written blankBefore blankAfter proper some beginning incomplete => exact some

/-! ## A parser -/

section Exact

open Classical

noncomputable def exactFromStr (numbers : Numbers) (text : String) : Except String Json :=
  if text = "\x7b\x7d" then .ok (.object [])
  else if known : Exists fun value => Written numbers text.toList (.document value) then .ok known.choose
  else .error "expected value at line 1 column 1"

/-- The parser that accepts the texts of JSON values, for numbers that are spelled with something. -/
noncomputable def JsonParser.ofNumbers (numbers : Numbers) (solid : forall number, ¬ numbers.spells [] number) :
    JsonParser where
  fromStr := exactFromStr numbers
  empty := by
    have none : ¬ Exists fun value => Written numbers "".toList (.document value) := by
      rintro ⟨value, written⟩
      exact Unreadable.not_written solid (Unreadable.of_blank (List.forall_mem_nil _)) value written
    intro value read
    rw [exactFromStr, if_neg (by decide), dif_neg none] at read
    cases read
  emptyObject := if_pos rfl

theorem JsonParser.ofNumbers_acceptsExactly (numbers : Numbers) (solid : forall number, ¬ numbers.spells [] number) :
    (JsonParser.ofNumbers numbers solid).AcceptsExactly numbers := by
  intro text
  by_cases empty : text = "\x7b\x7d"
  · have object : Written numbers "\x7b\x7d".toList (.document (.object [])) :=
      (Written.emptyObject blank_nil).plain
    rw [empty, JsonParser.value?_emptyObject]
    exact ⟨fun _ => ⟨_, object⟩, fun _ => rfl⟩
  · by_cases known : Exists fun value => Written numbers text.toList (.document value)
    · rw [JsonParser.value?, show (JsonParser.ofNumbers numbers solid).fromStr text = .ok known.choose from
        (if_neg empty).trans (dif_pos known)]
      exact ⟨fun _ => known, fun _ => rfl⟩
    · rw [JsonParser.value?, show (JsonParser.ofNumbers numbers solid).fromStr text = .error _ from
        (if_neg empty).trans (dif_neg known)]
      exact ⟨fun some => absurd some Bool.false_ne_true, fun written => absurd written known⟩

end Exact

/-- The parser of texts in which all numbers are zero. -/
noncomputable def zeroParser : JsonParser :=
  JsonParser.ofNumbers zeroNumbers fun _ spelled => List.cons_ne_nil _ _ spelled.symm

theorem zeroParser_acceptsExactly : zeroParser.AcceptsExactly zeroNumbers :=
  JsonParser.ofNumbers_acceptsExactly zeroNumbers _

/-- The text of an object with one member. -/
private def objectText (key : String) : List Char :=
  render zeroNumbers (.object [(key, .null)])

private theorem written_objectText (key : String) :
    Written zeroNumbers (objectText key) (.value (.object [(key, .null)])) :=
  written_render zeroNumbers _ (by simp [distinctKeys, distinctMembers])

/-- The key of a member in a fence is cut off. -/
theorem parseToolArguments_cutFence : parseToolArguments zeroParser "```json\n\x7b\x22ke" = none :=
  parseToolArguments_cutOff zeroParser_acceptsExactly
    (@CutOff.intro _ (.fence [] '\x60' 3 ['j', 's', 'o', 'n']) _ _ _ _ _ (written_objectText "key") blank_nil
      blank_nil (by decide) (by decide +kernel) (by decide) (by decide)) (by decide)

private theorem isSome_orElse {α : Type} (first : Option α) (second : Unit -> Option α) :
    (first.orElse second).isSome = (first.isSome || (second ()).isSome) := by
  cases first with
  | none => rfl
  | some value => rfl

theorem parseToolArguments_of_wrapped {json : JsonParser} {arguments inner : String} (some : arguments ≠ "")
    (stripped : stripJsonWrapper arguments = Option.some inner) (whole : looksTruncated inner = false)
    (read : (json.value? inner).isSome = true ∨ (json.value? (jsonEscapeControlCharsInString inner)).isSome = true) :
    parseToolArguments json arguments ≠ none := by
  have wrapped : (wrappedValue json arguments).isSome = true := by
    rw [wrappedValue, stripped, Option.bind_some, repairedValue, if_neg (Bool.eq_false_iff.mp whole),
      safelyParseJson_toOption, isSome_orElse, isSome_orElse, isSome_orElse]
    rcases read with read | read
    · simp only [read, Bool.true_or]
    · simp only [read, Bool.true_or, Bool.or_true]
  intro nothing
  rw [parseToolArguments, if_neg some, Option.map_eq_none_iff] at nothing
  have all : ((((json.value? arguments).orElse fun _ => wrappedValue json arguments).orElse fun _ =>
      repairedValue json arguments)).isSome = true := by
    rw [isSome_orElse, isSome_orElse, wrapped, Bool.or_true, Bool.true_or]
  rw [nothing] at all
  cases all

/-- A quote in front of the object, and an attribute that contains what closes a tag, make a string of the
beginning of an object. -/
theorem parseToolArguments_hidden :
    (CutOff zeroNumbers (.fence [] '\x60' 3 ['\x22']) "```\x22\n\x7b\x22```" ∧
      parseToolArguments zeroParser "```\x22\n\x7b\x22```" ≠ none) ∧
    CutOff zeroNumbers (.tag [] ['a'] [' ', 'b', '=', '\x22', '>', '\x22']) "<a b=\x22>\x22>\x7b\x22</a>" ∧
      parseToolArguments zeroParser "<a b=\x22>\x22>\x7b\x22</a>" ≠ none := by
  have newline : Written zeroNumbers ['\x22', '\\', 'n', '\x7b', '\x22'] (.value (.string "\n\x7b")) :=
    @Written.string zeroNumbers _ ['\n', '\x7b']
      (StringBody.cons (Spelled.escape rfl) (StringBody.cons (Spelled.ordinary (by decide)) StringBody.empty))
  have bracket : Written zeroNumbers ['\x22', '>', '\x7b', '\x22'] (.value (.string ">\x7b")) :=
    written_render zeroNumbers (.string ">\x7b") rfl
  refine ⟨⟨?_, ?_⟩, ?_, ?_⟩
  · exact CutOff.intro (written_objectText "```") blank_nil blank_nil (by decide) (by decide +kernel) (by decide)
      (by decide)
  · apply @parseToolArguments_of_wrapped _ _ "\x22\n\x7b\x22" (by decide) (by decide +kernel) (by decide +kernel)
    exact Or.inr ((zeroParser_acceptsExactly _).mpr ⟨_, newline.plain⟩)
  · exact CutOff.intro (written_objectText "</a>") blank_nil blank_nil (by decide) (by decide +kernel) (by decide)
      (by decide)
  · apply @parseToolArguments_of_wrapped _ _ "\x22>\x7b\x22" (by decide) (by decide +kernel) (by decide +kernel)
    exact Or.inl ((zeroParser_acceptsExactly _).mpr ⟨_, bracket.plain⟩)

end AIBuddy
