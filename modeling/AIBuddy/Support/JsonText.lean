import Mathlib.Data.Bool.AllAny
import Mathlib.Data.List.Basic
import AIBuddy.Support.Json

namespace AIBuddy
namespace JsonText

/-!
# Texts of JSON values

The grammar of JSON as a relation between a text and the value that it is a text of.
Space may stand between any two tokens, the characters of a string may be escaped in any
way, and of the members with one key the last one counts.  How numbers are spelled is a
parameter.

What a scanner of quotes and braces makes of such a text follows from how it is woven:
outside of strings only a few characters occur, and braces match.
-/

/-! ## Characters -/

/-- The characters that may stand between tokens. -/
def spaces : List Char := [' ', '\n', '\r', '\t']

/-- The characters that numbers are spelled with. -/
def numerals : List Char := ['0', '1', '2', '3', '4', '5', '6', '7', '8', '9', '+', '-', '.', 'e', 'E']

/-- The characters that occur outside of strings, but for the quote. -/
def marks : List Char :=
  spaces ++ numerals ++ ['\x7b', '\x7d', '[', ']', ':', ',', 't', 'r', 'u', 'f', 'a', 'l', 's', 'n']

/-- The letters that may stand behind a backslash. -/
def escapeLetters : List Char := ['\x22', '\\', '/', 'b', 'f', 'n', 'r', 't', 'u']

def hexDigits : List Char :=
  ['0', '1', '2', '3', '4', '5', '6', '7', '8', '9', 'a', 'b', 'c', 'd', 'e', 'f', 'A', 'B', 'C', 'D', 'E', 'F']

/-- A character that stands for itself in a string. -/
def Ordinary (character : Char) : Prop :=
  character ≠ '\x22' ∧ character ≠ '\\' ∧ 0x20 ≤ character.toNat

instance (character : Char) : Decidable (Ordinary character) :=
  inferInstanceAs (Decidable (_ ∧ _))

/-- What a letter stands for behind a backslash. -/
def unescape : Char -> Option Char
  | '\x22' => some '\x22'
  | '\\' => some '\\'
  | '/' => some '/'
  | 'b' => some '\x08'
  | 'f' => some '\x0c'
  | 'n' => some '\n'
  | 'r' => some '\r'
  | 't' => some '\t'
  | _ => none

def hexValue (digit : Char) : Nat :=
  if digit.isDigit then digit.toNat - 48 else digit.toLower.toNat - 87

def hexCode (digits : List Char) : Nat :=
  digits.foldl (fun code digit => 16 * code + hexValue digit) 0

/-! ## The grammar -/

/-- A character as it is written in a string. -/
inductive Spelled : List Char -> Char -> Prop where
  | ordinary {character : Char} (plain : Ordinary character) : Spelled [character] character
  | escape {letter character : Char} (known : unescape letter = some character) : Spelled ['\\', letter] character
  | code {digits : List Char} (four : digits.length = 4) (hex : forall digit, digit ∈ digits -> digit ∈ hexDigits)
      (valid : (hexCode digits).isValidChar) : Spelled ('\\' :: 'u' :: digits) (Char.ofNat (hexCode digits))
  | pair {high low : List Char} (four : high.length = 4 ∧ low.length = 4)
      (hex : forall digit, digit ∈ high ++ low -> digit ∈ hexDigits)
      (surrogates : 0xD800 ≤ hexCode high ∧ hexCode high < 0xDC00 ∧ 0xDC00 ≤ hexCode low ∧ hexCode low < 0xE000) :
      Spelled ('\\' :: 'u' :: (high ++ '\\' :: 'u' :: low))
        (Char.ofNat (0x10000 + 0x400 * (hexCode high - 0xD800) + (hexCode low - 0xDC00)))

/-- What stands between the quotes of a string. -/
inductive StringBody : List Char -> List Char -> Prop where
  | empty : StringBody [] []
  | cons {spelling rest decoded : List Char} {character : Char} (first : Spelled spelling character)
      (others : StringBody rest decoded) : StringBody (spelling ++ rest) (character :: decoded)

/-- How numbers are spelled, and how they are written. -/
structure Numbers where
  spells : List Char -> JsonNumber -> Prop
  write : JsonNumber -> List Char
  numerals : forall {text number}, spells text number -> forall character, character ∈ text -> character ∈ JsonText.numerals
  spells_write : forall number, spells (write number) number

def Blank (text : List Char) : Prop :=
  forall character, character ∈ text -> character ∈ spaces

/-- What a text can be a text of: a value, a value between spaces, the items of an array, or
the members of an object. -/
inductive Form where
  | value (value : Json)
  | document (value : Json)
  | items (items : List Json)
  | members (members : List (String × Json))

def quoted (body : List Char) : List Char := '\x22' :: (body ++ ['\x22'])

/-- The object with these members: the last one with a key counts. -/
def ofMembers (members : List (String × Json)) : JsonObject :=
  members.foldl (fun object member => JsonObject.insert object member.1 member.2) []

/-- A text of a form. -/
inductive Written (numbers : Numbers) : List Char -> Form -> Prop where
  | null : Written numbers ['n', 'u', 'l', 'l'] (.value .null)
  | isTrue : Written numbers ['t', 'r', 'u', 'e'] (.value (.bool true))
  | isFalse : Written numbers ['f', 'a', 'l', 's', 'e'] (.value (.bool false))
  | number {text : List Char} {number : JsonNumber} (spelled : numbers.spells text number) :
      Written numbers text (.value (.number number))
  | string {body decoded : List Char} (written : StringBody body decoded) :
      Written numbers (quoted body) (.value (.string (String.ofList decoded)))
  | emptyArray {gap : List Char} (blank : Blank gap) : Written numbers ('[' :: (gap ++ [']'])) (.value (.array []))
  | array {text : List Char} {items : List Json} (written : Written numbers text (.items items)) :
      Written numbers ('[' :: (text ++ [']'])) (.value (.array items))
  | emptyObject {gap : List Char} (blank : Blank gap) :
      Written numbers ('\x7b' :: (gap ++ ['\x7d'])) (.value (.object []))
  | object {text : List Char} {members : List (String × Json)} (written : Written numbers text (.members members)) :
      Written numbers ('\x7b' :: (text ++ ['\x7d'])) (.value (.object (ofMembers members)))
  | document {before text after : List Char} {value : Json} (blankBefore : Blank before)
      (written : Written numbers text (.value value)) (blankAfter : Blank after) :
      Written numbers (before ++ text ++ after) (.document value)
  | lastItem {text : List Char} {value : Json} (written : Written numbers text (.document value)) :
      Written numbers text (.items [value])
  | moreItems {text rest : List Char} {value : Json} {items : List Json}
      (written : Written numbers text (.document value)) (others : Written numbers rest (.items items)) :
      Written numbers (text ++ ',' :: rest) (.items (value :: items))
  | lastMember {before body decoded middle text : List Char} {value : Json} (blankBefore : Blank before)
      (key : StringBody body decoded) (blankMiddle : Blank middle) (written : Written numbers text (.document value)) :
      Written numbers (before ++ quoted body ++ middle ++ ':' :: text) (.members [(String.ofList decoded, value)])
  | moreMembers {text rest : List Char} {member : String × Json} {members : List (String × Json)}
      (written : Written numbers text (.members [member])) (others : Written numbers rest (.members members)) :
      Written numbers (text ++ ',' :: rest) (.members (member :: members))

/-! ## Weaving -/

/-- What stands between quotes, as far as a scanner of quotes can tell. -/
inductive Quotable : List Char -> Prop where
  | empty : Quotable []
  | ordinary {character : Char} {rest : List Char} (plain : Ordinary character) (others : Quotable rest) :
      Quotable (character :: rest)
  | escape {letter : Char} {rest : List Char} (known : letter ∈ escapeLetters) (others : Quotable rest) :
      Quotable ('\\' :: letter :: rest)

/-- A text of strings and marks in which braces match. -/
inductive Woven : List Char -> Prop where
  | empty : Woven []
  | mark {character : Char} (known : character ∈ marks) (noOpener : character ≠ '\x7b') (noCloser : character ≠ '\x7d') :
      Woven [character]
  | string {body : List Char} (quotable : Quotable body) : Woven (quoted body)
  | braces {text : List Char} (inside : Woven text) : Woven ('\x7b' :: (text ++ ['\x7d']))
  | append {left right : List Char} (first : Woven left) (second : Woven right) : Woven (left ++ right)

theorem ordinary_of_hexDigit {character : Char} (digit : character ∈ hexDigits) : Ordinary character := by
  have checked : forall other, other ∈ hexDigits -> Ordinary other := List.all_iff_forall_prop.mp (by decide)
  exact checked character digit

theorem Quotable.hex {digits rest : List Char} (hex : forall digit, digit ∈ digits -> digit ∈ hexDigits)
    (others : Quotable rest) : Quotable (digits ++ rest) := by
  induction digits with
  | nil => exact others
  | cons digit digits ih =>
      have first := ordinary_of_hexDigit (hex digit List.mem_cons_self)
      exact Quotable.ordinary first (ih fun other member => hex other (List.mem_cons_of_mem _ member))

theorem mem_escapeLetters_of_unescape {letter character : Char} (known : unescape letter = some character) :
    letter ∈ escapeLetters := by
  unfold unescape at known
  split at known
  case h_9 => contradiction
  all_goals decide

theorem Spelled.quotable {spelling rest : List Char} {character : Char} (spelled : Spelled spelling character)
    (others : Quotable rest) : Quotable (spelling ++ rest) := by
  cases spelled with
  | ordinary plain => exact Quotable.ordinary plain others
  | escape known => exact Quotable.escape (mem_escapeLetters_of_unescape known) others
  | code four hex valid => exact Quotable.escape (by decide) (others.hex hex)
  | @pair high low four hex surrogates =>
      have second := others.hex fun digit member => hex digit (List.mem_append_right high member)
      have first := (Quotable.escape (by decide : 'u' ∈ escapeLetters) second).hex
        fun digit member => hex digit (List.mem_append_left low member)
      rw [List.cons_append, List.cons_append, List.append_assoc]
      exact Quotable.escape (by decide) first

theorem StringBody.quotable {body decoded : List Char} (written : StringBody body decoded) : Quotable body := by
  induction written with
  | empty => exact Quotable.empty
  | cons first _ ih => exact first.quotable ih

theorem Woven.of_marks {text : List Char}
    (plain : forall character, character ∈ text -> character ∈ marks ∧ character ≠ '\x7b' ∧ character ≠ '\x7d') :
    Woven text := by
  induction text with
  | nil => exact Woven.empty
  | cons character rest ih =>
      rcases plain character List.mem_cons_self with ⟨known, noOpener, noCloser⟩
      exact Woven.append (Woven.mark known noOpener noCloser)
        (ih fun other member => plain other (List.mem_cons_of_mem _ member))

private theorem plain_of_space : forall character, character ∈ spaces ->
    character ∈ marks ∧ character ≠ '\x7b' ∧ character ≠ '\x7d' :=
  List.all_iff_forall_prop.mp (by decide)

private theorem plain_of_numeral : forall character, character ∈ numerals ->
    character ∈ marks ∧ character ≠ '\x7b' ∧ character ≠ '\x7d' :=
  List.all_iff_forall_prop.mp (by decide)

theorem Woven.of_blank {text : List Char} (blank : Blank text) : Woven text :=
  Woven.of_marks fun character member => plain_of_space character (blank character member)

theorem Woven.bracketed {text : List Char} (inside : Woven text) : Woven ('[' :: (text ++ [']'])) :=
  Woven.append (Woven.mark (by decide) (by decide) (by decide))
    (Woven.append inside (Woven.mark (by decide) (by decide) (by decide)))

theorem Woven.separated {left right : List Char} {separator : Char} (known : separator ∈ marks)
    (noOpener : separator ≠ '\x7b') (noCloser : separator ≠ '\x7d') (first : Woven left) (second : Woven right) :
    Woven (left ++ separator :: right) :=
  Woven.append first (Woven.append (Woven.mark known noOpener noCloser) second)

theorem Written.woven {numbers : Numbers} {text : List Char} {form : Form} (written : Written numbers text form) :
    Woven text := by
  induction written with
  | null => exact Woven.of_marks (List.all_iff_forall_prop.mp (by decide))
  | isTrue => exact Woven.of_marks (List.all_iff_forall_prop.mp (by decide))
  | isFalse => exact Woven.of_marks (List.all_iff_forall_prop.mp (by decide))
  | number spelled =>
      exact Woven.of_marks fun character member => plain_of_numeral character (numbers.numerals spelled character member)
  | string written => exact Woven.string written.quotable
  | emptyArray blank => exact (Woven.of_blank blank).bracketed
  | array _ ih => exact ih.bracketed
  | emptyObject blank => exact Woven.braces (Woven.of_blank blank)
  | object _ ih => exact Woven.braces ih
  | document before _ after ih =>
      exact Woven.append (Woven.append (Woven.of_blank before) ih) (Woven.of_blank after)
  | lastItem _ ih => exact ih
  | moreItems _ _ first others => exact Woven.separated (by decide) (by decide) (by decide) first others
  | lastMember before key middle _ ih =>
      exact Woven.separated (by decide) (by decide) (by decide)
        (Woven.append (Woven.append (Woven.of_blank before) (Woven.string key.quotable)) (Woven.of_blank middle))
        ih
  | moreMembers _ _ first others => exact Woven.separated (by decide) (by decide) (by decide) first others

/-! ## Scanning braces -/

/-- The number of characters up to the brace that closes the first one, with the braces
that are open, whether a string is open, and whether a backslash stands before. -/
def braceSpan (depth : Nat) (inString escaped : Bool) (count : Nat) : List Char -> Option Nat
  | [] => none
  | character :: rest =>
      if inString then
        if escaped then braceSpan depth true false (count + 1) rest
        else if character = '\\' then braceSpan depth true true (count + 1) rest
        else if character = '\x22' then braceSpan depth false false (count + 1) rest
        else braceSpan depth true false (count + 1) rest
      else if character = '\x22' then braceSpan depth true false (count + 1) rest
      else if character = '\x7b' then braceSpan (depth + 1) false false (count + 1) rest
      else if character = '\x7d' then
        if depth - 1 = 0 then some (count + 1) else braceSpan (depth - 1) false false (count + 1) rest
      else braceSpan depth false false (count + 1) rest

end JsonText
end AIBuddy
