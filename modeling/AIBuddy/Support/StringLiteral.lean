import Mathlib.Data.List.Basic

namespace AIBuddy
namespace StringLiteral

/-!
# String literals

What stands between the quotes of a string literal in JavaScript or TypeScript, and the code
units of its value.  Behind a backslash most characters stand for themselves; a few letters
stand for control characters or begin a number, digits are not allowed but for a lone zero,
and the end of a line is passed over.
-/

/-- The UTF-16 code units of a character. -/
def codeUnits (character : Char) : List Nat :=
  if character.toNat < 0x10000 then [character.toNat]
  else [0xD800 + (character.toNat - 0x10000) / 0x400, 0xDC00 + (character.toNat - 0x10000) % 0x400]

/-- The UTF-16 code units of a text. -/
def utf16 (text : List Char) : List Nat :=
  text.flatMap codeUnits

def lineTerminators : List Char := ['\n', '\r', '\u2028', '\u2029']

/-- The control characters that are written as a letter. -/
def singleEscapes : List (Char × Nat) :=
  [('b', 8), ('t', 9), ('n', 10), ('v', 11), ('f', 12), ('r', 13)]

/-- The characters that do not stand for themselves behind a backslash. -/
def special : List Char :=
  ['b', 't', 'n', 'v', 'f', 'r', 'x', 'u', '0', '1', '2', '3', '4', '5', '6', '7', '8', '9'] ++ lineTerminators

def isHexDigit (character : Char) : Bool :=
  character.isDigit || ('a' ≤ character && character ≤ 'f') || ('A' ≤ character && character ≤ 'F')

def hexValue (digit : Char) : Nat :=
  if digit.isDigit then digit.toNat - 48 else digit.toLower.toNat - 87

def hexCode (digits : List Char) : Nat :=
  digits.foldl (fun code digit => 16 * code + hexValue digit) 0

/-- What stands between the quotes, and the code units of the value. -/
inductive LiteralValue : List Char -> List Nat -> Prop where
  | empty : LiteralValue [] []
  | plain {character : Char} {rest : List Char} {value : List Nat} (ordinary : character ≠ '\\')
      (others : LiteralValue rest value) : LiteralValue (character :: rest) (codeUnits character ++ value)
  | identity {character : Char} {rest : List Char} {value : List Nat} (ordinary : character ∉ special)
      (others : LiteralValue rest value) : LiteralValue ('\\' :: character :: rest) (codeUnits character ++ value)
  | single {letter : Char} {code : Nat} {rest : List Char} {value : List Nat} (known : (letter, code) ∈ singleEscapes)
      (others : LiteralValue rest value) : LiteralValue ('\\' :: letter :: rest) (code :: value)
  | null {rest : List Char} {value : List Nat} (alone : forall digit, rest.head? = some digit -> digit.isDigit = false)
      (others : LiteralValue rest value) : LiteralValue ('\\' :: '0' :: rest) (0 :: value)
  | hex {first second : Char} {rest : List Char} {value : List Nat}
      (digits : isHexDigit first = true ∧ isHexDigit second = true) (others : LiteralValue rest value) :
      LiteralValue ('\\' :: 'x' :: first :: second :: rest) (hexCode [first, second] :: value)
  | unicode {digits rest : List Char} {value : List Nat} (four : digits.length = 4)
      (hex : digits.all isHexDigit = true) (others : LiteralValue rest value) :
      LiteralValue ('\\' :: 'u' :: (digits ++ rest)) (hexCode digits :: value)
  | codePoint {digits rest : List Char} {value : List Nat} (nonempty : digits ≠ [])
      (hex : digits.all isHexDigit = true) (small : hexCode digits ≤ 0x10FFFF) (others : LiteralValue rest value) :
      LiteralValue ('\\' :: 'u' :: '\x7b' :: (digits ++ '\x7d' :: rest)) (codeUnits (Char.ofNat (hexCode digits)) ++ value)
  | continuation {terminator : Char} {rest : List Char} {value : List Nat} (known : terminator ∈ lineTerminators)
      (alone : terminator = '\r' -> rest.head? ≠ some '\n') (others : LiteralValue rest value) :
      LiteralValue ('\\' :: terminator :: rest) value
  | continuationPair {rest : List Char} {value : List Nat} (others : LiteralValue rest value) :
      LiteralValue ('\\' :: '\r' :: '\n' :: rest) value

/-- Whether behind every backslash stands a character that stands for itself. -/
def plainEscapes : List Char -> Bool
  | [] => true
  | [_] => true
  | first :: second :: rest =>
      if first = '\\' then decide (second ∉ special) && plainEscapes rest else plainEscapes (second :: rest)

/-- The text without the backslashes that escape a character, unless it ends with one. -/
def unescaped (escaped : Bool) : List Char -> Option (List Char)
  | [] => if escaped then none else some []
  | character :: rest =>
      if escaped then (unescaped false rest).map (character :: ·)
      else if character = '\\' then unescaped true rest
      else (unescaped false rest).map (character :: ·)

/-! ## Backslashes taken off -/

theorem unescaped_plain {character : Char} (ordinary : character ≠ '\\') (rest : List Char) :
    unescaped false (character :: rest) = (unescaped false rest).map (character :: ·) := by
  rw [unescaped, if_neg Bool.false_ne_true, if_neg ordinary]

theorem unescaped_escape (character : Char) (rest : List Char) :
    unescaped false ('\\' :: character :: rest) = (unescaped false rest).map (character :: ·) := by
  rw [unescaped, if_neg Bool.false_ne_true, if_pos rfl, unescaped, if_pos rfl]

theorem unescaped_append {text : List Char} (ordinary : '\\' ∉ text) (rest : List Char) :
    unescaped false (text ++ rest) = (unescaped false rest).map (text ++ ·) := by
  induction text with
  | nil => exact Option.map_id'.symm
  | cons character text ih =>
      rw [List.mem_cons, not_or] at ordinary
      rw [List.cons_append, unescaped_plain (Ne.symm ordinary.1), ih ordinary.2, Option.map_map]
      rfl

@[simp] theorem utf16_cons (character : Char) (rest : List Char) :
    utf16 (character :: rest) = codeUnits character ++ utf16 rest := rfl

theorem utf16_append (left right : List Char) : utf16 (left ++ right) = utf16 left ++ utf16 right :=
  List.flatMap_append

theorem codeUnits_length (character : Char) : 1 ≤ (codeUnits character).length ∧ (codeUnits character).length ≤ 2 := by
  rw [codeUnits]
  split
  · exact ⟨Nat.le_refl 1, Nat.le_succ 1⟩
  · exact ⟨Nat.le_succ 1, Nat.le_refl 2⟩

theorem length_le_utf16 (text : List Char) : text.length ≤ (utf16 text).length := by
  induction text with
  | nil => exact Nat.le_refl 0
  | cons character rest ih =>
      have first := (codeUnits_length character).1
      rw [utf16_cons, List.length_append, List.length_cons]
      omega

theorem not_backslash_of_hex {digits : List Char} (hex : digits.all isHexDigit = true) : '\\' ∉ digits := by
  intro member
  have digit := List.all_eq_true.mp hex '\\' member
  exact absurd digit (by decide)

theorem plainEscapes_plain {character : Char} (ordinary : character ≠ '\\') (rest : List Char) :
    plainEscapes (character :: rest) = plainEscapes rest := by
  cases rest with
  | nil => rfl
  | cons second rest => rw [plainEscapes, if_neg ordinary]

theorem plainEscapes_escape (character : Char) (rest : List Char) :
    plainEscapes ('\\' :: character :: rest) = (decide (character ∉ special) && plainEscapes rest) := by
  rw [plainEscapes, if_pos rfl]

/-! ## When the text without backslashes is the value -/

theorem value_of_unescaped {body text : List Char} {value : List Nat} (literal : LiteralValue body value)
    (read : unescaped false body = some text) :
    value.length ≤ (utf16 text).length ∧ (value = utf16 text -> plainEscapes body = true) := by
  induction literal generalizing text with
  | empty => exact ⟨Nat.zero_le _, fun _ => rfl⟩
  | @plain character rest value ordinary _ ih =>
      rw [unescaped_plain ordinary] at read
      rcases Option.map_eq_some_iff.mp read with ⟨others, later, same⟩
      have known := ih later
      rw [← same, utf16_cons, List.length_append, List.length_append, plainEscapes_plain ordinary]
      exact ⟨Nat.add_le_add_left known.1 _, fun equal => known.2 (List.append_cancel_left equal)⟩
  | @identity character rest value ordinary _ ih =>
      rw [unescaped_escape] at read
      rcases Option.map_eq_some_iff.mp read with ⟨others, later, same⟩
      have known := ih later
      rw [← same, utf16_cons, List.length_append, List.length_append, plainEscapes_escape, decide_eq_true ordinary,
        Bool.true_and]
      exact ⟨Nat.add_le_add_left known.1 _, fun equal => known.2 (List.append_cancel_left equal)⟩
  | @single letter code rest value escape _ ih =>
      rw [unescaped_escape] at read
      rcases Option.map_eq_some_iff.mp read with ⟨others, later, same⟩
      have known := ih later
      have different : forall entry, entry ∈ singleEscapes -> codeUnits entry.1 = [entry.1.toNat] ∧
          entry.2 ≠ entry.1.toNat := by
        decide
      have own := different _ escape
      rw [← same, utf16_cons, own.1]
      refine ⟨Nat.succ_le_succ known.1, fun equal => ?_⟩
      exact absurd (List.cons.inj equal).1 own.2
  | @null rest value _ _ ih =>
      rw [unescaped_escape] at read
      rcases Option.map_eq_some_iff.mp read with ⟨others, later, same⟩
      have known := ih later
      rw [← same, utf16_cons, show codeUnits '0' = [48] from rfl]
      refine ⟨Nat.succ_le_succ known.1, fun equal => ?_⟩
      exact absurd (List.cons.inj equal).1 (by decide)
  | @hex first second rest value digits _ ih =>
      have ordinary : '\\' ∉ [first, second] :=
        not_backslash_of_hex (by rw [List.all_cons, List.all_cons, digits.1, digits.2]; rfl)
      rw [unescaped_escape, show first :: second :: rest = [first, second] ++ rest from rfl,
        unescaped_append ordinary] at read
      simp only [Option.map_map, Option.map_eq_some_iff] at read
      rcases read with ⟨others, later, same⟩
      have known := ih later
      have long := length_le_utf16 ('x' :: [first, second])
      have shorter : (hexCode [first, second] :: value).length < (utf16 text).length := by
        rw [← same]
        show _ < (utf16 ('x' :: [first, second] ++ others)).length
        rw [utf16_append, List.length_append]
        simp only [List.length_cons, List.length_nil] at long ⊢
        omega
      exact ⟨Nat.le_of_lt shorter, fun equal => absurd (congrArg List.length equal) (Nat.ne_of_lt shorter)⟩
  | @unicode digits rest value four hex _ ih =>
      rw [unescaped_escape, unescaped_append (not_backslash_of_hex hex)] at read
      simp only [Option.map_map, Option.map_eq_some_iff] at read
      rcases read with ⟨others, later, same⟩
      have known := ih later
      have long := length_le_utf16 ('u' :: digits)
      have shorter : (hexCode digits :: value).length < (utf16 text).length := by
        rw [← same]
        show _ < (utf16 ('u' :: digits ++ others)).length
        rw [utf16_append, List.length_append]
        simp only [List.length_cons] at long ⊢
        omega
      exact ⟨Nat.le_of_lt shorter, fun equal => absurd (congrArg List.length equal) (Nat.ne_of_lt shorter)⟩
  | @codePoint digits rest value nonempty hex _ _ ih =>
      have ordinary : '\\' ∉ '\x7b' :: (digits ++ ['\x7d']) := by
        simp [not_backslash_of_hex hex]
      rw [unescaped_escape, show '\x7b' :: (digits ++ '\x7d' :: rest) = '\x7b' :: (digits ++ ['\x7d']) ++ rest by simp,
        unescaped_append ordinary] at read
      simp only [Option.map_map, Option.map_eq_some_iff] at read
      rcases read with ⟨others, later, same⟩
      have known := ih later
      have long := length_le_utf16 ('u' :: '\x7b' :: (digits ++ ['\x7d']))
      have short := (codeUnits_length (Char.ofNat (hexCode digits))).2
      have shorter : (codeUnits (Char.ofNat (hexCode digits)) ++ value).length < (utf16 text).length := by
        rw [← same]
        show _ < (utf16 ('u' :: '\x7b' :: (digits ++ ['\x7d']) ++ others)).length
        rw [utf16_append, List.length_append, List.length_append]
        simp only [List.length_cons, List.length_append, List.length_nil] at long ⊢
        omega
      exact ⟨Nat.le_of_lt shorter, fun equal => absurd (congrArg List.length equal) (Nat.ne_of_lt shorter)⟩
  | @continuation terminator rest value _ _ _ ih =>
      rw [unescaped_escape] at read
      rcases Option.map_eq_some_iff.mp read with ⟨others, later, same⟩
      have known := ih later
      have shorter : value.length < (utf16 text).length := by
        have first := (codeUnits_length terminator).1
        rw [← same, utf16_cons, List.length_append]
        omega
      exact ⟨Nat.le_of_lt shorter, fun equal => absurd (congrArg List.length equal) (Nat.ne_of_lt shorter)⟩
  | @continuationPair rest value _ ih =>
      rw [unescaped_escape, unescaped_plain (by decide)] at read
      simp only [Option.map_map, Option.map_eq_some_iff] at read
      rcases read with ⟨others, later, same⟩
      have known := ih later
      have shorter : value.length < (utf16 text).length := by
        rw [← same]
        show _ < (utf16 ('\r' :: '\n' :: others)).length
        rw [utf16_cons, utf16_cons, List.length_append, List.length_append, show codeUnits '\r' = [13] from rfl]
        simp only [List.length_cons, List.length_nil]
        omega
      exact ⟨Nat.le_of_lt shorter, fun equal => absurd (congrArg List.length equal) (Nat.ne_of_lt shorter)⟩

theorem literalValue_of_plainEscapes {body text : List Char} (plain : plainEscapes body = true)
    (read : unescaped false body = some text) : LiteralValue body (utf16 text) := by
  induction body using plainEscapes.induct generalizing text with
  | case1 =>
      cases read
      exact LiteralValue.empty
  | case2 character =>
      by_cases escape : character = '\\'
      · rw [escape] at read
        cases read
      · rw [unescaped_plain escape] at read
        cases read
        exact LiteralValue.plain escape LiteralValue.empty
  | case3 character rest ih =>
      rw [unescaped_escape] at read
      rw [plainEscapes_escape, Bool.and_eq_true, decide_eq_true_iff] at plain
      rcases Option.map_eq_some_iff.mp read with ⟨others, later, same⟩
      rw [← same, utf16_cons]
      exact LiteralValue.identity plain.1 (ih plain.2 later)
  | case4 character second rest ordinary ih =>
      rw [unescaped_plain ordinary] at read
      rw [plainEscapes_plain ordinary] at plain
      rcases Option.map_eq_some_iff.mp read with ⟨others, later, same⟩
      rw [← same, utf16_cons]
      exact LiteralValue.plain ordinary (ih plain later)

/-- The text without backslashes is the value exactly when every escaped character stands for
itself. -/
theorem literalValue_unescaped_iff {body text : List Char} (read : unescaped false body = some text) :
    LiteralValue body (utf16 text) ↔ plainEscapes body = true :=
  ⟨fun literal => (value_of_unescaped literal read).2 rfl, fun plain => literalValue_of_plainEscapes plain read⟩

end StringLiteral
end AIBuddy
