import Mathlib.Algebra.BigOperators.Group.List.Basic
import Mathlib.Algebra.GroupWithZero.Nat

namespace AIBuddy

/-!
# Byte offsets in a text

A text is a list of characters, and offsets count the bytes of its UTF-8 encoding.  A text can be
cut at an offset only where a character begins.
-/

/-- The length of a text in bytes. -/
def utf8Length (text : List Char) : Nat :=
  (text.map Char.utf8Size).sum

theorem utf8Length_append (left right : List Char) :
    utf8Length (left ++ right) = utf8Length left + utf8Length right := by
  simp [utf8Length]

theorem utf8Length_cons (first : Char) (rest : List Char) :
    utf8Length (first :: rest) = first.utf8Size + utf8Length rest := by
  simp [utf8Length]

namespace ByteOffsets

theorem eq_nil_of_utf8Length_eq_zero {text : List Char} (empty : utf8Length text = 0) : text = [] := by
  cases text with
  | nil => rfl
  | cons first rest =>
      have size := first.utf8Size_pos
      rw [utf8Length_cons] at empty
      omega

/-! ## Cutting -/

/-- The text before an offset and the text behind it. -/
def splitBytes : Nat -> List Char -> Option (List Char × List Char)
  | 0, text => some ([], text)
  | _ + 1, [] => none
  | bytes + 1, first :: rest =>
      if first.utf8Size ≤ bytes + 1 then
        (splitBytes (bytes + 1 - first.utf8Size) rest).map fun parts => (first :: parts.1, parts.2)
      else none

theorem splitBytes_append (front back : List Char) : splitBytes (utf8Length front) (front ++ back) = some (front, back) := by
  induction front with
  | nil => cases back <;> rfl
  | cons first rest ih =>
      have size := first.utf8Size_pos
      rcases Nat.exists_eq_succ_of_ne_zero (show utf8Length (first :: rest) ≠ 0 by rw [utf8Length_cons]; omega) with
        ⟨bytes, length⟩
      rw [utf8Length_cons] at length
      rw [utf8Length_cons, length, List.cons_append, splitBytes, if_pos (by omega)]
      have left : bytes + 1 - first.utf8Size = utf8Length rest := by omega
      rw [left, ih]
      rfl

theorem splitBytes_eq_some_iff (bytes : Nat) (text front back : List Char) :
    splitBytes bytes text = some (front, back) ↔ text = front ++ back ∧ utf8Length front = bytes := by
  constructor
  · intro cut
    induction text generalizing bytes front with
    | nil =>
        cases bytes with
        | zero =>
            cases cut
            exact ⟨rfl, rfl⟩
        | succ bytes => cases cut
    | cons first rest ih =>
        cases bytes with
        | zero =>
            cases cut
            exact ⟨rfl, rfl⟩
        | succ bytes =>
            unfold splitBytes at cut
            split at cut
            · case _ fits =>
                rcases Option.map_eq_some_iff.mp cut with ⟨⟨before, after⟩, inRest, same⟩
                cases same
                rcases ih _ _ inRest with ⟨rfl, length⟩
                refine ⟨rfl, ?_⟩
                rw [utf8Length_cons, length]
                omega
            · contradiction
  · rintro ⟨rfl, rfl⟩
    exact splitBytes_append front back

theorem splitBytes_extend {bytes : Nat} {text front back : List Char} (cut : splitBytes bytes text = some (front, back))
    (more : List Char) : splitBytes bytes (text ++ more) = some (front, back ++ more) := by
  rcases (splitBytes_eq_some_iff _ _ _ _).mp cut with ⟨rfl, rfl⟩
  rw [List.append_assoc]
  exact splitBytes_append _ _

/-- The text between two offsets. -/
def sliceBytes (start stop : Nat) (text : List Char) : Option (List Char) :=
  if stop < start then none
  else do
    let parts <- splitBytes start text
    let inner <- splitBytes (stop - start) parts.2
    return inner.1

theorem sliceBytes_append (front middle back : List Char) :
    sliceBytes (utf8Length front) (utf8Length front + utf8Length middle) (front ++ (middle ++ back)) = some middle := by
  unfold sliceBytes
  rw [if_neg (by omega), splitBytes_append]
  change (splitBytes (utf8Length front + utf8Length middle - utf8Length front) (middle ++ back) >>= _) = _
  rw [Nat.add_sub_cancel_left, splitBytes_append]
  rfl

/-! ## Finding -/

/-- The offset of the first occurrence of a character. -/
def findChar (wanted : Char) (text : List Char) : Option Nat :=
  if wanted ∈ text then some (utf8Length (text.takeWhile fun character => character != wanted)) else none

theorem findChar_eq_none_iff (wanted : Char) (text : List Char) : findChar wanted text = none ↔ wanted ∉ text := by
  simp [findChar]

theorem findChar_append {wanted : Char} {before : List Char} (absent : wanted ∉ before) (after : List Char) :
    findChar wanted (before ++ wanted :: after) = some (utf8Length before) := by
  have other : forall character, character ∈ before -> (character != wanted) = true := by
    rintro character member
    exact bne_iff_ne.mpr fun same => absent (same ▸ member)
  rw [findChar, if_pos (List.mem_append_right _ (List.mem_cons_self ..)), List.takeWhile_append_of_pos other,
    List.takeWhile_cons_of_neg (by simp), List.append_nil]

theorem findChar_eq_some {wanted : Char} {text : List Char} {offset : Nat} (found : findChar wanted text = some offset) :
    Exists fun before => Exists fun after =>
      text = before ++ wanted :: after ∧ wanted ∉ before ∧ utf8Length before = offset := by
  have member : wanted ∈ text := by
    by_contra absent
    rw [(findChar_eq_none_iff wanted text).mpr absent] at found
    contradiction
  rcases List.eq_append_cons_of_mem member with ⟨before, after, rfl, absent⟩
  rw [findChar_append absent] at found
  exact ⟨before, after, rfl, absent, Option.some.inj found⟩

theorem findChar_extend {wanted : Char} {text : List Char} {offset : Nat} (found : findChar wanted text = some offset)
    (more : List Char) : findChar wanted (text ++ more) = some offset := by
  rcases findChar_eq_some found with ⟨before, after, rfl, absent, rfl⟩
  rw [List.append_assoc, List.cons_append, findChar_append absent]

/-- Whether the byte at an offset is an ASCII character.  The bytes of other characters are none. -/
def byteIs (wanted : Char) : List Char -> Nat -> Option Bool
  | [], _ => none
  | first :: rest, index =>
      if index < first.utf8Size then some (index == 0 && first == wanted) else byteIs wanted rest (index - first.utf8Size)

theorem byteIs_append (wanted : Char) (front : List Char) (character : Char) (back : List Char) :
    byteIs wanted (front ++ character :: back) (utf8Length front) = some (character == wanted) := by
  induction front with
  | nil =>
      have size := character.utf8Size_pos
      change byteIs wanted (character :: back) 0 = _
      rw [byteIs, if_pos size]
      rfl
  | cons first rest ih =>
      rw [List.cons_append, byteIs, utf8Length_cons, if_neg (by omega), Nat.add_sub_cancel_left, ih]

theorem byteIs_extend {wanted : Char} {text : List Char} {index : Nat} {answer : Bool}
    (known : byteIs wanted text index = some answer) (more : List Char) :
    byteIs wanted (text ++ more) index = some answer := by
  induction text generalizing index with
  | nil => cases known
  | cons first rest ih =>
      rw [List.cons_append]
      unfold byteIs at known ⊢
      split
      · case _ here =>
          rw [if_pos here] at known
          exact known
      · case _ later =>
          rw [if_neg later] at known
          exact ih known

end ByteOffsets

end AIBuddy
