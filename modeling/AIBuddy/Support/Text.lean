import Mathlib.Data.List.DropRight

namespace AIBuddy
namespace Text

/-!
# Whitespace and separators

Trimming removes the longest suffix, or prefix, of characters with the Unicode
White_Space property.  A text is blank when nothing but such characters occurs in it, which
is the same as its trimmed form being empty.
-/

/-- The characters with the Unicode White_Space property. -/
def isWhitespace (character : Char) : Bool :=
  let code := character.toNat
  (0x9 ≤ code && code ≤ 0xD) || code == 0x20 || code == 0x85 || code == 0xA0 || code == 0x1680 ||
    (0x2000 ≤ code && code ≤ 0x200A) || code == 0x2028 || code == 0x2029 || code == 0x202F ||
    code == 0x205F || code == 0x3000

/-- A text without its trailing whitespace. -/
def trimEnd (text : String) : String :=
  String.ofList (text.toList.rdropWhile isWhitespace)

/-- A text without its leading whitespace. -/
def trimStart (text : String) : String :=
  String.ofList (text.toList.dropWhile isWhitespace)

def trim (text : String) : String :=
  trimStart (trimEnd text)

/-- The text behind a leading character, when it starts with it. -/
def stripPrefixChar (leading : Char) (text : String) : Option String :=
  match text.toList with
  | first :: rest => if first = leading then some (String.ofList rest) else none
  | [] => none

/-- The texts before and behind the first occurrence of a separator. -/
def splitOnce (separator : Char) (text : String) : Option (String × String) :=
  match text.toList.dropWhile (· != separator) with
  | _ :: rest => some (String.ofList (text.toList.takeWhile (· != separator)), String.ofList rest)
  | [] => none

def startsWith (leading text : String) : Bool :=
  leading.toList.isPrefixOf text.toList

/-- The text behind a leading text, when it starts with it. -/
def stripPrefix (leading text : String) : Option String :=
  if startsWith leading text then some (String.ofList (text.toList.drop leading.toList.length)) else none

/-- The text before a trailing text, when it ends with it. -/
def stripSuffix (trailing text : String) : Option String :=
  if trailing.toList.isSuffixOf text.toList then
    some (String.ofList (text.toList.take (text.toList.length - trailing.toList.length)))
  else none

/-- The first part of a text without whitespace. -/
def firstWord (text : String) : Option String :=
  match (text.toList.dropWhile isWhitespace).takeWhile fun character => !isWhitespace character with
  | [] => none
  | word => some (String.ofList word)

/-- A text made of whitespace only, the empty text included. -/
def isBlank (text : String) : Bool :=
  text.toList.all isWhitespace

theorem startsWith_append (leading text : String) : startsWith leading (leading ++ text) = true := by
  simp [startsWith, String.toList_append]

@[simp] theorem stripPrefix_append (leading text : String) : stripPrefix leading (leading ++ text) = some text := by
  rw [stripPrefix, if_pos (startsWith_append leading text), String.toList_append, List.drop_left, String.ofList_toList]

theorem trim_infix (text : String) : (trim text).toList <:+: text.toList := by
  rw [trim, trimStart, trimEnd, String.toList_ofList, String.toList_ofList]
  exact (List.dropWhile_suffix _).isInfix.trans (List.rdropWhile_prefix _ _).isInfix

@[simp] theorem stripSuffix_append (text trailing : String) : stripSuffix trailing (text ++ trailing) = some text := by
  have ends : trailing.toList.isSuffixOf (text ++ trailing).toList = true := by
    rw [String.toList_append, List.isSuffixOf_iff_suffix]
    exact List.suffix_append _ _
  rw [stripSuffix, if_pos ends, String.toList_append, List.length_append, Nat.add_sub_cancel, List.take_left,
    String.ofList_toList]

theorem toList_trimEnd (text : String) : Exists fun white => text.toList = (trimEnd text).toList ++ white ∧
    forall character, character ∈ white -> isWhitespace character = true := by
  rw [trimEnd, String.toList_ofList]
  exact ⟨_, (List.rdropWhile_append_rtakeWhile ..).symm, fun character member => List.mem_rtakeWhile_imp member⟩

theorem toList_trimStart (text : String) : Exists fun white => text.toList = white ++ (trimStart text).toList ∧
    forall character, character ∈ white -> isWhitespace character = true := by
  rw [trimStart, String.toList_ofList]
  exact ⟨_, List.takeWhile_append_dropWhile.symm, fun character member => List.mem_takeWhile_imp member⟩

theorem toList_of_stripPrefix {leading text rest : String} (stripped : stripPrefix leading text = some rest) :
    text.toList = leading.toList ++ rest.toList := by
  rw [stripPrefix] at stripped
  split at stripped
  · rename_i starts
    rcases List.isPrefixOf_iff_prefix.mp starts with ⟨others, same⟩
    rw [← Option.some.inj stripped, ← same, List.drop_left, String.toList_ofList]
  · cases stripped

theorem toList_of_stripSuffix {trailing text rest : String} (stripped : stripSuffix trailing text = some rest) :
    text.toList = rest.toList ++ trailing.toList := by
  rw [stripSuffix] at stripped
  split at stripped
  · rename_i ends
    rcases List.isSuffixOf_iff_suffix.mp ends with ⟨others, same⟩
    rw [← Option.some.inj stripped, ← same, List.length_append, Nat.add_sub_cancel, List.take_left,
      String.toList_ofList]
  · cases stripped

theorem toList_of_splitOnce {separator : Char} {text : String} {parts : String × String}
    (split : splitOnce separator text = some parts) :
    text.toList = parts.1.toList ++ separator :: parts.2.toList ∧ separator ∉ parts.1.toList := by
  rw [splitOnce] at split
  cases behind : text.toList.dropWhile (· != separator) with
  | nil =>
      rw [behind] at split
      cases split
  | cons character rest =>
      rw [behind] at split
      have found := List.head_dropWhile_not (· != separator) (l := text.toList) (by rw [behind]; exact List.cons_ne_nil _ _)
      simp only [behind, List.head_cons, bne_eq_false_iff_eq] at found
      rw [← Option.some.inj split, String.toList_ofList, String.toList_ofList]
      constructor
      · have whole := List.takeWhile_append_dropWhile (p := (· != separator)) (l := text.toList)
        rw [behind, found] at whole
        exact whole.symm
      · intro member
        have different := List.mem_takeWhile_imp member
        rw [bne_self_eq_false] at different
        cases different

@[simp] theorem isBlank_empty : isBlank "" = true := rfl

@[simp] theorem isBlank_append (left right : String) :
    isBlank (left ++ right) = (isBlank left && isBlank right) := by
  simp [isBlank, String.toList_append]

@[simp] theorem trimEnd_trimEnd (text : String) : trimEnd (trimEnd text) = trimEnd text := by
  simp [trimEnd, List.rdropWhile_idempotent]

@[simp] theorem trimEnd_empty : trimEnd "" = "" := rfl

theorem trimEnd_eq_empty_iff (text : String) : trimEnd text = "" ↔ isBlank text = true := by
  rw [← String.toList_inj]
  simp [trimEnd, isBlank, List.rdropWhile_eq_nil_iff]

@[simp] theorem isBlank_trimEnd (text : String) : isBlank (trimEnd text) = isBlank text := by
  rw [Bool.eq_iff_iff, ← trimEnd_eq_empty_iff, ← trimEnd_eq_empty_iff, trimEnd_trimEnd]

theorem isBlank_of_intercalate {separator : String} {parts : List String}
    (blank : isBlank (separator.intercalate parts) = true) (part : String) (member : part ∈ parts) :
    isBlank part = true := by
  have inside : forall parts : List (List Char), forall part, part ∈ parts -> forall character, character ∈ part ->
      character ∈ separator.toList.intercalate parts := by
    intro parts
    induction parts with
    | nil =>
        intro part member
        cases member
    | cons first others ih =>
        intro part member character inPart
        by_cases last : others = []
        · rw [last, List.mem_singleton] at member
          rw [last, List.intercalate_singleton, ← member]
          exact inPart
        · rw [List.intercalate_cons_of_ne_nil last, List.mem_append, List.mem_append]
          rcases List.mem_cons.mp member with here | later
          · exact Or.inl (Or.inl (here ▸ inPart))
          · exact Or.inr (ih part later character inPart)
  rw [isBlank, List.all_eq_true] at blank ⊢
  intro character inPart
  apply blank
  rw [String.toList_intercalate]
  exact inside _ _ (List.mem_map_of_mem member) character inPart

theorem trimEnd_length_eq_iff (text : String) :
    (trimEnd text).length = text.length ↔ trimEnd text = text := by
  constructor
  · intro sameLength
    have kept : text.toList.rdropWhile isWhitespace <+: text.toList := List.rdropWhile_prefix isWhitespace text.toList
    have sameList : text.toList.rdropWhile isWhitespace = text.toList := by
      apply kept.eq_of_length
      simpa [trimEnd, ← String.length_toList] using sameLength
    rw [trimEnd, sameList, String.ofList_toList]
  · intro same
    rw [same]

end Text
end AIBuddy
