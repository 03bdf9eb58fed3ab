import Mathlib.Data.List.Infix

namespace AIBuddy

/-!
# Lower case

The lower case of a text takes that of its characters one by one, which may be several.  Only a
capital sigma looks around: at the end of a word it has a form of its own.  What the characters
become is a table of Unicode, of which few properties are used.
-/

/-- The lower case of characters, and whether a sigma between two texts ends a word. -/
structure UnicodeCase where
  lower : Char -> List Char
  endsWord : List Char -> List Char -> Bool
  ascii : forall character, character.toNat < 128 -> lower character = [character.toLower]
  settled : forall character result, result ∈ lower character -> lower result = [result]
  sigma : lower 'Σ' = ['σ']
  finalSigma : lower 'ς' = ['ς']

namespace UnicodeCase

variable (unicode : UnicodeCase)

/-- The lower case of a text behind another, which stands reversed. -/
def lowercaseFrom (before : List Char) : List Char -> List Char
  | [] => []
  | character :: rest =>
      (if character = 'Σ' then [if unicode.endsWord before rest then 'ς' else 'σ'] else unicode.lower character) ++
        lowercaseFrom (character :: before) rest

def toLowercase (text : List Char) : List Char :=
  unicode.lowercaseFrom [] text

/-- A character that is its own lower case. -/
def Settled (character : Char) : Prop :=
  unicode.lower character = [character]

variable {unicode}

theorem settled_of_mem {text before : List Char} {character : Char}
    (member : character ∈ unicode.lowercaseFrom before text) : unicode.Settled character := by
  induction text generalizing before with
  | nil => cases member
  | cons first rest ih =>
      rcases List.mem_append.mp member with here | later
      · split at here
        · rw [List.mem_singleton.mp here]
          split
          · exact unicode.finalSigma
          · exact unicode.settled 'Σ' 'σ' (unicode.sigma ▸ List.mem_singleton_self _)
        · exact unicode.settled first character here
      · exact ih later

theorem toLower_of_large {character : Char} (large : ¬ character.toNat < 128) : character.toLower = character := by
  delta Char.toLower
  rw [dif_neg]
  rintro ⟨_, upper⟩
  exact large (Nat.lt_of_le_of_lt (UInt32.le_iff_toNat_le.mp upper) (by decide))

theorem Settled.toLower {character : Char} (settled : unicode.Settled character) :
    character.toLower = character := by
  by_cases small : character.toNat < 128
  · exact (List.cons.inj ((unicode.ascii character small).symm.trans settled)).1
  · exact toLower_of_large small

theorem toLower_toLower (unicode : UnicodeCase) (character : Char) :
    character.toLower.toLower = character.toLower := by
  by_cases small : character.toNat < 128
  · have lowered : character.toLower ∈ unicode.lower character := by
      rw [unicode.ascii character small]
      exact List.mem_singleton_self _
    exact Settled.toLower (unicode.settled character _ lowered)
  · rw [toLower_of_large small, toLower_of_large small]

theorem lower_of_settled {character : Char} (settled : unicode.Settled character.toLower) :
    unicode.lower character = [character.toLower] := by
  by_cases small : character.toNat < 128
  · exact unicode.ascii character small
  · rw [toLower_of_large small] at settled ⊢
    exact settled

theorem lowercaseFrom_append (front back before : List Char) : Exists fun result =>
    unicode.lowercaseFrom before (front ++ back) = result ++ unicode.lowercaseFrom (front.reverse ++ before) back := by
  induction front generalizing before with
  | nil => exact ⟨[], rfl⟩
  | cons first rest ih =>
      rcases ih (first :: before) with ⟨result, same⟩
      rw [List.cons_append, lowercaseFrom, same, ← List.append_assoc, List.reverse_cons, List.append_assoc rest.reverse]
      exact ⟨_, rfl⟩

theorem lowercaseFrom_settled {front : List Char}
    (settled : forall character, character ∈ front -> unicode.Settled character.toLower) (back before : List Char) :
    unicode.lowercaseFrom before (front ++ back) =
      front.map Char.toLower ++ unicode.lowercaseFrom (front.reverse ++ before) back := by
  induction front generalizing before with
  | nil => rfl
  | cons first rest ih =>
      have here := settled first List.mem_cons_self
      have notSigma : first ≠ 'Σ' := by
        intro same
        rw [same] at here
        have own : unicode.lower 'Σ' = ['Σ'] := here
        exact absurd (unicode.sigma.symm.trans own) (by decide)
      rw [List.cons_append, lowercaseFrom, if_neg notSigma, lower_of_settled here,
        ih fun character member => settled character (List.mem_cons_of_mem _ member)]
      simp

theorem infix_toLowercase {word text : List Char} (found : unicode.toLowercase word <:+: text.map Char.toLower) :
    unicode.toLowercase word <:+: unicode.toLowercase text := by
  rcases found with ⟨before, behind, whole⟩
  rcases List.append_eq_map_iff.mp whole with ⟨others, back, rfl, kept, rfl⟩
  rcases List.map_eq_append_iff.mp kept with ⟨front, inside, rfl, rfl, same⟩
  have settled : forall character, character ∈ inside -> unicode.Settled character.toLower := by
    intro character member
    have lowered : character.toLower ∈ unicode.toLowercase word := same ▸ List.mem_map_of_mem member
    exact settled_of_mem lowered
  rcases @lowercaseFrom_append unicode front (inside ++ back) [] with ⟨start, split⟩
  rw [lowercaseFrom_settled settled, same, ← List.append_assoc start] at split
  rw [List.append_assoc front]
  exact ⟨start, _, split.symm⟩

end UnicodeCase

end AIBuddy
