import AIBuddy.Support.JsonText

namespace AIBuddy
namespace JsonText

/-!
# Writing JSON values

Every value whose objects have distinct keys has a text: the one without spaces, in which
quotes, backslashes and control characters are escaped.
-/

/-! ## Members -/

theorem insert_of_fresh {object : JsonObject} {key : String} (fresh : key ∉ object.map Prod.fst) (value : Json) :
    JsonObject.insert object key value = object ++ [(key, value)] := by
  induction object with
  | nil => rfl
  | cons member rest ih =>
      rw [List.map_cons, List.mem_cons, not_or] at fresh
      rw [JsonObject.insert, if_neg (Ne.symm fresh.1), ih fresh.2, List.cons_append]

theorem ofMembers_eq {members : List (String × Json)} (distinct : (members.map Prod.fst).Nodup) :
    ofMembers members = members := by
  have all : forall before : JsonObject, ((before ++ members).map Prod.fst).Nodup ->
      members.foldl (fun object member => JsonObject.insert object member.1 member.2) before = before ++ members := by
    clear distinct
    induction members with
    | nil =>
        intro before distinct
        rw [List.foldl_nil, List.append_nil]
    | cons member rest ih =>
        intro before distinct
        have fresh : member.1 ∉ before.map Prod.fst := by
          intro present
          rw [List.map_append, List.map_cons] at distinct
          exact (List.nodup_append.mp distinct).2.2 member.1 present member.1 List.mem_cons_self rfl
        rw [List.foldl_cons, insert_of_fresh fresh, ih _ (by simpa using distinct)]
        simp
  exact all [] distinct

/-! ## Values -/

def lowHexDigit (digit : Nat) : Char :=
  if digit < 10 then Char.ofNat (48 + digit) else Char.ofNat (87 + digit)

/-- A character as it is written in a string. -/
def spell (character : Char) : List Char :=
  if character = '\x22' then ['\\', '\x22']
  else if character = '\\' then ['\\', '\\']
  else if character.toNat < 0x20 then
    ['\\', 'u', '0', '0', lowHexDigit (character.toNat / 16), lowHexDigit (character.toNat % 16)]
  else [character]

theorem spelled_spell (character : Char) : Spelled (spell character) character := by
  have controls : forall code : Fin 0x20,
      (['0', '0', lowHexDigit (code / 16), lowHexDigit (code % 16)].all fun digit => digit ∈ hexDigits) ∧
        hexCode ['0', '0', lowHexDigit (code / 16), lowHexDigit (code % 16)] = code := by
    decide
  unfold spell
  split
  case isTrue quote =>
      rw [quote]
      exact Spelled.escape rfl
  case isFalse noQuote =>
      split
      case isTrue backslash =>
          rw [backslash]
          exact Spelled.escape rfl
      case isFalse noBackslash =>
          split
          case isTrue control =>
              rcases controls ⟨character.toNat, control⟩ with ⟨hex, code⟩
              have same : Char.ofNat (hexCode ['0', '0', lowHexDigit (character.toNat / 16),
                  lowHexDigit (character.toNat % 16)]) = character := by
                rw [code, Char.ofNat_toNat]
              have written := Spelled.code rfl (List.all_iff_forall_prop.mp hex) (by rw [code]; exact character.valid)
              rw [same] at written
              exact written
          case isFalse plain => exact Spelled.ordinary ⟨noQuote, noBackslash, Nat.le_of_not_lt plain⟩

theorem stringBody_spell (text : List Char) : StringBody (text.flatMap spell) text := by
  induction text with
  | nil => exact StringBody.empty
  | cons character rest ih => exact StringBody.cons (spelled_spell character) ih

/-- Numbers that are all written as zero, for texts without numbers. -/
def zeroNumbers : Numbers where
  spells text _ := text = ['0']
  write _ := ['0']
  numerals := by
    intro text number spelled character member
    rw [spelled, List.mem_singleton] at member
    rw [member]
    decide
  spells_write _ := rfl

mutual

/-- The text of a value without spaces. -/
def render (numbers : Numbers) : Json -> List Char
  | .null => ['n', 'u', 'l', 'l']
  | .bool true => ['t', 'r', 'u', 'e']
  | .bool false => ['f', 'a', 'l', 's', 'e']
  | .number number => numbers.write number
  | .string text => quoted (text.toList.flatMap spell)
  | .array items => '[' :: (renderItems numbers items ++ [']'])
  | .object members => '\x7b' :: (renderMembers numbers members ++ ['\x7d'])

def renderItems (numbers : Numbers) : List Json -> List Char
  | [] => []
  | [item] => render numbers item
  | item :: other :: rest => render numbers item ++ ',' :: renderItems numbers (other :: rest)

def renderMembers (numbers : Numbers) : List (String × Json) -> List Char
  | [] => []
  | [(key, value)] => quoted (key.toList.flatMap spell) ++ ':' :: render numbers value
  | (key, value) :: other :: rest =>
      quoted (key.toList.flatMap spell) ++ ':' :: render numbers value ++ ',' :: renderMembers numbers (other :: rest)

end

mutual

/-- Whether all objects of a value have distinct keys. -/
def distinctKeys : Json -> Bool
  | .array items => distinctItems items
  | .object members => decide (members.map Prod.fst).Nodup && distinctMembers members
  | _ => true

def distinctItems : List Json -> Bool
  | [] => true
  | item :: rest => distinctKeys item && distinctItems rest

def distinctMembers : List (String × Json) -> Bool
  | [] => true
  | (_, value) :: rest => distinctKeys value && distinctMembers rest

end

theorem blank_nil : Blank [] := by
  intro character member
  cases member

theorem Written.plain {numbers : Numbers} {text : List Char} {value : Json}
    (written : Written numbers text (.value value)) : Written numbers text (.document value) := by
  have padded := Written.document blank_nil written blank_nil
  rw [List.nil_append, List.append_nil] at padded
  exact padded

theorem written_member {numbers : Numbers} {text : List Char} {key : String} {value : Json}
    (written : Written numbers text (.value value)) :
    Written numbers (quoted (key.toList.flatMap spell) ++ ':' :: text) (.members [(key, value)]) := by
  have member := Written.lastMember blank_nil (stringBody_spell key.toList) blank_nil written.plain
  rw [String.ofList_toList, List.nil_append, List.append_nil] at member
  exact member

mutual

theorem written_render (numbers : Numbers) (value : Json) (distinct : distinctKeys value = true) :
    Written numbers (render numbers value) (.value value) := by
  match value with
  | .null => exact Written.null
  | .bool true => exact Written.isTrue
  | .bool false => exact Written.isFalse
  | .number number => exact Written.number (numbers.spells_write number)
  | .string text =>
      have written := @Written.string numbers _ _ (stringBody_spell text.toList)
      rw [String.ofList_toList] at written
      exact written
  | .array [] => exact Written.emptyArray blank_nil
  | .array (item :: rest) =>
      exact Written.array (written_renderItems numbers (item :: rest) (List.cons_ne_nil _ _) distinct)
  | .object [] => exact Written.emptyObject blank_nil
  | .object (member :: rest) =>
      rw [distinctKeys, Bool.and_eq_true, decide_eq_true_iff] at distinct
      have written := Written.object
        (written_renderMembers numbers (member :: rest) (List.cons_ne_nil _ _) distinct.2)
      rw [ofMembers_eq distinct.1] at written
      exact written
termination_by sizeOf value

theorem written_renderItems (numbers : Numbers) (items : List Json) (some : items ≠ [])
    (distinct : distinctItems items = true) : Written numbers (renderItems numbers items) (.items items) := by
  match items with
  | [] => exact absurd rfl some
  | [item] =>
      rw [distinctItems, Bool.and_eq_true] at distinct
      exact Written.lastItem (written_render numbers item distinct.1).plain
  | item :: other :: rest =>
      rw [distinctItems, Bool.and_eq_true] at distinct
      exact Written.moreItems (written_render numbers item distinct.1).plain
        (written_renderItems numbers (other :: rest) (List.cons_ne_nil _ _) distinct.2)
termination_by sizeOf items

theorem written_renderMembers (numbers : Numbers) (members : List (String × Json)) (some : members ≠ [])
    (distinct : distinctMembers members = true) :
    Written numbers (renderMembers numbers members) (.members members) := by
  match members with
  | [] => exact absurd rfl some
  | [(key, value)] =>
      rw [distinctMembers, Bool.and_eq_true] at distinct
      exact written_member (written_render numbers value distinct.1)
  | (key, value) :: other :: rest =>
      rw [distinctMembers, Bool.and_eq_true] at distinct
      exact Written.moreMembers (written_member (written_render numbers value distinct.1))
        (written_renderMembers numbers (other :: rest) (List.cons_ne_nil _ _) distinct.2)
termination_by sizeOf members

end

end JsonText
end AIBuddy
