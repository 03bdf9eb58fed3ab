import Mathlib.Data.List.Infix
import AIBuddy.Config.Permission
import AIBuddy.Support.Text

namespace AIBuddy

/-!
# Tools of extensions

The tools of an extension are stored under its key, two separators and their names.  A key may
itself have separators, so the key of one extension can be read off the tools of another.
-/

/-! ## Keys before separators -/

section Separators

variable {α : Type*} {mark : α} {key other : List α}

/-- One key goes on from the other with a separator: with one mark, or with two and more. -/
def Continues (mark : α) (key other : List α) : Prop :=
  other = key ++ [mark] ∨ key ++ [mark, mark] <+: other

theorem marks_prefix_append_iff {rest : List α} (filled : rest ≠ []) (tool : List α) :
    [mark, mark] <+: rest ++ [mark, mark] ++ tool ↔ rest = [mark] ∨ [mark, mark] <+: rest := by
  rcases rest with _ | ⟨first, _ | ⟨second, rest⟩⟩
  · exact absurd rfl filled
  · have short : ¬[mark, mark] <+: [first] := fun both => Nat.not_succ_le_self 1 both.length_le
    rw [or_iff_left short, List.cons.injEq, and_iff_left rfl, List.append_assoc, List.singleton_append,
      List.cons_prefix_cons]
    refine ⟨fun both => both.1.symm, fun same => ⟨same.symm, ?_⟩⟩
    exact List.prefix_append [mark] (mark :: tool)
  · simp [List.cons_prefix_cons]

theorem exists_prefix_iff (different : key ≠ other) :
    (Exists fun tool => key ++ [mark, mark] <+: other ++ [mark, mark] ++ tool) ↔
      Continues mark key other ∨ Continues mark other key := by
  constructor
  · rintro ⟨tool, reads⟩
    have keyPrefix : key <+: other ++ [mark, mark] ++ tool := (List.prefix_append key _).trans reads
    have otherPrefix : other <+: other ++ [mark, mark] ++ tool := by
      rw [List.append_assoc]
      exact List.prefix_append other _
    rcases List.prefix_or_prefix_of_prefix keyPrefix otherPrefix with ⟨rest, rfl⟩ | ⟨rest, rfl⟩
    · have filled : rest ≠ [] := fun empty => different (by rw [empty, List.append_nil])
      rw [List.append_assoc, List.append_assoc, List.prefix_append_right_inj, ← List.append_assoc,
        marks_prefix_append_iff filled] at reads
      refine Or.inl (reads.imp (fun one => by rw [one]) fun two => ?_)
      rwa [List.prefix_append_right_inj]
    · have filled : rest ≠ [] := fun empty => different (by rw [empty, List.append_nil])
      rw [List.append_assoc, List.append_assoc, List.prefix_append_right_inj] at reads
      rcases rest with _ | ⟨first, _ | ⟨second, rest⟩⟩
      · exact absurd rfl filled
      · simp only [List.cons_append, List.nil_append, List.cons_prefix_cons] at reads
        exact Or.inr (Or.inl (by rw [reads.1]))
      · simp only [List.cons_append, List.nil_append, List.cons_prefix_cons] at reads
        refine Or.inr (Or.inr ?_)
        rw [List.prefix_append_right_inj, reads.1, reads.2.1]
        exact List.prefix_append [mark, mark] rest
  · rintro ((rfl | ⟨rest, rfl⟩) | (rfl | ⟨rest, rfl⟩))
    · exact ⟨[], by simp [List.append_assoc, List.prefix_append_right_inj]⟩
    · exact ⟨[], by simp [List.append_assoc]⟩
    · exact ⟨[mark], by simp [List.append_assoc]⟩
    · exact ⟨rest ++ [mark, mark], by simp [List.append_assoc]⟩

end Separators

/-! ## Keys of extensions -/

/-- What a character of a name is in its key. -/
def keyCharacter? (character : Char) : Option Char :=
  if character.isAlphanum || character == '_' || character == '-' then some character
  else if Text.isWhitespace character then none
  else some '_'

def nameToKey (name : String) : String :=
  String.ofList ((name.toList.filterMap keyCharacter?).map Char.toLower)

/-- The name under which a tool of an extension is stored. -/
def principalName (key tool : String) : String :=
  key ++ "__" ++ tool

/-- The tools of neither extension pass for tools of the other: a key that is not empty and the
other key do not go on from one another with a separator. -/
def Unmistakable (key other : String) : Prop :=
  key = "" ∨ ¬(Continues '_' key.toList other.toList ∨ Continues '_' other.toList key.toList)

theorem belongsToExtension_iff (principal key : String) :
    belongsToExtension principal key = true ↔ key ≠ "" ∧ key.toList ++ "__".toList <+: principal.toList := by
  have nonempty : key.toList.isEmpty = false ↔ key ≠ "" := by
    rw [List.isEmpty_eq_false_iff, ne_eq, ne_eq, String.toList_eq_nil_iff]
  rw [belongsToExtension, Bool.and_eq_true, Bool.and_eq_true, Bool.not_eq_true', nonempty, and_assoc,
    List.isPrefixOf_iff_prefix, List.isPrefixOf_iff_prefix]
  refine and_congr_right fun _ => ⟨?_, fun reads => ?_⟩
  · rintro ⟨⟨rest, same⟩, marks⟩
    rw [← same, List.drop_left] at marks
    rwa [← same, List.prefix_append_right_inj]
  · rcases reads with ⟨rest, same⟩
    rw [← same, List.append_assoc, List.drop_left]
    exact ⟨List.prefix_append _ _, List.prefix_append _ _⟩

theorem removeExtension_keeps_iff (key principal : String) :
    (forall (map : PermissionMap) (category : String),
      (removeExtension key map).getPermission category principal = map.getPermission category principal) ↔
      belongsToExtension principal key = false := by
  have removed : forall (map : PermissionMap) (category : String),
      (removeExtension key map).getPermission category principal =
        if belongsToExtension principal key then none else map.getPermission category principal := by
    intro map category
    have mutation := PermissionOperation.getPermission_mutation (.removeExtension key) map
    exact congrFun (congrFun mutation category) principal
  simp only [removed]
  constructor
  · intro keeps
    have stored := keeps (fun _ => some (PermissionConfig.empty.push .neverAllow principal)) userPermission
    rw [Bool.eq_false_iff]
    intro belongs
    rw [if_pos belongs] at stored
    simp [PermissionMap.getPermission, PermissionConfig.push, PermissionConfig.empty, PermissionConfig.level] at stored
  · intro foreign map category
    rw [if_neg (by rw [foreign]; exact Bool.false_ne_true)]

/-- The removal of one extension leaves the permissions of all tools of another exactly when the
keys are unmistakable. -/
theorem removeExtension_keeps_others_iff (name other : String) (different : nameToKey name ≠ nameToKey other) :
    (forall (map : PermissionMap) (category tool : String),
      (removeExtension (nameToKey name) map).getPermission category (principalName (nameToKey other) tool) =
        map.getPermission category (principalName (nameToKey other) tool)) ↔
      Unmistakable (nameToKey name) (nameToKey other) := by
  have keeps : (forall (map : PermissionMap) (category tool : String),
      (removeExtension (nameToKey name) map).getPermission category (principalName (nameToKey other) tool) =
        map.getPermission category (principalName (nameToKey other) tool)) ↔
      forall tool, belongsToExtension (principalName (nameToKey other) tool) (nameToKey name) = false := by
    constructor
    · intro all tool
      exact (removeExtension_keeps_iff _ _).mp fun map category => all map category tool
    · intro foreign map category tool
      exact (removeExtension_keeps_iff _ _).mpr (foreign tool) map category
  have lists : (nameToKey name).toList ≠ (nameToKey other).toList := fun same => different (String.toList_inj.mp same)
  rw [keeps, Unmistakable, ← exists_prefix_iff lists, or_iff_not_imp_left, not_exists]
  constructor
  · intro foreign filled tool reads
    have own := foreign (String.ofList tool)
    rw [Bool.eq_false_iff, ne_eq, belongsToExtension_iff, principalName] at own
    refine own ⟨filled, ?_⟩
    have same : (String.ofList tool).toList = tool := String.toList_ofList
    rw [String.toList_append, String.toList_append, same]
    exact reads
  · intro apart tool
    rw [Bool.eq_false_iff, ne_eq, belongsToExtension_iff, principalName, String.toList_append, String.toList_append]
    rintro ⟨filled, reads⟩
    exact apart filled tool.toList reads

/-- Keys that share a beginning only are unmistakable. -/
theorem removeExtension_keeps_github :
    nameToKey "Git" ≠ nameToKey "GitHub" ∧
      forall (map : PermissionMap) (category tool : String),
        (removeExtension (nameToKey "Git") map).getPermission category (principalName (nameToKey "GitHub") tool) =
          map.getPermission category (principalName (nameToKey "GitHub") tool) := by
  have different : nameToKey "Git" ≠ nameToKey "GitHub" := by decide +kernel
  refine ⟨different, (removeExtension_keeps_others_iff "Git" "GitHub" different).mpr (Or.inr ?_)⟩
  simp only [Continues]
  decide +kernel

/-- The key of one extension may be that of another with a separator and more. -/
theorem removeExtension_forgets_other :
    nameToKey "git" ≠ nameToKey "git__hub" ∧
      (PermissionMap.empty.entry userPermission fun config =>
        config.update .neverAllow "git__hub__delete_repo").getPermission userPermission
          (principalName (nameToKey "git__hub") "delete_repo") = some .neverAllow ∧
      (removeExtension (nameToKey "git") (PermissionMap.empty.entry userPermission fun config =>
        config.update .neverAllow "git__hub__delete_repo")).getPermission userPermission
          (principalName (nameToKey "git__hub") "delete_repo") = none := by
  decide +kernel

end AIBuddy
