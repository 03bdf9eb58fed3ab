import AIBuddy.Hints.ImportFiles

namespace AIBuddy
namespace HintImports

/-!
# What expansion may include, and how much

Whatever the references of the files are, an expansion ends, and it replaces at most so many references as
there are operations in the budget.  What is included is the content of regular files inside of the boundary,
in which all other references stand as they did, and altogether it is no longer than the budget for output.
-/

/-! ## Admitted files -/

namespace Environment

/-- The files that may be included. -/
structure Admits (environment : Environment) (file : Path) : Prop where
  regular : environment.tree.isFile file = true
  canonical : environment.tree.canonicalize file = .ok file
  inside : file.startsWith environment.boundary.canonical = true
  kept : environment.ignored file = false
  unnamed : containsGitMetadataComponent (file.components.drop environment.boundary.canonical.components.length) = false
  apart : forall directory, directory ∈ environment.boundary.gitMetadataDirectories -> file.startsWith directory = false
  plain : environment.tree.hasStructuralGitAncestor file environment.boundary.canonical = false

end Environment

/-- The directory that references are resolved against belongs to a path at which something is. -/
structure FileTree.Directory (tree : FileTree) (directory : Path) : Prop where
  named : directory.components ≠ []
  parent : Exists fun path => Exists fun canonical => path.parent = some directory ∧ tree.canonicalize path = .ok canonical

namespace Path

theorem components_of_parent {path directory : Path} (parent : path.parent = some directory) :
    path.components ≠ [] ∧ path.components.getLast? ≠ some .rootDir ∧ directory.components = path.components.dropLast := by
  unfold Path.parent at parent
  split at parent
  · cases parent
  · rename_i named
    cases parent
    exact ⟨fun empty => named (Or.inl empty), fun root => named (Or.inr root), rfl⟩

/-- What is below a root has a directory with a name. -/
theorem components_parent_ne_nil {path directory : Path} (absolute : path.isAbsolute = true)
    (parent : path.parent = some directory) : directory.components ≠ [] := by
  rcases components_of_parent parent with ⟨named, root, same⟩
  rw [same]
  unfold Path.isAbsolute at absolute
  cases components : path.components with
  | nil => exact absurd components named
  | cons first rest =>
      cases rest with
      | nil =>
          rw [components, List.head?_cons, beq_iff_eq] at absolute
          rw [components, List.getLast?_singleton] at root
          exact absurd absolute root
      | cons second others =>
          rw [List.dropLast_cons_cons]
          exact List.cons_ne_nil _ _

end Path

namespace FileTree

variable {tree : FileTree} {boundary : ImportBoundary}

end FileTree

namespace Environment

variable {environment : Environment}

theorem Admits.directory {file : Path} (admitted : environment.Admits file) :
    environment.tree.Directory (file.parent.getD file) := by
  cases parent : file.parent with
  | none => exact absurd parent (environment.tree.parent_of_isFile admitted.regular)
  | some directory =>
      exact ⟨Path.components_parent_ne_nil (environment.tree.canonical_absolute admitted.canonical) parent,
        file, file, parent, admitted.canonical⟩

end Environment

/-- What a text becomes when so many files are included in it, directly or inside of each other.  A reference
is kept, or it is replaced by a file that may be included and that was expanded in the same way. -/
inductive Expanded (environment : Environment) : References -> Nat -> List Char -> Prop where
  | rest (text : List Char) : Expanded environment ⟨[], text⟩ 0 text
  | kept (before reference : List Char) {found : List (List Char × List Char)} {rest output : List Char} {files : Nat}
      (others : Expanded environment ⟨found, rest⟩ files output) :
      Expanded environment ⟨(before, reference) :: found, rest⟩ files (before ++ verbatim reference ++ output)
  | included (before reference : List Char) {found : List (List Char × List Char)}
      {rest output content expansion : List Char} {files inside limit : Nat} {file : Path}
      (admitted : environment.Admits file) (read : environment.tree.read file limit = some content)
      (inner : Expanded environment (findFileReferences environment.regex content) inside expansion)
      (others : Expanded environment ⟨found, rest⟩ files output) :
      Expanded environment ⟨(before, reference) :: found, rest⟩ (inside + files + 1)
        (before ++ wrapped reference expansion ++ output)

/-! ## What is spent -/

/-- Between two states at most this was spent: operations for the references, of which so many were
replaced, and so many bytes of output. -/
structure Spent (first last : State) (files bytes : Nat) : Prop where
  operations : last.events.length + last.budget.remainingOperations ≤
    first.events.length + first.budget.remainingOperations
  files : files + last.budget.remainingOperations ≤ first.budget.remainingOperations
  bytes : bytes + last.budget.remainingOutputBytes ≤ first.budget.remainingOutputBytes

namespace Spent

theorem refl (state : State) : Spent state state 0 0 :=
  ⟨Nat.le_refl _, Nat.le_of_eq (Nat.zero_add _), Nat.le_of_eq (Nat.zero_add _)⟩

theorem trans {first second last : State} {files moreFiles bytes moreBytes : Nat}
    (front : Spent first second files bytes) (back : Spent second last moreFiles moreBytes) :
    Spent first last (files + moreFiles) (bytes + moreBytes) := by
  have frontFiles := front.files
  have frontBytes := front.bytes
  have backFiles := back.files
  have backBytes := back.bytes
  exact ⟨Nat.le_trans back.operations front.operations, by omega, by omega⟩

end Spent

namespace ExpansionBudget

end ExpansionBudget

/-- What is replaced in the references of a text is accounted for, up to a number of files and bytes. -/
structure Accounted (environment : Environment) (references : References) (first : State)
    (result : List Char × State) (files bytes : Nat) : Prop where
  expanded : Expanded environment references files result.1
  spent : Spent first result.2 files bytes
  length : utf8Length result.1 ≤ utf8Length references.text + bytes

/-- An expansion of contents whose replacements are accounted for. -/
def Bounded (environment : Environment) (expand : Expand) : Prop :=
  forall stack content filePath state, environment.tree.Directory (filePath.parent.getD filePath) ->
    Exists fun files => Exists fun bytes =>
      Accounted environment (findFileReferences environment.regex content) state (expand stack content filePath state)
        files bytes

theorem processFileReference_of_read {environment : Environment} {inner : Expand} {stack : List Frame}
    {directory safePath : Path} {reference content : List Char} {state : State} {left : ExpansionBudget}
    (reading : readWithinBudget environment reference safePath state.budget = (some content, left)) :
    Exists fun entered => Exists fun result =>
      result = inner (⟨Path.parse reference, safePath⟩ :: stack) content safePath entered ∧
        entered = ((state.spend left).record ⟨stack, directory, reference, state.budget, .expanded safePath⟩).enter
          (Path.parse reference) ∧
        processFileReference environment inner stack directory reference safePath state =
          (some (wrapped reference result.1), result.2.leave (Path.parse reference)) := by
  refine ⟨_, _, rfl, rfl, ?_⟩
  unfold processFileReference
  rw [reading]

theorem processFileReference_unread {environment : Environment} {inner : Expand} {stack : List Frame}
    {directory safePath : Path} {reference : List Char} {state : State} {left : ExpansionBudget}
    (reading : readWithinBudget environment reference safePath state.budget = (none, left)) :
    processFileReference environment inner stack directory reference safePath state =
      (none, (state.spend left).record ⟨stack, directory, reference, state.budget, .unaffordable⟩) := by
  unfold processFileReference
  rw [reading]

theorem Spent.of_event {state : State} {budget : ExpansionBudget} {event : Event}
    (operation : 1 + budget.remainingOperations = state.budget.remainingOperations)
    (bytes : budget.remainingOutputBytes ≤ state.budget.remainingOutputBytes) :
    Spent state ((state.spend budget).record event) 0 0 := by
  refine ⟨?_, ?_, ?_⟩
  all_goals
    simp only [State.spend, State.record, List.length_append, List.length_singleton]
    omega

end HintImports
end AIBuddy
