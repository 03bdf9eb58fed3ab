import AIBuddy.Hints.ImportBounds

namespace AIBuddy
namespace HintImports

/-!
# Files inside of themselves

A reference that is spelled like one that is being expanded is taken for circular.  Spellings are compared
as they stand, but what a reference names depends on the directory of the file that it stands in, and the
spelling of the hint file itself is not recorded.
-/

/-! ## The include stack -/

namespace Event

/-- The files that are being expanded, the hint file included. -/
def files (event : Event) (main : Path) : List Path :=
  main :: event.stack.map Frame.file

/-- Whether a reference that is being expanded is spelled in the same way. -/
def Spelled (event : Event) : Prop :=
  (Path.parse event.reference).components ∈ event.stack.map fun frame => frame.reference.components

/-- Whether the reference names a file that is being expanded. -/
def Names (event : Event) (tree : FileTree) (main : Path) : Prop :=
  Exists fun file => tree.canonicalize (event.directory.join (Path.parse event.reference)) = .ok file ∧
    file ∈ event.files main

/-- The file of the reference, if it may be included where nothing is being expanded, and if the budget
suffices for it. -/
def Includes (event : Event) (environment : Environment) (file : Path) : Prop :=
  shouldProcessReference environment (Path.parse event.reference) event.directory [] = .ok file ∧
    (readWithinBudget environment event.reference file event.budget).1 ≠ none

/-- No file is expanded inside of itself, and a reference is left as circular only if it names a file that
is being expanded. -/
def Acyclic (event : Event) (tree : FileTree) (main : Path) : Prop :=
  match event.outcome with
  | .expanded file => file ∉ event.files main
  | .refused .circular => event.Names tree main
  | _ => True

/-- A reference that is spelled like one of those that are being expanded names a file that is being
expanded, and one whose file could be included again is spelled like one of them. -/
structure Recognized (event : Event) (environment : Environment) (main : Path) : Prop where
  named : event.Spelled -> event.Names environment.tree main
  spelled : forall file, event.Includes environment file -> file ∈ event.files main -> event.Spelled

end Event

/-! ## How references are decided -/

/-- What the outcome of an event tells of the reference. -/
inductive Event.Decided (event : Event) (environment : Environment) : Prop where
  | circular (same : event.outcome = .refused .circular) (spelled : event.Spelled)
  | expanded {file : Path} (same : event.outcome = .expanded file) (fresh : ¬ event.Spelled)
      (included : event.Includes environment file)
  | refused {refusal : Refusal} (same : event.outcome = .refused refusal) (other : refusal ≠ .circular)
      (fresh : ¬ event.Spelled) (excluded : forall file, ¬ event.Includes environment file)
  | unaffordable (same : event.outcome = .unaffordable) (fresh : ¬ event.Spelled)
      (excluded : forall file, ¬ event.Includes environment file)

theorem Event.Decided.acyclic_iff {event : Event} {environment : Environment} (main : Path)
    (decided : event.Decided environment) :
    event.Acyclic environment.tree main ↔ event.Recognized environment main := by
  unfold Event.Acyclic
  cases decided with
  | circular same spelled =>
      rw [same]
      exact ⟨fun named => ⟨fun _ => named, fun _ _ _ => spelled⟩, fun recognized => recognized.named spelled⟩
  | expanded same fresh included =>
      rename_i file
      rw [same]
      constructor
      · intro outside
        refine ⟨fun spelled => absurd spelled fresh, fun other again inside => ?_⟩
        have twice : Except.ok file = Except.ok other := included.1.symm.trans again.1
        cases twice
        exact absurd inside outside
      · intro recognized inside
        exact fresh (recognized.spelled file included inside)
  | refused same other fresh excluded =>
      rename_i refusal
      rw [same]
      have trivially : Event.Recognized event environment main :=
        ⟨fun spelled => absurd spelled fresh, fun file included _ => absurd included (excluded file)⟩
      cases refusal with
      | circular => exact absurd rfl other
      | unsafePath => exact ⟨fun _ => trivially, fun _ => trivial⟩
      | ignored => exact ⟨fun _ => trivially, fun _ => trivial⟩
      | noFile => exact ⟨fun _ => trivially, fun _ => trivial⟩
  | unaffordable same fresh excluded =>
      rw [same]
      exact ⟨fun _ => ⟨fun spelled => absurd spelled fresh, fun file included _ => absurd included (excluded file)⟩,
        fun _ => trivial⟩

section Visited

variable {environment : Environment} {reference directory : Path} {visited : List (List Component)}

theorem shouldProcessReference_of_visited (spelled : reference.components ∈ visited) :
    shouldProcessReference environment reference directory visited = .error .circular := by
  unfold shouldProcessReference
  rw [if_pos (List.contains_iff_mem.mpr spelled)]

/-- What is being expanded does not matter for another reference. -/
theorem shouldProcessReference_of_fresh (fresh : reference.components ∉ visited) :
    shouldProcessReference environment reference directory visited =
      shouldProcessReference environment reference directory [] := by
  unfold shouldProcessReference
  rw [if_neg (fun spelled => fresh (List.contains_iff_mem.mp spelled)), if_neg (by simp)]

theorem shouldProcessReference_fresh_ne_circular :
    shouldProcessReference environment reference directory [] ≠ .error .circular := by
  unfold shouldProcessReference
  rw [if_neg (by simp)]
  split
  · exact fun same => absurd (Except.error.inj same) (by decide)
  · split
    · exact fun same => absurd (Except.error.inj same) (by decide)
    · split
      · exact fun same => absurd (Except.error.inj same) (by decide)
      · exact fun same => by cases same

end Visited

/-! ## Runs -/

/-- The spellings that are recorded are those of the references that are being expanded. -/
def State.Tracks (state : State) (stack : List Frame) : Prop :=
  state.visited = stack.map fun frame => frame.reference.components

theorem State.leave_of_enter {left : State} {reference : Path} {visited : List (List Component)}
    (same : left.visited = reference.components :: visited) (fresh : reference.components ∉ visited) :
    (left.leave reference).visited = visited := by
  unfold State.leave
  rw [same, List.filter_cons_of_neg (by simp), List.filter_eq_self]
  intro other member
  rw [bne_iff_ne]
  exact fun equal => fresh (equal ▸ member)

/-- The record of what is being expanded is kept, and what was done since is decided by it. -/
structure Traced (environment : Environment) (stack : List Frame) (first last : State) : Prop where
  tracks : last.Tracks stack
  decided : forall event, event ∈ last.events -> event ∈ first.events ∨ event.Decided environment

theorem Traced.trans {environment : Environment} {stack : List Frame} {first second last : State}
    (front : Traced environment stack first second) (back : Traced environment stack second last) :
    Traced environment stack first last :=
  ⟨back.tracks, fun event member => (back.decided event member).elim (front.decided event) Or.inr⟩

/-- An expansion that keeps the record. -/
def Tracing (environment : Environment) (expand : Expand) : Prop :=
  forall stack content filePath state, state.Tracks stack ->
    Traced environment stack state (expand stack content filePath state).2

theorem Traced.of_event {environment : Environment} {stack : List Frame} {state : State} {budget : ExpansionBudget}
    {event : Event} (tracks : state.Tracks stack) (decided : event.Decided environment) :
    Traced environment stack state ((state.spend budget).record event) := by
  refine ⟨tracks, fun other member => ?_⟩
  rcases List.mem_append.mp member with old | new
  · exact Or.inl old
  · exact Or.inr (List.mem_singleton.mp new ▸ decided)

theorem expandReference_traced {environment : Environment} {inner : Option Expand} {stack : List Frame}
    {directory : Path} {reference : List Char} {state : State}
    (tracing : forall expand, inner = some expand -> Tracing environment expand) (tracks : state.Tracks stack) :
    Traced environment stack state (expandReference environment inner stack directory reference state).2 := by
  have unchanged : forall budget, Traced environment stack state (state.spend budget) :=
    fun _ => ⟨tracks, fun _ member => Or.inl member⟩
  unfold expandReference
  cases inner with
  | none => exact unchanged state.budget
  | some expand =>
      rcases state.budget.consumeOperation with ⟨granted, budget⟩
      cases granted with
      | false => exact unchanged budget
      | true =>
          simp only [Bool.not_true, Bool.false_eq_true, if_false]
          by_cases spelled : (Path.parse reference).components ∈ state.visited
          · rw [shouldProcessReference_of_visited spelled]
            rw [tracks] at spelled
            exact .of_event tracks (.circular rfl spelled)
          · have fresh : (Path.parse reference).components ∉ stack.map fun frame => frame.reference.components :=
              fun member => spelled (tracks.symm ▸ member)
            rw [shouldProcessReference_of_fresh spelled]
            cases safe : shouldProcessReference environment (Path.parse reference) directory [] with
            | error refusal =>
                refine .of_event tracks (.refused rfl (fun same => ?_) fresh fun file included => ?_)
                · rw [same] at safe
                  exact shouldProcessReference_fresh_ne_circular safe
                · have twice := safe.symm.trans included.1
                  cases twice
            | ok safePath =>
                rcases reading : readWithinBudget environment reference safePath budget with ⟨result, left⟩
                cases result with
                | none =>
                    simp only
                    rw [@processFileReference_unread _ _ _ _ _ _ (state.spend budget) _ reading]
                    refine .of_event tracks (.unaffordable rfl fresh fun file included => ?_)
                    have twice : Except.ok safePath = Except.ok file := safe.symm.trans included.1
                    cases twice
                    exact included.2 (congrArg Prod.fst reading)
                | some content =>
                    rcases @processFileReference_of_read _ expand stack directory _ _ _ (state.spend budget) _ reading
                      with ⟨entered, result, expanding, entering, same⟩
                    simp only
                    rw [same]
                    have entry : entered.Tracks (⟨Path.parse reference, safePath⟩ :: stack) := by
                      rw [entering]
                      exact congrArg ((Path.parse reference).components :: ·) tracks
                    have traced := tracing expand rfl _ content safePath entered entry
                    rw [← expanding] at traced
                    have affordable : (readWithinBudget environment reference safePath budget).1 ≠ none := by
                      rw [reading]
                      exact Option.some_ne_none content
                    have started : Traced environment stack state ((state.spend left).record
                        ⟨stack, directory, reference, budget, .expanded safePath⟩) :=
                      .of_event tracks (.expanded rfl fresh ⟨safe, affordable⟩)
                    refine ⟨State.leave_of_enter traced.tracks fresh, fun event member => ?_⟩
                    rcases traced.decided event member with old | decided
                    · rw [entering] at old
                      exact started.decided event old
                    · exact Or.inr decided

theorem expandReferences_traced {environment : Environment} {inner : Option Expand} {stack : List Frame}
    {directory : Path} {rest : List Char} (found : List (List Char × List Char)) {state : State}
    (tracing : forall expand, inner = some expand -> Tracing environment expand) (tracks : state.Tracks stack) :
    Traced environment stack state (expandReferences environment inner stack directory rest found state).2 := by
  induction found generalizing state with
  | nil => exact ⟨tracks, fun _ member => Or.inl member⟩
  | cons entry others ih =>
      have step : Traced environment stack state (expandReference environment inner stack directory entry.2 state).2 :=
        expandReference_traced tracing tracks
      exact step.trans (ih step.tracks)

theorem expandFileContent_tracing (environment : Environment) (levels : Nat) :
    Tracing environment (expandFileContent environment levels) := by
  induction levels with
  | zero =>
      intro stack content filePath state tracks
      exact expandReferences_traced _ (fun _ never => absurd never (Option.some_ne_none _).symm) tracks
  | succ levels ih =>
      intro stack content filePath state tracks
      refine expandReferences_traced _ (fun expand same => ?_) tracks
      cases same
      exact ih

/-- In the expansion of a hint file no file is inside of itself, and only references to files that are being
expanded are circular, if and only if every reference that is reached is recognized. -/
theorem readReferencedFiles_acyclic_iff (regex : ReferenceRegex) (ignored : Path -> Bool) (depth : Nat)
    {tree : FileTree} {filePath importBoundary main : Path} {boundary : ImportBoundary} {content : List Char}
    (bounded : tree.importBoundary importBoundary = .ok boundary)
    (read : readHintFile tree filePath boundary = some (main, content)) :
    let events := (readReferencedFiles tree regex ignored filePath importBoundary [] depth).2.events
    (forall event, event ∈ events -> event.Acyclic tree main) ↔
      forall event, event ∈ events -> event.Recognized ⟨tree, regex, ignored, boundary⟩ main := by
  have decided : forall event,
      event ∈ (readReferencedFiles tree regex ignored filePath importBoundary [] depth).2.events ->
        event.Decided ⟨tree, regex, ignored, boundary⟩ := by
    intro event member
    unfold readReferencedFiles at member
    simp only [bounded, read] at member
    have traced := expandFileContent_tracing ⟨tree, regex, ignored, boundary⟩ (maxDepth - depth) [] content filePath
      ⟨.new maxReferenceOperations maxExpandedOutputBytes, [], []⟩ rfl
    exact (traced.decided event member).resolve_left List.not_mem_nil
  constructor
  · intro acyclic event member
    exact ((decided event member).acyclic_iff main).mp (acyclic event member)
  · intro recognized event member
    exact ((decided event member).acyclic_iff main).mpr (recognized event member)

/-! ## A file that refers to itself -/

def selfFile : Path := ⟨[.rootDir, .normal "M"], false⟩

def rootDirectory : Path := ⟨[.rootDir], false⟩

private def canonicalizeSelf (path : Path) : Except IoError Path :=
  if path = selfFile then .ok selfFile else if path = rootDirectory then .ok rootDirectory else .error .notFound

private theorem canonicalizeSelf_cases {path canonical : Path} (found : canonicalizeSelf path = .ok canonical) :
    path = selfFile ∧ canonical = selfFile ∨ path = rootDirectory ∧ canonical = rootDirectory := by
  unfold canonicalizeSelf at found
  split at found
  · rename_i same
    exact Or.inl ⟨same, (Except.ok.inj found).symm⟩
  · split at found
    · rename_i same
      exact Or.inr ⟨same, (Except.ok.inj found).symm⟩
    · cases found

/-- A tree whose only file contains a reference to itself. -/
def selfTree : FileTree where
  canonicalize := canonicalizeSelf
  isFile path := path = selfFile
  isDir path := path = rootDirectory
  isPlainFile path := path = selfFile
  isSymlink _ := false
  size path := if path = selfFile then some 2 else none
  read path limit := if path = selfFile then some (['@', 'M'].take limit) else none
  readToString path := if path = selfFile then some ['@', 'M'] else none
  pointer path := if path = selfFile then some "@M" else none
  exists_of_isFile := by
    intro path regular
    rw [of_decide_eq_true regular]
    exact ⟨selfFile, rfl⟩
  parent_of_isFile := by
    intro path regular
    rw [of_decide_eq_true regular]
    decide
  parent_of_readable := by
    intro path canonical content found readable
    rcases canonicalizeSelf_cases found with ⟨rfl, _⟩ | ⟨_, rfl⟩
    · decide
    · cases readable
  canonical_absolute := by
    intro path canonical found
    rcases canonicalizeSelf_cases found with ⟨_, rfl⟩ | ⟨_, rfl⟩
    · rfl
    · rfl
  canonical_canonical := by
    intro path canonical found
    rcases canonicalizeSelf_cases found with ⟨_, rfl⟩ | ⟨_, rfl⟩
    · rfl
    · rfl
  empty_missing := by
    intro trailing canonical found
    rcases canonicalizeSelf_cases found with ⟨same, _⟩ | ⟨same, _⟩
    · cases same
    · cases same
  directory_of_parent := by
    intro path canonical directory found parent _
    rcases canonicalizeSelf_cases found with ⟨rfl, _⟩ | ⟨rfl, _⟩
    · cases parent
      exact ⟨⟨rootDirectory, rfl⟩, by decide⟩
    · cases parent

/-- The regular expression on the text of that file. -/
def selfRegex : ReferenceRegex where
  captures content := if content = ['@', 'M'] then ⟨[([], ['M'])], []⟩ else ⟨[], content⟩
  text := by
    intro content
    split
    · rename_i same
      exact same.symm
    · rfl

/-- The events of the file that contains itself: it is expanded once more, and only then circular. -/
theorem readReferencedFiles_self :
    ¬ forall event, event ∈ (readReferencedFiles selfTree selfRegex (fun _ => false) selfFile rootDirectory [] 0).2.events ->
      event.Acyclic selfTree selfFile := by
  intro acyclic
  have event : (⟨[], rootDirectory, ['M'], ⟨63, maxExpandedOutputBytes, false⟩, .expanded selfFile⟩ : Event) ∈
      (readReferencedFiles selfTree selfRegex (fun _ => false) selfFile rootDirectory [] 0).2.events := by decide +kernel
  exact acyclic _ event (List.mem_cons_self ..)

/-- In the file that contains itself, not every reference is recognized. -/
theorem readReferencedFiles_unrecognized :
    let events := (readReferencedFiles selfTree selfRegex (fun _ => false) selfFile rootDirectory [] 0).2.events
    (forall event, event ∈ events -> event.Acyclic selfTree selfFile) ↔
      forall event, event ∈ events -> event.Recognized ⟨selfTree, selfRegex, fun _ => false, ⟨rootDirectory, []⟩⟩ selfFile :=
  readReferencedFiles_acyclic_iff selfRegex _ 0 (show selfTree.importBoundary rootDirectory = .ok ⟨rootDirectory, []⟩ by decide +kernel)
    (show readHintFile selfTree selfFile ⟨rootDirectory, []⟩ = some (selfFile, ['@', 'M']) by decide +kernel)

end HintImports
end AIBuddy
