import AIBuddy.Hints.ImportPaths
import AIBuddy.Support.ByteOffsets

namespace AIBuddy
namespace HintImports

/-!
# Imported files

References in the text of a hint file are replaced by the content of the files that they name,
in which references are replaced in turn, down to some depth.  All expansions share a budget of
operations and of output.  The files that are being expanded are recorded as the references spell them.
-/

def maxDepth : Nat := 3

def maxReferenceOperations : Nat := 64

def maxExpandedOutputBytes : Nat := 1024 * 1024

def maxContentLength : Nat := 131072

/-- The largest number of a machine word. -/
def usizeMax : Nat := 18446744073709551615

/-! ## References -/

/-- The references of a text: what stands before each one, what it says, and what stands behind the last
one. -/
structure References where
  found : List (List Char × List Char)
  rest : List Char
deriving DecidableEq, Repr

/-- A reference as it stands in a text. -/
def verbatim (reference : List Char) : List Char := '@' :: reference

def References.text (references : References) : List Char :=
  references.found.flatMap (fun entry => entry.1 ++ verbatim entry.2) ++ references.rest

/-- The regular expression of references, which finds parts of the text one after the other. -/
structure ReferenceRegex where
  captures : List Char -> References
  text : forall content, (captures content).text = content

def findFileReferences (regex : ReferenceRegex) (content : List Char) : References :=
  if maxContentLength < utf8Length content then ⟨[], content⟩ else regex.captures content

structure ExpansionBudget where
  remainingOperations : Nat
  remainingOutputBytes : Nat
  exhausted : Bool
deriving DecidableEq, Repr

namespace ExpansionBudget

def new (operations outputBytes : Nat) : ExpansionBudget := ⟨operations, outputBytes, false⟩

def exhaust (budget : ExpansionBudget) : ExpansionBudget := { budget with exhausted := true }

def consumeOperation (budget : ExpansionBudget) : Bool × ExpansionBudget :=
  if budget.exhausted || budget.remainingOperations == 0 then (false, budget.exhaust)
  else (true, { budget with remainingOperations := budget.remainingOperations - 1 })

def reserveOutput (budget : ExpansionBudget) (bytes : Nat) : Bool × ExpansionBudget :=
  if budget.exhausted || budget.remainingOutputBytes < bytes then (false, budget.exhaust)
  else
    let left := budget.remainingOutputBytes - bytes
    (true, { budget with remainingOutputBytes := left, exhausted := left == 0 })

def canFitOutput (budget : ExpansionBudget) (bytes : Nat) : Bool × ExpansionBudget :=
  if budget.exhausted || budget.remainingOutputBytes < bytes then (false, budget.exhaust) else (true, budget)

end ExpansionBudget

/-! ## Expansion -/

/-- The content of a file as it is included. -/
def wrapped (reference content : List Char) : List Char :=
  "--- Content from ".toList ++ reference ++ " ---\n".toList ++ content ++ "\n--- End of ".toList ++ reference ++
    " ---".toList

def checkedAdd (left right : Nat) : Option Nat :=
  if left + right ≤ usizeMax then some (left + right) else none

def expandedOutputCost (reference : List Char) (contentBytes : Nat) : Option Nat :=
  checkedAdd contentBytes (utf8Length (wrapped reference []))

/-- Everything that expansion is given from outside. -/
structure Environment where
  tree : FileTree
  regex : ReferenceRegex
  ignored : Path -> Bool
  boundary : ImportBoundary

inductive Refusal where
  | circular
  | unsafePath
  | ignored
  | noFile
deriving DecidableEq, Repr

/-- The file of a reference that is to be expanded. -/
def shouldProcessReference (environment : Environment) (reference includingDirectory : Path)
    (visited : List (List Component)) : Except Refusal Path :=
  if visited.contains reference.components then .error .circular
  else
    match environment.tree.sanitizeReferencePath reference includingDirectory environment.boundary with
    | .error _ => .error .unsafePath
    | .ok safePath =>
        if environment.ignored safePath then .error .ignored
        else if !environment.tree.isFile safePath then .error .noFile
        else .ok safePath

/-- A file that is being expanded, with the reference that named it. -/
structure Frame where
  reference : Path
  file : Path
deriving DecidableEq, Repr

inductive Outcome where
  | refused (refusal : Refusal)
  | unaffordable
  | expanded (file : Path)
deriving DecidableEq, Repr

/-- What is done about a reference, in which directory, inside of which files, and with what is left of
the budget. -/
structure Event where
  stack : List Frame
  directory : Path
  reference : List Char
  budget : ExpansionBudget
  outcome : Outcome
deriving DecidableEq, Repr

/-- What is carried along: the budget, the references that are being expanded, and a record of what was done. -/
structure State where
  budget : ExpansionBudget
  visited : List (List Component)
  events : List Event
deriving DecidableEq, Repr

namespace State

def spend (state : State) (budget : ExpansionBudget) : State := { state with budget := budget }

def record (state : State) (event : Event) : State := { state with events := state.events ++ [event] }

def enter (state : State) (reference : Path) : State :=
  { state with visited := reference.components :: state.visited }

def leave (state : State) (reference : Path) : State :=
  { state with visited := state.visited.filter (· != reference.components) }

end State

/-- How the content of a file is expanded, inside of some files. -/
abbrev Expand := List Frame -> List Char -> Path -> State -> List Char × State

/-- Read a file as far as the budget allows. -/
def readWithinBudget (environment : Environment) (reference : List Char) (safePath : Path) (budget : ExpansionBudget) :
    Option (List Char) × ExpansionBudget :=
  match expandedOutputCost reference 0 with
  | none => (none, budget)
  | some wrapperBytes =>
      let (fits, budget) := budget.canFitOutput wrapperBytes
      if !fits then (none, budget)
      else
        match (environment.tree.size safePath).bind (expandedOutputCost reference) with
        | none => (none, budget)
        | some estimatedOutput =>
            let (fits, budget) := budget.canFitOutput estimatedOutput
            if !fits then (none, budget)
            else
              match environment.tree.read safePath (budget.remainingOutputBytes - wrapperBytes + 1) with
              | none => (none, budget)
              | some content =>
                  match expandedOutputCost reference (utf8Length content) with
                  | none => (none, budget)
                  | some outputBytes =>
                      let (reserved, budget) := budget.reserveOutput outputBytes
                      (if reserved then some content else none, budget)

/-- What a reference whose file is to be expanded is replaced by, unless the budget does not suffice. -/
def processFileReference (environment : Environment) (inner : Expand) (stack : List Frame) (directory : Path)
    (reference : List Char) (safePath : Path) (state : State) : Option (List Char) × State :=
  let path := Path.parse reference
  match readWithinBudget environment reference safePath state.budget with
  | (none, budget) =>
      (none, (state.spend budget).record ⟨stack, directory, reference, state.budget, .unaffordable⟩)
  | (some content, budget) =>
      let recorded := (state.spend budget).record ⟨stack, directory, reference, state.budget, .expanded safePath⟩
      let (expanded, left) := inner (⟨path, safePath⟩ :: stack) content safePath (recorded.enter path)
      (some (wrapped reference expanded), left.leave path)

/-- What stands for a reference. -/
def expandReference (environment : Environment) (inner : Option Expand) (stack : List Frame) (directory : Path)
    (reference : List Char) (state : State) : List Char × State :=
  match inner with
  | none => (verbatim reference, state)
  | some inner =>
      let (granted, budget) := state.budget.consumeOperation
      if !granted then (verbatim reference, state.spend budget)
      else
        match shouldProcessReference environment (Path.parse reference) directory state.visited with
        | .error refusal =>
            (verbatim reference, (state.spend budget).record ⟨stack, directory, reference, budget, .refused refusal⟩)
        | .ok safePath =>
            match processFileReference environment inner stack directory reference safePath (state.spend budget) with
            | (some replacement, next) => (replacement, next)
            | (none, next) => (verbatim reference, next)

def expandReferences (environment : Environment) (inner : Option Expand) (stack : List Frame) (directory : Path)
    (rest : List Char) : List (List Char × List Char) -> State -> List Char × State
  | [], state => (rest, state)
  | (before, reference) :: others, state =>
      let (piece, next) := expandReference environment inner stack directory reference state
      let (tail, last) := expandReferences environment inner stack directory rest others next
      (before ++ piece ++ tail, last)

/-- Expand the content of a file, down to so many levels below it. -/
def expandFileContent (environment : Environment) : Nat -> Expand
  | 0, stack, content, filePath, state =>
      let references := findFileReferences environment.regex content
      expandReferences environment none stack (filePath.parent.getD filePath) references.rest references.found state
  | levels + 1, stack, content, filePath, state =>
      let references := findFileReferences environment.regex content
      expandReferences environment (some (expandFileContent environment levels)) stack
        (filePath.parent.getD filePath) references.rest references.found state

/-- A hint file that may be read: its canonical path and its content. -/
def readHintFile (tree : FileTree) (filePath : Path) (boundary : ImportBoundary) : Option (Path × List Char) :=
  match tree.sanitizeExistingPath filePath boundary with
  | .error _ => none
  | .ok safePath => (tree.readToString safePath).map fun content => (safePath, content)

/-- The text of a hint file with its references expanded, and the state that is left. -/
def readReferencedFiles (tree : FileTree) (regex : ReferenceRegex) (ignored : Path -> Bool)
    (filePath importBoundary : Path) (visited : List (List Component)) (depth : Nat) : List Char × State :=
  let start : State := ⟨ExpansionBudget.new maxReferenceOperations maxExpandedOutputBytes, visited, []⟩
  match tree.importBoundary importBoundary with
  | .error _ => ([], start)
  | .ok boundary =>
      match readHintFile tree filePath boundary with
      | none => ([], start)
      | some (_, content) =>
          expandFileContent ⟨tree, regex, ignored, boundary⟩ (maxDepth - depth) [] content filePath start

end HintImports
end AIBuddy
