import Mathlib.Data.List.Basic
import AIBuddy.Support.Text

namespace AIBuddy
namespace HintImports

/-!
# Paths of imported files

A hint file may refer to other files.  A reference is resolved against the directory of the
file that it stands in, and is imported when the file lies inside of the import boundary and
is no part of the metadata of Git.  The file tree is a parameter.
-/

/-! ## Paths -/

inductive Component where
  | rootDir
  | curDir
  | parentDir
  | normal (name : String)
deriving DecidableEq, Repr

/-- A path: its components, and whether what it names has to be a directory because of a slash at
its end.  Two paths with the same components count as equal. -/
structure Path where
  components : List Component
  trailing : Bool
deriving DecidableEq, Repr

namespace Path

def componentOf (segment : List Char) : Component :=
  if segment = ['.', '.'] then .parentDir else .normal (String.ofList segment)

/-- The path that a text spells.  Empty segments do not count, and neither do single dots but for a
leading one. -/
def parse (text : List Char) : Path :=
  let segments := text.splitOn '/'
  let named := (segments.filter fun segment => segment != [] && segment != ['.']).map componentOf
  let leading := if text.head? = some '/' then [Component.rootDir] else if segments.head? = some ['.'] then [.curDir] else []
  ⟨leading ++ named, segments.getLast? = some [] || segments.getLast? = some ['.']⟩

def isAbsolute (path : Path) : Bool :=
  path.components.head? == some .rootDir

def join (base path : Path) : Path :=
  if path.isAbsolute then path
  else if base.components = [] then path
  else ⟨base.components ++ path.components.dropWhile (· == .curDir), path.trailing⟩

def parent (path : Path) : Option Path :=
  if path.components = [] ∨ path.components.getLast? = some .rootDir then none
  else some ⟨path.components.dropLast, false⟩

def startsWith (path base : Path) : Bool :=
  base.components.isPrefixOf path.components

/-- The components behind those of a base. -/
def stripPrefix (path base : Path) : Option (List Component) :=
  if path.startsWith base then some (path.components.drop base.components.length) else none

/-- A path with its parents. -/
def ancestors (path : Path) : List Path :=
  (path.components.inits.reverse.filter fun components => !path.isAbsolute || components != []).map fun components =>
    ⟨components, false⟩

def child (path : Path) (name : String) : Path :=
  path.join ⟨[.normal name], false⟩

end Path

/-! ## Trees -/

inductive IoError where
  | notFound
  | other
deriving DecidableEq, Repr

/-- A file tree, as far as the system tells of it.  Links are followed but where the contrary is
said, and what is read has at most as many bytes as asked for.  What is canonical is absolute and without links,
nothing is found at the empty path, and the parent of something that is found is a directory. -/
structure FileTree where
  canonicalize : Path -> Except IoError Path
  isFile : Path -> Bool
  isDir : Path -> Bool
  isPlainFile : Path -> Bool
  isSymlink : Path -> Bool
  size : Path -> Option Nat
  read : Path -> Nat -> Option (List Char)
  readToString : Path -> Option (List Char)
  pointer : Path -> Option String
  exists_of_isFile : forall {path}, isFile path = true -> Exists fun canonical => canonicalize path = .ok canonical
  parent_of_isFile : forall {path}, isFile path = true -> path.parent ≠ none
  parent_of_readable : forall {path canonical content}, canonicalize path = .ok canonical ->
    readToString canonical = some content -> path.parent ≠ none
  canonical_absolute : forall {path canonical}, canonicalize path = .ok canonical -> canonical.isAbsolute = true
  canonical_canonical : forall {path canonical}, canonicalize path = .ok canonical -> canonicalize canonical = .ok canonical
  empty_missing : forall trailing canonical, canonicalize ⟨[], trailing⟩ ≠ .ok canonical
  directory_of_parent : forall {path canonical directory}, canonicalize path = .ok canonical ->
    path.parent = some directory -> directory.components ≠ [] ->
      (Exists fun parent => canonicalize directory = .ok parent) ∧
        forall trailing, isFile ⟨directory.components, trailing⟩ = false

def maxGitPointerBytes : Nat := 4096

namespace FileTree

variable (tree : FileTree)

/-! ## Metadata of Git -/

def canonicalGitDirectory (path : Path) : Option Path :=
  match tree.canonicalize path with
  | .ok canonical => if tree.isDir canonical then some canonical else none
  | .error _ => none

/-- The directory that the first line of a text names. -/
def resolveGitPath (base : Path) (value : String) : Option Path :=
  let trimmed := Text.trim (String.ofList (value.toList.takeWhile (· != '\n')))
  if trimmed = "" then none
  else tree.canonicalGitDirectory (base.join (Path.parse trimmed.toList))

def readGitPointer (path : Path) : Option String :=
  if !tree.isPlainFile path then none
  else
    (tree.pointer path).bind fun value => if value.utf8ByteSize ≤ maxGitPointerBytes then some value else none

/-- The directory that the repository of the boundary keeps its metadata in, with the one it shares. -/
def gitMetadataDirectories (boundary : Path) : List Path :=
  let dotGit := boundary.child ".git"
  let gitDir :=
    if tree.isPlainFile dotGit then
      ((tree.readGitPointer dotGit).bind (Text.stripPrefix "gitdir:")).bind (tree.resolveGitPath boundary)
    else tree.canonicalGitDirectory dotGit
  match gitDir with
  | none => []
  | some gitDir =>
      match (tree.readGitPointer (gitDir.child "commondir")).bind (tree.resolveGitPath gitDir) with
      | none => [gitDir]
      | some commonDir => if commonDir = gitDir then [gitDir] else [gitDir, commonDir]

def isRegularFileOrSymlink (path : Path) : Bool :=
  tree.isPlainFile path || tree.isSymlink path

def isStructuralGitDirectory (path : Path) : Bool :=
  tree.isRegularFileOrSymlink (path.child "HEAD") &&
    (tree.isDir (path.child "objects") && tree.isDir (path.child "refs") || tree.isFile (path.child "commondir"))

def hasStructuralGitAncestor (canonical boundary : Path) : Bool :=
  (canonical.ancestors.takeWhile fun ancestor => ancestor.startsWith boundary).any tree.isStructuralGitDirectory

end FileTree

def isGitName (name : String) : Bool :=
  name.toList.map Char.toLower == ['.', 'g', 'i', 't']

def containsGitMetadataComponent (components : List Component) : Bool :=
  components.any fun component =>
    match component with
    | .normal name => isGitName name
    | _ => false

/-! ## The boundary -/

structure ImportBoundary where
  canonical : Path
  gitMetadataDirectories : List Path
deriving DecidableEq

inductive ImportError where
  | outside
  | gitMetadata
  | absolute
  | io (error : IoError)
deriving DecidableEq, Repr

namespace FileTree

variable (tree : FileTree)

def importBoundary (path : Path) : Except IoError ImportBoundary :=
  match tree.canonicalize path with
  | .ok canonical => .ok ⟨canonical, tree.gitMetadataDirectories canonical⟩
  | .error _ => .error .notFound

def validateCanonicalPath (canonical : Path) (boundary : ImportBoundary) : Except ImportError Path :=
  match canonical.stripPrefix boundary.canonical with
  | none => .error .outside
  | some relative =>
      if containsGitMetadataComponent relative ||
          boundary.gitMetadataDirectories.any (fun directory => canonical.startsWith directory) ||
          tree.hasStructuralGitAncestor canonical boundary.canonical then .error .gitMetadata
      else .ok canonical

def validateCanonicalParent (path : Path) (boundary : ImportBoundary) : Except ImportError Unit :=
  match path.parent with
  | none => .ok ()
  | some parent =>
      match tree.canonicalize parent with
      | .error error => .error (.io error)
      | .ok canonical => (tree.validateCanonicalPath canonical boundary).map fun _ => ()

def sanitizeExistingPath (path : Path) (boundary : ImportBoundary) : Except ImportError Path :=
  match tree.validateCanonicalParent path boundary with
  | .error error => .error error
  | .ok () =>
      match tree.canonicalize path with
      | .error error => .error (.io error)
      | .ok canonical => tree.validateCanonicalPath canonical boundary

/-- The file that a reference names.  One that is not found is passed on as it is. -/
def sanitizeReferencePath (reference includingDirectory : Path) (boundary : ImportBoundary) : Except ImportError Path :=
  if reference.isAbsolute then .error .absolute
  else if containsGitMetadataComponent reference.components then .error .gitMetadata
  else
    let resolved := includingDirectory.join reference
    match tree.validateCanonicalParent resolved boundary with
    | .error (.io .notFound) => .ok resolved
    | .error error => .error error
    | .ok () =>
        match tree.canonicalize resolved with
        | .ok canonical => tree.validateCanonicalPath canonical boundary
        | .error .notFound => .ok resolved
        | .error error => .error (.io error)

end FileTree
end HintImports
end AIBuddy
