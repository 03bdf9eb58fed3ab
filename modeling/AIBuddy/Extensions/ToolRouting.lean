import Mathlib.Data.List.Nodup
import AIBuddy.Config.ExtensionKeys
import AIBuddy.Support.Occurrences

namespace AIBuddy
namespace Extensions

open Occurrences Text

/-!
# Tools and the extensions that are called

The tools of all extensions are offered under public names, and a call of a public name is taken
to the extension that listed the tool.  The key of the extension is stripped off the name again.
A name that is not offered is first compared with the ways in which models mangle public names.
-/

/-! ## Listing -/

/-- An extension of the manager: its key, whether its tools keep their own names, the tools that its
configuration makes available, all where it names none, and what its server answers for the pages
of its list. -/
structure InstalledExtension where
  key : String
  exposeUnprefixed : Bool
  availableTools : List String
  pages : List (Option (List String))
deriving DecidableEq

/-- A tool as it is offered, with the owner in its metadata. -/
structure PublicTool where
  name : String
  owner : Option String
deriving DecidableEq

namespace InstalledExtension

def isToolAvailable (extension : InstalledExtension) (toolName : String) : Bool :=
  extension.availableTools.isEmpty || extension.availableTools.contains toolName

/-- The tools on the pages before the first that cannot be had. -/
def listTools : List (Option (List String)) -> List String
  | some page :: rest => page ++ listTools rest
  | _ => []

def offered (extension : InstalledExtension) : List String :=
  (listTools extension.pages).filter extension.isToolAvailable

def publicName (extension : InstalledExtension) (toolName : String) : String :=
  if extension.exposeUnprefixed then toolName else extension.key ++ "__" ++ toolName

def publicTools (extension : InstalledExtension) : List PublicTool :=
  extension.offered.map fun toolName => ⟨extension.publicName toolName, some extension.key⟩

end InstalledExtension

/-- Tools whose names have been seen are skipped. -/
def skipDuplicates (seenNames : List String) : List PublicTool -> List PublicTool
  | [] => []
  | tool :: rest =>
      if tool.name ∈ seenNames then skipDuplicates seenNames rest
      else tool :: skipDuplicates (tool.name :: seenNames) rest

/-- The tools of the extensions, in the order in which the map gives them. -/
def fetchAllTools (extensions : List InstalledExtension) : List PublicTool :=
  skipDuplicates [] (extensions.flatMap InstalledExtension.publicTools)

/-! ## Mangled names -/

/-- The name of a call without whitespace around it and the words that models put before it. -/
def unframed (emitted : String) : String :=
  ((stripPrefix "functions." (trim emitted)).or (stripPrefix "functions:" (trim emitted))).getD (trim emitted)

/-- Whether a text is a tool's name, or is made of it by a dot for the separator or by its owner. -/
def isMangled (stripped : String) (tool : PublicTool) : Bool :=
  stripped == tool.name ||
    (cut "__".toList tool.name.toList).map (fun parts => String.ofList parts.1 ++ "." ++ String.ofList parts.2) ==
      some stripped ||
    tool.owner.map (fun owner => owner ++ "." ++ tool.name) == some stripped ||
    tool.owner.map (fun owner => owner ++ "__" ++ tool.name) == some stripped

/-- The only name that matches, next to the one that has matched so far. -/
def recoverFrom (emitted : String) (matched : Option String) : List PublicTool -> Option String
  | [] => matched
  | tool :: rest =>
      if tool.name = emitted ∨ isMangled (unframed emitted) tool = false then recoverFrom emitted matched rest
      else
        match matched with
        | none => recoverFrom emitted (some tool.name) rest
        | some previous => if previous = tool.name then recoverFrom emitted matched rest else none

def recoverMangledToolName (emitted : String) (tools : List PublicTool) : Option String :=
  recoverFrom emitted none tools

/-! ## Calling -/

structure ResolvedTool where
  extensionName : String
  actualToolName : String
  client : InstalledExtension
deriving DecidableEq

section Resolving

variable (extensions : List InstalledExtension) (tools : List PublicTool)

def getServerClient (name : String) : Option InstalledExtension :=
  extensions.find? fun extension => extension.key == nameToKey name

/-- The extension that a tool under a public name belongs to, and the name that it knows the tool by. -/
def resolveOwner (name : String) (tool : PublicTool) : Except String ResolvedTool :=
  match tool.owner.or ((cut "__".toList name.toList).map fun parts => nameToKey (String.ofList parts.1)) with
  | none => .error ("Tool '" ++ name ++ "' has no owner")
  | some owner =>
      match getServerClient extensions owner with
      | none => .error ("Extension '" ++ owner ++ "' not found for tool '" ++ name ++ "'")
      | some client => .ok ⟨owner, (stripPrefix (owner ++ "__") name).getD name, client⟩

def notFound (toolName : String) : String :=
  "Tool '" ++ toolName ++ "' not found. Available tools: [" ++ ", ".intercalate (tools.map PublicTool.name) ++ "]"

/-- A name that is not offered is recovered once. -/
def resolveTool (toolName : String) : Except String ResolvedTool :=
  match tools.find? fun tool => tool.name == toolName with
  | some tool => resolveOwner extensions toolName tool
  | none =>
      match recoverMangledToolName toolName tools with
      | none => .error (notFound tools toolName)
      | some recovered =>
          match tools.find? fun tool => tool.name == recovered with
          | some tool => resolveOwner extensions recovered tool
          | none => .error (notFound tools toolName)

/-- The extension that a call is taken to, and the name of the tool that it is called with. -/
def dispatchToolCall (toolName : String) : Except String (InstalledExtension × String) :=
  match resolveTool extensions tools toolName with
  | .error message => .error message
  | .ok resolved =>
      match extensions.find? fun extension => extension.key == resolved.extensionName with
      | some extension =>
          if extension.isToolAvailable resolved.actualToolName = false then
            .error ("Tool '" ++ resolved.actualToolName ++ "' is not available for extension '" ++
              resolved.extensionName ++ "'")
          else .ok (resolved.client, resolved.actualToolName)
      | none => .ok (resolved.client, resolved.actualToolName)

end Resolving

/-- The extensions of a manager: the keys are those of a map, and are made from names. -/
structure Registry where
  extensions : List InstalledExtension
  distinct : (extensions.map InstalledExtension.key).Nodup
  keyed : forall extension, extension ∈ extensions -> Exists fun name => extension.key = nameToKey name

namespace Registry

def tools (registry : Registry) : List PublicTool :=
  fetchAllTools registry.extensions

def dispatch (registry : Registry) (toolName : String) : Except String (InstalledExtension × String) :=
  dispatchToolCall registry.extensions registry.tools toolName

end Registry

/-! ## Keys -/

theorem ascii_of_isAlphanum {character : Char} (allowed : character.isAlphanum = true) : character.toNat < 128 := by
  have value : character.val.toNat = character.toNat := rfl
  have last : 'z'.val.toNat = 122 ∧ 'Z'.val.toNat = 90 ∧ '9'.val.toNat = 57 := ⟨rfl, rfl, rfl⟩
  delta Char.isAlphanum Char.isAlpha Char.isUpper Char.isLower Char.isDigit at allowed
  simp only [Bool.or_eq_true, Bool.and_eq_true, decide_eq_true_eq, ge_iff_le, UInt32.le_iff_toNat_le] at allowed
  omega

/-- A character of a key is its own character in a key. -/
theorem keyCharacter?_toLower {raw kept : Char} (stays : keyCharacter? raw = some kept) :
    keyCharacter? kept.toLower = some kept.toLower ∧ kept.toLower.toLower = kept.toLower := by
  have small : forall code : Fin 128, (Char.ofNat code).isAlphanum = true ->
      keyCharacter? (Char.ofNat code).toLower = some (Char.ofNat code).toLower ∧
        (Char.ofNat code).toLower.toLower = (Char.ofNat code).toLower := by
    decide +kernel
  have shape : kept.isAlphanum = true ∨ kept = '_' ∨ kept = '-' := by
    rw [keyCharacter?] at stays
    split at stays
    · rename_i allowed
      rw [← Option.some.inj stays]
      simpa [or_assoc] using allowed
    · split at stays
      · contradiction
      · exact Or.inr (Or.inl (Option.some.inj stays).symm)
  rcases shape with allowed | rfl | rfl
  · have facts := small ⟨kept.toNat, ascii_of_isAlphanum allowed⟩
    rw [Char.ofNat_toNat] at facts
    exact facts allowed
  · decide
  · decide

theorem nameToKey_nameToKey (name : String) : nameToKey (nameToKey name) = nameToKey name := by
  have fixed : forall characters : List Char, (forall character, character ∈ characters ->
      keyCharacter? character.toLower = some character.toLower ∧ character.toLower.toLower = character.toLower) ->
      ((characters.map Char.toLower).filterMap keyCharacter?).map Char.toLower = characters.map Char.toLower := by
    intro characters stay
    induction characters with
    | nil => rfl
    | cons character rest ih =>
        rw [List.forall_mem_cons] at stay
        rw [List.map_cons, List.filterMap_cons_some stay.1.1, List.map_cons, ih stay.2, stay.1.2]
  rw [nameToKey, nameToKey, String.toList_ofList, fixed]
  intro character member
  rcases List.mem_filterMap.mp member with ⟨raw, _, stays⟩
  exact keyCharacter?_toLower stays

/-! ## What is listed -/

theorem skipDuplicates_find? (seenNames : List String) (tools : List PublicTool) (name : String) :
    (skipDuplicates seenNames tools).find? (fun tool => tool.name == name) =
      if name ∈ seenNames then none else tools.find? fun tool => tool.name == name := by
  induction tools generalizing seenNames with
  | nil => exact (ite_self none).symm
  | cons tool rest ih =>
      rw [skipDuplicates]
      by_cases seen : tool.name ∈ seenNames
      · rw [if_pos seen, ih]
        by_cases known : name ∈ seenNames
        · rw [if_pos known, if_pos known]
        · have other : tool.name ≠ name := fun same => known (same ▸ seen)
          rw [if_neg known, if_neg known, List.find?_cons_of_neg (by simpa using other)]
      · rw [if_neg seen]
        by_cases same : tool.name = name
        · rw [List.find?_cons_of_pos (by simpa using same), List.find?_cons_of_pos (by simpa using same),
            if_neg (same ▸ seen)]
        · rw [List.find?_cons_of_neg (by simpa using same), List.find?_cons_of_neg (by simpa using same), ih]
          simp only [List.mem_cons, Ne.symm same, false_or]

theorem skipDuplicates_nodup (seenNames : List String) (tools : List PublicTool) :
    ((skipDuplicates seenNames tools).map PublicTool.name).Nodup ∧
      forall name, name ∈ (skipDuplicates seenNames tools).map PublicTool.name -> name ∉ seenNames := by
  induction tools generalizing seenNames with
  | nil => simp [skipDuplicates]
  | cons tool rest ih =>
      rw [skipDuplicates]
      by_cases seen : tool.name ∈ seenNames
      · rw [if_pos seen]
        exact ih seenNames
      · rcases ih (tool.name :: seenNames) with ⟨distinct, fresh⟩
        rw [if_neg seen, List.map_cons]
        refine ⟨List.nodup_cons.mpr ⟨fun again => fresh _ again List.mem_cons_self, distinct⟩, ?_⟩
        rw [List.forall_mem_cons]
        exact ⟨seen, fun name member known => fresh name member (List.mem_cons_of_mem _ known)⟩

namespace InstalledExtension

/-- The name that an extension is called with for one of its tools. -/
def calledName (extension : InstalledExtension) (toolName : String) : String :=
  (stripPrefix (extension.key ++ "__") (extension.publicName toolName)).getD (extension.publicName toolName)

/-- A tool is called by its own name, unless it has no prefix of the extension and begins like
one. -/
theorem calledName_eq_iff (extension : InstalledExtension) (toolName : String) :
    extension.calledName toolName = toolName ↔
      ¬(extension.exposeUnprefixed = true ∧ startsWith (extension.key ++ "__") toolName = true) := by
  rw [calledName, publicName]
  cases extension.exposeUnprefixed with
  | false =>
      rw [if_neg Bool.false_ne_true, stripPrefix_append]
      simp
  | true =>
      rw [if_pos rfl]
      cases stripped : stripPrefix (extension.key ++ "__") toolName with
      | none =>
          rw [stripPrefix] at stripped
          split at stripped
          · contradiction
          · rename_i other
            simpa using other
      | some rest =>
          have shape := toList_of_stripPrefix stripped
          have starts : startsWith (extension.key ++ "__") toolName = true := by
            rw [startsWith, List.isPrefixOf_iff_prefix, shape]
            exact List.prefix_append _ _
          have shorter : rest ≠ toolName := by
            intro same
            have count := congrArg List.length shape
            rw [same, String.toList_append, List.length_append, List.length_append] at count
            have marks : "__".toList.length = 2 := rfl
            omega
          simp [starts, shorter]

end InstalledExtension

namespace Registry

variable {registry : Registry} {extension : InstalledExtension} {name toolName : String} {tool : PublicTool}

theorem find?_key (installed : extension ∈ registry.extensions) :
    registry.extensions.find? (fun other => other.key == extension.key) = some extension := by
  have present : (registry.extensions.find? fun other => other.key == extension.key).isSome = true :=
    List.find?_isSome.mpr ⟨extension, installed, by simp⟩
  rcases Option.isSome_iff_exists.mp present with ⟨other, found⟩
  have same := List.find?_some found
  rw [beq_iff_eq] at same
  rw [found, List.inj_on_of_nodup_map registry.distinct (List.mem_of_find?_eq_some found) installed same]

theorem find?_tools (registry : Registry) (name : String) :
    registry.tools.find? (fun tool => tool.name == name) =
      (registry.extensions.flatMap InstalledExtension.publicTools).find? fun tool => tool.name == name := by
  rw [tools, fetchAllTools, skipDuplicates_find?]
  exact if_neg List.not_mem_nil

theorem find?_public (installed : extension ∈ registry.extensions) (offered : toolName ∈ extension.offered) :
    (registry.tools.find? fun tool => tool.name == extension.publicName toolName).isSome = true := by
  rw [find?_tools, List.find?_isSome]
  refine ⟨⟨extension.publicName toolName, some extension.key⟩, List.mem_flatMap.mpr ⟨extension, installed, ?_⟩, ?_⟩
  · exact List.mem_map.mpr ⟨toolName, offered, rfl⟩
  · exact beq_self_eq_true _

/-- Whatever is offered was listed by an extension, which it names as its owner. -/
theorem origin_of_find? (found : registry.tools.find? (fun tool => tool.name == name) = some tool) :
    Exists fun extension => Exists fun toolName => extension ∈ registry.extensions ∧
      toolName ∈ extension.offered ∧ extension.publicName toolName = name ∧ tool.owner = some extension.key := by
  rw [find?_tools] at found
  have named := List.find?_some found
  rw [beq_iff_eq] at named
  rcases List.mem_flatMap.mp (List.mem_of_find?_eq_some found) with ⟨extension, installed, member⟩
  rcases List.mem_map.mp member with ⟨toolName, offered, rfl⟩
  exact ⟨extension, toolName, installed, offered, named, rfl⟩

/-- What becomes of a call that is taken to an extension. -/
def call (extension : InstalledExtension) (toolName : String) : Except String (InstalledExtension × String) :=
  if extension.isToolAvailable (extension.calledName toolName) = false then
    .error ("Tool '" ++ extension.calledName toolName ++ "' is not available for extension '" ++ extension.key ++ "'")
  else .ok (extension, extension.calledName toolName)

theorem resolveOwner_eq (installed : extension ∈ registry.extensions)
    (owned : tool.owner = some extension.key) :
    resolveOwner registry.extensions (extension.publicName toolName) tool =
      .ok ⟨extension.key, extension.calledName toolName, extension⟩ := by
  rw [resolveOwner, owned, Option.some_or]
  dsimp only
  rcases registry.keyed extension installed with ⟨given, made⟩
  have normal : nameToKey extension.key = extension.key := by
    rw [made, nameToKey_nameToKey]
  rw [getServerClient, normal, find?_key installed]
  rfl

theorem dispatch_of_resolve (installed : extension ∈ registry.extensions)
    (resolved : resolveTool registry.extensions registry.tools name =
      .ok ⟨extension.key, extension.calledName toolName, extension⟩) :
    registry.dispatch name = call extension toolName := by
  rw [dispatch, dispatchToolCall, resolved]
  dsimp only
  rw [find?_key installed]
  rfl

/-- A name that is offered is taken to the extension that listed the first tool of this name. -/
theorem dispatch_listed (found : registry.tools.find? (fun tool => tool.name == name) = some tool) :
    Exists fun extension => Exists fun toolName => extension ∈ registry.extensions ∧
      toolName ∈ extension.offered ∧ extension.publicName toolName = name ∧
        registry.dispatch name = call extension toolName := by
  rcases origin_of_find? found with ⟨extension, toolName, installed, offered, rfl, owned⟩
  refine ⟨extension, toolName, installed, offered, rfl, dispatch_of_resolve installed ?_⟩
  rw [resolveTool, found]
  exact resolveOwner_eq installed owned

/-- No public name stands for tools of two extensions, and no tool without a prefix of its
extension begins like one. -/
structure Unambiguous (registry : Registry) : Prop where
  apart : forall first second firstTool secondTool, first ∈ registry.extensions -> second ∈ registry.extensions ->
    firstTool ∈ first.offered -> secondTool ∈ second.offered ->
    first.publicName firstTool = second.publicName secondTool -> first = second
  unprefixed : forall extension toolName, extension ∈ registry.extensions -> toolName ∈ extension.offered ->
    ¬(extension.exposeUnprefixed = true ∧ startsWith (extension.key ++ "__") toolName = true)

theorem publicName_injective (extension : InstalledExtension) {first second : String}
    (same : extension.publicName first = extension.publicName second) : first = second := by
  rw [InstalledExtension.publicName, InstalledExtension.publicName] at same
  split at same
  · exact same
  · have texts := congrArg String.toList same
    simp only [String.toList_append, List.append_cancel_left_eq] at texts
    exact String.toList_inj.mp texts

/-- No two tools are offered under one name, and every available tool that is listed is offered
under its public name.  Calls of these names all reach the extensions that listed the tools, with
the tools' own names, exactly when the registry is unambiguous. -/
theorem routes_iff (registry : Registry) :
    (registry.tools.map PublicTool.name).Nodup ∧
      (forall extension toolName, extension ∈ registry.extensions -> toolName ∈ extension.offered ->
        extension.publicName toolName ∈ registry.tools.map PublicTool.name) ∧
      ((forall extension toolName, extension ∈ registry.extensions -> toolName ∈ extension.offered ->
        registry.dispatch (extension.publicName toolName) = .ok (extension, toolName)) ↔ registry.Unambiguous) := by
  refine ⟨(skipDuplicates_nodup [] _).1, ?_, ?_⟩
  · intro extension toolName installed offered
    rcases List.find?_isSome.mp (find?_public installed offered) with ⟨tool, member, named⟩
    exact List.mem_map.mpr ⟨tool, member, beq_iff_eq.mp named⟩
  · constructor
    · intro routes
      constructor
      · intro first second firstTool secondTool firstInstalled secondInstalled firstOffered secondOffered same
        have one := routes first firstTool firstInstalled firstOffered
        rw [same, routes second secondTool secondInstalled secondOffered] at one
        exact (Prod.ext_iff.mp (Except.ok.inj one)).1.symm
      · intro extension toolName installed offered
        rw [← InstalledExtension.calledName_eq_iff]
        rcases Option.isSome_iff_exists.mp (find?_public installed offered) with ⟨tool, found⟩
        rcases dispatch_listed found with ⟨other, otherTool, _, _, same, dispatched⟩
        rw [routes extension toolName installed offered, call] at dispatched
        split at dispatched
        · cases dispatched
        · have both := Prod.ext_iff.mp (Except.ok.inj dispatched)
          have owner : extension = other := both.1
          subst owner
          rw [publicName_injective extension same] at both
          exact both.2.symm
    · intro unambiguous extension toolName installed offered
      rcases Option.isSome_iff_exists.mp (find?_public installed offered) with ⟨tool, found⟩
      rcases dispatch_listed found with ⟨other, otherTool, otherInstalled, otherOffered, same, dispatched⟩
      have owner := unambiguous.apart other extension otherTool toolName otherInstalled installed otherOffered offered same
      subst owner
      rw [publicName_injective other same] at dispatched
      have own := (other.calledName_eq_iff toolName).mpr (unambiguous.unprefixed other toolName installed offered)
      have available := (List.mem_filter.mp offered).2
      rw [dispatched, call, own, available, if_neg (by decide)]

/-! ## What a call reaches -/

/-- The names that a text is not and that it may be a mangled form of. -/
def Mangles (emitted : String) (tools : List PublicTool) (name : String) : Prop :=
  Exists fun tool => tool ∈ tools ∧ tool.name = name ∧ name ≠ emitted ∧ isMangled (unframed emitted) tool = true

theorem mangles_cons {emitted : String} {tool : PublicTool} {rest : List PublicTool} {name : String} :
    Mangles emitted (tool :: rest) name ↔
      (tool.name = name ∧ name ≠ emitted ∧ isMangled (unframed emitted) tool = true) ∨ Mangles emitted rest name := by
  simp only [Mangles, List.exists_mem_cons_iff]

/-- A name is recovered when it alone is mangled, next to the one that has matched. -/
theorem recoverFrom_eq_some_iff (emitted : String) (matched : Option String) (tools : List PublicTool) (name : String) :
    recoverFrom emitted matched tools = some name ↔
      (matched = some name ∨ matched = none ∧ Mangles emitted tools name) ∧
        forall other, Mangles emitted tools other -> other = name := by
  induction tools generalizing matched with
  | nil =>
      have nothing : forall other, ¬Mangles emitted [] other := fun other => by simp [Mangles]
      simp [recoverFrom, nothing]
  | cons tool rest ih =>
      unfold recoverFrom
      simp only [mangles_cons]
      by_cases passes : tool.name = emitted ∨ isMangled (unframed emitted) tool = false
      · have other : forall name, ¬(tool.name = name ∧ name ≠ emitted ∧ isMangled (unframed emitted) tool = true) := by
          rintro _ ⟨rfl, new, mangled⟩
          exact passes.elim new fun plain => absurd (plain.symm.trans mangled) Bool.false_ne_true
        rw [if_pos passes, ih]
        simp only [other, false_or]
      · have mangled : forall name, (tool.name = name ∧ name ≠ emitted ∧ isMangled (unframed emitted) tool = true) ↔
            tool.name = name := by
          rw [not_or, Bool.not_eq_false] at passes
          intro name
          constructor
          · exact And.left
          · rintro rfl
            exact ⟨rfl, passes⟩
        simp only [if_neg passes, mangled, or_imp, forall_and, forall_eq']
        cases matched with
        | none =>
            simp only [ih, Option.some.injEq, reduceCtorEq, false_and, or_false, false_or, true_and]
            constructor
            · rintro ⟨same, only⟩
              exact ⟨Or.inl same, same, only⟩
            · rintro ⟨_, same, only⟩
              exact ⟨same, only⟩
        | some previous =>
            simp only [Option.some.injEq, reduceCtorEq, false_and, or_false]
            by_cases same : previous = tool.name
            · simp only [if_pos same, ih, Option.some.injEq, reduceCtorEq, false_and, or_false]
              rw [← same, and_left_comm, and_self_left]
            · simp only [if_neg same, reduceCtorEq, false_iff]
              rintro ⟨first, second, _⟩
              exact same (first.trans second.symm)

theorem recoverMangledToolName_eq_some_iff (emitted : String) (tools : List PublicTool) (name : String) :
    recoverMangledToolName emitted tools = some name ↔
      Mangles emitted tools name ∧ forall other, Mangles emitted tools other -> other = name := by
  rw [recoverMangledToolName, recoverFrom_eq_some_iff]
  simp only [reduceCtorEq, false_or, true_and]

/-- The offered name that a call stands for: its own, or else the only one that it mangles. -/
def Means (registry : Registry) (emitted name : String) : Prop :=
  (name = emitted ∧ name ∈ registry.tools.map PublicTool.name) ∨
    (emitted ∉ registry.tools.map PublicTool.name ∧ Mangles emitted registry.tools name ∧
      forall other, Mangles emitted registry.tools other -> other = name)

theorem find?_none_iff (tools : List PublicTool) (name : String) :
    tools.find? (fun tool => tool.name == name) = none ↔ name ∉ tools.map PublicTool.name := by
  rw [List.find?_eq_none, List.mem_map, not_exists]
  simp only [beq_iff_eq, not_and]

/-- A name that is not offered is taken to the extension of the name that it mangles. -/
theorem dispatch_recovered (unlisted : registry.tools.find? (fun tool => tool.name == name) = none) {recovered : String}
    (only : recoverMangledToolName name registry.tools = some recovered) :
    Exists fun extension => Exists fun toolName => extension ∈ registry.extensions ∧
      toolName ∈ extension.offered ∧ extension.publicName toolName = recovered ∧
        registry.dispatch name = call extension toolName := by
  rcases (recoverMangledToolName_eq_some_iff _ _ _).mp only with ⟨⟨tool, member, named, _, _⟩, _⟩
  cases found : registry.tools.find? fun tool => tool.name == recovered with
  | none => exact absurd (List.mem_map.mpr ⟨tool, member, named⟩) ((find?_none_iff _ _).mp found)
  | some first =>
      rcases origin_of_find? found with ⟨extension, toolName, installed, offered, rfl, owned⟩
      refine ⟨extension, toolName, installed, offered, rfl, dispatch_of_resolve installed ?_⟩
      rw [resolveTool, unlisted]
      dsimp only
      rw [only]
      dsimp only
      rw [found]
      exact resolveOwner_eq installed owned

/-- What becomes of a call: it is taken to an extension that listed a tool under the name that it
stands for, with a name that the extension makes available; or it stands for no name, or what
is left of the name is not available. -/
def Reaches (registry : Registry) (emitted : String) : Except String (InstalledExtension × String) -> Prop
  | .ok reached => Exists fun toolName => reached.1 ∈ registry.extensions ∧ toolName ∈ reached.1.offered ∧
      registry.Means emitted (reached.1.publicName toolName) ∧ reached.2 = reached.1.calledName toolName ∧
        reached.1.isToolAvailable reached.2 = true
  | .error _ => (forall name, ¬registry.Means emitted name) ∨
      Exists fun extension => Exists fun toolName => extension ∈ registry.extensions ∧ toolName ∈ extension.offered ∧
        registry.Means emitted (extension.publicName toolName) ∧
          extension.isToolAvailable (extension.calledName toolName) = false

theorem Reaches.call {emitted : String} (installed : extension ∈ registry.extensions)
    (offered : toolName ∈ extension.offered) (means : registry.Means emitted (extension.publicName toolName)) :
    registry.Reaches emitted (call extension toolName) := by
  rw [Registry.call]
  cases available : extension.isToolAvailable (extension.calledName toolName) with
  | false =>
      rw [if_pos rfl]
      exact Or.inr ⟨extension, toolName, installed, offered, means, available⟩
  | true =>
      rw [if_neg (by decide)]
      exact ⟨toolName, installed, offered, means, rfl, available⟩

/-- A call of any name, whatever the extensions list, reaches the extension of the one offered name
that it stands for. -/
theorem dispatch_reaches (registry : Registry) (emitted : String) :
    (forall first second, registry.Means emitted first -> registry.Means emitted second -> first = second) ∧
      registry.Reaches emitted (registry.dispatch emitted) := by
  constructor
  · rintro first second (⟨rfl, listed⟩ | ⟨unlisted, _, only⟩) (⟨same, member⟩ | ⟨fresh, mangled, _⟩)
    · exact same.symm
    · exact absurd listed fresh
    · exact absurd (same ▸ member) unlisted
    · exact (only second mangled).symm
  cases listed : registry.tools.find? fun tool => tool.name == emitted with
  | some tool =>
      rcases dispatch_listed listed with ⟨extension, toolName, installed, offered, same, dispatched⟩
      rw [dispatched]
      refine Reaches.call installed offered (Or.inl ⟨same, ?_⟩)
      rw [same]
      exact List.mem_map.mpr ⟨tool, List.mem_of_find?_eq_some listed, by simpa using List.find?_some listed⟩
  | none =>
      have unlisted := (find?_none_iff _ _).mp listed
      cases only : recoverMangledToolName emitted registry.tools with
      | some recovered =>
          rcases dispatch_recovered listed only with ⟨extension, toolName, installed, offered, same, dispatched⟩
          rw [dispatched]
          refine Reaches.call installed offered (Or.inr ⟨unlisted, ?_⟩)
          rw [same]
          exact (recoverMangledToolName_eq_some_iff _ _ _).mp only
      | none =>
          have refused : registry.dispatch emitted = .error (notFound registry.tools emitted) := by
            rw [dispatch, dispatchToolCall, resolveTool, listed]
            dsimp only
            rw [only]
          rw [refused]
          refine Or.inl fun name means => ?_
          rcases means with ⟨same, member⟩ | ⟨_, mangled⟩
          · exact unlisted (same ▸ member)
          · rw [(recoverMangledToolName_eq_some_iff _ _ _).mpr mangled] at only
            cases only

end Registry

end Extensions
end AIBuddy
