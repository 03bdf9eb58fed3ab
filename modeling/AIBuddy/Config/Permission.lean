import Mathlib.Data.List.Count

namespace AIBuddy

/-!
# Tool permissions

A permission map lists, for each category, the tools that may always run, that
need a question first, and that never run.  Operations rewrite the map.  What they
are for is said on levels: each operation sets or forgets the level of some tools.
-/

/-! ## The map -/

/-- The possible permission levels of a tool. -/
inductive PermissionLevel where
  | alwaysAllow
  | askBefore
  | neverAllow
deriving DecidableEq, Repr

/-- The permissions of one category, by level. -/
structure PermissionConfig where
  alwaysAllow : List String
  askBefore : List String
  neverAllow : List String
deriving DecidableEq, Repr

/-- The permissions of all categories. -/
abbrev PermissionMap := String -> Option PermissionConfig

def userPermission : String := "user"

def smartApprovePermission : String := "smart_approve"

namespace PermissionConfig

/-- A category without tools. -/
def empty : PermissionConfig := ⟨[], [], []⟩

/-- Keep the tools of the three lists that satisfy a test. -/
def retain (config : PermissionConfig) (keeps : String -> Bool) : PermissionConfig :=
  ⟨config.alwaysAllow.filter keeps, config.askBefore.filter keeps, config.neverAllow.filter keeps⟩

/-- Add a tool at the end of the list of a level. -/
def push (config : PermissionConfig) (level : PermissionLevel) (toolName : String) : PermissionConfig :=
  match level with
  | .alwaysAllow => { config with alwaysAllow := config.alwaysAllow ++ [toolName] }
  | .askBefore => { config with askBefore := config.askBefore ++ [toolName] }
  | .neverAllow => { config with neverAllow := config.neverAllow ++ [toolName] }

/-- Take a tool out of all lists and put it into the list of its new level. -/
def update (config : PermissionConfig) (level : PermissionLevel) (toolName : String) : PermissionConfig :=
  (config.retain fun name => name != toolName).push level toolName

/-- The level of a tool in a category. -/
def level (config : PermissionConfig) (principalName : String) : Option PermissionLevel :=
  if principalName ∈ config.neverAllow then some .neverAllow
  else if principalName ∈ config.alwaysAllow then some .alwaysAllow
  else if principalName ∈ config.askBefore then some .askBefore
  else none

/-- How often a tool stands in the three lists. -/
def occurrences (config : PermissionConfig) (toolName : String) : Nat :=
  config.alwaysAllow.count toolName + config.askBefore.count toolName + config.neverAllow.count toolName

end PermissionConfig

namespace PermissionMap

/-- The map without categories. -/
def empty : PermissionMap := fun _ => none

/-- Change one category, which is created when it is missing. -/
def entry (map : PermissionMap) (name : String) (change : PermissionConfig -> PermissionConfig) :
    PermissionMap :=
  fun other => if other = name then some (change ((map name).getD PermissionConfig.empty)) else map other

def getPermission (map : PermissionMap) (name principalName : String) : Option PermissionLevel :=
  (map name).bind fun config => config.level principalName

/-- How often a tool stands in the lists of a category. -/
def occurrences (map : PermissionMap) (name toolName : String) : Nat :=
  ((map name).getD PermissionConfig.empty).occurrences toolName

end PermissionMap

/-! ## The operations -/

def belongsToExtension (principalName extensionName : String) : Bool :=
  !extensionName.toList.isEmpty && extensionName.toList.isPrefixOf principalName.toList &&
    "__".toList.isPrefixOf (principalName.toList.drop extensionName.toList.length)

/-- The operations that rewrite the stored permissions. -/
inductive PermissionOperation where
  | updateUserPermission (principalName : String) (level : PermissionLevel)
  | updateSmartApprovePermission (principalName : String) (level : PermissionLevel)
  | bulkUpdateSmartApprovePermissions (toolNames : List String) (level : PermissionLevel)
  | removeExtension (extensionName : String)
  | clearPermissions
deriving DecidableEq, Repr

def updatePermission (name principalName : String) (level : PermissionLevel) (map : PermissionMap) :
    PermissionMap :=
  map.entry name fun config => config.update level principalName

def bulkUpdateSmartApprovePermissions (toolNames : List String) (level : PermissionLevel)
    (map : PermissionMap) : PermissionMap :=
  map.entry smartApprovePermission fun config =>
    toolNames.foldl (fun config toolName => config.update level toolName) config

def removeExtension (extensionName : String) (map : PermissionMap) : PermissionMap :=
  fun name => (map name).map fun config => config.retain fun tool => !belongsToExtension tool extensionName

/-- The change that an operation makes to the map. -/
def PermissionOperation.mutation : PermissionOperation -> PermissionMap -> PermissionMap
  | updateUserPermission principalName level => updatePermission userPermission principalName level
  | updateSmartApprovePermission principalName level =>
      updatePermission smartApprovePermission principalName level
  | bulkUpdateSmartApprovePermissions toolNames level =>
      AIBuddy.bulkUpdateSmartApprovePermissions toolNames level
  | removeExtension extensionName => AIBuddy.removeExtension extensionName
  | clearPermissions => fun _ => PermissionMap.empty

/-! ## What the operations mean -/

/-- The level of each tool in each category. -/
abbrev PermissionLevels := String -> String -> Option PermissionLevel

namespace PermissionOperation

/-- Whether an operation sets the level of a tool. -/
def updates : PermissionOperation -> String -> String -> Bool
  | updateUserPermission principalName _, name, tool => name == userPermission && tool == principalName
  | updateSmartApprovePermission principalName _, name, tool =>
      name == smartApprovePermission && tool == principalName
  | bulkUpdateSmartApprovePermissions toolNames _, name, tool =>
      name == smartApprovePermission && toolNames.contains tool
  | removeExtension _, _, _ => false
  | clearPermissions, _, _ => false

/-- The level that an updating operation sets. -/
def newLevel : PermissionOperation -> Option PermissionLevel
  | updateUserPermission _ level => some level
  | updateSmartApprovePermission _ level => some level
  | bulkUpdateSmartApprovePermissions _ level => some level
  | removeExtension _ => none
  | clearPermissions => none

/-- Whether an operation makes the level of a tool unknown. -/
def forgets : PermissionOperation -> String -> Bool
  | removeExtension extensionName, tool => belongsToExtension tool extensionName
  | clearPermissions, _ => true
  | _, _ => false

/-- The levels after an operation. -/
def assign (operation : PermissionOperation) (levels : PermissionLevels) : PermissionLevels :=
  fun name tool =>
    if operation.updates name tool then operation.newLevel
    else if operation.forgets tool then none
    else levels name tool

end PermissionOperation

/-! ## Updates of one category -/

namespace PermissionConfig

@[simp] theorem level_empty (tool : String) : empty.level tool = none := rfl

@[simp] theorem occurrences_empty (tool : String) : empty.occurrences tool = 0 := rfl

theorem level_retain (config : PermissionConfig) (keeps : String -> Bool) (tool : String) :
    (config.retain keeps).level tool = if keeps tool then config.level tool else none := by
  cases kept : keeps tool with
  | true => simp [level, retain, List.mem_filter, kept]
  | false => simp [level, retain, List.mem_filter, kept]

theorem level_update (config : PermissionConfig) (level : PermissionLevel) (toolName tool : String) :
    (config.update level toolName).level tool = if tool = toolName then some level else config.level tool := by
  by_cases same : tool = toolName
  · subst same
    cases level <;> simp [update, push, retain, PermissionConfig.level]
  · cases level <;> simp [update, push, retain, PermissionConfig.level, same]

theorem level_updates (toolNames : List String) (level : PermissionLevel) (config : PermissionConfig)
    (tool : String) :
    (toolNames.foldl (fun config toolName => config.update level toolName) config).level tool =
      if tool ∈ toolNames then some level else config.level tool := by
  induction toolNames generalizing config with
  | nil => simp
  | cons toolName rest ih =>
      rw [List.foldl_cons, ih, level_update]
      by_cases later : tool ∈ rest
      · simp [later]
      · simp [later]

end PermissionConfig

/-! ## Operations on the map -/

namespace PermissionMap

theorem getPermission_entry (map : PermissionMap) (name other tool : String)
    (change : PermissionConfig -> PermissionConfig) :
    (map.entry name change).getPermission other tool =
      if other = name then (change ((map name).getD PermissionConfig.empty)).level tool
      else map.getPermission other tool := by
  by_cases same : other = name
  · simp [getPermission, entry, same]
  · simp [getPermission, entry, same]

theorem level_getD (map : PermissionMap) (name tool : String) :
    ((map name).getD PermissionConfig.empty).level tool = map.getPermission name tool := by
  cases found : map name with
  | none => simp [getPermission, found]
  | some config => simp [getPermission, found]

end PermissionMap

namespace PermissionOperation

theorem getPermission_mutation (operation : PermissionOperation) (map : PermissionMap) :
    (operation.mutation map).getPermission = operation.assign map.getPermission := by
  funext name tool
  cases operation with
  | updateUserPermission principalName level =>
      simp only [mutation, updatePermission, PermissionMap.getPermission_entry, PermissionConfig.level_update]
      by_cases category : name = userPermission
      · subst category
        simp [assign, updates, forgets, newLevel, PermissionMap.level_getD]
      · simp [assign, updates, forgets, category]
  | updateSmartApprovePermission principalName level =>
      simp only [mutation, updatePermission, PermissionMap.getPermission_entry, PermissionConfig.level_update]
      by_cases category : name = smartApprovePermission
      · subst category
        simp [assign, updates, forgets, newLevel, PermissionMap.level_getD]
      · simp [assign, updates, forgets, category]
  | bulkUpdateSmartApprovePermissions toolNames level =>
      simp only [mutation, AIBuddy.bulkUpdateSmartApprovePermissions, PermissionMap.getPermission_entry,
        PermissionConfig.level_updates]
      by_cases category : name = smartApprovePermission
      · subst category
        simp [assign, updates, forgets, newLevel, PermissionMap.level_getD]
      · simp [assign, updates, forgets, category]
  | removeExtension extensionName =>
      cases found : map name with
      | none => simp [mutation, AIBuddy.removeExtension, assign, updates, PermissionMap.getPermission, found]
      | some config =>
          simp only [mutation, AIBuddy.removeExtension, assign, updates, forgets, PermissionMap.getPermission,
            found, Option.map_some, Option.bind_some, PermissionConfig.level_retain]
          cases belongsToExtension tool extensionName with
          | true => simp
          | false => simp
  | clearPermissions =>
      simp [mutation, assign, updates, forgets, PermissionMap.getPermission, PermissionMap.empty]

end PermissionOperation

end AIBuddy
