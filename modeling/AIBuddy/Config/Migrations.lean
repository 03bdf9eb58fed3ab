import AIBuddy.Support.Text
import AIBuddy.Support.Yaml

namespace AIBuddy
namespace Config

open YamlMapping

/-!
# Migrations of the configuration

A configuration that is about to be written is brought into its present layout first: the
extensions of the platform are entered, and the flat keys of providers become a block with an
entry for each provider and a key that names the active one.

How entries are read from YAML and written to it belongs to other packages and is passed in.
-/

structure ProviderEntry where
  enabled : Bool
  model : String
  configured : Bool
deriving DecidableEq, Repr

/-- The configuration of an extension, as far as the migration looks at it. -/
inductive ExtensionConfig where
  | platform (name description : String) (displayName : Option String) (bundled : Option Bool)
      (availableTools : List String)
  | builtin (name description : String) (displayName : Option String) (timeout : Option Nat) (bundled : Option Bool)
      (availableTools : List String)
  | other
deriving DecidableEq, Repr

structure ExtensionEntry where
  enabled : Bool
  config : ExtensionConfig
deriving DecidableEq, Repr

/-- The readers and writers of other packages.  What is written for an entry is read as that
entry.  A text may be read as a mapping when it holds one as JSON. -/
structure Formats where
  readProvider : Yaml -> Option ProviderEntry
  writeProvider : ProviderEntry -> Yaml
  readProvider_write : forall entry, readProvider (writeProvider entry) = some entry
  readExtension : Yaml -> Option ExtensionEntry
  writeExtension : ExtensionEntry -> Yaml
  readExtension_write : forall entry, entry.config ≠ .other -> readExtension (writeExtension entry) = some entry
  mappingOfText : String -> Option YamlMapping

/-- An extension of the platform. -/
structure PlatformExtensionDef where
  name : String
  description : String
  displayName : String
  defaultEnabled : Bool

/-- The extensions of the platform, in the order in which they are gone through. -/
structure PlatformExtensions where
  defs : List PlatformExtensionDef
  distinct : (defs.map PlatformExtensionDef.name).Nodup

/-! ## Readers -/

/-- A parameter that is a text. -/
def getString (config : YamlMapping) (key : String) : Option String :=
  (config.get key).bind Yaml.asStr

/-- A parameter that is a mapping, the empty one if it is none. -/
def getMapping (formats : Formats) (config : YamlMapping) (key : String) : YamlMapping :=
  match config.get key with
  | none => []
  | some value => (value.asMapping.or (value.asStr.bind formats.mappingOfText)).getD []

/-- The entries of a block of providers that can be read. -/
def parseProvidersMap (formats : Formats) (raw : YamlMapping) : List (String × ProviderEntry) :=
  raw.filterMap fun entry =>
    match entry.1, formats.readProvider entry.2 with
    | .string name, some provider => some (name, provider)
    | _, _ => none

/-- The entry of a provider; the last one counts. -/
def getProviderEntry (formats : Formats) (config : YamlMapping) (name : String) : Option ProviderEntry :=
  (parseProvidersMap formats (getMapping formats config "providers")).reverse.lookup name

def getActiveProvider (config : YamlMapping) : Option String :=
  (getString config "active_provider").or (getString config "AIBUDDY_PROVIDER")

def getActiveModel (formats : Formats) (config : YamlMapping) : Option String :=
  match ((getActiveProvider config).bind (getProviderEntry formats config)).filter fun entry => entry.model ≠ "" with
  | some entry => some entry.model
  | none => getString config "AIBUDDY_MODEL"

/-! ## Extensions of the platform -/

def readEnabledField (value : Yaml) : Option Bool :=
  (value.asMapping.bind fun fields => YamlMapping.get fields "enabled").bind Yaml.asBool

/-- Whether an extension is missing or described in another way. -/
def needsMigration (formats : Formats) (extension : PlatformExtensionDef) (existing : Option Yaml) : Bool :=
  match existing.bind formats.readExtension with
  | none => true
  | some entry =>
      match entry.config with
      | .platform _ description displayName _ _ | .builtin _ description displayName _ _ _ =>
          description != extension.description || displayName != some extension.displayName
      | .other => true

/-- The entry that an extension gets: it stays enabled or disabled, keeps the choice of its tools,
and remains built in. -/
def migratedEntry (formats : Formats) (extension : PlatformExtensionDef) (existing : Option Yaml) : ExtensionEntry :=
  { enabled := (existing.bind readEnabledField).getD extension.defaultEnabled
    config :=
      match (existing.bind formats.readExtension).map ExtensionEntry.config with
      | some (.builtin _ _ _ _ _ availableTools) =>
          .builtin extension.name extension.description (some extension.displayName) none (some true) availableTools
      | some (.platform _ _ _ _ availableTools) =>
          .platform extension.name extension.description (some extension.displayName) (some true) availableTools
      | _ => .platform extension.name extension.description (some extension.displayName) (some true) [] }

/-- Enter one extension, with the word whether anything has changed so far. -/
def migrateExtension (formats : Formats) (state : YamlMapping × Bool) (extension : PlatformExtensionDef) :
    YamlMapping × Bool :=
  let existing := state.1.get extension.name
  if needsMigration formats extension existing then
    (state.1.insert extension.name (formats.writeExtension (migratedEntry formats extension existing)), true)
  else state

/-- The mapping of extensions, the empty one if there is none. -/
def extensionsMap (config : YamlMapping) : YamlMapping :=
  match config.get "extensions" with
  | some (.mapping entries) => entries
  | _ => []

def migratePlatformExtensions (formats : Formats) (platform : PlatformExtensions) (config : YamlMapping) :
    YamlMapping × Bool :=
  let migrated := platform.defs.foldl (migrateExtension formats) (extensionsMap config, false)
  if migrated.2 then (config.insert "extensions" (.mapping migrated.1), true) else (config, false)

/-! ## Providers -/

def configuredSuffix : String := "_configured"

/-- Whether a key is a flat key of the old layout. -/
def isLegacyKey (key : Yaml) : Bool :=
  match key.asStr with
  | some name => name == "AIBUDDY_PROVIDER" || name == "AIBUDDY_MODEL" || (Text.stripSuffix configuredSuffix name).isSome
  | none => false

/-- Remove the flat keys that are left over. -/
def cleanupLegacyProviderKeys (config : YamlMapping) : YamlMapping × Bool :=
  (config.filter fun entry => !isLegacyKey entry.1, config.any fun entry => isLegacyKey entry.1)

/-- A text without all suffixes of a kind, at most so many. -/
def trimSuffixes (suffix : String) : Nat -> String -> String
  | 0, text => text
  | bound + 1, text =>
      match Text.stripSuffix suffix text with
      | some rest => trimSuffixes suffix bound rest
      | none => text

def trimEndMatches (suffix text : String) : String :=
  trimSuffixes suffix text.toList.length text

/-- The provider that a key marks as configured. -/
def markedProvider (key : Yaml) : Option String :=
  key.asStr.bind fun name =>
    (Text.stripSuffix configuredSuffix name).map fun _ => trimEndMatches configuredSuffix name

/-- The providers that were in use: the marked ones, and the active one. -/
def discoveredProviders (config : YamlMapping) : List String :=
  let marked := (config.map Prod.fst).filterMap markedProvider
  match getString config "AIBUDDY_PROVIDER" with
  | some active => if active ∈ marked then marked else marked ++ [active]
  | none => marked

/-- The block of providers. -/
def providersBlock (formats : Formats) (active : Option String) (model : String) (names : List String) : YamlMapping :=
  names.foldl
    (fun block name =>
      block.insert name (formats.writeProvider ⟨true, if active = some name then model else "", true⟩))
    []

/-- Remove the flat keys that were migrated. -/
def removeMigrated (names : List String) (config : YamlMapping) : YamlMapping :=
  names.foldl (fun config name => config.shiftRemove (name ++ configuredSuffix))
    ((config.shiftRemove "AIBUDDY_PROVIDER").shiftRemove "AIBUDDY_MODEL")

def migrateProviderConfig (formats : Formats) (config : YamlMapping) : YamlMapping × Bool :=
  if config.containsKey "providers" then
    cleanupLegacyProviderKeys
      (if config.containsKey "active_provider" then config
       else
        match getString config "AIBUDDY_PROVIDER" with
        | some legacy => config.insert "active_provider" (.string legacy)
        | none => config)
  else
    let active := getString config "AIBUDDY_PROVIDER"
    let model := (getString config "AIBUDDY_MODEL").getD ""
    let names := discoveredProviders config
    if names = [] ∧ active = none then (config, false)
    else
      let block := config.insert "providers" (.mapping (providersBlock formats active model names))
      let named :=
        match active with
        | some provider => block.insert "active_provider" (.string provider)
        | none => block
      (removeMigrated names named, true)

/-- All migrations, with the word whether anything has changed. -/
def runMigrations (formats : Formats) (platform : PlatformExtensions) (config : YamlMapping) : YamlMapping × Bool :=
  let extensions := migratePlatformExtensions formats platform config
  let providers := migrateProviderConfig formats extensions.1
  (providers.1, extensions.2 || providers.2)

end Config
end AIBuddy
