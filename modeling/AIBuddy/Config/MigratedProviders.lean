import Mathlib.Data.Bool.AllAny
import AIBuddy.Config.Migrations

namespace AIBuddy
namespace Config

open YamlMapping

/-!
# Providers of a migrated configuration

The active provider and its model are read from a migrated configuration as from the one
before, and a second migration changes nothing, under conditions on the flat keys and the
structured ones that are there before.
-/

variable {formats : Formats} {platform : PlatformExtensions} {config : YamlMapping}

/-! ## Extensions of the platform -/

/-- No extension has to be entered. -/
def Settled (formats : Formats) (defs : List PlatformExtensionDef) (extensions : YamlMapping) : Prop :=
  forall extension, extension ∈ defs -> needsMigration formats extension (extensions.get extension.name) = false

theorem migratedEntry_config (extension : PlatformExtensionDef) (existing : Option Yaml) :
    Exists fun availableTools =>
      (migratedEntry formats extension existing).config =
          .builtin extension.name extension.description (some extension.displayName) none (some true) availableTools ∨
        (migratedEntry formats extension existing).config =
          .platform extension.name extension.description (some extension.displayName) (some true) availableTools := by
  rw [migratedEntry]
  dsimp only
  split
  · exact ⟨_, Or.inl rfl⟩
  · exact ⟨_, Or.inr rfl⟩
  · exact ⟨_, Or.inr rfl⟩

theorem needsMigration_written (extension : PlatformExtensionDef) (existing : Option Yaml) :
    needsMigration formats extension
      (some (formats.writeExtension (migratedEntry formats extension existing))) = false := by
  rcases @migratedEntry_config formats extension existing with ⟨availableTools, shape⟩
  have known : (migratedEntry formats extension existing).config ≠ .other := by
    intro other
    rw [other] at shape
    rcases shape with same | same <;> cases same
  rw [needsMigration, Option.bind_some, formats.readExtension_write _ known]
  rcases shape with same | same
  · simp [same]
  · simp [same]

theorem migrateExtension_get_of_ne (state : YamlMapping × Bool) (extension : PlatformExtensionDef) {key : String}
    (different : key ≠ extension.name) : (migrateExtension formats state extension).1.get key = state.1.get key := by
  rw [migrateExtension]
  split
  · exact get_insert_of_ne _ _ different
  · rfl

theorem migrateExtension_settles (state : YamlMapping × Bool) (extension : PlatformExtensionDef) :
    needsMigration formats extension ((migrateExtension formats state extension).1.get extension.name) = false := by
  rw [migrateExtension]
  split
  case isTrue => rw [get_insert_self, needsMigration_written]
  case isFalse quiet => exact Bool.not_eq_true _ ▸ quiet

theorem foldl_migrateExtension_get (defs : List PlatformExtensionDef) (state : YamlMapping × Bool) {key : String}
    (fresh : key ∉ defs.map PlatformExtensionDef.name) :
    (defs.foldl (migrateExtension formats) state).1.get key = state.1.get key := by
  induction defs generalizing state with
  | nil => rfl
  | cons extension defs ih =>
      rw [List.map_cons, List.mem_cons, not_or] at fresh
      rw [List.foldl_cons, ih _ fresh.2, migrateExtension_get_of_ne _ _ fresh.1]

/-- After all extensions were gone through, none has to be entered. -/
theorem foldl_migrateExtension_settled (defs : List PlatformExtensionDef)
    (distinct : (defs.map PlatformExtensionDef.name).Nodup) (state : YamlMapping × Bool) :
    Settled formats defs (defs.foldl (migrateExtension formats) state).1 := by
  induction defs generalizing state with
  | nil =>
      intro extension member
      cases member
  | cons first defs ih =>
      rw [List.map_cons, List.nodup_cons] at distinct
      intro extension member
      rw [List.foldl_cons]
      rcases List.mem_cons.mp member with here | later
      · rw [here, foldl_migrateExtension_get defs _ distinct.1]
        exact migrateExtension_settles state first
      · exact ih distinct.2 _ extension later

theorem foldl_migrateExtension_of_settled {defs : List PlatformExtensionDef} {state : YamlMapping × Bool}
    (settled : Settled formats defs state.1) : defs.foldl (migrateExtension formats) state = state := by
  induction defs with
  | nil => rfl
  | cons extension defs ih =>
      have quiet := settled extension List.mem_cons_self
      have same : migrateExtension formats state extension = state := by
        rw [migrateExtension, quiet]
        rfl
      rw [List.foldl_cons, same]
      exact ih fun other member => settled other (List.mem_cons_of_mem _ member)

theorem foldl_migrateExtension_unchanged (defs : List PlatformExtensionDef) (state : YamlMapping × Bool)
    (unchanged : (defs.foldl (migrateExtension formats) state).2 = false) :
    defs.foldl (migrateExtension formats) state = state := by
  induction defs generalizing state with
  | nil => rfl
  | cons extension defs ih =>
      rw [List.foldl_cons] at unchanged ⊢
      have rest := ih _ unchanged
      rw [rest] at unchanged ⊢
      rw [migrateExtension] at unchanged ⊢
      split at unchanged
      case isTrue => cases unchanged
      case isFalse quiet => rw [if_neg quiet]

theorem platform_shape (config : YamlMapping) :
    (migratePlatformExtensions formats platform config).1 = config ∨
      Exists fun extensions => (migratePlatformExtensions formats platform config).1 =
        config.insert "extensions" (.mapping extensions) := by
  rw [migratePlatformExtensions]
  split
  · exact Or.inr ⟨_, rfl⟩
  · exact Or.inl rfl

theorem platform_settled (config : YamlMapping) :
    Settled formats platform.defs (extensionsMap (migratePlatformExtensions formats platform config).1) := by
  have settled := @foldl_migrateExtension_settled formats platform.defs platform.distinct
    (extensionsMap config, false)
  rw [migratePlatformExtensions]
  split
  case isTrue => rw [extensionsMap, get_insert_self]; exact settled
  case isFalse unchanged =>
      rw [Bool.not_eq_true] at unchanged
      rw [foldl_migrateExtension_unchanged _ _ unchanged] at settled
      exact settled

theorem platform_of_settled (settled : Settled formats platform.defs (extensionsMap config)) :
    migratePlatformExtensions formats platform config = (config, false) := by
  rw [migratePlatformExtensions, foldl_migrateExtension_of_settled settled, if_neg Bool.false_ne_true]

/-! ## What the platform's migration leaves alone -/

theorem platform_get {key : String} (different : key ≠ "extensions") :
    (migratePlatformExtensions formats platform config).1.get key = config.get key := by
  rcases @platform_shape formats platform config with same | ⟨extensions, same⟩
  · rw [same]
  · rw [same, get_insert_of_ne _ _ different]

theorem filterMap_keys_insert {β : Type} (mapping : YamlMapping) {key : String} (value : Yaml) {view : Yaml -> Option β}
    (unseen : view (.string key) = none) :
    ((mapping.insert key value).map Prod.fst).filterMap view = (mapping.map Prod.fst).filterMap view := by
  induction mapping with
  | nil =>
      rw [YamlMapping.insert, List.map_singleton, List.filterMap_cons_none unseen]
      rfl
  | cons entry rest ih =>
      rw [YamlMapping.insert]
      split
      case isTrue here =>
          have named : view entry.1 = none := by
            rw [Yaml.isKey_iff.mp here]
            exact unseen
          rw [List.map_cons, List.map_cons, List.filterMap_cons_none unseen, List.filterMap_cons_none named]
      case isFalse => rw [List.map_cons, List.map_cons, List.filterMap_cons, List.filterMap_cons, ih]

theorem platform_discovered :
    discoveredProviders (migratePlatformExtensions formats platform config).1 = discoveredProviders config := by
  have marked : ((migratePlatformExtensions formats platform config).1.map Prod.fst).filterMap markedProvider =
      (config.map Prod.fst).filterMap markedProvider := by
    rcases @platform_shape formats platform config with same | ⟨extensions, same⟩
    · rw [same]
    · rw [same, filterMap_keys_insert _ _ (by decide +kernel)]
  rw [discoveredProviders, marked, getString, platform_get (by decide), discoveredProviders, getString]

/-- The keys of the layout that the migrations lead to. -/
def layoutKeys : List String := ["providers", "active_provider", "extensions"]

theorem layout_plain {key : String} (known : key ∈ layoutKeys) :
    (key ≠ "AIBUDDY_PROVIDER" ∧ key ≠ "AIBUDDY_MODEL") ∧ Text.stripSuffix configuredSuffix key = none := by
  have checked : forall other, other ∈ layoutKeys ->
      (other ≠ "AIBUDDY_PROVIDER" ∧ other ≠ "AIBUDDY_MODEL") ∧ Text.stripSuffix configuredSuffix other = none :=
    List.all_iff_forall_prop.mp (by decide +kernel)
  exact checked key known

theorem layout_not_legacy {key : String} (known : key ∈ layoutKeys) : isLegacyKey (.string key) = false := by
  rcases layout_plain known with ⟨⟨provider, model⟩, plain⟩
  simp [isLegacyKey, Yaml.asStr, provider, model, plain]

theorem platform_legacy {key : Yaml} (legacy : isLegacyKey key = true) :
    key ∈ (migratePlatformExtensions formats platform config).1.map Prod.fst ↔ key ∈ config.map Prod.fst := by
  rcases @platform_shape formats platform config with same | ⟨extensions, same⟩
  · rw [same]
  · rw [same, mem_keys_insert]
    apply or_iff_right
    intro named
    rw [named, layout_not_legacy (by decide)] at legacy
    contradiction

/-! ## A block of providers that exists -/

theorem cleanup_get (key : String) :
    (cleanupLegacyProviderKeys config).1.get key =
      if isLegacyKey (.string key) = true then none else config.get key := by
  rw [cleanupLegacyProviderKeys, get_filter config fun present => !isLegacyKey present]
  cases isLegacyKey (.string key) <;> rfl

theorem cleanup_layout {key : String} (known : key ∈ layoutKeys) :
    (cleanupLegacyProviderKeys config).1.get key = config.get key := by
  rw [cleanup_get, layout_not_legacy known, if_neg Bool.false_ne_true]

theorem cleanup_flat {key : String} (flat : key = "AIBUDDY_PROVIDER" ∨ key = "AIBUDDY_MODEL") :
    (cleanupLegacyProviderKeys config).1.get key = none := by
  have legacy : isLegacyKey (.string key) = true := by
    rcases flat with same | same <;> simp [isLegacyKey, Yaml.asStr, same]
  rw [cleanup_get, if_pos legacy]

theorem cleanup_idle : cleanupLegacyProviderKeys (cleanupLegacyProviderKeys config).1 =
    ((cleanupLegacyProviderKeys config).1, false) := by
  rw [cleanupLegacyProviderKeys, cleanupLegacyProviderKeys]
  dsimp only
  rw [List.filter_filter]
  simp only [Bool.and_self, Prod.mk.injEq, true_and, List.any_filter]
  rw [List.any_eq_false]
  intro entry _
  cases isLegacyKey entry.1 <;> decide

/-- The configuration with the active provider filled in from the flat key. -/
def backfilled (config : YamlMapping) : YamlMapping :=
  if config.containsKey "active_provider" then config
  else
    match getString config "AIBUDDY_PROVIDER" with
    | some legacy => config.insert "active_provider" (.string legacy)
    | none => config

theorem backfilled_get {key : String} (different : key ≠ "active_provider") :
    (backfilled config).get key = config.get key := by
  rw [backfilled]
  split
  · rfl
  · split
    · exact get_insert_of_ne _ _ different
    · rfl

theorem migrate_of_providers (present : config.containsKey "providers" = true) :
    migrateProviderConfig formats config = cleanupLegacyProviderKeys (backfilled config) := by
  rw [migrateProviderConfig, if_pos present]
  rfl

theorem getString_of_get {left right : YamlMapping} {key : String} (same : left.get key = right.get key) :
    getString left key = getString right key := by
  rw [getString, same, getString]

theorem backfilled_active :
    getString (backfilled config) "active_provider" =
      if config.containsKey "active_provider" = true then getString config "active_provider"
      else getString config "AIBUDDY_PROVIDER" := by
  rw [backfilled]
  split
  case isTrue => rfl
  case isFalse absent =>
      cases legacy : getString config "AIBUDDY_PROVIDER" with
      | some name =>
          dsimp only
          rw [getString, get_insert_self]
          rfl
      | none =>
          dsimp only
          rw [Bool.not_eq_true, containsKey, Option.isSome_eq_false_iff, Option.isNone_iff_eq_none] at absent
          rw [getString, absent]
          rfl

theorem getActiveProvider_cleanup :
    getActiveProvider (cleanupLegacyProviderKeys config).1 = getString config "active_provider" := by
  have flat : getString (cleanupLegacyProviderKeys config).1 "AIBUDDY_PROVIDER" = none := by
    rw [getString, cleanup_flat (Or.inl rfl)]
    rfl
  have named : getString (cleanupLegacyProviderKeys config).1 "active_provider" =
      getString config "active_provider" := by
    apply getString_of_get
    rw [cleanup_layout (by decide)]
  rw [getActiveProvider, flat, named, Option.or_none]

theorem active_kept_iff (present : config.containsKey "providers" = true) :
    getActiveProvider (migrateProviderConfig formats config).1 = getActiveProvider config ↔
      config.containsKey "active_provider" = false ∨ (getString config "active_provider").isSome = true ∨
        getString config "AIBUDDY_PROVIDER" = none := by
  rw [migrate_of_providers present, getActiveProvider_cleanup, backfilled_active, getActiveProvider]
  cases held : config.containsKey "active_provider" with
  | true =>
      rw [if_pos rfl]
      cases getString config "active_provider" with
      | some name => simp
      | none =>
          cases getString config "AIBUDDY_PROVIDER" with
          | some legacy => simp
          | none => simp
  | false =>
      have none : getString config "active_provider" = none := by
        rw [containsKey, Option.isSome_eq_false_iff, Option.isNone_iff_eq_none] at held
        rw [getString, held]
        rfl
      rw [none]
      simp

theorem getProviderEntry_of_get {left right : YamlMapping} (same : left.get "providers" = right.get "providers") :
    getProviderEntry formats left = getProviderEntry formats right := by
  funext name
  rw [getProviderEntry, getMapping, same, getProviderEntry, getMapping]

/-- The entry of the active provider, when it names a model. -/
def activeEntry (formats : Formats) (config : YamlMapping) : Option ProviderEntry :=
  ((getActiveProvider config).bind (getProviderEntry formats config)).filter fun entry => entry.model ≠ ""

theorem getActiveModel_eq :
    getActiveModel formats config =
      ((activeEntry formats config).map ProviderEntry.model).or (getString config "AIBUDDY_MODEL") := by
  rw [getActiveModel, activeEntry]
  cases ((getActiveProvider config).bind (getProviderEntry formats config)).filter fun entry => entry.model ≠ "" with
  | some entry => rfl
  | none => rfl

theorem model_kept_iff (present : config.containsKey "providers" = true)
    (kept : getActiveProvider (migrateProviderConfig formats config).1 = getActiveProvider config) :
    getActiveModel formats (migrateProviderConfig formats config).1 = getActiveModel formats config ↔
      (activeEntry formats config).isSome = true ∨ getString config "AIBUDDY_MODEL" = none := by
  have flat : getString (migrateProviderConfig formats config).1 "AIBUDDY_MODEL" = none := by
    rw [migrate_of_providers present, getString, cleanup_flat (Or.inr rfl)]
    rfl
  have block : (migrateProviderConfig formats config).1.get "providers" = config.get "providers" := by
    rw [migrate_of_providers present, cleanup_layout (by decide), backfilled_get (by decide)]
  have entry : activeEntry formats (migrateProviderConfig formats config).1 = activeEntry formats config := by
    rw [activeEntry, kept, getProviderEntry_of_get block, activeEntry]
  rw [getActiveModel_eq, getActiveModel_eq, entry, flat, Option.or_none]
  cases activeEntry formats config with
  | some found => simp
  | none => simp [eq_comm]

theorem migrate_again (present : config.containsKey "providers" = true) :
    migrateProviderConfig formats (migrateProviderConfig formats config).1 =
      ((migrateProviderConfig formats config).1, false) := by
  have block : (migrateProviderConfig formats config).1.containsKey "providers" = true := by
    rw [containsKey, migrate_of_providers present, cleanup_layout (by decide), backfilled_get (by decide)]
    exact present
  have same : backfilled (migrateProviderConfig formats config).1 = (migrateProviderConfig formats config).1 := by
    rw [backfilled]
    split
    · rfl
    · rw [migrate_of_providers present, getString, cleanup_flat (Or.inl rfl)]
      rfl
  rw [migrate_of_providers block, same, migrate_of_providers present, cleanup_idle]

/-! ## A block of providers that is made -/

theorem removeMigrated_get (names : List String) {key : String} (other : key ≠ "AIBUDDY_PROVIDER" ∧ key ≠ "AIBUDDY_MODEL")
    (plain : Text.stripSuffix configuredSuffix key = none) : (removeMigrated names config).get key = config.get key := by
  have different : forall name : String, key ≠ name ++ configuredSuffix := by
    intro name same
    rw [same, Text.stripSuffix_append] at plain
    cases plain
  have all : forall start : YamlMapping,
      (names.foldl (fun config name => config.shiftRemove (name ++ configuredSuffix)) start).get key = start.get key := by
    intro start
    induction names generalizing start with
    | nil => rfl
    | cons name names ih =>
        rw [List.foldl_cons, ih, get_shiftRemove, if_neg (different name)]
  rw [removeMigrated, all, get_shiftRemove, if_neg other.2, get_shiftRemove, if_neg other.1]

theorem removeMigrated_layout (names : List String) {key : String} (known : key ∈ layoutKeys) :
    (removeMigrated names config).get key = config.get key := by
  rcases layout_plain known with ⟨other, plain⟩
  exact removeMigrated_get names other plain

theorem mem_keys_removeMigrated {names : List String} {key : Yaml} :
    key ∈ (removeMigrated names config).map Prod.fst ↔
      key ∈ config.map Prod.fst ∧ key ≠ .string "AIBUDDY_PROVIDER" ∧ key ≠ .string "AIBUDDY_MODEL" ∧
        forall name, name ∈ names -> key ≠ .string (name ++ configuredSuffix) := by
  have one : forall (start : YamlMapping) (removed : String),
      key ∈ (start.shiftRemove removed).map Prod.fst ↔ key ∈ start.map Prod.fst ∧ key ≠ .string removed := by
    intro start removed
    rw [shiftRemove, List.mem_map, List.mem_map]
    constructor
    · rintro ⟨entry, member, same⟩
      rw [List.mem_filter, Bool.not_eq_true', Bool.eq_false_iff, ne_eq, Yaml.isKey_iff, same] at member
      exact ⟨⟨entry, member.1, same⟩, member.2⟩
    · rintro ⟨⟨entry, member, same⟩, different⟩
      refine ⟨entry, ?_, same⟩
      rw [List.mem_filter, Bool.not_eq_true', Bool.eq_false_iff, ne_eq, Yaml.isKey_iff, same]
      exact ⟨member, different⟩
  have all : forall start : YamlMapping,
      key ∈ (names.foldl (fun config name => config.shiftRemove (name ++ configuredSuffix)) start).map Prod.fst ↔
        key ∈ start.map Prod.fst ∧ forall name, name ∈ names -> key ≠ .string (name ++ configuredSuffix) := by
    intro start
    induction names generalizing start with
    | nil => simp
    | cons name names ih =>
        rw [List.foldl_cons, ih, one, List.forall_mem_cons, and_assoc]
  rw [removeMigrated, all, one, one, and_assoc, and_assoc]

/-- Whether something is to be migrated into a new block. -/
def HasFlat (config : YamlMapping) : Prop :=
  ¬ (discoveredProviders config = [] ∧ getString config "AIBUDDY_PROVIDER" = none)

/-- The configuration with the new block and the key of the active provider. -/
def withBlock (formats : Formats) (config : YamlMapping) : YamlMapping :=
  let active := getString config "AIBUDDY_PROVIDER"
  let block := config.insert "providers" (.mapping
    (providersBlock formats active ((getString config "AIBUDDY_MODEL").getD "") (discoveredProviders config)))
  match active with
  | some provider => block.insert "active_provider" (.string provider)
  | none => block

theorem migrate_of_flat (absent : config.containsKey "providers" = false) (flat : HasFlat config) :
    migrateProviderConfig formats config = (removeMigrated (discoveredProviders config) (withBlock formats config), true) := by
  rw [migrateProviderConfig, absent, if_neg Bool.false_ne_true]
  dsimp only
  rw [if_neg flat]
  rfl

theorem migrate_of_nothing (absent : config.containsKey "providers" = false) (nothing : ¬ HasFlat config) :
    migrateProviderConfig formats config = (config, false) := by
  rw [HasFlat, not_not] at nothing
  rw [migrateProviderConfig, absent, if_neg Bool.false_ne_true]
  dsimp only
  rw [if_pos nothing]

theorem withBlock_get {key : String} (other : key ≠ "providers" ∧ key ≠ "active_provider") :
    (withBlock formats config).get key = config.get key := by
  rw [withBlock]
  split
  · rw [get_insert_of_ne _ _ other.2, get_insert_of_ne _ _ other.1]
  · rw [get_insert_of_ne _ _ other.1]

theorem withBlock_providers :
    (withBlock formats config).get "providers" = some (.mapping (providersBlock formats
      (getString config "AIBUDDY_PROVIDER") ((getString config "AIBUDDY_MODEL").getD "") (discoveredProviders config))) := by
  rw [withBlock]
  split
  · rw [get_insert_of_ne _ _ (by decide), get_insert_self]
  · rw [get_insert_self]

theorem withBlock_active :
    getString (withBlock formats config) "active_provider" =
      (getString config "AIBUDDY_PROVIDER").or (getString config "active_provider") := by
  rw [withBlock]
  cases getString config "AIBUDDY_PROVIDER" with
  | some provider =>
      dsimp only
      rw [getString, get_insert_self]
      rfl
  | none =>
      dsimp only
      exact getString_of_get (get_insert_of_ne _ _ (by decide))

/-- A block with a value for each of some names. -/
def blockOf (value : String -> Yaml) (names : List String) : YamlMapping :=
  names.map fun name => (.string name, value name)

theorem insert_blockOf (value : String -> Yaml) (names : List String) (name : String) :
    (blockOf value names).insert name (value name) = blockOf value (if name ∈ names then names else names ++ [name]) := by
  induction names with
  | nil => rfl
  | cons first names ih =>
      rw [blockOf, List.map_cons, YamlMapping.insert]
      by_cases here : first = name
      · rw [if_pos ((Yaml.isKey_string name first).mpr here), if_pos (here ▸ List.mem_cons_self), here]
        rfl
      · rw [if_neg fun named => here ((Yaml.isKey_string name first).mp named)]
        have later := ih
        rw [blockOf] at later
        rw [later]
        have same : name ∈ first :: names ↔ name ∈ names := by
          rw [List.mem_cons, or_iff_right (Ne.symm here)]
        by_cases member : name ∈ names
        · rw [if_pos member, if_pos (same.mpr member)]
          rfl
        · rw [if_neg member, if_neg fun found => member (same.mp found)]
          rfl

theorem foldl_insert_blockOf (value : String -> Yaml) (names start : List String) :
    Exists fun all => names.foldl (fun block name => block.insert name (value name)) (blockOf value start) =
      blockOf value all ∧ forall name, name ∈ all ↔ name ∈ start ∨ name ∈ names := by
  induction names generalizing start with
  | nil => exact ⟨start, rfl, fun name => by simp⟩
  | cons first names ih =>
      rw [List.foldl_cons, insert_blockOf]
      rcases ih (if first ∈ start then start else start ++ [first]) with ⟨all, same, members⟩
      refine ⟨all, same, ?_⟩
      intro name
      rw [members, List.mem_cons]
      split
      case isTrue present =>
          constructor
          · exact fun found => found.imp id Or.inr
          · rintro (old | here | later)
            · exact Or.inl old
            · exact Or.inl (here ▸ present)
            · exact Or.inr later
      case isFalse => rw [List.mem_append, List.mem_singleton, or_assoc]

theorem lookup_map_key {α : Type} (value : String -> α) (names : List String) (name : String) :
    (names.map fun present => (present, value present)).lookup name = if name ∈ names then some (value name) else none := by
  induction names with
  | nil => rfl
  | cons first names ih =>
      rw [List.map_cons, List.lookup_cons]
      by_cases here : name = first
      · rw [beq_iff_eq.mpr here, if_pos (here ▸ List.mem_cons_self), here]
      · rw [beq_eq_false_iff_ne.mpr here]
        dsimp only
        rw [ih]
        simp only [List.mem_cons, here, false_or]

theorem providersBlock_entry (active : Option String) (model : String) (names : List String) (name : String) :
    (parseProvidersMap formats (providersBlock formats active model names)).reverse.lookup name =
      if name ∈ names then some ⟨true, if active = some name then model else "", true⟩ else none := by
  let entry : String -> ProviderEntry := fun name => ⟨true, if active = some name then model else "", true⟩
  rcases foldl_insert_blockOf (fun name => formats.writeProvider (entry name)) names [] with ⟨all, same, members⟩
  have block : providersBlock formats active model names = blockOf (fun name => formats.writeProvider (entry name)) all :=
    same
  have parsed : parseProvidersMap formats (blockOf (fun name => formats.writeProvider (entry name)) all) =
      all.map fun name => (name, entry name) := by
    rw [parseProvidersMap, blockOf, List.filterMap_map, List.filterMap_eq_map_iff_forall_eq_some]
    intro present _
    dsimp only [Function.comp]
    rw [formats.readProvider_write]
  have member : name ∈ all.reverse ↔ name ∈ names := by
    rw [List.mem_reverse, members]
    simp
  rw [block, parsed, ← List.map_reverse, lookup_map_key entry]
  by_cases known : name ∈ names
  · rw [if_pos known, if_pos (member.mpr known)]
  · rw [if_neg known, if_neg fun found => known (member.mp found)]

theorem removeMigrated_flat (names : List String) {key : String} (flat : key = "AIBUDDY_PROVIDER" ∨ key = "AIBUDDY_MODEL") :
    (removeMigrated names config).get key = none := by
  cases found : (removeMigrated names config).get key with
  | none => rfl
  | some value =>
      have member := mem_keys_removeMigrated.mp (List.mem_map_of_mem (mem_of_get found))
      rcases flat with same | same
      · exact absurd (congrArg Yaml.string same) member.2.1
      · exact absurd (congrArg Yaml.string same) member.2.2.1

section Flat

variable (absent : config.containsKey "providers" = false) (flat : HasFlat config)

include absent flat

theorem flat_active :
    getActiveProvider (migrateProviderConfig formats config).1 =
      (getString config "AIBUDDY_PROVIDER").or (getString config "active_provider") := by
  have gone : getString (removeMigrated (discoveredProviders config) (withBlock formats config)) "AIBUDDY_PROVIDER" =
      none := by
    rw [getString, removeMigrated_flat _ (Or.inl rfl)]
    rfl
  have named : getString (removeMigrated (discoveredProviders config) (withBlock formats config)) "active_provider" =
      getString (withBlock formats config) "active_provider" :=
    getString_of_get (removeMigrated_layout _ (by decide))
  rw [migrate_of_flat absent flat, getActiveProvider, gone, named, withBlock_active, Option.or_none]

theorem flat_active_kept_iff :
    getActiveProvider (migrateProviderConfig formats config).1 = getActiveProvider config ↔
      getString config "AIBUDDY_PROVIDER" = none ∨ getString config "active_provider" = none ∨
        getString config "active_provider" = getString config "AIBUDDY_PROVIDER" := by
  rw [flat_active absent flat, getActiveProvider]
  cases getString config "AIBUDDY_PROVIDER" with
  | none => simp
  | some legacy =>
      cases getString config "active_provider" with
      | none => simp
      | some active => simp [eq_comm]

theorem flat_entry (name : String) :
    getProviderEntry formats (migrateProviderConfig formats config).1 name =
      if name ∈ discoveredProviders config then
        some ⟨true, if getString config "AIBUDDY_PROVIDER" = some name then (getString config "AIBUDDY_MODEL").getD "" else "",
          true⟩
      else none := by
  have block : (migrateProviderConfig formats config).1.get "providers" = (withBlock formats config).get "providers" := by
    rw [migrate_of_flat absent flat]
    exact removeMigrated_layout _ (by decide)
  rw [getProviderEntry_of_get block, getProviderEntry, getMapping, withBlock_providers]
  exact providersBlock_entry _ _ _ name

omit flat in
theorem absent_model : getActiveModel formats config = getString config "AIBUDDY_MODEL" := by
  have none : activeEntry formats config = none := by
    have noEntry : forall name, getProviderEntry formats config name = none := by
      intro name
      rw [containsKey, Option.isSome_eq_false_iff, Option.isNone_iff_eq_none] at absent
      rw [getProviderEntry, getMapping, absent]
      rfl
    rw [activeEntry]
    cases getActiveProvider config with
    | none => rfl
    | some name =>
        rw [Option.bind_some, noEntry]
        rfl
  rw [getActiveModel_eq, none, Option.map_none, Option.none_or]

theorem flat_model_kept_iff :
    getActiveModel formats (migrateProviderConfig formats config).1 = getActiveModel formats config ↔
      getString config "AIBUDDY_MODEL" = none ∨
        ((getString config "AIBUDDY_PROVIDER").isSome = true ∧ getString config "AIBUDDY_MODEL" ≠ some "") := by
  have gone : getString (migrateProviderConfig formats config).1 "AIBUDDY_MODEL" = none := by
    rw [migrate_of_flat absent flat, getString, removeMigrated_flat _ (Or.inr rfl)]
    rfl
  rw [absent_model absent, getActiveModel_eq, gone, Option.or_none, activeEntry, flat_active absent flat]
  cases provider : getString config "AIBUDDY_PROVIDER" with
  | some name =>
      have member : name ∈ discoveredProviders config := by
        rw [discoveredProviders, provider]
        dsimp only
        split
        case isTrue present => exact present
        case isFalse => exact List.mem_append_right _ (List.mem_singleton_self name)
      rw [Option.some_or, Option.bind_some, flat_entry absent flat, if_pos member, if_pos provider]
      cases getString config "AIBUDDY_MODEL" with
      | none => simp
      | some model =>
          by_cases empty : model = ""
          · simp [empty]
          · simp [empty]
  | none =>
      rw [Option.none_or]
      have noModel : (((getString config "active_provider").bind
          (getProviderEntry formats (migrateProviderConfig formats config).1)).filter
            fun entry => entry.model ≠ "") = none := by
        cases getString config "active_provider" with
        | none => rfl
        | some name =>
            rw [Option.bind_some, flat_entry absent flat, provider]
            split <;> rfl
      rw [noModel]
      simp [eq_comm]

omit absent flat in
/-- Every flat key is a plain text, and every marker is the name of a provider that was found with
the suffix behind it. -/
def MarkersPlain (config : YamlMapping) : Prop :=
  forall key, key ∈ config.map Prod.fst -> isLegacyKey key = true ->
    key = .string "AIBUDDY_PROVIDER" ∨ key = .string "AIBUDDY_MODEL" ∨
      Exists fun name => name ∈ discoveredProviders config ∧ key = .string (name ++ configuredSuffix)

omit absent flat in
theorem withBlock_legacy {key : Yaml} (legacy : isLegacyKey key = true) :
    key ∈ (withBlock formats config).map Prod.fst ↔ key ∈ config.map Prod.fst := by
  have block : key ≠ .string "providers" := by
    intro same
    rw [same, layout_not_legacy (by decide)] at legacy
    contradiction
  have active : key ≠ .string "active_provider" := by
    intro same
    rw [same, layout_not_legacy (by decide)] at legacy
    contradiction
  rw [withBlock]
  split
  · rw [mem_keys_insert, or_iff_right active, mem_keys_insert, or_iff_right block]
  · rw [mem_keys_insert, or_iff_right block]

omit absent flat in
theorem cleanup_unchanged_iff :
    cleanupLegacyProviderKeys config = (config, false) ↔ forall key, key ∈ config.map Prod.fst -> isLegacyKey key = false := by
  rw [cleanupLegacyProviderKeys, Prod.mk.injEq, List.filter_eq_self, List.any_eq_false, List.forall_mem_map]
  constructor
  · intro both entry member
    exact Bool.not_eq_true _ ▸ both.2 entry member
  · intro none
    constructor
    · intro entry member
      rw [none entry member]
      rfl
    · intro entry member
      rw [none entry member]
      exact Bool.false_ne_true

theorem flat_again_iff :
    migrateProviderConfig formats (migrateProviderConfig formats config).1 =
        ((migrateProviderConfig formats config).1, false) ↔ MarkersPlain config := by
  have block : (migrateProviderConfig formats config).1.containsKey "providers" = true := by
    rw [containsKey, migrate_of_flat absent flat, removeMigrated_layout _ (by decide),
      withBlock_providers]
    rfl
  have same : backfilled (migrateProviderConfig formats config).1 = (migrateProviderConfig formats config).1 := by
    rw [backfilled]
    split
    · rfl
    · rw [migrate_of_flat absent flat, getString, removeMigrated_flat _ (Or.inl rfl)]
      rfl
  rw [migrate_of_providers block, same, cleanup_unchanged_iff, migrate_of_flat absent flat]
  constructor
  · intro none key member legacy
    by_cases provider : key = .string "AIBUDDY_PROVIDER"
    · exact Or.inl provider
    · by_cases model : key = .string "AIBUDDY_MODEL"
      · exact Or.inr (Or.inl model)
      · by_cases marker : Exists fun name => name ∈ discoveredProviders config ∧ key = .string (name ++ configuredSuffix)
        · exact Or.inr (Or.inr marker)
        · have left := none key (mem_keys_removeMigrated.mpr ⟨(withBlock_legacy legacy).mpr member, provider, model,
            fun name known equal => marker ⟨name, known, equal⟩⟩)
          rw [legacy] at left
          cases left
  · intro plain key member
    rcases mem_keys_removeMigrated.mp member with ⟨present, provider, model, marker⟩
    cases legacy : isLegacyKey key with
    | false => rfl
    | true =>
        rcases plain key ((withBlock_legacy legacy).mp present) legacy with same | same | ⟨name, known, same⟩
        · exact absurd same provider
        · exact absurd same model
        · exact absurd same (marker name known)

end Flat

/-! ## All migrations -/

/-- What a migration should leave as it is: the active provider, its model, and a configuration
that was migrated before. -/
structure Unchanged (formats : Formats) (platform : PlatformExtensions) (config : YamlMapping) : Prop where
  provider : getActiveProvider (runMigrations formats platform config).1 = getActiveProvider config
  model : getActiveModel formats (runMigrations formats platform config).1 = getActiveModel formats config
  again : runMigrations formats platform (runMigrations formats platform config).1 =
    ((runMigrations formats platform config).1, false)

/-- Where there is a block of providers: the structured key of the active provider is absent or
holds a text, or the flat one holds none; and the active provider has a model in the block, or
the flat key of the model holds no text.  Where there is none: nothing is to be migrated; or the
two keys of the active provider do not hold different texts, the flat model is not a text that
would be lost, and the markers are plain. -/
def Harmless (formats : Formats) (config : YamlMapping) : Prop :=
  if config.containsKey "providers" = true then
    (config.containsKey "active_provider" = false ∨ (getString config "active_provider").isSome = true ∨
        getString config "AIBUDDY_PROVIDER" = none) ∧
      ((activeEntry formats config).isSome = true ∨ getString config "AIBUDDY_MODEL" = none)
  else
    ¬ HasFlat config ∨
      ((getString config "AIBUDDY_PROVIDER" = none ∨ getString config "active_provider" = none ∨
          getString config "active_provider" = getString config "AIBUDDY_PROVIDER") ∧
        (getString config "AIBUDDY_MODEL" = none ∨
          ((getString config "AIBUDDY_PROVIDER").isSome = true ∧ getString config "AIBUDDY_MODEL" ≠ some "")) ∧
        MarkersPlain config)

theorem migrateProviderConfig_iff :
    (getActiveProvider (migrateProviderConfig formats config).1 = getActiveProvider config ∧
      getActiveModel formats (migrateProviderConfig formats config).1 = getActiveModel formats config ∧
      migrateProviderConfig formats (migrateProviderConfig formats config).1 =
        ((migrateProviderConfig formats config).1, false)) ↔ Harmless formats config := by
  rw [Harmless]
  split
  case isTrue present =>
      constructor
      · rintro ⟨provider, model, _⟩
        exact ⟨(active_kept_iff present).mp provider, (model_kept_iff present provider).mp model⟩
      · rintro ⟨provider, model⟩
        have kept := (@active_kept_iff formats config present).mpr provider
        exact ⟨kept, (model_kept_iff present kept).mpr model, migrate_again present⟩
  case isFalse noBlock =>
      rw [Bool.not_eq_true] at noBlock
      by_cases flat : HasFlat config
      · rw [or_iff_right (not_not_intro flat), flat_active_kept_iff noBlock flat, flat_model_kept_iff noBlock flat,
          flat_again_iff noBlock flat]
      · apply iff_of_true _ (Or.inl flat)
        have same := @migrate_of_nothing formats config noBlock flat
        rw [same, same]
        exact ⟨rfl, rfl, rfl⟩

theorem migrateProviderConfig_extensions :
    (migrateProviderConfig formats config).1.get "extensions" = config.get "extensions" := by
  cases present : config.containsKey "providers" with
  | true => rw [migrate_of_providers present, cleanup_layout (by decide), backfilled_get (by decide)]
  | false =>
      by_cases flat : HasFlat config
      · rw [migrate_of_flat present flat, removeMigrated_layout _ (by decide),
          withBlock_get ⟨by decide, by decide⟩]
      · rw [migrate_of_nothing present flat]

theorem harmless_platform :
    Harmless formats (migratePlatformExtensions formats platform config).1 ↔ Harmless formats config := by
  have string : forall key, key ≠ "extensions" ->
      getString (migratePlatformExtensions formats platform config).1 key = getString config key :=
    fun key different => getString_of_get (platform_get different)
  have active : getActiveProvider (migratePlatformExtensions formats platform config).1 = getActiveProvider config := by
    rw [getActiveProvider, string _ (by decide), string _ (by decide), getActiveProvider]
  have entry : activeEntry formats (migratePlatformExtensions formats platform config).1 = activeEntry formats config := by
    rw [activeEntry, active, getProviderEntry_of_get (platform_get (by decide)), activeEntry]
  have markers : MarkersPlain (migratePlatformExtensions formats platform config).1 ↔ MarkersPlain config := by
    rw [MarkersPlain, platform_discovered, MarkersPlain]
    constructor
    · exact fun plain key member legacy => plain key ((platform_legacy legacy).mpr member) legacy
    · exact fun plain key member legacy => plain key ((platform_legacy legacy).mp member) legacy
  rw [Harmless, containsKey, platform_get (by decide), containsKey, platform_get (by decide), entry, HasFlat,
    platform_discovered, markers, string _ (by decide), string _ (by decide), string _ (by decide)]
  rfl

/-- A migration leaves everything as it should exactly when it is harmless. -/
theorem runMigrations_unchanged_iff : Unchanged formats platform config ↔ Harmless formats config := by
  have string : forall key, key ≠ "extensions" ->
      getString (migratePlatformExtensions formats platform config).1 key = getString config key :=
    fun key different => getString_of_get (platform_get different)
  have active : getActiveProvider (migratePlatformExtensions formats platform config).1 = getActiveProvider config := by
    rw [getActiveProvider, string _ (by decide), string _ (by decide), getActiveProvider]
  have model : getActiveModel formats (migratePlatformExtensions formats platform config).1 =
      getActiveModel formats config := by
    rw [getActiveModel, active, getProviderEntry_of_get (platform_get (by decide)), string _ (by decide), getActiveModel]
  have settled : migratePlatformExtensions formats platform (runMigrations formats platform config).1 =
      ((runMigrations formats platform config).1, false) := by
    apply platform_of_settled
    rw [extensionsMap, runMigrations, migrateProviderConfig_extensions]
    exact platform_settled config
  rw [← @harmless_platform formats platform config, ← migrateProviderConfig_iff, active, model]
  constructor
  · rintro ⟨provider, kept, again⟩
    refine ⟨provider, kept, ?_⟩
    rw [runMigrations, settled, Bool.false_or] at again
    exact again
  · rintro ⟨provider, kept, again⟩
    refine ⟨provider, kept, ?_⟩
    rw [runMigrations, settled, Bool.false_or]
    exact again

/-- A second migration has only the providers to look at. -/
theorem runMigrations_again (formats : Formats) (platform : PlatformExtensions) (config : YamlMapping) :
    runMigrations formats platform (runMigrations formats platform config).1 =
      migrateProviderConfig formats (runMigrations formats platform config).1 := by
  have settled : migratePlatformExtensions formats platform (runMigrations formats platform config).1 =
      ((runMigrations formats platform config).1, false) := by
    apply platform_of_settled
    rw [extensionsMap, runMigrations, migrateProviderConfig_extensions]
    exact platform_settled config
  conv => lhs; rw [runMigrations, settled, Bool.false_or]

/-- A configuration is rewritten at most twice: what two migrations leave, a third one leaves as it
is. -/
theorem runMigrations_settles (formats : Formats) (platform : PlatformExtensions) (config : YamlMapping) :
    let twice := (runMigrations formats platform (runMigrations formats platform config).1).1
    runMigrations formats platform twice = (twice, false) := by
  intro twice
  have later := runMigrations_again formats platform
  have same : twice = (migrateProviderConfig formats (runMigrations formats platform config).1).1 :=
    congrArg Prod.fst (later config)
  have third := later (runMigrations formats platform config).1
  rw [third, later config, same]
  by_cases present : (runMigrations formats platform config).1.containsKey "providers" = true
  · exact migrate_again present
  · have untouched : migrateProviderConfig formats (migratePlatformExtensions formats platform config).1 =
        ((migratePlatformExtensions formats platform config).1, false) := by
      rw [runMigrations, containsKey] at present
      by_cases block : (migratePlatformExtensions formats platform config).1.containsKey "providers" = true
      · rw [migrate_of_providers block, cleanup_layout (by decide), backfilled_get (by decide)] at present
        exact absurd block present
      · rw [Bool.not_eq_true] at block
        by_cases flat : HasFlat (migratePlatformExtensions formats platform config).1
        · rw [migrate_of_flat block flat, removeMigrated_layout _ (by decide), withBlock_providers] at present
          exact absurd rfl present
        · exact migrate_of_nothing block flat
    have unchanged : (runMigrations formats platform config).1 = (migratePlatformExtensions formats platform config).1 := by
      rw [runMigrations, untouched]
    rw [unchanged, untouched]
    exact untouched

/-! ## A model that is lost -/

def yamlOption {α : Type} (write : α -> Yaml) : Option α -> Yaml
  | some value => write value
  | none => .null

def yamlNat (value : Nat) : Yaml := .number (.integer value)

/-- Entries written field by field. -/
def plainFormats : Formats where
  writeProvider entry := .mapping
    [(.string "enabled", .bool entry.enabled), (.string "model", .string entry.model),
      (.string "configured", .bool entry.configured)]
  readProvider
    | .mapping [(_, .bool enabled), (_, .string model), (_, .bool configured)] => some ⟨enabled, model, configured⟩
    | _ => none
  readProvider_write _ := rfl
  writeExtension entry :=
    match entry.config with
    | .platform name description displayName bundled availableTools => .mapping
        [(.string "enabled", .bool entry.enabled), (.string "name", .string name),
          (.string "description", .string description), (.string "display_name", yamlOption .string displayName),
          (.string "bundled", yamlOption .bool bundled), (.string "available_tools", .sequence (availableTools.map .string))]
    | .builtin name description displayName timeout bundled availableTools => .mapping
        [(.string "enabled", .bool entry.enabled), (.string "name", .string name),
          (.string "description", .string description), (.string "display_name", yamlOption .string displayName),
          (.string "timeout", yamlOption yamlNat timeout), (.string "bundled", yamlOption .bool bundled),
          (.string "available_tools", .sequence (availableTools.map .string))]
    | .other => .null
  readExtension
    | .mapping [(_, .bool enabled), (_, .string name), (_, .string description), (_, displayName), (_, bundled),
          (_, .sequence availableTools)] =>
        some ⟨enabled, .platform name description displayName.asStr bundled.asBool (availableTools.filterMap Yaml.asStr)⟩
    | .mapping [(_, .bool enabled), (_, .string name), (_, .string description), (_, displayName), (_, timeout),
          (_, bundled), (_, .sequence availableTools)] =>
        let seconds :=
          match timeout with
          | .number (.integer value) => some value.toNat
          | _ => none
        some ⟨enabled, .builtin name description displayName.asStr seconds bundled.asBool
          (availableTools.filterMap Yaml.asStr)⟩
    | _ => none
  readExtension_write := by
    have texts : forall names : List String, (names.map Yaml.string).filterMap Yaml.asStr = names := by
      intro names
      rw [List.filterMap_map]
      exact List.filterMap_some
    intro entry known
    rcases entry with ⟨enabled, config⟩
    cases config with
    | platform name description displayName bundled availableTools =>
        cases displayName <;> cases bundled <;> simp [yamlOption, texts, Yaml.asStr, Yaml.asBool]
    | builtin name description displayName timeout bundled availableTools =>
        cases displayName <;> cases timeout <;> cases bundled <;>
          simp [yamlOption, yamlNat, texts, Yaml.asStr, Yaml.asBool]
    | other => exact absurd rfl known
  mappingOfText _ := none

/-- A block with another provider, and a provider and a model under the flat keys. -/
def mixedConfig : YamlMapping :=
  [(.string "providers", .mapping [(.string "lmstudio", plainFormats.writeProvider ⟨true, "", true⟩)]),
    (.string "AIBUDDY_PROVIDER", .string "openai"), (.string "AIBUDDY_MODEL", .string "gpt-4o")]

/-- The active provider is filled in from its flat key, and the model is removed with its own. -/
theorem mixedConfig_model_lost :
    getActiveModel plainFormats mixedConfig = some "gpt-4o" ∧
      getActiveModel plainFormats (runMigrations plainFormats ⟨[], List.nodup_nil⟩ mixedConfig).1 = none ∧
      ¬ Unchanged plainFormats ⟨[], List.nodup_nil⟩ mixedConfig := by
  have before : getActiveModel plainFormats mixedConfig = some "gpt-4o" := by decide +kernel
  have after : getActiveModel plainFormats (runMigrations plainFormats ⟨[], List.nodup_nil⟩ mixedConfig).1 = none := by
    decide +kernel
  refine ⟨before, after, ?_⟩
  intro unchanged
  have same := unchanged.model
  rw [before, after] at same
  cases same

end Config
end AIBuddy
