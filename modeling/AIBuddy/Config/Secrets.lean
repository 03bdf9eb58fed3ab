import Mathlib.Data.String.Basic
import AIBuddy.Support.Json
import AIBuddy.Support.Occurrences
import AIBuddy.Support.Runs
import AIBuddy.Support.Table

namespace AIBuddy
namespace Config

open Occurrences

/-!
# Secrets in the keyring and in the file

The secrets of a configuration are one object in the keyring of the system.  When the
keyring is not available, a single operation falls back to a file with an object of its own,
and so does a read that finds no entry.  The two objects need not be the same.

An operation of the keyring is given by the text of its error, if it fails.  Files can be read
and written, and what is written is read back.
-/

/-- Values by their names. -/
abbrev Secrets := Table String Json

inductive ConfigError where
  | notFound (key : String)
  | keyringError (message : String)
  | fallbackToFileStorage
deriving DecidableEq

/-- What the keyring and the file hold, and what was read before. -/
structure SecretStorage where
  keyring : Option Secrets
  file : Option Secrets
  secretsCache : Option Secrets

/-! ## Operations of the keyring -/

/-- The error of a keyring that has nothing stored. -/
def noEntry : String := "No matching entry found in secure storage"

def saysNoEntry (message : String) : Bool :=
  occurs "No entry found".toList message.toList || occurs "No matching entry found".toList message.toList

namespace SecretStorage

/-- The password of the keyring, unless the operation fails. -/
def getPassword (failure : Option String) (storage : SecretStorage) : Except String Secrets :=
  match failure with
  | some error => .error error
  | none =>
      match storage.keyring with
      | some content => .ok content
      | none => .error noEntry

def setPassword (failure : Option String) (values : Secrets) (storage : SecretStorage) :
    Except String Unit × SecretStorage :=
  match failure with
  | some error => (.error error, storage)
  | none => (.ok (), { storage with keyring := some values })

def writeSecretsToFile (values : Secrets) (storage : SecretStorage) : SecretStorage :=
  { storage with file := some values }

def fallbackToFileStorage (storage : SecretStorage) : Secrets :=
  storage.file.getD Table.empty

def invalidateSecretsCache (storage : SecretStorage) : SecretStorage :=
  { storage with secretsCache := none }

section Calls

variable (toLowercase : String -> String)

/-- Whether an error says that there is no keyring to be had. -/
def isKeyringAvailabilityError (error : String) : Bool :=
  let lower := toLowercase error
  ["keyring", "dbus", "org.freedesktop.secrets", "platform secure storage", "no secret service"].any fun phrase =>
    occurs phrase.toList lower.toList

/-- An error that is no reason to fall back is passed on. -/
def handleKeyringFallbackError (error : String) (fallbackValues : Option Secrets) (storage : SecretStorage) :
    ConfigError × SecretStorage :=
  if isKeyringAvailabilityError toLowercase error then
    match fallbackValues with
    | some values => (.fallbackToFileStorage, storage.writeSecretsToFile values)
    | none => (.fallbackToFileStorage, storage)
  else (.keyringError error, storage)

def handleKeyringOperation {α : Type} (operation : Except String α × SecretStorage) (fallbackValues : Option Secrets) :
    Except ConfigError α × SecretStorage :=
  match operation with
  | (.ok result, storage) => (.ok result, storage)
  | (.error error, storage) =>
      let handled := handleKeyringFallbackError toLowercase error fallbackValues storage
      (.error handled.1, handled.2)

def loadSecretsFromStorage (failure : Option String) (storage : SecretStorage) : Except ConfigError Secrets :=
  match (handleKeyringOperation toLowercase (storage.getPassword failure, storage) none).1 with
  | .ok content => .ok content
  | .error .fallbackToFileStorage => .ok storage.fallbackToFileStorage
  | .error (.keyringError message) =>
      if saysNoEntry message then .ok storage.fallbackToFileStorage else .error (.keyringError message)
  | .error error => .error error

def writeAllSecrets (failure : Option String) (values : Secrets) (storage : SecretStorage) :
    Except ConfigError Unit × SecretStorage :=
  match handleKeyringOperation toLowercase (storage.setPassword failure values) (some values) with
  | (.ok _, stored) => (.ok (), stored.invalidateSecretsCache)
  | (.error .fallbackToFileStorage, stored) => (.ok (), stored.invalidateSecretsCache)
  | (.error error, stored) => (.error error, stored)

def mutateSecrets (mutate : Secrets -> Secrets) (read write : Option String) (storage : SecretStorage) :
    Except ConfigError Unit × SecretStorage :=
  match storage.loadSecretsFromStorage toLowercase read with
  | .ok values => storage.writeAllSecrets toLowercase write (mutate values)
  | .error error => (.error error, storage)

def setSecret (key : String) (value : Json) (read write : Option String) (storage : SecretStorage) :
    Except ConfigError Unit × SecretStorage :=
  storage.mutateSecrets toLowercase (fun values => values.insert key value) read write

def deleteSecret (key : String) (read write : Option String) (storage : SecretStorage) :
    Except ConfigError Unit × SecretStorage :=
  storage.mutateSecrets toLowercase (fun values => values.erase key) read write

/-- The secrets that were read before, or else those of the storage. -/
def allSecrets (read : Option String) (storage : SecretStorage) : Except ConfigError Secrets × SecretStorage :=
  match storage.secretsCache with
  | some cached => (.ok cached, storage)
  | none =>
      match storage.loadSecretsFromStorage toLowercase read with
      | .ok loaded => (.ok loaded, { storage with secretsCache := some loaded })
      | .error error => (.error error, storage)

/-- A secret that no variable of the environment overrides. -/
def getSecret (key : String) (read : Option String) (storage : SecretStorage) : Except ConfigError Json × SecretStorage :=
  match storage.allSecrets toLowercase read with
  | (.ok values, stored) =>
      match values.find? key with
      | some value => (.ok value, stored)
      | none => (.error (.notFound key), stored)
  | (.error error, stored) => (.error error, stored)

end Calls

end SecretStorage

/-! ## Which store is read and written -/

inductive Store where
  | keyring
  | file
deriving DecidableEq

namespace SecretStorage

variable (toLowercase : String -> String)

def contents (storage : SecretStorage) : Store -> Secrets
  | .keyring => storage.keyring.getD Table.empty
  | .file => storage.fallbackToFileStorage

/-- The store that a read takes the secrets from, if it does not fail. -/
def source (read : Option String) (storage : SecretStorage) : Option Store :=
  match storage.getPassword read with
  | .ok _ => some .keyring
  | .error error => if isKeyringAvailabilityError toLowercase error || saysNoEntry error then some .file else none

/-- The store that a write goes to, if it does not fail. -/
def target (write : Option String) : Option Store :=
  match write with
  | none => some .keyring
  | some error => if isKeyringAvailabilityError toLowercase error then some .file else none

/-- Replace the secrets of a store and forget those that were read before. -/
def put (values : Secrets) (storage : SecretStorage) : Store -> SecretStorage
  | .keyring => { storage with keyring := some values, secretsCache := none }
  | .file => { storage with file := some values, secretsCache := none }

variable {toLowercase} {storage : SecretStorage} {read write : Option String} {store : Store}

@[simp] theorem contents_put (values : Secrets) (storage : SecretStorage) (store : Store) :
    (storage.put values store).contents store = values := by
  cases store <;> rfl

@[simp] theorem secretsCache_put (values : Secrets) (storage : SecretStorage) (store : Store) :
    (storage.put values store).secretsCache = none := by
  cases store <;> rfl

theorem loadSecretsFromStorage_of_source (found : storage.source toLowercase read = some store) :
    storage.loadSecretsFromStorage toLowercase read = .ok (storage.contents store) := by
  rw [source] at found
  rw [loadSecretsFromStorage]
  cases password : storage.getPassword read with
  | ok content =>
      simp only [password, Option.some.injEq] at found
      have held : storage.keyring = some content := by
        unfold getPassword at password
        split at password
        · cases password
        · split at password
          · rename_i present
            rw [present, Except.ok.inj password]
          · cases password
      rw [← found, handleKeyringOperation, contents, held, Option.getD_some]
  | error error =>
      simp only [password, Option.ite_none_right_eq_some, Option.some.injEq, Bool.or_eq_true] at found
      rcases found with ⟨falls, same⟩
      rw [← same, contents, handleKeyringOperation, handleKeyringFallbackError]
      by_cases available : isKeyringAvailabilityError toLowercase error = true
      · simp only [if_pos available]
      · simp only [if_neg available, if_pos (falls.resolve_left available)]

theorem loadSecretsFromStorage_of_none (lost : storage.source toLowercase read = none) :
    Exists fun message => read = some message ∧ isKeyringAvailabilityError toLowercase message = false ∧
      saysNoEntry message = false ∧
      storage.loadSecretsFromStorage toLowercase read = .error (.keyringError message) := by
  have refused : forall error, storage.getPassword read = .error error ->
      isKeyringAvailabilityError toLowercase error = false ∧ saysNoEntry error = false := by
    intro error failed
    simpa [source, failed] using lost
  cases read with
  | none =>
      cases held : storage.keyring with
      | none =>
          have entry : storage.getPassword none = .error noEntry := by rw [getPassword, held]
          have said : saysNoEntry noEntry = true := by decide +kernel
          rw [(refused noEntry entry).2] at said
          cases said
      | some content =>
          have password : storage.getPassword none = .ok content := by rw [getPassword, held]
          rw [source, password] at lost
          cases lost
  | some message =>
      rcases refused message rfl with ⟨unavailable, other⟩
      refine ⟨message, rfl, unavailable, other, ?_⟩
      rw [loadSecretsFromStorage, getPassword, handleKeyringOperation, handleKeyringFallbackError]
      simp only [unavailable, other, Bool.false_eq_true, if_false]

theorem writeAllSecrets_of_target (values : Secrets) (found : target toLowercase write = some store) :
    storage.writeAllSecrets toLowercase write values = (.ok (), storage.put values store) := by
  cases write with
  | none =>
      cases found
      rfl
  | some error =>
      rw [target, Option.ite_none_right_eq_some] at found
      rcases found with ⟨unavailable, same⟩
      cases same
      rw [writeAllSecrets, setPassword, handleKeyringOperation, handleKeyringFallbackError, if_pos unavailable]
      rfl

theorem writeAllSecrets_of_none (values : Secrets) (lost : target toLowercase write = none) :
    Exists fun message => storage.writeAllSecrets toLowercase write values = (.error (.keyringError message), storage) := by
  cases write with
  | none => cases lost
  | some error =>
      rw [target, ite_eq_right_iff] at lost
      have available : ¬ isKeyringAvailabilityError toLowercase error = true := by
        intro unavailable
        cases lost unavailable
      refine ⟨error, ?_⟩
      rw [writeAllSecrets, setPassword, handleKeyringOperation, handleKeyringFallbackError, if_neg available]

end SecretStorage
end Config
end AIBuddy
