import AIBuddy.Config.Secrets
import AIBuddy.Conversation.Message

namespace AIBuddy
namespace Config

open SecretStorage

/-!
# Runs of calls on secrets

A run sets, deletes and reads secrets, and every operation of the keyring may fail or not.
What a secret should be follows from the calls that were answered: the value that was set last,
none after a deletion, and else the secret of the beginning.  The secrets are as they should be
all along a run exactly when no call reads a store that another one has outrun.
-/

/-- A call, with the errors of the operations that it may do on the keyring. -/
inductive Call where
  | set (key : String) (value : Json) (read write : Option String)
  | delete (key : String) (read write : Option String)
  | get (key : String) (read : Option String)

inductive Answer where
  | changed (outcome : Except ConfigError Unit)
  | found (outcome : Except ConfigError Json)
deriving DecidableEq

/-- The storage along a run, with the store that was written last and the answers so far, the
latest one first. -/
structure SecretLog where
  storage : SecretStorage
  newest : Store
  history : List (Call × Answer)

namespace SecretLog

variable (toLowercase : String -> String)

/-- A configuration that was just built. -/
def start (keyring file : Option Secrets) : SecretLog where
  storage := ⟨keyring, file, none⟩
  newest := if keyring.isSome then .keyring else .file
  history := []

/-- The secrets that a run begins with. -/
def initial (keyring file : Option Secrets) : Secrets :=
  (keyring.or file).getD Table.empty

/-- A change was answered. -/
def noted (log : SecretLog) (call : Call) (write : Option String) (outcome : Except ConfigError Unit × SecretStorage) :
    SecretLog where
  storage := outcome.2
  newest :=
    match outcome.1 with
    | .ok _ => (target toLowercase write).getD log.newest
    | .error _ => log.newest
  history := (call, .changed outcome.1) :: log.history

def after (log : SecretLog) (call : Call) : SecretLog :=
  match call with
  | .set key value read write => log.noted toLowercase call write (log.storage.setSecret toLowercase key value read write)
  | .delete key read write => log.noted toLowercase call write (log.storage.deleteSecret toLowercase key read write)
  | .get key read =>
      let outcome := log.storage.getSecret toLowercase key read
      { log with storage := outcome.2, history := (call, .found outcome.1) :: log.history }

/-- Every call is answered. -/
def advance (call : Call) (log : SecretLog) : Except Empty SecretLog :=
  .ok (log.after toLowercase call)

/-! ## What secrets should be -/

/-- The value of a secret after these answers. -/
def expected (first : Secrets) : List (Call × Answer) -> String -> Option Json
  | [], key => first.find? key
  | (.set name value _ _, .changed (.ok _)) :: earlier, key => if key = name then some value else expected first earlier key
  | (.delete name _ _, .changed (.ok _)) :: earlier, key => if key = name then none else expected first earlier key
  | _ :: earlier, key => expected first earlier key

/-- A secret is found as it should be, unless the keyring refuses to be read. -/
def AsExpected (first : Secrets) (earlier : List (Call × Answer)) (key : String) (read : Option String)
    (answer : Answer) : Prop :=
  (answer = .found (match expected first earlier key with
    | some value => .ok value
    | none => .error (.notFound key))) ∨
  Exists fun message => read = some message ∧ isKeyringAvailabilityError toLowercase message = false ∧
    saysNoEntry message = false ∧ answer = .found (.error (.keyringError message))

/-- All secrets that were read were as they should be. -/
def Answered (first : Secrets) : List (Call × Answer) -> Prop
  | [] => True
  | (.get key read, answer) :: earlier => AsExpected toLowercase first earlier key read answer ∧ Answered first earlier
  | _ :: earlier => Answered first earlier

/-- What was read, what was written last and what further calls will read is as it should be. -/
structure Sound (first : Secrets) (log : SecretLog) : Prop where
  answered : Answered toLowercase first log.history
  kept : forall key, (log.storage.contents log.newest).find? key = expected first log.history key
  cached : forall values, log.storage.secretsCache = some values ->
    forall key, values.find? key = expected first log.history key

/-- What a call takes from a store is what the newest store has. -/
def ReadsNewest (log : SecretLog) : Call -> Prop
  | .set key _ read write | .delete key read write =>
      forall store, log.storage.source toLowercase read = some store -> (target toLowercase write).isSome = true ->
        forall other, other ≠ key ->
          (log.storage.contents store).find? other = (log.storage.contents log.newest).find? other
  | .get _ read =>
      log.storage.secretsCache = none -> forall store, log.storage.source toLowercase read = some store ->
        forall key, (log.storage.contents store).find? key = (log.storage.contents log.newest).find? key

variable {toLowercase} {first : Secrets} {log : SecretLog}

theorem sound_start (keyring file : Option Secrets) : Sound toLowercase (initial keyring file) (start keyring file) where
  answered := trivial
  kept := by
    intro key
    cases keyring <;> rfl
  cached := by
    intro values cached
    cases cached

/-! ## One call -/

/-- A call that changes secrets, as far as the answers to it count: with success it gives a
value to a key, or takes it away. -/
structure Changes (call : Call) (key : String) (value : Option Json) : Prop where
  succeeded : forall (first : Secrets) (earlier : List (Call × Answer)) (other : String),
    expected first ((call, .changed (.ok ())) :: earlier) other =
      if other = key then value else expected first earlier other
  refused : forall (first : Secrets) (earlier : List (Call × Answer)) (error : ConfigError) (other : String),
    expected first ((call, .changed (.error error)) :: earlier) other = expected first earlier other
  quiet : forall (toLowercase : String -> String) (first : Secrets) (earlier : List (Call × Answer)) (answer : Answer),
    Answered toLowercase first ((call, answer) :: earlier) ↔ Answered toLowercase first earlier

theorem changes_set (key : String) (value : Json) (read write : Option String) :
    Changes (.set key value read write) key (some value) :=
  ⟨fun _ _ _ => rfl, fun _ _ _ _ => rfl, fun _ _ _ _ => Iff.rfl⟩

theorem changes_delete (key : String) (read write : Option String) : Changes (.delete key read write) key none :=
  ⟨fun _ _ _ => rfl, fun _ _ _ _ => rfl, fun _ _ _ _ => Iff.rfl⟩

section Changes

variable {call : Call} {key : String} {value : Option Json} {write : Option String}

theorem noted_refused (changes : Changes call key value) (sound : Sound toLowercase first log) (error : ConfigError) :
    Sound toLowercase first (log.noted toLowercase call write (.error error, log.storage)) where
  answered := (changes.quiet ..).mpr sound.answered
  kept other := (sound.kept other).trans (changes.refused ..).symm
  cached values cached other := (sound.cached values cached other).trans (changes.refused ..).symm

theorem noted_written_iff (changes : Changes call key value) (sound : Sound toLowercase first log) {store : Store}
    (found : target toLowercase write = some store) (values : Secrets) :
    Sound toLowercase first (log.noted toLowercase call write (.ok (), log.storage.put values store)) ↔
      forall other, values.find? other = if other = key then value else expected first log.history other := by
  have written : forall other,
      ((log.noted toLowercase call write (.ok (), log.storage.put values store)).storage.contents
        (log.noted toLowercase call write (.ok (), log.storage.put values store)).newest).find? other =
      values.find? other := by
    intro other
    simp only [noted, found, Option.getD_some, contents_put]
  constructor
  · intro after other
    rw [← written other, after.kept other]
    exact changes.succeeded ..
  · intro same
    refine ⟨(changes.quiet ..).mpr sound.answered, ?_, ?_⟩
    · intro other
      rw [written other, same other]
      exact (changes.succeeded ..).symm
    · intro others cached
      rw [noted, secretsCache_put] at cached
      cases cached

theorem mutateSecrets_sound_iff (changes : Changes call key value) {mutate : Secrets -> Secrets} {read : Option String}
    (sound : Sound toLowercase first log)
    (edits : forall values other, (mutate values).find? other = if other = key then value else values.find? other) :
    Sound toLowercase first (log.noted toLowercase call write (log.storage.mutateSecrets toLowercase mutate read write)) ↔
      forall store, log.storage.source toLowercase read = some store -> (target toLowercase write).isSome = true ->
        forall other, other ≠ key ->
          (log.storage.contents store).find? other = (log.storage.contents log.newest).find? other := by
  rw [mutateSecrets]
  cases taken : log.storage.source toLowercase read with
  | none =>
      rcases loadSecretsFromStorage_of_none taken with ⟨message, _, _, _, failed⟩
      rw [failed]
      exact iff_of_true (noted_refused changes sound _) fun store found => by cases found
  | some source =>
      rw [loadSecretsFromStorage_of_source taken]
      cases written : target toLowercase write with
      | none =>
          rcases @writeAllSecrets_of_none _ log.storage _ (mutate (log.storage.contents source)) written with
            ⟨message, failed⟩
          dsimp only
          rw [failed]
          exact iff_of_true (noted_refused changes sound _) fun store found some => by cases some
      | some store =>
          dsimp only
          rw [writeAllSecrets_of_target _ written, noted_written_iff changes sound written]
          constructor
          · intro same other found _ name different
            cases found
            have held := same name
            rw [edits, if_neg different, if_neg different, ← sound.kept name] at held
            exact held
          · intro newest other
            rw [edits]
            by_cases named : other = key
            · rw [if_pos named, if_pos named]
            · rw [if_neg named, if_neg named, newest source rfl rfl other named, sound.kept other]

end Changes

/-! ## Reading -/

theorem getSecret_storage (storage : SecretStorage) (key : String) (read : Option String) :
    (storage.getSecret toLowercase key read).2 = (storage.allSecrets toLowercase read).2 := by
  rw [getSecret]
  rcases storage.allSecrets toLowercase read with ⟨outcome, stored⟩
  cases outcome with
  | error error => rfl
  | ok values =>
      dsimp only
      cases values.find? key <;> rfl

theorem getSecret_of_secrets {read : Option String} {values : Secrets} {stored : SecretStorage}
    (all : log.storage.allSecrets toLowercase read = (.ok values, stored)) (key : String)
    (same : values.find? key = expected first log.history key) :
    Exists fun answer => log.storage.getSecret toLowercase key read = (answer, stored) ∧
      AsExpected toLowercase first log.history key read (.found answer) := by
  rw [getSecret, all]
  simp only [AsExpected, ← same]
  cases values.find? key with
  | none => exact ⟨_, rfl, Or.inl rfl⟩
  | some value => exact ⟨_, rfl, Or.inl rfl⟩

theorem get_sound_iff (sound : Sound toLowercase first log) (key : String) (read : Option String) :
    Sound toLowercase first (log.after toLowercase (.get key read)) ↔ ReadsNewest toLowercase log (.get key read) := by
  rw [after, ReadsNewest]
  cases cache : log.storage.secretsCache with
  | some values =>
      have all : log.storage.allSecrets toLowercase read = (.ok values, log.storage) := by rw [allSecrets, cache]
      rcases getSecret_of_secrets all key (sound.cached values cache key) with ⟨answer, answered, same⟩
      simp only [answered]
      refine iff_of_true ⟨⟨same, sound.answered⟩, sound.kept, sound.cached⟩ ?_
      intro missed
      cases missed
  | none =>
      cases taken : log.storage.source toLowercase read with
      | none =>
          rcases loadSecretsFromStorage_of_none taken with ⟨message, failed, unavailable, other, refused⟩
          have answered : log.storage.getSecret toLowercase key read = (.error (.keyringError message), log.storage) := by
            simp only [getSecret, allSecrets, cache, refused]
          simp only [answered]
          refine iff_of_true ⟨⟨Or.inr ⟨message, failed, unavailable, other, rfl⟩, sound.answered⟩, sound.kept,
            sound.cached⟩ ?_
          intro _ store found
          cases found
      | some store =>
          have all : log.storage.allSecrets toLowercase read =
              (.ok (log.storage.contents store), { log.storage with secretsCache := some (log.storage.contents store) }) := by
            simp only [allSecrets, cache, loadSecretsFromStorage_of_source taken]
          constructor
          · intro after _ other found name
            cases found
            rw [sound.kept name]
            refine after.cached _ ?_ name
            rw [getSecret_storage, all]
          · intro newest
            have same : forall name, (log.storage.contents store).find? name = expected first log.history name := by
              intro name
              rw [newest rfl store rfl name, sound.kept name]
            rcases getSecret_of_secrets all key (same key) with ⟨answer, answered, asExpected⟩
            simp only [answered]
            refine ⟨⟨asExpected, sound.answered⟩, sound.kept, ?_⟩
            intro values cached
            cases cached
            exact same

/-! ## Runs -/

theorem after_sound_iff (sound : Sound toLowercase first log) (call : Call) :
    Sound toLowercase first (log.after toLowercase call) ↔ ReadsNewest toLowercase log call := by
  cases call with
  | set key value read write =>
      exact mutateSecrets_sound_iff (changes_set key value read write) sound fun values other =>
        values.find?_insert key other value
  | delete key read write =>
      exact mutateSecrets_sound_iff (changes_delete key read write) sound fun values other => values.find?_erase key other
  | get key read => exact get_sound_iff sound key read

/-- In all states of a run the secrets are as they should be exactly when every call takes the
secrets from the newest store. -/
theorem secrets_sound_iff (keyring file : Option Secrets) (calls : List Call) :
    (forall front back log, front ++ back = calls ->
        Runs.run (advance toLowercase) front (start keyring file) = .ok log ->
          Sound toLowercase (initial keyring file) log) ↔
      Runs.Along (advance toLowercase) (ReadsNewest toLowercase) calls (start keyring file) :=
  @Runs.forall_reached_iff_along _ _ _ (advance toLowercase) (ReadsNewest toLowercase)
    (Sound toLowercase (initial keyring file)) (fun call log => after toLowercase log call) (fun _ _ => rfl)
    (fun _ call sound => after_sound_iff sound call) calls _ (sound_start keyring file)

/-! ## A keyring that fails once -/

/-- The keyring is locked when the second of two secrets is written. -/
def lockedOnce : List Call :=
  [.set "OPENAI_API_KEY" (.string "first") none none,
    .set "GITHUB_TOKEN" (.string "second") none (some "Platform secure storage failure: locked"),
    .get "GITHUB_TOKEN" none]

/-- The second secret was set with success and is not found. -/
theorem lockedOnce_secret_lost :
    Exists fun log =>
      Runs.run (advance (String.map Char.toLower)) lockedOnce (start none none) = .ok log ∧
        log.history.map Prod.snd =
          [.found (.error (.notFound "GITHUB_TOKEN")), .changed (.ok ()), .changed (.ok ())] ∧
        expected (initial none none) (log.history.drop 1) "GITHUB_TOKEN" = some (.string "second") :=
  ⟨_, rfl, by decide +kernel, by decide +kernel⟩

end SecretLog
end Config
end AIBuddy
