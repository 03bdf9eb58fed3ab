import AIBuddy.Agent.Run

namespace AIBuddy

/-!
# Changing the mode

The mode of a session is kept by the provider, by the agent in memory and by the session.  An
update takes the three one after the other, and the first and the last may fail.
-/

/-- Providers by what they do about a mode: nothing, keep it for the session, keep the first one,
or ask the agent behind them for the first mode on a list that it offers. -/
inductive ModeProvider where
  | unaware
  | codex (mode : Option AIBuddyMode)
  | claudeCode (initialMode : Option AIBuddyMode)
  | acp (mode : AIBuddyMode) (modeMapping : AIBuddyMode -> Option (List String)) (availableModes : Option (List String))

namespace ModeProvider

/-- The mode that a provider keeps. -/
def mode : ModeProvider -> Option AIBuddyMode
  | unaware => none
  | codex mode => mode
  | claudeCode initialMode => initialMode
  | acp mode _ _ => some mode

def selectModeId (candidates : List String) : Option (List String) -> Option String
  | some available => candidates.find? fun candidate => available.contains candidate
  | none => candidates.head?

/-- Change the mode of a provider.  Whether a request reaches the agent behind it comes from
outside. -/
def updateMode (request : String -> Except String Unit) (mode : AIBuddyMode) :
    ModeProvider -> Except String ModeProvider
  | unaware => .ok unaware
  | codex _ => .ok (codex (some mode))
  | claudeCode initialMode =>
      let current := initialMode.getD mode
      if current ≠ mode then .error "Mode change not supported" else .ok (claudeCode (some current))
  | acp _ modeMapping availableModes =>
      match modeMapping mode with
      | some candidates =>
          match selectModeId candidates availableModes with
          | some modeId => (request modeId).map fun _ => acp mode modeMapping availableModes
          | none => .error "None of the mode ids are offered by the agent"
      | none => .ok (acp mode modeMapping availableModes)

/-- Whether a provider rejects a mode: it was started with another one, the agent behind it offers
none of the modes on the list, or the request does not reach that agent. -/
def Rejects (request : String -> Except String Unit) (mode : AIBuddyMode) : ModeProvider -> Prop
  | unaware => False
  | codex _ => False
  | claudeCode initialMode => Exists fun initial => initialMode = some initial ∧ initial ≠ mode
  | acp _ modeMapping availableModes => Exists fun candidates =>
      modeMapping mode = some candidates ∧
        forall modeId, selectModeId candidates availableModes = some modeId -> (request modeId).isOk = false

/-- A provider keeps a mode, or does not care about modes. -/
def Keeps (mode : AIBuddyMode) (provider : ModeProvider) : Prop :=
  provider = unaware ∨ provider.mode = some mode

theorem updateMode_isOk_iff (request : String -> Except String Unit) (mode : AIBuddyMode) (provider : ModeProvider) :
    (provider.updateMode request mode).isOk = false ↔ provider.Rejects request mode := by
  cases provider with
  | unaware => simp [updateMode, Rejects, Except.isOk, Except.toBool]
  | codex kept => simp [updateMode, Rejects, Except.isOk, Except.toBool]
  | claudeCode initialMode =>
      cases initialMode with
      | none => simp [updateMode, Rejects, Except.isOk, Except.toBool]
      | some initial =>
          by_cases same : initial = mode
          · simp [updateMode, Rejects, same, Except.isOk, Except.toBool]
          · simp [updateMode, Rejects, same, Except.isOk, Except.toBool]
  | acp kept modeMapping availableModes =>
      cases mapped : modeMapping mode with
      | none => simp [updateMode, Rejects, mapped, Except.isOk, Except.toBool]
      | some candidates =>
          cases selected : selectModeId candidates availableModes with
          | none => simp [updateMode, Rejects, mapped, selected, Except.isOk, Except.toBool]
          | some modeId =>
              cases reached : request modeId with
              | error error =>
                  simp [updateMode, Rejects, mapped, selected, reached, Except.map, Except.isOk, Except.toBool]
              | ok _ => simp [updateMode, Rejects, mapped, selected, reached, Except.map, Except.isOk, Except.toBool]

theorem updateMode_mode {request : String -> Except String Unit} {mode : AIBuddyMode} {provider next : ModeProvider}
    (updated : provider.updateMode request mode = .ok next) :
    next.Keeps mode ∧ (next.mode = provider.mode ↔ provider.Keeps mode) := by
  cases provider with
  | unaware =>
      cases updated
      exact ⟨Or.inl rfl, iff_of_true rfl (Or.inl rfl)⟩
  | codex kept =>
      cases updated
      exact ⟨Or.inr rfl, by simp [Keeps, ModeProvider.mode, eq_comm]⟩
  | claudeCode initialMode =>
      rw [updateMode] at updated
      split at updated
      · contradiction
      · rename_i same
        cases updated
        have kept : (claudeCode (some (initialMode.getD mode))).mode = some mode := congrArg some (not_not.mp same)
        exact ⟨Or.inr kept, by rw [kept]; simp [Keeps, ModeProvider.mode, eq_comm]⟩
  | acp kept modeMapping availableModes =>
      have next_eq : next = acp mode modeMapping availableModes := by
        rw [updateMode] at updated
        split at updated
        · split at updated
          · rcases (Runs.map_eq_ok_iff _ _ _).mp updated with ⟨_, _, rfl⟩
            rfl
          · contradiction
        · cases updated
          rfl
      subst next_eq
      exact ⟨Or.inr rfl, by simp [Keeps, ModeProvider.mode, eq_comm]⟩

end ModeProvider

/-- An agent with its session, and the provider that it has, if it has one. -/
structure ModeState where
  provider : Option ModeProvider
  state : State

/-- The three places of the mode. -/
def ModeState.modes (current : ModeState) : Option AIBuddyMode × AIBuddyMode × AIBuddyMode :=
  (current.provider.bind ModeProvider.mode, current.state.agent.aibuddyMode, current.state.session.aibuddyMode)

/-- The provider after it was told the mode, if there is one. -/
def updateProviderMode (request : String -> Except String Unit) (mode : AIBuddyMode) :
    Option ModeProvider -> Except String (Option ModeProvider)
  | some provider => (provider.updateMode request mode).map some
  | none => .ok none

/-- Tell the provider, change the mode in memory, and persist it, which may fail. -/
def updateAIBuddyMode (request : String -> Except String Unit) (persist : Except String Unit) (mode : AIBuddyMode)
    (current : ModeState) : Except String Unit × ModeState :=
  match updateProviderMode request mode current.provider with
  | .error error => (.error ("Provider rejected mode update: " ++ error), current)
  | .ok provider =>
      let inMemory := { provider := provider, state := { current.state with agent.aibuddyMode := mode } : ModeState }
      match persist with
      | .error _ => (.error "Failed to persist aibuddy_mode to session", inMemory)
      | .ok () => (.ok (), { inMemory with state := { inMemory.state with session.aibuddyMode := mode } })

/-- An update that fails leaves the three modes, and the mode in memory is that of the session
afterwards if it was before. -/
def AtomicUpdate (request : String -> Except String Unit) (persist : Except String Unit) (mode : AIBuddyMode)
    (current : ModeState) : Prop :=
  let updated := updateAIBuddyMode request persist mode current
  (updated.1.isOk = false -> updated.2.modes = current.modes) ∧
    (current.state.agent.aibuddyMode = current.state.session.aibuddyMode ->
      updated.2.state.agent.aibuddyMode = updated.2.state.session.aibuddyMode)

/-- An agent and its provider, if it has one, keep a mode. -/
def HasMode (mode : AIBuddyMode) (current : ModeState) : Prop :=
  current.state.agent.aibuddyMode = mode ∧ forall provider, current.provider = some provider -> provider.Keeps mode

/-- The provider rejects a mode. -/
def ProviderRejects (request : String -> Except String Unit) (mode : AIBuddyMode) (current : ModeState) : Prop :=
  Exists fun provider => current.provider = some provider ∧ provider.Rejects request mode

theorem updateAIBuddyMode_of_rejects {request : String -> Except String Unit} {mode : AIBuddyMode} {current : ModeState}
    (rejects : ProviderRejects request mode current) (persist : Except String Unit) :
    (updateAIBuddyMode request persist mode current).2 = current := by
  rcases rejects with ⟨provider, found, rejects⟩
  have failed := (ModeProvider.updateMode_isOk_iff request mode provider).mpr rejects
  cases updated : provider.updateMode request mode with
  | ok next => simp [updated, Except.isOk, Except.toBool] at failed
  | error error => simp [updateAIBuddyMode, updateProviderMode, found, updated, Except.map]

theorem updateProviderMode_of_not_rejects {request : String -> Except String Unit} {mode : AIBuddyMode}
    {current : ModeState} (takes : ¬ ProviderRejects request mode current) :
    Exists fun provider => updateProviderMode request mode current.provider = .ok provider ∧
      (provider.bind ModeProvider.mode = current.provider.bind ModeProvider.mode ↔
        forall provider, current.provider = some provider -> provider.Keeps mode) := by
  cases found : current.provider with
  | none => exact ⟨none, rfl, iff_of_true rfl (fun _ absurd => by cases absurd)⟩
  | some provider =>
      cases updated : provider.updateMode request mode with
      | error error =>
          have rejects := (ModeProvider.updateMode_isOk_iff request mode provider).mp (by rw [updated]; rfl)
          exact absurd ⟨provider, found, rejects⟩ takes
      | ok next =>
          refine ⟨some next, by simp [updateProviderMode, updated, Except.map], ?_⟩
          simpa using (ModeProvider.updateMode_mode updated).2

/-- An update is atomic exactly when the mode can be persisted, the provider rejects it, or the
provider and the agent have it already. -/
theorem updateAIBuddyMode_atomic_iff (request : String -> Except String Unit) (persist : Except String Unit)
    (mode : AIBuddyMode) (current : ModeState) :
    AtomicUpdate request persist mode current ↔
      persist.isOk = true ∨ ProviderRejects request mode current ∨ HasMode mode current := by
  by_cases rejects : ProviderRejects request mode current
  · rw [AtomicUpdate, updateAIBuddyMode_of_rejects rejects]
    exact iff_of_true ⟨fun _ => rfl, id⟩ (Or.inr (Or.inl rejects))
  · rcases updateProviderMode_of_not_rejects rejects with ⟨provider, updated, kept⟩
    cases persist with
    | ok _ =>
        refine iff_of_true ⟨fun failed => ?_, fun _ => ?_⟩ (Or.inl rfl)
        · simp [updateAIBuddyMode, updated, Except.isOk, Except.toBool] at failed
        · simp [updateAIBuddyMode, updated]
    | error error =>
        have modes : (updateAIBuddyMode request (.error error) mode current).2.modes = current.modes ↔
            HasMode mode current := by
          simp only [updateAIBuddyMode, updated, ModeState.modes, HasMode, Prod.mk.injEq, and_true, kept]
          rw [and_comm, eq_comm]
        constructor
        · rintro ⟨unchanged, _⟩
          refine Or.inr (Or.inr (modes.mp (unchanged ?_)))
          simp [updateAIBuddyMode, updated, Except.isOk, Except.toBool]
        · rintro (persisted | rejected | keeps)
          · simp [Except.isOk, Except.toBool] at persisted
          · exact absurd rejected rejects
          · refine ⟨fun _ => modes.mpr keeps, fun same => ?_⟩
            simpa [updateAIBuddyMode, updated] using keeps.1.symm.trans same

/-! ## A store that is out of order -/

namespace ModeUpdate

/-- A session in chat mode, whose provider keeps its mode. -/
def chatting : ModeState :=
  ⟨some (.codex (some .chat)), ⟨⟨.chat, none, none⟩, ⟨"s", [], none, .chat, .null⟩⟩⟩

def storeFails : Except String Unit :=
  .error "database is locked"

end ModeUpdate

/-- A mode that cannot be persisted leaves a provider and an agent that run tools by themselves,
with a session that still only chats. -/
theorem updateAIBuddyMode_keeps_half :
    ModeUpdate.chatting.modes = (some .chat, .chat, .chat) ∧
      (updateAIBuddyMode (fun _ => .ok ()) ModeUpdate.storeFails .auto ModeUpdate.chatting).1 =
        .error "Failed to persist aibuddy_mode to session" ∧
      (updateAIBuddyMode (fun _ => .ok ()) ModeUpdate.storeFails .auto ModeUpdate.chatting).2.modes =
        (some .auto, .auto, .chat) ∧
      ¬ AtomicUpdate (fun _ => .ok ()) ModeUpdate.storeFails .auto ModeUpdate.chatting := by
  refine ⟨rfl, rfl, rfl, fun atomic => ?_⟩
  exact absurd (atomic.1 rfl) (by decide)

end AIBuddy
