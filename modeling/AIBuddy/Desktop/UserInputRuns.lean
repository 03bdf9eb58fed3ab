import AIBuddy.Desktop.UserInput

namespace AIBuddy
namespace Desktop
namespace UserInput

/-!
# Runs of requests for user input

The identifiers that the store waits for are those of the registries, as long as an attempt does
not begin or go on with requests that it does not know, and no request is dropped behind its
back.  Then the chat waits for the user exactly while a request is unresolved.
-/

/-- What a step must find.  A new attempt and the end of a load find no unresolved request, only
requests that no attempt waits for are cancelled, and what a cancellation has kept is still what
the registries hold when it is restored. -/
def Allowed (state : UserInput) : Step -> Prop
  | .cancelPermissions => state.active = true -> state.permissions = []
  | .cancelElicitations => state.active = true -> state.elicitations = []
  | .finishSessionLoad => state.active = true -> state.unresolved = []
  | .failSessionLoad => state.active = true -> state.unresolved = []
  | .startPromptAttempt _ => state.loading = false -> state.unresolved = []
  | .restorePromptCancellation promptAttemptId =>
      forall kept, kept ∈ state.entry.bind (fun entry => entry.restores promptAttemptId) ->
        (forall id, id ∈ kept.pendingUserInputRequestIds -> id ∈ state.unresolved) ∧
          (state.loading = false ->
            (forall id, id ∈ state.unresolved -> id ∈ kept.pendingUserInputRequestIds) ∧
              (kept.chatState = .waitingForUserInput ↔ state.unresolved ≠ []))
  | _ => True

instance (state : UserInput) (step : Step) : Decidable (Allowed state step) := by
  unfold Allowed
  split <;> infer_instance

/-- An entry with an active attempt waits only for unresolved requests, and outside of a load
for all of them, which the chat shows. -/
def Tracks (unresolved : List String) (loading : Bool) (entry : StoreEntry) : Prop :=
  entry.activePromptAttemptId.isSome = true ->
    (forall id, id ∈ entry.pendingUserInputRequestIds -> id ∈ unresolved) ∧
      (loading = false ->
        (forall id, id ∈ unresolved -> id ∈ entry.pendingUserInputRequestIds) ∧
          (entry.chatState = .waitingForUserInput ↔ unresolved ≠ []))

def Tracked (state : UserInput) : Prop :=
  forall entry, state.entry = some entry -> Tracks state.unresolved state.loading entry

theorem Tracked.waitsForRequests {state : UserInput} (tracked : Tracked state) : WaitsForRequests state :=
  fun settled entry found active => ((tracked entry found active).2 settled).2

/-! ## Identifiers -/

theorem acpPermissionUserInputRequestId_inj (left right : String) :
    acpPermissionUserInputRequestId left = acpPermissionUserInputRequestId right ↔ left = right := by
  simp [acpPermissionUserInputRequestId]

theorem acpElicitationUserInputRequestId_inj (left right : String) :
    acpElicitationUserInputRequestId left = acpElicitationUserInputRequestId right ↔ left = right := by
  simp [acpElicitationUserInputRequestId]

theorem permission_ne_elicitation (toolCallId id : String) :
    acpPermissionUserInputRequestId toolCallId ≠ acpElicitationUserInputRequestId id := by
  intro same
  have first := congrArg (fun text => text.toList.head?) same
  simp [acpPermissionUserInputRequestId, acpElicitationUserInputRequestId] at first

theorem mem_unresolved (state : UserInput) (id : String) :
    id ∈ state.unresolved ↔
      (Exists fun request => request ∈ state.permissions ∧ acpPermissionUserInputRequestId request.1 = id) ∨
        (Exists fun request => request ∈ state.elicitations ∧ acpElicitationUserInputRequestId request = id) := by
  simp only [unresolved, List.mem_append, List.mem_map]

theorem mem_addId (id other : String) (ids : List String) : other ∈ addId id ids ↔ other ∈ ids ∨ other = id := by
  rw [addId]
  split
  · rename_i member
    exact ⟨Or.inl, fun either => either.elim (fun known => known) fun same => same ▸ member⟩
  · simp

theorem mem_removeId (id other : String) (ids : List String) : other ∈ removeId id ids ↔ other ∈ ids ∧ other ≠ id := by
  simp [removeId]

/-! ## Requests and their resolutions -/

theorem tracks_of_inactive {entry : StoreEntry} (inactive : entry.activePromptAttemptId = none)
    (unresolved : List String) (loading : Bool) : Tracks unresolved loading entry := by
  intro active
  rw [inactive] at active
  contradiction

theorem tracks_request {entry : StoreEntry} {before after : List String} {loading : Bool} {id : String}
    (tracks : Tracks before loading entry) (added : forall other, other ∈ after ↔ other ∈ before ∨ other = id) :
    Tracks after loading (entry.request id) := by
  intro active
  rcases tracks active with ⟨known, all⟩
  refine ⟨fun other member => ?_, fun settled => ⟨fun other member => ?_, ?_⟩⟩
  · rw [added]
    exact ((mem_addId id other _).mp member).imp_left (known other)
  · exact (mem_addId id other _).mpr (((added other).mp member).imp_left ((all settled).1 other))
  · exact iff_of_true rfl (List.ne_nil_of_mem ((added id).mpr (Or.inr rfl)))

theorem tracks_resolve {entry : StoreEntry} {before after : List String} {loading : Bool} {id : String}
    (tracks : Tracks before loading entry) (removed : forall other, other ∈ after ↔ other ∈ before ∧ other ≠ id) :
    Tracks after loading (entry.resolveUserInputRequest id) := by
  have ids : (entry.resolveUserInputRequest id).pendingUserInputRequestIds =
      removeId id entry.pendingUserInputRequestIds := by
    rw [StoreEntry.resolveUserInputRequest]
    split <;> rfl
  have attempt : (entry.resolveUserInputRequest id).activePromptAttemptId = entry.activePromptAttemptId := by
    rw [StoreEntry.resolveUserInputRequest]
    split <;> rfl
  intro active
  rw [attempt] at active
  rcases tracks active with ⟨known, all⟩
  have remaining : loading = false ->
      forall other, other ∈ removeId id entry.pendingUserInputRequestIds ↔ other ∈ after := by
    intro settled other
    rw [mem_removeId, removed]
    exact and_congr_left fun _ => ⟨known other, (all settled).1 other⟩
  rw [ids]
  refine ⟨fun other member => ?_, fun settled => ⟨fun other member => (remaining settled other).mpr member, ?_⟩⟩
  · rw [mem_removeId] at member
    exact (removed other).mpr ⟨known other member.1, member.2⟩
  · have shown := (all settled).2
    have empty : removeId id entry.pendingUserInputRequestIds = [] ↔ after = [] := by
      rw [List.eq_nil_iff_forall_not_mem, List.eq_nil_iff_forall_not_mem]
      exact forall_congr' fun other => not_congr (remaining settled other)
    have shrinks : after ≠ [] -> before ≠ [] := by
      intro some
      rcases List.exists_mem_of_ne_nil after some with ⟨other, member⟩
      exact List.ne_nil_of_mem ((removed other).mp member).1
    rw [StoreEntry.resolveUserInputRequest]
    simp only [StoreEntry.dropped, empty]
    split
    · rename_i last
      exact iff_of_false (fun same => ChatState.noConfusion same) (not_not_intro last.2.2)
    · rename_i more
      constructor
      · intro waiting nothing
        exact more ⟨active, waiting, nothing⟩
      · exact fun some => shown.mpr (shrinks some)

/-! ## The unresolved requests after a step -/

theorem mem_unresolved_requestAcpPermission (state : UserInput) (toolCallId generation id : String) :
    id ∈ (state.requestAcpPermission toolCallId generation).unresolved ↔
      id ∈ state.unresolved ∨ id = acpPermissionUserInputRequestId toolCallId := by
  simp only [mem_unresolved, requestAcpPermission, List.mem_append, List.mem_filter, decide_eq_true_eq,
    List.mem_singleton]
  constructor
  · rintro (⟨request, ⟨known, -⟩ | rfl, rfl⟩ | other)
    · exact Or.inl (Or.inl ⟨request, known, rfl⟩)
    · exact Or.inr rfl
    · exact Or.inl (Or.inr other)
  · rintro ((⟨request, known, rfl⟩ | other) | rfl)
    · by_cases same : request.1 = toolCallId
      · exact Or.inl ⟨(toolCallId, generation), Or.inr rfl, by rw [same]⟩
      · exact Or.inl ⟨request, Or.inl ⟨known, same⟩, rfl⟩
    · exact Or.inr other
    · exact Or.inl ⟨(toolCallId, generation), Or.inr rfl, rfl⟩

theorem mem_unresolved_requestAcpElicitation (state : UserInput) (request id : String) :
    id ∈ (state.requestAcpElicitation request).unresolved ↔
      id ∈ state.unresolved ∨ id = acpElicitationUserInputRequestId request := by
  simp only [mem_unresolved, requestAcpElicitation, mem_addId]
  constructor
  · rintro (permission | ⟨other, known | rfl, rfl⟩)
    · exact Or.inl (Or.inl permission)
    · exact Or.inl (Or.inr ⟨other, known, rfl⟩)
    · exact Or.inr rfl
  · rintro ((permission | ⟨other, known, rfl⟩) | rfl)
    · exact Or.inl permission
    · exact Or.inr ⟨other, Or.inl known, rfl⟩
    · exact Or.inr ⟨request, Or.inr rfl, rfl⟩

theorem mem_unresolved_withoutPermission (state : UserInput) (entry : Option StoreEntry) (toolCallId id : String) :
    id ∈ unresolved { state with
        permissions := state.permissions.filter fun other => decide (other.1 ≠ toolCallId)
        entry := entry } ↔
      id ∈ state.unresolved ∧ id ≠ acpPermissionUserInputRequestId toolCallId := by
  simp only [mem_unresolved, List.mem_filter, decide_eq_true_eq]
  constructor
  · rintro (⟨request, ⟨known, other⟩, rfl⟩ | ⟨request, known, rfl⟩)
    · exact ⟨Or.inl ⟨request, known, rfl⟩, fun same => other ((acpPermissionUserInputRequestId_inj _ _).mp same)⟩
    · exact ⟨Or.inr ⟨request, known, rfl⟩, fun same => permission_ne_elicitation _ _ same.symm⟩
  · rintro ⟨⟨request, known, rfl⟩ | elicitation, other⟩
    · exact Or.inl ⟨request, ⟨known, fun same => other (by rw [same])⟩, rfl⟩
    · exact Or.inr elicitation

theorem mem_unresolved_withoutElicitation (state : UserInput) (entry : Option StoreEntry) (request id : String) :
    id ∈ unresolved { state with elicitations := removeId request state.elicitations, entry := entry } ↔
      id ∈ state.unresolved ∧ id ≠ acpElicitationUserInputRequestId request := by
  simp only [mem_unresolved, mem_removeId]
  constructor
  · rintro (⟨other, known, rfl⟩ | ⟨other, ⟨known, apart⟩, rfl⟩)
    · exact ⟨Or.inl ⟨other, known, rfl⟩, permission_ne_elicitation _ _⟩
    · exact ⟨Or.inr ⟨other, known, rfl⟩, fun same => apart ((acpElicitationUserInputRequestId_inj _ _).mp same)⟩
  · rintro ⟨permission | ⟨other, known, rfl⟩, apart⟩
    · exact Or.inl permission
    · exact Or.inr ⟨other, ⟨known, fun same => apart (by rw [same])⟩, rfl⟩

/-! ## Steps -/

variable {state : UserInput}

theorem Tracked.getD (tracked : Tracked state) :
    Tracks state.unresolved state.loading (state.entry.getD emptyEntry) := by
  cases found : state.entry with
  | none => exact tracks_of_inactive rfl _ _
  | some entry => exact tracked entry found

theorem active_of_entry {entry : StoreEntry} (found : state.entry = some entry)
    (active : entry.activePromptAttemptId.isSome = true) : state.active = true := by
  rw [UserInput.active, found]
  exact active

theorem tracked_ifEntry {change : StoreEntry -> StoreEntry}
    (keeps : forall entry, state.entry = some entry ->
      Tracks state.unresolved state.loading (change entry)) : Tracked (state.ifEntry change) := by
  intro next found
  rcases Option.map_eq_some_iff.mp found with ⟨entry, present, rfl⟩
  exact keeps entry present

theorem activePromptAttemptId_foldl_dropped (entry : StoreEntry) (requests : List (String × String)) :
    (requests.foldl (fun entry request => entry.dropped (acpPermissionUserInputRequestId request.1))
      entry).activePromptAttemptId = entry.activePromptAttemptId := by
  induction requests generalizing entry with
  | nil => rfl
  | cons request rest ih =>
      rw [List.foldl_cons, ih]
      rfl

theorem tracked_cancelPermissions (tracked : Tracked state) (allowed : Allowed state .cancelPermissions) :
    Tracked state.cancelAcpPermissionRequestsForSession := by
  intro next found
  rcases Option.map_eq_some_iff.mp found with ⟨entry, present, rfl⟩
  cases attempt : entry.activePromptAttemptId with
  | none => exact tracks_of_inactive ((activePromptAttemptId_foldl_dropped entry _).trans attempt) _ _
  | some promptAttemptId =>
      have none : state.permissions = [] := allowed (active_of_entry present (by rw [attempt]; rfl))
      have same : state.cancelAcpPermissionRequestsForSession.unresolved = state.unresolved := by
        rw [unresolved, unresolved, none]
        rfl
      rw [same, none]
      exact tracked entry present

theorem tracked_cancelElicitations (tracked : Tracked state) (allowed : Allowed state .cancelElicitations) :
    Tracked state.cancelAcpElicitationRequestsForSession := by
  intro entry present
  cases attempt : entry.activePromptAttemptId with
  | none => exact tracks_of_inactive attempt _ _
  | some promptAttemptId =>
      have none : state.elicitations = [] := allowed (active_of_entry present (by rw [attempt]; rfl))
      have same : state.cancelAcpElicitationRequestsForSession.unresolved = state.unresolved := by
        rw [unresolved, unresolved, none]
        rfl
      rw [same]
      exact tracked entry present

theorem tracked_endLoad (tracked : Tracked state) (nothing : state.active = true -> state.unresolved = [])
    (change : StoreEntry -> StoreEntry)
    (attempt : forall entry, (change entry).activePromptAttemptId = entry.activePromptAttemptId)
    (ids : forall entry, (change entry).pendingUserInputRequestIds = entry.pendingUserInputRequestIds)
    (shown : forall entry, (change entry).chatState ≠ .waitingForUserInput) :
    Tracked { state.onEntry change with loading := false } := by
  intro next found
  rw [onEntry, Option.some.injEq] at found
  subst found
  intro active
  rw [attempt] at active
  have running : state.active = true := by
    cases present : state.entry with
    | none =>
        rw [present] at active
        contradiction
    | some entry =>
        rw [present] at active
        exact active_of_entry present active
  have empty : unresolved { state.onEntry change with loading := false } = [] := nothing running
  have known := (tracked.getD active).1
  rw [nothing running] at known
  rw [ids, empty]
  refine ⟨known, fun _ => ⟨fun id member => absurd member List.not_mem_nil, ?_⟩⟩
  exact iff_of_false (shown _) (not_not_intro rfl)

theorem tracked_settle (tracked : Tracked state) (id : String) : Tracked (state.settleAcpElicitationRequest id) := by
  rw [settleAcpElicitationRequest]
  split
  · intro next found
    rcases Option.map_eq_some_iff.mp found with ⟨entry, present, rfl⟩
    exact tracks_resolve (tracked entry present) fun other => mem_unresolved_withoutElicitation state _ id other
  · exact tracked

theorem tracked_restore (tracked : Tracked state) (promptAttemptId : String)
    (allowed : Allowed state (.restorePromptCancellation promptAttemptId)) :
    Tracked (state.ifEntry fun entry => entry.restorePromptCancellation promptAttemptId) := by
  apply tracked_ifEntry
  intro entry present
  rw [StoreEntry.restorePromptCancellation]
  split
  · rename_i kept restores
    intro active
    exact allowed kept (by rw [present, Option.bind_some, restores]; rfl)
  · exact tracked entry present

theorem tracked_after (tracked : Tracked state) (step : Step) (allowed : Allowed state step) :
    Tracked (state.after step) := by
  cases step with
  | requestPermission toolCallId generation =>
      intro next found
      cases found
      exact tracks_request tracked.getD (mem_unresolved_requestAcpPermission state toolCallId generation)
  | resolvePermission toolCallId generation =>
      rw [after, resolveAcpPermissionRequest]
      split
      · exact tracked
      · split
        · intro next found
          rcases Option.map_eq_some_iff.mp found with ⟨entry, present, rfl⟩
          exact tracks_resolve (tracked entry present) fun other =>
            mem_unresolved_withoutPermission state _ toolCallId other
        · exact tracked
  | cancelPermissions => exact tracked_cancelPermissions tracked allowed
  | requestElicitation id =>
      intro next found
      cases found
      exact tracks_request tracked.getD (mem_unresolved_requestAcpElicitation state id)
  | resolveElicitation id => exact tracked_settle tracked id
  | timeoutElicitation id => exact tracked_settle tracked id
  | cancelElicitations => exact tracked_cancelElicitations tracked allowed
  | startSessionLoad =>
      intro next found
      cases found
      intro active
      exact ⟨fun id member => absurd member List.not_mem_nil, fun settled => Bool.noConfusion settled⟩
  | finishSessionLoad =>
      refine tracked_endLoad tracked allowed StoreEntry.finishSessionLoad (fun _ => rfl) (fun _ => rfl) ?_
      intro entry
      rw [StoreEntry.finishSessionLoad]
      split <;> exact fun same => ChatState.noConfusion same
  | failSessionLoad =>
      exact tracked_endLoad tracked allowed StoreEntry.failSessionLoad (fun _ => rfl) (fun _ => rfl)
        fun _ same => ChatState.noConfusion same
  | startPromptAttempt promptAttemptId =>
      intro next found
      cases found
      intro active
      refine ⟨fun id member => absurd member List.not_mem_nil, fun settled => ?_⟩
      have empty : unresolved (state.after (.startPromptAttempt promptAttemptId)) = [] := allowed settled
      rw [empty]
      exact ⟨fun id member => absurd member List.not_mem_nil,
        iff_of_false (fun same => ChatState.noConfusion same) (not_not_intro rfl)⟩
  | startPromptCancellation promptAttemptId =>
      apply tracked_ifEntry
      intro entry present
      rw [StoreEntry.startPromptCancellation]
      split
      · exact tracks_of_inactive rfl _ _
      · exact tracked entry present
  | clearPromptCancellation promptAttemptId =>
      apply tracked_ifEntry
      intro entry present
      rw [StoreEntry.clearPromptCancellation]
      split <;> exact tracked entry present
  | restorePromptCancellation promptAttemptId => exact tracked_restore tracked promptAttemptId allowed
  | finishPromptAttemptIfCurrent promptAttemptId =>
      apply tracked_ifEntry
      intro entry present
      rw [StoreEntry.finishPromptAttemptIfCurrent]
      split
      · exact tracks_of_inactive rfl _ _
      · exact tracked entry present
  | clearActivePromptAttempt =>
      apply tracked_ifEntry
      intro entry present
      exact tracks_of_inactive rfl _ _

/-! ## Runs -/

/-- In every run whose steps are all allowed, the chat waits for the user in an active attempt
outside of a load exactly when a request is unresolved. -/
theorem waitsForRequests_of_run (steps : List Step) (last : UserInput)
    (along : Runs.Along advance Allowed steps start) (reached : Runs.run advance steps start = .ok last) :
    WaitsForRequests last := by
  have tracked : Tracked last := by
    refine Runs.run_invariant (fun state step next allowed tracked moved => ?_) along ?_ reached
    · cases moved
      exact tracked_after tracked step allowed
    · intro entry found
      contradiction
  exact tracked.waitsForRequests

/-- A permission is answered while its prompt is being cancelled, and the cancellation fails. -/
def answeredWhileCancelled : List Step :=
  [.startPromptAttempt "attempt-1", .requestPermission "tool-1" "generation-1", .startPromptCancellation "attempt-1",
    .resolvePermission "tool-1" (some "generation-1"), .restorePromptCancellation "attempt-1"]

/-- The restored copy waits for a request that nobody can answer any more. -/
theorem answeredWhileCancelled_stuck :
    Exists fun last =>
      Runs.run advance answeredWhileCancelled start = .ok last ∧ last.unresolved = [] ∧
        last.entry.map StoreEntry.chatState = some .waitingForUserInput ∧ ¬WaitsForRequests last := by
  refine ⟨_, rfl, rfl, rfl, fun waits => ?_⟩
  exact absurd rfl ((waits rfl _ rfl rfl).mp rfl)

/-- The permission is answered after the cancellation was restored. -/
def answeredAfterwards : List Step :=
  [.startPromptAttempt "attempt-1", .requestPermission "tool-1" "generation-1", .startPromptCancellation "attempt-1",
    .restorePromptCancellation "attempt-1", .requestElicitation "acp_elicitation_1",
    .resolvePermission "tool-1" (some "generation-1"), .timeoutElicitation "acp_elicitation_1"]

theorem answeredAfterwards_waits :
    Exists fun last => Runs.run advance answeredAfterwards start = .ok last ∧ WaitsForRequests last :=
  ⟨_, rfl, waitsForRequests_of_run answeredAfterwards _ (by decide +kernel) rfl⟩

end UserInput
end Desktop
end AIBuddy
