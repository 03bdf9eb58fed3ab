import AIBuddy.Agent.ToolRequests

namespace AIBuddy

/-!
# Tool inspection

Inspectors give verdicts about requests.  The permission inspector sorts the
requests into buckets, and the verdicts of the other inspectors can only make
the outcome stricter.  What an inspector answers is not modelled: it may consult
a model, a user setting or a cache, and it may fail.
-/

inductive InspectionAction where
  | allow
  | deny
  | requireApproval (message : Option String)
deriving DecidableEq, Repr

structure InspectionResult where
  toolRequestId : String
  action : InspectionAction
  inspectorName : String
deriving DecidableEq, Repr

/-- An inspector as the manager sees it: its name, whether it is the permission
inspector behind that name, whether it is switched on, and what it answers. -/
structure ToolInspector where
  name : String
  isPermissionInspector : Bool
  isEnabled : Bool
  inspect : List ToolRequest -> List Message -> AIBuddyMode -> Except String (List InspectionResult)

structure ToolInspectionManager where
  inspectors : List ToolInspector

structure PermissionCheckResult where
  approved : List ToolRequest
  needsApproval : List ToolRequest
  denied : List ToolRequest
deriving DecidableEq

namespace PermissionCheckResult

def empty : PermissionCheckResult := ⟨[], [], []⟩

/-- The request with an id that was sorted last. -/
def request? (result : PermissionCheckResult) (id : String) : Option ToolRequest :=
  (result.approved ++ result.needsApproval ++ result.denied).reverse.find? fun request => request.id = id

/-- Whether a request with an id is in a bucket that keeps it from running. -/
def holdsBack (result : PermissionCheckResult) (id : String) : Prop :=
  Exists fun request => request ∈ result.needsApproval ++ result.denied ∧ request.id = id

end PermissionCheckResult

/-- Let the verdict of another inspector override a result. -/
def applyInspectionResult (requests : String -> Option ToolRequest) (state : PermissionCheckResult)
    (result : InspectionResult) : PermissionCheckResult :=
  let others := fun request : ToolRequest => request.id != result.toolRequestId
  let sorted := fun bucket : List ToolRequest => bucket.any fun request => request.id == result.toolRequestId
  match result.action with
  | .allow => state
  | .deny =>
      { approved := state.approved.filter others
        needsApproval := state.needsApproval.filter others
        denied := match requests result.toolRequestId with
          | some request => if sorted state.denied then state.denied else state.denied ++ [request]
          | none => state.denied }
  | .requireApproval _ =>
      { approved := state.approved.filter others
        needsApproval := match requests result.toolRequestId with
          | some request =>
              if sorted state.denied || sorted state.needsApproval then state.needsApproval
              else state.needsApproval ++ [request]
          | none => state.needsApproval
        denied := state.denied }

def applyInspectionResultsToPermissions (permissions : PermissionCheckResult)
    (results : List InspectionResult) : PermissionCheckResult :=
  results.foldl (applyInspectionResult permissions.request?) permissions

/-- Put a request into the bucket of a verdict. -/
def PermissionCheckResult.sort (state : PermissionCheckResult) (request : ToolRequest) :
    Option InspectionAction -> PermissionCheckResult
  | some .allow => { state with approved := state.approved ++ [request] }
  | some .deny => { state with denied := state.denied ++ [request] }
  | some (.requireApproval _) | none => { state with needsApproval := state.needsApproval ++ [request] }

def permissionInspectorName : String := "permission"

/-- The first verdict of the permission inspector about a request. -/
def permissionVerdict (results : List InspectionResult) (request : ToolRequest) : Option InspectionAction :=
  ((results.filter fun result => result.inspectorName == permissionInspectorName).find? fun result =>
    result.toolRequestId = request.id).map InspectionResult.action

/-- Sort the requests by the verdicts of the permission inspector; a request
without one needs approval. -/
def permissionBaseline (requests : List ToolRequest) (results : List InspectionResult) : PermissionCheckResult :=
  requests.foldl (fun state request => PermissionCheckResult.sort state request (permissionVerdict results request))
    PermissionCheckResult.empty

/-- Start from the permission inspector and let the other inspectors override. -/
def processInspectionResults (requests : List ToolRequest) (results : List InspectionResult) :
    PermissionCheckResult :=
  applyInspectionResultsToPermissions (permissionBaseline requests results)
    (results.filter fun result => result.inspectorName != permissionInspectorName)

namespace ToolInspectionManager

/-- Run all inspectors that are switched on, ignoring those that fail. -/
def inspectTools (manager : ToolInspectionManager) (requests : List ToolRequest) (messages : List Message)
    (mode : AIBuddyMode) : List InspectionResult :=
  (manager.inspectors.filter ToolInspector.isEnabled).flatMap fun inspector =>
    (inspector.inspect requests messages mode).toOption.getD []

/-- Whether the first inspector called "permission" is the permission inspector. -/
def hasPermissionInspector (manager : ToolInspectionManager) : Bool :=
  (manager.inspectors.find? fun inspector => inspector.name = permissionInspectorName).any
    ToolInspector.isPermissionInspector

def processInspectionResultsWithPermissionInspector (manager : ToolInspectionManager)
    (requests : List ToolRequest) (results : List InspectionResult) : Option PermissionCheckResult :=
  if manager.hasPermissionInspector then some (processInspectionResults requests results) else none

/-- The permission check of the state machine. -/
def permissionCheck (manager : ToolInspectionManager) (requests : List ToolRequest)
    (results : List InspectionResult) : PermissionCheckResult :=
  (manager.processInspectionResultsWithPermissionInspector requests results).getD .empty

/-- The permission check of the loop that the state machine replaces. -/
def legacyPermissionCheck (manager : ToolInspectionManager) (requests : List ToolRequest)
    (results : List InspectionResult) : PermissionCheckResult :=
  (manager.processInspectionResultsWithPermissionInspector requests results).getD
    { PermissionCheckResult.empty with needsApproval := requests }

end ToolInspectionManager

/-! ## Every request is sorted -/

private theorem foldl_sort_buckets (verdict : ToolRequest -> Option InspectionAction) (requests : List ToolRequest)
    (state : PermissionCheckResult) :
    requests.foldl (fun state request => PermissionCheckResult.sort state request (verdict request)) state =
      { approved := state.approved ++ requests.filter fun request => verdict request == some .allow
        needsApproval := state.needsApproval ++ requests.filter fun request =>
          verdict request != some .allow && verdict request != some .deny
        denied := state.denied ++ requests.filter fun request => verdict request == some .deny } := by
  induction requests generalizing state with
  | nil => simp
  | cons request rest ih =>
      rw [List.foldl_cons, ih]
      rcases found : verdict request with _ | _ | _ | _ <;>
        simp [PermissionCheckResult.sort, found]

theorem permissionBaseline_eq (requests : List ToolRequest) (results : List InspectionResult) :
    permissionBaseline requests results =
      { approved := requests.filter fun request => permissionVerdict results request == some .allow
        needsApproval := requests.filter fun request =>
          permissionVerdict results request != some .allow && permissionVerdict results request != some .deny
        denied := requests.filter fun request => permissionVerdict results request == some .deny } := by
  simp [permissionBaseline, foldl_sort_buckets, PermissionCheckResult.empty]

private theorem permissionBaseline_sorted (results : List InspectionResult) (requests : List ToolRequest)
    (request : ToolRequest) (member : request ∈ requests) :
    request ∈ (permissionBaseline requests results).approved ∨
      (permissionBaseline requests results).holdsBack request.id := by
  rw [permissionBaseline_eq]
  rcases found : permissionVerdict results request with _ | _ | _ | _
  · exact Or.inr ⟨request, by simp [member, found], rfl⟩
  · exact Or.inl (by simp [member, found])
  · exact Or.inr ⟨request, by simp [member, found], rfl⟩
  · exact Or.inr ⟨request, by simp [member, found], rfl⟩

private theorem applyInspectionResult_sorted (requests : String -> Option ToolRequest)
    (known : forall id request, requests id = some request -> request.id = id)
    (state : PermissionCheckResult) (result : InspectionResult) (request : ToolRequest)
    (covered : (requests request.id).isSome)
    (sorted : request ∈ state.approved ∨ state.holdsBack request.id) :
    request ∈ (applyInspectionResult requests state result).approved ∨
      (applyInspectionResult requests state result).holdsBack request.id := by
  rcases Option.isSome_iff_exists.mp covered with ⟨representative, found⟩
  have itsId := known _ _ found
  by_cases aimed : request.id = result.toolRequestId
  · have aimedFound : requests result.toolRequestId = some representative := aimed ▸ found
    unfold applyInspectionResult
    cases result.action with
    | allow => exact sorted
    | deny =>
        right
        simp only [PermissionCheckResult.holdsBack, aimedFound]
        split
        · case _ already =>
            rcases List.any_eq_true.mp already with ⟨old, member, same⟩
            exact ⟨old, List.mem_append_right _ member, by rw [aimed]; exact beq_iff_eq.mp same⟩
        · exact ⟨representative, by simp, itsId⟩
    | requireApproval message =>
        right
        simp only [PermissionCheckResult.holdsBack, aimedFound]
        split
        · case _ already =>
            rcases Bool.or_eq_true_iff.mp already with inDenied | inNeeds
            · rcases List.any_eq_true.mp inDenied with ⟨old, member, same⟩
              exact ⟨old, List.mem_append_right _ member, by rw [aimed]; exact beq_iff_eq.mp same⟩
            · rcases List.any_eq_true.mp inNeeds with ⟨old, member, same⟩
              exact ⟨old, List.mem_append_left _ member, by rw [aimed]; exact beq_iff_eq.mp same⟩
        · exact ⟨representative, by simp, itsId⟩
  · have otherwise : forall old : ToolRequest, old.id = request.id -> (old.id != result.toolRequestId) = true := by
      intro old same
      simpa [same] using aimed
    unfold applyInspectionResult
    rcases sorted with approved | ⟨old, member, same⟩
    · left
      cases result.action with
      | allow => exact approved
      | deny | requireApproval => exact List.mem_filter.mpr ⟨approved, otherwise request rfl⟩
    · right
      rcases List.mem_append.mp member with inNeeds | inDenied
      · cases result.action with
        | allow => exact ⟨old, member, same⟩
        | deny =>
            exact ⟨old, List.mem_append_left _ (List.mem_filter.mpr ⟨inNeeds, otherwise old same⟩), same⟩
        | requireApproval message =>
            refine ⟨old, List.mem_append_left _ ?_, same⟩
            simp only
            split
            · split
              · exact inNeeds
              · exact List.mem_append_left _ inNeeds
            · exact inNeeds
      · cases result.action with
        | allow => exact ⟨old, member, same⟩
        | deny =>
            refine ⟨old, List.mem_append_right _ ?_, same⟩
            simp only
            split
            · split
              · exact inDenied
              · exact List.mem_append_left _ inDenied
            · exact inDenied
        | requireApproval message => exact ⟨old, List.mem_append_right _ inDenied, same⟩

private theorem request?_known (result : PermissionCheckResult) :
    (forall id request, result.request? id = some request -> request.id = id) ∧
      forall request, request ∈ result.approved ∨ result.holdsBack request.id ->
        (result.request? request.id).isSome := by
  constructor
  · intro id request found
    simpa using List.find?_some found
  · intro request sorted
    rw [PermissionCheckResult.request?, List.find?_isSome]
    rcases sorted with approved | ⟨old, member, same⟩
    · exact ⟨request, by simp [approved], by simp⟩
    · refine ⟨old, ?_, by simp [same]⟩
      rcases List.mem_append.mp member with inNeeds | inDenied
      · simp [inNeeds]
      · simp [inDenied]

private theorem foldl_applyInspectionResult_sorted (requests : String -> Option ToolRequest)
    (known : forall id request, requests id = some request -> request.id = id) (request : ToolRequest)
    (covered : (requests request.id).isSome) (results : List InspectionResult) (state : PermissionCheckResult)
    (sorted : request ∈ state.approved ∨ state.holdsBack request.id) :
    request ∈ (results.foldl (applyInspectionResult requests) state).approved ∨
      (results.foldl (applyInspectionResult requests) state).holdsBack request.id := by
  induction results generalizing state with
  | nil => exact sorted
  | cons result rest ih =>
      apply ih
      exact applyInspectionResult_sorted requests known state result request covered sorted

theorem processInspectionResults_sorted (requests : List ToolRequest) (results : List InspectionResult)
    (request : ToolRequest) (member : request ∈ requests) :
    request ∈ (processInspectionResults requests results).approved ∨
      (processInspectionResults requests results).holdsBack request.id := by
  have baseline := permissionBaseline_sorted results requests request member
  have known := request?_known (permissionBaseline requests results)
  exact foldl_applyInspectionResult_sorted _ known.1 request (known.2 request baseline) _ _ baseline

/-! ## Nothing is approved without a verdict -/

private theorem foldl_applyInspectionResult_approved (requests : String -> Option ToolRequest)
    (request : ToolRequest) (results : List InspectionResult) (state : PermissionCheckResult)
    (approved : request ∈ (results.foldl (applyInspectionResult requests) state).approved) :
    request ∈ state.approved := by
  induction results generalizing state with
  | nil => exact approved
  | cons result rest ih =>
      have before := ih _ approved
      unfold applyInspectionResult at before
      cases action : result.action with
      | allow => simpa [action] using before
      | deny =>
          simp only [action] at before
          exact List.mem_of_mem_filter before
      | requireApproval message =>
          simp only [action] at before
          exact List.mem_of_mem_filter before

theorem processInspectionResults_approved (requests : List ToolRequest) (results : List InspectionResult)
    (request : ToolRequest) (approved : request ∈ (processInspectionResults requests results).approved) :
    request ∈ requests ∧ permissionVerdict results request = some .allow := by
  have before := foldl_applyInspectionResult_approved _ _ _ _ approved
  simpa [permissionBaseline_eq] using before

end AIBuddy
