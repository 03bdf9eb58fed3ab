import Mathlib.Order.Lattice
import Mathlib.Data.List.Perm.Basic
import AIBuddy.Agent.Inspection

namespace AIBuddy

/-!
# The bucket of a request

Verdicts about a request are ordered by how much they restrict it.  The folding of verdicts into
the three buckets takes each request to the bucket of its strictest verdict.
-/

/-- The buckets of a permission check. -/
inductive Bucket where
  | approved
  | needsApproval
  | denied
deriving DecidableEq

namespace Bucket

/-- How much a bucket restricts its requests. -/
def rank : Bucket -> Nat
  | approved => 0
  | needsApproval => 1
  | denied => 2

theorem rank_injective : Function.Injective rank := by
  intro first second same
  cases first <;> cases second <;> first | rfl | contradiction

instance : LinearOrder Bucket :=
  LinearOrder.lift' rank rank_injective

theorem max_denied (bucket : Bucket) : max bucket denied = denied := by
  cases bucket <;> rfl

theorem max_approved (bucket : Bucket) : max bucket approved = bucket := by
  cases bucket <;> rfl

end Bucket

/-- The requests of a bucket. -/
def PermissionCheckResult.bucket (result : PermissionCheckResult) : Bucket -> List ToolRequest
  | .approved => result.approved
  | .needsApproval => result.needsApproval
  | .denied => result.denied

/-- The bucket that a verdict asks for. -/
def InspectionAction.bucket : InspectionAction -> Bucket
  | .allow => .approved
  | .requireApproval _ => .needsApproval
  | .deny => .denied

/-- The bucket of a request before other inspectors are heard. -/
def verdictBucket (results : List InspectionResult) (request : ToolRequest) : Bucket :=
  ((permissionVerdict results request).map InspectionAction.bucket).getD .needsApproval

/-- The buckets that the other inspectors ask for. -/
def otherVerdicts (results : List InspectionResult) (request : ToolRequest) : List Bucket :=
  (results.filter fun result =>
    result.inspectorName != permissionInspectorName && decide (result.toolRequestId = request.id)).map fun result =>
      result.action.bucket

/-- The most restrictive of all verdicts about a request. -/
def strictest (results : List InspectionResult) (request : ToolRequest) : Bucket :=
  (otherVerdicts results request).foldl max (verdictBucket results request)

/-! ## One verdict -/

/-- Each of the requests is in the bucket of its level, and no other request is in any. -/
def Sorted (requests : List ToolRequest) (level : ToolRequest -> Bucket) (state : PermissionCheckResult) : Prop :=
  forall bucket request, request ∈ state.bucket bucket ↔ request ∈ requests ∧ level request = bucket

/-- A verdict raises the level of its request. -/
def raise (level : ToolRequest -> Bucket) (result : InspectionResult) (request : ToolRequest) : Bucket :=
  if request.id = result.toolRequestId then max (level request) result.action.bucket else level request

/-- The lookup finds each of the requests under its identifier. -/
def Finds (requests : List ToolRequest) (lookup : String -> Option ToolRequest) : Prop :=
  forall id request, lookup id = some request ↔ request ∈ requests ∧ request.id = id

section Verdict

variable {requests : List ToolRequest} {level : ToolRequest -> Bucket} {state : PermissionCheckResult}
  {lookup : String -> Option ToolRequest}

theorem mem_bucket_filter (sorted : Sorted requests level state) (bucket : Bucket) (id : String) (request : ToolRequest) :
    request ∈ (state.bucket bucket).filter (fun request => request.id != id) ↔
      request ∈ requests ∧ level request = bucket ∧ request.id ≠ id := by
  rw [List.mem_filter, sorted, bne_iff_ne, and_assoc]

theorem mem_extended (finds : Finds requests lookup) (id : String) (bucket : List ToolRequest) (present : Bool)
    (request : ToolRequest) :
    (request ∈ match lookup id with
      | some known => if present then bucket else bucket ++ [known]
      | none => bucket) ↔
      request ∈ bucket ∨ (present = false ∧ request ∈ requests ∧ request.id = id) := by
  rw [← finds id request]
  cases found : lookup id with
  | none => simp
  | some known =>
      cases present with
      | true => simp
      | false => simp [eq_comm]

theorem any_bucket_iff (sorted : Sorted requests level state) (finds : Finds requests lookup) (bucket : Bucket)
    {request : ToolRequest} (member : request ∈ requests) :
    ((state.bucket bucket).any fun other => other.id == request.id) = true ↔ level request = bucket := by
  rw [List.any_eq_true]
  constructor
  · rintro ⟨other, inside, same⟩
    rw [sorted] at inside
    have one : some other = some request := by
      rw [← (finds request.id other).mpr ⟨inside.1, beq_iff_eq.mp same⟩, (finds request.id request).mpr ⟨member, rfl⟩]
    rw [← Option.some.inj one]
    exact inside.2
  · intro atLevel
    exact ⟨request, (sorted bucket request).mpr ⟨member, atLevel⟩, beq_self_eq_true _⟩

theorem max_needsApproval_eq_denied_iff (bucket : Bucket) : max bucket .needsApproval = .denied ↔ bucket = .denied := by
  cases bucket <;> decide

theorem max_needsApproval_eq_iff (bucket : Bucket) :
    max bucket .needsApproval = .needsApproval ↔ bucket ≠ .denied := by
  cases bucket <;> decide

theorem max_needsApproval_ne_approved (bucket : Bucket) : max bucket .needsApproval ≠ .approved := by
  cases bucket <;> decide

/-- A denial takes its request out of the other buckets. -/
theorem sorted_deny (sorted : Sorted requests level state) (finds : Finds requests lookup) {result : InspectionResult}
    (action : result.action = .deny) :
    Sorted requests (raise level result) (applyInspectionResult lookup state result) := by
  intro bucket request
  have raised : raise level result request = bucket ↔
      (request.id = result.toolRequestId ∧ bucket = .denied) ∨
        (request.id ≠ result.toolRequestId ∧ level request = bucket) := by
    rw [raise, action, InspectionAction.bucket, Bucket.max_denied]
    split
    · rename_i aimed
      simp [aimed, eq_comm]
    · rename_i apart
      simp [apart]
  rw [raised, applyInspectionResult, action]
  cases bucket with
  | approved =>
      refine (mem_bucket_filter sorted .approved result.toolRequestId request).trans ?_
      simp [and_comm]
  | needsApproval =>
      refine (mem_bucket_filter sorted .needsApproval result.toolRequestId request).trans ?_
      simp [and_comm]
  | denied =>
      refine (mem_extended finds result.toolRequestId state.denied _ request).trans ?_
      have here := sorted .denied request
      by_cases aimed : request.id = result.toolRequestId
      · rw [← aimed]
        constructor
        · rintro (inside | ⟨-, member, -⟩)
          · exact ⟨(here.mp inside).1, Or.inl ⟨rfl, rfl⟩⟩
          · exact ⟨member, Or.inl ⟨rfl, rfl⟩⟩
        · rintro ⟨member, -⟩
          by_cases already : level request = .denied
          · exact Or.inl (here.mpr ⟨member, already⟩)
          · exact Or.inr ⟨Bool.eq_false_iff.mpr fun found =>
              already ((any_bucket_iff sorted finds .denied member).mp found), member, rfl⟩
      · simp only [aimed, and_false, or_false, false_and, false_or, ne_eq, not_false_eq_true, true_and]
        exact here

theorem sorted_requireApproval (sorted : Sorted requests level state) (finds : Finds requests lookup)
    {result : InspectionResult} {message : Option String} (action : result.action = .requireApproval message) :
    Sorted requests (raise level result) (applyInspectionResult lookup state result) := by
  intro bucket request
  rw [raise, action, InspectionAction.bucket, applyInspectionResult, action]
  cases bucket with
  | approved =>
      refine (mem_bucket_filter sorted .approved result.toolRequestId request).trans ?_
      by_cases aimed : request.id = result.toolRequestId
      · simp [aimed, max_needsApproval_ne_approved]
      · simp [aimed]
  | needsApproval =>
      refine (mem_extended finds result.toolRequestId state.needsApproval _ request).trans ?_
      have here := sorted .needsApproval request
      by_cases aimed : request.id = result.toolRequestId
      · rw [if_pos aimed, max_needsApproval_eq_iff, ← aimed]
        constructor
        · rintro (inside | ⟨absent, member, -⟩)
          · refine ⟨(here.mp inside).1, fun denied => ?_⟩
            rw [(here.mp inside).2] at denied
            contradiction
          · refine ⟨member, fun denied => ?_⟩
            rw [Bool.or_eq_false_iff] at absent
            exact Bool.eq_false_iff.mp absent.1 ((any_bucket_iff sorted finds .denied member).mpr denied)
        · rintro ⟨member, notDenied⟩
          by_cases already : level request = .needsApproval
          · exact Or.inl (here.mpr ⟨member, already⟩)
          · refine Or.inr ⟨?_, member, rfl⟩
            rw [Bool.or_eq_false_iff, Bool.eq_false_iff, Bool.eq_false_iff]
            exact ⟨fun found => notDenied ((any_bucket_iff sorted finds .denied member).mp found),
              fun found => already ((any_bucket_iff sorted finds .needsApproval member).mp found)⟩
      · simp only [aimed, and_false, or_false, if_false]
        exact here
  | denied =>
      refine (sorted .denied request).trans ?_
      split
      · rw [max_needsApproval_eq_denied_iff]
      · exact Iff.rfl

theorem sorted_applyInspectionResult (sorted : Sorted requests level state) (finds : Finds requests lookup)
    (result : InspectionResult) :
    Sorted requests (raise level result) (applyInspectionResult lookup state result) := by
  cases action : result.action with
  | allow =>
      have same : raise level result = level := by
        funext request
        rw [raise, action, InspectionAction.bucket, Bucket.max_approved, ite_self]
      rw [same, applyInspectionResult, action]
      exact sorted
  | deny => exact sorted_deny sorted finds action
  | requireApproval message => exact sorted_requireApproval sorted finds action

theorem sorted_foldl (sorted : Sorted requests level state) (finds : Finds requests lookup)
    (results : List InspectionResult) :
    Sorted requests (results.foldl raise level) (results.foldl (applyInspectionResult lookup) state) := by
  induction results generalizing level state with
  | nil => exact sorted
  | cons result rest ih =>
      exact ih (sorted_applyInspectionResult sorted finds result)

end Verdict

/-! ## All verdicts -/

theorem foldl_raise (results : List InspectionResult) (level : ToolRequest -> Bucket) (request : ToolRequest) :
    results.foldl raise level request =
      ((results.filter fun result => decide (result.toolRequestId = request.id)).map fun result =>
        result.action.bucket).foldl max (level request) := by
  induction results generalizing level with
  | nil => rfl
  | cons result rest ih =>
      rw [List.foldl_cons, ih, raise]
      by_cases aimed : request.id = result.toolRequestId
      · rw [if_pos aimed, List.filter_cons_of_pos (by simp [aimed]), List.map_cons, List.foldl_cons]
      · rw [if_neg aimed, List.filter_cons_of_neg (by simpa using fun same => aimed same.symm)]

theorem sorted_permissionBaseline (requests : List ToolRequest) (results : List InspectionResult) :
    Sorted requests (verdictBucket results) (permissionBaseline requests results) := by
  intro bucket request
  rw [permissionBaseline_eq, verdictBucket]
  rcases found : permissionVerdict results request with _ | action
  · cases bucket <;> simp [PermissionCheckResult.bucket, found]
  · cases action <;> cases bucket <;> simp [PermissionCheckResult.bucket, InspectionAction.bucket, found]

theorem finds_request? {requests : List ToolRequest} (distinct : (requests.map ToolRequest.id).Nodup)
    {level : ToolRequest -> Bucket} {state : PermissionCheckResult} (sorted : Sorted requests level state) :
    Finds requests state.request? := by
  have all : forall request, request ∈ state.approved ++ state.needsApproval ++ state.denied ↔ request ∈ requests := by
    intro request
    rw [List.mem_append, List.mem_append]
    have approved := sorted .approved request
    have needsApproval := sorted .needsApproval request
    have denied := sorted .denied request
    simp only [PermissionCheckResult.bucket] at approved needsApproval denied
    rw [approved, needsApproval, denied]
    cases level request <;> simp
  intro id request
  rw [PermissionCheckResult.request?]
  constructor
  · intro found
    refine ⟨(all request).mp (List.mem_reverse.mp (List.mem_of_find?_eq_some found)), ?_⟩
    simpa using List.find?_some found
  · rintro ⟨member, rfl⟩
    cases found : (state.approved ++ state.needsApproval ++ state.denied).reverse.find?
        fun other => decide (other.id = request.id) with
    | none =>
        have absent := List.find?_eq_none.mp found request (List.mem_reverse.mpr ((all request).mpr member))
        simp at absent
    | some other =>
        have inside := (all other).mp (List.mem_reverse.mp (List.mem_of_find?_eq_some found))
        have same : other.id = request.id := by simpa using List.find?_some found
        rw [List.inj_on_of_nodup_map distinct inside member same]

theorem sorted_processInspectionResults {requests : List ToolRequest} (results : List InspectionResult)
    (distinct : (requests.map ToolRequest.id).Nodup) :
    Sorted requests (strictest results) (processInspectionResults requests results) := by
  have baseline := sorted_permissionBaseline requests results
  have folded := sorted_foldl baseline (finds_request? distinct baseline)
    (results.filter fun result => result.inspectorName != permissionInspectorName)
  have levels : (results.filter fun result => result.inspectorName != permissionInspectorName).foldl raise
      (verdictBucket results) = strictest results := by
    funext request
    rw [foldl_raise, List.filter_filter, strictest, otherVerdicts]
    congr 2
    apply List.filter_congr
    intro result _
    exact Bool.and_comm _ _
  rw [levels] at folded
  exact folded

theorem strictest_perm {results shuffled : List InspectionResult} (perm : results.Perm shuffled)
    {request : ToolRequest} (first : permissionVerdict shuffled request = permissionVerdict results request) :
    strictest shuffled request = strictest results request := by
  have others : (otherVerdicts shuffled request).Perm (otherVerdicts results request) :=
    (perm.symm.filter _).map _
  rw [strictest, strictest, verdictBucket, verdictBucket, first]
  exact others.foldl_eq _

/-- Each request is in exactly the bucket of the strictest of its first permission verdict and
the verdicts of all other inspectors, and in the same one for every order of the results that
leaves the first permission verdicts. -/
theorem processInspectionResults_strictest (requests : List ToolRequest) (results : List InspectionResult)
    (distinct : (requests.map ToolRequest.id).Nodup) :
    (forall bucket request, request ∈ (processInspectionResults requests results).bucket bucket ↔
      request ∈ requests ∧ strictest results request = bucket) ∧
      forall shuffled, results.Perm shuffled ->
        (forall request, request ∈ requests ->
          permissionVerdict shuffled request = permissionVerdict results request) ->
        forall bucket request, request ∈ (processInspectionResults requests shuffled).bucket bucket ↔
          request ∈ (processInspectionResults requests results).bucket bucket := by
  have sorted := sorted_processInspectionResults results distinct
  refine ⟨sorted, fun shuffled perm firsts bucket request => ?_⟩
  rw [sorted, sorted_processInspectionResults shuffled distinct]
  refine and_congr_right fun member => ?_
  rw [strictest_perm perm (firsts request member)]

namespace InspectionBuckets

/-- A call of a tool. -/
def listing (id : String) : ToolRequest :=
  ⟨id, .ok ⟨"developer__shell", none⟩, none, none⟩

def verdict (inspectorName : String) (action : InspectionAction) : InspectionResult :=
  ⟨"call-1", action, inspectorName⟩

/-- A denial counts wherever it stands, and a request without a verdict needs approval. -/
theorem denied_in_any_order :
    listing "call-1" ∈ (processInspectionResults [listing "call-1", listing "call-2"]
        [verdict "security" .deny, verdict "permission" .allow, verdict "repetition" .allow]).bucket .denied ∧
      listing "call-2" ∈ (processInspectionResults [listing "call-1", listing "call-2"]
        [verdict "security" .deny, verdict "permission" .allow, verdict "repetition" .allow]).bucket .needsApproval := by
  have buckets := (processInspectionResults_strictest [listing "call-1", listing "call-2"]
    [verdict "security" .deny, verdict "permission" .allow, verdict "repetition" .allow] (by decide +kernel)).1
  exact ⟨(buckets .denied _).mpr (by decide +kernel), (buckets .needsApproval _).mpr (by decide +kernel)⟩

/-- Of two permission verdicts about one request the first counts. -/
theorem first_permission_verdict_counts :
    [verdict "permission" .allow, verdict "permission" .deny].Perm
        [verdict "permission" .deny, verdict "permission" .allow] ∧
      processInspectionResults [listing "call-1"] [verdict "permission" .allow, verdict "permission" .deny] =
        ⟨[listing "call-1"], [], []⟩ ∧
      processInspectionResults [listing "call-1"] [verdict "permission" .deny, verdict "permission" .allow] =
        ⟨[], [], [listing "call-1"]⟩ := by
  decide +kernel

end InspectionBuckets
end AIBuddy
