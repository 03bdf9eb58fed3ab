import AIBuddy.Agent.Inspection
import AIBuddy.Support.JsonSorted

namespace AIBuddy

/-!
# The repetition inspector

A tool call that is made more often in a row than a limit allows is to be denied.  The counter is
kept by `checkToolCall`.  The inspection of a batch counts on a copy of the inspector for every
request, and the copies are dropped.
-/

/-! ## Counting calls -/

/-- What of a call is compared with the next one. -/
structure InternalToolCall where
  name : String
  parameters : Json
deriving DecidableEq

namespace InternalToolCall

/-- The same tool with the same arguments. -/
def Matches (call other : InternalToolCall) : Prop :=
  call.name = other.name ∧ call.parameters.Same other.parameters

instance (call other : InternalToolCall) : Decidable (call.Matches other) :=
  inferInstanceAs (Decidable (_ ∧ _))

def fromToolCall (toolCall : CallToolRequestParams) : InternalToolCall where
  name := toolCall.name
  parameters := (toolCall.arguments.map Json.object).getD .null

theorem Matches.refl (call : InternalToolCall) : call.Matches call :=
  ⟨rfl, Json.Same.refl _⟩

theorem Matches.symm {call other : InternalToolCall} (same : call.Matches other) : other.Matches call :=
  ⟨same.1.symm, same.2.symm⟩

theorem Matches.trans {first second third : InternalToolCall} (one : first.Matches second)
    (two : second.Matches third) : first.Matches third :=
  ⟨one.1.trans two.1, one.2.trans two.2⟩

end InternalToolCall

structure RepetitionInspector where
  maxRepetitions : Option UInt32
  lastCall : Option InternalToolCall
  repeatCount : UInt32
deriving DecidableEq

namespace RepetitionInspector

def new (maxRepetitions : Option UInt32) : RepetitionInspector :=
  ⟨maxRepetitions, none, 0⟩

/-- Count a call.  A call that is denied is counted too. -/
def checkToolCall (inspector : RepetitionInspector) (toolCall : CallToolRequestParams) :
    Bool × RepetitionInspector :=
  let internalCall := InternalToolCall.fromToolCall toolCall
  let restarted := { inspector with lastCall := some internalCall, repeatCount := 1 }
  match inspector.maxRepetitions, inspector.lastCall with
  | none, _ => (true, restarted)
  | some _, none => (true, restarted)
  | some maxRepetitions, some last =>
      if last.Matches internalCall then
        let counted := { inspector with repeatCount := inspector.repeatCount + 1 }
        if counted.repeatCount > maxRepetitions then (false, counted)
        else (true, { counted with lastCall := some internalCall })
      else (true, restarted)

def reset (inspector : RepetitionInspector) : RepetitionInspector :=
  { inspector with lastCall := none, repeatCount := 0 }

/-- Inspect a batch.  Every parsed request is checked on a copy of the inspector as it is before the
batch, and the inspector stays as it is. -/
def inspect (inspector : RepetitionInspector) (toolRequests : List ToolRequest) : List InspectionResult :=
  toolRequests.filterMap fun toolRequest =>
    match toolRequest.toolCall with
    | .ok toolCall =>
        let temporary :=
          { new inspector.maxRepetitions with
            lastCall := inspector.lastCall
            repeatCount := inspector.repeatCount }
        if (temporary.checkToolCall toolCall).1 then none
        else some ⟨toolRequest.id, .deny, "repetition"⟩
    | .error _ => none

/-- A run of calls through the counter: whether each of them is allowed. -/
def checkAll (inspector : RepetitionInspector) : List CallToolRequestParams -> List Bool
  | [] => []
  | toolCall :: rest =>
      let (allowed, next) := inspector.checkToolCall toolCall
      allowed :: next.checkAll rest

end RepetitionInspector

/-! ## Repetitions in a sequence of calls -/

/-- The parsed requests of a batch. -/
def parsedRequests (toolRequests : List ToolRequest) : List (String × CallToolRequestParams) :=
  toolRequests.filterMap fun toolRequest =>
    match toolRequest.toolCall with
    | .ok toolCall => some (toolRequest.id, toolCall)
    | .error _ => none

/-- The call at a place and the ones before it, as many as the limit, have the same tool and the
same arguments. -/
def RepeatedAt (limit : Nat) (calls : List CallToolRequestParams) (place : Nat) : Prop :=
  limit ≤ place ∧ Exists fun call => calls[place]? = some call ∧
    forall earlier, earlier ∈ (calls.take place).reverse.take limit ->
      (InternalToolCall.fromToolCall earlier).Matches (InternalToolCall.fromToolCall call)

namespace RepetitionInspector

/-- The verdicts of a sequence of inspections: for every parsed request, whether a result of its
batch denies it. -/
def verdicts (inspector : RepetitionInspector) (batches : List (List ToolRequest)) : List Bool :=
  batches.flatMap fun batch => (parsedRequests batch).map fun request =>
    (inspector.inspect batch).any fun result => result.toolRequestId = request.1 && result.action = .deny

/-- The calls of a sequence of batches. -/
def concatenated (batches : List (List ToolRequest)) : List CallToolRequestParams :=
  batches.flatMap fun batch => (parsedRequests batch).map Prod.snd

/-- A copy of a fresh inspector has no call to compare with. -/
theorem inspect_new (maxRepetitions : Option UInt32) (toolRequests : List ToolRequest) :
    (new maxRepetitions).inspect toolRequests = [] := by
  rw [inspect, List.filterMap_eq_nil_iff]
  intro toolRequest _
  cases toolRequest.toolCall with
  | error failure => rfl
  | ok toolCall =>
      cases maxRepetitions with
      | none => rfl
      | some limit => rfl

theorem verdicts_new (maxRepetitions : Option UInt32) (batches : List (List ToolRequest)) :
    forall verdict, verdict ∈ (new maxRepetitions).verdicts batches -> verdict = false := by
  intro verdict member
  simp only [verdicts, inspect_new, List.any_nil, List.mem_flatMap, List.mem_map] at member
  rcases member with ⟨_, _, _, _, same⟩
  exact same.symm

/-- The inspections deny exactly the repeated requests where there are none. -/
theorem inspections_deny_iff (limit : UInt32) (batches : List (List ToolRequest)) :
    (forall place : Nat, ((new (some limit)).verdicts batches)[place]? = some true ↔
        RepeatedAt limit.toNat (concatenated batches) place) ↔
      forall place, ¬RepeatedAt limit.toNat (concatenated batches) place := by
  have allowed : forall place : Nat, ((new (some limit)).verdicts batches)[place]? ≠ some true := by
    intro place found
    exact Bool.noConfusion (verdicts_new (some limit) batches true (List.mem_of_getElem? found))
  exact forall_congr' fun place => iff_false_left (allowed place)

/-- Two equal requests in a row, with a limit of one. -/
theorem inspections_allow_repetition :
    ¬(forall place : Nat, ((new (some 1)).verdicts
          [[⟨"first", .ok ⟨"fetch_user", some [("id", .number (.integer 123))]⟩, none, none⟩],
            [⟨"second", .ok ⟨"fetch_user", some [("id", .number (.integer 123))]⟩, none, none⟩]])[place]? = some true ↔
        RepeatedAt 1 (concatenated
          [[⟨"first", .ok ⟨"fetch_user", some [("id", .number (.integer 123))]⟩, none, none⟩],
            [⟨"second", .ok ⟨"fetch_user", some [("id", .number (.integer 123))]⟩, none, none⟩]]) place) := by
  intro exactly
  have repeated : RepeatedAt 1 [⟨"fetch_user", some [("id", .number (.integer 123))]⟩,
      ⟨"fetch_user", some [("id", .number (.integer 123))]⟩] 1 := by
    refine ⟨Nat.le_refl 1, _, rfl, ?_⟩
    intro earlier member
    rw [List.mem_singleton.mp member]
    exact .refl _
  cases (exactly 1).mpr repeated

/-! ## The counter -/

/-- The number of calls in a row that match the last one, the last one first. -/
def streak : List InternalToolCall -> Nat
  | [] => 0
  | [_] => 1
  | call :: last :: earlier => if last.Matches call then streak (last :: earlier) + 1 else 1

theorem lt_streak_iff (limit : Nat) (call : InternalToolCall) (earlier : List InternalToolCall) :
    limit < streak (call :: earlier) ↔
      limit ≤ earlier.length ∧ forall other, other ∈ earlier.take limit -> other.Matches call := by
  induction earlier generalizing limit call with
  | nil => simp [streak, Nat.lt_succ_iff]
  | cons last rest ih =>
      cases limit with
      | zero =>
          have positive : 0 < streak (call :: last :: rest) := by
            rw [streak]
            split <;> omega
          simp [positive]
      | succ limit =>
          rw [streak, List.take_succ_cons, List.length_cons, Nat.succ_le_succ_iff]
          split
          · rename_i same
            rw [Nat.succ_lt_succ_iff, ih limit last]
            refine and_congr_right fun _ => ?_
            rw [List.forall_mem_cons]
            constructor
            · intro each
              exact ⟨same, fun other member => (each other member).trans same⟩
            · intro each other member
              exact (each.2 other member).trans same.symm
          · rename_i different
            refine iff_of_false (by omega) fun both => ?_
            exact different (both.2 last List.mem_cons_self)

theorem streak_le_length (calls : List InternalToolCall) : streak calls ≤ calls.length := by
  cases calls with
  | nil => exact Nat.le_refl 0
  | cons call earlier =>
      by_contra long
      have bound := (lt_streak_iff (earlier.length + 1) call earlier).mp (Nat.lt_of_not_le long)
      omega

/-- The counter has counted the calls in a row, and remembers one of them. -/
structure Tracks (limit : UInt32) (inspector : RepetitionInspector) (recent : List InternalToolCall) : Prop where
  limited : inspector.maxRepetitions = some limit
  counted : inspector.repeatCount.toNat = streak recent
  last : Option.Rel InternalToolCall.Matches inspector.lastCall recent.head?

theorem tracks_checkToolCall {limit : UInt32} {inspector : RepetitionInspector} {recent : List InternalToolCall}
    (tracks : Tracks limit inspector recent) (bounded : recent.length + 1 < UInt32.size) (positive : 1 ≤ limit.toNat)
    (toolCall : CallToolRequestParams) :
    Tracks limit (inspector.checkToolCall toolCall).2 (.fromToolCall toolCall :: recent) ∧
      ((inspector.checkToolCall toolCall).1 = false ↔ limit.toNat < streak (.fromToolCall toolCall :: recent)) := by
  rcases inspector with ⟨maxRepetitions, lastCall, repeatCount⟩
  rcases tracks with ⟨limited, counted, last⟩
  cases limited
  cases recent with
  | nil =>
      cases last
      refine ⟨⟨rfl, rfl, .some (.refl _)⟩, ?_⟩
      exact iff_of_false Bool.false_ne_true.symm (Nat.not_lt_of_le positive)
  | cons previous earlier =>
      cases last with
      | some same =>
          rename_i remembered
          have short := streak_le_length (previous :: earlier)
          have increased : (repeatCount + 1).toNat = streak (previous :: earlier) + 1 := by
            rw [UInt32.toNat_add, counted]
            exact Nat.mod_eq_of_lt (Nat.lt_of_le_of_lt (Nat.succ_le_succ short) bounded)
          by_cases matched : remembered.Matches (.fromToolCall toolCall)
          · have alike : previous.Matches (.fromToolCall toolCall) := same.symm.trans matched
            have longer : streak (.fromToolCall toolCall :: previous :: earlier) = streak (previous :: earlier) + 1 := by
              rw [streak, if_pos alike]
            simp only [checkToolCall, if_pos matched]
            rw [longer, ← increased, ← UInt32.lt_iff_toNat_lt]
            split
            · rename_i exceeded
              exact ⟨⟨rfl, by rw [longer, ← increased], .some matched⟩, iff_of_true rfl exceeded⟩
            · rename_i within
              exact ⟨⟨rfl, by rw [longer, ← increased], .some (.refl _)⟩,
                iff_of_false Bool.false_ne_true.symm within⟩
          · have different : ¬previous.Matches (.fromToolCall toolCall) := fun alike => matched (same.trans alike)
            have restarted : streak (.fromToolCall toolCall :: previous :: earlier) = 1 := by
              rw [streak, if_neg different]
            simp only [checkToolCall, if_neg matched]
            rw [restarted]
            exact ⟨⟨rfl, by rw [restarted]; rfl, .some (.refl _)⟩,
              iff_of_false Bool.false_ne_true.symm (Nat.not_lt_of_le positive)⟩

theorem checkAll_of_tracks {limit : UInt32} (positive : 1 ≤ limit.toNat) {inspector : RepetitionInspector}
    {recent : List InternalToolCall} (tracks : Tracks limit inspector recent) (calls : List CallToolRequestParams)
    (bounded : recent.length + calls.length < UInt32.size) (place : Nat) (inside : place < calls.length) :
    (inspector.checkAll calls)[place]? = some false ↔
      limit.toNat < streak (((calls.take (place + 1)).map InternalToolCall.fromToolCall).reverse ++ recent) := by
  induction calls generalizing inspector recent place with
  | nil => cases inside
  | cons toolCall rest ih =>
      rw [List.length_cons] at bounded inside
      rcases tracks_checkToolCall tracks (by omega) positive toolCall with ⟨next, denies⟩
      cases place with
      | zero =>
          rw [checkAll, List.getElem?_cons_zero, Option.some.injEq, denies]
          rfl
      | succ place =>
          rw [checkAll, List.getElem?_cons_succ,
            ih next (by rw [List.length_cons]; omega) place (by omega), List.take_succ_cons,
            List.map_cons, List.reverse_cons, List.append_assoc]
          rfl

/-- A counter that is asked about every call denies exactly the repeated ones. -/
theorem checkAll_denies_iff (limit : UInt32) (positive : 1 ≤ limit.toNat) (calls : List CallToolRequestParams)
    (bounded : calls.length < UInt32.size) (place : Nat) (inside : place < calls.length) :
    ((new (some limit)).checkAll calls)[place]? = some false ↔ RepeatedAt limit.toNat calls place := by
  have start : Tracks limit (new (some limit)) [] := ⟨rfl, rfl, .none⟩
  rw [checkAll_of_tracks positive start calls (by rw [List.length_nil]; omega) place inside, List.append_nil,
    List.take_succ_eq_append_getElem inside, List.map_append, List.map_singleton, List.reverse_append,
    List.reverse_singleton, List.singleton_append, lt_streak_iff, List.length_reverse, List.length_map,
    List.length_take_of_le (Nat.le_of_lt inside), RepeatedAt]
  refine and_congr_right fun _ => ?_
  rw [List.getElem?_eq_getElem inside, ← List.map_reverse, ← List.map_take, List.forall_mem_map]
  constructor
  · intro each
    exact ⟨_, rfl, each⟩
  · rintro ⟨call, same, each⟩
    cases same
    exact each

/-- The second of two equal calls is denied at a limit of one. -/
theorem checkAll_denies_second :
    ((new (some 1)).checkAll [⟨"fetch_user", none⟩, ⟨"fetch_user", none⟩])[1]? = some false ↔
      RepeatedAt 1 [⟨"fetch_user", none⟩, ⟨"fetch_user", none⟩] 1 :=
  checkAll_denies_iff 1 (by decide) _ (by decide) 1 (by decide)

end RepetitionInspector
end AIBuddy
