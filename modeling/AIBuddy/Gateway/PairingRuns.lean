import AIBuddy.Gateway.PairingCodes

namespace AIBuddy
namespace Gateway
namespace PairingStore

/-!
# Runs of calls on the pending codes

As long as every save starts from the list that is there, the list is what the saves make of it
one after another.  Then no code pairs two calls, and a stored code is to be had until it is
taken out or its text is stored again.
-/

/-- A call that saves has loaded the list as it is now. -/
def Undisturbed (store : PairingStore) : Step -> Prop
  | .save index none => forall codes, codes ∈ store.calls[index]?.bind Call.loaded? -> codes = store.codes
  | _ => True

instance (store : PairingStore) (step : Step) : Decidable (Undisturbed store step) := by
  unfold Undisturbed
  split <;> infer_instance

/-- In how many places an issue is: in the list, or with a call. -/
def places (store : PairingStore) (issue : Nat) : Nat :=
  (store.codes.map StoredPendingCode.issue).count issue + (store.calls.flatMap Call.issues).count issue

structure Sequential (first : List StoredPendingCode) (store : PairingStore) : Prop where
  replayed : store.codes = replay first store.log
  valid : Valid first store.log
  once : forall issue, store.places issue ≤ 1
  issued : forall issue, 0 < store.places issue -> issue < store.issued
  logged : forall entry, .store entry .stored ∈ store.calls -> .stored entry ∈ store.log
  taken : forall entry, .removed entry ∈ store.log -> Exists fun call => call ∈ store.calls ∧ call.taken? = some entry
  late : forall code entry now, .consume code (.expired entry now) ∈ store.calls -> entry.expiresAt < now

variable {first : List StoredPendingCode} {store next : PairingStore}

/-! ## Places of an issue -/

theorem count_storeCode_le (entry : StoredPendingCode) (codes : List StoredPendingCode) (issue : Nat) :
    ((storeCode entry codes).map StoredPendingCode.issue).count issue ≤
      (codes.map StoredPendingCode.issue).count issue + [entry.issue].count issue := by
  rw [storeCode, List.map_append, List.count_append]
  exact Nat.add_le_add_right ((List.filter_sublist.map _).count_le issue) _

theorem find?_of_removeCode {code : String} {codes rest : List StoredPendingCode} {entry : StoredPendingCode}
    (removed : removeCode code codes = some (entry, rest)) :
    (codes.find? fun other => other.code = code) = some entry ∧ rest = codes.eraseP fun other => other.code = code := by
  rcases Option.map_eq_some_iff.mp removed with ⟨found, first, same⟩
  cases same
  exact ⟨first, rfl⟩

theorem code_of_removeCode {code : String} {codes rest : List StoredPendingCode} {entry : StoredPendingCode}
    (removed : removeCode code codes = some (entry, rest)) : entry.code = code := by
  simpa using List.find?_some (find?_of_removeCode removed).1

theorem count_removeCode {code : String} {codes rest : List StoredPendingCode} {entry : StoredPendingCode}
    (removed : removeCode code codes = some (entry, rest)) (issue : Nat) :
    (rest.map StoredPendingCode.issue).count issue + [entry.issue].count issue =
      (codes.map StoredPendingCode.issue).count issue := by
  rcases find?_of_removeCode removed with ⟨found, same⟩
  rcases List.find?_eq_some_iff_append.mp found with ⟨named, before, behind, split, others⟩
  have erased : (codes.eraseP fun other => other.code = code) = before ++ behind := by
    rw [split, List.eraseP_append_right _ (fun other member => by simpa using others other member)]
    rw [@List.eraseP_cons_of_pos _ entry behind (fun other => decide (other.code = code)) named]
  rw [same, erased, split]
  simp only [List.map_append, List.map_cons, List.count_append, List.count_cons, List.count_nil]
  omega

theorem places_set {index : Nat} {call : Call} (found : store.calls[index]? = some call) (changed : Call)
    (codes : List StoredPendingCode) (log : List Event) (issue : Nat) :
    places ⟨codes, store.calls.set index changed, store.issued, log⟩ issue +
        (store.codes.map StoredPendingCode.issue).count issue + call.issues.count issue =
      store.places issue + (codes.map StoredPendingCode.issue).count issue + changed.issues.count issue := by
  have counted := Tasks.count_flatMap_set Call.issues found changed issue
  simp only [places]
  omega

/-! ## Steps -/

theorem places_of_moves {step : Step} (moved : Moves store step next) (undisturbed : Undisturbed store step)
    (issue : Nat) :
    (next.issued = store.issued + 1 ∧ next.places issue = store.places issue + [store.issued].count issue) ∨
      (next.issued = store.issued ∧ next.places issue ≤ store.places issue) := by
  cases moved with
  | beginStore code gatewayType expiresAt =>
      refine Or.inl ⟨rfl, ?_⟩
      have counted := Tasks.count_flatMap_concat Call.issues store.calls
        (.store ⟨code, gatewayType, expiresAt, store.issued⟩ .started) issue
      simp only [places, counted, Call.issues]
      omega
  | beginConsume code =>
      refine Or.inr ⟨rfl, ?_⟩
      have counted := Tasks.count_flatMap_concat Call.issues store.calls (.consume code .started) issue
      simp only [places, counted, Call.issues, Call.taken?, Option.map_none, Option.toList_none, List.count_nil]
      omega
  | @quiet _ index call changed found holds takes unstored late =>
      refine Or.inr ⟨rfl, ?_⟩
      have moved := places_set found changed store.codes store.log issue
      have fewer := holds.count_le issue
      change places ⟨store.codes, store.calls.set index changed, store.issued, store.log⟩ issue ≤ _
      omega
  | @saveStore index entry codes found =>
      refine Or.inr ⟨rfl, ?_⟩
      have same : codes = store.codes := undisturbed codes (by rw [found]; rfl)
      have moved := places_set found (.store entry .stored) (storeCode entry codes) (.stored entry :: store.log) issue
      have fewer := count_storeCode_le entry codes issue
      change places ⟨storeCode entry codes, store.calls.set index (.store entry .stored), store.issued,
        .stored entry :: store.log⟩ issue ≤ _
      rw [← same] at moved
      simp only [Call.issues, Call.taken?, Option.map_none, Option.toList_none, List.count_nil] at moved
      omega
  | @saveConsume index code codes rest entry found removed =>
      refine Or.inr ⟨rfl, ?_⟩
      have same : codes = store.codes := undisturbed codes (by rw [found]; rfl)
      have moved := places_set found (.consume code (.removed entry)) rest (.removed entry :: store.log) issue
      have equal := count_removeCode removed issue
      change places ⟨rest, store.calls.set index (.consume code (.removed entry)), store.issued,
        .removed entry :: store.log⟩ issue ≤ _
      rw [← same] at moved
      simp only [Call.issues, Call.taken?, Option.map_none, Option.map_some, Option.toList_none, Option.toList_some,
        List.count_nil] at moved
      omega

theorem exists_taken_set {changed call other : Call} {index : Nat} (found : store.calls[index]? = some call)
    (takes : changed.taken? = call.taken?) {entry : StoredPendingCode} (member : other ∈ store.calls)
    (taken : other.taken? = some entry) :
    Exists fun kept => kept ∈ store.calls.set index changed ∧ kept.taken? = some entry := by
  by_cases same : other = call
  · exact ⟨changed, Tasks.mem_set_self found, by rw [takes, ← same, taken]⟩
  · exact ⟨other, Tasks.mem_set_of_mem found member same, taken⟩

theorem sequential_of_moves {step : Step} (moved : Moves store step next) (undisturbed : Undisturbed store step)
    (sequential : Sequential first store) : Sequential first next := by
  have once : forall issue, next.places issue ≤ 1 := by
    intro issue
    have before := sequential.once issue
    rcases places_of_moves moved undisturbed issue with ⟨_, more⟩ | ⟨_, fewer⟩
    · by_cases new : store.issued = issue
      · have unused : ¬ 0 < store.places issue := fun used => absurd (sequential.issued issue used) (by omega)
        have atMost := List.count_le_length (a := issue) (l := [store.issued])
        rw [List.length_singleton] at atMost
        omega
      · rw [List.count_singleton, if_neg (by simpa using new)] at more
        omega
    · omega
  have issued : forall issue, 0 < next.places issue -> issue < next.issued := by
    intro issue used
    rcases places_of_moves moved undisturbed issue with ⟨counter, more⟩ | ⟨counter, fewer⟩
    · by_cases new : store.issued = issue
      · omega
      · rw [List.count_singleton, if_neg (by simpa using new)] at more
        have before := sequential.issued issue (by omega)
        omega
    · have before := sequential.issued issue (by omega)
      omega
  cases moved with
  | beginStore code gatewayType expiresAt =>
      refine ⟨sequential.replayed, sequential.valid, once, issued, ?_, ?_, ?_⟩
      · intro entry member
        simp only [List.mem_append, List.mem_singleton, Call.store.injEq, reduceCtorEq, and_false, or_false] at member
        exact sequential.logged entry member
      · intro entry removed
        rcases sequential.taken entry removed with ⟨call, member, takes⟩
        exact ⟨call, List.mem_append_left _ member, takes⟩
      · intro code entry now member
        simp only [List.mem_append, List.mem_singleton, reduceCtorEq, or_false] at member
        exact sequential.late code entry now member
  | beginConsume code =>
      refine ⟨sequential.replayed, sequential.valid, once, issued, ?_, ?_, ?_⟩
      · intro entry member
        simp only [List.mem_append, List.mem_singleton, reduceCtorEq, or_false] at member
        exact sequential.logged entry member
      · intro entry removed
        rcases sequential.taken entry removed with ⟨call, member, takes⟩
        exact ⟨call, List.mem_append_left _ member, takes⟩
      · intro other entry now member
        simp only [List.mem_append, List.mem_singleton, Call.consume.injEq, reduceCtorEq, and_false, or_false] at member
        exact sequential.late other entry now member
  | @quiet _ index call changed found holds takes unstored late =>
      refine ⟨sequential.replayed, sequential.valid, once, issued, ?_, ?_, ?_⟩
      · intro entry member
        rcases Tasks.mem_of_mem_set found member with same | before
        · exact absurd same.symm (unstored entry).2
        · exact sequential.logged entry before
      · intro entry removed
        rcases sequential.taken entry removed with ⟨other, member, taken⟩
        exact exists_taken_set found takes member taken
      · intro code entry now member
        rcases Tasks.mem_of_mem_set found member with same | before
        · exact late code entry now same.symm
        · exact sequential.late code entry now before
  | @saveStore index entry codes found =>
      have same : codes = store.codes := undisturbed codes (by rw [found]; rfl)
      refine ⟨?_, sequential.valid, once, issued, ?_, ?_, ?_⟩
      · simp only [replay, ← sequential.replayed, same]
      · intro other member
        rcases Tasks.mem_of_mem_set found member with new | before
        · cases new
          exact List.mem_cons_self
        · exact List.mem_cons_of_mem _ (sequential.logged other before)
      · intro other removed
        simp only [List.mem_cons, reduceCtorEq, false_or] at removed
        rcases sequential.taken other removed with ⟨call, member, taken⟩
        exact @exists_taken_set _ (.store entry .stored) _ _ _ found rfl _ member taken
      · intro code other now member
        rcases Tasks.mem_of_mem_set found member with new | before
        · cases new
        · exact sequential.late code other now before
  | @saveConsume index code codes rest entry found removed =>
      have same : codes = store.codes := undisturbed codes (by rw [found]; rfl)
      have named := code_of_removeCode removed
      rcases find?_of_removeCode removed with ⟨firstOne, others⟩
      refine ⟨?_, ⟨?_, sequential.valid⟩, once, issued, ?_, ?_, ?_⟩
      · simp only [replay, ← sequential.replayed, ← same, named, others]
      · rw [← sequential.replayed, ← same, named, firstOne]
      · intro other member
        rcases Tasks.mem_of_mem_set found member with new | before
        · cases new
        · exact List.mem_cons_of_mem _ (sequential.logged other before)
      · intro other member
        rcases List.mem_cons.mp member with new | before
        · cases new
          exact ⟨_, Tasks.mem_set_self found, rfl⟩
        · rcases sequential.taken other before with ⟨call, present, taken⟩
          by_cases isCall : call = .consume code (.loaded codes)
          · rw [isCall] at taken
            cases taken
          · exact ⟨call, Tasks.mem_set_of_mem found present isCall, taken⟩
      · intro otherCode other now member
        rcases Tasks.mem_of_mem_set found member with new | before
        · cases new
        · exact sequential.late otherCode other now before

/-! ## Runs -/

/-- Whether an entry was taken out of the list, and then either paired or found too old. -/
def Gone (store : PairingStore) (entry : StoredPendingCode) : Prop :=
  Exists fun code =>
    .consume code (.removed entry) ∈ store.calls ∨ .consume code (.paired entry) ∈ store.calls ∨
      Exists fun now => .consume code (.expired entry now) ∈ store.calls ∧ entry.expiresAt < now

/-- Whether a code was stored once more after this entry. -/
def Replaced (store : PairingStore) (entry : StoredPendingCode) : Prop :=
  Exists fun later => Exists fun earlier => Exists fun other =>
    store.log = later ++ .stored entry :: earlier ∧ .stored other ∈ later ∧ other.code = entry.code

/-- No code pairs two calls, and no stored code is lost. -/
structure Sound (store : PairingStore) : Prop where
  onceEach : forall (first second : Nat) (code otherCode : String) (entry other : StoredPendingCode),
    store.calls[first]? = some (.consume code (.paired entry)) ->
      store.calls[second]? = some (.consume otherCode (.paired other)) -> entry.issue = other.issue -> first = second
  kept : forall entry, .store entry .stored ∈ store.calls ->
    Consumable store.codes entry ∨ Gone store entry ∨ Replaced store entry

theorem Sequential.gone (sequential : Sequential first store) {entry : StoredPendingCode}
    (removed : .removed entry ∈ store.log) : Gone store entry := by
  rcases sequential.taken entry removed with ⟨call, member, taken⟩
  cases call with
  | store other phase => cases taken
  | consume code phase =>
      cases phase with
      | removed other =>
          cases taken
          exact ⟨code, Or.inl member⟩
      | expired other now =>
          cases taken
          exact ⟨code, Or.inr (Or.inr ⟨now, member, sequential.late code entry now member⟩)⟩
      | paired other =>
          cases taken
          exact ⟨code, Or.inr (Or.inl member)⟩
      | started => cases taken
      | loaded codes => cases taken
      | absent => cases taken
      | failed error => cases taken

theorem Sequential.sound (sequential : Sequential first store) : Sound store where
  onceEach firstIndex second code otherCode entry other foundFirst foundSecond same := by
    have once := sequential.once entry.issue
    rw [places] at once
    have among : (store.calls.flatMap Call.issues).count entry.issue ≤ 1 := by omega
    refine Tasks.index_eq_of_holds Call.issues among foundFirst foundSecond ?_ ?_
    · exact List.mem_singleton_self _
    · rw [same]
      exact List.mem_singleton_self _
  kept entry stored := by
    rcases List.append_of_mem (sequential.logged entry stored) with ⟨later, earlier, log⟩
    have valid := sequential.valid
    rw [log] at valid
    rcases consumable_replay valid with consumable | removed | ⟨other, again, same⟩
    · rw [← log, ← sequential.replayed] at consumable
      exact Or.inl consumable
    · refine Or.inr (Or.inl (sequential.gone ?_))
      rw [log]
      exact List.mem_append_left _ removed
    · exact Or.inr (Or.inr ⟨later, earlier, other, log, again, same⟩)

theorem issues_start (stored : List (String × String × Int)) :
    (start stored).codes.map StoredPendingCode.issue = List.range stored.length := by
  refine List.ext_getElem (by simp [start]) ?_
  intro index inside alsoInside
  simp [start]

theorem sequential_start (stored : List (String × String × Int)) :
    Sequential (start stored).codes (start stored) where
  replayed := rfl
  valid := trivial
  once issue := by
    rw [places, issues_start]
    exact List.nodup_iff_count.mp List.nodup_range issue
  issued issue used := by
    rw [places, issues_start] at used
    exact List.mem_range.mp (List.count_pos_iff.mp used)
  logged entry member := by cases member
  taken entry member := by cases member
  late code entry now member := by cases member

/-- Where every save starts from the list as it is, no code pairs two calls and no stored code is
lost. -/
theorem codes_sound (stored : List (String × String × Int)) {steps : List Step} {last : PairingStore}
    (along : Runs.Along advance Undisturbed steps (start stored))
    (reached : Runs.run advance steps (start stored) = .ok last) : Sound last :=
  (Runs.run_invariant (fun _ _ _ undisturbed sequential moved =>
    sequential_of_moves (moves_of_advance moved) undisturbed sequential) along (sequential_start stored) reached).sound

/-- A code is stored, and after that it is consumed. -/
def storedThenConsumed : List Step :=
  [.store "ABC234" "telegram" 300, .load 0, .save 0 none, .consume "ABC234", .load 1, .save 1 none, .check 1 200]

theorem stored_code_paired :
    Exists fun last => Runs.run advance storedThenConsumed (start []) = .ok last ∧ Sound last :=
  ⟨_, rfl, @codes_sound [] storedThenConsumed _ (by decide) rfl⟩

/-- Two calls load the list before either saves it, and one code pairs both. -/
theorem code_paired_twice :
    Exists fun last =>
      Runs.run advance [.consume "ABC234", .consume "ABC234", .load 0, .load 1, .save 0 none, .save 1 none, .check 0 200,
          .check 1 200] (start [("ABC234", "telegram", 300)]) = .ok last ∧
        last.calls = [.consume "ABC234" (.paired ⟨"ABC234", "telegram", 300, 0⟩),
          .consume "ABC234" (.paired ⟨"ABC234", "telegram", 300, 0⟩)] ∧ ¬ Sound last := by
  refine ⟨_, rfl, rfl, ?_⟩
  intro sound
  have same := sound.onceEach 0 1 "ABC234" "ABC234" _ _ rfl rfl rfl
  contradiction

end PairingStore
end Gateway
end AIBuddy
