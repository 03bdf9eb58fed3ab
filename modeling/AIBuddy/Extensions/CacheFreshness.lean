import AIBuddy.Extensions.ToolsCache

namespace AIBuddy
namespace Extensions

/-!
# No stale list of tools

A list that was computed from an old map can be stored while a change is on its way,
but then the change has yet to empty the cache.  Once it has moved the version
counter, a list that was computed before its edit is not stored any more.
-/

variable {ε τ : Type}

namespace Manager

/-! ## What is on record -/

/-- The map after some of the edits. -/
def mapAfter (manager : Manager ε τ) (edits : Nat) : Option (ExtensionMap ε) :=
  (manager.history ++ [manager.extensions])[edits]?

/-- A change with this number has moved the version counter. -/
def Announced (manager : Manager ε τ) (number : Nat) : Prop :=
  Exists fun change => change ∈ manager.changes ∧
    (change.phase = .bumped number ∨ change.phase = .returned (some number))

/-- A change with this number has returned. -/
def Settled (manager : Manager ε τ) (number : Nat) : Prop :=
  Exists fun change => change ∈ manager.changes ∧ change.phase = .returned (some number)

/-- A list was computed from the map as it was after its edits, and none of the edits
of a call was missing. -/
structure Current (manager : Manager ε τ) (since : List Nat) (listing : Listing ε τ) : Prop where
  recorded : manager.mapAfter listing.edits = some listing.snapshot
  seen : forall number, number ∈ since -> number ≤ listing.edits

/-- A snapshot that was taken under this version.  Every change that has moved the
counter without being in the snapshot has moved it on since. -/
structure Guarded (manager : Manager ε τ) (versionBefore edits : Nat) : Prop where
  read : versionBefore ≤ manager.toolsCacheVersion
  moved : forall number, manager.Announced number -> edits < number -> versionBefore < manager.toolsCacheVersion

/-- What a call of `get_all_tools_cached` has right in each phase. -/
def GetSound (manager : Manager ε τ) (get : Get ε τ) : Prop :=
  (forall number, number ∈ get.since -> manager.Settled number) ∧
    match get.phase with
    | .started => True
    | .missed => True
    | .versioned versionBefore => versionBefore ≤ manager.toolsCacheVersion
    | .snapshotted versionBefore snapshot edits =>
        manager.Current get.since ⟨snapshot, edits, []⟩ ∧ manager.Guarded versionBefore edits
    | .fetched versionBefore listing =>
        manager.Current get.since listing ∧ manager.Guarded versionBefore listing.edits
    | .returned listing => manager.Current get.since listing

/-- What holds of the manager between any two steps. -/
structure Consistent (manager : Manager ε τ) : Prop where
  known : forall change, change ∈ manager.changes -> forall number,
    change.phase = .edited number ∨ change.phase = .bumped number ∨ change.phase = .returned (some number) ->
      number ≤ manager.history.length
  cached : forall listing, manager.toolsCache = some listing ->
    manager.mapAfter listing.edits = some listing.snapshot ∧
      forall number, manager.Settled number -> number ≤ listing.edits
  getting : forall get, get ∈ manager.gets -> manager.GetSound get

theorem Settled.announced {manager : Manager ε τ} {number : Nat} (settled : manager.Settled number) :
    manager.Announced number := by
  rcases settled with ⟨change, member, phase⟩
  exact ⟨change, member, Or.inr phase⟩

/-! ## Going on -/

/-- What a step leaves of the past: the record grows, changes that have returned stay
so, and a change that is announced moves the counter. -/
structure Later (manager next : Manager ε τ) : Prop where
  recorded : forall edits extensions, manager.mapAfter edits = some extensions ->
    next.mapAfter edits = some extensions
  counted : manager.toolsCacheVersion ≤ next.toolsCacheVersion
  settled : forall number, manager.Settled number -> next.Settled number
  announced : forall number, next.Announced number ->
    manager.Announced number ∨ manager.toolsCacheVersion < next.toolsCacheVersion

theorem Current.later {manager next : Manager ε τ} {since : List Nat} {listing : Listing ε τ}
    (current : manager.Current since listing) (later : manager.Later next) : next.Current since listing where
  recorded := later.recorded _ _ current.recorded
  seen := current.seen

theorem Guarded.later {manager next : Manager ε τ} {versionBefore edits : Nat}
    (guarded : manager.Guarded versionBefore edits) (later : manager.Later next) :
    next.Guarded versionBefore edits where
  read := Nat.le_trans guarded.read later.counted
  moved number announced missed := by
    rcases later.announced number announced with before | moved
    · exact Nat.lt_of_lt_of_le (guarded.moved number before missed) later.counted
    · exact Nat.lt_of_le_of_lt guarded.read moved

theorem GetSound.later {manager next : Manager ε τ} {get : Get ε τ} (sound : manager.GetSound get)
    (later : manager.Later next) : next.GetSound get := by
  refine ⟨fun number member => later.settled number (sound.1 number member), ?_⟩
  have phased := sound.2
  cases phase : get.phase with
  | started => trivial
  | missed => trivial
  | versioned versionBefore =>
      rw [phase] at phased
      exact Nat.le_trans phased later.counted
  | snapshotted versionBefore snapshot edits =>
      rw [phase] at phased
      exact ⟨phased.1.later later, phased.2.later later⟩
  | fetched versionBefore listing =>
      rw [phase] at phased
      exact ⟨phased.1.later later, phased.2.later later⟩
  | returned listing =>
      rw [phase] at phased
      exact phased.later later

/-! ## Calls that list the tools -/

theorem later_of_get (manager : Manager ε τ) (cache : Option (Listing ε τ)) (gets : List (Get ε τ)) :
    manager.Later { manager with toolsCache := cache, gets := gets } where
  recorded _ _ recorded := recorded
  counted := Nat.le_refl _
  settled _ settled := settled
  announced _ announced := Or.inl announced

theorem advanceGet_sound {manager : Manager ε τ} (consistent : manager.Consistent) {step : GetStep τ}
    {get : Get ε τ} (sound : manager.GetSound get) {phase : GetPhase ε τ} {cache : Option (Listing ε τ)}
    (moved : manager.advanceGet step get.phase = some (phase, cache)) :
    manager.GetSound { get with phase := phase } := by
  rcases get with ⟨since, before⟩
  rcases sound with ⟨settled, phased⟩
  refine ⟨settled, ?_⟩
  have all : forall number, number ∈ since -> number ≤ manager.history.length := by
    intro number member
    rcases settled number member with ⟨change, changeMember, returned⟩
    exact consistent.known change changeMember number (Or.inr (Or.inr returned))
  cases step <;> cases before <;> simp only [advanceGet, reduceCtorEq] at moved
  case look.started =>
      cases cached : manager.toolsCache with
      | none =>
          rw [cached] at moved
          cases moved
          trivial
      | some listing =>
          rw [cached] at moved
          cases moved
          rcases consistent.cached listing cached with ⟨recorded, seen⟩
          exact ⟨recorded, fun number member => seen number (settled number member)⟩
  case readVersion.missed =>
      cases moved
      exact Nat.le_refl _
  case snapshot.versioned versionBefore =>
      cases moved
      refine ⟨⟨by simp [mapAfter], all⟩, phased, ?_⟩
      intro number announced missed
      rcases announced with ⟨change, member, shown⟩
      have counted := consistent.known change member number (Or.inr shown)
      omega
  case fetch.snapshotted tools versionBefore snapshot edits =>
      cases moved
      exact ⟨⟨phased.1.recorded, phased.1.seen⟩, phased.2⟩
  case store.fetched versionBefore listing =>
      split at moved
      · cases moved
        exact phased.1
      · cases moved
        exact phased.1

/-- What a call stores has seen every change that has returned. -/
theorem advanceGet_cached {manager : Manager ε τ} (consistent : manager.Consistent) {step : GetStep τ}
    {get : Get ε τ} (sound : manager.GetSound get) {phase : GetPhase ε τ} {cache : Option (Listing ε τ)}
    (moved : manager.advanceGet step get.phase = some (phase, cache)) {listing : Listing ε τ}
    (stored : cache = some listing) :
    manager.mapAfter listing.edits = some listing.snapshot ∧
      forall number, manager.Settled number -> number ≤ listing.edits := by
  rcases get with ⟨since, before⟩
  rcases sound with ⟨settled, phased⟩
  cases step <;> cases before <;> simp only [advanceGet, reduceCtorEq] at moved
  case look.started =>
      cases cached : manager.toolsCache with
      | none =>
          rw [cached] at moved
          cases moved
          contradiction
      | some present =>
          rw [cached] at moved
          cases moved
          cases stored
          exact consistent.cached _ cached
  case readVersion.missed =>
      cases moved
      exact consistent.cached listing stored
  case snapshot.versioned versionBefore =>
      cases moved
      exact consistent.cached listing stored
  case fetch.snapshotted tools versionBefore snapshot edits =>
      cases moved
      exact consistent.cached listing stored
  case store.fetched versionBefore fetched =>
      split at moved
      case isTrue unchanged =>
          cases moved
          cases stored
          refine ⟨phased.1.recorded, ?_⟩
          intro number returned
          by_contra missed
          have moved := phased.2.moved number returned.announced (Nat.lt_of_not_le missed)
          exact Nat.ne_of_gt moved unchanged.1
      case isFalse changed =>
          cases moved
          exact consistent.cached listing stored

/-! ## Calls that change the map -/

private theorem mem_set_of_ne {α : Type} {items : List α} {index : Nat} {old new item : α}
    (found : items[index]? = some old) (member : item ∈ items) (different : item ≠ old) :
    item ∈ items.set index new := by
  rcases List.mem_iff_getElem?.mp member with ⟨place, here⟩
  apply List.mem_iff_getElem?.mpr
  refine ⟨place, ?_⟩
  have apart : index ≠ place := by
    intro same
    rw [same, here] at found
    exact different (Option.some.inj found)
  rw [List.getElem?_set_ne apart, here]

section Replacing

variable {manager next : Manager ε τ} {index : Nat} {change changed : Change ε}

theorem Later.of_set (found : manager.changes[index]? = some change)
    (replaced : next.changes = manager.changes.set index changed)
    (unreturned : forall number, change.phase ≠ .returned (some number))
    (recorded : forall edits extensions, manager.mapAfter edits = some extensions ->
      next.mapAfter edits = some extensions)
    (counted : manager.toolsCacheVersion ≤ next.toolsCacheVersion)
    (announcing : forall number, changed.phase = .bumped number ∨ changed.phase = .returned (some number) ->
      change.phase = .bumped number ∨ manager.toolsCacheVersion < next.toolsCacheVersion) :
    manager.Later next where
  recorded := recorded
  counted := counted
  settled number settled := by
    rcases settled with ⟨other, member, returned⟩
    refine ⟨other, ?_, returned⟩
    rw [replaced]
    apply mem_set_of_ne found member
    intro same
    rw [same] at returned
    exact unreturned number returned
  announced number announced := by
    rcases announced with ⟨other, member, shown⟩
    rw [replaced] at member
    rcases List.mem_or_eq_of_mem_set member with kept | new
    · exact Or.inl ⟨other, kept, shown⟩
    · rw [new] at shown
      rcases announcing number shown with before | moved
      · exact Or.inl ⟨change, List.mem_of_getElem? found, Or.inl before⟩
      · exact Or.inr moved

theorem Settled.of_set (replaced : next.changes = manager.changes.set index changed)
    (pending : forall number, changed.phase ≠ .returned (some number)) {number : Nat}
    (settled : next.Settled number) : manager.Settled number := by
  rcases settled with ⟨other, member, returned⟩
  rw [replaced] at member
  rcases List.mem_or_eq_of_mem_set member with kept | new
  · exact ⟨other, kept, returned⟩
  · rw [new] at returned
    exact absurd returned (pending number)

end Replacing

theorem applyEdit_eq_some {manager edited : Manager ε τ} {edit : Edit ε} (applied : manager.applyEdit edit = some edited) :
    (forall edits extensions, manager.mapAfter edits = some extensions -> edited.mapAfter edits = some extensions) ∧
      manager.history.length ≤ edited.history.length ∧ edited.toolsCache = manager.toolsCache ∧
      edited.toolsCacheVersion = manager.toolsCacheVersion ∧ edited.gets = manager.gets := by
  have appended : forall extensions : ExtensionMap ε, forall edits found,
      manager.mapAfter edits = some found ->
        ((manager.history ++ [manager.extensions]) ++ [extensions])[edits]? = some found := by
    intro extensions edits found recorded
    rw [List.getElem?_append_left (List.getElem?_eq_some_iff.mp recorded).1]
    exact recorded
  cases edit with
  | insert key extension =>
      cases applied
      exact ⟨appended _, by simp, rfl, rfl, rfl⟩
  | remove key =>
      simp only [applyEdit] at applied
      split at applied
      · cases applied
        exact ⟨appended _, by simp, rfl, rfl, rfl⟩
      · contradiction
  | refresh =>
      cases applied
      exact ⟨fun _ _ recorded => recorded, Nat.le_refl _, rfl, rfl, rfl⟩

theorem advanceChange_consistent {manager next : Manager ε τ} (consistent : manager.Consistent) {index : Nat}
    {change : Change ε} (found : manager.changes[index]? = some change) {step : ChangeStep}
    (moved : manager.advanceChange index change step = some next) : next.Consistent := by
  have member := List.mem_of_getElem? found
  have sounds : next.gets = manager.gets -> manager.Later next -> forall get, get ∈ next.gets -> next.GetSound get := by
    intro same later get getMember
    rw [same] at getMember
    exact (consistent.getting get getMember).later later
  cases step with
  | edit =>
      simp only [advanceChange] at moved
      split at moved
      case isFalse => contradiction
      case isTrue started =>
          have unreturned : forall number, change.phase ≠ .returned (some number) := by
            intro number returned
            rw [started] at returned
            contradiction
          cases applied : manager.applyEdit change.edit with
          | none =>
              rw [applied] at moved
              cases moved
              refine ⟨?_, ?_, sounds rfl (Later.of_set found rfl unreturned (fun _ _ recorded => recorded)
                (Nat.le_refl _) (by simp))⟩
              · intro other otherMember number numbered
                rcases List.mem_or_eq_of_mem_set otherMember with kept | new
                · exact consistent.known other kept number numbered
                · simp [new] at numbered
              · intro listing cached
                rcases consistent.cached listing cached with ⟨recorded, seen⟩
                exact ⟨recorded, fun number settled => seen number (Settled.of_set rfl (by simp) settled)⟩
          | some edited =>
              rw [applied] at moved
              cases moved
              rcases applyEdit_eq_some applied with ⟨recorded, longer, sameCache, sameVersion, sameGets⟩
              refine ⟨?_, ?_, sounds sameGets (Later.of_set found rfl unreturned recorded
                (Nat.le_of_eq sameVersion.symm) (by simp))⟩
              · intro other otherMember number numbered
                rcases List.mem_or_eq_of_mem_set otherMember with kept | new
                · exact Nat.le_trans (consistent.known other kept number numbered) longer
                · simp only [new, ChangePhase.edited.injEq, reduceCtorEq, or_false] at numbered
                  exact Nat.le_of_eq numbered.symm
              · intro listing cached
                rcases consistent.cached listing (sameCache ▸ cached) with ⟨present, seen⟩
                exact ⟨recorded _ _ present, fun number settled => seen number (Settled.of_set rfl (by simp) settled)⟩
  | bump =>
      simp only [advanceChange] at moved
      split at moved
      case h_2 => contradiction
      case h_1 number edited =>
          cases moved
          refine ⟨?_, ?_, sounds rfl (Later.of_set found rfl (by simp [edited]) (fun _ _ recorded => recorded)
            (Nat.le_succ _) (fun _ _ => Or.inr (Nat.lt_succ_self _)))⟩
          · intro other otherMember count numbered
            rcases List.mem_or_eq_of_mem_set otherMember with kept | new
            · exact consistent.known other kept count numbered
            · simp only [new, ChangePhase.bumped.injEq, reduceCtorEq, false_or, or_false] at numbered
              exact consistent.known change member count (Or.inl (numbered ▸ edited))
          · intro listing cached
            rcases consistent.cached listing cached with ⟨recorded, seen⟩
            exact ⟨recorded, fun count settled => seen count (Settled.of_set rfl (by simp) settled)⟩
  | clear =>
      simp only [advanceChange] at moved
      split at moved
      case h_2 => contradiction
      case h_1 number bumped =>
          cases moved
          refine ⟨?_, ?_, sounds rfl (Later.of_set found rfl (by simp [bumped]) (fun _ _ recorded => recorded)
            (Nat.le_refl _) ?_)⟩
          · intro other otherMember count numbered
            rcases List.mem_or_eq_of_mem_set otherMember with kept | new
            · exact consistent.known other kept count numbered
            · simp only [new, ChangePhase.returned.injEq, Option.some.injEq, reduceCtorEq, false_or] at numbered
              exact consistent.known change member count (Or.inr (Or.inl (numbered ▸ bumped)))
          · intro listing cached
            contradiction
          · intro count shown
            simp only [ChangePhase.returned.injEq, Option.some.injEq, reduceCtorEq, false_or] at shown
            exact Or.inl (shown ▸ bumped)

/-! ## Runs -/

theorem consistent_fresh (extensions : ExtensionMap ε) : (fresh extensions : Manager ε τ).Consistent := by
  refine ⟨?_, ?_, ?_⟩
  · intro change member
    cases member
  · intro listing cached
    cases cached
  · intro get member
    cases member

theorem settled_of_mem_settled {manager : Manager ε τ} {number : Nat}
    (member : number ∈ manager.changes.filterMap Change.settled) : manager.Settled number := by
  rcases List.mem_filterMap.mp member with ⟨change, changeMember, settled⟩
  refine ⟨change, changeMember, ?_⟩
  unfold Change.settled at settled
  split at settled
  case h_1 returned phase => rw [phase, settled]
  case h_2 => contradiction

/-- A call that begins leaves the past as it is. -/
theorem later_of_start (manager : Manager ε τ) (edit : Edit ε) :
    manager.Later { manager with changes := manager.changes ++ [⟨edit, .started⟩] } where
  recorded _ _ recorded := recorded
  counted := Nat.le_refl _
  settled number settled := by
    rcases settled with ⟨change, member, returned⟩
    exact ⟨change, List.mem_append_left _ member, returned⟩
  announced number announced := by
    rcases announced with ⟨change, member, shown⟩
    rcases List.mem_append.mp member with kept | new
    · exact Or.inl ⟨change, kept, shown⟩
    · rw [List.mem_singleton.mp new] at shown
      simp at shown

theorem advance_consistent (manager : Manager ε τ) (step : Step ε τ) (next : Manager ε τ)
    (consistent : manager.Consistent) (moved : advance step manager = .ok next) : next.Consistent := by
  cases step with
  | startGet =>
      cases moved
      refine ⟨consistent.known, consistent.cached, ?_⟩
      intro get member
      rcases List.mem_append.mp member with kept | new
      · exact (consistent.getting get kept).later (later_of_get manager _ _)
      · rw [List.mem_singleton.mp new]
        exact ⟨fun number returned => settled_of_mem_settled returned, trivial⟩
  | startChange edit =>
      cases moved
      refine ⟨?_, ?_, ?_⟩
      · intro change member number numbered
        rcases List.mem_append.mp member with kept | new
        · exact consistent.known change kept number numbered
        · rw [List.mem_singleton.mp new] at numbered
          simp at numbered
      · intro listing cached
        rcases consistent.cached listing cached with ⟨recorded, seen⟩
        refine ⟨recorded, fun number settled => seen number ?_⟩
        rcases settled with ⟨change, member, returned⟩
        rcases List.mem_append.mp member with kept | new
        · exact ⟨change, kept, returned⟩
        · rw [List.mem_singleton.mp new] at returned
          contradiction
      · intro get member
        exact (consistent.getting get member).later (later_of_start manager edit)
  | get index step =>
      simp only [advance] at moved
      split at moved
      case h_1 => contradiction
      case h_2 get found =>
          split at moved
          case h_2 => contradiction
          case h_1 phase cache advanced =>
              cases moved
              have sound := consistent.getting get (List.mem_of_getElem? found)
              refine ⟨consistent.known, ?_, ?_⟩
              · intro listing stored
                exact advanceGet_cached consistent sound advanced stored
              · intro other member
                rcases List.mem_or_eq_of_mem_set member with kept | new
                · exact (consistent.getting other kept).later (later_of_get manager _ _)
                · rw [new]
                  exact (advanceGet_sound consistent sound advanced).later (later_of_get manager _ _)
  | change index step =>
      simp only [advance] at moved
      split at moved
      case h_1 => contradiction
      case h_2 change found =>
          split at moved
          case h_2 => contradiction
          case h_1 changed advanced =>
              cases moved
              exact advanceChange_consistent consistent found advanced

/-- A call remembers which edits had returned when it started. -/
theorem advance_since (manager : Manager ε τ) (step : Step ε τ) (next : Manager ε τ) {index : Nat} {since : List Nat}
    (kept : (manager.gets[index]?).map Get.since = some since) (moved : advance step manager = .ok next) :
    (next.gets[index]?).map Get.since = some since := by
  cases step with
  | startGet =>
      cases moved
      rcases Option.map_eq_some_iff.mp kept with ⟨get, found, same⟩
      rw [List.getElem?_append_left (List.getElem?_eq_some_iff.mp found).1, kept]
  | startChange edit =>
      cases moved
      exact kept
  | get place step =>
      simp only [advance] at moved
      split at moved
      case h_1 => contradiction
      case h_2 get found =>
          split at moved
          case h_2 => contradiction
          case h_1 phase cache advanced =>
              cases moved
              by_cases same : place = index
              · subst same
                rw [found] at kept
                rw [List.getElem?_set_self (List.getElem?_eq_some_iff.mp found).1]
                exact kept
              · rw [List.getElem?_set_ne same]
                exact kept
  | change place step =>
      simp only [advance] at moved
      split at moved
      case h_1 => contradiction
      case h_2 change found =>
          split at moved
          case h_2 => contradiction
          case h_1 changed advanced =>
              cases moved
              have same : next.gets = manager.gets := by
                cases step with
                | edit =>
                    simp only [advanceChange] at advanced
                    split at advanced
                    · cases applied : manager.applyEdit change.edit with
                      | none =>
                          rw [applied] at advanced
                          cases advanced
                          rfl
                      | some edited =>
                          rw [applied] at advanced
                          cases advanced
                          exact (applyEdit_eq_some applied).2.2.2.2
                    · contradiction
                | bump =>
                    simp only [advanceChange] at advanced
                    split at advanced
                    · cases advanced
                      rfl
                    · contradiction
                | clear =>
                    simp only [advanceChange] at advanced
                    split at advanced
                    · cases advanced
                      rfl
                    · contradiction
              rw [same]
              exact kept

/-- In every run, a call of `get_all_tools_cached` that starts after a change has returned is
given a list that was computed from the extension map as it was after that change, or after
a later one. -/
theorem get_after_change (extensions : ExtensionMap ε) (front back : List (Step ε τ)) {middle last : Manager ε τ}
    (begun : Runs.run advance front (fresh extensions) = .ok middle) {change : Change ε} {number : Nat}
    (member : change ∈ middle.changes) (changed : change.phase = .returned (some number))
    (ended : Runs.run advance (.startGet :: back) middle = .ok last) {get : Get ε τ} {listing : Listing ε τ}
    (found : last.gets[middle.gets.length]? = some get) (returned : get.phase = .returned listing) :
    number ≤ listing.edits ∧ last.mapAfter listing.edits = some listing.snapshot := by
  have consistent : middle.Consistent := Runs.run_preserved advance_consistent (consistent_fresh extensions) begun
  have afterwards : last.Consistent := Runs.run_preserved advance_consistent consistent ended
  rcases (Runs.run_cons_eq_ok_iff _ back middle last).mp ended with ⟨started, start, onwards⟩
  cases start
  have remembered : (last.gets[middle.gets.length]?).map Get.since =
      some (middle.changes.filterMap Change.settled) :=
    Runs.run_preserved (fun manager step next kept moved => advance_since manager step next kept moved) (by simp) onwards
  rw [found, Option.map_some, Option.some.injEq] at remembered
  have sound := afterwards.getting get (List.mem_of_getElem? found)
  have phased := sound.2
  rw [returned] at phased
  refine ⟨phased.seen number ?_, phased.recorded⟩
  rw [remembered]
  exact List.mem_filterMap.mpr ⟨change, member, by rw [Change.settled, changed]⟩

/-- The manager behind a run in which a client is added while an earlier call lists the
tools. -/
def addedManager : Manager Nat String where
  extensions := [("developer", 7)]
  history := [[]]
  toolsCache := some ⟨[("developer", 7)], 1, ["shell"]⟩
  toolsCacheVersion := 1
  gets := [⟨[], .returned ⟨[], 0, []⟩⟩, ⟨[1], .returned ⟨[("developer", 7)], 1, ["shell"]⟩⟩]
  changes := [⟨.insert "developer" 7, .returned (some 1)⟩]

/-- The earlier call returns a list without the client, and a call that starts afterwards
sees it. -/
theorem added_client_listed : 1 ≤ 1 ∧ addedManager.mapAfter 1 = some [("developer", 7)] :=
  get_after_change [] [.startGet, .get 0 .look, .get 0 .readVersion, .get 0 .snapshot,
      .startChange (.insert "developer" 7), .change 0 .edit, .change 0 .bump, .change 0 .clear]
    [.get 1 .look, .get 1 .readVersion, .get 1 .snapshot, .get 1 (.fetch ["shell"]), .get 0 (.fetch []),
      .get 0 .store, .get 1 .store]
    rfl (List.mem_singleton.mpr rfl) rfl (show _ = Except.ok addedManager from rfl) rfl rfl

end Manager
end Extensions
end AIBuddy
