import AIBuddy.Roaming.Node

namespace AIBuddy
namespace Roaming

/-!
# Revocation

A connection is in the live map from its registration until its handler takes it
out or the watcher sweeps it.  Once the watcher has swept with a book that no longer
allows a key, the connections of the key whose handlers have passed the second look
at the book are closed or about to be closed; and while the key stays revoked, no
further handler passes that look.
-/

namespace Phase

/-- The handler has registered the connection and not taken it out. -/
def tracked : Phase -> Bool
  | registered | rechecked | recorded | serving | served | refused => true
  | _ => false

/-- The second look at the book has let the peer in, and the session has not ended. -/
def pastRecheck : Phase -> Bool
  | rechecked | recorded | serving => true
  | _ => false

theorem tracked_of_pastRecheck {phase : Phase} (past : phase.pastRecheck = true) : phase.tracked = true := by
  cases phase <;> first | rfl | cases past

end Phase

namespace Node

/-! ## What the steps of a handler do to its phase -/

section Phases

variable {node : Node} {client : String} {step : HandlerStep} {phase next : Phase}

theorem tracked_of_nextPhase (moved : node.nextPhase client step phase = some next)
    (tracked : next.tracked = true) :
    step = .registerLive ∨ (step ≠ .unregisterLive ∧ phase.tracked = true) := by
  cases step with
  | authorize readable =>
      cases phase <;> simp only [nextPhase] at moved <;> try cases moved
      split at moved <;> cases moved <;> cases tracked
  | recheck readable =>
      cases phase <;> simp only [nextPhase] at moved <;> try cases moved
      exact Or.inr ⟨HandlerStep.noConfusion, rfl⟩
  | registerLive => exact Or.inl rfl
  | abandon | reject | acknowledge | recordConnect | serveStream | endStream | unregisterLive | closeRevoked |
    recordDisconnect =>
      cases phase <;> simp only [nextPhase] at moved <;> cases moved <;>
        first | exact Or.inr ⟨HandlerStep.noConfusion, rfl⟩ | cases tracked

/-- Only the second look at the book lets a peer in. -/
theorem pastRecheck_of_nextPhase (moved : node.nextPhase client step phase = some next)
    (past : next.pastRecheck = true) :
    phase.pastRecheck = true ∨ node.book.isAllowed client = true := by
  cases step with
  | authorize readable =>
      cases phase <;> simp only [nextPhase] at moved <;> try cases moved
      split at moved <;> cases moved <;> cases past
  | recheck readable =>
      cases phase <;> simp only [nextPhase] at moved <;> try cases moved
      cases readable with
      | true =>
          simp only [load, if_true, stillAllowed] at moved
          split at moved
          · rename_i allowed
            exact Or.inr allowed
          · cases moved
            cases past
      | false =>
          cases moved
          cases past
  | registerLive | abandon | reject | acknowledge | recordConnect | serveStream | endStream | unregisterLive |
    closeRevoked | recordDisconnect =>
      cases phase <;> simp only [nextPhase] at moved <;> cases moved <;>
        first | exact Or.inl rfl | cases past

end Phases

/-! ## What a step does -/

theorem advanceHandler_cases {node next : Node} {index : Nat} {step : HandlerStep}
    (moved : node.advanceHandler index step = .ok next) :
    Exists fun connection => Exists fun phase =>
      node.connections[index]? = some connection ∧
      node.nextPhase connection.client step connection.phase = some phase ∧
      next = { node with
        connections := node.connections.set index (advanceConnection connection step phase)
        live := advanceLive node.live connection.client index step
        directory := node.advanceDirectory connection step } := by
  rw [advanceHandler] at moved
  cases found : node.connections[index]? with
  | none => simp [found] at moved
  | some connection =>
      simp only [found] at moved
      cases phases : node.nextPhase connection.client step connection.phase with
      | none => simp [phases] at moved
      | some phase =>
          simp only [phases] at moved
          cases moved
          exact ⟨connection, phase, rfl, phases, rfl⟩

theorem phase_of_handler {node next : Node} {index : Nat} {step : HandlerStep}
    (moved : node.advanceHandler index step = .ok next) {before after : Connection}
    (known : node.connections[index]? = some before) (found : next.connections[index]? = some after) :
    node.nextPhase before.client step before.phase = some after.phase := by
  rcases advanceHandler_cases moved with ⟨connection, phase, known', phases, rfl⟩
  rw [known] at known'
  cases known'
  rw [List.getElem?_set_self (List.getElem?_eq_some_iff.mp known).1] at found
  cases found
  exact phases

theorem advanceWatcher_cases {node next : Node} {step : WatcherStep}
    (moved : node.advanceWatcher step = .ok next) :
    (step = .readMetadata ∧ node.watcher = .sleeping ∧
      (next = node ∨ next = { node with watcher := .polled (node.file.map TrustFile.modified) })) ∨
    (Exists fun modified => step = .load true ∧ node.watcher = .polled modified ∧
      next = { node with watcher := .loaded node.book, lastModified := modified }) ∨
    (Exists fun modified => step = .load false ∧ node.watcher = .polled modified ∧
      next = { node with watcher := .sleeping }) ∨
    (Exists fun book => step = .enforceTrust ∧ node.watcher = .loaded book ∧
      next = { node with
        live := node.live.filter fun entry => book.isAllowed entry.1
        watcher := .closing (node.live.filter fun entry => !book.isAllowed entry.1) }) ∨
    (Exists fun entry => Exists fun pending => step = .close entry ∧ node.watcher = .closing pending ∧
      entry ∈ pending ∧ next = { node with
        connections := node.connections.modify entry.2 close
        watcher := .recording entry (pending.erase entry) }) ∨
    (Exists fun nowMs => Exists fun entry => Exists fun pending =>
      step = .recordDisconnect nowMs ∧ node.watcher = .recording entry pending ∧
      next = { node with
        connections := node.connections.modify entry.2 recordEnd
        directory := node.directory.recordDisconnect entry.1 nowMs
        watcher := .closing pending }) ∨
    (step = .finish ∧ node.watcher = .closing [] ∧ next = { node with watcher := .sleeping }) := by
  cases step with
  | readMetadata =>
      cases phase : node.watcher with
      | sleeping =>
          simp only [advanceWatcher, phase] at moved
          split at moved
          · cases moved
            exact Or.inl ⟨rfl, rfl, Or.inl rfl⟩
          · cases moved
            exact Or.inl ⟨rfl, rfl, Or.inr rfl⟩
      | polled _ | loaded _ | closing _ | recording _ _ => simp [advanceWatcher, phase] at moved
  | load readable =>
      cases phase : node.watcher with
      | polled modified =>
          cases readable with
          | true =>
              simp only [advanceWatcher, phase, load, if_true] at moved
              cases moved
              exact Or.inr (Or.inl ⟨modified, rfl, rfl, rfl⟩)
          | false =>
              simp only [advanceWatcher, phase, load, Bool.false_eq_true, if_false] at moved
              cases moved
              exact Or.inr (Or.inr (Or.inl ⟨modified, rfl, rfl, rfl⟩))
      | sleeping | loaded _ | closing _ | recording _ _ => simp [advanceWatcher, phase] at moved
  | enforceTrust =>
      cases phase : node.watcher with
      | loaded book =>
          simp only [advanceWatcher, phase] at moved
          cases moved
          exact Or.inr (Or.inr (Or.inr (Or.inl ⟨book, rfl, rfl, rfl⟩)))
      | sleeping | polled _ | closing _ | recording _ _ => simp [advanceWatcher, phase] at moved
  | close entry =>
      cases phase : node.watcher with
      | closing pending =>
          simp only [advanceWatcher, phase] at moved
          split at moved
          · rename_i member
            cases moved
            exact Or.inr (Or.inr (Or.inr (Or.inr (Or.inl ⟨entry, pending, rfl, rfl, member, rfl⟩))))
          · cases moved
      | sleeping | polled _ | loaded _ | recording _ _ => simp [advanceWatcher, phase] at moved
  | recordDisconnect nowMs =>
      cases phase : node.watcher with
      | recording entry pending =>
          simp only [advanceWatcher, phase] at moved
          cases moved
          exact Or.inr (Or.inr (Or.inr (Or.inr (Or.inr (Or.inl ⟨nowMs, entry, pending, rfl, rfl, rfl⟩)))))
      | sleeping | polled _ | loaded _ | closing _ => simp [advanceWatcher, phase] at moved
  | finish =>
      cases phase : node.watcher with
      | closing pending =>
          cases pending with
          | nil =>
              simp only [advanceWatcher, phase] at moved
              cases moved
              exact Or.inr (Or.inr (Or.inr (Or.inr (Or.inr (Or.inr ⟨rfl, rfl, rfl⟩)))))
          | cons entry rest => simp [advanceWatcher, phase] at moved
      | sleeping | polled _ | loaded _ | recording _ _ => simp [advanceWatcher, phase] at moved

/-- How a connection can have changed in a step: its client stays, it stays closed,
and only its own handler moves its phase or records its start. -/
structure Follows (node : Node) (step : NodeStep) (index : Nat) (before after : Connection) : Prop where
  client : after.client = before.client
  closed : before.closed = true -> after.closed = true
  recorded : after.wasRecorded = before.wasRecorded ∨
    Exists fun nowMs => step = .handler index (.recordConnect nowMs)
  phase : after.phase = before.phase ∨ Exists fun handlerStep => step = .handler index handlerStep ∧
    node.nextPhase before.client handlerStep before.phase = some after.phase

theorem Follows.refl (node : Node) (step : NodeStep) (index : Nat) (connection : Connection) :
    Follows node step index connection connection :=
  ⟨rfl, fun closed => closed, Or.inl rfl, Or.inl rfl⟩

theorem follows_of_advance {node next : Node} {step : NodeStep} (moved : advance step node = .ok next)
    {index : Nat} {after : Connection} (found : next.connections[index]? = some after) :
    (node.connections[index]? = none ∧ after.phase = .arrived ∧ after.wasRecorded = false) ∨
      Exists fun before => node.connections[index]? = some before ∧ Follows node step index before after := by
  have same : next.connections = node.connections ->
      Exists fun before => node.connections[index]? = some before ∧ Follows node step index before after := by
    intro unchanged
    rw [unchanged] at found
    exact ⟨after, found, Follows.refl node step index after⟩
  have modified : forall (at' : Nat) (change : Connection -> Connection),
      (forall connection, (change connection).client = connection.client ∧
        (connection.closed = true -> (change connection).closed = true) ∧
        (change connection).wasRecorded = connection.wasRecorded ∧
        (change connection).phase = connection.phase) ->
      next.connections = node.connections.modify at' change ->
      Exists fun before => node.connections[index]? = some before ∧ Follows node step index before after := by
    intro at' change gentle changed
    rw [changed, List.getElem?_modify] at found
    cases known : node.connections[index]? with
    | none => simp [known] at found
    | some before =>
        rw [known] at found
        refine ⟨before, rfl, ?_⟩
        cases found
        dsimp only
        split
        · exact ⟨(gentle before).1, (gentle before).2.1, Or.inl (gentle before).2.2.1,
            Or.inl (gentle before).2.2.2⟩
        · exact Follows.refl node step index before
  cases step with
  | accept key time | revokeKey key time =>
      simp only [advance, update] at moved
      split at moved
      · cases moved
      · cases moved
        exact Or.inr (same rfl)
  | connect client label =>
      cases moved
      rw [List.getElem?_append] at found
      split at found
      · exact Or.inr ⟨after, found, Follows.refl node _ index after⟩
      · rename_i outside
        have arrived := List.mem_singleton.mp (List.mem_of_getElem? found)
        rw [arrived]
        exact Or.inl ⟨List.getElem?_eq_none_iff.mpr (Nat.le_of_not_lt outside), rfl, rfl⟩
  | peerCloses at' =>
      cases moved
      exact Or.inr (modified at' close (fun _ => ⟨rfl, fun _ => rfl, rfl, rfl⟩) rfl)
  | handler at' handlerStep =>
      rcases advanceHandler_cases moved with ⟨before, phase, known, phases, rfl⟩
      rw [List.getElem?_set] at found
      split at found
      · rename_i here
        subst here
        split at found
        · cases found
          refine Or.inr ⟨before, known, rfl, ?_, ?_, Or.inr ⟨handlerStep, rfl, phases⟩⟩
          · intro closed
            simp [advanceConnection, closed]
          · cases handlerStep with
            | recordConnect nowMs => exact Or.inr ⟨nowMs, rfl⟩
            | authorize _ | abandon | reject | acknowledge | registerLive | recheck _ | serveStream |
              endStream | unregisterLive | closeRevoked | recordDisconnect _ => exact Or.inl rfl
        · cases found
      · exact Or.inr ⟨after, found, Follows.refl node _ index after⟩
  | watcher watcherStep =>
      rcases advanceWatcher_cases moved with ⟨_, _, rfl | rfl⟩ | ⟨_, _, _, rfl⟩ | ⟨_, _, _, rfl⟩ |
        ⟨_, _, _, rfl⟩ | ⟨entry, _, _, _, _, rfl⟩ | ⟨_, entry, _, _, _, rfl⟩ | ⟨_, _, rfl⟩
      · exact Or.inr (same rfl)
      · exact Or.inr (same rfl)
      · exact Or.inr (same rfl)
      · exact Or.inr (same rfl)
      · exact Or.inr (same rfl)
      · exact Or.inr (modified entry.2 close (fun _ => ⟨rfl, fun _ => rfl, rfl, rfl⟩) rfl)
      · exact Or.inr (modified entry.2 recordEnd (fun _ => ⟨rfl, fun closed => closed, rfl, rfl⟩) rfl)
      · exact Or.inr (same rfl)

/-! ## Where a registered connection is kept -/

/-- The connection is in the live map, or among those the watcher is about to close. -/
def Held (node : Node) (entry : String × Nat) : Prop :=
  entry ∈ node.live ∨ entry ∈ node.watcher.pending

/-- Every connection that its handler tracks is closed or held. -/
def Tracked (node : Node) : Prop :=
  forall index connection, node.connections[index]? = some connection -> connection.phase.tracked = true ->
    connection.closed = true ∨ node.Held (connection.client, index)

theorem held_of_advance {node next : Node} {step : NodeStep} (moved : advance step node = .ok next)
    {client : String} {index : Nat} (held : node.Held (client, index)) :
    next.Held (client, index) ∨ step = .handler index .unregisterLive ∨
      step = .watcher (.close (client, index)) := by
  cases step with
  | accept key time | revokeKey key time =>
      simp only [advance, update] at moved
      split at moved
      · cases moved
      · cases moved
        exact Or.inl held
  | connect other label =>
      cases moved
      exact Or.inl held
  | peerCloses at' =>
      cases moved
      exact Or.inl held
  | handler at' handlerStep =>
      rcases advanceHandler_cases moved with ⟨before, phase, known, phases, rfl⟩
      rcases held with inLive | inPending
      · cases handlerStep with
        | unregisterLive =>
            by_cases here : at' = index
            · exact Or.inr (Or.inl (by rw [here]))
            · refine Or.inl (Or.inl (List.mem_filter.mpr ⟨inLive, ?_⟩))
              rw [decide_eq_true_eq]
              intro same
              exact here (Prod.mk.inj same).2.symm
        | registerLive => exact Or.inl (Or.inl (List.mem_append_left _ inLive))
        | authorize _ | abandon | reject | acknowledge | recheck _ | recordConnect _ | serveStream |
          endStream | closeRevoked | recordDisconnect _ => exact Or.inl (Or.inl inLive)
      · exact Or.inl (Or.inr inPending)
  | watcher watcherStep =>
      rcases advanceWatcher_cases moved with ⟨_, asleep, rfl | rfl⟩ | ⟨_, _, polled, rfl⟩ |
        ⟨_, _, polled, rfl⟩ | ⟨book, _, loaded, rfl⟩ | ⟨entry, pending, rfl, closing, _, rfl⟩ |
        ⟨_, entry, pending, _, recording, rfl⟩ | ⟨_, closing, rfl⟩
      · exact Or.inl held
      · rw [Held, asleep] at held
        exact Or.inl held
      · rw [Held, polled] at held
        exact Or.inl held
      · rw [Held, polled] at held
        exact Or.inl held
      · rw [Held, loaded] at held
        rcases held with inLive | impossible
        · by_cases allowed : book.isAllowed client = true
          · exact Or.inl (Or.inl (List.mem_filter.mpr ⟨inLive, allowed⟩))
          · refine Or.inl (Or.inr (List.mem_filter.mpr ⟨inLive, ?_⟩))
            simp [allowed]
        · cases impossible
      · rw [Held, closing] at held
        rcases held with inLive | inPending
        · exact Or.inl (Or.inl inLive)
        · by_cases here : entry = (client, index)
          · exact Or.inr (Or.inr (by rw [here]))
          · exact Or.inl (Or.inr ((List.mem_erase_of_ne (Ne.symm here)).mpr inPending))
      · rw [Held, recording] at held
        exact Or.inl held
      · rw [Held, closing] at held
        exact Or.inl held

theorem closed_of_close {node next : Node} {entry : String × Nat}
    (moved : advance (.watcher (.close entry)) node = .ok next) {connection : Connection}
    (found : next.connections[entry.2]? = some connection) : connection.closed = true := by
  have watched : node.advanceWatcher (.close entry) = .ok next := moved
  rcases advanceWatcher_cases watched with ⟨impossible, _⟩ | ⟨_, impossible, _⟩ | ⟨_, impossible, _⟩ |
    ⟨_, impossible, _⟩ | ⟨_, pending, same, closing, _, rfl⟩ | ⟨_, _, _, impossible, _⟩ | ⟨impossible, _⟩
  · cases impossible
  · cases impossible
  · cases impossible
  · cases impossible
  · cases same
    rw [List.getElem?_modify_eq] at found
    cases known : node.connections[entry.2]? with
    | none => simp [known] at found
    | some before =>
        rw [known] at found
        cases found
        rfl
  · cases impossible
  · cases impossible

/-- Registered connections stay closed or held. -/
theorem tracked_advance {node next : Node} {step : NodeStep} (tracked : node.Tracked)
    (moved : advance step node = .ok next) : next.Tracked := by
  intro index after found isTracked
  rcases follows_of_advance moved found with ⟨_, arrived, _⟩ | ⟨before, known, follows⟩
  · rw [arrived] at isTracked
    cases isTracked
  · have earlier : before.phase.tracked = true -> step ≠ .handler index .unregisterLive ->
        after.closed = true ∨ next.Held (after.client, index) := by
      intro beforeTracked staying
      rcases tracked index before known beforeTracked with closed | held
      · exact Or.inl (follows.closed closed)
      · rw [follows.client]
        rcases held_of_advance moved held with heldStill | taken | swept
        · exact Or.inr heldStill
        · exact absurd taken staying
        · subst swept
          exact Or.inl (closed_of_close moved found)
    rcases follows.phase with samePhase | ⟨handlerStep, isHandler, phases⟩
    · rw [samePhase] at isTracked
      by_cases staying : step = .handler index .unregisterLive
      · subst staying
        have phases := phase_of_handler moved known found
        rw [samePhase] at phases
        rcases tracked_of_nextPhase phases isTracked with impossible | ⟨impossible, _⟩
        · cases impossible
        · exact absurd rfl impossible
      · exact earlier isTracked staying
    · rcases tracked_of_nextPhase phases isTracked with registering | ⟨staying, beforeTracked⟩
      · subst registering
        subst isHandler
        rcases advanceHandler_cases moved with ⟨connection, phase, known', _, rfl⟩
        rw [known] at known'
        cases known'
        rw [follows.client]
        exact Or.inr (Or.inl (List.mem_append_right _ (List.mem_singleton.mpr rfl)))
      · exact earlier beforeTracked fun same => staying (by
          rw [isHandler] at same
          cases same
          rfl)

/-! ## A revoked key -/

/-- Nobody accepts the key in the step. -/
def KeepsRevoked (key : String) : NodeStep -> Prop
  | .accept other _ => other ≠ key
  | _ => True

instance decidableKeepsRevoked (key : String) (step : NodeStep) : Decidable (KeepsRevoked key step) :=
  match step with
  | .accept other _ => inferInstanceAs (Decidable (other ≠ key))
  | .revokeKey _ _ | .connect _ _ | .peerCloses _ | .handler _ _ | .watcher _ => .isTrue trivial

/-- The book does not allow the key. -/
def Revoked (key : String) (node : Node) : Prop :=
  node.book.isAllowed key = false

theorem book_update {node next : Node} {mutate : TrustBook -> TrustBook} {modified : Nat}
    (moved : node.update mutate modified = .ok next) : next.book = mutate node.book := by
  rw [update] at moved
  split at moved
  · cases moved
  · cases moved
    rfl

theorem revoked_of_revokeKey {node next : Node} {key : String} {modified : Nat}
    (moved : advance (.revokeKey key modified) node = .ok next) : Revoked key next := by
  have updated : node.update (fun book => book.revokeKey key) modified = .ok next := moved
  rw [Revoked, book_update updated]
  simp

theorem revoked_advance {key : String} {node next : Node} {step : NodeStep} (revoked : Revoked key node)
    (keeps : KeepsRevoked key step) (moved : advance step node = .ok next) : Revoked key next := by
  cases step with
  | accept other modified =>
      have different : key ≠ other := fun same => keeps same.symm
      have updated : node.update (fun book => book.accept other) modified = .ok next := moved
      rw [Revoked] at revoked
      rw [Revoked, book_update updated]
      simp [different, revoked]
  | revokeKey other modified =>
      have updated : node.update (fun book => book.revokeKey other) modified = .ok next := moved
      rw [Revoked] at revoked
      rw [Revoked, book_update updated]
      simp [revoked]
  | connect client label =>
      cases moved
      exact revoked
  | peerCloses index =>
      cases moved
      exact revoked
  | handler index handlerStep =>
      rcases advanceHandler_cases moved with ⟨_, _, _, _, rfl⟩
      exact revoked
  | watcher watcherStep =>
      rcases advanceWatcher_cases moved with ⟨_, _, rfl | rfl⟩ | ⟨_, _, _, rfl⟩ | ⟨_, _, _, rfl⟩ |
        ⟨_, _, _, rfl⟩ | ⟨_, _, _, _, _, rfl⟩ | ⟨_, _, _, _, _, rfl⟩ | ⟨_, _, rfl⟩ <;> exact revoked

/-- The connections of the key that were let in are closed, or the watcher is about to
close them. -/
def Sealed (key : String) (node : Node) : Prop :=
  forall index connection, node.connections[index]? = some connection -> connection.client = key ->
    connection.phase.pastRecheck = true ->
    connection.closed = true ∨ (key, index) ∈ node.watcher.pending

/-- The watcher has loaded a book that does not allow the key. -/
def Alarmed (key : String) (node : Node) : Prop :=
  Exists fun book => node.watcher = .loaded book ∧ book.isAllowed key = false

theorem pending_advance {node next : Node} {step : NodeStep} {entry : String × Nat}
    (moved : advance step node = .ok next) (pending : entry ∈ node.watcher.pending) :
    entry ∈ next.watcher.pending ∨ step = .watcher (.close entry) := by
  cases step with
  | accept key time | revokeKey key time =>
      simp only [advance, update] at moved
      split at moved
      · cases moved
      · cases moved
        exact Or.inl pending
  | connect other label =>
      cases moved
      exact Or.inl pending
  | peerCloses index =>
      cases moved
      exact Or.inl pending
  | handler index handlerStep =>
      rcases advanceHandler_cases moved with ⟨_, _, _, _, rfl⟩
      exact Or.inl pending
  | watcher watcherStep =>
      rcases advanceWatcher_cases moved with ⟨_, phase, _⟩ | ⟨_, _, phase, _⟩ | ⟨_, _, phase, _⟩ |
        ⟨_, _, phase, _⟩ | ⟨taken, rest, rfl, phase, _, rfl⟩ | ⟨_, _, rest, _, phase, rfl⟩ | ⟨_, phase, _⟩ <;>
        rw [phase] at pending
      · cases pending
      · cases pending
      · cases pending
      · cases pending
      · by_cases here : taken = entry
        · exact Or.inr (by rw [here])
        · exact Or.inl ((List.mem_erase_of_ne (Ne.symm here)).mpr pending)
      · exact Or.inl pending
      · cases pending

theorem sealed_advance {key : String} {node next : Node} {step : NodeStep} (revoked : Revoked key node)
    (isSealed : Sealed key node) (moved : advance step node = .ok next) : Sealed key next := by
  intro index after found isClient past
  rcases follows_of_advance moved found with ⟨_, arrived, _⟩ | ⟨before, known, follows⟩
  · rw [arrived] at past
    cases past
  · have beforeClient : before.client = key := follows.client.symm.trans isClient
    have beforePast : before.phase.pastRecheck = true := by
      rcases follows.phase with samePhase | ⟨_, _, phases⟩
      · rw [← samePhase]
        exact past
      · rcases pastRecheck_of_nextPhase phases past with earlier | allowed
        · exact earlier
        · rw [beforeClient] at allowed
          exact absurd allowed (by rw [revoked]; exact Bool.false_ne_true)
    rcases isSealed index before known beforeClient beforePast with closed | pending
    · exact Or.inl (follows.closed closed)
    · rcases pending_advance moved pending with still | swept
      · exact Or.inr still
      · subst swept
        exact Or.inl (closed_of_close moved found)

/-- The sweep takes up every open connection of the key that was let in. -/
theorem sealed_of_alarmed {key : String} {node next : Node} {step : NodeStep} (tracked : node.Tracked)
    (alarmed : Alarmed key node) (moved : advance step node = .ok next) :
    Alarmed key next ∨ Sealed key next := by
  rcases alarmed with ⟨book, isLoaded, notAllowed⟩
  have unchanged : next.watcher = node.watcher -> Alarmed key next := by
    intro same
    exact ⟨book, same.trans isLoaded, notAllowed⟩
  cases step with
  | accept other time | revokeKey other time =>
      simp only [advance, update] at moved
      split at moved
      · cases moved
      · cases moved
        exact Or.inl (unchanged rfl)
  | connect client label =>
      cases moved
      exact Or.inl (unchanged rfl)
  | peerCloses index =>
      cases moved
      exact Or.inl (unchanged rfl)
  | handler index handlerStep =>
      rcases advanceHandler_cases moved with ⟨_, _, _, _, rfl⟩
      exact Or.inl (unchanged rfl)
  | watcher watcherStep =>
      rcases advanceWatcher_cases moved with ⟨_, phase, _⟩ | ⟨_, _, phase, _⟩ | ⟨_, _, phase, _⟩ |
        ⟨swept, _, phase, rfl⟩ | ⟨_, _, _, phase, _⟩ | ⟨_, _, _, _, phase, _⟩ | ⟨_, phase, _⟩ <;>
        rw [isLoaded] at phase <;> cases phase
      refine Or.inr ?_
      intro index connection found isClient past
      rcases tracked index connection found (Phase.tracked_of_pastRecheck past) with closed | inLive | impossible
      · exact Or.inl closed
      · rw [isClient] at inLive
        refine Or.inr (List.mem_filter.mpr ⟨inLive, ?_⟩)
        simp [notAllowed]
      · rw [isLoaded] at impossible
        cases impossible

/-! ## Every run -/

/-- After a load behind a revocation: the sweep is still to come, or everything that
was let in is closed or about to be closed. -/
structure Sweeping (key : String) (node : Node) : Prop where
  tracked : node.Tracked
  revoked : Revoked key node
  stage : Alarmed key node ∨ Sealed key node

theorem sweeping_advance {key : String} {node next : Node} {step : NodeStep} (sweeping : Sweeping key node)
    (keeps : KeepsRevoked key step) (moved : advance step node = .ok next) : Sweeping key next := by
  refine ⟨tracked_advance sweeping.tracked moved, revoked_advance sweeping.revoked keeps moved, ?_⟩
  rcases sweeping.stage with alarmed | isSealed
  · exact sealed_of_alarmed sweeping.tracked alarmed moved
  · exact Or.inr (sealed_advance sweeping.revoked isSealed moved)

theorem sweeping_of_load {key : String} {node next : Node} (tracked : node.Tracked)
    (revoked : Revoked key node) (moved : advance (.watcher (.load true)) node = .ok next) :
    Sweeping key next := by
  have keeps : KeepsRevoked key (.watcher (.load true)) := trivial
  refine ⟨tracked_advance tracked moved, revoked_advance revoked keeps moved, Or.inl ?_⟩
  have watched : node.advanceWatcher (.load true) = .ok next := moved
  rcases advanceWatcher_cases watched with ⟨impossible, _⟩ | ⟨_, _, _, rfl⟩ | ⟨_, impossible, _⟩ |
    ⟨_, impossible, _⟩ | ⟨_, _, impossible, _⟩ | ⟨_, _, _, impossible, _⟩ | ⟨impossible, _⟩
  · cases impossible
  · exact ⟨node.book, rfl, revoked⟩
  · cases impossible
  · cases impossible
  · cases impossible
  · cases impossible
  · cases impossible

theorem Fresh.tracked {node : Node} (fresh : node.Fresh) : node.Tracked := by
  intro index connection found
  rw [fresh.noConnection] at found
  cases found

/-- Once the watcher has finished the sweep, what was let in is closed, and stays so. -/
def Enforced (key : String) (node : Node) : Prop :=
  forall (index : Nat) connection, node.connections[index]? = some connection -> connection.client = key ->
    connection.phase.pastRecheck = true -> connection.closed = true

theorem enforced_of_asleep {key : String} {node : Node} (sweeping : Sweeping key node)
    (asleep : node.watcher = .sleeping) : Enforced key node := by
  rcases sweeping.stage with ⟨book, isLoaded, _⟩ | isSealed
  · rw [asleep] at isLoaded
    cases isLoaded
  · intro index connection found isClient past
    rcases isSealed index connection found isClient past with closed | pending
    · exact closed
    · rw [asleep] at pending
      cases pending

theorem enforced_advance {key : String} {node next : Node} {step : NodeStep} (revoked : Revoked key node)
    (enforced : Enforced key node) (moved : advance step node = .ok next) : Enforced key next := by
  intro index after found isClient past
  rcases follows_of_advance moved found with ⟨_, arrived, _⟩ | ⟨before, known, follows⟩
  · rw [arrived] at past
    cases past
  · have beforeClient : before.client = key := follows.client.symm.trans isClient
    have beforePast : before.phase.pastRecheck = true := by
      rcases follows.phase with samePhase | ⟨_, _, phases⟩
      · rw [← samePhase]
        exact past
      · rcases pastRecheck_of_nextPhase phases past with earlier | allowed
        · exact earlier
        · rw [beforeClient] at allowed
          exact absurd allowed (by rw [revoked]; exact Bool.false_ne_true)
    exact follows.closed (enforced index before known beforeClient beforePast)

/-- No look at the book lets a connection of the key in. -/
def Refuses (key : String) (node : Node) : Prop :=
  forall (index : Nat) connection, node.connections[index]? = some connection -> connection.client = key ->
    forall readable next, advance (.handler index (.recheck readable)) node = .ok next ->
      next.connections[index]?.map Connection.phase = some .refused

theorem refuses_of_revoked {key : String} {node : Node} (revoked : Revoked key node) : Refuses key node := by
  intro index connection found isClient readable next moved
  rcases advanceHandler_cases moved with ⟨before, phase, known, phases, rfl⟩
  rw [found] at known
  cases known
  have refused : phase = .refused := by
    have notAllowed : stillAllowed (node.load readable) connection.client = false := by
      cases readable with
      | true =>
          rw [isClient]
          exact revoked
      | false => rfl
    cases isPhase : connection.phase <;> rw [isPhase] at phases <;> simp only [nextPhase] at phases <;>
      try cases phases
    rw [notAllowed] at phases
    cases phases
    rfl
  rw [List.getElem?_set_self (List.getElem?_eq_some_iff.mp found).1, refused]
  rfl

/-- No stream of an open connection of the key is served. -/
def ServesNothing (key : String) (node : Node) : Prop :=
  forall (index : Nat) connection, node.connections[index]? = some connection -> connection.client = key ->
    forall next, advance (.handler index .serveStream) node = .ok next -> connection.closed = true

theorem servesNothing_of_enforced {key : String} {node : Node} (enforced : Enforced key node) :
    ServesNothing key node := by
  intro index connection found isClient next moved
  rcases advanceHandler_cases moved with ⟨before, phase, known, phases, _⟩
  rw [found] at known
  cases known
  have isRecorded : connection.phase.pastRecheck = true := by
    cases isPhase : connection.phase <;> rw [isPhase] at phases <;> first | rfl | cases phases
  exact enforced index connection found isClient isRecorded

/-- A key is revoked and not accepted again, the watcher loads the book after that and
finishes its sweep.  Then every connection of the key that was let in is closed, every
other one is refused when its handler looks at the book again, and no stream of an open
connection of the key is served from then on. -/
theorem revocation_enforced {key : String} {time : Nat} {start begun revoked polled loaded swept last : Node}
    {before between sweep later : List NodeStep} (fresh : start.Fresh)
    (kept : forall step, step ∈ between ++ sweep ++ later -> KeepsRevoked key step)
    (reached : Runs.run advance before start = .ok begun)
    (revocation : advance (.revokeKey key time) begun = .ok revoked)
    (waited : Runs.run advance between revoked = .ok polled)
    (load : advance (.watcher (.load true)) polled = .ok loaded)
    (swept' : Runs.run advance sweep loaded = .ok swept) (asleep : swept.watcher = .sleeping)
    (onwards : Runs.run advance later swept = .ok last) :
    Enforced key last ∧ Refuses key last ∧ ServesNothing key last := by
  have keptBetween : Runs.Along advance (fun _ step => KeepsRevoked key step) between revoked :=
    Runs.Along.of_forall (fun step member => kept step (by simp [member])) revoked
  have keptSweep : Runs.Along advance (fun _ step => KeepsRevoked key step) sweep loaded :=
    Runs.Along.of_forall (fun step member => kept step (by simp [member])) loaded
  have keptLater : Runs.Along advance (fun _ step => KeepsRevoked key step) later swept :=
    Runs.Along.of_forall (fun step member => kept step (by simp [member])) swept
  have begunTracked : begun.Tracked :=
    Runs.run_preserved (fun _ _ _ tracked moved => tracked_advance tracked moved) fresh.tracked reached
  have revokedTracked := tracked_advance begunTracked revocation
  have polledBoth := @Runs.run_invariant _ _ _ advance (fun _ step => KeepsRevoked key step)
    (fun node => node.Tracked ∧ Revoked key node)
    (fun _ _ _ keeps held moved => ⟨tracked_advance held.1 moved, revoked_advance held.2 keeps moved⟩)
    _ _ _ keptBetween ⟨revokedTracked, revoked_of_revokeKey revocation⟩ waited
  have sweptSweeping : Sweeping key swept := Runs.run_invariant
    (fun _ _ _ keeps sweeping moved => sweeping_advance sweeping keeps moved) keptSweep
    (sweeping_of_load polledBoth.1 polledBoth.2 load) swept'
  have lastBoth := @Runs.run_invariant _ _ _ advance (fun _ step => KeepsRevoked key step)
    (fun node => Revoked key node ∧ Enforced key node)
    (fun _ _ _ keeps held moved =>
      ⟨revoked_advance held.1 keeps moved, enforced_advance held.1 held.2 moved⟩)
    _ _ _ keptLater ⟨sweptSweeping.revoked, enforced_of_asleep sweptSweeping asleep⟩ onwards
  exact ⟨lastBoth.2, refuses_of_revoked lastBoth.1, servesNothing_of_enforced lastBoth.2⟩

/-! ## Runs of a node -/

/-- A node with an empty book. -/
def quiet : Node :=
  ⟨"agent", none, [], [], .sleeping, none, Table.empty⟩

/-- Where a run from the quiet node ends. -/
def after (steps : List NodeStep) : Node :=
  match Runs.run advance steps quiet with
  | .ok node => node
  | .error _ => quiet

/-- A peer is accepted and its connection is registered. -/
def registration : List NodeStep :=
  [.accept "peer" 1, .connect "peer" (some "laptop"), .handler 0 (.authorize true), .handler 0 .acknowledge,
    .handler 0 .registerLive]

/-- The registered peer is let in, recorded and served. -/
def session : List NodeStep :=
  registration ++ [.handler 0 (.recheck true), .handler 0 (.recordConnect 5), .handler 0 .serveStream]

/-- The watcher sweeps the only connection there is. -/
def sweepOne : List NodeStep :=
  [.watcher .enforceTrust, .watcher (.close ("peer", 0)), .watcher (.recordDisconnect 6), .watcher .finish]

/-- The handler of the connection finds its stream closed and goes home. -/
def departure : List NodeStep :=
  [.handler 0 .endStream, .handler 0 .unregisterLive, .handler 0 (.recordDisconnect 7)]

theorem session_revoked :
    Enforced "peer" (after (session ++ [.revokeKey "peer" 2, .watcher .readMetadata, .watcher (.load true)] ++
      sweepOne ++ departure)) ∧
    Refuses "peer" (after (session ++ [.revokeKey "peer" 2, .watcher .readMetadata, .watcher (.load true)] ++
      sweepOne ++ departure)) ∧
    ServesNothing "peer" (after (session ++ [.revokeKey "peer" 2, .watcher .readMetadata, .watcher (.load true)] ++
      sweepOne ++ departure)) :=
  @revocation_enforced "peer" 2 quiet (after session) (after (session ++ [.revokeKey "peer" 2]))
    (after (session ++ [.revokeKey "peer" 2, .watcher .readMetadata]))
    (after (session ++ [.revokeKey "peer" 2, .watcher .readMetadata, .watcher (.load true)]))
    (after (session ++ [.revokeKey "peer" 2, .watcher .readMetadata, .watcher (.load true)] ++ sweepOne))
    _ session [.watcher .readMetadata] sweepOne departure ⟨rfl, rfl, rfl⟩
    (by decide)
    rfl rfl rfl rfl rfl rfl rfl

/-- The watcher sweeps between the acknowledgement and the registration. -/
def lateRegistration : List NodeStep :=
  [.accept "peer" 1, .connect "peer" none, .handler 0 (.authorize true), .handler 0 .acknowledge,
    .revokeKey "peer" 2, .watcher .readMetadata, .watcher (.load true), .watcher .enforceTrust,
    .watcher .finish, .handler 0 .registerLive]

/-- The watcher sweeps between the second look at the book and the service. -/
def lateService : List NodeStep :=
  registration ++ [.handler 0 (.recheck true), .handler 0 (.recordConnect 5), .revokeKey "peer" 2,
    .watcher .readMetadata, .watcher (.load true)] ++ sweepOne

/-- After the sweep a connection of the revoked key can be registered and open until
its handler looks at the book again, and the handler of a closed one still goes on to
serve its stream. -/
theorem registered_and_served_after_sweep :
    (after lateRegistration).watcher = .sleeping ∧
      ((after lateRegistration).connections.map fun connection => (connection.phase, connection.closed)) =
        [(.registered, false)] ∧
      (after lateService).watcher = .sleeping ∧
      ((after lateService).connections.map fun connection => (connection.phase, connection.closed)) =
        [(.recorded, true)] ∧
      (advance (.handler 0 .serveStream) (after lateService)).isOk = true := by
  decide +kernel

end Node
end Roaming
end AIBuddy
