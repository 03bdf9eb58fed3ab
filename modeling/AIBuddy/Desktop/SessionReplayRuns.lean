import AIBuddy.Desktop.AdapterAgreement
import AIBuddy.Support.Runs

namespace AIBuddy
namespace Desktop

/-!
# Runs of a session that is loaded while it runs

A new adapter has the messages of the store and the texts of its steer messages, and no tool
call that is under way.  Where this is all that the old adapter had, it makes no difference that
the adapter is new.
-/

/-! ## The steps of a run -/

/-- A new adapter has what the old one has: the store has the messages, no tool call is under
way, and the texts of the other steer messages are their first contents. -/
def Rebuildable (session : Session) : Prop :=
  session.entry.messages = session.entry.adapter.messages ∧
    session.entry.adapter.toolCallStatesById.entries = [] ∧
    forall text, text ∈ session.entry.confirmedLocalSteerTextByMessageId.entries ++
        session.entry.adapter.localSteerTextByMessageId.entries -> text.1 ∉ session.steered ->
      session.entry.confirmedLocalSteerTextByMessageId.find? text.1 =
        session.entry.adapter.localSteerTextByMessageId.find? text.1

/-- What a step must find.  A notification finds its message alike in both adapters; the adapter
is made anew only where the new one has what the old one has, and steer messages are discarded
only before the server has sent them. -/
def Session.Allowed (session : Session) : Session.Step -> Prop
  | .notification _ update => Alike session.steered session.entry.adapter.messages session.whole.messages update
  | .addPendingLocalSteerMessage message =>
      (session.entry.adds? message).isSome = true ->
        Rebuildable session ∧ message.content.any isToolResponse = false
  | .startPromptAttempt _ =>
      session.entry.pendingLocalSteerMessageIds ≠ [] ->
        Rebuildable session ∧
          forall id, id ∈ session.entry.pendingLocalSteerMessageIds -> id ∉ messageIds session.whole.messages
  | _ => True

instance (messages : List Message) : Decidable (Named messages) :=
  inferInstanceAs (Decidable (forall last, last ∈ messages.getLast? -> _))

instance (steered : List String) (left right : List Message) : Decidable (SameEnd steered left right) :=
  inferInstanceAs (Decidable (_ ∧ forall last, last ∈ left.getLast? -> _))

instance (steered : List String) (left right : List Message) (messageId : Option String) :
    Decidable (Placeable steered left right messageId) := by
  unfold Placeable
  infer_instance

instance (steered : List String) (left right : List Message) (update : SessionUpdate) :
    Decidable (Alike steered left right update) :=
  match update with
  | .userMessageChunk _ | .agentMessageChunk _ | .agentThoughtChunk _ | .toolCall _ =>
      inferInstanceAs (Decidable (Placeable ..))
  | .toolCallUpdate _ => inferInstanceAs (Decidable (_ = _))
  | .sessionInfoUpdate _ _ _ | .other => .isTrue trivial

instance (session : Session) : Decidable (Rebuildable session) :=
  inferInstanceAs (Decidable (_ ∧ _ ∧ forall text, text ∈ _ -> _))

instance (session : Session) (step : Session.Step) : Decidable (session.Allowed step) :=
  match step with
  | .notification _ _ => inferInstanceAs (Decidable (Alike ..))
  | .addPendingLocalSteerMessage _ => inferInstanceAs (Decidable (_ -> _ ∧ _))
  | .startPromptAttempt _ => inferInstanceAs (Decidable (_ -> _ ∧ forall id, id ∈ _ -> _))
  | .startSessionLoad | .finishSessionLoad | .failSessionLoad => .isTrue trivial

/-- The entry has the messages that its adapter agrees on with the one that is never rebuilt. -/
structure Sound (session : Session) : Prop where
  agree : Agree session.steered session.entry.adapter session.whole
  pending : forall id, id ∈ session.entry.pendingLocalSteerMessageIds -> id ∈ session.steered
  kept : forall id, id ∈ session.kept -> id ∈ messageIds session.entry.adapter.messages
  loaded : session.loaded = true ->
    session.entry.messages = session.entry.adapter.messages ∧ session.entry.chatState ≠ .loadingConversation

theorem Sound.complete {session : Session} (sound : Sound session) : session.Complete := by
  intro loaded
  rw [(sound.loaded loaded).1]
  exact ⟨sound.agree.messages, sound.kept, sound.agree.present⟩

/-- An entry with the same adapter in the same chat, and none but its pending steer messages. -/
structure Keeps (entry next : SessionEntry) : Prop where
  adapter : next.adapter = entry.adapter
  chatState : next.chatState = entry.chatState
  pending : forall id, id ∈ next.pendingLocalSteerMessageIds -> id ∈ entry.pendingLocalSteerMessageIds

theorem Keeps.refl (entry : SessionEntry) : Keeps entry entry :=
  ⟨rfl, rfl, fun _ member => member⟩

theorem Keeps.trans {first second third : SessionEntry} (front : Keeps first second) (back : Keeps second third) :
    Keeps first third :=
  ⟨back.adapter.trans front.adapter, back.chatState.trans front.chatState,
    fun id member => front.pending id (back.pending id member)⟩

theorem messages_foldl {changes : List AcpChatStateChange} (quiet : changes.any SessionEntry.isMessages = false)
    (entry : SessionEntry) : (changes.foldl SessionEntry.applyChatStateChange entry).messages = entry.messages := by
  induction changes generalizing entry with
  | nil => rfl
  | cons change rest ih =>
      rw [List.any_cons, Bool.or_eq_false_iff] at quiet
      rw [List.foldl_cons, ih quiet.2]
      cases change with
      | messages messages => exact absurd quiet.1 Bool.true_eq_false_eq_False
      | localSteerConfirmed id =>
          rw [SessionEntry.applyChatStateChange]
          split <;> rfl
      | sessionInfo name activeRunId => rfl

namespace SessionEntry

end SessionEntry

theorem find?_eq_none_of_forall {table : Table String String} {id : String}
    (absent : forall text, text ∈ table.entries -> text.1 ≠ id) : table.find? id = none := by
  cases found : table.find? id with
  | none => rfl
  | some text => exact absurd rfl (absent (id, text) (table.mem_of_find? found))

section Rebuilding

variable {session : Session}

theorem Rebuildable.texts (rebuildable : Rebuildable session) {id : String} (other : id ∉ session.steered) :
    session.entry.confirmedLocalSteerTextByMessageId.find? id =
      session.entry.adapter.localSteerTextByMessageId.find? id := by
  by_cases known : Exists fun text => text ∈ session.entry.confirmedLocalSteerTextByMessageId.entries ++
      session.entry.adapter.localSteerTextByMessageId.entries ∧ text.1 = id
  · rcases known with ⟨text, member, rfl⟩
    exact rebuildable.2.2 text member other
  · rw [find?_eq_none_of_forall fun text member same => known ⟨text, List.mem_append_left _ member, same⟩,
      find?_eq_none_of_forall fun text member same => known ⟨text, List.mem_append_right _ member, same⟩]

theorem Rebuildable.tools (rebuildable : Rebuildable session)
    (agree : Agree session.steered session.entry.adapter session.whole) :
    Table.empty = session.whole.toolCallStatesById := by
  rw [← agree.tools]
  apply Table.ext
  intro id
  rw [Table.find?_empty, Table.find?, rebuildable.2.1]
  rfl

theorem mem_others {steered : List String} {messages : List Message} {message : Message} :
    message ∈ others steered messages ↔ message ∈ messages ∧ isAmong steered message = false := by
  rw [others, List.mem_filter, Bool.not_eq_true']

/-- An identifier that one adapter does not know is not known to the other. -/
theorem Agree.fresh {steered : List String} {adapter whole : AdapterState} (agree : Agree steered adapter whole)
    {id : String} (fresh : id ∉ messageIds adapter.messages) : id ∉ messageIds whole.messages := by
  intro known
  by_cases member : id ∈ steered
  · exact fresh (agree.present id member known)
  · rcases mem_messageIds.mp known with ⟨message, inWhole, has⟩
    have other : isAmong steered message = false := by
      rw [isAmong, has, Option.any_some, decide_eq_false_iff_not]
      exact member
    have inBoth : message ∈ others steered whole.messages := mem_others.mpr ⟨inWhole, other⟩
    rw [← agree.messages] at inBoth
    exact fresh (mem_messageIds.mpr ⟨message, (mem_others.mp inBoth).1, has⟩)

end Rebuilding

/-! ## Runs -/

namespace Session

end Session

end Desktop
end AIBuddy
