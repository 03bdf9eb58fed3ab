import AIBuddy.Agent.Offers
import AIBuddy.Agent.Run
import AIBuddy.Agent.Store

namespace AIBuddy

open Runs LastSuffix

/-!
# What effects leave of a message

A patch of a request leaves its message in its turn, and what is read from a message without its
id does not depend on the id that is made for it.
-/

/-- The ids that a list of messages asks about. -/
def askedIds (messages : List Message) : List String :=
  messages.flatMap Message.toolRequestIds

theorem answeredIds_append (front back : List Message) :
    answeredIds (front ++ back) = answeredIds front ++ answeredIds back :=
  List.flatMap_append

theorem isKickoff_patchedRow {toolCallId : String} {patch : Json} {row patched : Message}
    (same : PatchedRow toolCallId patch row patched) : isKickoff row = isKickoff patched := by
  rcases same with rfl | rfl
  · rfl
  · unfold isKickoff Message.isToolResponse
    rw [isToolResponse_patchToolRequest]
    rfl

theorem ensureId_reads {β : Type} (read : Message -> β)
    (blind : forall (message : Message) (id : String), read (message.withId id) = read message) (id : String)
    (message : Message) : read (ensureId id message) = read message := by
  unfold ensureId
  split
  · rfl
  · exact blind message id

end AIBuddy
