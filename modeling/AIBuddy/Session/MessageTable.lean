import Mathlib.Tactic.TypeStar

namespace AIBuddy

/-!
# The table of messages

The messages of one session are rows of a table.  A row gets the next number when it is
inserted, and a conversation is read ordered by the second of creation and then by that number.
A message that is added never sorts ahead of the stored ones, because its second is raised to
the latest of them.  A conversation is cut either at a second or at a message.
-/

/-- A row of the table, with whatever else is stored about the message. -/
structure MessageRow (content : Type) where
  id : Nat
  messageId : Option String
  createdTimestamp : Int
  body : content
deriving DecidableEq

namespace MessageRow

variable {content : Type}

/-- The order in which a conversation is read. -/
def readsBefore (left right : MessageRow content) : Bool :=
  decide (left.createdTimestamp < right.createdTimestamp) ||
    (decide (left.createdTimestamp = right.createdTimestamp) && decide (left.id ≤ right.id))

theorem readsBefore_iff (left right : MessageRow content) :
    left.readsBefore right = true ↔
      left.createdTimestamp < right.createdTimestamp ∨
        (left.createdTimestamp = right.createdTimestamp ∧ left.id ≤ right.id) := by
  simp [readsBefore]

theorem readsBefore_trans (first second third : MessageRow content) (early : first.readsBefore second = true)
    (late : second.readsBefore third = true) : first.readsBefore third = true := by
  rw [readsBefore_iff] at early late ⊢
  omega

theorem readsBefore_total (left right : MessageRow content) :
    (left.readsBefore right || right.readsBefore left) = true := by
  rw [Bool.or_eq_true, readsBefore_iff, readsBefore_iff]
  omega

theorem createdTimestamp_le (left right : MessageRow content) (before : left.readsBefore right = true) :
    left.createdTimestamp ≤ right.createdTimestamp := by
  rw [readsBefore_iff] at before
  omega

end MessageRow

/-- The rows of one session in the order of their numbers, and the next number to give. -/
structure MessageTable (content : Type) where
  rows : List (MessageRow content)
  nextId : Nat
  numbered : rows.Pairwise fun left right => left.id < right.id
  below : forall row, row ∈ rows -> row.id < nextId

namespace MessageTable

variable {content : Type}

/-! ## The operations -/

/-- A table without messages. -/
def empty : MessageTable content :=
  ⟨[], 1, List.Pairwise.nil, fun _ member => absurd member List.not_mem_nil⟩

/-- The rows ordered by second and number. -/
def getConversation (table : MessageTable content) : List (MessageRow content) :=
  table.rows.mergeSort MessageRow.readsBefore

/-- The latest second among the rows. -/
def latest (table : MessageTable content) : Option Int :=
  (table.rows.map MessageRow.createdTimestamp).max?

/-- The row of a message that is added. -/
def addedRow (table : MessageTable content) (messageId : Option String) (created : Int) (body : content) :
    MessageRow content :=
  ⟨table.nextId, messageId, max created (table.latest.getD created), body⟩

/-- Insert a message, no earlier than the stored ones. -/
def addMessage (table : MessageTable content) (messageId : Option String) (created : Int) (body : content) :
    MessageTable content where
  rows := table.rows ++ [table.addedRow messageId created body]
  nextId := table.nextId + 1
  numbered := by
    refine List.pairwise_append.mpr ⟨table.numbered, List.pairwise_singleton _ _, ?_⟩
    intro row member added same
    rw [List.mem_singleton.mp same]
    exact table.below row member
  below := by
    intro row member
    rcases List.mem_append.mp member with stored | added
    · exact Nat.lt_succ_of_lt (table.below row stored)
    · rw [List.mem_singleton.mp added]
      exact Nat.lt_succ_self _

/-- Delete the rows that do not meet a condition. -/
def deleteUnless (table : MessageTable content) (keep : MessageRow content -> Bool) : MessageTable content where
  rows := table.rows.filter keep
  nextId := table.nextId
  numbered := table.numbered.filter keep
  below := fun row member => table.below row (List.mem_filter.mp member).1

/-- Delete what was created in a second or later. -/
def truncateConversation (table : MessageTable content) (timestamp : Int) : MessageTable content :=
  table.deleteUnless fun row => decide (row.createdTimestamp < timestamp)

/-! ## Reading a conversation -/

theorem mem_getConversation (table : MessageTable content) (row : MessageRow content) :
    row ∈ table.getConversation ↔ row ∈ table.rows :=
  List.mem_mergeSort

theorem getConversation_pairwise (table : MessageTable content) :
    table.getConversation.Pairwise fun left right => left.readsBefore right = true :=
  List.pairwise_mergeSort MessageRow.readsBefore_trans MessageRow.readsBefore_total table.rows

theorem eq_of_id (table : MessageTable content) (left right : MessageRow content)
    (leftMember : left ∈ table.rows) (rightMember : right ∈ table.rows) (same : left.id = right.id) :
    left = right := by
  rcases List.getElem_of_mem leftMember with ⟨first, firstBound, rfl⟩
  rcases List.getElem_of_mem rightMember with ⟨second, secondBound, rfl⟩
  have ordered := List.pairwise_iff_getElem.mp table.numbered
  rcases Nat.lt_trichotomy first second with less | equal | greater
  · exact absurd same (Nat.ne_of_lt (ordered first second firstBound secondBound less))
  · subst equal
    rfl
  · exact absurd same.symm (Nat.ne_of_lt (ordered second first secondBound firstBound greater))

theorem getConversation_eq_of_perm (table : MessageTable content) (rows : List (MessageRow content))
    (ordered : rows.Pairwise fun left right => left.readsBefore right = true) (perm : rows.Perm table.rows) :
    table.getConversation = rows := by
  refine List.Perm.eq_of_pairwise ?_ table.getConversation_pairwise ordered
    ((List.mergeSort_perm _ _).trans perm.symm)
  intro left right leftMember rightMember before after
  rw [MessageRow.readsBefore_iff] at before after
  exact table.eq_of_id left right ((mem_getConversation table left).mp leftMember) (perm.mem_iff.mp rightMember)
    (by omega)

theorem getConversation_deleteUnless (table : MessageTable content) (keep : MessageRow content -> Bool) :
    (table.deleteUnless keep).getConversation = table.getConversation.filter keep :=
  getConversation_eq_of_perm _ _ (table.getConversation_pairwise.filter keep)
    ((List.mergeSort_perm table.rows MessageRow.readsBefore).filter keep)

theorem createdTimestamp_le_addedRow (table : MessageTable content) (messageId : Option String) (created : Int)
    (body : content) (row : MessageRow content) (member : row ∈ table.rows) :
    row.createdTimestamp ≤ (table.addedRow messageId created body).createdTimestamp := by
  have listed : row.createdTimestamp ∈ table.rows.map MessageRow.createdTimestamp := List.mem_map_of_mem member
  cases newest : table.latest with
  | none =>
      rw [latest, List.max?_eq_none_iff] at newest
      rw [newest] at listed
      exact absurd listed List.not_mem_nil
  | some second =>
      have bound : row.createdTimestamp ≤ second := (List.max?_eq_some_iff.mp newest).2 _ listed
      rw [addedRow, newest]
      exact Int.le_trans bound (Int.le_max_right created second)

theorem getConversation_addMessage (table : MessageTable content) (messageId : Option String) (created : Int)
    (body : content) :
    (table.addMessage messageId created body).getConversation =
      table.getConversation ++ [table.addedRow messageId created body] := by
  refine getConversation_eq_of_perm _ _ ?_ ((List.mergeSort_perm table.rows _).append_right _)
  refine List.pairwise_append.mpr ⟨table.getConversation_pairwise, List.pairwise_singleton _ _, ?_⟩
  intro row member added same
  rw [List.mem_singleton.mp same, MessageRow.readsBefore_iff]
  have stored := (mem_getConversation table row).mp member
  have second := createdTimestamp_le_addedRow table messageId created body row stored
  have number : row.id < table.nextId := table.below row stored
  have numbered : (table.addedRow messageId created body).id = table.nextId := rfl
  omega

/-! ## Cutting a conversation -/

/-- A cut at a second leaves what was created before. -/
theorem getConversation_truncateConversation (table : MessageTable content) (timestamp : Int) :
    (table.truncateConversation timestamp).getConversation =
      table.getConversation.filter fun row => decide (row.createdTimestamp < timestamp) :=
  getConversation_deleteUnless table _

end MessageTable
end AIBuddy
