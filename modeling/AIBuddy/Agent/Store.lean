import AIBuddy.Agent.Session
import Mathlib.Data.List.Induction
import Mathlib.Data.List.Forall2
import Mathlib.Data.Int.Order.Basic

namespace AIBuddy

/-!
# The order of the message store

Rows are kept in insertion order and read back by creation time.  Reading is a
stable sort: it changes nothing exactly when the rows are dated in order, and a
row dated last is read back last.
-/

/-- Rows dated in the order in which they stand. -/
def Chronological (rows : List Message) : Prop :=
  rows.Pairwise fun earlier later => earlier.created ≤ later.created

instance (rows : List Message) : Decidable (Chronological rows) :=
  inferInstanceAs (Decidable (rows.Pairwise _))

/-! ## Reading is a stable sort -/

theorem insertByCreated_perm (row : Message) (sorted : List Message) :
    (insertByCreated row sorted).Perm (row :: sorted) := by
  induction sorted with
  | nil => exact List.Perm.refl _
  | cons first rest ih =>
      unfold insertByCreated
      split
      · exact List.Perm.refl _
      · exact (ih.cons first).trans (List.Perm.swap row first rest)

/-- A row that is not older than any other goes to the end. -/
theorem insertByCreated_of_le {row : Message} {sorted : List Message}
    (youngest : forall other, other ∈ sorted -> other.created ≤ row.created) :
    insertByCreated row sorted = sorted ++ [row] := by
  induction sorted with
  | nil => rfl
  | cons first rest ih =>
      unfold insertByCreated
      rw [if_neg (not_lt.mpr (youngest first (List.mem_cons_self ..))),
        ih fun other member => youngest other (List.mem_cons_of_mem first member)]
      rfl

theorem insertByCreated_chronological {row : Message} {sorted : List Message}
    (ordered : Chronological sorted) : Chronological (insertByCreated row sorted) := by
  induction sorted with
  | nil => exact List.pairwise_singleton _ _
  | cons first rest ih =>
      rcases List.pairwise_cons.mp ordered with ⟨lowest, restOrdered⟩
      unfold insertByCreated
      split
      · case _ older =>
          apply List.pairwise_cons.mpr
          refine ⟨fun other member => ?_, ordered⟩
          rcases List.mem_cons.mp member with rfl | inRest
          · exact le_of_lt older
          · exact le_trans (le_of_lt older) (lowest other inRest)
      · case _ notOlder =>
          apply List.pairwise_cons.mpr
          refine ⟨fun other member => ?_, ih restOrdered⟩
          rcases List.mem_cons.mp ((insertByCreated_perm row rest).mem_iff.mp member) with rfl | inRest
          · exact not_lt.mp notOlder
          · exact lowest other inRest

theorem getConversation_concat (rows : List Message) (row : Message) :
    getConversation (rows ++ [row]) = insertByCreated row (getConversation rows) := by
  simp [getConversation]

theorem getConversation_perm (rows : List Message) : (getConversation rows).Perm rows := by
  induction rows using List.reverseRecOn with
  | nil => exact List.Perm.refl _
  | append_singleton rows row ih =>
      rw [getConversation_concat]
      exact (insertByCreated_perm row _).trans
        ((ih.cons row).trans (List.perm_append_singleton row rows).symm)

theorem mem_getConversation (rows : List Message) (message : Message) :
    message ∈ getConversation rows ↔ message ∈ rows :=
  (getConversation_perm rows).mem_iff

theorem getConversation_chronological (rows : List Message) : Chronological (getConversation rows) := by
  induction rows using List.reverseRecOn with
  | nil => exact List.Pairwise.nil
  | append_singleton rows row ih =>
      rw [getConversation_concat]
      exact insertByCreated_chronological ih

/-- Rows are read back as they were stored exactly when they are dated in order. -/
theorem getConversation_eq_self_iff (rows : List Message) :
    getConversation rows = rows ↔ Chronological rows := by
  constructor
  · intro same
    rw [← same]
    exact getConversation_chronological rows
  · intro ordered
    induction rows using List.reverseRecOn with
    | nil => rfl
    | append_singleton rows row ih =>
        rcases List.pairwise_append.mp ordered with ⟨front, _, across⟩
        rw [getConversation_concat, ih front]
        exact insertByCreated_of_le fun other member => across other member row (List.mem_singleton_self row)

/-- A relation that respects the dates is kept by reading. -/
theorem getConversation_forall₂ {related : Message -> Message -> Prop}
    (dates : forall left right, related left right -> left.created = right.created)
    {rows others : List Message} (pairs : List.Forall₂ related rows others) :
    List.Forall₂ related (getConversation rows) (getConversation others) := by
  have insert : forall {left right : Message} {sorted ordered : List Message}, related left right ->
      List.Forall₂ related sorted ordered ->
        List.Forall₂ related (insertByCreated left sorted) (insertByCreated right ordered) := by
    intro left right sorted ordered same between
    induction between with
    | nil => exact .cons same .nil
    | cons head tail ih =>
        unfold insertByCreated
        rw [dates _ _ same, dates _ _ head]
        split
        · exact .cons same (.cons head tail)
        · exact .cons head ih
  refine List.rel_foldl ?_ List.Forall₂.nil pairs
  intro sorted ordered between left right same
  exact insert same between

theorem sublist_insertByCreated (row : Message) (sorted : List Message) :
    sorted.Sublist (insertByCreated row sorted) := by
  induction sorted with
  | nil => exact List.nil_sublist _
  | cons first rest ih =>
      unfold insertByCreated
      split
      · exact List.sublist_cons_self row _
      · exact ih.cons_cons first

private theorem insertByCreated_sublist {row : Message} {items sorted : List Message}
    (sublist : items.Sublist sorted) (ordered : Chronological sorted)
    (notYounger : forall item, item ∈ items -> item.created ≤ row.created) :
    (items ++ [row]).Sublist (insertByCreated row sorted) := by
  induction sublist with
  | slnil => exact List.Sublist.refl _
  | @cons items sorted first sublist ih =>
      rcases List.pairwise_cons.mp ordered with ⟨lowest, restOrdered⟩
      unfold insertByCreated
      split
      · case _ older =>
          have nothing : items = [] := by
            apply List.eq_nil_iff_forall_not_mem.mpr
            intro item member
            exact absurd (notYounger item member)
              (not_le.mpr (lt_of_lt_of_le older (lowest item (sublist.subset member))))
          rw [nothing]
          exact List.Sublist.cons_cons row (List.nil_sublist _)
      · exact (ih restOrdered notYounger).cons first
  | @cons_cons items sorted first sublist ih =>
      unfold insertByCreated
      rw [if_neg (not_lt.mpr (notYounger first (List.mem_cons_self ..)))]
      exact (ih (List.pairwise_cons.mp ordered).2
        fun item member => notYounger item (List.mem_cons_of_mem first member)).cons_cons first

/-- Rows that are dated in order keep their order among the others. -/
theorem sublist_getConversation {items rows : List Message} (sublist : items.Sublist rows)
    (ordered : Chronological items) : items.Sublist (getConversation rows) := by
  induction rows using List.reverseRecOn generalizing items with
  | nil => exact sublist
  | append_singleton rows row ih =>
      rw [getConversation_concat]
      rcases List.sublist_append_iff.mp sublist with ⟨front, last, rfl, within, lastWithin⟩
      rcases List.pairwise_append.mp ordered with ⟨frontOrdered, _, across⟩
      have front := ih within frontOrdered
      cases lastWithin with
      | cons _ nothing =>
          rw [List.sublist_nil.mp nothing, List.append_nil]
          exact front.trans (sublist_insertByCreated row _)
      | cons_cons _ nothing =>
          rw [List.sublist_nil.mp nothing] at across ⊢
          apply insertByCreated_sublist front (getConversation_chronological rows)
          intro item member
          exact across item member row (List.mem_singleton_self row)

/-! ## Adding a message -/

theorem latestCreated_le {rows : List Message} {latest : Int} (found : latestCreated rows = some latest)
    {row : Message} (member : row ∈ rows) : row.created ≤ latest := by
  induction rows generalizing latest with
  | nil => contradiction
  | cons first rest ih =>
      simp only [latestCreated, Option.some.injEq] at found
      cases later : latestCreated rest with
      | none =>
          have alone : rest = [] := by
            cases rest with
            | nil => rfl
            | cons second others => simp [latestCreated] at later
          rw [alone, List.mem_singleton] at member
          simp [member, ← found, later]
      | some restLatest =>
          simp only [later, Option.map_some, Option.getD_some] at found
          rcases List.mem_cons.mp member with rfl | inRest
          · exact found ▸ le_max_left _ _
          · exact found ▸ le_trans (ih later inRest) (le_max_right _ _)

/-- A message as it is stored behind the given rows. -/
def datedAfter (rows : List Message) (message : Message) : Message :=
  { message with created := max message.created ((latestCreated rows).getD message.created) }

theorem addMessage_eq (rows : List Message) (message : Message) :
    addMessage rows message = rows ++ [datedAfter rows message] := rfl

theorem le_datedAfter (rows : List Message) (message : Message) :
    message.created ≤ (datedAfter rows message).created :=
  le_max_left _ _

theorem datedAfter_youngest {rows : List Message} (message : Message) {row : Message} (member : row ∈ rows) :
    row.created ≤ (datedAfter rows message).created := by
  cases latest : latestCreated rows with
  | none =>
      cases rows with
      | nil => contradiction
      | cons first rest => simp [latestCreated] at latest
  | some value =>
      have bounded := latestCreated_le latest member
      simp only [datedAfter, latest, Option.getD_some]
      exact le_trans bounded (le_max_right _ _)

theorem getConversation_addMessage (rows : List Message) (message : Message) :
    getConversation (addMessage rows message) = getConversation rows ++ [datedAfter rows message] := by
  rw [addMessage_eq, getConversation_concat]
  apply insertByCreated_of_le
  intro other member
  exact datedAfter_youngest message ((mem_getConversation rows other).mp member)

/-- Add messages one after the other.  The store gives an id to a message
without one. -/
def addMessages (rows : List Message) (entries : List (String × Message)) : List Message :=
  entries.foldl (fun rows entry => addMessage rows (ensureId entry.1 entry.2)) rows

/-- A stored message is the one that was handed in, with an id, and possibly
dated later. -/
def StoredAs (entry : String × Message) (stored : Message) : Prop :=
  stored = { ensureId entry.1 entry.2 with created := stored.created } ∧ entry.2.created ≤ stored.created

theorem storedAs_datedAfter (rows : List Message) (entry : String × Message) :
    StoredAs entry (datedAfter rows (ensureId entry.1 entry.2)) := by
  refine ⟨rfl, ?_⟩
  have kept : (ensureId entry.1 entry.2).created = entry.2.created := by
    unfold ensureId
    split <;> rfl
  rw [← kept]
  exact le_datedAfter rows _

/-- However messages are dated, they are read back in the order in which they
were added, behind what was stored before, which keeps its order. -/
theorem getConversation_addMessages (rows : List Message) (entries : List (String × Message)) :
    Exists fun added => getConversation (addMessages rows entries) = getConversation rows ++ added ∧
      List.Forall₂ StoredAs entries added := by
  induction entries generalizing rows with
  | nil => exact ⟨[], by simp [addMessages], .nil⟩
  | cons entry rest ih =>
      rcases ih (addMessage rows (ensureId entry.1 entry.2)) with ⟨added, read, stored⟩
      refine ⟨datedAfter rows (ensureId entry.1 entry.2) :: added, ?_, .cons (storedAs_datedAfter rows entry) stored⟩
      have unfolded : addMessages rows (entry :: rest) =
          addMessages (addMessage rows (ensureId entry.1 entry.2)) rest := rfl
      rw [unfolded, read, getConversation_addMessage]
      simp

/-! ## Writing in place -/

/-- A row in which the metadata of a request may have been patched. -/
def PatchedRow (toolCallId : String) (patch : Json) (row patched : Message) : Prop :=
  patched = row ∨ patched = { row with content := patchToolRequest toolCallId patch row.content }

theorem map_patchToolRequest {β : Type} (toolCallId : String) (patch : Json) (view : MessageContentBlock -> β)
    (blind : forall request : ToolRequest,
      view (.toolRequest { request with toolMeta := some (mergeToolMeta request.toolMeta patch) }) =
        view (.toolRequest request))
    (content : List MessageContentBlock) :
    (patchToolRequest toolCallId patch content).map view = content.map view := by
  induction content with
  | nil => rfl
  | cons block rest ih =>
      unfold patchToolRequest
      split
      · contradiction
      · case _ same =>
          cases same
          split
          · rw [List.map_cons, List.map_cons, blind]
          · rw [List.map_cons, List.map_cons, ih]
      · case _ same =>
          cases same
          rw [List.map_cons, List.map_cons, ih]

theorem isToolResponse_patchToolRequest (toolCallId : String) (patch : Json) (content : List MessageContentBlock) :
    (patchToolRequest toolCallId patch content).any (fun block => block.asToolResponse.isSome) =
      content.any fun block => block.asToolResponse.isSome := by
  have same := congrArg (List.any · id)
    (map_patchToolRequest toolCallId patch (fun block => block.asToolResponse.isSome) (fun _ => rfl) content)
  simp only [List.any_map] at same
  exact same

theorem PatchedRow.created_eq {toolCallId : String} {patch : Json} {row patched : Message}
    (same : PatchedRow toolCallId patch row patched) : row.created = patched.created := by
  rcases same with rfl | rfl <;> rfl

theorem patchFirstRow_forall₂ (messageId toolCallId : String) (patch : Json) (rows : List Message) :
    List.Forall₂ (PatchedRow toolCallId patch) rows (patchFirstRow messageId toolCallId patch rows) := by
  have same : forall rest : List Message, List.Forall₂ (PatchedRow toolCallId patch) rest rest :=
    fun rest => List.forall₂_same.mpr fun row _ => Or.inl rfl
  induction rows with
  | nil => exact .nil
  | cons row rest ih =>
      unfold patchFirstRow
      split
      · exact .cons (Or.inr rfl) (same rest)
      · exact .cons (Or.inl rfl) ih

theorem updateToolRequestMeta_forall₂ (rows : List Message) (toolCallId : String) (patch : Json) :
    List.Forall₂ (PatchedRow toolCallId patch) rows (updateToolRequestMeta rows toolCallId patch) := by
  have same : List.Forall₂ (PatchedRow toolCallId patch) rows rows :=
    List.forall₂_same.mpr fun row _ => Or.inl rfl
  unfold updateToolRequestMeta
  split
  · exact same
  · split
    · exact same
    · exact patchFirstRow_forall₂ _ _ _ _

theorem updateMessageMetadata_forall₂ {rows updated : List Message} {messageId : String}
    {update : MessageMetadata -> MessageMetadata}
    (succeeded : updateMessageMetadata rows messageId update = .ok updated) :
    List.Forall₂ (fun row changed => changed = row ∨
      Exists fun metadata => changed = { row with metadata := update metadata }) rows updated := by
  unfold updateMessageMetadata at succeeded
  split at succeeded
  · contradiction
  · case _ first _ =>
      cases succeeded
      apply List.forall₂_map_right_iff.mpr
      apply List.forall₂_same.mpr
      intro row _
      split
      · exact Or.inr ⟨first.metadata, rfl⟩
      · exact Or.inl rfl

end AIBuddy
