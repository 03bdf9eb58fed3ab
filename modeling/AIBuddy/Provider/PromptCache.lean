import AIBuddy.Provider.AnthropicFormat

namespace AIBuddy
namespace Anthropic

/-!
# Marks of the prompt cache

A request marks at most two blocks for the prompt cache, the last ones of its last messages of the
user.  The marks come on top: what is sent is what would be sent without a cache.
-/

/-- A message without its marks. -/
def SpecMessage.unmarked (message : SpecMessage) : SpecMessage :=
  { message with content := message.content.map fun marked => ⟨marked.block, none⟩ }

/-- A message as it is written, with something to say and without marks. -/
def Plain (message : SpecMessage) : Prop :=
  message.content ≠ [] ∧ forall marked, marked ∈ message.content -> marked.cacheControl = none

variable {message : SpecMessage}

theorem Plain.unmarked (plain : Plain message) : message.unmarked = message := by
  rcases message with ⟨role, content⟩
  have same : content.map (fun marked : MarkedBlock => (⟨marked.block, none⟩ : MarkedBlock)) = content := by
    refine (List.map_congr_left fun marked member => ?_).trans (List.map_id _)
    rw [← plain.2 marked member]
    rfl
  exact congrArg (SpecMessage.mk role) same

theorem Plain.marks (plain : Plain message) : message.content.filterMap MarkedBlock.cacheControl = [] :=
  List.filterMap_eq_nil_iff.mpr plain.2

/-- Marking a message adds one mark and nothing else. -/
theorem Plain.markLast (plain : Plain message) (control : Json) :
    (markLast control message.content).filterMap MarkedBlock.cacheControl = [control] ∧
      ({ message with content := Anthropic.markLast control message.content } : SpecMessage).unmarked =
        message.unmarked := by
  rcases List.eq_nil_or_concat message.content with nothing | ⟨front, last, whole⟩
  · exact absurd nothing plain.1
  · have marks := plain.marks
    rw [whole, List.concat_eq_append, List.filterMap_append, List.append_eq_nil_iff] at marks
    rw [Anthropic.markLast, whole, List.concat_eq_append, List.getLast?_concat]
    simp only [List.dropLast_concat, List.filterMap_append, marks.1, SpecMessage.unmarked, whole,
      List.concat_eq_append, List.map_append, List.map_cons, List.map_nil]
    exact ⟨rfl, trivial⟩

/-- The messages of a request without a prompt cache. -/
def uncached (options : FormatOptions) : FormatOptions :=
  { options with promptCacheDisabled := true }

end Anthropic
end AIBuddy
