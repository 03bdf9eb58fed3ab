import AIBuddy.Conversation.Fix
import AIBuddy.Support.Middle

namespace AIBuddy

/-!
# Summarizing a conversation

The history is shown to a summarizer, with more and more tool responses left out as long as it does
not fit.  They are taken from the middle outwards, where context is least likely to matter.  The
templates, the summarizer and the estimation of tokens are outside.
-/

/-! ## Leaving tool responses out -/

/-- The places of the messages with tool responses. -/
def toolIndices (messages : List Message) : List Nat :=
  (messages.zipIdx.filter fun entry => hasToolResponse entry.1).map Prod.snd

/-- The place among the tool responses that a turn takes out, if it takes any. -/
def removedTurn (toolIndices : List Nat) (turn : Nat) : Option Nat :=
  let middle := toolIndices.length / 2
  let offset := turn / 2
  if turn % 2 = 0 then
    if middle > offset then toolIndices[middle - offset - 1]? else none
  else if middle + offset < toolIndices.length then toolIndices[middle + offset]?
  else none

def numToRemove (count removePercent : Nat) : Nat :=
  max (count * removePercent / 100) 1

def filterToolResponses (messages : List Message) (removePercent : Nat) : List Message :=
  if removePercent = 0 then messages
  else if (toolIndices messages).isEmpty then messages
  else
    let indices := toolIndices messages
    let indicesToRemove := (List.range (numToRemove indices.length removePercent)).filterMap (removedTurn indices)
    (messages.zipIdx.filter fun entry => decide (entry.2 ∉ indicesToRemove)).map Prod.fst

/-! ## Summaries -/

def removalPercentages : List Nat := [0, 10, 20, 50, 100]

/-- What a request to the summarizer can fail with. -/
inductive CompletionError where
  | contextLengthExceeded (message : String)
  | other (message : String)
deriving DecidableEq

/-- The outside of a summary: the prompt for a history, the answer of the model to the prompt of an
attempt, the tokens that are estimated where it reports none, and the text of a structured summary. -/
structure Summarizer (υ : Type) where
  render : List Message -> Except String String
  complete : Nat -> String -> Except CompletionError (Message × υ)
  ensureUsageTokens : String -> Message -> υ -> υ
  applyStructuredSummary : Message -> Message

inductive SummarizeError where
  | template (message : String)
  | nothingToRemove
  | exceededAfterRemoval
  | provider (error : CompletionError)
  | exhausted
deriving DecidableEq

/-- The texts of the errors that are made here. -/
def SummarizeError.message? : SummarizeError -> Option String
  | .template message => some message
  | .nothingToRemove =>
      some ("Failed to compact: the base prompt (system prompt, tool schemas, and conversation) exceeds the model's "
        ++ "effective context window, and there are no tool responses to remove. Use a model or configuration with a "
        ++ "larger usable context, disable some extensions to reduce the tool-schema payload, or start a new session.")
  | .exceededAfterRemoval => some "Failed to compact: context limit exceeded even after removing all tool responses"
  | .provider _ => none
  | .exhausted => some "Unexpected: exhausted all attempts without returning"

variable {υ : Type}

/-- The attempts from one on, with the percentages that are left. -/
def summarizeFrom (summarizer : Summarizer υ) (messages : List Message) (attempt : Nat) :
    List Nat -> Except SummarizeError (Message × υ)
  | [] => .error .exhausted
  | removePercent :: rest =>
      match summarizer.render (filterToolResponses messages removePercent) with
      | .error message => .error (.template message)
      | .ok systemPrompt =>
          match summarizer.complete attempt systemPrompt with
          | .ok (response, usage) =>
              let response := { response with role := .user }
              .ok (summarizer.applyStructuredSummary response,
                summarizer.ensureUsageTokens systemPrompt response usage)
          | .error (.contextLengthExceeded message) =>
              if !messages.any hasToolResponse then .error .nothingToRemove
              else if attempt < removalPercentages.length - 1 then summarizeFrom summarizer messages (attempt + 1) rest
              else .error .exceededAfterRemoval
          | .error (.other message) => .error (.provider (.other message))

def summarize (summarizer : Summarizer υ) (messages : List Message) : Except SummarizeError (Message × υ) :=
  summarizeFrom summarizer messages 0 removalPercentages

/-! ## What is removed -/

/-- A history without a number of its tool responses, and with all its other messages in order. -/
structure RemovesExactly (messages kept : List Message) (number : Nat) : Prop where
  ordered : kept.Sublist messages
  others : (kept.filter fun message => !hasToolResponse message) = messages.filter fun message => !hasToolResponse message
  removed : kept.countP hasToolResponse + number = messages.countP hasToolResponse

variable (messages : List Message)

theorem length_toolIndices : (toolIndices messages).length = messages.countP hasToolResponse := by
  rw [toolIndices, List.length_map, ← List.countP_eq_length_filter]
  conv_rhs => rw [← List.zipIdx_map_fst 0 messages, List.countP_map]
  rfl

theorem nodup_toolIndices : (toolIndices messages).Nodup := by
  have sublist : (toolIndices messages).Sublist (messages.zipIdx.map Prod.snd) := List.filter_sublist.map Prod.snd
  rw [List.zipIdx_map_snd] at sublist
  exact sublist.nodup List.nodup_range'

theorem mem_toolIndices {place : Nat} :
    place ∈ toolIndices messages ↔ Exists fun message => messages[place]? = some message ∧ hasToolResponse message = true := by
  rw [toolIndices, List.mem_map]
  constructor
  · rintro ⟨⟨message, other⟩, member, rfl⟩
    rw [List.mem_filter, List.mem_zipIdx_iff_getElem?] at member
    exact ⟨message, member.1, member.2⟩
  · rintro ⟨message, found, responds⟩
    exact ⟨(message, place), List.mem_filter.mpr ⟨List.mem_zipIdx_iff_getElem?.mpr found, responds⟩, rfl⟩

theorem removedTurn_eq (indices : List Nat) (turn : Nat) :
    removedTurn indices turn = (Middle.turnPlace indices.length turn).bind fun place => indices[place]? := by
  unfold removedTurn Middle.turnPlace
  simp only
  split
  · split <;> rfl
  · split <;> rfl

theorem mem_filterMap_removedTurn {indices : List Nat} {number place : Nat} :
    place ∈ (List.range number).filterMap (removedTurn indices) ↔
      place ∈ Middle.between indices (Middle.low indices.length number) (Middle.high indices.length number) := by
  rw [List.mem_filterMap, Middle.mem_between_iff]
  constructor
  · rintro ⟨turn, member, reached⟩
    rw [removedTurn_eq, Option.bind_eq_some_iff] at reached
    rcases reached with ⟨position, placed, found⟩
    have inside := (Middle.turnPlace_reaches ..).mp ⟨turn, List.mem_range.mp member, placed⟩
    exact ⟨position, inside.1, inside.2, found⟩
  · rintro ⟨position, after, before, found⟩
    rcases (Middle.turnPlace_reaches ..).mpr ⟨after, before⟩ with ⟨turn, taken, placed⟩
    refine ⟨turn, List.mem_range.mpr taken, ?_⟩
    rw [removedTurn_eq, placed]
    exact found

/-- The messages at places that are not removed. -/
def keptWithout (removed : List Nat) : List Message :=
  (messages.zipIdx.filter fun entry => decide (entry.2 ∉ removed)).map Prod.fst

/-- The places that a percentage removes. -/
def removedPlaces (removePercent : Nat) : List Nat :=
  let count := (toolIndices messages).length
  Middle.between (toolIndices messages) (Middle.low count (numToRemove count removePercent))
    (Middle.high count (numToRemove count removePercent))

theorem filterToolResponses_eq {removePercent : Nat} (positive : 1 ≤ removePercent) :
    filterToolResponses messages removePercent = keptWithout messages (removedPlaces messages removePercent) := by
  rw [filterToolResponses, if_neg (by omega)]
  split
  · rename_i empty
    rw [List.isEmpty_iff] at empty
    have none_removed : removedPlaces messages removePercent = [] := by
      simp only [removedPlaces, empty, Middle.between, List.take_nil, List.drop_nil]
    rw [none_removed, keptWithout, List.filter_eq_self.mpr, List.zipIdx_map_fst]
    exact fun _ _ => rfl
  · refine congrArg (List.map Prod.fst) (List.filter_congr fun entry _ => ?_)
    exact decide_eq_decide.mpr (not_congr mem_filterMap_removedTurn)

theorem keptWithout_sublist (removed : List Nat) : (keptWithout messages removed).Sublist messages := by
  have sublist : (keptWithout messages removed).Sublist (messages.zipIdx.map Prod.fst) := List.filter_sublist.map Prod.fst
  rwa [List.zipIdx_map_fst] at sublist

theorem keptWithout_anti {fewer more : List Nat} (each : forall place, place ∈ fewer -> place ∈ more) :
    (keptWithout messages more).Sublist (keptWithout messages fewer) := by
  refine List.Sublist.map Prod.fst (List.monotone_filter_right _ fun entry kept => ?_)
  exact decide_eq_true fun removed => of_decide_eq_true kept (each _ removed)

theorem keptWithout_others {removed : List Nat} (responses : forall place, place ∈ removed -> place ∈ toolIndices messages) :
    ((keptWithout messages removed).filter fun message => !hasToolResponse message) =
      messages.filter fun message => !hasToolResponse message := by
  conv_rhs => rw [← List.zipIdx_map_fst 0 messages]
  rw [keptWithout, List.filter_map, List.filter_map, List.filter_filter]
  congr 1
  refine List.filter_congr fun entry member => ?_
  rw [Function.comp_apply]
  cases responds : hasToolResponse entry.1 with
  | true => rfl
  | false =>
      rw [Bool.not_false, Bool.true_and]
      refine decide_eq_true fun taken => ?_
      rcases (mem_toolIndices messages).mp (responses _ taken) with ⟨message, found, other⟩
      rw [List.mem_zipIdx_iff_getElem?.mp member, Option.some.injEq] at found
      rw [found, other] at responds
      cases responds

theorem countP_keptWithout (removed : List Nat) :
    (keptWithout messages removed).countP hasToolResponse =
      ((toolIndices messages).filter fun place => decide (place ∉ removed)).length := by
  rw [keptWithout, toolIndices, List.countP_map, List.filter_map, List.length_map, List.filter_filter,
    List.countP_eq_length_filter, List.filter_filter]
  congr 1
  refine List.filter_congr fun entry _ => ?_
  exact Bool.and_comm ..

variable {messages} {removePercent : Nat}

theorem numToRemove_pos (count removePercent : Nat) : 1 ≤ numToRemove count removePercent :=
  Nat.le_max_right ..

theorem numToRemove_le {count : Nat} (some : 1 ≤ count) (bounded : removePercent ≤ 100) :
    numToRemove count removePercent ≤ count := by
  refine Nat.max_le.mpr ⟨?_, some⟩
  exact Nat.div_le_of_le_mul (by rw [Nat.mul_comm]; exact Nat.mul_le_mul_right count bounded)

theorem numToRemove_lt_iff {count : Nat} (some : 1 ≤ count) (bounded : removePercent ≤ 100) :
    numToRemove count removePercent < count ↔ removePercent < 100 ∧ count ≠ 1 := by
  rw [numToRemove, Nat.max_lt, Nat.div_lt_iff_lt_mul (by decide), Nat.mul_lt_mul_left some]
  omega

theorem numToRemove_mono {count fewer more : Nat} (ordered : fewer ≤ more) :
    numToRemove count fewer ≤ numToRemove count more :=
  max_le_max (Nat.div_le_div_right (Nat.mul_le_mul_left count ordered)) (Nat.le_refl 1)

theorem countP_filterToolResponses (positive : 1 ≤ removePercent) :
    (filterToolResponses messages removePercent).countP hasToolResponse +
        (Middle.high (messages.countP hasToolResponse) (numToRemove (messages.countP hasToolResponse) removePercent) -
          Middle.low (messages.countP hasToolResponse) (numToRemove (messages.countP hasToolResponse) removePercent)) =
      messages.countP hasToolResponse := by
  rw [filterToolResponses_eq messages positive, countP_keptWithout, removedPlaces,
    Middle.filter_notMem_between (nodup_toolIndices messages) (Middle.low_le_high ..), List.length_append, List.length_drop]
  have inside := Middle.high_le_length (toolIndices messages).length
    (numToRemove (toolIndices messages).length removePercent)
  have ordered := Middle.low_le_high (toolIndices messages).length
    (numToRemove (toolIndices messages).length removePercent)
  rw [List.length_take_of_le (ordered.trans inside)]
  rw [length_toolIndices] at inside ordered ⊢
  omega

theorem filterToolResponses_exact_iff (some : 1 ≤ messages.countP hasToolResponse) (positive : 1 ≤ removePercent)
    (bounded : removePercent ≤ 100) :
    RemovesExactly messages (filterToolResponses messages removePercent)
        (numToRemove (messages.countP hasToolResponse) removePercent) ↔
      messages.countP hasToolResponse % 2 = 0 ∨ (removePercent < 100 ∧ messages.countP hasToolResponse ≠ 1) := by
  have counted := @countP_filterToolResponses messages _ positive
  rw [← numToRemove_lt_iff some bounded,
    ← Middle.high_sub_low_eq_iff (numToRemove_pos ..) (numToRemove_le some bounded)]
  constructor
  · intro exactly
    have removed := exactly.removed
    omega
  · intro enough
    rw [enough] at counted
    rw [filterToolResponses_eq messages positive] at counted ⊢
    refine ⟨keptWithout_sublist .., keptWithout_others messages ?_, counted⟩
    intro place member
    rcases Middle.mem_between_iff.mp member with ⟨position, _, _, found⟩
    exact List.mem_of_getElem? found

theorem filterToolResponses_anti {smaller larger : Nat} (positive : 1 ≤ smaller) (ordered : smaller ≤ larger) :
    (filterToolResponses messages larger).Sublist (filterToolResponses messages smaller) := by
  rw [filterToolResponses_eq messages positive, filterToolResponses_eq messages (positive.trans ordered)]
  refine keptWithout_anti messages fun place member => ?_
  rw [removedPlaces, Middle.mem_between_iff] at member ⊢
  rcases member with ⟨position, after, before, found⟩
  exact ⟨position, (Middle.low_anti (numToRemove_mono ordered)).trans after,
    before.trans_le (Middle.high_mono (numToRemove_mono ordered)), found⟩

/-! ## When a summary gives up -/

/-- An attempt fails because its prompt is too long. -/
def TooLong (summarizer : Summarizer υ) (messages : List Message) (attempt removePercent : Nat) : Prop :=
  Exists fun systemPrompt => summarizer.render (filterToolResponses messages removePercent) = .ok systemPrompt ∧
    Exists fun message => summarizer.complete attempt systemPrompt = .error (.contextLengthExceeded message)

theorem summarizeFrom_exceeded {summarizer : Summarizer υ} {attempt : Nat} {percentages : List Nat}
    (counted : attempt + percentages.length = removalPercentages.length)
    (exceeded : summarizeFrom summarizer messages attempt percentages = .error .exceededAfterRemoval) :
    messages.any hasToolResponse = true ∧ forall offset removePercent, percentages[offset]? = some removePercent ->
      TooLong summarizer messages (attempt + offset) removePercent := by
  induction percentages generalizing attempt with
  | nil => cases exceeded
  | cons first rest ih =>
      rw [summarizeFrom] at exceeded
      split at exceeded
      · cases exceeded
      · rename_i systemPrompt rendered
        split at exceeded
        · cases exceeded
        · rename_i message failed
          have tooLong : TooLong summarizer messages attempt first := ⟨systemPrompt, rendered, message, failed⟩
          split at exceeded
          · cases exceeded
          · rename_i responds
            have responds : messages.any hasToolResponse = true := by simpa using responds
            rw [List.length_cons] at counted
            have later : forall offset removePercent, rest[offset]? = some removePercent ->
                TooLong summarizer messages (attempt + 1 + offset) removePercent := by
              split at exceeded
              · exact (ih (by omega) exceeded).2
              · rename_i last
                have empty : rest = [] := List.eq_nil_of_length_eq_zero (by omega)
                intro offset removePercent found
                rw [empty] at found
                cases found
            refine ⟨responds, fun offset removePercent found => ?_⟩
            cases offset with
            | zero =>
                cases found
                exact tooLong
            | succ offset =>
                have place : attempt + (offset + 1) = attempt + 1 + offset := by omega
                rw [place]
                exact later offset removePercent found
        · cases exceeded

/-- A summarizer whose context is too small for everything. -/
def tooSmall : Summarizer Unit where
  render _ := .ok ""
  complete _ _ := .error (.contextLengthExceeded "context length exceeded")
  ensureUsageTokens _ _ usage := usage
  applyStructuredSummary message := message

theorem summarize_tooSmall (responds : messages.any hasToolResponse = true) :
    summarize tooSmall messages = .error .exceededAfterRemoval := by
  simp [summarize, summarizeFrom, removalPercentages, tooSmall, responds]

/-- When a summary gives up after the removal of all tool responses, its last attempt, with the last
percentage, was too long without any of them. -/
def ReportsTruthfully (messages : List Message) : Prop :=
  forall (υ : Type) (summarizer : Summarizer υ), summarize summarizer messages = .error .exceededAfterRemoval ->
    Exists fun removePercent => removalPercentages.getLast? = some removePercent ∧
      TooLong summarizer messages (removalPercentages.length - 1) removePercent ∧
      forall message, message ∈ filterToolResponses messages removePercent -> hasToolResponse message = false

theorem reportsTruthfully_iff (some : 1 ≤ messages.countP hasToolResponse) :
    ReportsTruthfully messages ↔ messages.countP hasToolResponse % 2 = 0 := by
  have all : numToRemove (messages.countP hasToolResponse) 100 = messages.countP hasToolResponse := by
    rw [numToRemove, Nat.mul_div_cancel _ (by decide), Nat.max_eq_left some]
  have exactly := filterToolResponses_exact_iff some (by decide : 1 ≤ 100) (Nat.le_refl 100)
  have counted := @countP_filterToolResponses messages 100 (by decide)
  have ordered := Middle.high_sub_low_eq_iff some (Nat.le_refl _)
  rw [all] at exactly counted
  constructor
  · intro truthful
    have responds : messages.any hasToolResponse = true := by
      rw [List.any_eq_true]
      exact List.countP_pos_iff.mp some
    rcases truthful Unit tooSmall (summarize_tooSmall responds) with ⟨removePercent, last, -, none_left⟩
    cases last
    have left : (filterToolResponses messages 100).countP hasToolResponse = 0 := by
      rw [List.countP_eq_zero]
      intro message member responds
      rw [none_left message member] at responds
      cases responds
    omega
  · intro even υ summarizer exceeded
    have failed := (@summarizeFrom_exceeded υ messages summarizer 0 removalPercentages rfl exceeded).2 4 100 rfl
    refine ⟨100, rfl, failed, ?_⟩
    have removed := (exactly.mpr (Or.inl even)).removed
    have left : (filterToolResponses messages 100).countP hasToolResponse = 0 := by omega
    intro message member
    exact Bool.eq_false_iff.mpr (List.countP_eq_zero.mp left message member)

/-! ## Percentages -/

/-- What is promised of a history and a percentage: exactly so many tool responses are removed, no
larger percentage keeps what is removed, and a summary gives up only when none is left. -/
structure RemovesFromMiddle (messages : List Message) (removePercent : Nat) : Prop where
  exact_ : RemovesExactly messages (filterToolResponses messages removePercent)
    (numToRemove (messages.countP hasToolResponse) removePercent)
  monotone : forall larger, removePercent ≤ larger -> larger ≤ 100 ->
    (filterToolResponses messages larger).Sublist (filterToolResponses messages removePercent)

/-- Tool responses are removed as promised exactly where they are an even number, or more than one
of which some are to be kept.  A summary tells the truth about them where they are an even number. -/
theorem removesFromMiddle_iff (messages : List Message) (some : 1 ≤ messages.countP hasToolResponse)
    (removePercent : Nat) (positive : 1 ≤ removePercent) (bounded : removePercent ≤ 100) :
    (RemovesFromMiddle messages removePercent ↔
        messages.countP hasToolResponse % 2 = 0 ∨ (removePercent < 100 ∧ messages.countP hasToolResponse ≠ 1)) ∧
      (ReportsTruthfully messages ↔ messages.countP hasToolResponse % 2 = 0) := by
  refine ⟨?_, reportsTruthfully_iff some⟩
  rw [← filterToolResponses_exact_iff some positive bounded]
  constructor
  · intro removes
    exact removes.exact_
  · intro removes
    exact ⟨removes, fun larger ordered _ => filterToolResponses_anti positive ordered⟩

/-- A message with the response to a call. -/
def answered (id : String) : Message :=
  { Message.user 0 with content := [.toolResponse ⟨id, .ok ⟨[], none, none⟩, none⟩] }

/-- Both of two tool responses are removed. -/
theorem removes_both :
    RemovesFromMiddle [answered "a", answered "b"] 100 ∧ ReportsTruthfully [answered "a", answered "b"] := by
  have exactly := removesFromMiddle_iff [answered "a", answered "b"] (by decide) 100 (by decide) (by decide)
  exact ⟨exactly.1.mpr (by decide), exactly.2.mpr (by decide)⟩

/-- The only tool response is never removed. -/
theorem keeps_single :
    ¬RemovesFromMiddle [answered "a"] 100 ∧ ¬ReportsTruthfully [answered "a"] := by
  have kept : filterToolResponses [answered "a"] 100 = [answered "a"] := by decide
  constructor
  · intro removes
    have removed := removes.exact_.removed
    rw [kept] at removed
    revert removed
    decide
  · intro truthful
    rcases truthful Unit tooSmall (summarize_tooSmall (by decide)) with ⟨removePercent, last, -, none_left⟩
    have whole : removePercent = 100 := (Option.some.inj last).symm
    rw [whole, kept] at none_left
    exact Bool.noConfusion (none_left (answered "a") List.mem_cons_self)

end AIBuddy
