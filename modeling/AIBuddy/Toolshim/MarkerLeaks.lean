import AIBuddy.Toolshim.Augment

namespace AIBuddy
namespace Toolshim

open Occurrences

/-!
# Markup in augmented messages

A message leaves the augmentation in one of several ways, and its texts are cleaned in one
of three.  The check for both dialects leaves nothing marked.  The other two each take out
one dialect only, so that what they leave depends on whether a text has the other one.
-/

/-- No text of a message has markup of tool calls. -/
def Unmarked (message : Message) : Prop :=
  forall text, text ∈ texts message -> hasToolMarkers text = false

/-! ## Blank texts -/

private theorem toLower_of_isWhitespace {character : Char} (space : Text.isWhitespace character = true) :
    character.toLower = character := by
  delta Char.toLower
  split
  case isTrue upper =>
      have low : 65 ≤ character.toNat := upper.1
      have high : character.toNat ≤ 90 := upper.2
      simp only [Text.isWhitespace, Bool.or_eq_true, Bool.and_eq_true, decide_eq_true_eq, beq_iff_eq] at space
      omega
  case isFalse => rfl

theorem occurs_of_blank {text : List Char}
    (blank : forall character, character ∈ text -> Text.isWhitespace character = true) {pattern : List Char}
    (solid : pattern.any (fun character => !Text.isWhitespace character) = true) : occurs pattern text = false := by
  rw [Bool.eq_false_iff, ne_eq, occurs_iff]
  intro inside
  rcases List.any_eq_true.mp solid with ⟨character, member, notSpace⟩
  rw [blank character (inside.subset member)] at notSpace
  contradiction

theorem hasToolMarkers_of_blank {text : String} (blank : Text.isBlank text = true) : hasToolMarkers text = false := by
  have spaces : forall character, character ∈ text.toList -> Text.isWhitespace character = true :=
    List.all_eq_true.mp blank
  have lowered : text.toList.map Char.toLower = text.toList := by
    rw [List.map_congr_left fun character member => toLower_of_isWhitespace (spaces character member), List.map_id']
  have tokens : hasTokenMarkers text = false := by
    have solid : forall marker, marker ∈ tokenMarkers ->
        marker.any (fun character => !Text.isWhitespace character) = true := by
      decide
    rw [hasTokenMarkers, List.any_eq_false]
    intro marker member found
    rw [occurs_of_blank spaces (solid marker member)] at found
    contradiction
  rw [hasToolMarkers, tokens, looksLikeToolDirective, lowered, occurs_of_blank spaces (by decide),
    occurs_of_blank spaces (by decide)]
  rfl

theorem unmarked_of_blank {message : Message} (blank : Text.isBlank (contentOf message) = true) : Unmarked message :=
  fun text member => hasToolMarkers_of_blank (Text.isBlank_of_intercalate blank text member)

/-! ## Three ways to clean a message -/

@[simp] theorem unmarked_retainTexts (message : Message) : Unmarked (retainTexts message) ↔ Unmarked message := by
  unfold Unmarked
  rw [texts_retainTexts]
  constructor
  · intro unmarked text member
    cases blank : Text.isBlank text with
    | true => exact hasToolMarkers_of_blank blank
    | false => exact unmarked text (List.mem_filter.mpr ⟨member, by rw [blank]; rfl⟩)
  · intro unmarked text member
    exact unmarked text (List.mem_of_mem_filter member)

theorem unmarked_mapTexts (change : String -> String) (message : Message) :
    Unmarked (mapTexts change message) ↔
      forall text, text ∈ texts message -> hasToolMarkers (change text) = false := by
  unfold Unmarked
  rw [texts_mapTexts, List.forall_mem_map]

/-- The check for both dialects leaves nothing marked. -/
theorem unmarked_residual (message : Message) : Unmarked (sanitizeResidualMarkers message) := by
  have cleared : Unmarked (mapTexts clearResidual message) :=
    (unmarked_mapTexts _ _).mpr fun text _ => hasToolMarkers_clearResidual text
  rw [sanitizeResidualMarkers]
  split
  · exact (unmarked_retainTexts _).mpr cleared
  · exact cleared

theorem unmarked_tokenized (message : Message) :
    Unmarked (sanitizeMessageAfterTokenizedParse message) ↔
      forall text, text ∈ texts message -> looksLikeToolDirective (stripTokenizedToolMarkup text) = false := by
  rw [sanitizeMessageAfterTokenizedParse, unmarked_retainTexts, unmarked_mapTexts]
  simp only [hasToolMarkers_strip]

theorem unmarked_inline (message : Message) :
    Unmarked (sanitizeMessageAfterJsonToolParse message) ↔
      forall text, text ∈ texts message -> hasTokenMarkers text = true -> looksLikeToolDirective text = true := by
  rw [sanitizeMessageAfterJsonToolParse, unmarked_retainTexts, unmarked_mapTexts]
  apply forall₂_congr
  intro text _
  rw [hasToolMarkers_clearDirective]
  cases hasTokenMarkers text <;> cases looksLikeToolDirective text <;> simp

@[simp] theorem unmarked_append (newId : FreshIds) (message : Message) (toolCalls : List CallToolRequestParams) :
    Unmarked (appendToolCallsToMessage newId message toolCalls) ↔ Unmarked message := by
  have none : (requestBlocks newId toolCalls).filterMap MessageContentBlock.asText = [] := by
    rw [List.filterMap_eq_nil_iff]
    intro block member
    rcases List.mem_map.mp member with ⟨entry, _, same⟩
    rw [← same]
    rfl
  have same : texts (appendToolCallsToMessage newId message toolCalls) = texts message := by
    rw [texts, appendToolCallsToMessage, List.filterMap_append, none, List.append_nil]
    rfl
  rw [Unmarked, same, Unmarked]

/-! ## The ways out -/

/-- The texts of a message have one dialect only, as far as the way that the message takes
cleans the other one: on the way of tokenized calls no text looks like a call in JSON
without the tokens, and on the way of calls in JSON every text with tokens looks like
one. -/
def OneDialect (readers : Readers) (tools : List Tool) (message : Message) : Prop :=
  let direct := parseTokenizedToolCallsWithStatus readers tools (contentOf message)
  if direct.rejectedExecute = true ∨ direct.calls ≠ [] then
    forall text, text ∈ texts message -> looksLikeToolDirective (stripTokenizedToolMarkup text) = false
  else
    parseInlineJsonToolCalls readers.json (contentOf message) tools ≠ [] ->
      forall text, text ∈ texts message -> hasTokenMarkers text = true -> looksLikeToolDirective text = true

instance (readers : Readers) (tools : List Tool) (message : Message) : Decidable (OneDialect readers tools message) := by
  unfold OneDialect
  infer_instance

section Exits

variable {readers : Readers} {newId : FreshIds} {tools : List Tool}

theorem augmentDirectly_unmarked_iff {message augmented : Message} (some : tools ≠ [])
    (returned : augmentDirectly readers newId tools message = .returned augmented) :
    Unmarked augmented ↔ Text.isBlank (contentOf message) = true ∨ OneDialect readers tools message := by
  rw [augmentDirectly, if_neg some] at returned
  split at returned
  case isTrue blank =>
      cases returned
      exact iff_of_true (unmarked_of_blank blank) (Or.inl blank)
  case isFalse solid =>
      rw [or_iff_right solid, OneDialect]
      dsimp only at returned ⊢
      split at returned
      case isTrue rejected =>
          cases returned
          rw [if_pos (Or.inl rejected), unmarked_tokenized]
      case isFalse notRejected =>
          split at returned
          case isTrue calls =>
              cases returned
              rw [if_pos (Or.inr calls), unmarked_append, unmarked_tokenized]
          case isFalse noCalls =>
              rw [if_neg (not_or.mpr ⟨notRejected, noCalls⟩)]
              split at returned
              case isTrue inline =>
                  cases returned
                  rw [unmarked_append, unmarked_inline]
                  exact ⟨fun all _ => all, fun all => all inline⟩
              case isFalse none =>
                  split at returned
                  · cases returned
                    exact iff_of_true (unmarked_residual message) fun inline => absurd inline none
                  · cases returned

theorem oneDialect_of_consults {message : Message} {content : String} (some : tools ≠ [])
    (consults : augmentDirectly readers newId tools message = .consults content) :
    OneDialect readers tools message := by
  rw [augmentDirectly, if_neg some] at consults
  by_cases blank : Text.isBlank (contentOf message) = true
  · rw [if_pos blank] at consults
    cases consults
  · rw [if_neg blank] at consults
    rw [OneDialect]
    dsimp only at consults ⊢
    split at consults
    · cases consults
    case isFalse notRejected =>
        split at consults
        · cases consults
        case isFalse noCalls =>
            rw [if_neg (not_or.mpr ⟨notRejected, noCalls⟩)]
            split at consults
            · cases consults
            case isFalse none => exact fun inline => absurd inline none

/-- Augmented messages are unmarked exactly when they are blank or their texts have one
dialect, whatever the interpreter answers. -/
theorem augment_unmarked_iff {ε : Type} (interpret : String -> List Tool -> Except ε (List CallToolRequestParams))
    (message : Message) (some : tools ≠ []) :
    (forall augmented, augmentMessageWithToolCalls readers newId tools interpret message = .ok augmented ->
        Unmarked augmented) ↔
      Text.isBlank (contentOf message) = true ∨ OneDialect readers tools message := by
  rw [augmentMessageWithToolCalls]
  cases direct : augmentDirectly readers newId tools message with
  | returned augmented =>
      rw [← augmentDirectly_unmarked_iff some direct]
      constructor
      · intro all
        exact all augmented rfl
      · intro unmarked other same
        cases same
        exact unmarked
  | consults content =>
      apply iff_of_true
      · intro augmented returned
        dsimp only at returned
        split at returned
        · cases returned
        · cases returned
          exact unmarked_residual message
        · cases returned
          exact unmarked_residual _
      · exact Or.inr (oneDialect_of_consults some direct)

end Exits

/-- Readers that read nothing but a pair of braces. -/
def plainReaders : Readers where
  json := JsonParser.ofTable [] rfl
  leadingValue := fun _ => none
  leadingValue_shorter := fun read => by cases read
  leadingMembers := fun _ => none
  parseTypeScript := fun _ => none

/-- A stray token is taken out of a text without calls. -/
theorem stray_token_taken_out :
    Exists fun augmented =>
      augmentMessageWithToolCalls plainReaders (fun number => toString number) [⟨"shell"⟩]
          (fun _ _ => (.ok [] : Except String (List CallToolRequestParams)))
          ((Message.assistant 0).withContent (.plainText "done <|tool_call_end|>")) = .ok augmented ∧
        Unmarked augmented := by
  have taken : augmentMessageWithToolCalls plainReaders (fun number => toString number) [⟨"shell"⟩]
      (fun _ _ => (.ok [] : Except String (List CallToolRequestParams)))
      ((Message.assistant 0).withContent (.plainText "done <|tool_call_end|>")) =
        .ok ((Message.assistant 0).withContent (.plainText "done")) := by
    decide +kernel
  exact ⟨_, taken, (augment_unmarked_iff _ _ (by decide)).mpr (Or.inr (by decide +kernel)) _ taken⟩

/-- Behind a rejected call, a text that looks like a call in JSON is left. -/
theorem directive_left_behind_rejected_call :
    Exists fun augmented =>
      augmentMessageWithToolCalls plainReaders (fun number => toString number) [⟨"shell"⟩]
          (fun _ _ => (.ok [] : Except String (List CallToolRequestParams)))
          ((Message.assistant 0).withContent
            (.plainText "<|tool_call_begin|>execute<|tool_call_end|>using tool: shell")) = .ok augmented ∧
        ¬ Unmarked augmented := by
  refine ⟨(Message.assistant 0).withContent (.plainText "execute using tool: shell"), by decide +kernel, ?_⟩
  intro unmarked
  have clean := unmarked "execute using tool: shell" List.mem_cons_self
  exact absurd clean (by decide +kernel)

end Toolshim
end AIBuddy
