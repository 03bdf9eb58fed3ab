import AIBuddy.Session.ChatHistorySearch

namespace AIBuddy
namespace ChatHistorySearch

/-!
# What a search finds

The query and the second filter agree on what the assistant may see.  They differ from a search
without regard to case in two ways: a percent sign or an underscore in a word stands for other
characters, and only ASCII letters of a text are brought to lower case.
-/

open LikePattern

variable (unicode : UnicodeCase) (readable : ToolRequest -> String) (search : Search)

/-! ## What is looked for -/

def visibleText : MessageContentBlock -> Option String
  | .text content => if audienceAdmits content.audience .assistant then some content.text else none
  | _ => none

/-- The texts of a message that the assistant may see. -/
def visibleTexts (row : StoredMessage) : List String :=
  row.message.content.filterMap visibleText

/-- The texts among what is told of a message. -/
def toldTexts (row : StoredMessage) : List String :=
  (row.message.content.filterMap (MessageContentBlock.filterForAudience .assistant)).filterMap MessageContentBlock.asText

def words : List String :=
  Toolshim.splitWhitespace search.query

/-- A word occurs in a text, whatever the case of either. -/
def Contains (word text : String) : Prop :=
  unicode.toLowercase word.toList <:+: unicode.toLowercase text.toList

/-- The pattern of a word is found in a text by the query. -/
def Liked (word text : String) : Prop :=
  like ('%' :: (unicode.toLowercase word.toList ++ ['%'])) (text.toList.map Char.toLower) = true

instance (word text : String) : Decidable (Contains unicode word text) :=
  inferInstanceAs (Decidable (_ <:+: _))

instance (word text : String) : Decidable (Liked unicode word text) :=
  inferInstanceAs (Decidable (_ = true))

/-- A word without marks of patterns. -/
def PlainWord (word : String) : Prop :=
  Plain (unicode.toLowercase word.toList)

/-- Some word of the query stands in a relation to some visible text of a message. -/
def SomeWord (row : StoredMessage) (related : String -> String -> Prop) : Prop :=
  Exists fun text => text ∈ visibleTexts row ∧ Exists fun word => word ∈ words search ∧ related word text

/-- A message that can be found: one for the agent, of the sessions and the time asked for. -/
structure Eligible (row : StoredMessage) : Prop where
  agent : row.message.metadata.agentVisible = true
  lasting : row.message.metadata.turnContext = false
  admitted : admits search row = true

/-- The words with marks find nothing that contains no word, and what contains a word is found by
one with regard to the case of letters beyond ASCII, or by its marks. -/
structure Agrees (row : StoredMessage) : Prop where
  marks : SomeWord search row (fun word text => ¬ PlainWord unicode word ∧ Liked unicode word text) ->
    SomeWord search row (Contains unicode)
  capitals : SomeWord search row (Contains unicode) -> SomeWord search row fun word text =>
    (PlainWord unicode word ∧ unicode.toLowercase word.toList <:+: text.toList.map Char.toLower) ∨
      (¬ PlainWord unicode word ∧ Liked unicode word text)

variable {unicode readable search}

/-! ## The query -/

theorem audienceMatches_text (content : TextContent) :
    audienceMatches (blockJson (.text content)) = audienceAdmits content.audience .assistant := by
  rcases content with ⟨text, _ | ⟨_ | roles⟩⟩
  · rfl
  · rfl
  · have each : forall role : Role, (Json.string (roleName role) = .string "assistant") ↔ role = .assistant := by
      intro role
      cases role <;> decide
    change ((roles.map fun role => Json.string (roleName role)).any fun role => role = .string "assistant") =
      roles.contains .assistant
    rw [List.any_map, Bool.eq_iff_iff, List.any_eq_true, List.contains_iff_mem]
    constructor
    · rintro ⟨role, member, same⟩
      exact (each role).mp (of_decide_eq_true same) ▸ member
    · exact fun member => ⟨.assistant, member, decide_eq_true ((each .assistant).mpr rfl)⟩

theorem contentMatches_iff (keywords : List (List Char)) (block : MessageContentBlock) :
    contentMatches keywords (blockJson block) = true ↔ Exists fun text => visibleText block = some text ∧
      Exists fun keyword => keyword ∈ keywords ∧ like keyword (text.toList.map Char.toLower) = true := by
  cases block with
  | text content =>
      have kind : (blockJson (.text content)).get "type" = some (.string "text") := rfl
      have told : ((blockJson (.text content)).get "text").bind Json.asStr = some content.text := rfl
      rw [contentMatches, kind, told, audienceMatches_text, visibleText]
      cases audienceAdmits content.audience .assistant <;> simp
  | _ => simp [contentMatches, blockJson, typeName, visibleText, Json.get]

theorem rowMatches_iff (row : StoredMessage) :
    rowMatches search (parseKeywords unicode search.query) row = true ↔
      Eligible search row ∧ SomeWord search row (Liked unicode) := by
  have matched : (row.message.content.any fun block =>
      contentMatches (parseKeywords unicode search.query) (blockJson block)) = true ↔
        SomeWord search row (Liked unicode) := by
    simp only [List.any_eq_true, contentMatches_iff, parseKeywords, List.mem_map, SomeWord, visibleTexts, List.mem_filterMap]
    constructor
    · rintro ⟨block, member, text, visible, _, ⟨word, asked, rfl⟩, liked⟩
      exact ⟨text, ⟨block, member, visible⟩, word, asked, liked⟩
    · rintro ⟨text, ⟨block, member, visible⟩, word, asked, liked⟩
      exact ⟨block, member, text, visible, _, ⟨word, asked, rfl⟩, liked⟩
  rw [rowMatches, Bool.and_eq_true, Bool.and_eq_true, Bool.and_eq_true, matched, Bool.not_eq_true']
  constructor
  · rintro ⟨⟨⟨agent, lasting⟩, liked⟩, admitted⟩
    exact ⟨⟨agent, lasting, admitted⟩, liked⟩
  · rintro ⟨⟨agent, lasting, admitted⟩, liked⟩
    exact ⟨⟨⟨agent, lasting⟩, liked⟩, admitted⟩

/-- A word without marks is found where it occurs up to the case of ASCII letters. -/
theorem liked_iff_of_plain {word : String} (plain : PlainWord unicode word) (text : String) :
    Liked unicode word text ↔ unicode.toLowercase word.toList <:+: text.toList.map Char.toLower := by
  have lowered : (unicode.toLowercase word.toList).map Char.toLower = unicode.toLowercase word.toList := by
    refine (List.map_congr_left fun character member => ?_).trans (List.map_id _)
    exact (UnicodeCase.settled_of_mem member).toLower
  have again : (text.toList.map Char.toLower).map Char.toLower = text.toList.map Char.toLower := by
    rw [List.map_map]
    exact List.map_congr_left fun character _ => UnicodeCase.toLower_toLower unicode character
  rw [Liked, like_surrounded_iff plain, lowered, again]

theorem liked_iff_contains_iff (row : StoredMessage) :
    (SomeWord search row (Liked unicode) ↔ SomeWord search row (Contains unicode)) ↔ Agrees unicode search row := by
  constructor
  · intro same
    refine ⟨fun ⟨text, visible, word, asked, _, liked⟩ => same.mp ⟨text, visible, word, asked, liked⟩, fun contains => ?_⟩
    rcases same.mpr contains with ⟨text, visible, word, asked, liked⟩
    refine ⟨text, visible, word, asked, ?_⟩
    by_cases plain : PlainWord unicode word
    · exact Or.inl ⟨plain, (liked_iff_of_plain plain text).mp liked⟩
    · exact Or.inr ⟨plain, liked⟩
  · intro agrees
    constructor
    · rintro ⟨text, visible, word, asked, liked⟩
      by_cases plain : PlainWord unicode word
      · exact ⟨text, visible, word, asked, UnicodeCase.infix_toLowercase ((liked_iff_of_plain plain text).mp liked)⟩
      · exact agrees.marks ⟨text, visible, word, asked, plain, liked⟩
    · intro contains
      rcases agrees.capitals contains with ⟨text, visible, word, asked, ⟨plain, occurs⟩ | ⟨_, liked⟩⟩
      · exact ⟨text, visible, word, asked, (liked_iff_of_plain plain text).mpr occurs⟩
      · exact ⟨text, visible, word, asked, liked⟩

/-! ## What is returned -/

theorem toldTexts_eq (row : StoredMessage) : toldTexts row = visibleTexts row := by
  rw [toldTexts, visibleTexts, List.filterMap_filterMap]
  refine List.filterMap_congr fun block _ => ?_
  cases block with
  | text content =>
      simp only [MessageContentBlock.filterForAudience, visibleText]
      split <;> rfl
  | image content =>
      simp only [MessageContentBlock.filterForAudience, visibleText]
      split <;> rfl
  | toolResponse response =>
      simp only [MessageContentBlock.filterForAudience, visibleText]
      split <;> rfl
  | _ => rfl

theorem textParts_ne_nil {row : StoredMessage} {text : String} (visible : text ∈ visibleTexts row) :
    textParts readable row ≠ [] := by
  rcases List.mem_filterMap.mp visible with ⟨block, member, shown⟩
  cases block with
  | text content =>
      rw [visibleText] at shown
      split at shown
      case isTrue admitted =>
          have kept : MessageContentBlock.filterForAudience .assistant (.text content) = some (.text content) :=
            if_pos admitted
          exact List.ne_nil_of_mem (List.mem_filterMap.mpr
            ⟨.text content, List.mem_filterMap.mpr ⟨.text content, member, kept⟩, rfl⟩)
      case isFalse => contradiction
  | _ => contradiction

theorem mem_found_iff {rows : List StoredMessage}
    (below : (rows.filter (rowMatches search (parseKeywords unicode search.query))).length ≤ search.limit.toNat)
    (row : StoredMessage) : row ∈ found unicode readable search rows ↔
      row ∈ rows ∧ Eligible search row ∧ SomeWord search row (Liked unicode) := by
  have fetched : row ∈ fetchRows search (parseKeywords unicode search.query) rows ↔
      row ∈ rows ∧ rowMatches search (parseKeywords unicode search.query) row = true := by
    rw [fetchRows]
    split
    · rw [List.take_of_length_le (by rw [List.length_mergeSort]; exact below), List.mem_mergeSort, List.mem_filter]
    · rw [List.mem_mergeSort, List.mem_filter]
  rw [found]
  split
  case isTrue none =>
      rw [List.isEmpty_iff, parseKeywords, List.map_eq_nil_iff] at none
      refine ⟨fun member => absurd member List.not_mem_nil, fun ⟨_, _, _, _, word, asked, _⟩ => ?_⟩
      rw [words, none] at asked
      exact absurd asked List.not_mem_nil
  case isFalse =>
      rw [List.mem_filter, fetched, rowMatches_iff]
      refine ⟨fun both => both.1, fun both => ⟨both, ?_⟩⟩
      rcases both.2.2 with ⟨text, visible, _⟩
      simpa using textParts_ne_nil visible

theorem messages_deliver (results : List ChatRecallResult) (row : StoredMessage) :
    (((sessionRule readable).deliver results row).flatMap ChatRecallResult.messages).Perm
      (results.flatMap ChatRecallResult.messages ++ [recalled readable row]) := by
  induction results with
  | nil => exact .refl _
  | cons result rest ih =>
      rw [Gathering.deliver]
      split
      · rw [List.flatMap_cons, List.flatMap_cons, List.append_assoc]
        refine (List.append_assoc ..).symm ▸ (List.Perm.append_left result.messages List.perm_append_comm)
      · rw [List.flatMap_cons, List.flatMap_cons, List.append_assoc]
        exact ih.append_left _

theorem messages_foldl (rows : List StoredMessage) (results : List ChatRecallResult) :
    ((rows.foldl (sessionRule readable).deliver results).flatMap ChatRecallResult.messages).Perm
      (results.flatMap ChatRecallResult.messages ++ rows.map (recalled readable)) := by
  induction rows generalizing results with
  | nil => rw [List.map_nil, List.append_nil, List.foldl_nil]
  | cons row rows ih =>
      rw [List.foldl_cons, List.map_cons, List.append_cons]
      exact (ih _).trans ((messages_deliver results row).append_right _)

theorem execute_messages (rows : List StoredMessage) :
    ((execute unicode readable search rows).flatMap ChatRecallResult.messages).Perm
      ((found unicode readable search rows).map (recalled readable)) := by
  rw [execute]
  exact ((List.mergeSort_perm _ _).flatMap_right _).trans (messages_foldl _ [])

/-- A search that does not reach its limit returns just the messages that contain one of its words
exactly when its patterns agree with the words on every message that can be found. -/
theorem execute_exact_iff (unicode : UnicodeCase) (readable : ToolRequest -> String) (search : Search)
    (rows : List StoredMessage)
    (below : (rows.filter (rowMatches search (parseKeywords unicode search.query))).length ≤ search.limit.toNat) :
    (((execute unicode readable search rows).flatMap ChatRecallResult.messages).Perm
        ((found unicode readable search rows).map (recalled readable)) ∧
      (forall row, row ∈ rows -> toldTexts row = visibleTexts row) ∧
        forall row, row ∈ rows -> (row ∈ found unicode readable search rows ↔
          Eligible search row ∧ SomeWord search row (Contains unicode))) ↔
      forall row, row ∈ rows -> Eligible search row -> Agrees unicode search row := by
  rw [and_iff_right (execute_messages rows), and_iff_right fun row _ => toldTexts_eq row]
  refine forall_congr' fun row => forall_congr' fun member => ?_
  rw [mem_found_iff below, and_iff_right member, ← liked_iff_contains_iff]
  exact and_congr_right_iff

/-! ## One stored message -/

/-- The table of Unicode, as far as ASCII letters and the sigma go. -/
def sampleCase : UnicodeCase where
  lower character := [if character = 'Σ' then 'σ' else character.toLower]
  endsWord _ _ := false
  ascii character small := by
    rw [if_neg]
    rintro rfl
    exact absurd small (by decide)
  settled character result member := by
    have small : forall code : Fin 128, (Char.ofNat code).toLower.toLower = (Char.ofNat code).toLower ∧
        (Char.ofNat code).toLower ≠ 'Σ' := by decide
    rw [List.mem_singleton.mp member]
    by_cases sigma : character = 'Σ'
    · rw [if_pos sigma]
      rfl
    · rw [if_neg sigma]
      by_cases ascii : character.toNat < 128
      · have facts := small ⟨character.toNat, ascii⟩
        rw [Char.ofNat_toNat] at facts
        rw [if_neg facts.2, facts.1]
      · rw [UnicodeCase.toLower_of_large ascii, if_neg sigma, UnicodeCase.toLower_of_large ascii]
  sigma := rfl
  finalSigma := rfl

def sampleSearch (query : String) : Search :=
  ⟨query, 10, none, none, none, []⟩

def sampleRow : StoredMessage :=
  ⟨"s", "user", 0, ⟨none, .user, 0, [.plainText "1000 files"], {}⟩⟩

theorem sample_below (query : String) : ([sampleRow].filter
    (rowMatches (sampleSearch query) (parseKeywords sampleCase query))).length ≤ (sampleSearch query).limit.toNat :=
  (List.length_filter_le _ _).trans (show 1 ≤ (10 : UInt64).toNat by decide)

theorem sample_eligible (query : String) : Eligible (sampleSearch query) sampleRow :=
  ⟨rfl, rfl, rfl⟩

/-- A percent sign in a word finds a message that does not contain it. -/
theorem percent_found : ¬ forall (unicode : UnicodeCase) (readable : ToolRequest -> String) (search : Search)
    (rows : List StoredMessage),
      (rows.filter (rowMatches search (parseKeywords unicode search.query))).length ≤ search.limit.toNat ->
        ((execute unicode readable search rows).flatMap ChatRecallResult.messages).Perm
            ((found unicode readable search rows).map (recalled readable)) ∧
          (forall row, row ∈ rows -> toldTexts row = visibleTexts row) ∧
            forall row, row ∈ rows -> (row ∈ found unicode readable search rows ↔
              Eligible search row ∧ SomeWord search row (Contains unicode)) := by
  intro all
  have exact := (all sampleCase (fun _ => "") (sampleSearch "100%") [sampleRow] (sample_below _)).2.2
  have shown : sampleRow ∈ found sampleCase (fun _ => "") (sampleSearch "100%") [sampleRow] :=
    (mem_found_iff (sample_below _) _).mpr ⟨List.mem_singleton_self _, sample_eligible _,
      "1000 files", List.mem_singleton_self _, "100%", List.mem_singleton_self _, by decide +kernel⟩
  rcases (exact _ (List.mem_singleton_self _)).mp shown with ⟨_, text, visible, word, asked, contains⟩
  have onlyText : text = "1000 files" := List.mem_singleton.mp visible
  have onlyWord : word = "100%" := List.mem_singleton.mp asked
  rw [onlyText, onlyWord] at contains
  exact absurd contains (by decide +kernel)

theorem execute_exact_sample :
    (((execute sampleCase (fun _ => "") (sampleSearch "Files") [sampleRow]).flatMap ChatRecallResult.messages).Perm
        ((found sampleCase (fun _ => "") (sampleSearch "Files") [sampleRow]).map (recalled fun _ => "")) ∧
      (forall row, row ∈ [sampleRow] -> toldTexts row = visibleTexts row) ∧
        forall row, row ∈ [sampleRow] -> (row ∈ found sampleCase (fun _ => "") (sampleSearch "Files") [sampleRow] ↔
          Eligible (sampleSearch "Files") row ∧ SomeWord (sampleSearch "Files") row (Contains sampleCase))) ↔
      forall row, row ∈ [sampleRow] -> Eligible (sampleSearch "Files") row ->
        Agrees sampleCase (sampleSearch "Files") row :=
  execute_exact_iff sampleCase (fun _ => "") (sampleSearch "Files") [sampleRow] (sample_below _)

end ChatHistorySearch
end AIBuddy
