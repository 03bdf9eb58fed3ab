import AIBuddy.Session.ImportedUsage

namespace AIBuddy
namespace ImportFormats

/-!
# Tag characters in imported sessions

Characters of the Unicode tag block are invisible, and the converters drop them from most of what
they import.  One of them does so for everything.  The others pass on what a model thought, the
calls of its tools, or what it searched for.
-/

/-! ## Texts without tags -/

def cleanText (text : String) : Bool :=
  text.toList.all fun character => !(0xE0000 ≤ character.toNat && character.toNat ≤ 0xE007F)

mutual

/-- No key and no text in a value has a tag character. -/
def cleanJson : Json -> Bool
  | .string text => cleanText text
  | .array values => cleanItems values
  | .object members => cleanMembers members
  | _ => true

def cleanItems : List Json -> Bool
  | [] => true
  | value :: rest => cleanJson value && cleanItems rest

def cleanMembers : List (String × Json) -> Bool
  | [] => true
  | (key, value) :: rest => cleanText key && cleanJson value && cleanMembers rest

end

def cleanContent : ContentBlock -> Bool
  | .text content => cleanText content.text
  | .resource ⟨.textResourceContents _ _ text, _⟩ => cleanText text
  | _ => true

def cleanResult : ToolResult CallToolResult -> Bool
  | .ok result => result.content.all cleanContent && (result.structuredContent.map cleanJson).getD true
  | .error error => cleanText error.message

/-- No text, thinking, tool name, argument, result or error in a block has a tag character. -/
def cleanBlock : MessageContentBlock -> Bool
  | .text content => cleanText content.text
  | .thinking content => cleanText content.thinking
  | .toolRequest ⟨_, .ok call, _, _⟩ => cleanText call.name && cleanMembers (call.arguments.getD [])
  | .toolRequest ⟨_, .error error, _, _⟩ => cleanText error.message
  | .toolResponse response => cleanResult response.toolResult
  | _ => true

def CleanMessage (message : Message) : Prop :=
  forall block, block ∈ message.content -> cleanBlock block = true

/-! ## What the sanitizers leave -/

theorem cleanText_strip (text : String) : cleanText (stripUnicodeTags text) = true := by
  rw [cleanText, stripUnicodeTags, String.toList_ofList, List.all_eq_true]
  exact fun character member => (List.mem_filter.mp member).2

theorem cleanText_sanitize (services : Services) (text : String) :
    cleanText (sanitizeUnicodeTags services.codec text) = true :=
  cleanText_strip _

theorem cleanText_intercalate {texts : List String} (clean : forall text, text ∈ texts -> cleanText text = true) :
    cleanText ("\n".intercalate texts) = true := by
  have pieces : forall characters : List (List Char), (forall piece, piece ∈ characters -> piece.all
      (fun character => !(0xE0000 ≤ character.toNat && character.toNat ≤ 0xE007F)) = true) ->
        (['\n'].intercalate characters).all
          (fun character => !(0xE0000 ≤ character.toNat && character.toNat ≤ 0xE007F)) = true := by
    intro characters all
    induction characters with
    | nil => rfl
    | cons first rest ih =>
        have later := ih fun piece member => all piece (List.mem_cons_of_mem _ member)
        by_cases last : rest = []
        · rw [last, List.intercalate_singleton]
          exact all first List.mem_cons_self
        · rw [List.intercalate_cons_of_ne_nil last, List.all_append, List.all_append, later,
            all first List.mem_cons_self]
          rfl
  rw [cleanText, String.toList_intercalate]
  refine pieces _ fun piece member => ?_
  rcases List.mem_map.mp member with ⟨text, inside, rfl⟩
  exact clean text inside

theorem cleanMembers_append (front back : JsonObject) :
    cleanMembers (front ++ back) = true ↔ cleanMembers front = true ∧ cleanMembers back = true := by
  induction front with
  | nil => simp [cleanMembers]
  | cons member rest ih => simp [cleanMembers, ih, and_assoc]

mutual

theorem clean_sanitizeToolArguments : forall (value : Json) {sanitized : Json},
    Responses.sanitizeToolArguments value = .ok sanitized -> cleanJson sanitized = true
  | .string text, _, same => by
      cases same
      exact cleanText_strip text
  | .array values, sanitized, same => by
      rw [Responses.sanitizeToolArguments] at same
      cases items : Responses.sanitizeValues values with
      | error error =>
          rw [items] at same
          contradiction
      | ok items' =>
          rw [items] at same
          cases same
          exact clean_sanitizeValues values items
  | .object members, sanitized, same => by
      rw [Responses.sanitizeToolArguments] at same
      cases fields : Responses.sanitizeMembers [] members with
      | error error =>
          rw [fields] at same
          contradiction
      | ok fields' =>
          rw [fields] at same
          cases same
          exact clean_sanitizeMembers members rfl fields
  | .null, _, same => by
      cases same
      rfl
  | .bool _, _, same => by
      cases same
      rfl
  | .number _, _, same => by
      cases same
      rfl

theorem clean_sanitizeValues : forall (values : List Json) {sanitized : List Json},
    Responses.sanitizeValues values = .ok sanitized -> cleanItems sanitized = true
  | [], _, same => by
      cases same
      rfl
  | value :: rest, sanitized, same => by
      rw [Responses.sanitizeValues] at same
      cases first : Responses.sanitizeToolArguments value with
      | error error =>
          rw [first] at same
          contradiction
      | ok head =>
          cases others : Responses.sanitizeValues rest with
          | error error =>
              rw [first, others] at same
              contradiction
          | ok tail =>
              rw [first, others] at same
              cases same
              rw [cleanItems, clean_sanitizeToolArguments value first, clean_sanitizeValues rest others]
              rfl

theorem clean_sanitizeMembers : forall (members : List (String × Json)) {start sanitized : JsonObject},
    cleanMembers start = true -> Responses.sanitizeMembers start members = .ok sanitized ->
      cleanMembers sanitized = true
  | [], _, _, clean, same => by
      cases same
      exact clean
  | (key, value) :: rest, start, sanitized, clean, same => by
      rw [Responses.sanitizeMembers] at same
      split at same
      · contradiction
      · cases first : Responses.sanitizeToolArguments value with
        | error error =>
            rw [first] at same
            contradiction
        | ok head =>
            rw [first] at same
            refine clean_sanitizeMembers rest ?_ same
            have last : cleanMembers [(stripUnicodeTags key, head)] = true := by
              rw [cleanMembers, cleanText_strip, clean_sanitizeToolArguments value first]
              rfl
            exact (cleanMembers_append _ _).mpr ⟨clean, last⟩

end

theorem cleanMembers_insert {members : JsonObject} {key : String} {value : Json}
    (clean : cleanMembers members = true) (cleanKey : cleanText key = true) (cleanValue : cleanJson value = true) :
    cleanMembers (members.insert key value) = true := by
  induction members with
  | nil =>
      rw [JsonObject.insert, cleanMembers, cleanKey, cleanValue]
      rfl
  | cons member rest ih =>
      rcases member with ⟨present, old⟩
      rw [cleanMembers, Bool.and_eq_true, Bool.and_eq_true] at clean
      rw [JsonObject.insert]
      split
      · rw [cleanMembers, cleanKey, cleanValue, clean.2]
        rfl
      · rw [cleanMembers, clean.1.1, clean.1.2, ih clean.2]
        rfl

mutual

theorem clean_sanitizeJsonStrings (services : Services) : forall value : Json,
    cleanJson (Pi.sanitizeJsonStrings services value) = true
  | .string text => cleanText_sanitize services text
  | .array values => clean_sanitizeItems services values
  | .object members => clean_piMembers services members rfl
  | .null => rfl
  | .bool _ => rfl
  | .number _ => rfl

theorem clean_sanitizeItems (services : Services) : forall values : List Json,
    cleanItems (Pi.sanitizeItems services values) = true
  | [] => rfl
  | value :: rest => by
      rw [Pi.sanitizeItems, cleanItems, clean_sanitizeJsonStrings services value, clean_sanitizeItems services rest]
      rfl

theorem clean_piMembers (services : Services) : forall (members : List (String × Json)) {start : JsonObject},
    cleanMembers start = true -> cleanMembers (Pi.sanitizeMembers services start members) = true
  | [], _, clean => clean
  | (key, value) :: rest, _, clean =>
      clean_piMembers services rest (cleanMembers_insert clean (cleanText_sanitize services key)
        (clean_sanitizeJsonStrings services value))

end

/-! ## Blocks that are sanitized -/

section Blocks

variable (services : Services)

theorem clean_toolResponse (id : String) (text : String) :
    cleanBlock (toolResponse services id (successText text)) = true := by
  change (cleanText _ && true && true) = true
  rw [cleanText_sanitize]
  rfl

theorem clean_buildToolResult (id : String) (blockText : Json -> Option String) (content : Option Json)
    (isError : Bool) (change : String -> String) :
    cleanBlock (toolResponse services id (buildToolResult services blockText content isError change)) = true := by
  cases isError with
  | true => exact cleanText_sanitize services _
  | false => exact clean_toolResponse services id _

theorem messageWith_eq_none_iff (role : Role) (created : Int) (content : List MessageContentBlock) :
    messageWith role created content = none ↔ content = [] := by
  rw [messageWith]
  split <;> simp [*]

theorem cleanMessages_messageWith (role : Role) (created : Int) (content : List MessageContentBlock) :
    (forall message, messageWith role created content = some message -> CleanMessage message) ↔
      forall block, block ∈ content -> cleanBlock block = true := by
  rw [messageWith]
  split
  case isTrue empty =>
      rw [empty]
      exact ⟨fun _ block member => absurd member List.not_mem_nil, fun _ message made => by cases made⟩
  case isFalse =>
      constructor
      · intro clean
        exact clean _ rfl
      · intro clean message made
        cases made
        exact clean

theorem cleanMessages_single {role : Role} {created : Int} {block : MessageContentBlock} {message : Message}
    (member : message ∈ (messageWith role created [block]).toList) (clean : cleanBlock block = true) :
    CleanMessage message := by
  refine (cleanMessages_messageWith role created [block]).mpr (fun other inside => ?_) message
    (Option.mem_toList.mp member)
  rw [List.mem_singleton.mp inside]
  exact clean

end Blocks

/-! ## Claude Code -/

namespace ClaudeCode

/-- What a block passes on as it is has no tag character: thinking, and a call with its arguments. -/
structure CleanBlock (block : Json) : Prop where
  thinking : typeOf block = "thinking" -> cleanText ((textField block "thinking").getD "") = true
  name : typeOf block = "tool_use" -> cleanText ((textField block "name").getD "unknown_tool") = true
  input : typeOf block = "tool_use" -> cleanMembers (((block.get "input").bind asObject).getD []) = true

/-- The blocks of a line. -/
def blocksOf (line : Json) : List Json :=
  (((line.get "message").bind fun message => message.get "content").bind Json.asArray).getD []

def CleanLine (line : Json) : Prop :=
  typeOf line = "assistant" -> forall block, block ∈ blocksOf line -> CleanBlock block

variable (services : Services)

theorem clean_userBlock {block : Json} {made : MessageContentBlock} (converts : userBlock services block = some made) :
    cleanBlock made = true := by
  rw [userBlock] at converts
  split at converts
  case isTrue text =>
      rcases Option.map_eq_some_iff.mp converts with ⟨text, _, rfl⟩
      exact cleanText_sanitize services text
  case isFalse noText =>
      split at converts
      case isTrue =>
          cases converts
          exact clean_buildToolResult services _ _ _ _ _
      case isFalse =>
          split at converts
          case isTrue =>
              rcases Option.bind_eq_some_iff.mp converts with ⟨data, _, named⟩
              rcases Option.map_eq_some_iff.mp named with ⟨mime, _, rfl⟩
              rfl
          case isFalse => contradiction

theorem clean_assistantBlock_iff (block : Json) :
    (forall made, assistantBlock services block = some made -> cleanBlock made = true) ↔ CleanBlock block := by
  rw [assistantBlock]
  by_cases text : typeOf block = "text"
  · rw [if_pos text]
    constructor
    · intro _
      refine ⟨fun other => ?_, fun other => ?_, fun other => ?_⟩ <;>
        exact absurd (text.symm.trans other) (by decide)
    · intro _ made converts
      rcases Option.map_eq_some_iff.mp converts with ⟨text, _, rfl⟩
      exact cleanText_sanitize services text
  · rw [if_neg text]
    by_cases thinks : typeOf block = "thinking"
    · rw [if_pos thinks]
      have other : typeOf block ≠ "tool_use" := fun calls => absurd (thinks.symm.trans calls) (by decide)
      constructor
      · intro clean
        refine ⟨fun _ => ?_, fun calls => absurd calls other, fun calls => absurd calls other⟩
        by_cases empty : (textField block "thinking").getD "" = ""
        · rw [empty]
          rfl
        · exact clean _ (if_neg empty)
      · intro clean made converts
        by_cases empty : (textField block "thinking").getD "" = ""
        · rw [if_pos empty] at converts
          contradiction
        · rw [if_neg empty] at converts
          cases converts
          exact clean.thinking thinks
    · rw [if_neg thinks]
      by_cases calls : typeOf block = "tool_use"
      · rw [if_pos calls]
        constructor
        · intro clean
          have parts := (Bool.and_eq_true ..).mp (clean _ rfl)
          exact ⟨fun other => absurd other thinks, fun _ => parts.1, fun _ => parts.2⟩
        · intro clean made converts
          cases converts
          exact (Bool.and_eq_true ..).mpr ⟨clean.name calls, clean.input calls⟩
      · rw [if_neg calls]
        exact ⟨fun _ => ⟨fun other => absurd other thinks, fun other => absurd other calls,
          fun other => absurd other calls⟩, fun _ made converts => by cases converts⟩

theorem clean_convertLine_iff (line : Json) :
    (forall message, convertLine services line = some message -> CleanMessage message) ↔ CleanLine line := by
  rw [convertLine, CleanLine]
  by_cases user : typeOf line = "user"
  · have other : typeOf line ≠ "assistant" := fun speaks => absurd (user.symm.trans speaks) (by decide)
    rw [if_pos user]
    refine ⟨fun _ speaks => absurd speaks other, fun _ message converts => ?_⟩
    rw [convertUserMessage] at converts
    rcases Option.bind_eq_some_iff.mp converts with ⟨content, _, made⟩
    refine (cleanMessages_messageWith .user _ _).mpr (fun block member => ?_) message made
    cases content with
    | string text =>
        rw [List.mem_singleton.mp member]
        exact cleanText_sanitize services text
    | array blocks =>
        rcases List.mem_filterMap.mp member with ⟨original, _, converted⟩
        exact clean_userBlock services converted
    | null => cases member
    | bool => cases member
    | number => cases member
    | object => cases member
  · rw [if_neg user]
    by_cases speaks : typeOf line = "assistant"
    · rw [if_pos speaks, convertAssistantMessage, blocksOf]
      cases ((line.get "message").bind fun message => message.get "content").bind Json.asArray with
      | none =>
          exact ⟨fun _ _ block member => absurd member List.not_mem_nil, fun _ message converts => by cases converts⟩
      | some blocks =>
          rw [Option.bind_some, cleanMessages_messageWith, Option.getD_some]
          constructor
          · intro clean _ block member
            refine (clean_assistantBlock_iff services block).mp fun made converts => ?_
            exact clean made (List.mem_filterMap.mpr ⟨block, member, converts⟩)
          · intro clean made member
            rcases List.mem_filterMap.mp member with ⟨block, inside, converts⟩
            exact (clean_assistantBlock_iff services block).mpr (clean speaks block inside) made converts
    · rw [if_neg speaks]
      exact ⟨fun _ other => absurd other speaks, fun _ message converts => by cases converts⟩

end ClaudeCode

/-! ## Codex -/

namespace Codex

variable (services : Services)

/-- A line records a search that the decoder of responses does not know. -/
structure Searches (line payload : Json) : Prop where
  item : typeOf line = "response_item"
  held : line.get "payload" = some payload
  program : ¬ (textField payload "role" = some "developer" ∨ textField payload "role" = some "system")
  model : textField payload "role" ≠ some "user"
  unknown : ((services.readOutputItem payload).bind (responsesApiToMessage services)).getD [] = []
  search : typeOf payload = "web_search_call"

def CleanLine (line : Json) : Prop :=
  forall payload, Searches services line payload -> cleanMembers (searchArguments payload) = true

variable {services}

theorem clean_nonemptyText {text : String} {build : String -> MessageContentBlock} {block : MessageContentBlock}
    (member : block ∈ nonemptyText services text build)
    (clean : cleanBlock (build (sanitizeUnicodeTags services.codec text)) = true) : cleanBlock block = true := by
  rw [nonemptyText] at member
  split at member
  · cases member
  · rw [List.mem_singleton.mp member]
    exact clean

theorem cleanMembers_toObject {value : Json} (clean : cleanJson value = true) : cleanMembers value.toObject = true := by
  cases value with
  | object members => exact clean
  | _ => rfl

theorem clean_decodeParts {parts : List ResponseContentBlock} {seenIds : List String}
    {content : List MessageContentBlock} (decoded : decodeParts services seenIds parts = some content)
    {block : MessageContentBlock} (member : block ∈ content) : cleanBlock block = true := by
  induction parts generalizing seenIds content with
  | nil =>
      cases decoded
      cases member
  | cons part rest ih =>
      have textPart : forall {text} (build : String -> MessageContentBlock),
          cleanBlock (build (sanitizeUnicodeTags services.codec text)) = true ->
            (decodeParts services seenIds rest).map (nonemptyText services text build ++ ·) = some content ->
              cleanBlock block = true := by
        intro text build clean decodes
        rcases Option.map_eq_some_iff.mp decodes with ⟨others, decodedRest, rfl⟩
        rcases List.mem_append.mp member with here | inside
        · exact clean_nonemptyText here clean
        · exact ih decodedRest inside
      cases part with
      | toolCall id name input =>
          rcases Option.bind_eq_some_iff.mp decoded with ⟨seen, _, later⟩
          rcases Option.bind_eq_some_iff.mp later with ⟨arguments, sanitized, others⟩
          rcases Option.map_eq_some_iff.mp others with ⟨content, decodedRest, rfl⟩
          rcases List.mem_cons.mp member with rfl | inside
          · have clean : cleanJson arguments = true := by
              cases result : Responses.sanitizeToolArguments input with
              | error error =>
                  rw [result] at sanitized
                  contradiction
              | ok value =>
                  rw [result] at sanitized
                  cases sanitized
                  exact clean_sanitizeToolArguments input result
            exact (Bool.and_eq_true ..).mpr ⟨cleanText_strip name, cleanMembers_toObject clean⟩
          · exact ih decodedRest inside
      | outputText text => exact textPart .plainText (cleanText_sanitize services text) decoded
      | refusal text => exact textPart .plainText (cleanText_sanitize services text) decoded
      | reasoningText text => exact textPart (fun clean => .thinking ⟨clean, ""⟩) (cleanText_sanitize services text) decoded

theorem clean_parseToolArguments {arguments : String} {value : Json}
    (parsed : Responses.parseToolArguments services.json arguments = .ok value) : cleanJson value = true := by
  rw [Responses.parseToolArguments] at parsed
  split at parsed
  · cases parsed
    rfl
  · split at parsed
    · exact clean_sanitizeToolArguments _ parsed
    · cases parsed
      rfl

theorem clean_responsesApiToMessage {item : ResponseOutputItem} {content : List MessageContentBlock}
    (decoded : responsesApiToMessage services item = some content) {block : MessageContentBlock}
    (member : block ∈ content) : cleanBlock block = true := by
  cases item with
  | reasoning summary =>
      cases decoded
      rw [Responses.reasoningFromSummary] at member
      split at member
      · cases member
      · rw [List.mem_singleton.mp member]
        refine cleanText_intercalate fun text inside => ?_
        rcases List.mem_map.mp inside with ⟨original, _, rfl⟩
        exact cleanText_sanitize services original
  | message parts => exact clean_decodeParts decoded member
  | functionCall id callId name arguments =>
      rcases Option.bind_eq_some_iff.mp decoded with ⟨requestId, _, later⟩
      rcases Option.map_eq_some_iff.mp later with ⟨parsed, result, rfl⟩
      rw [List.mem_singleton.mp member]
      cases read : Responses.parseToolArguments services.json arguments with
      | error error =>
          rw [read] at result
          contradiction
      | ok value =>
          rw [read] at result
          cases result
          exact (Bool.and_eq_true ..).mpr ⟨cleanText_strip name, cleanMembers_toObject (clean_parseToolArguments read)⟩

theorem clean_ownItem_iff (created : Int) (place : Nat) (payload : Json) :
    (forall message, message ∈ ownItem services created place payload -> CleanMessage message) ↔
      (typeOf payload = "web_search_call" -> cleanMembers (searchArguments payload) = true) := by
  rw [ownItem]
  by_cases output : typeOf payload = "function_call_output"
  · rw [if_pos output]
    refine ⟨fun _ search => absurd (output.symm.trans search) (by decide), fun _ message member => ?_⟩
    exact cleanMessages_single member (clean_toolResponse services _ _)
  · rw [if_neg output]
    by_cases search : typeOf payload = "web_search_call"
    · rw [if_pos search]
      constructor
      · intro clean _
        have request := clean _ (List.mem_append_left _ (Option.mem_toList.mpr rfl)) _ List.mem_cons_self
        exact ((Bool.and_eq_true ..).mp request).2
      · intro clean message member
        rcases List.mem_append.mp member with asks | answers
        · have named : cleanText "web_search" = true := by decide +kernel
          exact cleanMessages_single asks ((Bool.and_eq_true ..).mpr ⟨named, clean search⟩)
        · exact cleanMessages_single answers (clean_toolResponse services _ _)
    · rw [if_neg search]
      exact ⟨fun _ other => absurd other search, fun _ message member => absurd member List.not_mem_nil⟩

theorem clean_convertLine_iff (place : Nat) (line : Json) :
    (forall message, message ∈ convertLine services place line -> CleanMessage message) ↔
      CleanLine services line := by
  rw [convertLine, CleanLine]
  by_cases item : typeOf line = "response_item"
  · rw [if_pos item]
    cases held : line.get "payload" with
    | none =>
        refine ⟨fun _ payload searches => ?_, fun _ message member => absurd member List.not_mem_nil⟩
        exact absurd (held.symm.trans searches.held).symm (Option.some_ne_none _)
    | some payload =>
        have only : forall {other}, Searches services line other -> other = payload := by
          intro other searches
          exact Option.some.inj (searches.held.symm.trans held)
        by_cases program : textField payload "role" = some "developer" ∨ textField payload "role" = some "system"
        · simp only [if_pos program]
          refine ⟨fun _ other searches => ?_, fun _ message member => absurd member List.not_mem_nil⟩
          exact absurd (only searches ▸ program) searches.program
        · simp only [if_neg program]
          by_cases user : textField payload "role" = some "user"
          · simp only [if_pos user]
            refine ⟨fun _ other searches => absurd (only searches ▸ user) searches.model, fun _ message member => ?_⟩
            rcases Option.bind_eq_some_iff.mp (Option.mem_toList.mp member) with ⟨text, _, made⟩
            exact cleanMessages_single (Option.mem_toList.mpr made) (cleanText_sanitize services text)
          · simp only [if_neg user]
            cases known : ((services.readOutputItem payload).bind (responsesApiToMessage services)).bind
                (messageWith .assistant (createdAt services line)) with
            | none =>
                have unknown : ((services.readOutputItem payload).bind (responsesApiToMessage services)).getD [] = [] := by
                  cases decoded : (services.readOutputItem payload).bind (responsesApiToMessage services) with
                  | none => rfl
                  | some content =>
                      rw [decoded] at known
                      exact (messageWith_eq_none_iff ..).mp known
                rw [clean_ownItem_iff]
                exact ⟨fun clean other searches => only searches ▸ clean (only searches ▸ searches.search),
                  fun clean search => clean payload ⟨item, held, program, user, unknown, search⟩⟩
            | some message =>
                rcases Option.bind_eq_some_iff.mp known with ⟨content, decoded, made⟩
                rcases Option.bind_eq_some_iff.mp decoded with ⟨read, _, decodes⟩
                constructor
                · intro _ other searches
                  have unknown := searches.unknown
                  rw [only searches, decoded, Option.getD_some] at unknown
                  exact absurd (made.symm.trans ((messageWith_eq_none_iff ..).mpr unknown)) (Option.some_ne_none _)
                · intro _ other member
                  rw [List.mem_singleton.mp member]
                  exact (cleanMessages_messageWith .assistant _ content).mpr
                    (fun block inside => clean_responsesApiToMessage decodes inside) message made
  · rw [if_neg item]
    exact ⟨fun _ payload searches => absurd searches.item item, fun _ message member => absurd member List.not_mem_nil⟩

end Codex

/-! ## Pi -/

namespace Pi

variable (services : Services)

theorem clean_userContent (content : Option Json) {block : MessageContentBlock}
    (member : block ∈ userContent services content) : cleanBlock block = true := by
  unfold userContent at member
  split at member
  · rw [List.mem_singleton.mp member]
    exact cleanText_sanitize services _
  · rcases List.mem_filterMap.mp member with ⟨original, _, converts⟩
    rw [userBlock] at converts
    split at converts
    · rcases Option.map_eq_some_iff.mp converts with ⟨text, _, rfl⟩
      exact cleanText_sanitize services text
    · split at converts
      · rcases Option.bind_eq_some_iff.mp converts with ⟨data, _, named⟩
        rcases Option.map_eq_some_iff.mp named with ⟨mime, _, rfl⟩
        rfl
      · contradiction
  · cases member

theorem clean_assistantContent (content : Option Json) {block : MessageContentBlock}
    (member : block ∈ assistantContent services content) : cleanBlock block = true := by
  unfold assistantContent at member
  split at member
  · rw [List.mem_singleton.mp member]
    exact cleanText_sanitize services _
  · rcases List.mem_filterMap.mp member with ⟨original, _, converts⟩
    rw [assistantBlock] at converts
    split at converts
    · rcases Option.map_eq_some_iff.mp converts with ⟨text, _, rfl⟩
      exact cleanText_sanitize services text
    · split at converts
      · rcases Option.map_eq_some_iff.mp converts with ⟨thinking, _, rfl⟩
        exact cleanText_sanitize services thinking
      · split at converts
        · cases converts
          exact (Bool.and_eq_true ..).mpr ⟨cleanText_sanitize services _, clean_piMembers services _ rfl⟩
        · contradiction
  · cases member

theorem clean_bashExecution (created : Int) (place : Nat) (inner : Json) {message : Message}
    (member : message ∈ bashExecution services created place inner) : CleanMessage message := by
  rcases List.mem_append.mp member with asks | answers
  · have named : cleanText "bash" = true := by decide +kernel
    have keyed : cleanText "command" = true := by decide +kernel
    refine cleanMessages_single asks ((Bool.and_eq_true ..).mpr ⟨named, ?_⟩)
    exact (Bool.and_eq_true ..).mpr ⟨(Bool.and_eq_true ..).mpr ⟨keyed, cleanText_sanitize services _⟩, rfl⟩
  · exact cleanMessages_single answers (clean_toolResponse services _ _)

theorem clean_convertEntry (place : Nat) (entry : Json) {message : Message}
    (member : message ∈ convertEntry services place entry) : CleanMessage message := by
  rw [convertEntry] at member
  cases held : innerOf entry with
  | none =>
      rw [held] at member
      cases member
  | some inner =>
      simp only [held] at member
      split at member
      · exact (cleanMessages_messageWith ..).mpr (fun block inside => clean_userContent services _ inside) message
          (Option.mem_toList.mp member)
      · split at member
        · exact (cleanMessages_messageWith ..).mpr (fun block inside => clean_assistantContent services _ inside)
            message (Option.mem_toList.mp member)
        · split at member
          · exact cleanMessages_single member (clean_buildToolResult services _ _ _ _ _)
          · split at member
            · exact clean_bashExecution services _ place inner member
            · rcases Option.bind_eq_some_iff.mp (Option.mem_toList.mp member) with ⟨summary, _, made⟩
              exact cleanMessages_single (Option.mem_toList.mpr made) (cleanText_sanitize services _)

end Pi

/-! ## Transcripts -/

namespace ForeignFormat

/-- What a converter passes on from a transcript as it is has no tag character. -/
def CleanTranscript (services : Services) (content : String) : ForeignFormat -> Prop
  | .claudeCode => forall line, line ∈ jsonLines services content -> ClaudeCode.CleanLine line
  | .codex => forall line, line ∈ jsonLines services content -> Codex.CleanLine services line
  | .pi => True

theorem forall_mem_flatMap_zipIdx {α β : Type} (items : List α) (make : Nat -> α -> List β) {good : β -> Prop}
    {fine : α -> Prop} (each : forall place item, (forall made, made ∈ make place item -> good made) ↔ fine item) :
    (forall made, made ∈ items.zipIdx.flatMap (fun entry => make entry.2 entry.1) -> good made) ↔
      forall item, item ∈ items -> fine item := by
  constructor
  · intro all item member
    rw [← List.zipIdx_map_fst 0 items] at member
    rcases List.mem_map.mp member with ⟨entry, inside, rfl⟩
    refine (each entry.2 entry.1).mp fun made here => ?_
    exact all made (List.mem_flatMap.mpr ⟨entry, inside, here⟩)
  · intro all made member
    rcases List.mem_flatMap.mp member with ⟨entry, inside, here⟩
    exact (each entry.2 entry.1).mpr (all entry.1 (List.fst_mem_of_mem_zipIdx inside)) made here

theorem withTotals_ok {build : Totals -> ImportedSession} {totals : Option Totals} {imported : ImportedSession}
    (built : withTotals build totals = .ok imported) : Exists fun totals => imported = build totals := by
  cases totals with
  | none => cases built
  | some totals =>
      cases built
      exact ⟨totals, rfl⟩

/-- An imported conversation has no tag characters exactly when what is passed on has none. -/
theorem imported_clean_iff (services : Services) (content : String) (format : ForeignFormat)
    {imported : ImportedSession} (converted : format.convert services content = .ok imported) :
    (forall message, message ∈ imported.conversation -> CleanMessage message) ↔
      format.CleanTranscript services content := by
  cases format with
  | claudeCode =>
      rw [convert, ClaudeCode.convert] at converted
      split at converted
      · cases converted
      · rcases withTotals_ok converted with ⟨totals, rfl⟩
        have all := fun line => ClaudeCode.clean_convertLine_iff services line
        constructor
        · intro clean line member
          exact (all line).mp fun message made => clean message (List.mem_filterMap.mpr ⟨line, member, made⟩)
        · intro clean message member
          rcases List.mem_filterMap.mp member with ⟨line, inside, made⟩
          exact (all line).mpr (clean line inside) message made
  | codex =>
      rw [convert, Codex.convert] at converted
      split at converted
      · cases converted
      · rcases withTotals_ok converted with ⟨totals, rfl⟩
        exact forall_mem_flatMap_zipIdx _ _ fun place line => Codex.clean_convertLine_iff place line
  | pi =>
      rw [convert, Pi.convert] at converted
      refine ⟨fun _ => trivial, fun _ message member => ?_⟩
      split at converted
      · cases converted
      · split at converted
        · cases converted
        · split at converted
          · cases converted
          · rcases withTotals_ok converted with ⟨totals, rfl⟩
            rcases List.mem_flatMap.mp member with ⟨entry, _, here⟩
            exact Pi.clean_convertEntry services _ _ here

/-- A call that runs a command with an invisible character. -/
def taggedLine (text : String) : Json :=
  .object [("type", .string "assistant"), ("message", .object
    [("content", .array [.object [("type", .string "tool_use"), ("name", .string "shell"),
      ("input", .object [("command", .string text)])]])])]

def taggedServices (text : String) : Services :=
  { sampleServices 0 with json := .ofTable [("a", taggedLine text)] rfl }

/-- The character that stands for an invisible A. -/
def tagText : String :=
  String.ofList [Char.ofNat 0xE0041]

theorem imported_tag : Exists fun imported => claudeCode.convert (taggedServices tagText) "a" = .ok imported ∧
    Exists fun message => message ∈ imported.conversation ∧ ¬ CleanMessage message := by
  refine ⟨ClaudeCode.session (taggedServices tagText) [taggedLine tagText] ⟨0, 0, 0, 0⟩, rfl,
    ⟨none, .assistant, 0, [toolRequest "" "shell" [("command", .string tagText)]], {}⟩, List.mem_cons_self, ?_⟩
  intro clean
  exact absurd (clean _ List.mem_cons_self) (by decide +kernel)

theorem imported_clean_sample : (forall message,
      message ∈ (ClaudeCode.session (taggedServices "ls") [taggedLine "ls"] ⟨0, 0, 0, 0⟩).conversation ->
        CleanMessage message) ↔
    claudeCode.CleanTranscript (taggedServices "ls") "a" :=
  imported_clean_iff (taggedServices "ls") "a" .claudeCode (by rfl)

end ForeignFormat

end ImportFormats
end AIBuddy
