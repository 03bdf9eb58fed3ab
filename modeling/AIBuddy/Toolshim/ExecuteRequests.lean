import AIBuddy.Toolshim.ExecuteGuard

namespace AIBuddy
namespace Toolshim

open Occurrences StringLiteral

/-!
# What becomes of a request for code execution

A block mentions code execution in a word of its header, in a name inside of JSON arguments,
or in a word or a name of arguments that are no JSON.  It is handled when it becomes one
shell call with the literal command of its code, or when the message is returned without
calls.  This is compared with what the scanners catch.
-/

def isBrace (character : Char) : Bool :=
  character == '\x7b' || character == '\x7d'

section Blocks

variable (readers : Readers) (tools : List Tool)

/-- Whether arguments mention code execution: JSON in the value of a key `name` at any depth, and
other texts in a word between braces or in such a value of JSON that begins anywhere in them. -/
def MentionsIn (arguments : String) : Prop :=
  if (readers.json.value? arguments).isSome = true then
    rawArgumentsContainStructuredUnresolvedExecuteAlias readers tools arguments = true
  else
    (Exists fun stretch => stretch ∈ splitBy isBrace arguments.toList ∧
        containsUnresolvedExecuteAlias (String.ofList stretch) tools = true) ∨
      Exists fun before => Exists fun rest => arguments = before ++ rest ∧
        rawArgumentsContainStructuredUnresolvedExecuteAlias readers tools rest = true

/-- Whether a block mentions code execution that is not on offer. -/
def Mentions (block : Block) : Prop :=
  containsUnresolvedExecuteAlias block.split.1 tools = true ∨
    Exists fun arguments => block.split.2 = some arguments ∧ MentionsIn readers tools arguments

/-- What the scanners find in the arguments of a block. -/
def CaughtIn (block : Block) (arguments : String) : Prop :=
  match block with
  | .terminated _ =>
      (readers.json.value? arguments).isSome = true ∨
        rawArgumentsContainStructuredUnresolvedExecuteAlias readers tools arguments = true ∨
          match parseJsonValueTolerant readers.json arguments with
          | some value => containsStructuredUnresolvedExecuteAlias tools value = true
          | none => malformedArgumentsContainUnresolvedExecuteAlias readers tools arguments = true
  | .unterminated _ => malformedArgumentsContainUnresolvedExecuteAlias readers tools arguments = true

/-- A block that mentions code execution where one of the scanners looks: in the header, in JSON
arguments, in the value of arguments whose backslashes are repaired, in the JSON value that
arguments begin with, or where the scan of malformed arguments finds it. -/
def Caught (block : Block) : Prop :=
  containsUnresolvedExecuteAlias block.split.1 tools = true ∨
    Exists fun arguments => block.split.2 = some arguments ∧ CaughtIn readers tools block arguments

/-- The name and the value that a block offers for a shell call. -/
def executeCall (block : Block) : Option (String × Json) :=
  match block.split with
  | (_, none) => none
  | (header, some arguments) =>
      match block with
      | .unterminated _ => none
      | .terminated _ =>
          (parseJsonValueTolerant readers.json arguments).bind fun value =>
            if containsUnresolvedExecuteAlias header tools then some (header, value)
            else
              (((value.get "name").bind Json.asStr).filter fun name => containsUnresolvedExecuteAlias name tools).bind
                fun name => (value.get "arguments").map fun inner => (name, inner)

/-- The calls of blocks. -/
def callsOfBlocks (blocks : List Block) : List CallToolRequestParams :=
  blocks.filterMap fun block => (verdict readers tools block).toolCall

end Blocks

/-! ## Verdicts -/

section Verdicts

variable {readers : Readers} {tools : List Tool} {block : Block}

theorem structured_of_name {value : Json} {name : String}
    (named : ((value.get "name").bind Json.asStr).filter (fun name => containsUnresolvedExecuteAlias name tools) =
      some name) : containsStructuredUnresolvedExecuteAlias tools value = true := by
  rcases Option.filter_eq_some_iff.mp named with ⟨found, resolved⟩
  cases value with
  | object fields =>
      rw [containsStructuredUnresolvedExecuteAlias, namesExecute, found]
      dsimp only
      rw [resolved, Bool.true_or]
  | _ => cases found

theorem rejectedIf_eq_ignored_iff (mentioned : Bool) : Verdict.rejectedIf mentioned = .ignored ↔ mentioned = false := by
  cases mentioned with
  | true => exact iff_of_false (fun same => by cases same) (by decide)
  | false => exact iff_of_true rfl rfl

theorem ofConversion_ne_ignored (converted : Option CallToolRequestParams) : Verdict.ofConversion converted ≠ .ignored := by
  intro same
  cases converted <;> cases same

theorem value?_of_tolerant_none {json : JsonParser} {arguments : String}
    (unread : parseJsonValueTolerant json arguments = none) : (json.value? arguments).isSome = false := by
  rw [parseJsonValueTolerant] at unread
  cases strict : json.value? arguments with
  | none => rfl
  | some value =>
      rw [strict] at unread
      cases unread

theorem not_ignored_of_header {header : String} (mentioned : containsUnresolvedExecuteAlias header tools = true)
    (arguments : String) : verdictOfArguments readers tools header arguments ≠ .ignored := by
  rw [verdictOfArguments]
  cases parseJsonValueTolerant readers.json arguments with
  | none =>
      rw [mentioned, Bool.true_or, Bool.true_or]
      exact fun ignored => by cases ignored
  | some value =>
      dsimp only
      rw [verdictOfValue, if_pos mentioned]
      exact ofConversion_ne_ignored _

theorem verdictOfArguments_ignored_iff {header arguments : String} {body : List Char}
    (unresolved : resolveToolName header tools = none) (plain : containsUnresolvedExecuteAlias header tools = false)
    (mentions : MentionsIn readers tools arguments) :
    verdictOfArguments readers tools header arguments = .ignored ↔
      ¬ CaughtIn readers tools (.terminated body) arguments := by
  rw [verdictOfArguments, CaughtIn]
  cases read : parseJsonValueTolerant readers.json arguments with
  | none =>
      dsimp only
      rw [plain, Bool.false_or, rejectedIf_eq_ignored_iff, Bool.or_eq_false_iff, value?_of_tolerant_none read]
      simp
  | some value =>
      dsimp only
      rw [verdictOfValue, plain, if_neg Bool.false_ne_true, unresolved]
      dsimp only
      cases named : ((value.get "name").bind Json.asStr).filter
          (fun name => containsUnresolvedExecuteAlias name tools) with
      | some name =>
          apply iff_of_false (ofConversion_ne_ignored _)
          exact not_not_intro (Or.inr (Or.inr (structured_of_name named)))
      | none =>
          dsimp only
          rw [rejectedIf_eq_ignored_iff, Bool.or_eq_false_iff]
          cases strict : (readers.json.value? arguments).isSome with
          | true =>
              rw [MentionsIn, if_pos strict] at mentions
              rw [mentions]
              simp
          | false =>
              simp [and_comm]

theorem verdict_ignored_iff (unresolved : resolveToolName block.split.1 tools = none)
    (mentions : Mentions readers tools block) :
    verdict readers tools block = .ignored ↔ ¬ Caught readers tools block := by
  rw [Mentions] at mentions
  rw [verdict, Caught]
  rcases same : block.split with ⟨header, arguments⟩
  rw [same] at unresolved mentions
  dsimp only at unresolved mentions ⊢
  cases mentioned : containsUnresolvedExecuteAlias header tools with
  | true =>
      apply iff_of_false _ (not_not_intro (Or.inl rfl))
      cases arguments with
      | none =>
          dsimp only
          rw [mentioned]
          exact fun ignored => by cases ignored
      | some text =>
          cases block with
          | terminated body => exact not_ignored_of_header mentioned text
          | unterminated body =>
              dsimp only
              rw [mentioned, Bool.true_or]
              exact fun ignored => by cases ignored
  | false =>
      rw [mentioned, or_iff_right Bool.false_ne_true] at mentions
      rcases mentions with ⟨text, given, inside⟩
      rw [given]
      dsimp only
      have caught : (false = true ∨ Exists fun other => some text = some other ∧ CaughtIn readers tools block other) ↔
          CaughtIn readers tools block text := by
        simp
      rw [caught]
      cases block with
      | terminated body => exact verdictOfArguments_ignored_iff unresolved mentioned inside
      | unterminated body =>
          rw [CaughtIn, mentioned, rejectedIf_eq_ignored_iff, Bool.false_or, Bool.not_eq_true]

theorem rejectedIf_ne_call (mentioned : Bool) (toolCall : CallToolRequestParams) :
    Verdict.rejectedIf mentioned ≠ .call toolCall := by
  intro same
  cases mentioned <;> cases same

theorem ofConversion_eq_call_iff (converted : Option CallToolRequestParams) (toolCall : CallToolRequestParams) :
    Verdict.ofConversion converted = .call toolCall ↔ converted = some toolCall := by
  cases converted with
  | none => exact iff_of_false (fun same => by cases same) (fun same => by cases same)
  | some other => rw [Verdict.ofConversion, Verdict.call.injEq, Option.some_inj]

theorem verdict_call (unresolved : resolveToolName block.split.1 tools = none) {toolCall : CallToolRequestParams}
    (called : verdict readers tools block = .call toolCall) :
    Exists fun name => Exists fun value => executeCall readers tools block = some (name, value) ∧
      maybeConvertExecuteToShellToolCall readers tools name value = some toolCall := by
  rw [verdict] at called
  rcases same : block.split with ⟨header, arguments⟩
  rw [same] at unresolved called
  cases arguments with
  | none => exact absurd called (rejectedIf_ne_call _ _)
  | some text =>
      cases block with
      | unterminated body => exact absurd called (rejectedIf_ne_call _ _)
      | terminated body =>
          dsimp only at unresolved called
          rw [verdictOfArguments] at called
          cases read : parseJsonValueTolerant readers.json text with
          | none =>
              rw [read] at called
              exact absurd called (rejectedIf_ne_call _ _)
          | some value =>
              rw [read] at called
              dsimp only at called
              rw [executeCall, same]
              dsimp only
              rw [read, Option.bind_some]
              rw [verdictOfValue] at called
              split at called
              case isTrue mentioned =>
                  rw [if_pos mentioned]
                  exact ⟨header, value, rfl, (ofConversion_eq_call_iff _ _).mp called⟩
              case isFalse plain =>
                  rw [unresolved] at called
                  rw [if_neg plain]
                  dsimp only at called
                  cases named : ((value.get "name").bind Json.asStr).filter
                      (fun name => containsUnresolvedExecuteAlias name tools) with
                  | none =>
                      rw [named] at called
                      exact absurd called (rejectedIf_ne_call _ _)
                  | some name =>
                      rw [named] at called
                      have converted := (ofConversion_eq_call_iff _ _).mp called
                      rcases Option.bind_eq_some_iff.mp converted with ⟨inner, given, found⟩
                      exact ⟨name, inner, by rw [Option.bind_some, given, Option.map_some], found⟩

theorem not_ignored_of_executeCall (unresolved : resolveToolName block.split.1 tools = none) {name : String}
    {value : Json} (offered : executeCall readers tools block = some (name, value)) :
    verdict readers tools block ≠ .ignored := by
  rw [verdict]
  rw [executeCall] at offered
  rcases same : block.split with ⟨header, arguments⟩
  rw [same] at unresolved offered
  cases arguments with
  | none => cases offered
  | some text =>
      cases block with
      | unterminated body => cases offered
      | terminated body =>
          dsimp only at unresolved offered ⊢
          rcases Option.bind_eq_some_iff.mp offered with ⟨whole, read, inside⟩
          split at inside
          case isTrue mentioned => exact not_ignored_of_header mentioned text
          case isFalse plain =>
              rcases Option.bind_eq_some_iff.mp inside with ⟨found, named, _⟩
              rw [verdictOfArguments, read]
              dsimp only
              rw [verdictOfValue, if_neg plain, unresolved]
              dsimp only
              rw [named]
              exact ofConversion_ne_ignored _

theorem caught_of_executeCall (unresolved : resolveToolName block.split.1 tools = none)
    (mentions : Mentions readers tools block) {name : String} {value : Json}
    (offered : executeCall readers tools block = some (name, value)) : Caught readers tools block := by
  have kept := not_ignored_of_executeCall unresolved offered
  rw [ne_eq, verdict_ignored_iff unresolved mentions, not_not] at kept
  exact kept

end Verdicts

/-! ## Requests of messages -/

def requestsOf (message : Message) : List ToolRequest :=
  message.content.filterMap MessageContentBlock.asToolRequest

/-- The requests that calls are added as. -/
def newRequests (newId : FreshIds) (toolCalls : List CallToolRequestParams) : List ToolRequest :=
  (requestBlocks newId toolCalls).filterMap MessageContentBlock.asToolRequest

@[simp] theorem requestsOf_mapTexts (change : String -> String) (message : Message) :
    requestsOf (mapTexts change message) = requestsOf message := by
  rw [requestsOf, mapTexts, List.filterMap_map, requestsOf]
  congr 1
  funext block
  cases block <;> rfl

@[simp] theorem requestsOf_retainTexts (message : Message) :
    requestsOf (retainTexts message) = requestsOf message := by
  rw [requestsOf, retainTexts, List.filterMap_filter, requestsOf]
  congr 1
  funext block
  cases block with
  | text content => exact ite_self none
  | _ => rfl

theorem requestsOf_append (newId : FreshIds) (message : Message) (toolCalls : List CallToolRequestParams) :
    requestsOf (appendToolCallsToMessage newId message toolCalls) =
      requestsOf message ++ newRequests newId toolCalls := by
  rw [requestsOf, appendToolCallsToMessage, List.filterMap_append]
  rfl

@[simp] theorem requestsOf_tokenized (message : Message) :
    requestsOf (sanitizeMessageAfterTokenizedParse message) = requestsOf message := by
  rw [sanitizeMessageAfterTokenizedParse, requestsOf_retainTexts, requestsOf_mapTexts]

@[simp] theorem requestsOf_inline (message : Message) :
    requestsOf (sanitizeMessageAfterJsonToolParse message) = requestsOf message := by
  rw [sanitizeMessageAfterJsonToolParse, requestsOf_retainTexts, requestsOf_mapTexts]

@[simp] theorem requestsOf_residual (message : Message) :
    requestsOf (sanitizeResidualMarkers message) = requestsOf message := by
  rw [sanitizeResidualMarkers]
  split
  · rw [requestsOf_retainTexts, requestsOf_mapTexts]
  · rw [requestsOf_mapTexts]

theorem calls_of_newRequests (newId : FreshIds) (toolCalls : List CallToolRequestParams) :
    (newRequests newId toolCalls).map (fun request => request.toolCall.toOption) =
      (toolCalls.filter fun toolCall => toolCall.name != "noop").map some := by
  rw [newRequests, requestBlocks, List.filterMap_map]
  have all : forall entries : List (CallToolRequestParams × Nat),
      (entries.filterMap (MessageContentBlock.asToolRequest ∘ fun entry : CallToolRequestParams × Nat =>
        MessageContentBlock.newToolRequest (newId entry.2) (.ok entry.1))).map
          (fun request => request.toolCall.toOption) = (entries.map Prod.fst).map some := by
    intro entries
    induction entries with
    | nil => rfl
    | cons entry entries ih =>
        rw [List.map_cons, List.map_cons, ← ih]
        rfl
  rw [all, List.zipIdx_map_fst]

theorem newRequests_eq_nil_iff (newId : FreshIds) (toolCalls : List CallToolRequestParams) :
    newRequests newId toolCalls = [] ↔ forall toolCall, toolCall ∈ toolCalls -> toolCall.name = "noop" := by
  have calls := congrArg List.length (calls_of_newRequests newId toolCalls)
  rw [List.length_map, List.length_map] at calls
  rw [← List.length_eq_zero_iff, calls, List.length_eq_zero_iff, List.filter_eq_nil_iff]
  simp only [bne_iff_ne, ne_eq, not_not]

theorem call_of_newRequests {newId : FreshIds} {earlier later : List CallToolRequestParams}
    {first second : CallToolRequestParams} (does : first.name ≠ "noop" ∧ second.name ≠ "noop")
    (same : newRequests newId (earlier ++ first :: later) = newRequests newId (earlier ++ second :: later)) :
    first = second := by
  have calls := congrArg (List.map fun request => request.toolCall.toOption) same
  rw [calls_of_newRequests, calls_of_newRequests] at calls
  have filtered := List.map_injective_iff.mpr (Option.some_injective _) calls
  have kept : forall toolCall : CallToolRequestParams, toolCall.name ≠ "noop" ->
      (toolCall :: later).filter (fun toolCall => toolCall.name != "noop") =
        toolCall :: later.filter fun toolCall => toolCall.name != "noop" :=
    fun toolCall named => List.filter_cons_of_pos (bne_iff_ne.mpr named)
  rw [List.filter_append, List.filter_append, kept first does.1, kept second does.2,
    List.append_cancel_left_eq] at filtered
  exact (List.cons.inj filtered).1

theorem blocks_of_blank {content : String} (blank : Text.isBlank content = true) : blocks content = [] := by
  have missing : cut toolCallBegin content.toList = none := by
    rw [cut_eq_none_iff, ← occurs_iff, occurs_of_blank (List.all_eq_true.mp blank) (by decide)]
    exact Bool.false_ne_true
  rw [blocks_eq, nextBlock, missing]
  rfl

/-! ## Handling -/

section Handling

variable (readers : Readers) (newId : FreshIds) (tools : List Tool) (message : Message)

def rejected : Prop :=
  Exists fun block => block ∈ blocks (contentOf message) ∧ verdict readers tools block = .rejectedExecute

def directCalls : List CallToolRequestParams :=
  callsOfBlocks readers tools (blocks (contentOf message))

def inlineCalls : List CallToolRequestParams :=
  parseInlineJsonToolCalls readers.json (contentOf message) tools

/-- No block makes a call that does something, nor does a JSON object when there are no block
calls; and without any call the message has a request already, so that the interpreter is
not asked. -/
def NothingRuns : Prop :=
  (directCalls readers tools message ≠ [] ∧
      forall toolCall, toolCall ∈ directCalls readers tools message -> toolCall.name = "noop") ∨
    (directCalls readers tools message = [] ∧ inlineCalls readers tools message ≠ [] ∧
      forall toolCall, toolCall ∈ inlineCalls readers tools message -> toolCall.name = "noop") ∨
    (directCalls readers tools message = [] ∧ inlineCalls readers tools message = [] ∧ message.isToolCall = true)

/-- A block became one shell call: among the requests that were added, in its place, is a call of
the shell with the value of the only literal command in the code that the block offers. -/
def BecomesShellCall (before : List Block) (block : Block) (after : List Block) (augmented : Message) : Prop :=
  Exists fun name => Exists fun value => Exists fun literal => Exists fun command => Exists fun shellToolName =>
    executeCall readers tools block = some (name, value) ∧ OnlyLiteral readers value literal ∧
      IsCommand literal command ∧ resolveToolName "shell" tools = some shellToolName ∧
      requestsOf augmented = requestsOf message ++ newRequests newId (callsOfBlocks readers tools before ++
        ⟨shellToolName, some [("command", .string command)]⟩ :: callsOfBlocks readers tools after)

/-- The message is returned without the interpreter, and either nothing was added to it or the
block became one shell call. -/
def Handled (before : List Block) (block : Block) (after : List Block) : Prop :=
  Exists fun augmented => augmentDirectly readers newId tools message = .returned augmented ∧
    (requestsOf augmented = requestsOf message ∨
      BecomesShellCall readers newId tools message before block after augmented)

/-- No tools are offered, or some block is rejected; or the block is caught and what it offers
for a shell call has no literal command with an escape that stands for something else; or
nothing would be run. -/
def Guarded (block : Block) : Prop :=
  tools = [] ∨ rejected readers tools message ∨
    (Caught readers tools block ∧ forall name value literal, executeCall readers tools block = some (name, value) ->
      OnlyLiteral readers value literal -> PlainLiteral literal) ∨
    NothingRuns readers tools message

end Handling

section Exits

variable {readers : Readers} {newId : FreshIds} {tools : List Tool} {message : Message}

theorem rejected_iff :
    (parseTokenizedToolCallsWithStatus readers tools (contentOf message)).rejectedExecute = true ↔
      rejected readers tools message := by
  rw [parseTokenizedToolCallsWithStatus, List.any_eq_true]
  simp only [beq_iff_eq, rejected]

theorem returned_cases {augmented : Message} (returned : augmentDirectly readers newId tools message = .returned augmented) :
    ((tools = [] ∨ Text.isBlank (contentOf message) = true ∨ rejected readers tools message) ∧
        requestsOf augmented = requestsOf message) ∨
      (¬ rejected readers tools message ∧ directCalls readers tools message ≠ [] ∧
        requestsOf augmented = requestsOf message ++ newRequests newId (directCalls readers tools message)) ∨
      (¬ rejected readers tools message ∧ directCalls readers tools message = [] ∧ inlineCalls readers tools message ≠ [] ∧
        requestsOf augmented = requestsOf message ++ newRequests newId (inlineCalls readers tools message)) ∨
      (directCalls readers tools message = [] ∧ inlineCalls readers tools message = [] ∧ message.isToolCall = true ∧
        requestsOf augmented = requestsOf message) := by
  rw [augmentDirectly] at returned
  by_cases noTools : tools = []
  · rw [if_pos noTools] at returned
    cases returned
    exact Or.inl ⟨Or.inl noTools, rfl⟩
  · rw [if_neg noTools] at returned
    by_cases blank : Text.isBlank (contentOf message) = true
    · rw [if_pos blank] at returned
      cases returned
      exact Or.inl ⟨Or.inr (Or.inl blank), rfl⟩
    · rw [if_neg blank] at returned
      dsimp only at returned
      split at returned
      case isTrue refused =>
          cases returned
          exact Or.inl ⟨Or.inr (Or.inr (rejected_iff.mp refused)), requestsOf_tokenized message⟩
      case isFalse kept =>
          rw [rejected_iff] at kept
          right
          split at returned
          case isTrue calls =>
              cases returned
              refine Or.inl ⟨kept, calls, ?_⟩
              rw [requestsOf_append, requestsOf_tokenized]
              rfl
          case isFalse noCalls =>
              right
              rw [ne_eq, not_not] at noCalls
              split at returned
              case isTrue inline =>
                  cases returned
                  refine Or.inl ⟨kept, noCalls, inline, ?_⟩
                  rw [requestsOf_append, requestsOf_inline]
                  rfl
              case isFalse noInline =>
                  rw [ne_eq, not_not] at noInline
                  split at returned
                  case isTrue requested =>
                      cases returned
                      exact Or.inr ⟨noCalls, noInline, requested, requestsOf_residual message⟩
                  case isFalse => cases returned

theorem consults_only {content : String} (consults : augmentDirectly readers newId tools message = .consults content) :
    tools ≠ [] ∧ ¬ rejected readers tools message ∧ directCalls readers tools message = [] ∧
      inlineCalls readers tools message = [] ∧ message.isToolCall = false := by
  rw [augmentDirectly] at consults
  by_cases noTools : tools = []
  · rw [if_pos noTools] at consults
    cases consults
  · rw [if_neg noTools] at consults
    by_cases blank : Text.isBlank (contentOf message) = true
    · rw [if_pos blank] at consults
      cases consults
    · rw [if_neg blank] at consults
      dsimp only at consults
      split at consults
      · cases consults
      case isFalse kept =>
          split at consults
          · cases consults
          case isFalse noCalls =>
              split at consults
              · cases consults
              case isFalse noInline =>
                  split at consults
                  · cases consults
                  case isFalse noRequest =>
                      rw [rejected_iff] at kept
                      rw [Bool.not_eq_true] at noRequest
                      exact ⟨noTools, kept, not_not.mp noCalls, not_not.mp noInline, noRequest⟩

theorem callsOfBlocks_append (left right : List Block) :
    callsOfBlocks readers tools (left ++ right) = callsOfBlocks readers tools left ++ callsOfBlocks readers tools right :=
  List.filterMap_append

theorem callsOfBlocks_cons {block : Block} {toolCall : CallToolRequestParams}
    (called : verdict readers tools block = .call toolCall) (rest : List Block) :
    callsOfBlocks readers tools (block :: rest) = toolCall :: callsOfBlocks readers tools rest := by
  rw [callsOfBlocks, List.filterMap_cons, called]
  rfl

variable {before after : List Block} {block : Block}

theorem handled_of_caught (placed : blocks (contentOf message) = before ++ block :: after) (offered : tools ≠ [])
    (unresolved : resolveToolName block.split.1 tools = none) (mentions : Mentions readers tools block)
    (caught : Caught readers tools block)
    (plain : forall name value literal, executeCall readers tools block = some (name, value) ->
      OnlyLiteral readers value literal -> PlainLiteral literal) (kept : ¬ rejected readers tools message) :
    Handled readers newId tools message before block after := by
  have member : block ∈ blocks (contentOf message) := by
    rw [placed]
    exact List.mem_append_right _ List.mem_cons_self
  have solid : ¬ Text.isBlank (contentOf message) = true := by
    intro blank
    rw [blocks_of_blank blank] at member
    cases member
  cases decided : verdict readers tools block with
  | ignored => exact absurd caught ((verdict_ignored_iff unresolved mentions).mp decided)
  | rejectedExecute => exact absurd ⟨block, member, decided⟩ kept
  | call toolCall =>
      rcases verdict_call unresolved decided with ⟨name, value, given, converted⟩
      rcases converted_call converted with ⟨literal, command, only, decoded, shell, arguments⟩
      have calls : directCalls readers tools message =
          callsOfBlocks readers tools before ++ toolCall :: callsOfBlocks readers tools after := by
        rw [directCalls, placed, callsOfBlocks_append, callsOfBlocks_cons decided]
      have nonempty : directCalls readers tools message ≠ [] := by
        rw [calls]
        exact List.append_ne_nil_of_right_ne_nil _ (List.cons_ne_nil _ _)
      cases direct : augmentDirectly readers newId tools message with
      | consults content => exact absurd (consults_only direct).2.2.1 nonempty
      | returned augmented =>
          refine ⟨augmented, direct, Or.inr ?_⟩
          refine ⟨name, value, literal, command, toolCall.name, given, only,
            (isCommand_decoded_iff decoded).mpr (plain name value literal given only), shell, ?_⟩
          have same : toolCall = ⟨toolCall.name, some [("command", .string command)]⟩ := by
            rw [← arguments]
          rw [← same, ← calls]
          rcases returned_cases direct with ⟨early, _⟩ | ⟨_, _, added⟩ | ⟨_, none, _⟩ | ⟨none, _⟩
          · rcases early with noTools | blank | refused
            · exact absurd noTools offered
            · exact absurd blank solid
            · exact absurd refused kept
          · exact added
          · exact absurd none nonempty
          · exact absurd none nonempty

theorem verdict_of_executeCall (placed : blocks (contentOf message) = before ++ block :: after)
    (unresolved : resolveToolName block.split.1 tools = none) (kept : ¬ rejected readers tools message) {name : String}
    {value : Json} (given : executeCall readers tools block = some (name, value)) :
    Exists fun toolCall => verdict readers tools block = .call toolCall ∧
      directCalls readers tools message =
        callsOfBlocks readers tools before ++ toolCall :: callsOfBlocks readers tools after := by
  have member : block ∈ blocks (contentOf message) := by
    rw [placed]
    exact List.mem_append_right _ List.mem_cons_self
  cases decided : verdict readers tools block with
  | ignored => exact absurd decided (not_ignored_of_executeCall unresolved given)
  | rejectedExecute => exact absurd ⟨block, member, decided⟩ kept
  | call toolCall =>
      refine ⟨toolCall, rfl, ?_⟩
      rw [directCalls, placed, callsOfBlocks_append, callsOfBlocks_cons decided]

theorem caught_of_becomes (placed : blocks (contentOf message) = before ++ block :: after)
    (unresolved : resolveToolName block.split.1 tools = none) (mentions : Mentions readers tools block)
    (kept : ¬ rejected readers tools message) {augmented : Message}
    (added : requestsOf augmented = requestsOf message ++ newRequests newId (directCalls readers tools message))
    (becomes : BecomesShellCall readers newId tools message before block after augmented) :
    Caught readers tools block ∧ forall name value literal, executeCall readers tools block = some (name, value) ->
      OnlyLiteral readers value literal -> PlainLiteral literal := by
  rcases becomes with ⟨name, value, literal, command, shellToolName, given, only, isCommand, shell, shown⟩
  refine ⟨caught_of_executeCall unresolved mentions given, ?_⟩
  intro otherName otherValue otherLiteral otherGiven otherOnly
  rw [given] at otherGiven
  cases otherGiven
  cases only.unique otherOnly
  rcases verdict_of_executeCall placed unresolved kept given with ⟨toolCall, decided, calls⟩
  rcases verdict_call unresolved decided with ⟨callName, callValue, callGiven, converted⟩
  rw [given] at callGiven
  cases callGiven
  rcases converted_call converted with ⟨callLiteral, decodedCommand, callOnly, decoded, callShell, arguments⟩
  cases only.unique callOnly
  rw [shell] at callShell
  rw [added, List.append_cancel_left_eq, calls] at shown
  have does := shell_ne_noop shell
  have same := call_of_newRequests ⟨Option.some.inj callShell ▸ does, does⟩ shown
  rw [same, Option.some_inj] at arguments
  have commands : command = decodedCommand := by
    simpa using arguments
  rw [commands] at isCommand
  exact (isCommand_decoded_iff decoded).mp isCommand

theorem handled_of_nothingRuns (quiet : NothingRuns readers tools message) :
    Handled readers newId tools message before block after := by
  cases direct : augmentDirectly readers newId tools message with
  | consults content =>
      rcases consults_only direct with ⟨_, _, none, noInline, noRequest⟩
      rcases quiet with ⟨calls, _⟩ | ⟨_, inline, _⟩ | ⟨_, _, requested⟩
      · exact absurd none calls
      · exact absurd noInline inline
      · rw [noRequest] at requested
        cases requested
  | returned augmented =>
      refine ⟨augmented, direct, Or.inl ?_⟩
      rcases returned_cases direct with ⟨_, same⟩ | ⟨_, calls, added⟩ | ⟨_, none, inline, added⟩ | ⟨_, _, _, same⟩
      · exact same
      · rcases quiet with ⟨_, noops⟩ | ⟨noCalls, _⟩ | ⟨noCalls, _⟩
        · rw [added, (newRequests_eq_nil_iff newId _).mpr noops, List.append_nil]
        · exact absurd noCalls calls
        · exact absurd noCalls calls
      · rcases quiet with ⟨calls, _⟩ | ⟨_, _, noops⟩ | ⟨_, noInline, _⟩
        · exact absurd none calls
        · rw [added, (newRequests_eq_nil_iff newId _).mpr noops, List.append_nil]
        · exact absurd noInline inline
      · exact same

/-- A block without an offered tool that mentions code execution is handled exactly when it is
guarded. -/
theorem execute_handled_iff (placed : blocks (contentOf message) = before ++ block :: after)
    (unresolved : resolveToolName block.split.1 tools = none) (mentions : Mentions readers tools block) :
    Handled readers newId tools message before block after ↔ Guarded readers tools message block := by
  have member : block ∈ blocks (contentOf message) := by
    rw [placed]
    exact List.mem_append_right _ List.mem_cons_self
  have solid : ¬ Text.isBlank (contentOf message) = true := by
    intro blank
    rw [blocks_of_blank blank] at member
    cases member
  by_cases noTools : tools = []
  · apply iff_of_true _ (Or.inl noTools)
    exact ⟨message, by rw [augmentDirectly, if_pos noTools], Or.inl rfl⟩
  · rw [Guarded, or_iff_right noTools]
    by_cases refused : rejected readers tools message
    · apply iff_of_true _ (Or.inl refused)
      cases direct : augmentDirectly readers newId tools message with
      | consults content => exact absurd refused (consults_only direct).2.1
      | returned augmented =>
          refine ⟨augmented, direct, Or.inl ?_⟩
          rcases returned_cases direct with ⟨_, same⟩ | ⟨kept, _⟩ | ⟨kept, _⟩ | ⟨_, _, _, same⟩
          · exact same
          · exact absurd refused kept
          · exact absurd refused kept
          · exact same
    · rw [or_iff_right refused]
      constructor
      · rintro ⟨augmented, direct, outcome⟩
        rcases returned_cases direct with ⟨early, _⟩ | ⟨_, calls, added⟩ | ⟨_, none, inline, added⟩ |
          ⟨none, noInline, requested, _⟩
        · rcases early with none | blank | other
          · exact absurd none noTools
          · exact absurd blank solid
          · exact absurd other refused
        · rcases outcome with same | becomes
          · rw [added, List.append_right_eq_self] at same
            exact Or.inr (Or.inl ⟨calls, (newRequests_eq_nil_iff _ _).mp same⟩)
          · exact Or.inl (caught_of_becomes placed unresolved mentions refused added becomes)
        · rcases outcome with same | becomes
          · rw [added, List.append_right_eq_self] at same
            exact Or.inr (Or.inr (Or.inl ⟨none, inline, (newRequests_eq_nil_iff _ _).mp same⟩))
          · rcases becomes with ⟨name, value, _, _, _, given, _⟩
            rcases verdict_of_executeCall placed unresolved refused given with ⟨toolCall, _, calls⟩
            rw [none] at calls
            exact absurd calls.symm (List.append_ne_nil_of_right_ne_nil _ (List.cons_ne_nil _ _))
        · exact Or.inr (Or.inr (Or.inr ⟨none, noInline, requested⟩))
      · rintro (⟨caught, plain⟩ | quiet)
        · exact handled_of_caught placed noTools unresolved mentions caught plain refused
        · exact handled_of_nothingRuns quiet

end Exits

/-! ## An overwritten name -/

/-- The arguments of a block that has a name twice. -/
def twiceNamed : String := "\x7b\x22name\x22:\x22execute\x22,\x22name\x22:\x22x\x22\x7d"

/-- Readers of these arguments: as a value the last name counts, with all members both do. -/
def twiceNamedReaders : Readers where
  json := JsonParser.ofTable [(twiceNamed, .object [("name", .string "x")])] (by decide +kernel)
  leadingValue text := if text = twiceNamed then some (.object [("name", .string "x")], "") else none
  leadingValue_shorter := by
    intro text value rest read
    split at read
    case isTrue same =>
        cases read
        rw [same]
        decide +kernel
    case isFalse => cases read
  leadingMembers text :=
    if text = twiceNamed then some (.object [("name", .string "execute"), ("name", .string "x")]) else none
  parseTypeScript _ := none

def twiceNamedBlock : Block := .unterminated ("label ".toList ++ twiceNamed.toList)

def twiceNamedMessage : Message :=
  (Message.assistant 0).withContent (.plainText ("<|tool_call_begin|>label " ++ twiceNamed))

/-- A block whose name is overwritten mentions code execution, and the interpreter is asked about
it. -/
theorem overwritten_name_interpreted :
    blocks (contentOf twiceNamedMessage) = [] ++ twiceNamedBlock :: [] ∧
      resolveToolName twiceNamedBlock.split.1 [⟨"shell"⟩] = none ∧
      Mentions twiceNamedReaders [⟨"shell"⟩] twiceNamedBlock ∧
      ¬ Handled twiceNamedReaders (fun number => toString number) [⟨"shell"⟩] twiceNamedMessage [] twiceNamedBlock [] := by
  refine ⟨by decide +kernel, by decide +kernel, ?_, ?_⟩
  · refine Or.inr ⟨twiceNamed, by decide +kernel, ?_⟩
    rw [MentionsIn, if_pos (by decide +kernel)]
    decide +kernel
  · rintro ⟨augmented, returned, _⟩
    have asked : augmentDirectly twiceNamedReaders (fun number => toString number) [⟨"shell"⟩] twiceNamedMessage =
        .consults (contentOf twiceNamedMessage) := by
      decide +kernel
    rw [asked] at returned
    cases returned

/-- A block with the alias as its header has the message returned without calls. -/
theorem execute_header_handled :
    Handled plainReaders (fun number => toString number) [⟨"shell"⟩]
      ((Message.assistant 0).withContent (.plainText "<|tool_call_begin|>execute<|tool_call_end|>")) []
      (.terminated "execute".toList) [] :=
  (execute_handled_iff (by decide +kernel) (by decide +kernel) (Or.inl (by decide +kernel))).mpr
    (Or.inr (Or.inl ⟨.terminated "execute".toList, by decide +kernel, by decide +kernel⟩))

end Toolshim
end AIBuddy
