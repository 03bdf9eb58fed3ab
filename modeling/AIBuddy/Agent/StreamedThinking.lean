import AIBuddy.Agent.StreamRequests
import AIBuddy.Support.Joining

namespace AIBuddy

open Joining

/-!
# The thinking of a stream

A chunk that requests tools takes the thinking that came before it into its message, unless it
brings its own: then what it took is told nowhere.  Everything else that happens to a stream keeps
every thinking block, alone or joined to its neighbours.
-/

/-! ## Blocks -/

def thinkingIn (content : List MessageContentBlock) : List MessageContentBlock :=
  content.filter isThinking

def thinkingOf (messages : List Message) : List MessageContentBlock :=
  messages.flatMap fun message => thinkingIn message.content

theorem thinkingOf_append (front back : List Message) :
    thinkingOf (front ++ back) = thinkingOf front ++ thinkingOf back :=
  List.flatMap_append

theorem thinkingOf_cons (first : Message) (rest : List Message) :
    thinkingOf (first :: rest) = thinkingIn first.content ++ thinkingOf rest :=
  List.flatMap_cons

theorem thinkingOf_singleton (message : Message) : thinkingOf [message] = thinkingIn message.content :=
  List.flatMap_singleton _ _

/-- How much a block thinks: a redacted block counts as one character. -/
def thinkingSize : MessageContentBlock -> Nat
  | .thinking content => content.thinking.length
  | .redactedThinking _ => 1
  | _ => 0

theorem thinkingSize_join (first second whole : MessageContentBlock) (joins : joinBlocks first second = some whole) :
    thinkingSize whole = thinkingSize first + thinkingSize second := by
  unfold joinBlocks at joins
  split at joins
  · split at joins
    · cases joins
      rfl
    · contradiction
  · split at joins
    · cases joins
      exact String.length_append _ _
    · contradiction
  · contradiction

theorem isThinking_join {first second whole : MessageContentBlock} (joins : joinBlocks first second = some whole) :
    isThinking first = isThinking whole ∧ isThinking second = isThinking whole := by
  unfold joinBlocks at joins
  split at joins
  · split at joins
    · cases joins
      exact ⟨rfl, rfl⟩
    · contradiction
  · split at joins
    · cases joins
      exact ⟨rfl, rfl⟩
    · contradiction
  · contradiction

theorem thinkingIn_retainNewRequests (seen : List String) (content : List MessageContentBlock) :
    thinkingIn (retainNewRequests seen content).1 = thinkingIn content := by
  induction content generalizing seen with
  | nil => rfl
  | cons block rest ih =>
      unfold retainNewRequests
      cases asks : block.asToolRequest with
      | none =>
          simp only [thinkingIn, List.filter_cons]
          rw [show (retainNewRequests seen rest).1.filter isThinking = rest.filter isThinking from
            ih seen]
      | some request =>
          have other : isThinking block = false := by
            cases block <;> first | rfl | contradiction
          have dropped : thinkingIn (block :: rest) = thinkingIn rest := List.filter_cons_of_neg (by simp [other])
          simp only
          split
          · exact (ih seen).trans dropped.symm
          · have kept : thinkingIn (block :: (retainNewRequests (request.id :: seen) rest).1) =
                thinkingIn (retainNewRequests (request.id :: seen) rest).1 := List.filter_cons_of_neg (by simp [other])
            exact kept.trans ((ih _).trans dropped.symm)

theorem thinkingIn_insertBeforeRequest {blocks content : List MessageContentBlock}
    (asks : (content.filterMap MessageContentBlock.asToolRequest) ≠ []) :
    (thinkingIn (insertBeforeRequest blocks content)).Perm (thinkingIn blocks ++ thinkingIn content) := by
  induction content with
  | nil => exact absurd rfl asks
  | cons block rest ih =>
      unfold insertBeforeRequest
      cases request : block.asToolRequest with
      | some request =>
          simp only [Option.isSome_some, if_true]
          rw [thinkingIn, List.filter_append]
          exact List.Perm.refl _
      | none =>
          simp only [Option.isSome_none, Bool.false_eq_true, if_false]
          rw [List.filterMap_cons_none request] at asks
          have later := ih asks
          unfold thinkingIn at later ⊢
          cases thinks : isThinking block with
          | true =>
              rw [List.filter_cons_of_pos thinks, List.filter_cons_of_pos thinks]
              exact (later.cons block).trans List.perm_middle.symm
          | false =>
              rw [List.filter_cons_of_neg (by simp [thinks]), List.filter_cons_of_neg (by simp [thinks])]
              exact later

/-! ## Taking thinking -/

/-- The thinking that a chunk finds in the messages before it. -/
def priorThinking (accumulator : List Message) (chunk : Message) : List MessageContentBlock :=
  (accumulator.filter (lendsThinking chunk)).flatMap fun message => message.content.filter isThinking

/-- The thinking that a chunk takes and does not tell: it requests a tool and brings thinking of its
own. -/
def droppedThinking (accumulator : List Message) (chunk : Message) : List MessageContentBlock :=
  if chunk.toolRequests.isEmpty || !chunk.content.any isThinking then [] else priorThinking accumulator chunk

theorem thinkingOf_stripped (accumulator : List Message) (chunk : Message) :
    (thinkingOf ((accumulator.map fun message =>
      if lendsThinking chunk message then
        { message with content := message.content.filter fun block => !isThinking block }
      else message).filter fun message => !message.content.isEmpty) ++ priorThinking accumulator chunk).Perm
        (thinkingOf accumulator) := by
  have emptied : forall messages : List Message,
      thinkingOf (messages.filter fun message => !message.content.isEmpty) = thinkingOf messages := by
    intro messages
    induction messages with
    | nil => rfl
    | cons first rest ih =>
        rw [thinkingOf_cons]
        cases empty : first.content.isEmpty with
        | false => rw [List.filter_cons_of_pos (by simp [empty]), thinkingOf_cons, ih]
        | true =>
            rw [List.filter_cons_of_neg (by simp [empty]), List.isEmpty_iff.mp empty, ih]
            rfl
  rw [emptied]
  induction accumulator with
  | nil => exact List.Perm.refl _
  | cons first rest ih =>
      rw [List.map_cons, thinkingOf_cons, thinkingOf_cons]
      unfold priorThinking at ih ⊢
      cases lends : lendsThinking chunk first with
      | true =>
          have nothing : thinkingIn (first.content.filter fun block => !isThinking block) = [] := by
            rw [thinkingIn, List.filter_filter, List.filter_eq_nil_iff]
            simp
          rw [if_pos rfl, nothing, List.filter_cons_of_pos lends, List.flatMap_cons, List.nil_append]
          refine List.Perm.trans ?_ (ih.append_left _)
          exact List.perm_append_comm_assoc _ _ _
      | false =>
          rw [if_neg (by simp), List.filter_cons_of_neg (by simp [lends]), List.append_assoc]
          exact ih.append_left _

theorem normalizeToolCallThinking_thinking (accumulator : List Message) (chunk : Message) :
    (thinkingOf (normalizeToolCallThinking accumulator chunk).1 ++
      thinkingIn (normalizeToolCallThinking accumulator chunk).2.content ++ droppedThinking accumulator chunk).Perm
        (thinkingOf accumulator ++ thinkingIn chunk.content) := by
  unfold normalizeToolCallThinking droppedThinking
  cases idle : chunk.toolRequests.isEmpty with
  | true =>
      simp only [if_true, Bool.true_or, List.append_nil]
      exact List.Perm.refl _
  | false =>
      simp only [Bool.false_eq_true, if_false, Bool.false_or]
      have stripped := thinkingOf_stripped accumulator chunk
      cases thinks : chunk.content.any isThinking with
      | true =>
          simp only [if_true, Bool.not_true, Bool.false_eq_true, if_false]
          rw [List.append_assoc]
          refine (List.Perm.append_left _ List.perm_append_comm).trans ?_
          rw [← List.append_assoc]
          exact stripped.append_right _
      | false =>
          simp only [Bool.false_eq_true, if_false, Bool.not_false, if_true, List.append_nil]
          have asks : chunk.content.filterMap MessageContentBlock.asToolRequest ≠ [] := by
            intro none
            rw [Message.toolRequests, none] at idle
            contradiction
          refine ((thinkingIn_insertBeforeRequest asks).append_left _).trans ?_
          rw [← List.append_assoc]
          have own : thinkingIn (priorThinking accumulator chunk) = priorThinking accumulator chunk := by
            rw [thinkingIn, List.filter_eq_self]
            intro block member
            rcases List.mem_flatMap.mp member with ⟨message, _, inContent⟩
            exact (List.mem_filter.mp inContent).2
          change (thinkingOf _ ++ thinkingIn (priorThinking accumulator chunk) ++ _).Perm _
          rw [own]
          exact stripped.append_right _

/-! ## Pushing messages -/

theorem toldOnce_extendContent {pieces front back last new : List MessageContentBlock}
    (told : ToldOnce joinBlocks pieces (front ++ (thinkingIn last ++ (thinkingIn new ++ back)))) :
    ToldOnce joinBlocks pieces (front ++ (thinkingIn (extendContent last new) ++ back)) := by
  have plain : ToldOnce joinBlocks pieces (front ++ (thinkingIn (last ++ new) ++ back)) := by
    rw [thinkingIn, List.filter_append, List.append_assoc]
    exact told
  unfold extendContent
  split
  · case _ lastBlock newBlock isLast =>
      split
      · case _ whole joins =>
          rcases isThinking_join joins with ⟨sameLast, sameNew⟩
          have parts := List.dropLast_append_getLast? lastBlock isLast
          rw [← parts] at told
          unfold thinkingIn at told ⊢
          rw [List.filter_append] at told ⊢
          cases thinks : isThinking whole with
          | true =>
              rw [List.filter_cons_of_pos (sameLast.trans thinks), List.filter_cons_of_pos (sameNew.trans thinks),
                List.append_assoc, ← List.append_assoc front] at told
              rw [List.filter_cons_of_pos thinks, List.append_assoc, ← List.append_assoc front]
              exact told.joinNeighbours joins
          | false =>
              rw [List.filter_cons_of_neg (by simp [sameLast, thinks]),
                List.filter_cons_of_neg (by simp [sameNew, thinks])] at told
              rw [List.filter_cons_of_neg (by simp [thinks])]
              simpa using told
      · exact plain
  · exact plain

theorem thinkingOf_modifyLast (matching : Message -> Bool) {change : Message -> Message}
    (keeps : forall message, (change message).content = message.content) (messages : List Message) :
    thinkingOf (modifyLast matching change messages) = thinkingOf messages := by
  induction messages with
  | nil => rfl
  | cons first rest ih =>
      unfold modifyLast
      split
      · rw [thinkingOf_cons, thinkingOf_cons, ih]
      · split
        · rw [thinkingOf_cons, thinkingOf_cons, keeps]
        · rfl

theorem toldOnce_pushMessage {pieces back : List MessageContentBlock} {messages : List Message} {message : Message}
    (told : ToldOnce joinBlocks pieces (thinkingOf messages ++ thinkingIn message.content ++ back)) :
    ToldOnce joinBlocks pieces (thinkingOf (pushMessage messages message) ++ back) := by
  have appended : ToldOnce joinBlocks pieces (thinkingOf (messages ++ [message]) ++ back) := by
    rw [thinkingOf_append, thinkingOf_singleton]
    exact told
  unfold pushMessage
  split
  · case _ reports =>
      simp only [Bool.and_eq_true, List.isEmpty_iff] at reports
      have same : ToldOnce joinBlocks pieces (thinkingOf messages ++ back) := by
        rw [reports.1] at told
        simpa [thinkingIn] using told
      split
      · rw [thinkingOf_modifyLast _ (fun existing => by rfl)]
        exact same
      · split
        · rw [thinkingOf_append, thinkingOf_singleton]
          exact told
        · exact same
  · split
    · case _ last isLast =>
        split
        · have parts := List.dropLast_append_getLast? last isLast
          rw [← parts, thinkingOf_append, thinkingOf_singleton, List.append_assoc, List.append_assoc] at told
          rw [thinkingOf_append, thinkingOf_singleton, List.append_assoc]
          exact toldOnce_extendContent told
        · exact appended
    · case _ empty =>
        rw [List.getLast?_eq_none_iff.mp empty] at appended
        exact appended

/-! ## The stream -/

/-- A chunk with the requests that are new in the stream. -/
def retainedChunk (seen : List String) (chunk : Message) : Message :=
  { chunk with content := (retainNewRequests seen chunk.content).1 }

/-- The thinking that the chunks of a stream take and do not tell. -/
def takenThinking (turn : ProviderTurn) (names : List String) (state : Accumulator) :
    List (Message × Nat) -> List MessageContentBlock
  | [] => []
  | entry :: rest =>
      droppedThinking state.messages (retainedChunk state.seen entry.1) ++
        takenThinking turn names (receiveChunk turn names state entry) rest

theorem content_withInference (inference : InferenceMetadata) (names : List String) (message : Message) :
    (withInferenceIfAssistant inference (noteAdvertisedTools names message)).content = message.content := by
  unfold withInferenceIfAssistant noteAdvertisedTools
  split <;> split <;> rfl

theorem outputTokenLimitReached_withInference (inference : InferenceMetadata) (names : List String)
    (message : Message) :
    (withInferenceIfAssistant inference (noteAdvertisedTools names message)).metadata.outputTokenLimitReached =
      message.metadata.outputTokenLimitReached := by
  unfold withInferenceIfAssistant noteAdvertisedTools
  split <;> split <;> rfl

theorem droppedThinking_congr (accumulator : List Message) {chunk other : Message} (role : chunk.role = other.role)
    (content : chunk.content = other.content) :
    droppedThinking accumulator chunk = droppedThinking accumulator other := by
  unfold droppedThinking priorThinking lendsThinking Message.toolRequests
  rw [role, content]

theorem toldOnce_receiveChunk {turn : ProviderTurn} {names : List String} {state : Accumulator}
    {entry : Message × Nat} {pieces back : List MessageContentBlock}
    (told : ToldOnce joinBlocks pieces (thinkingOf state.messages ++ back)) :
    ToldOnce joinBlocks (pieces ++ thinkingIn entry.1.content)
      (thinkingOf (receiveChunk turn names state entry).messages ++
        (droppedThinking state.messages (retainedChunk state.seen entry.1) ++ back)) := by
  unfold receiveChunk
  extract_lets chunk retained normalized identifiedChunk
  have content : chunk.content = entry.1.content := content_withInference _ _ _
  have dropped : droppedThinking state.messages { chunk with content := retained.1 } =
      droppedThinking state.messages (retainedChunk state.seen entry.1) := by
    apply droppedThinking_congr
    · exact role_withInference _ _ _
    · change (retainNewRequests state.seen chunk.content).1 = (retainNewRequests state.seen entry.1.content).1
      rw [content]
  have brought : thinkingIn retained.1 = thinkingIn entry.1.content :=
    (thinkingIn_retainNewRequests _ _).trans (congrArg thinkingIn content)
  have identified : identifiedChunk.content = normalized.2.content := by
    unfold identifiedChunk
    split
    · rfl
    · exact ensureId_reads Message.content (fun _ _ => rfl) _ _
  apply toldOnce_pushMessage
  rw [identified, ← dropped, ← List.append_assoc]
  have moved := normalizeToolCallThinking_thinking state.messages { chunk with content := retained.1 }
  rw [brought] at moved
  have more := told.append (.refl (thinkingIn entry.1.content))
  refine more.perm (List.Perm.trans ?_ (moved.symm.append_right back))
  rw [List.append_assoc, List.append_assoc]
  exact List.perm_append_comm.append_left _

theorem toldOnce_receiveChunks (turn : ProviderTurn) (names : List String) (chunks : List Message) :
    ToldOnce joinBlocks (thinkingOf chunks)
      (thinkingOf (receiveChunks turn names chunks) ++ takenThinking turn names {} chunks.zipIdx) := by
  have folded : forall (entries : List (Message × Nat)) (state : Accumulator)
      (pieces back : List MessageContentBlock),
      ToldOnce joinBlocks pieces (thinkingOf state.messages ++ back) ->
        ToldOnce joinBlocks (pieces ++ thinkingOf (entries.map Prod.fst))
          (thinkingOf (entries.foldl (receiveChunk turn names) state).messages ++
            (takenThinking turn names state entries ++ back)) := by
    intro entries
    induction entries with
    | nil =>
        intro state pieces back told
        simpa [thinkingOf, takenThinking] using told
    | cons entry rest ih =>
        intro state pieces back told
        have here : ToldOnce joinBlocks (pieces ++ thinkingIn entry.1.content)
            (thinkingOf (receiveChunk turn names state entry).messages ++ _) := toldOnce_receiveChunk told
        have later := ih _ _ _ here
        rw [List.map_cons, thinkingOf_cons, ← List.append_assoc pieces]
        refine later.perm (List.Perm.append_left _ ?_)
        rw [takenThinking, List.append_assoc, ← List.append_assoc, ← List.append_assoc]
        exact List.perm_append_comm.append_right _
  have whole := folded chunks.zipIdx {} [] [] (.refl [])
  rw [List.nil_append, List.append_nil] at whole
  rw [List.zipIdx_map_fst] at whole
  exact whole

/-! ## What a stream says -/

/-- Whether a message says something, or reports that it was cut off. -/
def saysSomething (message : Message) : Bool :=
  message.metadata.outputTokenLimitReached || !isBlankMessage message

theorem isBlankMessage_append (message : Message) (front back : List MessageContentBlock) :
    isBlankMessage { message with content := front ++ back } =
      (isBlankMessage { message with content := front } && isBlankMessage { message with content := back }) :=
  List.all_append

theorem isBlankMessage_join {first second whole : MessageContentBlock} (joins : joinBlocks first second = some whole)
    (message : Message) :
    isBlankMessage { message with content := [whole] } =
      (isBlankMessage { message with content := [first] } && isBlankMessage { message with content := [second] }) := by
  unfold joinBlocks at joins
  split at joins
  · split at joins
    · cases joins
      simp [isBlankMessage]
    · contradiction
  · split at joins
    · cases joins
      simp [isBlankMessage]
    · contradiction
  · contradiction

theorem isBlankMessage_extendContent (message : Message) (last new : List MessageContentBlock) :
    isBlankMessage { message with content := extendContent last new } =
      (isBlankMessage { message with content := last } && isBlankMessage { message with content := new }) := by
  unfold extendContent
  split
  · case _ lastBlock newBlock isLast =>
      split
      · case _ whole joins =>
          have parts := List.dropLast_append_getLast? lastBlock isLast
          calc isBlankMessage { message with content := last.dropLast ++ [whole] }
              = (isBlankMessage { message with content := last.dropLast ++ [lastBlock] } &&
                  isBlankMessage { message with content := [newBlock] }) := by
                rw [isBlankMessage_append, isBlankMessage_append, isBlankMessage_join joins, Bool.and_assoc]
            _ = _ := by rw [parts]
      · exact isBlankMessage_append message _ _
  · exact isBlankMessage_append message _ _

theorem any_modifyLast {test matching : Message -> Bool} {change : Message -> Message} {added : Bool}
    (changes : forall message, matching message = true -> test (change message) = (test message || added))
    {messages : List Message} (found : messages.any matching = true) :
    (modifyLast matching change messages).any test = (messages.any test || added) := by
  induction messages with
  | nil => contradiction
  | cons first rest ih =>
      unfold modifyLast
      split
      · case _ later => rw [List.any_cons, List.any_cons, ih later, Bool.or_assoc]
      · case _ none =>
          have here : matching first = true := by
            rw [List.any_cons, Bool.eq_false_iff.mpr none, Bool.or_false] at found
            exact found
          rw [if_pos here, List.any_cons, List.any_cons, changes first here, Bool.or_assoc, Bool.or_assoc,
            Bool.or_comm added]

theorem saysSomething_pushMessage (messages : List Message) (message : Message) :
    (pushMessage messages message).any saysSomething = (messages.any saysSomething || saysSomething message) := by
  have appended : (messages ++ [message]).any saysSomething = (messages.any saysSomething || saysSomething message) := by
    rw [List.any_append, List.any_cons, List.any_nil, Bool.or_false]
  unfold pushMessage
  split
  · case _ reports =>
      simp only [Bool.and_eq_true, List.isEmpty_iff] at reports
      have blank : saysSomething message = message.metadata.outputTokenLimitReached := by
        rw [saysSomething, isBlankMessage, reports.1, List.all_nil, Bool.not_true, Bool.or_false]
      split
      · case _ found =>
          apply any_modifyLast _ found
          intro existing _
          rw [blank]
          change (existing.metadata.outputTokenLimitReached || message.metadata.outputTokenLimitReached ||
            !isBlankMessage existing) = _
          rw [saysSomething, Bool.or_right_comm]
      · split
        · rw [List.any_append, List.any_cons, List.any_nil, Bool.or_false]
          rfl
        · case _ unlimited => rw [blank, Bool.eq_false_iff.mpr unlimited, Bool.or_false]
  · split
    · case _ last isLast =>
        split
        · have parts := List.dropLast_append_getLast? last isLast
          have extended : saysSomething { last with
              metadata := absorbMetadata last.metadata message.metadata
              content := extendContent last.content message.content } =
                (saysSomething last || saysSomething message) := by
            unfold saysSomething
            rw [isBlankMessage_extendContent { last with metadata := absorbMetadata last.metadata message.metadata }]
            change (last.metadata.outputTokenLimitReached || message.metadata.outputTokenLimitReached ||
              !(isBlankMessage last && isBlankMessage message)) = _
            cases last.metadata.outputTokenLimitReached <;> cases message.metadata.outputTokenLimitReached <;>
              cases isBlankMessage last <;> cases isBlankMessage message <;> rfl
          rw [List.any_append, List.any_cons, List.any_nil, Bool.or_false, extended, ← Bool.or_assoc]
          conv_rhs => rw [← parts]
          rw [List.any_append, List.any_cons, List.any_nil, Bool.or_false]
        · exact appended
    · case _ empty =>
        rw [List.getLast?_eq_none_iff.mp empty] at appended ⊢
        exact appended

theorem saysSomething_of_toolRequests {message : Message} (asks : message.toolRequests ≠ []) :
    saysSomething message = true := by
  rw [saysSomething, Bool.or_eq_true]
  right
  rcases List.exists_mem_of_ne_nil _ asks with ⟨request, member⟩
  rcases List.mem_filterMap.mp member with ⟨block, inContent, isRequest⟩
  rw [Bool.not_eq_true', isBlankMessage, List.all_eq_false]
  refine ⟨block, inContent, ?_⟩
  cases block <;> first | contradiction | simp

/-- Every repeated request was said before. -/
def SeenSaid (state : Accumulator) : Prop :=
  state.seen ≠ [] -> state.messages.any saysSomething = true

theorem seen_retainNewRequests {seen : List String} {content : List MessageContentBlock} {id : String}
    (asks : id ∈ blockIds content) : id ∈ (retainNewRequests seen content).2 := by
  have kept : forall (rest : List MessageContentBlock) (others : List String), id ∈ others ->
      id ∈ (retainNewRequests others rest).2 :=
    fun rest others member => ((retainNewRequests_ids others rest).2.2 id).mpr (Or.inl member)
  induction content generalizing seen with
  | nil => contradiction
  | cons block rest ih =>
      unfold retainNewRequests
      cases request : block.asToolRequest with
      | none =>
          rw [blockIds_cons_other request] at asks
          exact ih asks
      | some request' =>
          rw [blockIds_cons_request request, List.mem_cons] at asks
          simp only
          split
          · case _ repeated =>
              rcases asks with rfl | later
              · exact kept rest seen repeated
              · exact ih later
          · rcases asks with rfl | later
            · exact kept rest _ (List.mem_cons_self ..)
            · exact ih later

theorem retainNewRequests_of_quiet {content : List MessageContentBlock} (quiet : blockIds content = [])
    (seen : List String) : (retainNewRequests seen content).1 = content := by
  induction content with
  | nil => rfl
  | cons block rest ih =>
      unfold retainNewRequests
      cases request : block.asToolRequest with
      | none =>
          rw [blockIds_cons_other request] at quiet
          exact congrArg (block :: ·) (ih quiet)
      | some request' =>
          rw [blockIds_cons_request request] at quiet
          contradiction

theorem saysSomething_receiveChunk {turn : ProviderTurn} {names : List String} {state : Accumulator}
    (seenSaid : SeenSaid state) (entry : Message × Nat) :
    (receiveChunk turn names state entry).messages.any saysSomething =
        (state.messages.any saysSomething || saysSomething entry.1) ∧
      SeenSaid (receiveChunk turn names state entry) := by
  have asksIn : forall {message : Message}, blockIds message.content ≠ [] -> saysSomething message = true := by
    intro message asks
    exact saysSomething_of_toolRequests fun none => asks (congrArg (List.map ToolRequest.id) none)
  have said : (receiveChunk turn names state entry).messages.any saysSomething =
      (state.messages.any saysSomething || saysSomething entry.1) := by
    unfold receiveChunk
    extract_lets chunk retained normalized identifiedChunk
    have content : chunk.content = entry.1.content := content_withInference _ _ _
    have limit : chunk.metadata.outputTokenLimitReached = entry.1.metadata.outputTokenLimitReached :=
      outputTokenLimitReached_withInference _ _ _
    have identified : forall {β : Type} (read : Message -> β), (forall message id, read (message.withId id) = read message) ->
        read identifiedChunk = read normalized.2 := by
      intro β read same
      unfold identifiedChunk
      split
      · rfl
      · exact ensureId_reads read same _ _
    rw [saysSomething_pushMessage]
    by_cases quiet : blockIds retained.1 = []
    · have idle : Message.toolRequests { chunk with content := retained.1 } = [] := List.map_eq_nil_iff.mp quiet
      have same : normalized = (state.messages, { chunk with content := retained.1 }) := by
        unfold normalized normalizeToolCallThinking
        rw [idle]
        rfl
      rw [identified saysSomething fun _ _ => rfl, same]
      by_cases plain : blockIds entry.1.content = []
      · have kept : retained.1 = entry.1.content := by
          rw [← content] at plain ⊢
          exact retainNewRequests_of_quiet plain _
        congr 1
        unfold saysSomething isBlankMessage
        rw [limit, kept]
      · rcases List.exists_mem_of_ne_nil _ plain with ⟨id, asked⟩
        rw [← content] at asked
        rcases ((retainNewRequests_ids state.seen chunk.content).2.2 id).mp (seen_retainNewRequests asked) with old | new
        · have earlier := seenSaid (List.ne_nil_of_mem old)
          rw [earlier, Bool.true_or, Bool.true_or]
        · rw [show blockIds (retainNewRequests state.seen chunk.content).1 = [] from quiet] at new
          contradiction
    · have told : saysSomething identifiedChunk = true := by
        apply asksIn
        rw [identified (fun message => blockIds message.content) fun _ _ => rfl]
        intro none
        exact quiet ((normalizeToolCallThinking_ids state.messages { chunk with content := retained.1 }).2.symm.trans none)
      have asked : saysSomething entry.1 = true := by
        apply asksIn
        intro none
        rw [← content] at none
        apply quiet
        rw [← none]
        exact congrArg blockIds (retainNewRequests_of_quiet none _)
      rw [told, asked, Bool.or_true, Bool.or_true]
  refine ⟨said, fun some => ?_⟩
  rcases List.exists_mem_of_ne_nil _ some with ⟨id, seen⟩
  rcases ((retainNewRequests_ids state.seen _).2.2 id).mp seen with old | new
  · rw [said, seenSaid (List.ne_nil_of_mem old), Bool.true_or]
  · rw [said, Bool.or_eq_true]
    right
    apply asksIn
    intro none
    rw [content_withInference] at new
    rw [retainNewRequests_of_quiet none, none] at new
    contradiction

theorem saysSomething_receiveChunks (turn : ProviderTurn) (names : List String) (chunks : List Message) :
    (receiveChunks turn names chunks).any saysSomething = chunks.any saysSomething := by
  have folded : forall (entries : List (Message × Nat)) (state : Accumulator), SeenSaid state ->
      (entries.foldl (receiveChunk turn names) state).messages.any saysSomething =
        (state.messages.any saysSomething || (entries.map Prod.fst).any saysSomething) := by
    intro entries
    induction entries with
    | nil => exact fun state _ => (Bool.or_false _).symm
    | cons entry rest ih =>
        intro state seenSaid
        have heard : (receiveChunk turn names state entry).messages.any saysSomething = _ ∧ SeenSaid _ :=
          saysSomething_receiveChunk seenSaid entry
        rcases heard with ⟨said, kept⟩
        rw [List.foldl_cons, ih _ kept, said, List.map_cons, List.any_cons, Bool.or_assoc]
  have whole := folded chunks.zipIdx {} fun some => absurd rfl some
  rw [List.zipIdx_map_fst] at whole
  exact whole

/-! ## An inference -/

/-- The thinking in the messages that effects append. -/
def toldThinking (effects : List AIBuddyEffect) : List MessageContentBlock :=
  effects.flatMap fun effect =>
    match effect with
    | .conversation (.appendMessage message) => thinkingIn message.content
    | _ => []

/-- The thinking in the messages that an inference appends. -/
def appendedThinking : OperationResult -> List MessageContentBlock
  | .notApplicable => []
  | .applied result => toldThinking result.effects

/-- The thinking that the provider streamed. -/
def streamedThinking (env : StepEnv) : List MessageContentBlock :=
  if env.provider.startError.isSome then [] else thinkingOf (receivedChunks env)

/-- The thinking that the chunks of an inference take and do not tell. -/
def untoldThinking (env : StepEnv) (names : List String) : List MessageContentBlock :=
  if env.provider.startError.isSome then []
  else takenThinking env.provider names {} (receivedChunks env).zipIdx

/-- Whether the response is more than blank texts: a chunk says something or was cut off, the stream
broke or was cancelled, or requests of the turn are answered because of a cancellation. -/
def respondsWithSomething (machine : Machine) (env : StepEnv) (turn : List Message) : Bool :=
  streamCancelled env || env.provider.streamError.isSome || (receivedChunks env).any saysSomething ||
    (cancelledAtStreamEnd env && (cancellationResponse machine.codec env.now turn []).isSome)

theorem toldThinking_append (front back : List AIBuddyEffect) :
    toldThinking (front ++ back) = toldThinking front ++ toldThinking back :=
  List.flatMap_append

theorem toldThinking_map (messages : List Message) :
    toldThinking (messages.map AIBuddyEffect.append) = thinkingOf messages := by
  rw [toldThinking, List.flatMap_map]
  rfl

theorem toldThinking_usageEffects (env : StepEnv) : toldThinking (usageEffects env) = [] := by
  unfold usageEffects
  split <;> rfl

theorem toldThinking_turnContextEvent (machine : Machine) (env : StepEnv) (turn : List Message) :
    toldThinking ((turnContextEvent machine env turn).map AIBuddyEffect.append) = [] := by
  rw [toldThinking_map]
  unfold turnContextEvent
  split
  · rfl
  · extract_lets event last
    split
    · rfl
    · rfl

theorem answerMessage_content (codec : TextCodec) (now : Int) (answers : List Answer) :
    (answerMessage codec now answers).content = answers.map fun answer =>
      .toolResponseWithMetadata codec answer.id answer.result answer.metadata := by
  have folded : forall message : Message,
      (answers.foldl (fun message answer =>
        message.addToolResponseWithMetadata codec answer.id answer.result answer.metadata) message).content =
        message.content ++ answers.map fun answer =>
          .toolResponseWithMetadata codec answer.id answer.result answer.metadata := by
    induction answers with
    | nil => exact fun message => (List.append_nil _).symm
    | cons answer rest ih =>
        intro message
        rw [List.foldl_cons, ih, List.map_cons]
        exact List.append_assoc _ _ _
  exact (folded (.user now)).trans (List.nil_append _)

theorem cancellationResponse_told {codec : TextCodec} {now : Int} {persisted pending : List Message}
    {response : Message} (answered : cancellationResponse codec now persisted pending = some response) :
    thinkingIn response.content = [] ∧ saysSomething response = true := by
  unfold cancellationResponse at answered
  extract_lets answers at answered
  split at answered
  · contradiction
  · case _ some =>
      cases answered
      constructor
      · rw [thinkingIn, answerMessage_content, List.filter_eq_nil_iff]
        intro block member
        rcases List.mem_map.mp member with ⟨answer, _, rfl⟩
        exact Bool.false_ne_true
      · rw [saysSomething, Bool.or_eq_true]
        right
        rcases List.exists_mem_of_ne_nil answers (fun none => some (by rw [none]; rfl)) with ⟨answer, member⟩
        rw [Bool.not_eq_true', isBlankMessage, answerMessage_content, List.all_eq_false]
        exact ⟨_, List.mem_map_of_mem member, Bool.false_ne_true⟩

theorem cancellationResponse_of_silent {pending : List Message} (silent : pending.any saysSomething = false)
    (codec : TextCodec) (now : Int) (persisted : List Message) :
    cancellationResponse codec now persisted pending = cancellationResponse codec now persisted [] := by
  have quiet : forall message, message ∈ pending -> message.toolRequests = [] ∧ message.toolResponseIds = [] := by
    intro message member
    have blank := List.any_eq_false.mp silent message member
    rw [saysSomething, Bool.not_eq_true, Bool.or_eq_false_iff, Bool.not_eq_false'] at blank
    have each := List.all_eq_true.mp blank.2
    constructor
    · apply List.filterMap_eq_nil_iff.mpr
      intro block inContent
      have here := each block inContent
      cases block <;> first | rfl | contradiction
    · apply List.filterMap_eq_nil_iff.mpr
      intro block inContent
      have here := each block inContent
      cases block <;> first | rfl | contradiction
  have requests : pending.flatMap Message.toolRequests = [] :=
    List.flatMap_eq_nil_iff.mpr fun message member => (quiet message member).1
  have answers : pending.flatMap Message.toolResponseIds = [] :=
    List.flatMap_eq_nil_iff.mpr fun message member => (quiet message member).2
  unfold cancellationResponse cancellationAnswers
  rw [List.flatMap_append, requests, answeredIds_append, show answeredIds pending = [] from answers, List.append_nil,
    List.append_nil, List.append_nil]

/-! ## Inference -/

section Inference

variable (machine : Machine) (env : StepEnv) (names : List String) (turn : List Message)

/-- What is settled of a stream. -/
def settledMessages (collected : List Message) : List Message :=
  if cancelledAtStreamEnd env then
    match cancellationResponse machine.codec env.now turn collected with
    | some response => pushMessage collected (ensureId (env.provider.chunkId env.provider.chunks.length) response)
    | none => collected
  else collected

variable {machine env turn}

/-- Whether there is more than blank texts behind a stream. -/
theorem saysSomething_settledMessages (collected : List Message) :
    (settledMessages machine env turn collected).any saysSomething = (collected.any saysSomething ||
      (cancelledAtStreamEnd env && (cancellationResponse machine.codec env.now turn []).isSome)) := by
  unfold settledMessages
  cases cancelledAtStreamEnd env with
  | false => simp
  | true =>
      simp only [if_true, Bool.true_and]
      cases said : collected.any saysSomething with
      | false =>
          rw [cancellationResponse_of_silent said, Bool.false_or]
          cases answered : cancellationResponse machine.codec env.now turn [] with
          | none => exact said
          | some response =>
              simp only
              rw [saysSomething_pushMessage, ensureId_reads saysSomething (fun _ _ => rfl),
                (cancellationResponse_told answered).2, Bool.or_true]
              rfl
      | true =>
          rw [Bool.true_or]
          split
          · rw [saysSomething_pushMessage, said, Bool.true_or]
          · exact said

theorem toldOnce_settledMessages {collected : List Message} {pieces back : List MessageContentBlock}
    (told : ToldOnce joinBlocks pieces (thinkingOf collected ++ back)) :
    ToldOnce joinBlocks pieces (thinkingOf (settledMessages machine env turn collected) ++ back) := by
  unfold settledMessages
  split
  · split
    · case _ response answered =>
        apply toldOnce_pushMessage
        rw [ensureId_reads (fun message => thinkingIn message.content) fun _ _ => rfl,
          (cancellationResponse_told answered).1, List.append_nil]
        exact told
    · exact told
  · exact told

theorem finishStream_thinking (collected : List Message) {before : List AIBuddyEffect}
    (quiet : toldThinking before = []) :
    appendedThinking (finishStream machine env turn collected before) =
      if streamCancelled env || (settledMessages machine env turn collected).any saysSomething then
        thinkingOf (settledMessages machine env turn collected)
      else [] := by
  have empty : forall messages : List Message,
      (!(messages.any fun message => message.metadata.outputTokenLimitReached) && messages.all isBlankMessage) =
        !messages.any saysSomething := by
    intro messages
    induction messages with
    | nil => rfl
    | cons first rest ih =>
        rw [List.any_cons, List.all_cons, List.any_cons, Bool.not_or (saysSomething first), ← ih,
          saysSomething]
        cases first.metadata.outputTokenLimitReached <;> cases isBlankMessage first <;> simp
  unfold finishStream
  change appendedThinking (if (!streamCancelled env &&
    (!(settledMessages machine env turn collected).any fun message => message.metadata.outputTokenLimitReached) &&
      (settledMessages machine env turn collected).all isBlankMessage) = true then _ else _) = _
  rw [Bool.and_assoc, empty, ← Bool.not_or]
  cases streamCancelled env || (settledMessages machine env turn collected).any saysSomething with
  | true =>
      rw [if_neg (by simp), if_pos rfl]
      change toldThinking (before ++ usageEffects env ++ _) = _
      rw [toldThinking_append, toldThinking_append, quiet, toldThinking_usageEffects, toldThinking_map]
      rfl
  | false =>
      rw [if_pos Bool.not_false, if_neg (by simp)]
      change toldThinking (before ++ usageEffects env ++ _) = _
      rw [toldThinking_append, toldThinking_append, quiet, toldThinking_usageEffects]
      rfl

variable (machine turn)

theorem toldOnce_inferOn (responds : respondsWithSomething machine env turn = true) :
    ToldOnce joinBlocks (streamedThinking env)
      (appendedThinking (inferOn machine env names turn) ++ untoldThinking env names) := by
  have context := toldThinking_turnContextEvent machine env turn
  have collected := toldOnce_receiveChunks env.provider names (receivedChunks env)
  unfold inferOn streamedThinking untoldThinking
  extract_lets before messages
  cases started : env.provider.startError with
  | some error =>
      have told : appendedThinking (.proceed (before ++ [.append (messageFromProviderError env error)])) = [] := by
        change toldThinking (before ++ _) = _
        rw [toldThinking_append, context]
        rfl
      simp only [Option.isSome_some, if_true, told]
      exact .refl []
  | none =>
      simp only [Option.isSome_none, Bool.false_eq_true, if_false]
      have finished : (streamCancelled env || (settledMessages machine env turn messages).any saysSomething) = true ->
          ToldOnce joinBlocks (thinkingOf (receivedChunks env))
            (appendedThinking (finishStream machine env turn messages before) ++
              takenThinking env.provider names {} (receivedChunks env).zipIdx) := by
        intro said
        rw [finishStream_thinking messages context, if_pos said]
        exact toldOnce_settledMessages collected
      cases broken : env.provider.streamError with
      | none =>
          apply finished
          rw [saysSomething_settledMessages, saysSomething_receiveChunks, ← Bool.or_assoc]
          simpa [respondsWithSomething, broken] using responds
      | some error =>
          simp only
          split
          · case _ cancelled =>
              apply finished
              rw [cancelled, Bool.true_or]
          · have told : appendedThinking (.proceed (before ++ usageEffects env ++ messages.map .append ++
                [.append (messageFromProviderError env error)])) = thinkingOf messages := by
              change toldThinking (before ++ _ ++ _ ++ _) = _
              rw [toldThinking_append, toldThinking_append, toldThinking_append, context, toldThinking_usageEffects,
                toldThinking_map]
              exact List.append_nil _
            rw [told]
            exact collected

theorem appendedThinking_of_silent (silent : respondsWithSomething machine env turn = false) :
    appendedThinking (inferOn machine env names turn) = [] := by
  have context := toldThinking_turnContextEvent machine env turn
  simp only [respondsWithSomething, Bool.or_eq_false_iff] at silent
  unfold inferOn
  extract_lets before messages
  cases started : env.provider.startError with
  | some error =>
      change toldThinking (before ++ _) = _
      rw [toldThinking_append, context]
      rfl
  | none =>
      cases broken : env.provider.streamError with
      | some error =>
          rw [broken] at silent
          exact absurd silent.1.1.2 (by simp)
      | none =>
          simp only
          rw [finishStream_thinking messages context, saysSomething_settledMessages, saysSomething_receiveChunks,
            silent.1.1.1, silent.1.2, silent.2, if_neg (by simp)]

end Inference

/-- The thinking that the provider streams in an inference is told once when no chunk takes thinking
that it does not tell, and the response is more than blank texts or there is no thinking.  Where every
block thinks something, this is the only way. -/
theorem streamedThinking_toldOnce (machine : Machine) (env : StepEnv) (names : List String) (turn : List Message) :
    (untoldThinking env names = [] ∧ (respondsWithSomething machine env turn = true ∨ streamedThinking env = []) ->
      ToldOnce joinBlocks (streamedThinking env) (appendedThinking (inferOn machine env names turn))) ∧
    ((forall block, block ∈ streamedThinking env -> 0 < thinkingSize block) ->
      ToldOnce joinBlocks (streamedThinking env) (appendedThinking (inferOn machine env names turn)) ->
        untoldThinking env names = [] ∧ (respondsWithSomething machine env turn = true ∨ streamedThinking env = [])) := by
  constructor
  · rintro ⟨kept, responds⟩
    cases said : respondsWithSomething machine env turn with
    | true =>
        have told := toldOnce_inferOn machine names turn said
        rw [kept, List.append_nil] at told
        exact told
    | false =>
        rw [appendedThinking_of_silent machine names turn said,
          responds.resolve_left (by rw [said]; exact Bool.false_ne_true)]
        exact .refl []
  · intro sized told
    cases said : respondsWithSomething machine env turn with
    | true =>
        refine ⟨?_, Or.inl rfl⟩
        have whole := toldOnce_inferOn machine names turn said
        exact whole.rest_eq_nil thinkingSize_join sized (told.size_eq thinkingSize_join).ge
    | false =>
        rw [appendedThinking_of_silent machine names turn said] at told
        refine ⟨?_, Or.inr told.eq_nil⟩
        have whole := toldOnce_receiveChunks env.provider names (receivedChunks env)
        have none := told.eq_nil
        unfold streamedThinking at none
        unfold untoldThinking
        split
        · rfl
        · case _ started =>
            rw [if_neg started] at none
            rw [none] at whole
            exact whole.rest_eq_nil thinkingSize_join (fun _ member => absurd member List.not_mem_nil) (Nat.zero_le _)

/-! ## Thinking in two chunks -/

namespace StreamedThinkingExample

def thought (text : String) : MessageContentBlock :=
  .thinking ⟨text, ""⟩

/-- The provider first thinks, and then calls a tool, perhaps with a second thought. -/
def thinksThenCalls (second : List MessageContentBlock) : StepEnv :=
  { StepEnv.still with
    provider := { ProviderTurn.silent with
      chunks := [((Message.assistant 0).withContent (thought "plan")).withId "m",
        { ((Message.assistant 0).withId "m") with
          content := second ++ [.newToolRequest "call" (.ok ⟨"shell", none⟩)] }] } }

end StreamedThinkingExample

/-- Of two thoughts, the one that comes with the call is told and the one before it is lost. -/
theorem streamedThinking_lost :
    streamedThinking (StreamedThinkingExample.thinksThenCalls [StreamedThinkingExample.thought "now"]) =
        [StreamedThinkingExample.thought "plan", StreamedThinkingExample.thought "now"] ∧
      appendedThinking (inferOn Machine.plain
        (StreamedThinkingExample.thinksThenCalls [StreamedThinkingExample.thought "now"]) [] []) =
          [StreamedThinkingExample.thought "now"] ∧
      ¬ ToldOnce joinBlocks
        (streamedThinking (StreamedThinkingExample.thinksThenCalls [StreamedThinkingExample.thought "now"]))
        (appendedThinking (inferOn Machine.plain
          (StreamedThinkingExample.thinksThenCalls [StreamedThinkingExample.thought "now"]) [] [])) := by
  have streamed : streamedThinking (StreamedThinkingExample.thinksThenCalls [StreamedThinkingExample.thought "now"]) =
      [StreamedThinkingExample.thought "plan", StreamedThinkingExample.thought "now"] := by decide
  have appended : appendedThinking (inferOn Machine.plain
      (StreamedThinkingExample.thinksThenCalls [StreamedThinkingExample.thought "now"]) [] []) =
        [StreamedThinkingExample.thought "now"] := by decide
  refine ⟨streamed, appended, fun told => ?_⟩
  rw [streamed, appended] at told
  exact absurd (told.size_eq thinkingSize_join) (by decide)

/-- A thought before a call moves into its message. -/
theorem streamedThinking_moved :
    ToldOnce joinBlocks (streamedThinking (StreamedThinkingExample.thinksThenCalls []))
      (appendedThinking (inferOn Machine.plain (StreamedThinkingExample.thinksThenCalls []) [] [])) :=
  (streamedThinking_toldOnce Machine.plain (StreamedThinkingExample.thinksThenCalls []) [] []).1
    ⟨by decide, Or.inl (by decide)⟩

end AIBuddy
