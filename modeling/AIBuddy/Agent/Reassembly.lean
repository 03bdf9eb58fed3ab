import AIBuddy.Agent.Inference
import Mathlib.Data.List.Forall2

namespace AIBuddy

/-!
# Reassembling a streamed message

A provider streams a message as chunks of one block each.  A text arrives in
pieces for one audience, and a thinking block in pieces without a signature,
closed by one that carries it.  Pushing the chunks gives back the blocks, with
neighbouring texts for one audience joined.
-/

/-! ## How blocks are split -/

/-- A block that is always delivered whole. -/
def isWhole : MessageContentBlock -> Bool
  | .text _ | .thinking _ => false
  | _ => true

/-- A text for an audience, in pieces. -/
def textPieces (annotations : Option Annotations) (texts : List String) : List MessageContentBlock :=
  texts.map fun text => .text ⟨text, annotations⟩

/-- A thinking block in pieces, the last of which carries the signature. -/
def thinkingPieces (unsigned : List String) (closing signature : String) : List MessageContentBlock :=
  unsigned.map (fun thinking => .thinking ⟨thinking, ""⟩) ++ [.thinking ⟨closing, signature⟩]

/-- The pieces in which a list of blocks may be delivered. -/
inductive Splits : List MessageContentBlock -> List MessageContentBlock -> Prop where
  | nil : Splits [] []
  | text (first : String) (more : List String) (annotations : Option Annotations)
      {blocks pieces : List MessageContentBlock} (rest : Splits blocks pieces) :
      Splits (.text ⟨String.join (first :: more), annotations⟩ :: blocks)
        (textPieces annotations (first :: more) ++ pieces)
  | thinking (unsigned : List String) (closing signature : String) (signed : signature ≠ "")
      {blocks pieces : List MessageContentBlock} (rest : Splits blocks pieces) :
      Splits (.thinking ⟨String.join unsigned ++ closing, signature⟩ :: blocks)
        (thinkingPieces unsigned closing signature ++ pieces)
  | whole (block : MessageContentBlock) (undivided : isWhole block = true)
      {blocks pieces : List MessageContentBlock} (rest : Splits blocks pieces) :
      Splits (block :: blocks) (block :: pieces)

/-- The signature of a thinking block. -/
def signatureOf : MessageContentBlock -> Option String
  | .thinking content => some content.signature
  | _ => none

/-- Neighbouring thinking blocks have signatures of their own. -/
def OwnSignatures (blocks : List MessageContentBlock) : Prop :=
  blocks.IsChain fun first second =>
    forall signature, signatureOf first = some signature -> signatureOf second ≠ some signature

/-! ## Joining pieces -/

/-- Extend the content of a message by one block. -/
def extendBlock (content : List MessageContentBlock) (block : MessageContentBlock) : List MessageContentBlock :=
  extendContent content [block]

theorem extendBlock_concat (front : List MessageContentBlock) (last block : MessageContentBlock) :
    extendBlock (front ++ [last]) block =
      match joinBlocks last block with
      | some joined => front ++ [joined]
      | none => front ++ [last] ++ [block] := by
  cases joined : joinBlocks last block <;> simp [extendBlock, extendContent, joined]

/-- Whether the next block can be joined to the last one. -/
def Separate (content : List MessageContentBlock) (block : MessageContentBlock) : Prop :=
  forall last, content.getLast? = some last -> joinBlocks last block = none

theorem extendBlock_of_separate {content : List MessageContentBlock} {block : MessageContentBlock}
    (separate : Separate content block) : extendBlock content block = content ++ [block] := by
  cases content using List.reverseRecOn with
  | nil => rfl
  | append_singleton front last =>
      rw [extendBlock_concat, separate last (List.getLast?_concat ..)]

theorem extendBlock_text (content : List MessageContentBlock) (text : TextContent) :
    extendBlock content (.text text) = pushTextContent content (.text text) := by
  cases content using List.reverseRecOn with
  | nil => rfl
  | append_singleton front last =>
      rw [extendBlock_concat]
      unfold pushTextContent
      rw [List.getLast?_concat]
      cases last with
      | text existing =>
          simp only [joinBlocks, List.dropLast_concat]
          by_cases sameAudience : existing.audience = text.audience
          · simp only [sameAudience, if_true]
          · simp only [sameAudience, if_false]
      | _ => rfl

@[simp] theorem audience_mk (text : String) (annotations : Option Annotations) :
    TextContent.audience ⟨text, annotations⟩ = annotations.bind Annotations.audience := rfl

theorem pushTextContent_piece (content : List MessageContentBlock) (first second : String)
    (annotations : Option Annotations) :
    pushTextContent (pushTextContent content (.text ⟨first, annotations⟩)) (.text ⟨second, annotations⟩) =
      pushTextContent content (.text ⟨first ++ second, annotations⟩) := by
  have appended : forall front : List MessageContentBlock,
      pushTextContent (front ++ [.text ⟨first, annotations⟩]) (.text ⟨second, annotations⟩) =
        front ++ [.text ⟨first ++ second, annotations⟩] := by
    intro front
    simp [pushTextContent]
  cases content using List.reverseRecOn with
  | nil => exact appended []
  | append_singleton front last =>
      cases last with
      | text existing =>
          rcases existing with ⟨existing, existingAnnotations⟩
          by_cases sameAudience : existingAnnotations.bind Annotations.audience = annotations.bind Annotations.audience
          · simp [pushTextContent, sameAudience, String.append_assoc]
          · simp [pushTextContent, sameAudience]
      | _ => simp [pushTextContent]

theorem foldl_extendBlock_text (content : List MessageContentBlock) (first : String) (more : List String)
    (annotations : Option Annotations) :
    (textPieces annotations (first :: more)).foldl extendBlock content =
      pushTextContent content (.text ⟨String.join (first :: more), annotations⟩) := by
  have continued : forall begun : String, (textPieces annotations more).foldl extendBlock
      (pushTextContent content (.text ⟨begun, annotations⟩)) =
        pushTextContent content (.text ⟨begun ++ String.join more, annotations⟩) := by
    induction more with
    | nil =>
        intro begun
        simp [textPieces]
    | cons second rest ih =>
        intro begun
        have unfolded : textPieces annotations (second :: rest) =
            .text ⟨second, annotations⟩ :: textPieces annotations rest := rfl
        rw [unfolded, List.foldl_cons, extendBlock_text, pushTextContent_piece, ih]
        simp [String.join_cons, String.append_assoc]
  have unfolded : textPieces annotations (first :: more) =
      .text ⟨first, annotations⟩ :: textPieces annotations more := rfl
  rw [unfolded, List.foldl_cons, extendBlock_text, continued, String.join_cons]

theorem foldl_extendBlock_thinking (front : List MessageContentBlock) (begun : String) (unsigned : List String)
    (closing signature : String) :
    (thinkingPieces unsigned closing signature).foldl extendBlock (front ++ [.thinking ⟨begun, ""⟩]) =
      front ++ [.thinking ⟨begun ++ (String.join unsigned ++ closing), signature⟩] := by
  induction unsigned generalizing begun with
  | nil =>
      simp only [thinkingPieces, List.map_nil, List.nil_append, List.foldl_cons, List.foldl_nil, extendBlock_concat,
        joinBlocks]
      by_cases unsignedToo : signature = "" <;> simp [unsignedToo]
  | cons piece rest ih =>
      have unfolded : thinkingPieces (piece :: rest) closing signature =
          .thinking ⟨piece, ""⟩ :: thinkingPieces rest closing signature := rfl
      rw [unfolded, List.foldl_cons, extendBlock_concat]
      simp only [joinBlocks, true_or, if_true]
      rw [ih]
      simp [String.join_cons, String.append_assoc]

/-! ## All blocks -/

/-- Whether the last block of a content is closed against a following block: a
thinking block has been signed, and not with the signature that follows. -/
def Closed (content : List MessageContentBlock) (next : Option MessageContentBlock) : Prop :=
  forall signature, content.getLast?.bind signatureOf = some signature ->
    signature ≠ "" ∧ next.bind signatureOf ≠ some signature

theorem Closed.separate {content : List MessageContentBlock} {next : Option MessageContentBlock}
    (closed : Closed content next) (thinking : String) {signature : String}
    (fits : signature = "" ∨ next.bind signatureOf = some signature) :
    Separate content (.thinking ⟨thinking, signature⟩) := by
  intro last isLast
  cases last with
  | thinking content =>
      have signed := closed content.signature (by rw [isLast]; rfl)
      have differs : ¬ (content.signature = "" ∨ signature = content.signature) := by
        rintro (empty | same)
        · exact signed.1 empty
        · rcases fits with rfl | following
          · exact signed.1 same.symm
          · exact signed.2 (by rw [following, same])
      simp [joinBlocks, differs]
  | _ => rfl

theorem getLast?_pushTextContent (content : List MessageContentBlock) (block : MessageContentBlock) :
    (pushTextContent content block).getLast?.bind signatureOf = signatureOf block := by
  unfold pushTextContent
  split
  · split
    · simp [signatureOf]
    · simp
  · simp

theorem pushTextContent_of_not_text {block : MessageContentBlock} (notText : block.asText = none)
    (content : List MessageContentBlock) : pushTextContent content block = content ++ [block] := by
  cases block with
  | text content => contradiction
  | _ => simp [pushTextContent]

theorem closed_pushTextContent (content : List MessageContentBlock) {blocks : List MessageContentBlock}
    {block : MessageContentBlock} (own : OwnSignatures (block :: blocks)) (signed : signatureOf block ≠ some "") :
    Closed (pushTextContent content block) blocks.head? := by
  intro signature isLast
  rw [getLast?_pushTextContent] at isLast
  refine ⟨?_, ?_⟩
  · rintro rfl
    exact signed isLast
  · cases blocks with
    | nil => simp
    | cons next rest => exact (List.isChain_cons_cons.mp own).1 signature isLast

theorem joinBlocks_whole {block : MessageContentBlock} (undivided : isWhole block = true)
    (last : MessageContentBlock) : joinBlocks last block = none := by
  cases block <;> first | contradiction | (cases last <;> rfl)

theorem foldl_extendBlock {blocks pieces : List MessageContentBlock} (splits : Splits blocks pieces)
    (own : OwnSignatures blocks) {content : List MessageContentBlock} (closed : Closed content blocks.head?) :
    pieces.foldl extendBlock content = blocks.foldl pushTextContent content := by
  induction splits generalizing content with
  | nil => rfl
  | text first more annotations rest ih =>
      rw [List.foldl_append, foldl_extendBlock_text, List.foldl_cons]
      exact ih own.of_cons (closed_pushTextContent content own (by simp [signatureOf]))
  | thinking unsigned closing signature signed rest ih =>
      have rebuilt : (thinkingPieces unsigned closing signature).foldl extendBlock content =
          content ++ [.thinking ⟨String.join unsigned ++ closing, signature⟩] := by
        cases unsigned with
        | nil =>
            have alone := extendBlock_of_separate (closed.separate closing (Or.inr rfl))
            simpa [thinkingPieces] using alone
        | cons piece more =>
            have unfolded : thinkingPieces (piece :: more) closing signature =
                .thinking ⟨piece, ""⟩ :: thinkingPieces more closing signature := rfl
            rw [unfolded, List.foldl_cons, extendBlock_of_separate (closed.separate piece (Or.inl rfl)),
              foldl_extendBlock_thinking]
            simp [String.join_cons, String.append_assoc]
      rw [List.foldl_append, rebuilt, List.foldl_cons, pushTextContent_of_not_text rfl]
      have after := closed_pushTextContent content own (by simp [signatureOf, signed])
      rw [pushTextContent_of_not_text rfl] at after
      exact ih own.of_cons after
  | whole block undivided rest ih =>
      have notText : block.asText = none := by
        cases block <;> first | rfl | contradiction
      have unsigned : signatureOf block ≠ some "" := by
        cases block <;> first | contradiction | simp [signatureOf]
      rw [List.foldl_cons, List.foldl_cons,
        extendBlock_of_separate fun last _ => joinBlocks_whole undivided last,
        ← pushTextContent_of_not_text notText]
      exact ih own.of_cons (closed_pushTextContent content own unsigned)

/-! ## Messages -/

/-- A message of a given identity: its id, its role and who sees it. -/
structure SameMessage (id : String) (role : Role) (userVisible agentVisible : Bool) (message : Message) : Prop where
  id : message.id = some id
  role : message.role = role
  userVisible : message.metadata.userVisible = userVisible
  agentVisible : message.metadata.agentVisible = agentVisible

variable {id : String} {role : Role} {userVisible agentVisible : Bool}

theorem pushMessage_first {messages : List Message} {chunk : Message}
    (fresh : forall last, messages.getLast? = some last -> last.id ≠ some id)
    (same : SameMessage id role userVisible agentVisible chunk) (filled : chunk.content.isEmpty = false) :
    pushMessage messages chunk = messages ++ [chunk] := by
  unfold pushMessage
  rw [filled, Bool.false_and, if_neg Bool.false_ne_true]
  cases messages using List.reverseRecOn with
  | nil => rfl
  | append_singleton front last =>
      have differs := fresh last (List.getLast?_concat ..)
      rw [List.getLast?_concat]
      simp only
      rw [if_neg]
      rintro ⟨_, sameId⟩
      exact differs (sameId.trans same.id)

theorem pushMessage_later {messages : List Message} {last chunk : Message} {block : MessageContentBlock}
    (sameLast : SameMessage id role userVisible agentVisible last)
    (same : SameMessage id role userVisible agentVisible chunk) (single : chunk.content = [block]) :
    pushMessage (messages ++ [last]) chunk =
      messages ++ [{ last with
        metadata := absorbMetadata last.metadata chunk.metadata
        content := extendBlock last.content block }] := by
  unfold pushMessage
  rw [single, List.isEmpty_cons, Bool.false_and, if_neg Bool.false_ne_true, List.getLast?_concat]
  simp only
  rw [if_pos ⟨by rw [sameLast.id]; rfl, by rw [sameLast.id, same.id]⟩, List.dropLast_concat]
  rfl

theorem foldl_pushMessage_later {chunks : List Message} {pieces : List MessageContentBlock}
    (contents : chunks.map Message.content = pieces.map fun piece => [piece])
    (same : forall chunk, chunk ∈ chunks -> SameMessage id role userVisible agentVisible chunk)
    (messages : List Message) {last : Message} (sameLast : SameMessage id role userVisible agentVisible last) :
    Exists fun message => chunks.foldl pushMessage (messages ++ [last]) = messages ++ [message] ∧
      SameMessage id role userVisible agentVisible message ∧
        message.content = pieces.foldl extendBlock last.content := by
  induction chunks generalizing pieces last with
  | nil =>
      have none : pieces = [] := by simpa using contents.symm
      exact ⟨last, rfl, sameLast, by rw [none]; rfl⟩
  | cons chunk rest ih =>
      cases pieces with
      | nil => simp at contents
      | cons piece morePieces =>
          simp only [List.map_cons, List.cons.injEq] at contents
          rw [List.foldl_cons, pushMessage_later sameLast (same chunk (List.mem_cons_self ..)) contents.1]
          apply ih contents.2 fun later member => same later (List.mem_cons_of_mem chunk member)
          exact ⟨sameLast.id, sameLast.role, sameLast.userVisible, sameLast.agentVisible⟩

/-- However a list of blocks is split into chunks of one message, pushing the
chunks gives one message with these blocks, neighbouring texts for one audience
joined. -/
theorem pushMessage_reassembles {blocks pieces : List MessageContentBlock} (splits : Splits blocks pieces)
    (own : OwnSignatures blocks) (nonempty : blocks ≠ []) {chunks : List Message}
    (contents : chunks.map Message.content = pieces.map fun piece => [piece])
    (same : forall chunk, chunk ∈ chunks -> SameMessage id role userVisible agentVisible chunk)
    {messages : List Message} (fresh : forall last, messages.getLast? = some last -> last.id ≠ some id) :
    Exists fun message => chunks.foldl pushMessage messages = messages ++ [message] ∧
      SameMessage id role userVisible agentVisible message ∧
        message.content = blocks.foldl pushTextContent [] := by
  have initially : Closed [] blocks.head? := fun signature isLast => by simp at isLast
  have rebuilt := foldl_extendBlock splits own initially
  cases chunks with
  | nil =>
      have noPieces : pieces = [] := by simpa using contents.symm
      cases splits with
      | nil => exact absurd rfl nonempty
      | text first more annotations rest => simp [textPieces] at noPieces
      | thinking unsigned closing signature signed rest => simp [thinkingPieces] at noPieces
      | whole block undivided rest => simp at noPieces
  | cons chunk rest =>
      cases pieces with
      | nil => simp at contents
      | cons piece morePieces =>
          simp only [List.map_cons, List.cons.injEq] at contents
          have sameFirst := same chunk (List.mem_cons_self ..)
          rw [List.foldl_cons, pushMessage_first fresh sameFirst (by rw [contents.1]; rfl)]
          rcases foldl_pushMessage_later contents.2
            (fun later member => same later (List.mem_cons_of_mem chunk member)) messages sameFirst with
            ⟨message, pushed, sameMessage, content⟩
          refine ⟨message, pushed, sameMessage, ?_⟩
          rw [content, contents.1, ← rebuilt]
          rfl

/-- Chunks of one assistant message, one for each piece. -/
def chunksOf (pieces : List MessageContentBlock) : List Message :=
  pieces.map fun piece => ((Message.assistant 0).withContent piece).withId "a1"

/-- Two thinking blocks and a text, each in two pieces. -/
theorem pushMessage_reassembles_two_signatures :
    Exists fun message =>
      (chunksOf (thinkingPieces ["a"] "b" "s1" ++ (thinkingPieces ["c"] "d" "s2" ++
        (textPieces none ["e", "f"] ++ [])))).foldl pushMessage [] = [message] ∧
      message.content = [.thinking ⟨"ab", "s1"⟩, .thinking ⟨"cd", "s2"⟩, .text ⟨"ef", none⟩] := by
  have splits : Splits [.thinking ⟨"ab", "s1"⟩, .thinking ⟨"cd", "s2"⟩, .text ⟨"ef", none⟩]
      (thinkingPieces ["a"] "b" "s1" ++ (thinkingPieces ["c"] "d" "s2" ++ (textPieces none ["e", "f"] ++ []))) :=
    .thinking ["a"] "b" "s1" (by decide) (.thinking ["c"] "d" "s2" (by decide) (.text "e" ["f"] none .nil))
  have own : OwnSignatures [.thinking ⟨"ab", "s1"⟩, .thinking ⟨"cd", "s2"⟩, .text ⟨"ef", none⟩] := by
    simp [OwnSignatures, signatureOf]
  have same : forall chunk, chunk ∈ chunksOf (thinkingPieces ["a"] "b" "s1" ++ (thinkingPieces ["c"] "d" "s2" ++
      (textPieces none ["e", "f"] ++ []))) -> SameMessage "a1" .assistant true true chunk := by
    intro chunk member
    rcases List.mem_map.mp member with ⟨piece, _, rfl⟩
    exact ⟨rfl, rfl, rfl, rfl⟩
  have fresh : forall last, ([] : List Message).getLast? = some last -> last.id ≠ some "a1" := by
    intro last isLast
    contradiction
  rcases pushMessage_reassembles splits own (by simp) rfl same fresh with ⟨message, pushed, _, content⟩
  exact ⟨message, pushed, content⟩

end AIBuddy
