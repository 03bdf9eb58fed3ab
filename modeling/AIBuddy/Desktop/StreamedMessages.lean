import Mathlib.Data.List.Nodup
import AIBuddy.Desktop.Adapter
import AIBuddy.Support.Coalesce
import AIBuddy.Support.Gather

namespace AIBuddy
namespace Desktop

/-!
# Messages that are streamed

A message of texts, images and thinking is streamed as chunks that carry its identifier.  The
adapter gathers the chunks by identifier and role, joins neighbouring texts whatever their
annotations are, leaves out an image that the message already has, and puts thinking into a
message of the assistant.  It ends with the messages that were streamed exactly when none of
that makes a difference.
-/

/-! ## What is streamed -/

/-- A block, with the pieces in which its text is streamed. -/
inductive StreamedBlock where
  | text (first : String) (more : List String) (annotations : Option Json)
  | image (data mimeType : String) (annotations : Option Json)
  | thinking (first : String) (more : List String)

/-- The text of the pieces. -/
def joinedText (first : String) (more : List String) : String :=
  more.foldl (fun text piece => text ++ piece) first

def StreamedBlock.content : StreamedBlock -> MessageContent
  | .text first more annotations => .text (joinedText first more) annotations none
  | .image data mimeType annotations => .image data mimeType annotations none
  | .thinking first more => .thinking (joinedText first more) ""

/-- A message with an identifier, which is not a steer message. -/
structure StreamedMessage where
  id : String
  present : id ≠ ""
  role : Role
  created : Int
  blocks : List StreamedBlock

/-- What one chunk carries of a message. -/
inductive PieceBlock where
  | text (text : String) (annotations : Option Json)
  | image (data mimeType : String) (annotations : Option Json)
  | thinking (text : String)

/-- A chunk of a message. -/
structure Piece where
  messageId : String
  role : Role
  created : Int
  block : PieceBlock

namespace Piece

/-- The chunk as the protocol transports it, with the metadata of its message. -/
def chunk (piece : Piece) (content : ContentBlock) : ContentChunk :=
  ⟨content, some piece.messageId, ⟨some piece.messageId, some piece.created, false, false, false⟩⟩

/-- The update of a piece with content. -/
def contentUpdate (piece : Piece) (content : ContentBlock) : SessionUpdate :=
  match piece.role with
  | .user => .userMessageChunk (piece.chunk content)
  | .assistant => .agentMessageChunk (piece.chunk content)

/-- The update that streams a piece; thinking is streamed as a thought whatever the role is. -/
def update (piece : Piece) : SessionUpdate :=
  match piece.block with
  | .text text annotations => piece.contentUpdate (.text text annotations none)
  | .image data mimeType annotations => piece.contentUpdate (.image data mimeType annotations none)
  | .thinking text => .agentThoughtChunk (piece.chunk (.text text none none))

/-- The role of the message that a piece ends up in. -/
def author (piece : Piece) : Role :=
  match piece.block with
  | .thinking _ => .assistant
  | _ => piece.role

end Piece

/-- The pieces of a block. -/
def StreamedBlock.pieces : StreamedBlock -> List PieceBlock
  | .text first more annotations => (first :: more).map fun text => .text text annotations
  | .image data mimeType annotations => [.image data mimeType annotations]
  | .thinking first more => (first :: more).map fun text => .thinking text

/-- The pieces of a message in their order. -/
def StreamedMessage.pieces (message : StreamedMessage) : List Piece :=
  (message.blocks.flatMap StreamedBlock.pieces).map fun block =>
    ⟨message.id, message.role, message.created, block⟩

/-- A stream has the pieces of each message in their order, and the messages begin in their own
order.  Nothing else is in it, and messages may overlap. -/
structure Streams (messages : List StreamedMessage) (stream : List Piece) : Prop where
  inOrder : forall message, message ∈ messages ->
    (stream.filter fun piece => decide (piece.messageId = message.id)) = message.pieces
  begins : (stream.map Piece.messageId).eraseDups =
    (messages.filter fun message => !message.blocks.isEmpty).map StreamedMessage.id

/-- The messages of an adapter that has nothing yet, after a stream. -/
def replayed (now : Int) (stream : List Piece) : List Message :=
  ((stream.map Piece.update).foldl (fun state update => (applyAcpSessionNotification now state update).1)
    (createAcpSessionNotificationAdapter [] Table.empty)).messages

/-! ## What should come of it -/

/-- A text or thinking with another one behind it. -/
def joinedContent (first second : MessageContent) : MessageContent :=
  match first, second with
  | .text left annotations metaFields, .text right _ _ => .text (left ++ right) annotations metaFields
  | .thinking left signature, .thinking right _ => .thinking (left ++ right) signature
  | first, _ => first

/-- Neighbouring texts of equal annotations are joined, and neighbouring thinking. -/
def annotatedJoining : Joining MessageContent (Option (Option Json)) where
  key
    | .text _ annotations _ => some (some annotations)
    | .thinking _ _ => some none
    | _ => none
  combine := joinedContent
  key_combine := by
    intro first second same
    cases first <;> cases second <;> simp_all [joinedContent]

/-- Neighbouring texts are joined whatever their annotations are, and neighbouring thinking. -/
def plainJoining : Joining MessageContent Bool where
  key
    | .text _ _ _ => some true
    | .thinking _ _ => some false
    | _ => none
  combine := joinedContent
  key_combine := by
    intro first second same
    cases first <;> cases second <;> simp_all [joinedContent]

/-- A streamed message as the desktop should have it. -/
def StreamedMessage.expected (message : StreamedMessage) : Message :=
  ⟨some message.id, message.role, message.created,
    annotatedJoining.collect (message.blocks.map StreamedBlock.content), defaultVisibleMessageMetadata⟩

/-- What an image is recognized by. -/
def imageKey : MessageContent -> Option (String × String)
  | .image data mimeType _ _ => some (data, mimeType)
  | _ => none

/-- Two blocks do not differ in the annotations of their texts. -/
def AnnotationsAgree : MessageContent -> MessageContent -> Prop
  | .text _ left _, .text _ right _ => left = right
  | _, _ => True

/-- A message that arrives as it was: it has content, thinking is in a message of the assistant,
no image occurs twice, and neighbouring texts have equal annotations. -/
structure StreamedMessage.Faithful (message : StreamedMessage) : Prop where
  content : message.blocks ≠ []
  thinking : forall first more, StreamedBlock.thinking first more ∈ message.blocks -> message.role = .assistant
  images : ((message.blocks.map StreamedBlock.content).filterMap imageKey).Nodup
  annotations : (message.blocks.map StreamedBlock.content).IsChain AnnotationsAgree

/-! ## Content that grows by pieces -/

/-- Put a piece behind the content of its message. -/
def appendPiece (content : List MessageContent) : PieceBlock -> List MessageContent
  | .text text annotations => appendContent content (.text text annotations none)
  | .image data mimeType annotations => appendContent content (.image data mimeType annotations none)
  | .thinking text => appendThinking content text

/-- Put a whole block behind the content of its message. -/
def appendBlock (content : List MessageContent) (block : MessageContent) : List MessageContent :=
  match block with
  | .thinking text _ => appendThinking content text
  | block => appendContent content block

theorem appendContent_text_text (content : List MessageContent) (first second : String) (annotations : Option Json) :
    appendContent (appendContent content (.text first annotations none)) (.text second annotations none) =
      appendContent content (.text (first ++ second) annotations none) := by
  rcases List.eq_nil_or_concat' content with rfl | ⟨front, last, rfl⟩
  · simp [appendContent]
  · cases last <;> simp [appendContent, String.append_assoc]

theorem appendThinking_appendThinking (content : List MessageContent) (first second : String) :
    appendThinking (appendThinking content first) second = appendThinking content (first ++ second) := by
  rcases List.eq_nil_or_concat' content with rfl | ⟨front, last, rfl⟩
  · simp [appendThinking]
  · cases last <;> simp [appendThinking, String.append_assoc]

theorem foldl_appendPiece_pieces (content : List MessageContent) (block : StreamedBlock) :
    block.pieces.foldl appendPiece content = appendBlock content block.content := by
  cases block with
  | image data mimeType annotations => rfl
  | text first more annotations =>
      rw [StreamedBlock.pieces, StreamedBlock.content, joinedText, appendBlock]
      · induction more generalizing first with
        | nil => rfl
        | cons second more ih =>
            rw [List.foldl_cons, ← ih (first ++ second), List.map_cons, List.map_cons, List.foldl_cons,
              List.foldl_cons, List.map_cons, List.foldl_cons, appendPiece, appendPiece, appendPiece,
              appendContent_text_text]
      · intro text signature same
        contradiction
  | thinking first more =>
      rw [StreamedBlock.pieces, StreamedBlock.content, joinedText, appendBlock]
      induction more generalizing first with
      | nil => rfl
      | cons second more ih =>
          rw [List.foldl_cons, ← ih (first ++ second), List.map_cons, List.map_cons, List.foldl_cons,
            List.foldl_cons, List.map_cons, List.foldl_cons, appendPiece, appendPiece, appendPiece,
            appendThinking_appendThinking]

theorem foldl_appendPiece_blocks (content : List MessageContent) (blocks : List StreamedBlock) :
    (blocks.flatMap StreamedBlock.pieces).foldl appendPiece content =
      (blocks.map StreamedBlock.content).foldl appendBlock content := by
  induction blocks generalizing content with
  | nil => rfl
  | cons block blocks ih =>
      rw [List.flatMap_cons, List.foldl_append, foldl_appendPiece_pieces, ih, List.map_cons,
        List.foldl_cons]

/-! ## Images and joints -/

theorem hasImageContent_iff (content : List MessageContent) (data mimeType : String) :
    hasImageContent content data mimeType = true ↔ (data, mimeType) ∈ content.filterMap imageKey := by
  simp only [hasImageContent, List.any_eq_true, List.mem_filterMap]
  apply exists_congr
  intro block
  cases block <;> simp [imageKey]

theorem imageKey_joinedContent (first second : MessageContent)
    (joins : plainJoining.joins first second = true) :
    imageKey (joinedContent first second) = none ∧ imageKey first = none ∧ imageKey second = none := by
  cases first <;> cases second <;> simp_all [joinedContent, imageKey, plainJoining, Joining.joins]

theorem images_push (content : List MessageContent) (block : MessageContent) :
    (plainJoining.push content block).filterMap imageKey = content.filterMap imageKey ++ (imageKey block).toList := by
  rcases List.eq_nil_or_concat' content with rfl | ⟨front, last, rfl⟩
  · cases found : imageKey block <;> simp [found]
  · rw [Joining.push_concat]
    split
    · rename_i joins
      rcases imageKey_joinedContent last block joins with ⟨joined, lastKey, blockKey⟩
      have combined : imageKey (plainJoining.combine last block) = none := joined
      simp [combined, lastKey, blockKey]
    · cases found : imageKey block <;> cases lastFound : imageKey last <;> simp [found, lastFound]

theorem appendBlock_of_fresh (content : List MessageContent) (block : StreamedBlock)
    (fresh : forall key, imageKey block.content = some key -> key ∉ content.filterMap imageKey) :
    appendBlock content block.content = plainJoining.push content block.content := by
  cases block with
  | image data mimeType annotations =>
      have absent : hasImageContent content data mimeType = false := by
        rw [← Bool.not_eq_true, hasImageContent_iff]
        exact fresh (data, mimeType) rfl
      rcases List.eq_nil_or_concat' content with rfl | ⟨front, last, rfl⟩
      · simp [StreamedBlock.content, appendBlock, appendContent, absent]
      · rw [StreamedBlock.content, Joining.push_concat]
        cases last <;> simp [appendBlock, appendContent, absent, Joining.joins, plainJoining]
  | text first more annotations =>
      rcases List.eq_nil_or_concat' content with rfl | ⟨front, last, rfl⟩
      · simp [StreamedBlock.content, appendBlock, appendContent]
      · rw [StreamedBlock.content, Joining.push_concat]
        cases last <;> simp [appendBlock, appendContent, Joining.joins, plainJoining, joinedContent]
  | thinking first more =>
      rcases List.eq_nil_or_concat' content with rfl | ⟨front, last, rfl⟩
      · simp [StreamedBlock.content, appendBlock, appendThinking]
      · rw [StreamedBlock.content, Joining.push_concat]
        cases last <;> simp [appendBlock, appendThinking, Joining.joins, plainJoining, joinedContent]

theorem appendBlock_of_present (content : List MessageContent) (block : StreamedBlock) (key : String × String)
    (image : imageKey block.content = some key) (present : key ∈ content.filterMap imageKey) :
    appendBlock content block.content = content := by
  cases block with
  | image data mimeType annotations =>
      rw [StreamedBlock.content, imageKey, Option.some.injEq] at image
      subst image
      have there := (hasImageContent_iff content data mimeType).mpr present
      simp [StreamedBlock.content, appendBlock, appendContent, there]
  | text first more annotations => contradiction
  | thinking first more => contradiction

theorem images_foldl_nodup (content : List MessageContent) (blocks : List StreamedBlock)
    (distinct : (content.filterMap imageKey).Nodup) :
    (((blocks.map StreamedBlock.content).foldl appendBlock content).filterMap imageKey).Nodup := by
  induction blocks generalizing content with
  | nil => exact distinct
  | cons block blocks ih =>
      rw [List.map_cons, List.foldl_cons]
      apply ih
      by_cases fresh : forall key, imageKey block.content = some key -> key ∉ content.filterMap imageKey
      · rw [appendBlock_of_fresh content block fresh, images_push]
        cases image : imageKey block.content with
        | none => simpa using distinct
        | some key =>
            rw [Option.toList_some, List.nodup_append]
            refine ⟨distinct, by simp, fun other member last inLast same => ?_⟩
            rw [List.mem_singleton.mp inLast] at same
            exact fresh key image (same ▸ member)
      · push_neg at fresh
        rcases fresh with ⟨key, image, present⟩
        rw [appendBlock_of_present content block key image present]
        exact distinct

theorem foldl_appendBlock_of_nodup (content : List MessageContent) (blocks : List StreamedBlock)
    (distinct : (content.filterMap imageKey ++ (blocks.map StreamedBlock.content).filterMap imageKey).Nodup) :
    (blocks.map StreamedBlock.content).foldl appendBlock content =
      (blocks.map StreamedBlock.content).foldl plainJoining.push content := by
  induction blocks generalizing content with
  | nil => rfl
  | cons block blocks ih =>
      rw [List.map_cons, List.foldl_cons, List.foldl_cons]
      have images : ((block.content :: blocks.map StreamedBlock.content).filterMap imageKey) =
          (imageKey block.content).toList ++ (blocks.map StreamedBlock.content).filterMap imageKey := by
        cases found : imageKey block.content <;> simp [found]
      rw [List.map_cons, images] at distinct
      have fresh : forall key, imageKey block.content = some key -> key ∉ content.filterMap imageKey := by
        intro key image member
        rw [image] at distinct
        exact (List.nodup_append.mp distinct).2.2 key member key (by simp) rfl
      rw [appendBlock_of_fresh content block fresh]
      apply ih
      rw [images_push, List.append_assoc]
      exact distinct

theorem images_collect (blocks : List MessageContent) :
    (annotatedJoining.collect blocks).filterMap imageKey = blocks.filterMap imageKey := by
  rw [List.filterMap_eq_flatMap_toList, List.filterMap_eq_flatMap_toList]
  apply Joining.flatMap_collect
  intro first second joins
  cases first <;> cases second <;> simp_all [annotatedJoining, joinedContent, imageKey, Joining.joins]

theorem joins_of_annotatedJoining (first second : MessageContent)
    (joins : annotatedJoining.joins first second = true) : plainJoining.joins first second = true := by
  cases first <;> cases second <;> simp_all [annotatedJoining, plainJoining, Joining.joins]

theorem annotationsAgree_iff (first second : MessageContent) :
    (plainJoining.joins first second = true -> annotatedJoining.joins first second = true) ↔
      AnnotationsAgree first second := by
  cases first <;> cases second <;> simp [annotatedJoining, plainJoining, Joining.joins, AnnotationsAgree]

theorem foldl_appendBlock_eq_iff (blocks : List StreamedBlock) :
    (blocks.map StreamedBlock.content).foldl appendBlock [] =
        annotatedJoining.collect (blocks.map StreamedBlock.content) ↔
      ((blocks.map StreamedBlock.content).filterMap imageKey).Nodup ∧
        (blocks.map StreamedBlock.content).IsChain AnnotationsAgree := by
  have joints := Joining.collect_eq_collect_iff annotatedJoining plainJoining (fun _ _ => rfl)
    joins_of_annotatedJoining (blocks.map StreamedBlock.content)
  simp only [annotationsAgree_iff] at joints
  constructor
  · intro same
    have distinct : ((blocks.map StreamedBlock.content).filterMap imageKey).Nodup := by
      rw [← images_collect, ← same]
      exact images_foldl_nodup [] blocks List.nodup_nil
    rw [foldl_appendBlock_of_nodup [] blocks (by simpa using distinct), Joining.foldl_push] at same
    exact ⟨distinct, joints.mp same⟩
  · rintro ⟨distinct, agree⟩
    rw [foldl_appendBlock_of_nodup [] blocks (by simpa using distinct), Joining.foldl_push]
    exact joints.mpr agree

/-! ## The adapter gathers pieces -/

/-- Pieces are gathered by identifier and author. -/
def gathering : Gathering Piece Message (String × Role) where
  label piece := (piece.messageId, piece.author)
  key message := (message.id.getD "", message.role)
  start piece := ⟨some piece.messageId, piece.author, piece.created, appendPiece [] piece.block,
    defaultVisibleMessageMetadata⟩
  extend message piece := { message with content := appendPiece message.content piece.block }
  key_start _ := rfl
  key_extend _ _ := rfl

/-- A message that was streamed: it has an identifier and the metadata of every message. -/
structure Identified (message : Message) : Prop where
  id : Exists fun id => message.id = some id ∧ id ≠ ""
  metadata : message.metadata = defaultVisibleMessageMetadata

theorem findMessageForChunk_identified (messages : List Message) (role : Role) (id : String) (created : Option Int)
    (identified : forall message, message ∈ messages -> Identified message) (present : id ≠ "") :
    findMessageForChunk messages role (some id) created =
      focus? (fun message => decide (message.id = some id) && decide (message.role = role)) messages := by
  rw [findMessageForChunk, truthy_some id present]
  simp only
  split
  · rename_i focus found
    exact found.symm
  · rename_i absent
    rw [absent]
    split
    · rename_i pending found
      rcases (identified pending.message (mem_of_lastMergeable found)).id with ⟨other, named, nonempty⟩
      rw [named, truthy_some other nonempty]
      rfl
    · rfl

theorem extendMessage_identified (state : AdapterState) (focus : Focus) (content : MessageContent)
    (id : Option String) (created : Option Int) (identified : Identified focus.message) :
    (extendMessage state focus content ⟨id, created, false, false, false⟩).1 =
      { state with
        messages := focus.replaced { focus.message with content := appendContent focus.message.content content } } := by
  rcases focus with ⟨before, ⟨messageId, role, second, blocks, metadata⟩, after⟩
  have same : metadata = defaultVisibleMessageMetadata := identified.metadata
  subst same
  rfl

/-- The message that has the identifier and the author of a piece. -/
def Piece.place (piece : Piece) (messages : List Message) : Option Focus :=
  focus? (fun message => decide (message.id = some piece.messageId) && decide (message.role = piece.author)) messages

theorem mem_of_place {piece : Piece} {messages : List Message} {focus : Focus}
    (found : piece.place messages = some focus) : focus.message ∈ messages := by
  rw [(focus?_eq_some found).1]
  simp

theorem deliver_eq (messages : List Message) (piece : Piece)
    (identified : forall message, message ∈ messages -> Identified message) :
    gathering.deliver messages piece =
      match piece.place messages with
      | some focus =>
          focus.replaced { focus.message with content := appendPiece focus.message.content piece.block }
      | none => messages ++ [gathering.start piece] := by
  have keyed : forall message, message ∈ messages ->
      (gathering.key message = gathering.label piece ↔
        (decide (message.id = some piece.messageId) && decide (message.role = piece.author)) = true) := by
    intro message member
    rcases (identified message member).id with ⟨id, named, -⟩
    simp [gathering, named]
  split
  · rename_i focus found
    rcases focus?_eq_some found with ⟨same, meets, earlier⟩
    rw [same] at keyed
    rw [same, gathering.deliver_of_found _ _ _ _ ?_ ((keyed focus.message (by simp)).mpr meets)]
    · rfl
    · intro other member matched
      have fails := earlier other member
      rw [(keyed other (List.mem_append_left _ member)).mp matched] at fails
      contradiction
  · rename_i absent
    apply gathering.deliver_of_absent
    intro message member matched
    have fails := focus?_eq_none absent message member
    rw [(keyed message member).mp matched] at fails
    contradiction

theorem findMessageForChunk_place (messages : List Message) (piece : Piece) (present : piece.messageId ≠ "")
    (identified : forall message, message ∈ messages -> Identified message) :
    findMessageForChunk messages piece.author (some piece.messageId) (some piece.created) = piece.place messages :=
  findMessageForChunk_identified messages piece.author piece.messageId _ identified present

theorem applyContentChunk_piece (now : Int) (state : AdapterState) (piece : Piece) (content : ContentBlock)
    (block : MessageContent) (present : piece.messageId ≠ "")
    (identified : forall message, message ∈ state.messages -> Identified message)
    (shown : messageContentFromAcpContentBlock content = some block)
    (appended : forall blocks, appendPiece blocks piece.block = appendContent blocks block)
    (first : appendPiece [] piece.block = [block]) :
    (applyContentChunk now state piece.author (piece.chunk content)).1.messages =
      gathering.deliver state.messages piece := by
  rw [deliver_eq _ _ identified, applyContentChunk, Piece.chunk]
  simp only [shown, Option.some_or]
  rw [findMessageForChunk_place _ _ present identified]
  cases found : piece.place state.messages with
  | some focus =>
      simp only
      rw [extendMessage_identified _ _ _ _ _ (identified focus.message (mem_of_place found)), appended]
  | none =>
      simp only [gathering, first, truthy_some piece.messageId present]
      rfl

theorem applyThoughtChunk_piece (now : Int) (state : AdapterState) (piece : Piece) (text : String)
    (present : piece.messageId ≠ "") (identified : forall message, message ∈ state.messages -> Identified message)
    (thinks : piece.block = .thinking text) :
    (applyThoughtChunk now state (piece.chunk (.text text none none))).1.messages =
      gathering.deliver state.messages piece := by
  have author : Role.assistant = piece.author := by rw [Piece.author, thinks]
  rw [deliver_eq _ _ identified, applyThoughtChunk, Piece.chunk]
  simp only [Option.some_or]
  rw [author, findMessageForChunk_place _ _ present identified]
  cases found : piece.place state.messages with
  | some focus =>
      simp only [getOrCreateMessage, Option.getD_some]
      rw [(identified focus.message (mem_of_place found)).metadata, thinks]
      rfl
  | none =>
      simp only [getOrCreateMessage, Option.getD_none, gathering, thinks, truthy_some piece.messageId present]
      rfl

theorem apply_update (now : Int) (state : AdapterState) (piece : Piece) (present : piece.messageId ≠ "")
    (identified : forall message, message ∈ state.messages -> Identified message) :
    (applyAcpSessionNotification now state piece.update).1.messages = gathering.deliver state.messages piece := by
  rcases piece with ⟨messageId, role, created, block⟩
  cases block with
  | text text annotations =>
      cases role <;>
        exact applyContentChunk_piece now state _ (.text text annotations none) (.text text annotations none) present
          identified rfl (fun _ => rfl) rfl
  | image data mimeType annotations =>
      cases role <;>
        exact applyContentChunk_piece now state _ (.image data mimeType annotations none)
          (.image data mimeType annotations none) present identified rfl (fun _ => rfl) rfl
  | thinking text => exact applyThoughtChunk_piece now state _ text present identified rfl

theorem identified_deliver (messages : List Message) (piece : Piece) (present : piece.messageId ≠ "")
    (identified : forall message, message ∈ messages -> Identified message) :
    forall message, message ∈ gathering.deliver messages piece -> Identified message := by
  induction messages with
  | nil =>
      intro message member
      rw [List.mem_singleton.mp member]
      exact ⟨⟨piece.messageId, rfl, present⟩, rfl⟩
  | cons first rest ih =>
      have known := identified first List.mem_cons_self
      have others := ih fun message member => identified message (List.mem_cons_of_mem _ member)
      intro message member
      rw [Gathering.deliver] at member
      split at member
      · rcases List.mem_cons.mp member with rfl | later
        · exact ⟨known.id, known.metadata⟩
        · exact identified message (List.mem_cons_of_mem _ later)
      · rcases List.mem_cons.mp member with rfl | later
        · exact known
        · exact others message later

theorem replayed_eq_foldl (now : Int) (stream : List Piece)
    (present : forall piece, piece ∈ stream -> piece.messageId ≠ "") :
    replayed now stream = stream.foldl gathering.deliver [] := by
  have general : forall state : AdapterState, (forall message, message ∈ state.messages -> Identified message) ->
      ((stream.map Piece.update).foldl (fun state update => (applyAcpSessionNotification now state update).1)
        state).messages = stream.foldl gathering.deliver state.messages := by
    induction stream with
    | nil => exact fun state _ => rfl
    | cons piece rest ih =>
        intro state identified
        have nonempty := present piece List.mem_cons_self
        have step := apply_update now state piece nonempty identified
        rw [List.map_cons, List.foldl_cons, List.foldl_cons,
          ih (fun other member => present other (List.mem_cons_of_mem _ member)), step]
        rw [step]
        exact identified_deliver state.messages piece nonempty identified
  exact general _ fun message member => absurd member List.not_mem_nil

/-! ## What comes of a stream -/

namespace StreamedMessage

/-- A streamed message as the adapter builds it of its pieces. -/
def built (message : StreamedMessage) : Message :=
  ⟨some message.id, message.role, message.created, (message.blocks.map StreamedBlock.content).foldl appendBlock [],
    defaultVisibleMessageMetadata⟩

/-- Thinking is in a message of the assistant. -/
def Authored (message : StreamedMessage) : Prop :=
  forall piece, piece ∈ message.pieces -> piece.author = message.role

theorem mem_pieces {message : StreamedMessage} {piece : Piece} (member : piece ∈ message.pieces) :
    piece.messageId = message.id ∧ piece.role = message.role ∧ piece.created = message.created := by
  rcases List.mem_map.mp member with ⟨block, -, rfl⟩
  exact ⟨rfl, rfl, rfl⟩

theorem pieces_ne_nil (message : StreamedMessage) (content : message.blocks ≠ []) : message.pieces ≠ [] := by
  rcases List.exists_cons_of_ne_nil content with ⟨block, rest, same⟩
  cases block <;> simp [pieces, same, StreamedBlock.pieces]

theorem authored_iff (message : StreamedMessage) :
    message.Authored ↔
      forall first more, StreamedBlock.thinking first more ∈ message.blocks -> message.role = .assistant := by
  constructor
  · intro authored first more member
    have thought := authored ⟨message.id, message.role, message.created, .thinking first⟩
      (List.mem_map_of_mem (List.mem_flatMap.mpr ⟨_, member, List.mem_cons_self⟩))
    exact thought.symm
  · intro assistant piece member
    rcases List.mem_map.mp member with ⟨block, inBlocks, rfl⟩
    rcases List.mem_flatMap.mp inBlocks with ⟨streamed, inMessage, inPieces⟩
    cases streamed with
    | text first more annotations =>
        rcases List.mem_map.mp inPieces with ⟨text, -, rfl⟩
        rfl
    | image data mimeType annotations =>
        rw [List.mem_singleton.mp inPieces]
        rfl
    | thinking first more =>
        rcases List.mem_map.mp inPieces with ⟨text, -, rfl⟩
        exact (assistant first more inMessage).symm

theorem built_eq_expected_iff (message : StreamedMessage) :
    message.built = message.expected ↔
      ((message.blocks.map StreamedBlock.content).filterMap imageKey).Nodup ∧
        (message.blocks.map StreamedBlock.content).IsChain AnnotationsAgree := by
  rw [← foldl_appendBlock_eq_iff, built, expected]
  simp

end StreamedMessage

theorem foldl_extend (message : Message) (pieces : List Piece) :
    pieces.foldl gathering.extend message =
      { message with content := (pieces.map Piece.block).foldl appendPiece message.content } := by
  induction pieces generalizing message with
  | nil => rfl
  | cons piece rest ih =>
      rw [List.foldl_cons, ih]
      rfl

theorem gathered_pieces (message : StreamedMessage) (content : message.blocks ≠ []) (authored : message.Authored) :
    gathering.gathered message.pieces = some message.built := by
  have blocks : message.pieces.map Piece.block = message.blocks.flatMap StreamedBlock.pieces := by
    rw [StreamedMessage.pieces, List.map_map]
    exact List.map_id _
  rcases List.exists_cons_of_ne_nil (message.pieces_ne_nil content) with ⟨first, rest, same⟩
  have member : first ∈ message.pieces := by
    rw [same]
    exact List.mem_cons_self
  rcases StreamedMessage.mem_pieces member with ⟨id, -, created⟩
  have author := authored first member
  rw [same, List.map_cons] at blocks
  have start : gathering.start first =
      ⟨some message.id, message.role, message.created, appendPiece [] first.block, defaultVisibleMessageMetadata⟩ := by
    simp only [gathering, id, created, author]
  rw [same, Gathering.gathered, foldl_extend, StreamedMessage.built, ← foldl_appendPiece_blocks, ← blocks,
    List.foldl_cons, start]

section Stream

variable {messages : List StreamedMessage} {stream : List Piece}

theorem Streams.mem_pieces (streams : Streams messages stream) {piece : Piece} (member : piece ∈ stream) :
    Exists fun message => message ∈ messages ∧ piece ∈ message.pieces := by
  have listed : piece.messageId ∈ (stream.map Piece.messageId).eraseDups :=
    List.mem_eraseDups.mpr (List.mem_map_of_mem member)
  rw [streams.begins] at listed
  rcases List.mem_map.mp listed with ⟨message, filtered, same⟩
  have known := (List.mem_filter.mp filtered).1
  refine ⟨message, known, ?_⟩
  rw [← streams.inOrder message known, List.mem_filter]
  exact ⟨member, by simpa using same.symm⟩

theorem Streams.mem_stream (streams : Streams messages stream) {message : StreamedMessage} {piece : Piece}
    (known : message ∈ messages) (member : piece ∈ message.pieces) : piece ∈ stream := by
  rw [← streams.inOrder message known] at member
  exact (List.mem_filter.mp member).1

theorem Streams.replayed_eq (streams : Streams messages stream) (now : Int) :
    replayed now stream =
      (stream.map gathering.label).eraseDups.filterMap fun key => gathering.gathered (gathering.having key stream) := by
  rw [replayed_eq_foldl, gathering.foldl_deliver]
  intro piece member
  rcases streams.mem_pieces member with ⟨message, -, inPieces⟩
  rw [(StreamedMessage.mem_pieces inPieces).1]
  exact message.present

/-- The role of the message with an identifier. -/
def roleOf (messages : List StreamedMessage) (id : String) : Role :=
  ((messages.find? fun message => decide (message.id = id)).map StreamedMessage.role).getD .user

theorem roleOf_eq (distinct : (messages.map StreamedMessage.id).Nodup) {message : StreamedMessage}
    (known : message ∈ messages) : roleOf messages message.id = message.role := by
  cases found : messages.find? fun other => decide (other.id = message.id) with
  | none => exact absurd (by simp) (List.find?_eq_none.mp found message known)
  | some other =>
      have same : other = message :=
        List.inj_on_of_nodup_map distinct (List.mem_of_find?_eq_some found) known
          (by simpa using List.find?_some found)
      rw [roleOf, found, same]
      rfl

theorem Streams.replayed_eq_built (streams : Streams messages stream)
    (distinct : (messages.map StreamedMessage.id).Nodup) (now : Int)
    (content : forall message, message ∈ messages -> message.blocks ≠ [])
    (authored : forall message, message ∈ messages -> message.Authored) :
    replayed now stream = messages.map StreamedMessage.built := by
  have labels : stream.map gathering.label =
      (stream.map Piece.messageId).map fun id => (id, roleOf messages id) := by
    rw [List.map_map]
    apply List.map_congr_left
    intro piece member
    rcases streams.mem_pieces member with ⟨message, known, inPieces⟩
    have author := authored message known piece inPieces
    have id := (StreamedMessage.mem_pieces inPieces).1
    simp [gathering, author, id, roleOf_eq distinct known]
  have nonempty : (messages.filter fun message => !message.blocks.isEmpty) = messages := by
    rw [List.filter_eq_self]
    intro message known
    simpa using content message known
  have injective : Function.Injective fun id => (id, roleOf messages id) := fun _ _ same => (Prod.mk.inj same).1
  rw [streams.replayed_eq now, labels, Gathering.eraseDups_map _ injective, streams.begins, nonempty, List.map_map,
    List.filterMap_map, ← List.filterMap_eq_map]
  apply List.filterMap_congr
  intro message known
  have having : gathering.having (message.id, roleOf messages message.id) stream = message.pieces := by
    rw [← streams.inOrder message known, Gathering.having]
    apply List.filter_congr
    intro piece member
    rcases streams.mem_pieces member with ⟨other, otherKnown, inPieces⟩
    have author := authored other otherKnown piece inPieces
    have id := (StreamedMessage.mem_pieces inPieces).1
    simp only [gathering, Prod.mk.injEq, decide_eq_decide, and_iff_left_iff_imp]
    intro same
    rw [author, ← roleOf_eq distinct otherKnown, ← id, same]
  simp only [Function.comp_apply]
  rw [having, gathered_pieces message (content message known) (authored message known)]

theorem Streams.piece_of_mem (streams : Streams messages stream) (now : Int) {message : Message}
    (member : message ∈ replayed now stream) :
    Exists fun piece => piece ∈ stream ∧ gathering.label piece = gathering.key message := by
  rw [streams.replayed_eq now] at member
  rcases List.mem_filterMap.mp member with ⟨key, inKeys, gathers⟩
  rcases List.mem_map.mp (List.mem_eraseDups.mp inKeys) with ⟨piece, inStream, same⟩
  exact ⟨piece, inStream, same.trans (gathering.key_gathered_having key stream message gathers).symm⟩

theorem Streams.mem_of_piece (streams : Streams messages stream) (now : Int) {piece : Piece}
    (member : piece ∈ stream) :
    Exists fun message => message ∈ replayed now stream ∧ gathering.key message = gathering.label piece := by
  have inKeys : gathering.label piece ∈ (stream.map gathering.label).eraseDups :=
    List.mem_eraseDups.mpr (List.mem_map_of_mem member)
  have having : piece ∈ gathering.having (gathering.label piece) stream := List.mem_filter.mpr ⟨member, by simp⟩
  cases found : gathering.having (gathering.label piece) stream with
  | nil =>
      rw [found] at having
      exact absurd having List.not_mem_nil
  | cons first rest =>
      have gathers : gathering.gathered (gathering.having (gathering.label piece) stream) =
          some (rest.foldl gathering.extend (gathering.start first)) := by
        rw [found]
        rfl
      refine ⟨_, ?_, gathering.key_gathered_having _ stream _ gathers⟩
      rw [streams.replayed_eq now]
      exact List.mem_filterMap.mpr ⟨_, inKeys, gathers⟩

/-- The adapter ends with the messages that were streamed, neighbouring texts of equal
annotations joined, exactly when every message has content, thinking is in messages of the
assistant, no message has an image twice, and neighbouring texts have equal annotations. -/
theorem replayed_eq_expected_iff (messages : List StreamedMessage) (stream : List Piece) (now : Int)
    (distinct : (messages.map StreamedMessage.id).Nodup) (streams : Streams messages stream) :
    replayed now stream = messages.map StreamedMessage.expected ↔
      forall message, message ∈ messages -> message.Faithful := by
  have builds : (forall message, message ∈ messages -> message.blocks ≠ []) ->
      (forall message, message ∈ messages -> message.Authored) ->
      (replayed now stream = messages.map StreamedMessage.expected ↔
        forall message, message ∈ messages -> message.built = message.expected) := by
    intro content authored
    rw [streams.replayed_eq_built distinct now content authored, List.map_inj_left]
  constructor
  · intro same
    have content : forall message, message ∈ messages -> message.blocks ≠ [] := by
      intro message known empty
      have shown : message.expected ∈ replayed now stream := by
        rw [same]
        exact List.mem_map_of_mem known
      rcases streams.piece_of_mem now shown with ⟨piece, member, keyed⟩
      have id : piece.messageId = message.id := (Prod.mk.inj keyed).1
      have inPieces : piece ∈ message.pieces := by
        rw [← streams.inOrder message known, List.mem_filter]
        exact ⟨member, by simpa using id⟩
      rw [StreamedMessage.pieces, empty] at inPieces
      exact absurd inPieces List.not_mem_nil
    have authored : forall message, message ∈ messages -> message.Authored := by
      intro message known piece inPieces
      rcases streams.mem_of_piece now (streams.mem_stream known inPieces) with ⟨shown, member, keyed⟩
      rw [same] at member
      rcases List.mem_map.mp member with ⟨other, otherKnown, rfl⟩
      have id : other.id = message.id := ((Prod.mk.inj keyed).1).trans (StreamedMessage.mem_pieces inPieces).1
      have equal := List.inj_on_of_nodup_map distinct otherKnown known id
      rw [← equal]
      exact ((Prod.mk.inj keyed).2).symm
    have exact := (builds content authored).mp same
    intro message known
    rcases message.built_eq_expected_iff.mp (exact message known) with ⟨images, annotations⟩
    exact ⟨content message known, message.authored_iff.mp (authored message known), images, annotations⟩
  · intro faithful
    refine (builds (fun message known => (faithful message known).content)
      fun message known => message.authored_iff.mpr (faithful message known).thinking).mpr ?_
    intro message known
    exact message.built_eq_expected_iff.mpr ⟨(faithful message known).images, (faithful message known).annotations⟩

end Stream

/-! ## Texts for two audiences -/

/-- Annotations with an audience. -/
def audience (role : String) : Option Json :=
  some (.object [("audience", .array [.string role])])

/-- A text for the user and one for the assistant, in one message. -/
def twoAudiences : StreamedMessage :=
  ⟨"msg_1", by decide, .assistant, 100,
    [.text "Done." [] (audience "user"), .text "exit code 0" [] (audience "assistant")]⟩

/-- The same text for the user in two pieces, with thinking before it. -/
def oneAudience : StreamedMessage :=
  ⟨"msg_1", by decide, .assistant, 100, [.thinking "Let me" [" see"], .text "Do" ["ne."] (audience "user")]⟩

/-- The text for the assistant becomes part of the text for the user. -/
theorem twoAudiences_joined :
    Streams [twoAudiences] twoAudiences.pieces ∧
      (twoAudiences.expected.content =
        [.text "Done." (audience "user") none, .text "exit code 0" (audience "assistant") none]) ∧
      (replayed 0 twoAudiences.pieces).map Message.content =
        [[.text "Done.exit code 0" (audience "user") none]] :=
  ⟨⟨List.forall_mem_singleton.mpr rfl, rfl⟩, by decide +kernel, by decide +kernel⟩

/-- A message that is faithful arrives as it was. -/
theorem oneAudience_replayed :
    replayed 0 oneAudience.pieces = [oneAudience.expected] := by
  refine (replayed_eq_expected_iff [oneAudience] oneAudience.pieces 0 (List.nodup_singleton _)
    ⟨List.forall_mem_singleton.mpr rfl, rfl⟩).mpr (List.forall_mem_singleton.mpr ⟨?_, ?_, ?_, ?_⟩)
  · exact List.cons_ne_nil _ _
  · exact fun _ _ _ => rfl
  · exact List.nodup_nil
  · exact List.isChain_cons_cons.mpr ⟨trivial, List.isChain_singleton _⟩

end Desktop
end AIBuddy
