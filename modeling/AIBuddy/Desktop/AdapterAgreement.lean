import Mathlib.Data.List.Basic
import AIBuddy.Desktop.SessionReplay

namespace AIBuddy
namespace Desktop

/-!
# Adapters that agree

Two adapters agree on all messages but some steer messages, on the tool calls that have not
ended, and on the texts of the other steer messages.  A notification keeps them in agreement
when it finds its message alike in both: by its identifier, or because their messages end alike.
-/

variable {steered : List String}

/-! ## What an update must find -/

/-- Two lists end with the same message, which is none of the steer messages, or have none. -/
def SameEnd (steered : List String) (left right : List Message) : Prop :=
  left.getLast? = right.getLast? ∧ forall last, last ∈ left.getLast? -> isAmong steered last = false

/-- A last message has an identifier. -/
def Named (messages : List Message) : Prop :=
  forall last, last ∈ messages.getLast? -> (truthy last.id).isSome = true

/-- A chunk finds its message alike in two lists: by its identifier where the last messages have
one, or else because the lists end alike. -/
def Placeable (steered : List String) (left right : List Message) (messageId : Option String) : Prop :=
  if (truthy messageId).any fun id => decide (id ∈ steered) then Named left ∧ Named right
  else SameEnd steered left right ∨ ((truthy messageId).isSome = true ∧ Named left ∧ Named right)

/-- Two lists are alike for an update; the response of a call is for no steer message. -/
def Alike (steered : List String) (left right : List Message) : SessionUpdate -> Prop
  | .userMessageChunk chunk => Placeable steered left right (chunk.messageId.or chunk.aibuddyMeta.messageId)
  | .agentMessageChunk chunk => Placeable steered left right (chunk.messageId.or chunk.aibuddyMeta.messageId)
  | .agentThoughtChunk chunk => Placeable steered left right (chunk.messageId.or chunk.aibuddyMeta.messageId)
  | .toolCall update => Placeable steered left right update.aibuddyMeta.messageId
  | .toolCallUpdate update =>
      ((truthy update.aibuddyMeta.messageId).any fun id => decide (id ∈ steered)) = false
  | _ => True

/-- Whether content has the response of a tool call. -/
def isToolResponse : MessageContent -> Bool
  | .toolResponse _ _ _ => true
  | _ => false

/-! ## Messages that are none of the steer messages -/

@[simp] theorem others_nil : others steered [] = [] := rfl

theorem others_append (front back : List Message) :
    others steered (front ++ back) = others steered front ++ others steered back :=
  List.filter_append front back

theorem others_cons_of_other {message : Message} (other : isAmong steered message = false) (rest : List Message) :
    others steered (message :: rest) = message :: others steered rest :=
  List.filter_cons_of_pos (by simp [other])

theorem others_cons_of_among {message : Message} (among : isAmong steered message = true) (rest : List Message) :
    others steered (message :: rest) = others steered rest :=
  List.filter_cons_of_neg (by simp [among])

/-- A place among the messages that are none of the steer messages. -/
def Focus.others (steered : List String) (focus : Focus) : Focus :=
  ⟨Desktop.others steered focus.before, focus.message, Desktop.others steered focus.after⟩

theorem focus?_others {condition : Message -> Bool}
    (other : forall message, condition message = true -> isAmong steered message = false) (messages : List Message) :
    focus? condition (others steered messages) = (focus? condition messages).map (Focus.others steered) := by
  induction messages with
  | nil => rfl
  | cons message rest ih =>
      cases among : isAmong steered message with
      | true =>
          have fails : ¬condition message = true := fun meets => by
            rw [other message meets] at among
            contradiction
          rw [others_cons_of_among among, ih, focus?, if_neg fails, Option.map_map]
          congr 1
          funext focus
          simp [Focus.others, others_cons_of_among among]
      | false =>
          rw [others_cons_of_other among, focus?, focus?]
          split
          · simp [Focus.others]
          · rw [ih, Option.map_map, Option.map_map]
            congr 1
            funext focus
            simp [Focus.others, others_cons_of_other among]

/-- Two places are the same among the other messages. -/
def SamePlace (steered : List String) (left right : Option Focus) : Prop :=
  left.map (Focus.others steered) = right.map (Focus.others steered)

theorem SamePlace.message {left right : Option Focus} (same : SamePlace steered left right) :
    left.map Focus.message = right.map Focus.message := by
  have projected := congrArg (Option.map Focus.message) same
  simpa [Option.map_map, Function.comp_def, Focus.others] using projected

theorem samePlace_focus? {condition : Message -> Bool}
    (other : forall message, condition message = true -> isAmong steered message = false)
    {left right : List Message} (same : others steered left = others steered right) :
    SamePlace steered (focus? condition left) (focus? condition right) := by
  rw [SamePlace, ← focus?_others other, ← focus?_others other, same]

theorem samePlace_lastMergeable {left right : List Message} (same : others steered left = others steered right)
    (ends : SameEnd steered left right) (role : Role) :
    SamePlace steered (lastMergeableMessageWithRole left role) (lastMergeableMessageWithRole right role) := by
  rw [lastMergeableMessageWithRole, lastMergeableMessageWithRole, ← ends.1]
  cases last : left.getLast? with
  | none => rfl
  | some message =>
      have other : isAmong steered message = false := ends.2 message last
      have leftSplit := List.dropLast_append_getLast? message last
      have rightSplit := List.dropLast_append_getLast? message (ends.1 ▸ last)
      rw [← leftSplit, ← rightSplit, others_append, others_append, others_cons_of_other other, others_nil,
        List.append_left_inj] at same
      simp only
      split
      · simp [SamePlace, Focus.others, same]
      · rfl

/-- A message without an identifier gets one. -/
def Focus.adopt (id : String) (created : Option Int) (pending : Focus) : Option Focus :=
  if (truthy pending.message.id).isNone then
    some { pending with
      message := { pending.message with
        id := some id
        created := created.getD pending.message.created } }
  else none

/-- The condition under which a message has an identifier and a role. -/
def hasIdAndRole (id : String) (role : Role) (message : Message) : Bool :=
  decide (message.id = some id) && decide (message.role = role)

theorem truthy_eq_some {text : Option String} {id : String} (given : truthy text = some id) :
    text = some id ∧ truthy (some id) = some id := by
  rw [truthy, Option.filter_eq_some_iff] at given
  exact ⟨given.1, by rw [truthy, Option.filter_eq_some_iff]; exact ⟨rfl, given.2⟩⟩

theorem findMessageForChunk_some {messageId : Option String} {id : String} (given : truthy messageId = some id)
    (messages : List Message) (role : Role) (created : Option Int) :
    findMessageForChunk messages role messageId created =
      (focus? (hasIdAndRole id role) messages).or
        ((lastMergeableMessageWithRole messages role).bind (Focus.adopt id created)) := by
  rw [findMessageForChunk, given]
  simp only
  split
  · rename_i focus found
    have same : focus? (hasIdAndRole id role) messages = some focus := found
    rw [same, Option.some_or]
  · rename_i absent
    have same : focus? (hasIdAndRole id role) messages = none := absent
    rw [same, Option.none_or]
    cases lastMergeableMessageWithRole messages role <;> rfl

theorem SamePlace.bind_adopt {left right : Option Focus} (same : SamePlace steered left right) (id : String)
    (created : Option Int) :
    SamePlace steered (left.bind (Focus.adopt id created)) (right.bind (Focus.adopt id created)) := by
  cases left with
  | none =>
      cases right with
      | none => rfl
      | some other => cases same
  | some pending =>
      cases right with
      | none => cases same
      | some other =>
          rw [SamePlace, Option.map_some, Option.map_some, Option.some.injEq, Focus.others, Focus.others,
            Focus.mk.injEq] at same
          rcases same with ⟨before, message, after⟩
          simp only [Option.bind_some, Focus.adopt, ← message]
          split
          · simp [SamePlace, Focus.others, before, after]
          · rfl

theorem SamePlace.or {left right leftNext rightNext : Option Focus} (first : SamePlace steered left right)
    (second : SamePlace steered leftNext rightNext) :
    SamePlace steered (left.or leftNext) (right.or rightNext) := by
  cases left with
  | none =>
      cases right with
      | none => exact second
      | some other => cases first
  | some pending =>
      cases right with
      | none => cases first
      | some other => exact first

theorem Named.bind_adopt {messages : List Message} (named : Named messages) (role : Role) (id : String)
    (created : Option Int) : (lastMergeableMessageWithRole messages role).bind (Focus.adopt id created) = none := by
  rw [lastMergeableMessageWithRole]
  cases last : messages.getLast? with
  | none => rfl
  | some message =>
      rcases Option.isSome_iff_exists.mp (named message last) with ⟨known, has⟩
      simp only
      split
      · simp [Focus.adopt, has]
      · rfl

theorem isAmong_of_id {message : Message} {id : String} (has : message.id = some id)
    (nonempty : truthy (some id) = some id) : isAmong steered message = decide (id ∈ steered) := by
  rw [isAmong, has, nonempty, Option.any_some]

theorem samePlace_findMessageForChunk {left right : List Message} (same : others steered left = others steered right)
    (role : Role) (messageId : Option String) (created : Option Int)
    (foreign : ((truthy messageId).any fun id => decide (id ∈ steered)) = false)
    (placeable : Placeable steered left right messageId) :
    SamePlace steered (findMessageForChunk left role messageId created)
      (findMessageForChunk right role messageId created) := by
  rw [Placeable, if_neg (by simp [foreign])] at placeable
  cases given : truthy messageId with
  | none =>
      rw [findMessageForChunk, findMessageForChunk, given]
      rcases placeable with ends | ⟨named, -⟩
      · exact samePlace_lastMergeable same ends role
      · rw [given] at named
        contradiction
  | some id =>
      rw [given] at foreign
      have nonempty := (truthy_eq_some given).2
      have meets : forall message, hasIdAndRole id role message = true -> isAmong steered message = false := by
        intro message both
        simp only [hasIdAndRole, Bool.and_eq_true, decide_eq_true_eq] at both
        rw [isAmong_of_id both.1 nonempty]
        simpa using foreign
      rw [findMessageForChunk_some given, findMessageForChunk_some given]
      apply (samePlace_focus? meets same).or
      rcases placeable with ends | ⟨-, leftNamed, rightNamed⟩
      · exact (samePlace_lastMergeable same ends role).bind_adopt id created
      · rw [leftNamed.bind_adopt, rightNamed.bind_adopt]
        rfl

/-! ## Where a message is put -/

/-- What a place was found of: the message as it was, with its content and its identifier, if it
had one. -/
structure Found (messages : List Message) (focus : Focus) (old : Message) : Prop where
  split : messages = focus.before ++ old :: focus.after
  content : focus.message.content = old.content
  id : truthy old.id = none ∨ focus.message.id = old.id

theorem found_lastMergeable {messages : List Message} {role : Role} {focus : Focus}
    (found : lastMergeableMessageWithRole messages role = some focus) : Found messages focus focus.message := by
  rw [lastMergeableMessageWithRole] at found
  split at found
  · rename_i last same
    split at found
    · cases found
      exact ⟨(List.dropLast_append_getLast? last same).symm, rfl, Or.inr rfl⟩
    · contradiction
  · contradiction

theorem found_focus? {condition : Message -> Bool} {messages : List Message} {focus : Focus}
    (found : focus? condition messages = some focus) : Found messages focus focus.message :=
  ⟨(focus?_eq_some found).1, rfl, Or.inr rfl⟩

theorem found_findMessageForChunk {messages : List Message} {role : Role} {messageId : Option String}
    {created : Option Int} {focus : Focus} (found : findMessageForChunk messages role messageId created = some focus) :
    (Exists fun old => Found messages focus old) ∧
      forall id, truthy messageId = some id -> focus.message.id = some id := by
  cases given : truthy messageId with
  | none =>
      rw [findMessageForChunk, given] at found
      exact ⟨⟨_, found_lastMergeable found⟩, fun id same => by contradiction⟩
  | some id =>
      rw [findMessageForChunk_some given] at found
      cases first : focus? (hasIdAndRole id role) messages with
      | some place =>
          rw [first, Option.some_or, Option.some.injEq] at found
          subst found
          have meets := (focus?_eq_some first).2.1
          simp only [hasIdAndRole, Bool.and_eq_true, decide_eq_true_eq] at meets
          exact ⟨⟨_, found_focus? first⟩, fun other same => by rw [← Option.some.inj same, meets.1]⟩
      | none =>
          rw [first, Option.none_or] at found
          rcases Option.bind_eq_some_iff.mp found with ⟨pending, last, adopted⟩
          rw [Focus.adopt] at adopted
          split at adopted
          · rename_i unnamed
            cases adopted
            rcases found_lastMergeable last with ⟨split, -, -⟩
            exact ⟨⟨pending.message, split, rfl, Or.inl (Option.isNone_iff_eq_none.mp unnamed)⟩,
              fun other same => by rw [← Option.some.inj same]⟩
          · contradiction

/-- Put a message at a place, or at the end when no place was found. -/
def place (messages : List Message) (found : Option Focus) (message : Message) : List Message :=
  match found with
  | some focus => focus.replaced message
  | none => messages ++ [message]

theorem others_place {left right : List Message} (same : others steered left = others steered right)
    {leftFound rightFound : Option Focus} (places : SamePlace steered leftFound rightFound) (message : Message) :
    others steered (place left leftFound message) = others steered (place right rightFound message) := by
  cases leftFound with
  | none =>
      cases rightFound with
      | none => rw [place, place, others_append, others_append, same]
      | some other => cases places
  | some focus =>
      cases rightFound with
      | none => cases places
      | some other =>
          rw [SamePlace, Option.map_some, Option.map_some, Option.some.injEq, Focus.others, Focus.others,
            Focus.mk.injEq] at places
          rcases places with ⟨before, -, after⟩
          rw [place, place, Focus.replaced, Focus.replaced, others_append, others_append, before]
          cases among : isAmong steered message with
          | true => rw [others_cons_of_among among, others_cons_of_among among, after]
          | false => rw [others_cons_of_other among, others_cons_of_other among, after]

theorem others_place_among {messages : List Message} {found : Option Focus} {message : Message}
    (among : isAmong steered message = true)
    (placed : forall focus, found = some focus -> Exists fun old => Found messages focus old ∧ isAmong steered old = true) :
    others steered (place messages found message) = others steered messages := by
  cases found with
  | none => rw [place, others_append, others_cons_of_among among, others_nil, List.append_nil]
  | some focus =>
      rcases placed focus rfl with ⟨old, ⟨split, -, -⟩, oldAmong⟩
      rw [place, Focus.replaced, split, others_append, others_append, others_cons_of_among among,
        others_cons_of_among oldAmong]

theorem mem_place {messages : List Message} {found : Option Focus} {message other : Message}
    (placed : forall focus, found = some focus -> Exists fun old => Found messages focus old)
    (member : other ∈ place messages found message) : other = message ∨ other ∈ messages := by
  cases found with
  | none => exact (List.mem_append.mp member).symm.imp_left List.mem_singleton.mp
  | some focus =>
      rcases placed focus rfl with ⟨old, split, -, -⟩
      rw [split]
      rcases List.mem_append.mp member with before | rest
      · exact Or.inr (List.mem_append_left _ before)
      · rcases List.mem_cons.mp rest with same | after
        · exact Or.inl same
        · exact Or.inr (List.mem_append_right _ (List.mem_cons_of_mem _ after))

theorem messageIds_place {messages : List Message} {found : Option Focus} {message : Message} {id : String}
    (placed : forall focus, found = some focus -> (Exists fun old => Found messages focus old) ∧
      message.id = focus.message.id)
    (member : id ∈ messageIds messages) : id ∈ messageIds (place messages found message) := by
  cases found with
  | none =>
      rw [place, messageIds, List.filterMap_append]
      exact List.mem_append_left _ member
  | some focus =>
      rcases placed focus rfl with ⟨⟨old, split, -, ids⟩, same⟩
      rw [messageIds, split] at member
      rw [place, Focus.replaced, messageIds]
      simp only [List.filterMap_append, List.mem_append, List.mem_filterMap, List.mem_cons] at member ⊢
      rcases member with before | ⟨other, rfl | after, has⟩
      · exact Or.inl before
      · rcases ids with unnamed | kept
        · rw [unnamed] at has
          contradiction
        · exact Or.inr ⟨message, Or.inl rfl, by rw [same, kept, has]⟩
      · exact Or.inr ⟨other, Or.inr after, has⟩

theorem isAmong_findMessageForChunk {left right : List Message} {role : Role} {messageId : Option String}
    {created : Option Int} (foreign : ((truthy messageId).any fun id => decide (id ∈ steered)) = false)
    (placeable : Placeable steered left right messageId) {focus : Focus}
    (found : findMessageForChunk left role messageId created = some focus) : isAmong steered focus.message = false := by
  rw [Placeable, if_neg (by simp [foreign])] at placeable
  cases given : truthy messageId with
  | some id =>
      rw [isAmong_of_id ((found_findMessageForChunk found).2 id given) (truthy_eq_some given).2]
      rw [given] at foreign
      simpa using foreign
  | none =>
      rw [findMessageForChunk, given] at found
      rcases placeable with ends | ⟨named, -⟩
      · simp only [lastMergeableMessageWithRole] at found
        split at found
        · rename_i last present
          split at found
          · cases found
            exact ends.2 last present
          · contradiction
        · contradiction
      · rw [given] at named
        contradiction

theorem found_of_named {messages : List Message} (named : Named messages) {role : Role} {messageId : Option String}
    {id : String} (given : truthy messageId = some id) {created : Option Int} {focus : Focus}
    (found : findMessageForChunk messages role messageId created = some focus) :
    Found messages focus focus.message ∧ focus.message.id = some id := by
  have has := (found_findMessageForChunk found).2 id given
  rw [findMessageForChunk_some given, named.bind_adopt, Option.or_none] at found
  exact ⟨found_focus? found, has⟩

/-! ## Adapters that agree -/

/-- A message without the response of a tool call. -/
def Quiet (message : Message) : Prop :=
  message.content.any isToolResponse = false

/-- Two adapters agree on all but some steer messages. -/
structure Agree (steered : List String) (adapter whole : AdapterState) : Prop where
  messages : others steered adapter.messages = others steered whole.messages
  tools : adapter.toolCallStatesById = whole.toolCallStatesById
  texts : forall id, id ∉ steered ->
    adapter.localSteerTextByMessageId.find? id = whole.localSteerTextByMessageId.find? id
  quiet : forall message, message ∈ adapter.messages -> isAmong steered message = true -> Quiet message
  wholeQuiet : forall message, message ∈ whole.messages -> isAmong steered message = true -> Quiet message
  present : forall id, id ∈ steered -> id ∈ messageIds whole.messages -> id ∈ messageIds adapter.messages

theorem mem_messageIds {messages : List Message} {id : String} :
    id ∈ messageIds messages ↔ Exists fun message => message ∈ messages ∧ truthy message.id = some id :=
  List.mem_filterMap

theorem isAmong_of_mem {message : Message} {id : String} (has : truthy message.id = some id) (member : id ∈ steered) :
    isAmong steered message = true := by
  rw [isAmong, has, Option.any_some]
  simpa using member

section Agreement

variable {adapter whole nextAdapter nextWhole : AdapterState}

theorem Agree.placed (agree : Agree steered adapter whole) {found wholeFound : Option Focus} {message : Message}
    (places : SamePlace steered found wholeFound)
    (placed : forall focus, found = some focus ->
      (Exists fun old => Found adapter.messages focus old) ∧ message.id = focus.message.id)
    (wholePlaced : forall focus, wholeFound = some focus -> Exists fun old => Found whole.messages focus old)
    (other : isAmong steered message = false)
    (messages : nextAdapter.messages = place adapter.messages found message)
    (wholeMessages : nextWhole.messages = place whole.messages wholeFound message)
    (tools : nextAdapter.toolCallStatesById = nextWhole.toolCallStatesById)
    (texts : forall id, id ∉ steered ->
      nextAdapter.localSteerTextByMessageId.find? id = nextWhole.localSteerTextByMessageId.find? id) :
    Agree steered nextAdapter nextWhole where
  messages := by
    rw [messages, wholeMessages]
    exact others_place agree.messages places message
  tools := tools
  texts := texts
  quiet := by
    intro known member among
    rw [messages] at member
    rcases mem_place (fun focus same => (placed focus same).1) member with rfl | old
    · rw [other] at among
      contradiction
    · exact agree.quiet known old among
  wholeQuiet := by
    intro known member among
    rw [wholeMessages] at member
    rcases mem_place wholePlaced member with rfl | old
    · rw [other] at among
      contradiction
    · exact agree.wholeQuiet known old among
  present := by
    intro id inSteered member
    rw [wholeMessages, mem_messageIds] at member
    rcases member with ⟨known, inPlace, has⟩
    rcases mem_place wholePlaced inPlace with rfl | old
    · rw [isAmong_of_mem has inSteered] at other
      contradiction
    · rw [messages]
      exact messageIds_place placed (agree.present id inSteered (mem_messageIds.mpr ⟨known, old, has⟩))

theorem mem_place_self (messages : List Message) (found : Option Focus) (message : Message) :
    message ∈ place messages found message := by
  cases found <;> simp [place, Focus.replaced]

theorem Agree.placed_among (agree : Agree steered adapter whole) {found wholeFound : Option Focus}
    {message wholeMessage : Message} {id : String} (nonempty : truthy (some id) = some id) (member : id ∈ steered)
    (has : message.id = some id) (wholeHas : wholeMessage.id = some id)
    (placed : forall focus, found = some focus ->
      Found adapter.messages focus focus.message ∧ focus.message.id = some id)
    (wholePlaced : forall focus, wholeFound = some focus ->
      Found whole.messages focus focus.message ∧ focus.message.id = some id)
    (quiet : Quiet message) (wholeQuiet : Quiet wholeMessage)
    (messages : nextAdapter.messages = place adapter.messages found message)
    (wholeMessages : nextWhole.messages = place whole.messages wholeFound wholeMessage)
    (tools : nextAdapter.toolCallStatesById = nextWhole.toolCallStatesById)
    (texts : forall id, id ∉ steered ->
      nextAdapter.localSteerTextByMessageId.find? id = nextWhole.localSteerTextByMessageId.find? id) :
    Agree steered nextAdapter nextWhole := by
  have among : forall known : Message, known.id = some id -> isAmong steered known = true := by
    intro known same
    rw [isAmong_of_id same nonempty]
    simpa using member
  have split : forall focus, found = some focus -> Exists fun old => Found adapter.messages focus old :=
    fun focus same => ⟨_, (placed focus same).1⟩
  have wholeSplit : forall focus, wholeFound = some focus -> Exists fun old => Found whole.messages focus old :=
    fun focus same => ⟨_, (wholePlaced focus same).1⟩
  refine ⟨?_, tools, texts, ?_, ?_, ?_⟩
  · rw [messages, wholeMessages, others_place_among (among message has), others_place_among (among wholeMessage wholeHas),
      agree.messages]
    · exact fun focus same => ⟨_, (wholePlaced focus same).1, among _ (wholePlaced focus same).2⟩
    · exact fun focus same => ⟨_, (placed focus same).1, among _ (placed focus same).2⟩
  · intro known inPlace isLocal
    rw [messages] at inPlace
    rcases mem_place split inPlace with rfl | old
    · exact quiet
    · exact agree.quiet known old isLocal
  · intro known inPlace isLocal
    rw [wholeMessages] at inPlace
    rcases mem_place wholeSplit inPlace with rfl | old
    · exact wholeQuiet
    · exact agree.wholeQuiet known old isLocal
  · intro other inSteered inWhole
    rw [wholeMessages, mem_messageIds] at inWhole
    rcases inWhole with ⟨known, inPlace, hasOther⟩
    rw [messages]
    rcases mem_place wholeSplit inPlace with rfl | old
    · rw [wholeHas, nonempty, Option.some.injEq] at hasOther
      subst hasOther
      exact mem_messageIds.mpr ⟨message, mem_place_self _ _ _, by rw [has, nonempty]⟩
    · refine messageIds_place (fun focus same => ⟨split focus same, ?_⟩)
        (agree.present other inSteered (mem_messageIds.mpr ⟨known, old, hasOther⟩))
      rw [has, (placed focus same).2]

end Agreement

/-! ## Chunks -/

/-- A message with a chunk put into it, and the texts of steer messages afterwards. -/
def extended (steerTexts : Table String String) (content : MessageContent) (flags : AIBuddyMessageMeta)
    (message : Message) : Message × Table String String :=
  let skipFallback := flags.outputTokenLimitReached && flags.fallbackContent && !message.content.isEmpty
  let existing := { message with
    metadata := { message.metadata with
      outputTokenLimitReached := flags.outputTokenLimitReached
      fallbackContent := !skipFallback && flags.fallbackContent } }
  if skipFallback then (existing, steerTexts)
  else
    match reconcileLocalSteerTextChunk steerTexts existing content flags.steer with
    | some reconciled => reconciled
    | none => ({ existing with content := appendContent existing.content content }, steerTexts)

/-- How an update makes a message of the one it is for, if there is one, and changes the texts of
steer messages: it keeps or gives the identifier, and looks only at the text of the message
itself. -/
structure Making (messageId : Option String)
    (make : Table String String -> Option Message -> Message × Table String String) : Prop where
  id : forall steerTexts found, (make steerTexts found).1.id = (found.map Message.id).getD (truthy messageId)
  own : forall steerTexts found other, truthy (make steerTexts found).1.id ≠ some other ->
    (make steerTexts found).2.find? other = steerTexts.find? other
  congr : forall left right found,
    (forall message own, found = some message -> truthy message.id = some own -> left.find? own = right.find? own) ->
      (make left found).1 = (make right found).1 ∧
        forall id, left.find? id = right.find? id -> (make left found).2.find? id = (make right found).2.find? id

theorem truthy_truthy (text : Option String) : truthy (truthy text) = truthy text := by
  rw [truthy, truthy, Option.filter_filter]
  simp

/-- What is made of a message has the response of a call only if the message has one. -/
def KeepsQuiet (make : Table String String -> Option Message -> Message × Table String String) : Prop :=
  forall steerTexts found, (forall message, found = some message -> Quiet message) -> Quiet (make steerTexts found).1

section Updates

variable {adapter whole : AdapterState}

/-- An adapter with a message that is made put at the place that was found for it. -/
def AdapterState.made (state : AdapterState) (found : Option Focus)
    (make : Table String String -> Option Message -> Message × Table String String) : AdapterState :=
  { state with
    messages := place state.messages found (make state.localSteerTextByMessageId (found.map Focus.message)).1
    localSteerTextByMessageId := (make state.localSteerTextByMessageId (found.map Focus.message)).2 }

theorem Agree.made_among (agree : Agree steered adapter whole) {messageId : Option String} {id : String}
    (given : truthy messageId = some id) (member : id ∈ steered)
    {make : Table String String -> Option Message -> Message × Table String String} (making : Making messageId make)
    (quiet : KeepsQuiet make) {found wholeFound : Option Focus}
    (placed : forall focus, found = some focus ->
      Found adapter.messages focus focus.message ∧ focus.message.id = some id)
    (wholePlaced : forall focus, wholeFound = some focus ->
      Found whole.messages focus focus.message ∧ focus.message.id = some id) :
    Agree steered (adapter.made found make) (whole.made wholeFound make) := by
  have nonempty := (truthy_eq_some given).2
  have among : forall message : Message, message.id = some id -> isAmong steered message = true := by
    intro message same
    rw [isAmong_of_id same nonempty]
    simpa using member
  have ids : forall (place : Option Focus) (texts : Table String String),
      (forall focus, place = some focus -> focus.message.id = some id) ->
        (make texts (place.map Focus.message)).1.id = some id := by
    intro place texts has
    rw [making.id]
    cases place with
    | none => exact given
    | some focus => exact has focus rfl
  have left := ids found adapter.localSteerTextByMessageId fun focus same => (placed focus same).2
  have right := ids wholeFound whole.localSteerTextByMessageId fun focus same => (wholePlaced focus same).2
  refine agree.placed_among nonempty member left right placed wholePlaced ?_ ?_ rfl rfl agree.tools ?_
  · apply quiet
    intro message same
    rcases Option.map_eq_some_iff.mp same with ⟨focus, has, rfl⟩
    rcases placed focus has with ⟨⟨split, -, -⟩, named⟩
    exact agree.quiet focus.message (by rw [split]; simp) (among _ named)
  · apply quiet
    intro message same
    rcases Option.map_eq_some_iff.mp same with ⟨focus, has, rfl⟩
    rcases wholePlaced focus has with ⟨⟨split, -, -⟩, named⟩
    exact agree.wholeQuiet focus.message (by rw [split]; simp) (among _ named)
  · intro other notSteered
    have apart : truthy (some id) ≠ some other := by
      rw [nonempty]
      intro equal
      exact notSteered (Option.some.inj equal ▸ member)
    simp only [AdapterState.made]
    rw [making.own _ _ other (by rw [left]; exact apart), making.own _ _ other (by rw [right]; exact apart)]
    exact agree.texts other notSteered

theorem Agree.made_other (agree : Agree steered adapter whole) {messageId : Option String}
    (foreign : ((truthy messageId).any fun id => decide (id ∈ steered)) = false)
    {make : Table String String -> Option Message -> Message × Table String String} (making : Making messageId make)
    {found wholeFound : Option Focus} (places : SamePlace steered found wholeFound)
    (others : forall focus, found = some focus -> isAmong steered focus.message = false)
    (split : forall focus, found = some focus -> Exists fun old => Found adapter.messages focus old)
    (wholeSplit : forall focus, wholeFound = some focus -> Exists fun old => Found whole.messages focus old) :
    Agree steered (adapter.made found make) (whole.made wholeFound make) := by
  have ids := making.id adapter.localSteerTextByMessageId (found.map Focus.message)
  rw [Option.map_map] at ids
  have congr := making.congr adapter.localSteerTextByMessageId whole.localSteerTextByMessageId
    (found.map Focus.message) (by
      intro message own same has
      rcases Option.map_eq_some_iff.mp same with ⟨focus, present, rfl⟩
      apply agree.texts
      intro member
      have among := others focus present
      rw [isAmong_of_mem has member] at among
      contradiction)
  refine agree.placed places (fun focus same => ⟨split focus same, ?_⟩) wholeSplit ?_ rfl ?_ agree.tools ?_
  · rw [ids, same]
    rfl
  · rw [isAmong, ids]
    cases found with
    | none =>
        rw [Option.map_none, Option.getD_none, truthy_truthy]
        exact foreign
    | some focus => exact others focus rfl
  · rw [AdapterState.made, ← places.message, ← congr.1]
  · intro id notSteered
    rw [AdapterState.made, AdapterState.made, ← places.message]
    exact congr.2 id (agree.texts id notSteered)

theorem Agree.made (agree : Agree steered adapter whole) (role : Role) (messageId : Option String)
    (created : Option Int) (placeable : Placeable steered adapter.messages whole.messages messageId)
    {make : Table String String -> Option Message -> Message × Table String String} (making : Making messageId make)
    (quiet : KeepsQuiet make) :
    Agree steered (adapter.made (findMessageForChunk adapter.messages role messageId created) make)
      (whole.made (findMessageForChunk whole.messages role messageId created) make) := by
  cases local? : (truthy messageId).any fun id => decide (id ∈ steered) with
  | true =>
      cases given : truthy messageId with
      | none =>
          rw [given] at local?
          contradiction
      | some id =>
          rw [Placeable, if_pos local?] at placeable
          rw [given, Option.any_some, decide_eq_true_eq] at local?
          exact agree.made_among given local? making quiet (fun focus => found_of_named placeable.1 given)
            fun focus => found_of_named placeable.2 given
  | false =>
      exact agree.made_other local? making
        (samePlace_findMessageForChunk agree.messages role messageId created local? placeable)
        (fun focus => isAmong_findMessageForChunk local? placeable)
        (fun focus found => (found_findMessageForChunk found).1) fun focus found => (found_findMessageForChunk found).1

end Updates

/-! ## What a notification reports -/

/-- An update loses no identifier, and it reports the messages whenever it changes them. -/
structure Applied (state next : AdapterState) (changes : List AcpChatStateChange) : Prop where
  ids : forall id, id ∈ messageIds state.messages -> id ∈ messageIds next.messages
  changes : (next.messages = state.messages ∧ changes.any SessionEntry.isMessages = false) ∨
    Exists fun rest => changes = .messages next.messages :: rest ∧ rest.any SessionEntry.isMessages = false

end Desktop
end AIBuddy
