import AIBuddy.Conversation.Message

namespace AIBuddy

/-!
# Saving and loading tool results

Tool requests and tool results are written to the store as an object with a
status and either a value or the displayed error.  They are read back through
untagged alternatives, and the contents of a result are sanitized on the way in.
The readers and writers of the protocol's own types come from another package
and are passed in, as is whatever its display of an error puts between the colon
and the message.
-/

namespace ToolResultSerde

/-- The protocol's own readers and writers. -/
structure Rmcp where
  writeCall : CallToolRequestParams -> Json
  readCall : Json -> Option CallToolRequestParams
  writeResult : CallToolResult -> Json
  readResult : Json -> Option CallToolResult
  readContents : Json -> Option (List ContentBlock)
  gap : String

variable (rmcp : Rmcp)

/-! ## Writing -/

/-- The display of an error: its code, a colon and its message. -/
def displayError (error : ErrorData) : String :=
  toString error.code ++ ":" ++ rmcp.gap ++ error.message

/-- Write a result whose value has a writer of its own. -/
def serialize {α : Type} (write : α -> Json) : ToolResult α -> Json
  | .ok value => .object [("status", .string "success"), ("value", write value)]
  | .error error => .object [("status", .string "error"), ("error", .string (displayError rmcp error))]

/-! ## Reading -/

/-- The failures of a reader. -/
inductive SerdeError where
  | noVariant
  | unexpectedStatus (expected status : String)
deriving DecidableEq, Repr

/-- A struct variant with a status and a value that `read` accepts. -/
def readSuccess {α : Type} (read : Json -> Option α) (json : Json) : Option (String × α) :=
  (json.get "status").bind Json.asStr |>.bind fun status =>
    (json.get "value").bind read |>.map fun value => (status, value)

/-- The struct variant with a status and the text of an error. -/
def readError (json : Json) : Option (String × String) :=
  (json.get "status").bind Json.asStr |>.bind fun status =>
    (json.get "error").bind Json.asStr |>.map fun error => (status, error)

structure ToolCallWithValueArguments where
  name : String
  arguments : Json

/-- The derived reader of a call with untyped arguments. -/
def ToolCallWithValueArguments.read (json : Json) : Option ToolCallWithValueArguments :=
  match json with
  | .object _ =>
      (json.get "name").bind Json.asStr |>.bind fun name =>
        (json.get "arguments").map fun arguments => ⟨name, arguments⟩
  | .array [.string name, arguments] => some ⟨name, arguments⟩
  | _ => none

/-- Arguments that are no object are kept under the key `value`. -/
def ToolCallWithValueArguments.intoCallToolRequestParam (call : ToolCallWithValueArguments) :
    CallToolRequestParams :=
  match call.arguments with
  | .object map => ⟨call.name, some map⟩
  | .null => ⟨call.name, none⟩
  | other => ⟨call.name, some [("value", other)]⟩

/-- The value of a variant whose status must be the one it stands for. -/
def withStatus {α : Type} (expected status : String) (value : α) : Except SerdeError α :=
  if status = expected then .ok value else .error (.unexpectedStatus expected status)

/-- Every error is read back as an internal error with the displayed text. -/
def internalError (text : String) : ErrorData :=
  ⟨-32603, text, none⟩

/-- The last variant of both readers. -/
def deserializeError {α : Type} (json : Json) : Except SerdeError (ToolResult α) :=
  match readError json with
  | some (status, error) => withStatus "error" status (.error (internalError error))
  | none => .error .noVariant

/-- Read a tool request: its value as the protocol's type, as a call with
untyped arguments, or an error. -/
def deserialize (json : Json) : Except SerdeError (ToolResult CallToolRequestParams) :=
  match readSuccess rmcp.readCall json with
  | some (status, call) => withStatus "success" status (.ok call)
  | none =>
      match readSuccess ToolCallWithValueArguments.read json with
      | some (status, call) => withStatus "success" status (.ok call.intoCallToolRequestParam)
      | none => deserializeError json

/-- A successful result with the given contents. -/
def successResult (content : List ContentBlock) : CallToolResult :=
  ⟨content, none, some false⟩

/-- Read a tool result: its value as the protocol's type, as bare contents, or
an error; whatever was read is sanitized. -/
def deserializeResult (codec : TextCodec) (json : Json) :
    Except SerdeError (ToolResult CallToolResult) :=
  let result : Except SerdeError (ToolResult CallToolResult) :=
    match readSuccess rmcp.readResult json with
    | some (status, value) => withStatus "success" status (.ok value)
    | none =>
        match readSuccess rmcp.readContents json with
        | some (status, content) => withStatus "success" status (.ok (successResult content))
        | none => deserializeError json
  result.map (sanitizeToolResult codec)

/-! ## Reloading -/

/-- Save a tool request and load it again. -/
def reloadRequest (value : ToolResult CallToolRequestParams) :
    Except SerdeError (ToolResult CallToolRequestParams) :=
  deserialize rmcp (serialize rmcp rmcp.writeCall value)

/-- Save a tool result and load it again. -/
def reloadResult (codec : TextCodec) (value : ToolResult CallToolResult) :
    Except SerdeError (ToolResult CallToolResult) :=
  deserializeResult rmcp codec (serialize rmcp rmcp.writeResult value)

/-- Reload a value a number of times. -/
def reloadTimes {α : Type} (reload : α -> Except SerdeError α) : Nat -> α -> Except SerdeError α
  | 0, value => .ok value
  | count + 1, value => (reload value).bind (reloadTimes reload count)

/-- Reloading any number of times gives what reloading once gives. -/
def Stable {α : Type} (reload : α -> Except SerdeError α) (value : α) : Prop :=
  forall count, reloadTimes reload (count + 1) value = reloadTimes reload 1 value

theorem stable_iff {α : Type} {reload : α -> Except SerdeError α} {value loaded : α}
    (first : reload value = .ok loaded) :
    Stable reload value ↔ reload loaded = .ok loaded := by
  have times : forall count, reloadTimes reload (count + 1) value = reloadTimes reload count loaded := by
    intro count
    simp only [reloadTimes, first, Except.bind]
  constructor
  · intro stable
    have second := stable 1
    rw [times 1, times 0] at second
    simp only [reloadTimes] at second
    cases again : reload loaded with
    | ok last => simpa [again, Except.bind] using second
    | error failure => simp [again, Except.bind] at second
  · intro again count
    rw [times count, times 0]
    induction count with
    | zero => rfl
    | succ count ih =>
        simpa only [reloadTimes, again, Except.bind] using ih

/-! ## Successes -/

/-- The protocol's reader accepts what its writer writes for this call. -/
def ReadsCall (call : CallToolRequestParams) : Prop :=
  rmcp.readCall (rmcp.writeCall call) = some call

/-- The protocol's reader accepts what its writer writes for this result. -/
def ReadsResult (result : CallToolResult) : Prop :=
  rmcp.readResult (rmcp.writeResult result) = some result

theorem readSuccess_serialize {α : Type} {write : α -> Json} {read : Json -> Option α} {value : α}
    (written : read (write value) = some value) :
    readSuccess read (serialize rmcp write (.ok value)) = some ("success", value) := by
  simp [readSuccess, serialize, Json.get, Json.asStr, List.lookup_cons, written]

theorem readSuccess_error {α β : Type} (write : α -> Json) (read : Json -> Option β) (error : ErrorData) :
    readSuccess read (serialize rmcp write (.error error)) = none := by
  simp [readSuccess, serialize, Json.get, List.lookup_cons]

theorem deserializeError_serialize {α β : Type} (write : α -> Json) (error : ErrorData) :
    deserializeError (serialize rmcp write (.error error)) =
      .ok (.error (internalError (displayError rmcp error)) : ToolResult β) := by
  simp [deserializeError, readError, serialize, Json.get, Json.asStr, List.lookup_cons, withStatus]

theorem reloadRequest_ok {call : CallToolRequestParams} (reads : ReadsCall rmcp call) :
    reloadRequest rmcp (.ok call) = .ok (.ok call) := by
  rw [reloadRequest, deserialize, readSuccess_serialize rmcp reads]
  rfl

theorem reloadRequest_error (error : ErrorData) :
    reloadRequest rmcp (.error error) = .ok (.error (internalError (displayError rmcp error))) := by
  rw [reloadRequest, deserialize, readSuccess_error, readSuccess_error]
  exact deserializeError_serialize rmcp rmcp.writeCall error

theorem reloadResult_ok (codec : TextCodec) {result : CallToolResult} (reads : ReadsResult rmcp result) :
    reloadResult rmcp codec (.ok result) = .ok (sanitizeToolResult codec (.ok result)) := by
  rw [reloadResult, deserializeResult, readSuccess_serialize rmcp reads]
  rfl

theorem reloadResult_error (codec : TextCodec) (error : ErrorData) :
    reloadResult rmcp codec (.error error) =
      .ok (.error (internalError (sanitizeUnicodeTags codec (displayError rmcp error)))) := by
  rw [reloadResult, deserializeResult, readSuccess_error, readSuccess_error,
    deserializeError_serialize rmcp rmcp.writeResult error]
  rfl

/-! ## Settled contents -/

/-- What is used of normalization and of base64: normalization brings in no tag
character and keeps every colon, and what was encoded can be decoded. -/
structure Lawful (codec : TextCodec) : Prop where
  untagged : forall text, stripUnicodeTags text = text ->
    stripUnicodeTags (codec.nfc text) = codec.nfc text
  colons : forall text, (codec.nfc text).toList.count ':' = text.toList.count ':'
  decoded : forall bytes, codec.decodeBase64 (codec.encodeBase64 bytes) = some bytes

/-- The text is in normal form. -/
def Normal (codec : TextCodec) (text : String) : Prop :=
  codec.nfc text = text

/-- What a blob stands for once it has been decoded. -/
def decodedText (codec : TextCodec) (blob : String) : Option String :=
  (codec.decodeBase64 blob).bind String.fromUTF8?

/-- A resource is settled when dropping tag characters leaves its text in normal
form; a blob that is no base64 is a text itself, and one that has become base64
by losing its tag characters must stand for a text without any. -/
def SettledResource (codec : TextCodec) : ResourceContents -> Prop
  | .textResourceContents _ _ text => Normal codec (sanitizeUnicodeTags codec text)
  | .blobResourceContents _ _ blob =>
      match codec.decodeBase64 blob with
      | some bytes =>
          forall text, String.fromUTF8? bytes = some text -> Normal codec (sanitizeUnicodeTags codec text)
      | none =>
          if (codec.decodeBase64 (sanitizeUnicodeTags codec blob)).isSome then
            forall text, decodedText codec (sanitizeUnicodeTags codec blob) = some text ->
              stripUnicodeTags text = text ∧ Normal codec text
          else Normal codec (sanitizeUnicodeTags codec blob)
  | .unknown => True

/-- A block is settled when dropping tag characters leaves its text in normal form. -/
def Settled (codec : TextCodec) : ContentBlock -> Prop
  | .text content => Normal codec (sanitizeUnicodeTags codec content.text)
  | .resource content => SettledResource codec content.resource
  | _ => True

theorem stripUnicodeTags_idempotent (text : String) :
    stripUnicodeTags (stripUnicodeTags text) = stripUnicodeTags text := by
  simp [stripUnicodeTags, List.filter_filter]

theorem sanitize_again_iff {codec : TextCodec} (lawful : Lawful codec) (text : String) :
    sanitizeUnicodeTags codec (sanitizeUnicodeTags codec text) = sanitizeUnicodeTags codec text ↔
      Normal codec (sanitizeUnicodeTags codec text) := by
  have clean : stripUnicodeTags (sanitizeUnicodeTags codec text) = sanitizeUnicodeTags codec text :=
    stripUnicodeTags_idempotent _
  have kept := lawful.untagged _ clean
  rw [Normal]
  generalize sanitizeUnicodeTags codec text = sanitized at clean kept ⊢
  rw [sanitizeUnicodeTags, kept]

theorem sanitize_same_iff {codec : TextCodec} (lawful : Lawful codec) (text : String) :
    sanitizeUnicodeTags codec text = text ↔ stripUnicodeTags text = text ∧ Normal codec text := by
  constructor
  · intro same
    have clean : stripUnicodeTags text = text := by
      rw [← same]
      exact stripUnicodeTags_idempotent _
    refine ⟨clean, ?_⟩
    rw [Normal, ← lawful.untagged _ clean]
    exact same
  · rintro ⟨clean, normal⟩
    rw [Normal] at normal
    rw [sanitizeUnicodeTags, normal, clean]

/-! ## Sanitizing twice -/

private theorem fromUTF8?_toUTF8 (text : String) : String.fromUTF8? text.toUTF8 = some text := by
  simp [String.fromUTF8?, String.fromUTF8, text.isValidUTF8]

section Blobs

variable {codec : TextCodec} {uri : String} {mimeType : Option String} {blob : String}

theorem sanitizeResource_undecoded (undecoded : codec.decodeBase64 blob = none) :
    sanitizeResource codec (.blobResourceContents uri mimeType blob) =
      .blobResourceContents uri mimeType (sanitizeUnicodeTags codec blob) := by
  simp only [sanitizeResource, undecoded]

theorem sanitizeResource_binary {bytes : ByteArray} (decoded : codec.decodeBase64 blob = some bytes)
    (binary : String.fromUTF8? bytes = none) :
    sanitizeResource codec (.blobResourceContents uri mimeType blob) =
      .blobResourceContents uri mimeType blob := by
  simp only [sanitizeResource, decoded, binary]

theorem sanitizeResource_clean {bytes : ByteArray} {text : String}
    (decoded : codec.decodeBase64 blob = some bytes) (readable : String.fromUTF8? bytes = some text)
    (clean : sanitizeUnicodeTags codec text = text) :
    sanitizeResource codec (.blobResourceContents uri mimeType blob) =
      .blobResourceContents uri mimeType blob := by
  simp only [sanitizeResource, decoded, readable, clean, if_true]

theorem sanitizeResource_rewritten {bytes : ByteArray} {text : String}
    (decoded : codec.decodeBase64 blob = some bytes) (readable : String.fromUTF8? bytes = some text)
    (changed : sanitizeUnicodeTags codec text ≠ text) :
    sanitizeResource codec (.blobResourceContents uri mimeType blob) =
      .blobResourceContents uri mimeType
        (codec.encodeBase64 (sanitizeUnicodeTags codec text).toUTF8) := by
  simp only [sanitizeResource, decoded, readable, if_neg (Ne.symm changed)]

theorem sanitizeResource_same_iff (lawful : Lawful codec) {bytes : ByteArray}
    (decoded : codec.decodeBase64 blob = some bytes) :
    sanitizeResource codec (.blobResourceContents uri mimeType blob) =
        .blobResourceContents uri mimeType blob ↔
      forall text, String.fromUTF8? bytes = some text -> sanitizeUnicodeTags codec text = text := by
  cases readable : String.fromUTF8? bytes with
  | none => simp [sanitizeResource_binary decoded readable]
  | some text =>
      simp only [Option.some.injEq, forall_eq']
      by_cases clean : sanitizeUnicodeTags codec text = text
      · simp [sanitizeResource_clean decoded readable clean, clean]
      · rw [sanitizeResource_rewritten decoded readable clean]
        simp only [clean, iff_false, ResourceContents.blobResourceContents.injEq, true_and]
        intro same
        have again : codec.decodeBase64 blob = some (sanitizeUnicodeTags codec text).toUTF8 := by
          rw [← same]
          exact lawful.decoded _
        rw [decoded, Option.some.injEq] at again
        rw [again, fromUTF8?_toUTF8, Option.some.injEq] at readable
        exact clean readable

end Blobs

theorem sanitizeResource_again_iff {codec : TextCodec} (lawful : Lawful codec) (resource : ResourceContents) :
    sanitizeResource codec (sanitizeResource codec resource) = sanitizeResource codec resource ↔
      SettledResource codec resource := by
  cases resource with
  | textResourceContents uri mimeType text =>
      simp only [sanitizeResource, SettledResource, ResourceContents.textResourceContents.injEq, true_and]
      exact sanitize_again_iff lawful text
  | blobResourceContents uri mimeType blob =>
      cases decoded : codec.decodeBase64 blob with
      | none =>
          rw [sanitizeResource_undecoded decoded]
          simp only [SettledResource, decoded]
          cases second : codec.decodeBase64 (sanitizeUnicodeTags codec blob) with
          | none =>
              rw [sanitizeResource_undecoded second]
              simp only [ResourceContents.blobResourceContents.injEq, true_and, Option.isSome_none,
                Bool.false_eq_true, if_false]
              exact sanitize_again_iff lawful blob
          | some bytes =>
              rw [sanitizeResource_same_iff lawful second]
              simp only [Option.isSome_some, if_true, decodedText, second, Option.bind_some]
              simp only [sanitize_same_iff lawful]
      | some bytes =>
          simp only [SettledResource, decoded]
          cases readable : String.fromUTF8? bytes with
          | none => simp [sanitizeResource_binary decoded readable]
          | some text =>
              simp only [Option.some.injEq, forall_eq']
              rw [← sanitize_again_iff lawful]
              by_cases clean : sanitizeUnicodeTags codec text = text
              · simp [sanitizeResource_clean decoded readable clean, clean]
              · rw [sanitizeResource_rewritten decoded readable clean,
                  sanitizeResource_same_iff lawful (lawful.decoded _), fromUTF8?_toUTF8]
                simp
  | unknown => simp [sanitizeResource, SettledResource]

theorem sanitizeContentBlock_again_iff {codec : TextCodec} (lawful : Lawful codec) (block : ContentBlock) :
    sanitizeContentBlock codec (sanitizeContentBlock codec block) = sanitizeContentBlock codec block ↔
      Settled codec block := by
  cases block with
  | text content =>
      simp only [sanitizeContentBlock, Settled, ContentBlock.text.injEq, TextContent.mk.injEq, and_true]
      exact sanitize_again_iff lawful content.text
  | resource content =>
      simp only [sanitizeContentBlock, Settled, ContentBlock.resource.injEq, EmbeddedResource.mk.injEq,
        and_true]
      exact sanitizeResource_again_iff lawful content.resource
  | image _ | audio _ | resourceLink _ | unknown => simp [sanitizeContentBlock, Settled]

/-! ## Errors -/

/-- The number of colons in a text. -/
def colons (text : String) : Nat :=
  text.toList.count ':'

theorem colons_append (left right : String) : colons (left ++ right) = colons left + colons right := by
  simp [colons]

theorem colons_stripUnicodeTags (text : String) : colons (stripUnicodeTags text) = colons text := by
  rw [colons, stripUnicodeTags, String.toList_ofList, List.count_filter]
  · rfl
  · decide

theorem colons_sanitize {codec : TextCodec} (lawful : Lawful codec) (text : String) :
    colons (sanitizeUnicodeTags codec text) = colons text := by
  rw [sanitizeUnicodeTags, colons_stripUnicodeTags]
  exact lawful.colons text

theorem colons_displayError (error : ErrorData) :
    colons error.message < colons (displayError rmcp error) := by
  have marker : colons ":" = 1 := by decide
  simp only [displayError, colons_append, marker]
  omega

theorem reloadRequest_error_not_stable (error : ErrorData) :
    ¬ Stable (reloadRequest rmcp) (.error error) := by
  rw [stable_iff (reloadRequest_error rmcp error), reloadRequest_error]
  intro same
  have message : displayError rmcp (internalError (displayError rmcp error)) = displayError rmcp error := by
    simpa [internalError] using same
  have grown := colons_displayError rmcp (internalError (displayError rmcp error))
  rw [message] at grown
  exact Nat.lt_irrefl _ grown

theorem reloadResult_error_not_stable {codec : TextCodec} (lawful : Lawful codec) (error : ErrorData) :
    ¬ Stable (reloadResult rmcp codec) (.error error) := by
  rw [stable_iff (reloadResult_error rmcp codec error), reloadResult_error]
  generalize sanitizeUnicodeTags codec (displayError rmcp error) = loaded
  intro same
  have message : sanitizeUnicodeTags codec (displayError rmcp (internalError loaded)) = loaded := by
    simpa [internalError] using same
  have grown : colons loaded < colons (displayError rmcp (internalError loaded)) :=
    colons_displayError rmcp (internalError loaded)
  have kept := colons_sanitize lawful (displayError rmcp (internalError loaded))
  rw [message] at kept
  omega

/-! ## Stable values -/

theorem reloadRequest_stable_iff (value : ToolResult CallToolRequestParams)
    (reads : forall call, value = .ok call -> ReadsCall rmcp call) :
    Stable (reloadRequest rmcp) value ↔ Exists fun call => value = .ok call := by
  cases value with
  | ok call =>
      have loaded := reloadRequest_ok rmcp (reads call rfl)
      simp [stable_iff loaded, loaded]
  | error error => simp [reloadRequest_error_not_stable rmcp error]

/-- The contents of a result after they have been loaded. -/
def sanitizedResult (codec : TextCodec) (result : CallToolResult) : CallToolResult :=
  { result with content := result.content.map (sanitizeContentBlock codec) }

theorem sanitizedResult_again_iff {codec : TextCodec} (lawful : Lawful codec) (result : CallToolResult) :
    sanitizedResult codec (sanitizedResult codec result) = sanitizedResult codec result ↔
      forall block, block ∈ result.content -> Settled codec block := by
  simp only [sanitizedResult, CallToolResult.mk.injEq, and_true, List.map_map, List.map_inj_left,
    Function.comp_apply, sanitizeContentBlock_again_iff lawful]

theorem reloadResult_stable_iff {codec : TextCodec} (lawful : Lawful codec)
    (value : ToolResult CallToolResult)
    (reads : forall result, value = .ok result ->
      ReadsResult rmcp result ∧ ReadsResult rmcp (sanitizedResult codec result)) :
    Stable (reloadResult rmcp codec) value ↔
      Exists fun result => value = .ok result ∧ forall block, block ∈ result.content -> Settled codec block := by
  cases value with
  | ok result =>
      rcases reads result rfl with ⟨written, rewritten⟩
      have loaded : reloadResult rmcp codec (.ok result) = .ok (.ok (sanitizedResult codec result)) :=
        reloadResult_ok rmcp codec written
      have again : reloadResult rmcp codec (.ok (sanitizedResult codec result)) =
          .ok (.ok (sanitizedResult codec (sanitizedResult codec result))) :=
        reloadResult_ok rmcp codec rewritten
      rw [stable_iff loaded, again]
      simp only [Except.ok.injEq, exists_eq_left', sanitizedResult_again_iff lawful]
  | error error => simp [reloadResult_error_not_stable rmcp lawful error]

/-- Saving and loading is stable for parsed requests and for successes with
settled contents, and for nothing else. -/
theorem saved_values_stable_iff {codec : TextCodec} (lawful : Lawful codec)
    (request : ToolResult CallToolRequestParams) (response : ToolResult CallToolResult)
    (readsCall : forall call, request = .ok call -> ReadsCall rmcp call)
    (readsResult : forall result, response = .ok result ->
      ReadsResult rmcp result ∧ ReadsResult rmcp (sanitizedResult codec result)) :
    (Stable (reloadRequest rmcp) request ↔ Exists fun call => request = .ok call) ∧
      (Stable (reloadResult rmcp codec) response ↔
        Exists fun result => response = .ok result ∧
          forall block, block ∈ result.content -> Settled codec block) :=
  ⟨reloadRequest_stable_iff rmcp request readsCall, reloadResult_stable_iff rmcp lawful response readsResult⟩

/-! ## A written conversation -/

/-- The protocol's readers and writers on calls and on results that hold texts. -/
def plainRmcp : Rmcp where
  writeCall call := .object <| ("name", .string call.name) ::
    match call.arguments with
    | some arguments => [("arguments", .object arguments)]
    | none => []
  readCall json :=
    match json.get "name", json.get "arguments" with
    | some (.string name), some (.object arguments) => some ⟨name, some arguments⟩
    | some (.string name), some .null | some (.string name), none => some ⟨name, none⟩
    | _, _ => none
  writeResult result := .object [
    ("content", .array (result.content.map fun block =>
      match block with
      | .text content => .object [("type", .string "text"), ("text", .string content.text)]
      | _ => .null)),
    ("isError", match result.isError with
      | some value => .bool value
      | none => .null)]
  readResult json :=
    (json.get "content").bind Json.asArray |>.map fun items =>
      ⟨items.filterMap fun item =>
        (item.get "text").bind Json.asStr |>.map fun text => .text ⟨text, none⟩,
        none, (json.get "isError").bind Json.asBool⟩
  readContents _ := none
  gap := " "

/-- Texts in normal form, with blobs written byte by byte. -/
def plainCodec : TextCodec where
  nfc text := text
  decodeBase64 blob := some ⟨(blob.toList.map fun character => UInt8.ofNat character.toNat).toArray⟩
  encodeBase64 bytes := String.ofList (bytes.data.toList.map fun byte => Char.ofNat byte.toNat)
  nfc_ascii _ _ := rfl

private theorem byte_of_char (byte : UInt8) : UInt8.ofNat (Char.ofNat byte.toNat).toNat = byte := by
  have small : byte.toNat < 256 := byte.toNat_lt
  have valid : byte.toNat.isValidChar := Or.inl (by omega)
  have kept : (Char.ofNat byte.toNat).toNat = byte.toNat := by
    rw [Char.ofNat, dif_pos valid]
    rfl
  rw [kept, UInt8.ofNat_toNat]

theorem plainCodec_lawful : Lawful plainCodec where
  untagged _ clean := clean
  colons _ := rfl
  decoded bytes := by
    have bytesBack : (bytes.data.toList.map fun byte => UInt8.ofNat (Char.ofNat byte.toNat).toNat) =
        bytes.data.toList := by
      rw [List.map_congr_left fun byte _ => byte_of_char byte, List.map_id']
    simp only [plainCodec, String.toList_ofList, List.map_map, Function.comp_def, bytesBack,
      Array.toArray_toList]

/-- A parsed request and a textual success are stable. -/
theorem saved_values_stable_text :
    Stable (reloadRequest plainRmcp) (.ok ⟨"shell", some [("command", .string "ls")]⟩) ∧
      Stable (reloadResult plainRmcp plainCodec) (.ok ⟨[.text ⟨"main.rs", none⟩], none, some false⟩) := by
  have stable := saved_values_stable_iff plainRmcp plainCodec_lawful
    (.ok ⟨"shell", some [("command", .string "ls")]⟩) (.ok ⟨[.text ⟨"main.rs", none⟩], none, some false⟩)
    (by
      rintro call ⟨⟩
      rfl)
    (by
      rintro result ⟨⟩
      exact ⟨rfl, rfl⟩)
  refine ⟨stable.1.mpr ⟨_, rfl⟩, stable.2.mpr ⟨_, rfl, ?_⟩⟩
  intro block member
  rw [List.mem_singleton] at member
  subst member
  rfl

/-- An unparseable request gets a further code in front of its message each time
it is loaded. -/
theorem error_message_grows :
    reloadTimes (reloadRequest plainRmcp) 1 (.error ⟨-32602, "bad arguments", none⟩) =
        .ok (.error ⟨-32603, "-32602: bad arguments", none⟩) ∧
      reloadTimes (reloadRequest plainRmcp) 2 (.error ⟨-32602, "bad arguments", none⟩) =
        .ok (.error ⟨-32603, "-32603: -32602: bad arguments", none⟩) ∧
      ¬ Stable (reloadRequest plainRmcp) (.error ⟨-32602, "bad arguments", none⟩) := by
  refine ⟨by decide +kernel, by decide +kernel, ?_⟩
  intro stable
  exact absurd (stable 1) (by decide +kernel)

end ToolResultSerde
end AIBuddy
