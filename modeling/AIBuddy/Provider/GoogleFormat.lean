import AIBuddy.Provider.FormatMedia

namespace AIBuddy
namespace Google

/-!
# Google requests

Every message with something to say becomes one message of parts.  Calls of the turn
that is going on carry the signatures of the thinking that led to them.
-/

inductive SpecPart where
  | text (text : String)
  | functionCall (id name : String) (args : Option JsonObject) (thoughtSignature : Option String)
  | functionResponse (id name text : String) (media : List Json) (thoughtSignature : Option String)
  | inlineData (mimeType data : String)
deriving DecidableEq, Repr

structure SpecMessage where
  role : Role
  parts : List SpecPart
deriving DecidableEq, Repr

def thoughtSignatureKey : String := "thoughtSignature"

def syntheticThoughtSignature : String := "skip_thought_signature_validator"

/-- The signature that a provider left in the metadata. -/
def getThoughtSignature (metadata : Option JsonObject) : Option String :=
  (metadata.bind fun entries => entries.lookup thoughtSignatureKey).bind Json.asStr

/-! ## The turn that is going on -/

/-- A message of the user that is not only an answer to calls. -/
def isUserLoopBoundary (message : Message) : Bool :=
  message.role == .user && message.content.any fun block => block.asToolResponse.isNone

/-- Messages with something besides confirmations. -/
def hasContent (message : Message) : Bool :=
  message.content.any fun
    | .toolConfirmationRequest _ | .actionRequired _ => false
    | _ => true

def filtered (messages : List Message) : List Message :=
  (messages.filter Message.isAgentVisible).filter hasContent

/-- The last place with a property. -/
def lastIndexOf (holds : Message -> Bool) (messages : List Message) : Option Nat :=
  (messages.reverse.findIdx? holds).map fun fromEnd => messages.length - 1 - fromEnd

/-! ## Calls and results -/

/-- The names of the calls, by their identifiers.  A later call replaces an earlier one. -/
def toolName (messages : List Message) (id : String) : Option String :=
  ((messages.flatMap Message.content).filterMap MessageContentBlock.asToolRequest).reverse.findSome? fun request =>
    match request.toolCall with
    | .ok toolCall => if request.id = id then some (sanitizeFunctionName toolCall.name) else none
    | .error _ => none

/-- The part of a request.  A call that could not be read is written as a text. -/
def requestPart (env : FormatEnv) (includeSignature needsSynthetic : Bool) (request : ToolRequest) : SpecPart :=
  match request.toolCall with
  | .ok toolCall =>
      .functionCall request.id (sanitizeFunctionName toolCall.name)
        (toolCall.arguments.filter fun arguments => !arguments.isEmpty)
        (if includeSignature then
          (getThoughtSignature request.metadata).or
            (if needsSynthetic then some syntheticThoughtSignature else none)
        else none)
  | .error error => .text ("Error: " ++ env.displayError error)

/-- The type and the data of a block of a tool result that is media. -/
def inlineMedia : ContentBlock -> Option (String × String)
  | .image image => some (image.mimeType, image.data)
  | .resource content =>
      match content.resource with
      | .blobResourceContents _ mimeType blob => (mimeType.filter fun mime => mime != "").map fun mime => (mime, blob)
      | _ => none
  | _ => none

def resultText (env : FormatEnv) : ContentBlock -> Option String
  | .text content => some content.text
  | .resource content => some (extractTextFromResource env.codec content.resource)
  | _ => none

/-- The parts of a tool result: its media, unless they are nested, and the result. -/
def responseParts (env : FormatEnv) (nestedMedia includeSignature : Bool) (name : String) (response : ToolResponse) :
    List SpecPart :=
  let signature := if includeSignature then getThoughtSignature response.metadata else none
  match response.toolResult with
  | .ok result =>
      let media := result.content.filterMap inlineMedia
      let text := "\n".intercalate
        ((result.content.filter fun content => (inlineMedia content).isNone).filterMap (resultText env))
      let text := if text = "" then "Tool call is done." else text
      if nestedMedia then
        [.functionResponse response.id name text
          (media.map fun item => .object [("inlineData", .object [("mimeType", .string item.1), ("data", .string item.2)])])
          signature]
      else
        media.map (fun item => .inlineData item.1 item.2) ++ [.functionResponse response.id name text [] signature]
  | .error error => [.functionResponse response.id name ("Error: " ++ env.displayError error) [] signature]

def documentPart (document : DocumentContent) : SpecPart :=
  if documentMediaTypeIsSupported document.mimeType then .inlineData document.mimeType document.data
  else .text (unsupportedDocumentText document unsupportedMediaTypeReason)

/-! ## Messages -/

/-- The parts of the blocks of a message.  Only the first call that was read can need a
signature that stands in for a missing one. -/
def blockParts (env : FormatEnv) (nestedMedia includeSignature : Bool) (names : String -> Option String) :
    Bool -> List MessageContentBlock -> List SpecPart
  | _, [] => []
  | needsSynthetic, block :: rest =>
      match block with
      | .text content =>
          (if content.text = "" then [] else [.text content.text]) ++
            blockParts env nestedMedia includeSignature names needsSynthetic rest
      | .toolRequest request =>
          requestPart env includeSignature needsSynthetic request ::
            blockParts env nestedMedia includeSignature names (needsSynthetic && request.toolCall.toOption.isNone) rest
      | .toolResponse response =>
          responseParts env nestedMedia includeSignature ((names response.id).getD response.id) response ++
            blockParts env nestedMedia includeSignature names needsSynthetic rest
      | .image image =>
          .inlineData image.mimeType image.data ::
            blockParts env nestedMedia includeSignature names needsSynthetic rest
      | .document document =>
          documentPart document :: blockParts env nestedMedia includeSignature names needsSynthetic rest
      | _ => blockParts env nestedMedia includeSignature names needsSynthetic rest

def formatMessage (env : FormatEnv) (nestedMedia includeSignature : Bool) (names : String -> Option String)
    (message : Message) : Option SpecMessage :=
  let parts := blockParts env nestedMedia includeSignature names (includeSignature && message.role != .user)
    message.content
  if parts = [] then none else some ⟨message.role, parts⟩

/-- The messages of a Google request. -/
def formatMessages (env : FormatEnv) (messages : List Message) (nestedMedia : Bool) : List SpecMessage :=
  let messages := filtered messages
  let activeLoopStart := lastIndexOf isUserLoopBoundary messages
  (messages.zipIdx).filterMap fun entry =>
    let includeSignature := activeLoopStart.all fun start => decide (start ≤ entry.2)
    formatMessage env nestedMedia includeSignature (toolName messages) entry.1

end Google
end AIBuddy
