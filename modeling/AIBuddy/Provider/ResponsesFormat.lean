import AIBuddy.Provider.FormatMedia

namespace AIBuddy
namespace Responses

/-!
# Responses requests

A conversation is written as a list of items.  The texts and images of a message are
gathered into a message item until a call or a result comes, which is an item of its own.
-/

inductive InputItem where
  | message (role : Role) (content : List Json)
  | functionCall (callId name arguments : String)
  | functionCallOutput (callId : String) (output : Json)
deriving DecidableEq, Repr

def inputTextItem (text : String) : Json :=
  .object [("type", .string "input_text"), ("text", .string text)]

/-- Output texts have annotations even when there are none. -/
def outputTextItem (text : String) : Json :=
  .object [("type", .string "output_text"), ("text", .string text), ("annotations", .array [])]

def inputImage (image : ImageContent) : Json :=
  .object [("type", .string "input_image"), ("image_url", .string (dataUrl image.mimeType image.data))]

/-! ## Texts and images of a message -/

/-- A document of the user, as the file object of its conversion. -/
def inputFile (document : DocumentContent) : Json :=
  match (convertDocument document .openAi).get "file" with
  | some (.object fields) => .object (JsonObject.insert fields "type" (.string "input_file"))
  | _ => .object [("type", .string "input_file")]

def documentItem (role : Role) (document : DocumentContent) : Json :=
  if role ≠ .user then outputTextItem (unsupportedDocumentText document assistantRoleReason)
  else if documentMediaTypeIsSupported document.mimeType then inputFile document
  else inputTextItem (unsupportedDocumentText document unsupportedMediaTypeReason)

/-- What a block adds to the texts that are gathered. -/
def textItems (supportsVision : Bool) (role : Role) : MessageContentBlock -> List Json
  | .text content =>
      if content.text = "" then []
      else if role = .assistant then [outputTextItem content.text]
      else [inputTextItem content.text]
  | .image image =>
      if supportsVision then [inputImage image]
      else [inputTextItem "[image omitted: model does not support vision]"]
  | .document document => [documentItem role document]
  | _ => []

/-! ## Calls and results -/

/-- The item of a request.  A call that could not be read is written as a result. -/
def requestItem (env : FormatEnv) (request : ToolRequest) : InputItem :=
  match request.toolCall with
  | .ok toolCall =>
      .functionCall request.id (sanitizeFunctionName toolCall.name)
        ((toolCall.arguments.map env.writeJson).getD "\x7b\x7d")
  | .error error => .functionCallOutput request.id (.string ("Error: " ++ error.message))

def isImage : ContentBlock -> Bool
  | .image _ => true
  | _ => false

/-- The text that stands for a block of a tool result. -/
def resultText (env : FormatEnv) : ContentBlock -> String
  | .text content => content.text
  | .resource content => extractTextFromResource env.codec content.resource
  | .audio _ => "[Audio content]"
  | .resourceLink _ => "[Resource link]"
  | .image _ => "[image omitted: model does not support vision]"
  | .unknown => "[Unsupported content]"

def resultItem (env : FormatEnv) : ContentBlock -> Json
  | .image image => inputImage image
  | content => inputTextItem (resultText env content)

def resultOutput (env : FormatEnv) (supportsVision : Bool) (content : List ContentBlock) : Json :=
  if supportsVision = true ∧ content.any isImage = true then .array (content.map (resultItem env))
  else .string ("\n".intercalate (content.map (resultText env)))

def responseItem (env : FormatEnv) (supportsVision : Bool) (response : ToolResponse) : InputItem :=
  match response.toolResult with
  | .ok contents => .functionCallOutput response.id (resultOutput env supportsVision contents.content)
  | .error errorData => .functionCallOutput response.id (.string ("Error: " ++ errorData.message))

/-- The item that a block is written as on its own. -/
def ownItem (env : FormatEnv) (supportsVision : Bool) (role : Role) : MessageContentBlock -> Option InputItem
  | .toolRequest request => if role = .assistant then some (requestItem env request) else none
  | .toolResponse response => some (responseItem env supportsVision response)
  | _ => none

/-! ## Messages -/

/-- The message item of the gathered texts. -/
def flushTexts (role : Role) (texts : List Json) : List InputItem :=
  if texts = [] then [] else [.message role texts]

def blockItems (env : FormatEnv) (supportsVision : Bool) (role : Role) :
    List Json -> List MessageContentBlock -> List InputItem
  | texts, [] => flushTexts role texts
  | texts, block :: rest =>
      match ownItem env supportsVision role block with
      | some item => flushTexts role texts ++ item :: blockItems env supportsVision role [] rest
      | none => blockItems env supportsVision role (texts ++ textItems supportsVision role block) rest

/-- The items of the messages that the agent sees. -/
def addMessageItems (env : FormatEnv) (messages : List Message) (supportsVision : Bool) : List InputItem :=
  (messages.filter Message.isAgentVisible).flatMap fun message =>
    blockItems env supportsVision message.role [] message.content

end Responses
end AIBuddy
