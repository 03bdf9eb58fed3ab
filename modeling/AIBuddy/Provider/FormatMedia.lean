import AIBuddy.Conversation.Message
import AIBuddy.Support.Text

namespace AIBuddy

/-!
# Media and names in provider requests

The request formats of the providers share the conversion of images and documents and
the cleaning of tool names.  Reading files, writing JSON and showing a tool error are
passed in.
-/

/-- What the request formats take from the file system and from other packages. -/
structure FormatEnv where
  codec : TextCodec
  detectImagePath : String -> Option String
  loadImageFile : String -> Option ImageContent
  writeJson : JsonObject -> String
  displayError : ErrorData -> String

inductive ImageFormat where
  | openAi
  | anthropic
deriving DecidableEq, Repr

/-- The address that carries its own data. -/
def dataUrl (mimeType data : String) : String :=
  "data:" ++ mimeType ++ ";base64," ++ data

/-- The source object of images and documents in Anthropic requests. -/
def base64Source (mimeType data : String) : Json :=
  .object [("type", .string "base64"), ("media_type", .string mimeType), ("data", .string data)]

/-- Convert an image to the JSON of a format. -/
def convertImage (image : ImageContent) : ImageFormat -> Json
  | .openAi =>
      .object [("type", .string "image_url"),
        ("image_url", .object [("url", .string (dataUrl image.mimeType image.data))])]
  | .anthropic => .object [("type", .string "image"), ("source", base64Source image.mimeType image.data)]

/-! ## Documents -/

def documentMediaTypeIsSupported (mimeType : String) : Bool :=
  mimeType == "application/pdf"

def convertDocument (document : DocumentContent) : ImageFormat -> Json
  | .openAi =>
      .object [("type", .string "file"),
        ("file", .object [("filename", .string (document.name.getD "document.pdf")),
          ("file_data", .string (dataUrl document.mimeType document.data))])]
  | .anthropic =>
      .object ([("type", .string "document"), ("source", base64Source document.mimeType document.data)] ++
        (document.name.map fun name => ("title", .string name)).toList)

/-- Why a document was dropped. -/
def unsupportedDocumentText (document : DocumentContent) (reason : String) : String :=
  match document.name with
  | some name => "[document \x22" ++ name ++ "\x22 (" ++ document.mimeType ++ ") not sent: " ++ reason ++ "]"
  | none => "[document (" ++ document.mimeType ++ ") not sent: " ++ reason ++ "]"

def unsupportedMediaTypeReason : String := "only application/pdf documents can be sent to this provider"

def assistantRoleReason : String := "documents can only be sent in user messages"

/-! ## Names -/

/-- Replace what function names must not contain, and cut long names. -/
def sanitizeFunctionName (name : String) : String :=
  String.ofList ((name.toList.map fun character =>
    if character.isAlphanum || character == '_' || character == '-' then character else '_').take 128)

end AIBuddy
