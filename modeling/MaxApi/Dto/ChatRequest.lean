import MaxApi.Lib.Text

/-! # Chat requests

The messages of an OpenAI chat request as the converters build them.  `J` are decoded JSON values;
the tool calls of a message are in their decoded form, `none` where the field is not set. -/

namespace MaxApi.ChatRequest

structure MessageImageUrl where
  url : String
  detail : String
  mimeType : String
  deriving DecidableEq

structure MediaContent where
  type : String
  text : String
  imageUrl : Option MessageImageUrl
  cacheControl : Option String
  deriving DecidableEq

def MediaContent.ofText (text : String) : MediaContent := ⟨"text", text, none, none⟩

/-- The content of a message: `nil`, a text, or the list that `SetMediaContent` was given. -/
inductive Content where
  | null
  | text (s : String)
  | media (l : List MediaContent)
  deriving DecidableEq

/-- `ParseContent`. -/
def Content.parse : Content → List MediaContent
  | .null => []
  | .text s => [.ofText s]
  | .media l => l

/-- The texts of a content. -/
def Content.texts (c : Content) : List String :=
  (c.parse.filter (·.type = "text")).map MediaContent.text

structure FunctionRequest (J : Type) where
  description : String
  name : String
  parameters : Option J
  arguments : String
  deriving DecidableEq

structure ToolCallRequest (J : Type) where
  id : String
  type : String
  function : FunctionRequest J
  deriving DecidableEq

structure Message (J : Type) where
  role : String
  content : Content
  name : Option String
  toolCalls : Option (List (ToolCallRequest J))
  toolCallId : String
  deriving DecidableEq

/-- A message in which only the role is set. -/
def Message.ofRole {J : Type} (role : String) : Message J := ⟨role, .null, none, none, ""⟩

/-- The tool calls of a message. -/
def Message.calls {J : Type} (m : Message J) : List (ToolCallRequest J) := m.toolCalls.getD []

end MaxApi.ChatRequest
