import MaxApi.Dto.ChatMessages
import MaxApi.Lib.Text

/-! # Conversions: chat messages to a Responses input

The messages of `ChatCompletionsRequestToResponsesRequest`.  An assistant message gives a message
item and an item for each of its function calls; a call without an id or a name, or of another
type, gives none.  A tool message gives an output item under its trimmed id, and a user message if
that is empty. -/

namespace MaxApi.Convert.ResponsesInput

open MaxApi.ChatRequest (ToolCallRequest)
open MaxApi.ChatMessages Text

structure GeneralOpenAIRequest where
  model : String
  n : Option ℤ
  messages : List Message

def GeneralOpenAIRequest.hasMessageTools (req : GeneralOpenAIRequest) : Bool :=
  req.messages.any Message.tools

/-- What the converted request has of the messages. -/
structure OpenAIResponsesRequest where
  model : String
  input : List Json
  instructions : Option String

/-! ### Contents -/

/-- `normalizeChatImageURLToString` of an image that `ParseContent` has read. -/
def normalizeChatImageURLToString (image : MessageImageUrl) : Json :=
  if image.url ≠ "" then .string image.url
  else .object ([("url", .string image.url)] ++
    (if image.detail ≠ "" then [("detail", .string image.detail)] else []) ++
    [("MimeType", .string "")])

/-- A field that is left out where it is empty. -/
def omitEmpty (key value : String) : List (String × Json) :=
  if value = "" then [] else [(key, .string value)]

def contentPart (role : String) : MediaContent → Json
  | .text text =>
      .object [("type", .string (if role = "assistant" then "output_text" else "input_text")),
        ("text", .string text)]
  | .imageUrl image =>
      .object [("type", .string "input_image"),
        ("image_url", normalizeChatImageURLToString image)]
  | .inputAudio audio =>
      .object [("type", .string "input_audio"),
        ("input_audio", .object [("data", .string audio.data), ("format", .string audio.format)])]
  | .file file =>
      .object [("type", .string "input_file"),
        ("file", .object (omitEmpty "filename" file.fileName ++
          omitEmpty "file_data" file.fileData ++ omitEmpty "file_id" file.fileId))]
  | .videoUrl url =>
      .object [("type", .string "input_video"), ("video_url", .object [("url", .string url)])]

/-- The content of a message item. -/
def itemContent (role : String) (m : Message) : Json :=
  match m.content with
  | .null => .string ""
  | .string s => .string s
  | _ => .array (m.parseContent.map (contentPart role))

/-- The output of a tool message. -/
def toolOutput (host : Host) : Json → String
  | .null => ""
  | .string s => s
  | j => host.marshal j

/-- The texts of the parts of an instruction, a line each. -/
def joinedTexts (parts : List MediaContent) : String :=
  parts.foldl (fun sb part => match part with
    | .text text =>
        if trimSpace text = "" then sb else if sb = "" then text else sb ++ "\n" ++ text
    | _ => sb) ""

/-- What a system message adds to the instructions. -/
def instructionPart (m : Message) : Option String :=
  let s := trimSpace (match m.content with
    | .null => ""
    | .string s => s
    | _ => joinedTexts m.parseContent)
  if s = "" then none else some s

/-! ### Items -/

def messageItem (role : String) (content : Json) : Json :=
  .object [("role", .string role), ("content", content)]

def functionCallOutput (callID output : String) : Json :=
  .object [("type", .string "function_call_output"), ("call_id", .string callID),
    ("output", .string output)]

def functionCall (callID name arguments : String) : Json :=
  .object [("type", .string "function_call"), ("call_id", .string callID), ("name", .string name),
    ("arguments", .string arguments)]

/-- The loop body over the tool calls, the same in each branch. -/
def callItem (tc : ToolCallRequest Json) : Option Json :=
  if trimSpace tc.id = "" then none
  else if tc.type ≠ "" ∧ tc.type ≠ "function" then none
  else
    let name := trimSpace tc.function.name
    if name = "" then none else some (functionCall tc.id name tc.function.arguments)

/-- The items of a message; a system message only adds to the instructions. -/
def messageItems (host : Host) (m : Message) : List Json :=
  let role := trimSpace m.role
  if role = "" then []
  else if role = "tool" ∨ role = "function" then
    let callID := trimSpace m.toolCallId
    let output := toolOutput host m.content
    if callID = "" then
      [messageItem "user" (.string ("[tool_output_missing_call_id] " ++ output))]
    else [functionCallOutput callID output]
  else if role = "system" ∨ role = "developer" then []
  else messageItem role (itemContent role m) ::
    if role = "assistant" then m.parseToolCalls.filterMap callItem else []

def inputItems (host : Host) (messages : List Message) : List Json :=
  messages.flatMap (messageItems host)

def instructionsParts (messages : List Message) : List String :=
  (messages.filter fun m => trimSpace m.role = "system" ∨ trimSpace m.role = "developer").filterMap
    instructionPart

/-- `ChatCompletionsRequestToResponsesRequest`, up to the instructions. -/
def chatCompletionsRequestToResponsesRequest (host : Host) (req : GeneralOpenAIRequest) :
    Except String OpenAIResponsesRequest :=
  if req.hasMessageTools then
    .error ("message-scoped tools require an OpenAI-compatible Chat Completions upstream; " ++
      "cannot convert to Responses")
  else if req.model = "" then .error "model is required"
  else if 1 < req.n.getD 1 then .error "n>1 is not supported in responses compatibility mode"
  else
    let parts := instructionsParts req.messages
    .ok {
      model := req.model
      input := inputItems host req.messages
      instructions := if parts = [] then none else some ("\n\n".intercalate parts) }

theorem converted_input {host : Host} {req : GeneralOpenAIRequest} {out : OpenAIResponsesRequest}
    (h : chatCompletionsRequestToResponsesRequest host req = .ok out) :
    out.input = inputItems host req.messages := by
  unfold chatCompletionsRequestToResponsesRequest at h
  split_ifs at h
  cases h
  rfl

end MaxApi.Convert.ResponsesInput
