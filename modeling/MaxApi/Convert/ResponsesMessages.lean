import MaxApi.Dto.ChatMessages
import MaxApi.Lib.Checked
import MaxApi.Lib.Text

/-! # Conversions: a Responses input to chat messages

`responsesRequestMessagesToChat`.  A call item joins the calls of the last message if that is an
assistant message, and otherwise makes one.  An output item gives a tool message, and an item in
the shape of a message a message with its role. -/

namespace MaxApi.Convert.ResponsesMessages

open MaxApi.ChatRequest (ToolCallRequest)
open MaxApi.ChatMessages Text

/-- A field of the request as it came: its text and its value. -/
structure RawMessage where
  text : String
  value : Json

/-- The fields that the messages are made of. -/
structure OpenAIResponsesRequest where
  instructions : Option RawMessage
  input : Option RawMessage

def rawJSONPresent (raw : Option RawMessage) : Option RawMessage :=
  raw.filter fun r => match r.value with | .null => false | _ => true

/-- The decoded string, or the text of anything else. -/
def responsesJSONString (raw : RawMessage) : String :=
  match raw.value with
  | .string s => s
  | _ => raw.text

/-! ### Items -/

/-- A member of an item as a string. -/
def field (host : Host) (item : Json) (key : String) : String :=
  interface2String host (member item key)

def itemType (host : Host) (item : Json) : String := trimSpace (field host item "type")

/-- `responsesCallID`. -/
def responsesCallID (host : Host) (item : Json) : String :=
  let callID := trimSpace (field host item "call_id")
  if callID ≠ "" then callID else trimSpace (field host item "id")

def responsesArgumentsString (host : Host) : Json → String
  | .null => ""
  | .string s => s
  | j => host.marshal j

def responseToolOutputToChatContent (host : Host) : Json → String
  | .null => ""
  | .string s => s
  | j => host.marshal j

/-- A call of a function. -/
def functionToolCall (callID name arguments : String) : ToolCallRequest Json :=
  ⟨callID, "function", ⟨"", name, none, arguments⟩⟩

/-- The tool call of a call item of a type; `arguments` are read between the two checks. -/
def toolCallOf (host : Host) (type : String) (item : Json) (arguments : String) :
    Except String (ToolCallRequest Json) :=
  let name := trimSpace (field host item "name")
  if name = "" then .error (type ++ " item is missing name")
  else
    let callID := responsesCallID host item
    if callID = "" then .error (type ++ " item is missing call_id")
    else .ok (functionToolCall callID name arguments)

def responsesFunctionCallItemToChatToolCall (host : Host) (item : Json) :
    Except String (ToolCallRequest Json) :=
  toolCallOf host "function_call" item (responsesArgumentsString host (member item "arguments"))

/-- The input of a custom tool is the one argument of a function. -/
def responsesCustomToolCallItemToChatToolCall (host : Host) (item : Json) :
    Except String (ToolCallRequest Json) :=
  toolCallOf host "custom_tool_call" item (host.marshal (.object
    [("input", .string (responsesArgumentsString host (member item "input")))]))

/-- A message with one more tool call. -/
def Message.addToolCall (m : Message) (toolCall : ToolCallRequest Json) : Message :=
  { m with toolCalls := some (m.parseToolCalls ++ [toolCall]) }

def appendToolCallToLastAssistant (messages : List Message) (toolCall : ToolCallRequest Json) :
    List Message :=
  match messages.getLast? with
  | none => [Message.addToolCall (.ofRole "assistant") toolCall]
  | some last =>
      if last.role = "assistant" then messages.dropLast ++ [Message.addToolCall last toolCall]
      else messages ++ [Message.addToolCall (.ofRole "assistant") toolCall]

/-! ### Contents -/

/-- The members of a part under some keys, in the order of the keys. -/
def someMembers (part : Json) (keys : List String) : List (String × Json) :=
  (keys.filter (hasMember part)).map fun key => (key, member part key)

/-- The members of a part without its type. -/
def payload : Json → Json
  | .object members => .object (members.filter (·.1 ≠ "type"))
  | j => j

def responsesImagePartToChatImageURL (part : Json) : Json :=
  if hasMember part "image_url" then member part "image_url"
  else match someMembers part ["url", "file_id", "detail"] with
    | [] => part
    | imageURL => .object imageURL

def responsesFilePartToChatFile (part : Json) : Json :=
  if hasMember part "file" then member part "file"
  else match someMembers part ["file_id", "file_data", "filename", "file_url"] with
    | [] => part
    | file => .object file

def responsesPartPayload (part : Json) (key : String) : Json :=
  if hasMember part key then member part key else payload part

/-- The text of a URL, if it is not empty. -/
def urlOf (host : Host) (j : Json) : Option Json :=
  let url := interface2String host (member j "url")
  if url ≠ "" then some (.string url) else none

def responsesVideoPartToChatVideoURL (host : Host) (part : Json) : Json :=
  if hasMember part "video_url" then
    (urlOf host (member part "video_url")).getD (member part "video_url")
  else (urlOf host part).getD (responsesPartPayload part "video_url")

/-- A part of a content, and its text if it is one. -/
def contentPart (host : Host) (part : Json) : Json × Option String :=
  match part with
  | .object _ =>
      let type := trimSpace (field host part "type")
      if type = "input_text" ∨ type = "output_text" ∨ type = "text" then
        let text := field host part "text"
        (.object [("type", .string "text"), ("text", .string text)], some text)
      else if type = "input_image" then
        (.object [("type", .string "image_url"),
          ("image_url", responsesImagePartToChatImageURL part)], none)
      else if type = "input_file" then
        (.object [("type", .string "file"), ("file", responsesFilePartToChatFile part)], none)
      else if type = "input_audio" then
        (.object [("type", .string "input_audio"),
          ("input_audio", responsesPartPayload part "input_audio")], none)
      else if type = "input_video" then
        (.object [("type", .string "video_url"),
          ("video_url", responsesVideoPartToChatVideoURL host part)], none)
      else (part, none)
  | _ => (part, none)

/-- Parts that are all texts are joined. -/
def responsesContentPartsToChatContent (host : Host) (parts : List Json) : Json :=
  let chatParts := parts.map (contentPart host)
  if chatParts.all fun p => p.2.isSome then
    .string (String.join (chatParts.filterMap Prod.snd))
  else .array (chatParts.map Prod.fst)

def responsesInputContentToChatContent (host : Host) : Json → Json
  | .null => .string ""
  | .string s => .string s
  | .array parts => responsesContentPartsToChatContent host parts
  | content => content

/-! ### Messages -/

def responsesInputItemHasChatMessageShape (host : Host) (item : Json) : Bool :=
  if itemType host item ≠ "" ∧ itemType host item ≠ "message" then false
  else if itemType host item = "message" then true
  else if trimSpace (field host item "role") ≠ "" then true
  else hasMember item "content"

/-- The role of a message item. -/
def itemRole (host : Host) (item : Json) : String :=
  if trimSpace (field host item "role") = "" then "user" else trimSpace (field host item "role")

def responsesInputItemToChatMessages (host : Host) (item : Json) (messages : List Message) :
    Except String (List Message) :=
  if itemType host item = "function_call" then do
    let toolCall ← responsesFunctionCallItemToChatToolCall host item
    pure (appendToolCallToLastAssistant messages toolCall)
  else if itemType host item = "custom_tool_call" then do
    let toolCall ← responsesCustomToolCallItemToChatToolCall host item
    pure (appendToolCallToLastAssistant messages toolCall)
  else if itemType host item = "function_call_output" ∨
      itemType host item = "custom_tool_call_output" then
    let callID := trimSpace (field host item "call_id")
    if callID = "" then .error (itemType host item ++ " item is missing call_id")
    else
      let content := responseToolOutputToChatContent host (member item "output")
      .ok (messages ++ [{ Message.ofContent "tool" (.string content) with toolCallId := callID }])
  else if responsesInputItemHasChatMessageShape host item then
    .ok (messages ++ [.ofContent (itemRole host item)
      (responsesInputContentToChatContent host (member item "content"))])
  else .ok messages

/-- The loop over the items. -/
def appendItems (host : Host) : List Json → List Message → Except String (List Message)
  | [], messages => .ok messages
  | item :: items, messages => do
      let messages ← responsesInputItemToChatMessages host item messages
      appendItems host items messages

/-- The items of an array decode as objects; `null` decodes as an object without members. -/
def isItem : Json → Bool
  | .object _ => true
  | .null => true
  | _ => false

/-- `GetJsonType`. -/
def getJsonType : Json → String
  | .null => "null"
  | .bool _ => "boolean"
  | .number _ => "number"
  | .string _ => "string"
  | .array _ => "array"
  | .object _ => "object"

/-- The message of the instructions. -/
def instructionMessages (instructions : Option RawMessage) : List Message :=
  match rawJSONPresent instructions with
  | none => []
  | some raw =>
      let text := responsesJSONString raw
      if trimSpace text ≠ "" then [.ofContent "system" (.string text)] else []

/-- `decodeError` is the text of the JSON library for an element of the array that is no object. -/
def responsesRequestMessagesToChat (host : Host) (decodeError : String)
    (req : OpenAIResponsesRequest) : Except String (List Message) :=
  let messages := instructionMessages req.instructions
  match rawJSONPresent req.input with
  | none => .ok messages
  | some raw =>
      match raw.value with
      | .string input => .ok (messages ++ [.ofContent "user" (.string input)])
      | .array items =>
          if items.all isItem then appendItems host items messages
          else .error ("invalid input array: " ++ decodeError)
      | value =>
          .error ("unsupported responses input type \"" ++ getJsonType value ++ "\"")

end MaxApi.Convert.ResponsesMessages
