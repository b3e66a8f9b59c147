import MaxApi.Dto.ChatRequest
import MaxApi.Lib.Json

/-! # Chat messages with decoded contents

The messages of a chat request as they are decoded: a content is any JSON value, and what its parts
are is read when a conversion asks.  The other conversions write texts of JSON values with functions
of the host language (`Host`). -/

namespace MaxApi.ChatMessages

open MaxApi.ChatRequest (ToolCallRequest)

/-- Texts of values: a number with `FormatFloat`, a list or an object with `Sprintf`, and the JSON
text of a value. -/
structure Host where
  formatFloat : ℚ → String
  sprint : Json → String
  marshal : Json → String

/-- The value under a key of a decoded object, `nil` where there is none. -/
def member (j : Json) (key : String) : Json :=
  match j with
  | .object members => (Json.last key members).getD .null
  | _ => .null

/-- Whether a decoded object has a key. -/
def hasMember (j : Json) (key : String) : Bool :=
  match j with
  | .object members => (Json.last key members).isSome
  | _ => false

def interface2String (host : Host) : Json → String
  | .string s => s
  | .number n => host.formatFloat n
  | .bool b => if b then "true" else "false"
  | .null => ""
  | j => host.sprint j

/-- The value of a string. -/
def string? : Json → Option String
  | .string s => some s
  | _ => none

/-! ### Messages -/

structure MessageImageUrl where
  url : String
  detail : String
  deriving DecidableEq

structure MessageInputAudio where
  data : String
  format : String
  deriving DecidableEq

structure MessageFile where
  fileName : String
  fileData : String
  fileId : String
  deriving DecidableEq

/-- A part of a content as `ParseContent` reads it. -/
inductive MediaContent where
  | text (text : String)
  | imageUrl (imageUrl : MessageImageUrl)
  | inputAudio (inputAudio : MessageInputAudio)
  | file (file : MessageFile)
  | videoUrl (url : String)
  deriving DecidableEq

/-- The image of a part; without a `detail` it is `high`. -/
def parseImage (imageUrl : Json) : MessageImageUrl :=
  match imageUrl with
  | .string s => ⟨s, "high"⟩
  | j => ⟨(string? (member j "url")).getD "", (string? (member j "detail")).getD "high"⟩

def parseAudio (audio : Json) : Option MediaContent := do
  let data ← string? (member audio "data")
  let format ← string? (member audio "format")
  pure (.inputAudio ⟨data, format⟩)

/-- The file of a part, by its id or by its name and data. -/
def parseFile (file : Json) : Option MediaContent :=
  match string? (member file "file_id") with
  | some id => some (.file ⟨"", "", id⟩)
  | none => do
      let fileName ← string? (member file "filename")
      let fileData ← string? (member file "file_data")
      pure (.file ⟨fileName, fileData, ""⟩)

/-- The loop body of `ParseContent`. -/
def parsePart (part : Json) : Option MediaContent := do
  let type ← string? (member part "type")
  if type = "text" then (string? (member part "text")).map .text
  else if type = "image_url" then some (.imageUrl (parseImage (member part "image_url")))
  else if type = "input_audio" then parseAudio (member part "input_audio")
  else if type = "file" then parseFile (member part "file")
  else if type = "video_url" then (string? (member part "video_url")).map .videoUrl
  else none

/-- A message.  Its tool calls are those of `ParseToolCalls`, `none` where the field is `nil`;
`tools` says whether it declares tools. -/
structure Message where
  role : String
  content : Json
  toolCalls : Option (List (ToolCallRequest Json))
  toolCallId : String
  tools : Bool

/-- A message in which only the role is set. -/
def Message.ofRole (role : String) : Message := ⟨role, .null, none, "", false⟩

/-- A message with a role and a content. -/
def Message.ofContent (role : String) (content : Json) : Message :=
  ⟨role, content, none, "", false⟩

def Message.parseToolCalls (m : Message) : List (ToolCallRequest Json) := m.toolCalls.getD []

def Message.parseContent (m : Message) : List MediaContent :=
  match m.content with
  | .string s => [.text s]
  | .array items => items.filterMap parsePart
  | _ => []

end MaxApi.ChatMessages
