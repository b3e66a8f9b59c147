import MaxApi.Lib.Text

/-! # Conversions: OpenAI requests to Claude

`RequestOpenAI2ClaudeMessage` from the stop sequences on.  A first pass joins adjacent string
messages of a role and fills empty ones, a second pass builds the blocks: system messages are
gathered in the system of the request, and a tool message becomes a result in a user message. -/

namespace MaxApi.Convert.ToClaude

open Text

/-! ### Requests -/

/-- The source of a file, `types.NewFileSourceFromData`. -/
structure FileSource where
  data : String
  mimeType : String
  deriving DecidableEq

/-- A part of a content as `ParseContent` reads it.  A file has its name and data; what else is no
text has its `ToFileSource`. -/
inductive MediaPart where
  | text (text : String)
  | file (fileName fileData : String)
  | other (source : Option FileSource)
  deriving DecidableEq

/-- The content of a message: `nil`, a string, or the parts of anything else. -/
inductive Content where
  | null
  | string (s : String)
  | parts (l : List MediaPart)
  deriving DecidableEq

structure ToolCall where
  id : String
  name : String
  arguments : String
  deriving DecidableEq

/-- A message; its tool calls are those of `ParseToolCalls`, `none` where the field is `nil`. -/
structure Message where
  role : String
  content : Content
  toolCalls : Option (List ToolCall)
  toolCallId : String
  deriving DecidableEq

/-- An element of a list of stop sequences. -/
inductive StopValue (J : Type) where
  | string (s : String)
  | other (j : J)
  deriving DecidableEq

inductive Stop (J : Type) where
  | none
  | string (s : String)
  | list (l : List (StopValue J))
  | other (j : J)
  deriving DecidableEq

structure GeneralOpenAIRequest (J : Type) where
  stop : Stop J
  messages : List Message

inductive Block (J : Type) where
  | text (text : String)
  | document (mediaType data : String)
  | image (mediaType data : String)
  | toolUse (id name : String) (input : J)
  | toolResult (toolUseId : String) (content : Content)
  deriving DecidableEq

inductive ClaudeContent (J : Type) where
  | text (s : String)
  | blocks (l : List (Block J))
  deriving DecidableEq

structure ClaudeMessage (J : Type) where
  role : String
  content : ClaudeContent J
  deriving DecidableEq

structure ClaudeRequest (J : Type) where
  stopSequences : List String
  system : List String
  messages : List (ClaudeMessage J)
  deriving DecidableEq

/-- What the converter calls: the MIME types of file name extensions, base64, the loading of files,
and the decoding of arguments into an object. -/
structure Host (J : Type) where
  getMimeTypeByExtension : String → String
  decodeBase64 : String → Option String
  getBase64Data : FileSource → Except String (String × String)
  emptyObject : J
  decodeObject : String → Except String J

inductive Failure where
  | panic
  | error (text : String)
  deriving DecidableEq

/-! ### Stop sequences -/

/-- The strings of a list; the type assertion panics on anything else. -/
def stopStrings {J : Type} : List (StopValue J) → Except Failure (List String)
  | [] => .ok []
  | .string s :: l => do
      let rest ← stopStrings l
      pure (s :: rest)
  | .other _ :: _ => .error .panic

def stopSequences {J : Type} : Stop J → Except Failure (List String)
  | .string s => .ok [s]
  | .list l => stopStrings l
  | _ => .ok []

/-! ### The first pass -/

/-- `strings.Trim(s, "\"")`. -/
def trimQuotes (s : String) : String := String.ofList (trim (· == '"') s.toList)

/-- The tool calls that the first pass keeps. -/
def keptCalls (m : Message) : Option (List ToolCall) :=
  if m.role = "assistant" then m.toolCalls else none

/-- An empty content is replaced by dots. -/
def fill : Content → Content
  | .null => .string "..."
  | .string s => if s = "" then .string "..." else .string s
  | .parts l => .parts l

/-- A message of the second pass with a content. -/
def formatted (m : Message) (content : Content) : Message where
  role := m.role
  content := fill content
  toolCalls := keptCalls m
  toolCallId := if m.role = "tool" then m.toolCallId else ""

/-- The content of a message that is joined to the last one, if it is. -/
def joined (last m : Message) : Option Content :=
  if last.role = m.role ∧ last.role ≠ "tool" then
    match last.content, m.content with
    | .string s, .string t => some (.string (trimQuotes (s ++ " " ++ t)))
    | _, _ => none
  else none

/-- One round of the first pass, over the messages so far and the last one. -/
def formatMessage (acc : List Message × Message) (m : Message) : List Message × Message :=
  match joined acc.2 m with
  | some content => (acc.1.dropLast ++ [formatted m content], formatted m content)
  | none => (acc.1 ++ [formatted m m.content], formatted m m.content)

def formatMessages (messages : List Message) : List Message :=
  (messages.foldl formatMessage ([], ⟨"tool", .null, none, ""⟩)).1

/-! ### The second pass -/

section conversion

variable {J : Type} (host : Host J)

/-- The MIME type and the data of a data URL; other data have no type. -/
def splitDataUrl (fileData : String) : String × String :=
  let rest := fileData.toList.drop 5
  if hasPrefix fileData "data:" ∧ ',' ∈ rest then
    (String.ofList ((rest.takeWhile (· ≠ ',')).takeWhile (· ≠ ';')),
      String.ofList (rest.dropWhile (· ≠ ',')).tail)
  else ("", fileData)

/-- What follows the last dot of a file name. -/
def extension (fileName : String) : String :=
  if '.' ∈ fileName.toList then String.ofList (fileName.toList.rtakeWhile (· ≠ '.')) else ""

/-- The MIME type of a file without one. -/
def mimeTypeByName (fileName : String) : String :=
  if extension fileName ≠ "" then
    let mt := host.getMimeTypeByExtension (extension fileName)
    if mt ≠ "application/octet-stream" then mt else ""
  else ""

/-- The block of a file that is not remote, if it has one. -/
def fileBlock (fileName fileData : String) : List (Block J) :=
  let mimeType :=
    if (splitDataUrl fileData).1 = "" then mimeTypeByName host fileName
    else (splitDataUrl fileData).1
  let fileData := (splitDataUrl fileData).2
  if mimeType = "application/pdf" then [.document mimeType fileData]
  else if hasPrefix mimeType "text/" then
    match host.decodeBase64 fileData with
    | some decoded => [.text decoded]
    | none => []
  else if hasPrefix mimeType "image/" then [.image mimeType fileData]
  else []

/-- The block of a source that is loaded. -/
def sourceBlock (source : Option FileSource) : Except Failure (List (Block J)) :=
  match source with
  | none => .ok []
  | some source =>
      match host.getBase64Data source with
      | .error text => .error (.error ("get file data failed: " ++ text))
      | .ok (base64Data, mimeType) =>
          .ok [if hasPrefix mimeType "application/pdf" then .document mimeType base64Data
            else .image mimeType base64Data]

def mediaBlock : MediaPart → Except Failure (List (Block J))
  | .text text => .ok (if text ≠ "" then [.text text] else [])
  | .file fileName fileData =>
      if fileData = "" then .ok []
      else if ¬ hasPrefix fileData "http://" ∧ ¬ hasPrefix fileData "https://" then
        .ok (fileBlock host fileName fileData)
      else sourceBlock host (some ⟨fileData, ""⟩)
  | .other source => sourceBlock host source

/-- `ParseContent`. -/
def Content.parse : Content → List MediaPart
  | .null => []
  | .string s => [.text s]
  | .parts l => l

def toolUseBlock (toolCall : ToolCall) : Except Failure (Block J) :=
  if toolCall.arguments ≠ "" then
    match host.decodeObject toolCall.arguments with
    | .ok input => .ok (.toolUse toolCall.id toolCall.name input)
    | .error text =>
        .error (.error ("tool call function arguments is not valid JSON object: " ++ text))
  else .ok (.toolUse toolCall.id toolCall.name host.emptyObject)

/-- The results of a computation on every element, one after the other. -/
def collect {α β : Type} (f : α → Except Failure (List β)) : List α → Except Failure (List β)
  | [] => .ok []
  | a :: l => do
      let first ← f a
      let rest ← collect f l
      pure (first ++ rest)

/-- The content of a message that is neither a system nor a tool message. -/
def messageContent (m : Message) : Except Failure (ClaudeContent J) :=
  match m.content, m.toolCalls with
  | .string s, none => .ok (.text (if s = "" then "..." else s))
  | content, toolCalls => do
      let media ← collect (mediaBlock host) content.parse
      let uses ← collect (fun call => (toolUseBlock host call).map fun b => [b])
        (toolCalls.getD [])
      pure (.blocks (media ++ uses))

/-- The blocks of a content. -/
def ClaudeContent.toBlocks : ClaudeContent J → List (Block J)
  | .text s => [.text s]
  | .blocks l => l

/-- The text of a part, unless it is empty. -/
def MediaPart.nonempty : MediaPart → Option String
  | .text s => if s ≠ "" then some s else none
  | _ => none

/-- The texts of a content that are not empty. -/
def Content.texts (content : Content) : List String := content.parse.filterMap MediaPart.nonempty

/-- The state of the second pass. -/
structure Second (J : Type) where
  system : List String
  messages : List (ClaudeMessage J)
  isFirstMessage : Bool

/-- The message of dots before a first message that is not the user's. -/
def opening (s : Second J) (m : Message) : List (ClaudeMessage J) :=
  if s.isFirstMessage ∧ m.role ≠ "user" then
    s.messages ++ [⟨"user", .blocks [.text "..."]⟩]
  else s.messages

/-- The result of a tool joins a user message that stands last. -/
def addResult (messages : List (ClaudeMessage J)) (m : Message) : List (ClaudeMessage J) :=
  let result : Block J := .toolResult m.toolCallId m.content
  match messages.getLast? with
  | some last =>
      if last.role = "user" then
        messages.dropLast ++ [⟨last.role, .blocks (last.content.toBlocks ++ [result])⟩]
      else messages ++ [⟨"user", .blocks [result]⟩]
  | none => messages ++ [⟨"user", .blocks [result]⟩]

/-- One round of the second pass. -/
def convertMessage (s : Second J) (m : Message) : Except Failure (Second J) :=
  if m.role = "system" then .ok { s with system := s.system ++ m.content.texts }
  else if m.role = "tool" then .ok ⟨s.system, addResult (opening s m) m, false⟩
  else do
    let content ← messageContent host m
    pure ⟨s.system, opening s m ++ [⟨m.role, content⟩], false⟩

/-- `RequestOpenAI2ClaudeMessage`. -/
def requestOpenAI2ClaudeMessage (textRequest : GeneralOpenAIRequest J) :
    Except Failure (ClaudeRequest J) := do
  let stop ← stopSequences textRequest.stop
  let s ← (formatMessages textRequest.messages).foldlM (convertMessage host) ⟨[], [], true⟩
  pure ⟨stop, s.system, s.messages⟩

end conversion

end MaxApi.Convert.ToClaude
