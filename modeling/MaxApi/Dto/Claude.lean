import MaxApi.Dto.Usage

/-! # Claude messages

A Claude message, and the events of its stream.  `J` are the values that the JSON decoder makes of
the input of a tool; both the message and its events are `ClaudeResponse`s. -/

namespace MaxApi.Dto

/-- `ClaudeMediaMessage`: a content block, a delta of one, or the message at the start of a
stream. -/
structure ClaudeMediaMessage (J : Type) where
  id : String
  type : String
  role : String
  model : String
  text : Option String
  thinking : Option String
  partialJson : Option String
  name : String
  input : Option J
  stopReason : Option String
  usage : Option ClaudeUsage

/-- A block in which only the type is set. -/
def ClaudeMediaMessage.ofType {J : Type} (type : String) : ClaudeMediaMessage J :=
  ⟨"", type, "", "", none, none, none, "", none, none, none⟩

namespace ClaudeMediaMessage

variable {J : Type}

/-- `GetText`. -/
def getText (m : ClaudeMediaMessage J) : String := m.text.getD ""

def textBlock (text : String) : ClaudeMediaMessage J :=
  let empty : ClaudeMediaMessage J := .ofType "text"
  { empty with text := some text }

def thinkingBlock (thinking : String) : ClaudeMediaMessage J :=
  let empty : ClaudeMediaMessage J := .ofType "thinking"
  { empty with thinking := some thinking }

def toolUseBlock (id name : String) (input : Option J) : ClaudeMediaMessage J :=
  let empty : ClaudeMediaMessage J := .ofType "tool_use"
  { empty with id := id, name := name, input := input }

def textDelta (text : String) : ClaudeMediaMessage J :=
  let empty : ClaudeMediaMessage J := .ofType "text_delta"
  { empty with text := some text }

def thinkingDelta (thinking : String) : ClaudeMediaMessage J :=
  let empty : ClaudeMediaMessage J := .ofType "thinking_delta"
  { empty with thinking := some thinking }

def inputJsonDelta (partialJson : String) : ClaudeMediaMessage J :=
  let empty : ClaudeMediaMessage J := .ofType "input_json_delta"
  { empty with partialJson := some partialJson }

end ClaudeMediaMessage

structure ClaudeResponse (J : Type) where
  id : String
  type : String
  role : String
  model : String
  content : List (ClaudeMediaMessage J)
  stopReason : String
  usage : Option ClaudeUsage
  index : Option ℤ
  contentBlock : Option (ClaudeMediaMessage J)
  delta : Option (ClaudeMediaMessage J)
  message : Option (ClaudeMediaMessage J)

/-- A response in which only the type is set. -/
def ClaudeResponse.ofType {J : Type} (type : String) : ClaudeResponse J :=
  ⟨"", type, "", "", [], "", none, none, none, none, none⟩

/-! ### Events of a stream -/

namespace ClaudeResponse

variable {J : Type}

def messageStart (id model : String) (usage : Option ClaudeUsage) : ClaudeResponse J :=
  let media : ClaudeMediaMessage J := .ofType "message"
  let empty : ClaudeResponse J := .ofType "message_start"
  { empty with
    message := some { media with id := id, model := model, role := "assistant", usage := usage } }

def contentBlockStart (index : ℤ) (block : ClaudeMediaMessage J) : ClaudeResponse J :=
  let empty : ClaudeResponse J := .ofType "content_block_start"
  { empty with index := some index, contentBlock := some block }

def contentBlockDelta (index : ℤ) (delta : ClaudeMediaMessage J) : ClaudeResponse J :=
  let empty : ClaudeResponse J := .ofType "content_block_delta"
  { empty with index := some index, delta := some delta }

def contentBlockStop (index : ℤ) : ClaudeResponse J :=
  let empty : ClaudeResponse J := .ofType "content_block_stop"
  { empty with index := some index }

def messageDelta (usage : Option ClaudeUsage) (stopReason : Option String) : ClaudeResponse J :=
  let media : ClaudeMediaMessage J := .ofType ""
  let empty : ClaudeResponse J := .ofType "message_delta"
  { empty with usage := usage, delta := some { media with stopReason := stopReason } }

def messageStop : ClaudeResponse J := .ofType "message_stop"

end ClaudeResponse

end MaxApi.Dto
