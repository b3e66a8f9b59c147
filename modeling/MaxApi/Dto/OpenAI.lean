import MaxApi.Dto.Usage

/-! # OpenAI messages

A chat completion, and the chunks of its stream. -/

namespace MaxApi.Dto

structure FunctionResponse where
  name : String
  arguments : String
  deriving DecidableEq

/-- A tool call; the index is set in the chunks of a stream only. -/
structure ToolCallResponse where
  index : Option ℤ
  id : String
  function : FunctionResponse
  deriving DecidableEq

structure ChatCompletionsStreamResponseChoiceDelta where
  content : Option String
  reasoningContent : Option String
  reasoning : Option String
  role : String
  toolCalls : List ToolCallResponse
  deriving DecidableEq

namespace ChatCompletionsStreamResponseChoiceDelta

def empty : ChatCompletionsStreamResponseChoiceDelta := ⟨none, none, none, "", []⟩

variable (d : ChatCompletionsStreamResponseChoiceDelta)

def getContentString : String := d.content.getD ""

def getReasoningContent : String :=
  match d.reasoningContent with
  | some s => s
  | none => d.reasoning.getD ""

end ChatCompletionsStreamResponseChoiceDelta

structure ChatCompletionsStreamResponseChoice where
  delta : ChatCompletionsStreamResponseChoiceDelta
  finishReason : Option String
  deriving DecidableEq

structure ChatCompletionsStreamResponse where
  id : String
  model : String
  choices : List ChatCompletionsStreamResponseChoice
  usage : Option Usage
  deriving DecidableEq

/-- A message; `content` is its text, and the tool calls are in their decoded form. -/
structure Message where
  role : String
  content : String
  reasoningContent : Option String
  reasoning : Option String
  toolCalls : List ToolCallResponse
  deriving DecidableEq

/-- `GetReasoningContent`. -/
def Message.getReasoningContent (m : Message) : String :=
  match m.reasoningContent with
  | some s => s
  | none => m.reasoning.getD ""

structure OpenAITextResponseChoice where
  message : Message
  finishReason : String
  deriving DecidableEq

structure OpenAITextResponse where
  id : String
  model : String
  choices : List OpenAITextResponseChoice
  usage : Usage
  deriving DecidableEq

end MaxApi.Dto
