import MaxApi.Dto.OpenAI

/-! # Responses

The Responses format: a response with its output items, and the events of its stream. -/

namespace MaxApi.Dto

inductive ResponseStatus where
  | inProgress
  | completed
  | incomplete
  deriving DecidableEq

inductive ResponsesOutputType where
  | message
  | reasoning
  | functionCall
  | customToolCall
  | other (name : String)
  deriving DecidableEq

structure ResponsesOutputContent where
  type : String
  text : String
  deriving DecidableEq

/-- An output item; `arguments` is raw JSON. -/
structure ResponsesOutput where
  type : ResponsesOutputType
  id : String
  status : ResponseStatus
  role : String
  content : List ResponsesOutputContent
  callId : String
  name : String
  arguments : Option String
  input : String
  deriving DecidableEq

def ResponsesOutput.empty (type : ResponsesOutputType) (id : String) (status : ResponseStatus) :
    ResponsesOutput := ⟨type, id, status, "", [], "", "", none, ""⟩

structure OpenAIResponsesResponse where
  id : String
  createdAt : ℤ
  status : ResponseStatus
  incompleteDetails : Option String
  model : String
  output : List ResponsesOutput
  usage : Option Usage
  deriving DecidableEq

structure ResponsesReasoningSummaryPart where
  type : String
  text : String
  deriving DecidableEq

/-- The events of a stream, with what each carries. -/
inductive ResponsesStreamEvent where
  /-- `response.created` -/
  | created (response : OpenAIResponsesResponse)
  /-- `response.output_item.added` -/
  | outputItemAdded (outputIndex : ℕ) (itemID : String) (item : ResponsesOutput)
  /-- `response.output_text.delta` -/
  | outputTextDelta (outputIndex contentIndex : ℕ) (itemID delta : String)
  /-- `response.output_text.done` -/
  | outputTextDone (outputIndex contentIndex : ℕ) (itemID : String)
  /-- `response.reasoning_summary_text.delta` -/
  | reasoningSummaryDelta (outputIndex summaryIndex : ℕ) (itemID delta : String)
  /-- `response.reasoning_summary_text.done` -/
  | reasoningSummaryDone (outputIndex summaryIndex : ℕ) (itemID : String)
      (part : ResponsesReasoningSummaryPart)
  /-- `response.function_call_arguments.delta` -/
  | functionArgsDelta (outputIndex : ℕ) (itemID delta : String)
  /-- `response.function_call_arguments.done` -/
  | functionArgsDone (outputIndex : ℕ) (itemID arguments : String)
  /-- `response.custom_tool_call_input.delta` -/
  | customInputDelta (outputIndex : ℕ) (itemID delta : String)
  /-- `response.custom_tool_call_input.done` -/
  | customInputDone (outputIndex : ℕ) (itemID input : String)
  /-- `response.output_item.done` -/
  | outputItemDone (outputIndex : ℕ) (item : ResponsesOutput)
  /-- `response.completed` -/
  | completed (response : OpenAIResponsesResponse)
  /-- `response.incomplete` -/
  | incomplete (response : OpenAIResponsesResponse)
  deriving DecidableEq

/-! ### Chat completions -/

/-- A tool call of a message; `custom` is raw JSON. -/
structure ToolCallRequest where
  id : String
  type : String
  function : FunctionResponse
  custom : Option String
  deriving DecidableEq

/-- A message of a chat completion; `content` is its text (`StringContent`), and the tool calls are
what `ParseToolCalls` gives. -/
structure ChatMessage where
  content : String
  reasoningContent : Option String
  reasoning : Option String
  toolCalls : List ToolCallRequest
  deriving DecidableEq

/-- `GetReasoningContent`. -/
def ChatMessage.getReasoningContent (m : ChatMessage) : String :=
  match m.reasoningContent with
  | some s => s
  | none => m.reasoning.getD ""

structure ChatChoice where
  message : ChatMessage
  finishReason : String
  deriving DecidableEq

structure ChatResponse where
  model : String
  created : ℤ
  choices : List ChatChoice
  usage : Usage
  deriving DecidableEq

/-! ### Usage -/

def InputTokenDetails.reported (d : InputTokenDetails) : Bool :=
  d.cachedTokens ≠ 0 || d.cachedCreationTokens ≠ 0 || d.cacheWriteTokens ≠ 0 || d.textTokens ≠ 0 ||
    d.imageTokens ≠ 0 || d.audioTokens ≠ 0

def OutputTokenDetails.reported (d : OutputTokenDetails) : Bool :=
  d.reasoningTokens ≠ 0 || d.textTokens ≠ 0 || d.imageTokens ≠ 0 || d.audioTokens ≠ 0

def hasOpenAIUsageTokens (u : Usage) : Bool :=
  u.promptTokens ≠ 0 || u.completionTokens ≠ 0 || u.totalTokens ≠ 0 || u.inputTokens ≠ 0 ||
    u.outputTokens ≠ 0 || u.promptCacheHitTokens ≠ 0 || u.claudeCacheCreation5mTokens ≠ 0 ||
    u.claudeCacheCreation1hTokens ≠ 0 || u.promptTokensDetails.reported ||
    u.completionTokenDetails.reported || u.outputTokensDetails.any (·.reported) ||
    u.inputTokensDetails.isSome

/-- `NewOpenAIChatBillingUsage`. -/
def newOpenAIChatBillingUsage (u : Usage) : Option BillingUsage :=
  if hasOpenAIUsageTokens u then
    some ⟨BillingUsageSourceOAIChat, BillingUsageSemanticOpenAI, false, false,
      some u.toUsageCounts, none, none⟩
  else none

end MaxApi.Dto
