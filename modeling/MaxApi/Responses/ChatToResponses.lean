import MaxApi.Dto.Responses
import MaxApi.Lib.System
import MaxApi.Lib.Text
import Mathlib.Data.List.Basic

/-! # Conversions: a chat completion as a response

The conversion of a chat completion as a whole, and the one of its chunks, which keeps a state.
The JSON codec is a parameter (`ArgumentsCodec`). -/

namespace MaxApi.Responses

open Dto

/-- What the JSON library does with a string, and with an object of which the string under `input`
is wanted.  Different strings have different encodings. -/
structure ArgumentsCodec where
  marshal : String → String
  marshal_injective : Function.Injective marshal
  inputField : String → Option String

section codec

variable (codec : ArgumentsCodec)

/-- `chatArgumentsRawMessage`. -/
def chatArgumentsRawMessage (arguments : String) : String := codec.marshal arguments

def customToolInputFromArguments (arguments : String) : String :=
  (codec.inputField arguments).getD arguments

end codec

/-- `ResponsesStatusFromChatFinishReason`, with the reason of an incomplete response. -/
def responsesStatusFromChatFinishReason (finishReason : String) : ResponseStatus × Option String :=
  let reason := Text.trimSpace finishReason
  if reason = "length" then (.incomplete, some "max_output_tokens")
  else if reason = "content_filter" then (.incomplete, some "content_filter")
  else (.completed, none)

def usageFromChatUsage (src : Usage) : Usage :=
  let empty : Usage := .empty
  let inputTokens := src.promptTokens
  let outputTokens := src.completionTokens
  { empty with
    promptTokens := src.promptTokens
    inputTokens := inputTokens
    completionTokens := src.completionTokens
    outputTokens := outputTokens
    totalTokens := if src.totalTokens ≠ 0 then src.totalTokens else inputTokens + outputTokens
    inputTokensDetails :=
      if src.promptTokensDetails.reported then some src.promptTokensDetails else none
    completionTokenDetails :=
      if src.completionTokenDetails.reported then src.completionTokenDetails
      else empty.completionTokenDetails
    billingUsage := src.billingUsage.orElse fun _ => newOpenAIChatBillingUsage src }

/-! ### Output items -/

/-- `responseOutputStatus` and `outputStatus`. -/
def outputStatus (status : ResponseStatus) : ResponseStatus :=
  if status = .incomplete then .incomplete else .completed

def messageID (id : String) : String := id ++ "_msg_0"

def reasoningID (id : String) : String := id ++ "_reasoning_0"

def callID (id : String) (index : ℤ) : String := id ++ "_call_" ++ toString index

def messageOutput (id text : String) (status : ResponseStatus) : ResponsesOutput :=
  { ResponsesOutput.empty .message (messageID id) status with
    role := "assistant"
    content := [⟨"output_text", text⟩] }

def reasoningOutput (id text : String) (status : ResponseStatus) : ResponsesOutput :=
  { ResponsesOutput.empty .reasoning (reasoningID id) status with
    content := [⟨"summary_text", text⟩] }

/-! ### The whole -/

section whole

variable (codec : ArgumentsCodec)

def chatToolCallToResponsesOutput (toolCall : ToolCallRequest) (responseID : String) (index : ℕ)
    (status : ResponseStatus) : ResponsesOutput :=
  let trimmed := Text.trimSpace toolCall.id
  let id := if trimmed = "" then callID responseID index else trimmed
  if toolCall.type = "" ∨ toolCall.type = "function" then
    { ResponsesOutput.empty .functionCall id status with
      callId := id
      name := toolCall.function.name
      arguments := some (chatArgumentsRawMessage codec toolCall.function.arguments) }
  else
    { ResponsesOutput.empty (.other toolCall.type) id status with
      callId := id
      arguments := toolCall.custom }

/-- An item of a tool call; the names of custom tools are known. -/
def toolCallOutput (customToolNames : List String) (responseID : String) (status : ResponseStatus)
    (toolCall : ToolCallRequest) (index : ℕ) : ResponsesOutput :=
  let item := chatToolCallToResponsesOutput codec toolCall responseID index status
  let name := Text.trimSpace toolCall.function.name
  if name ∈ customToolNames ∧ item.type = .functionCall then
    { item with
      type := .customToolCall
      name := name
      input := customToolInputFromArguments codec toolCall.function.arguments
      arguments := none }
  else item

/-- `ChatCompletionsResponseToResponsesResponseWithCustomTools`. -/
def chatCompletionsResponseToResponsesResponse (resp : ChatResponse) (id : String)
    (customToolNames : List String) : OpenAIResponsesResponse :=
  let out : OpenAIResponsesResponse :=
    ⟨id, resp.created, .completed, none, resp.model, [], some (usageFromChatUsage resp.usage)⟩
  match resp.choices with
  | [] => out
  | choice :: _ =>
      let (status, details) := responsesStatusFromChatFinishReason choice.finishReason
      let out := { out with status := status, incompleteDetails := details }
      let status := outputStatus out.status
      let text := choice.message.content
      let reasoning := choice.message.getReasoningContent
      { out with
        output :=
          (if text ≠ "" then [messageOutput id text status] else []) ++
            (if reasoning ≠ "" then [reasoningOutput id reasoning status] else []) ++
            choice.message.toolCalls.mapIdx fun i toolCall =>
              toolCallOutput codec customToolNames id status toolCall i }

end whole

/-! ### The state of a stream -/

/-- The message or the reasoning of a stream: `textOutputIndex`, `textStarted`, `textDone` and
`text`, or the fields of the same meaning. -/
structure TextItem where
  outputIndex : ℕ
  started : Bool
  done : Bool
  text : String
  deriving DecidableEq

/-- `chatToResponsesStreamTool`. -/
structure StreamTool where
  chatIndex : ℤ
  outputIndex : ℕ
  id : String
  name : String
  arguments : String
  announced : Bool
  done : Bool
  custom : Bool
  deriving DecidableEq

/-- `chatToResponsesOutputRef`. -/
inductive OutputRef where
  | message
  | reasoning
  | tool (index : ℤ)
  deriving DecidableEq

/-- `ChatToResponsesStreamState`.  The tools are a map, which is only iterated in the order of its
keys; here it is a list in that order. -/
structure StreamState where
  id : String
  model : String
  created : ℤ
  usage : Usage
  customToolNames : List String
  status : ResponseStatus
  incompleteDetails : Option String
  sentCreated : Bool
  message : TextItem
  reasoning : TextItem
  finalized : Bool
  nextOutputIndex : ℕ
  tools : List StreamTool
  outputOrder : List OutputRef
  deriving DecidableEq

/-- `NewChatToResponsesStreamState`, with the names of the custom tools. -/
def newStreamState (id model : String) (created : ℤ) (customToolNames : List String) :
    StreamState :=
  { id := id
    model := model
    created := created
    usage := .empty
    customToolNames := customToolNames
    status := .completed
    incompleteDetails := none
    sentCreated := false
    message := ⟨0, false, false, ""⟩
    reasoning := ⟨0, false, false, ""⟩
    finalized := false
    nextOutputIndex := 0
    tools := []
    outputOrder := [] }

/-- The tool call with an index. -/
def findTool (tools : List StreamTool) (index : ℤ) : Option StreamTool :=
  tools.find? (·.chatIndex = index)

/-- Store a tool call under its index. -/
def setTool (tool : StreamTool) : List StreamTool → List StreamTool
  | [] => [tool]
  | t :: tools =>
      if tool.chatIndex < t.chatIndex then tool :: t :: tools
      else if tool.chatIndex = t.chatIndex then tool :: tools
      else t :: setTool tool tools

namespace StreamState

variable (s : StreamState)

/-- `nextIndex`; the index itself is `s.nextOutputIndex`. -/
def takeIndex (ref : OutputRef) : StreamState :=
  { s with nextOutputIndex := s.nextOutputIndex + 1, outputOrder := s.outputOrder ++ [ref] }

def markIncomplete (reason : String) : StreamState :=
  if s.finalized ∨ s.status = .incomplete then s
  else
    let reason := Text.trimSpace reason
    { s with
      status := .incomplete
      incompleteDetails := some (if reason = "" then "other" else reason) }

def applyFinishReason (finishReason : String) : StreamState :=
  { s with
    status := (responsesStatusFromChatFinishReason finishReason).1
    incompleteDetails := (responsesStatusFromChatFinishReason finishReason).2 }

def createdResponse : OpenAIResponsesResponse :=
  ⟨s.id, s.created, .inProgress, none, s.model, [], none⟩

end StreamState

/-! ### Text and reasoning -/

/-- The two items that consist of text. -/
inductive Part where
  | message
  | reasoning
  deriving DecidableEq

namespace Part

def ref : Part → OutputRef
  | .message => .message
  | .reasoning => .reasoning

def item (s : StreamState) : Part → TextItem
  | .message => s.message
  | .reasoning => s.reasoning

def set (s : StreamState) (x : TextItem) : Part → StreamState
  | .message => { s with message := x }
  | .reasoning => { s with reasoning := x }

def itemID (s : StreamState) : Part → String
  | .message => messageID s.id
  | .reasoning => reasoningID s.id

/-- The item before its content. -/
def announcement (s : StreamState) : Part → ResponsesOutput
  | .message =>
      { ResponsesOutput.empty .message (messageID s.id) .inProgress with role := "assistant" }
  | .reasoning => ResponsesOutput.empty .reasoning (reasoningID s.id) .inProgress

def output (s : StreamState) (status : ResponseStatus) : Part → ResponsesOutput
  | .message => messageOutput s.id s.message.text status
  | .reasoning => reasoningOutput s.id s.reasoning.text status

def deltaEvent (s : StreamState) (delta : String) : Part → ResponsesStreamEvent
  | .message => .outputTextDelta s.message.outputIndex 0 (messageID s.id) delta
  | .reasoning => .reasoningSummaryDelta s.reasoning.outputIndex 0 (reasoningID s.id) delta

def doneEvent (s : StreamState) : Part → ResponsesStreamEvent
  | .message => .outputTextDone s.message.outputIndex 0 (messageID s.id)
  | .reasoning =>
      .reasoningSummaryDone s.reasoning.outputIndex 0 (reasoningID s.id)
        ⟨"summary_text", s.reasoning.text⟩

/-- The item is added, if it has not been. -/
def start (s : StreamState) (p : Part) : StreamState × List ResponsesStreamEvent :=
  if (p.item s).started then (s, [])
  else
    let x := p.item s
    let index := s.nextOutputIndex
    let s := p.set (s.takeIndex p.ref) { x with started := true, outputIndex := index }
    (s, [.outputItemAdded index "" (p.announcement s)])

/-- A delta of the item. -/
def append (s : StreamState) (p : Part) (delta : String) :
    StreamState × List ResponsesStreamEvent :=
  let (s, added) := p.start s
  let x := p.item s
  let s := p.set s { x with text := x.text ++ delta }
  (s, added ++ [p.deltaEvent s delta])

/-- The events at the end of the item. -/
def close (s : StreamState) (p : Part) (status : ResponseStatus) :
    StreamState × List ResponsesStreamEvent :=
  let x := p.item s
  if x.started ∧ x.done = false then
    let s := p.set s { x with done := true }
    (s, [p.doneEvent s, .outputItemDone x.outputIndex (p.output s status)])
  else (s, [])

end Part

def appendTextDelta (s : StreamState) (delta : String) : StreamState × List ResponsesStreamEvent :=
  Part.message.append s delta

def appendReasoningDelta (s : StreamState) (delta : String) :
    StreamState × List ResponsesStreamEvent :=
  Part.reasoning.append s delta

/-! ### Tool calls -/

section stream

variable (codec : ArgumentsCodec)

def toolOutput (tool : StreamTool) (status : ResponseStatus) : ResponsesOutput :=
  if tool.custom then
    { ResponsesOutput.empty .customToolCall tool.id status with
      callId := tool.id
      name := tool.name
      input := customToolInputFromArguments codec tool.arguments }
  else
    { ResponsesOutput.empty .functionCall tool.id status with
      callId := tool.id
      name := tool.name
      arguments := some (chatArgumentsRawMessage codec tool.arguments) }

def toolAnnouncement (tool : StreamTool) : ResponsesOutput :=
  let item := toolOutput codec tool .inProgress
  if tool.custom then { item with input := "" }
  else { item with arguments := some "\"\"" }

/-- The tool call is announced: it takes an index, and its item is added. -/
def announceTool (s : StreamState) (tool : StreamTool) :
    StreamState × StreamTool × List ResponsesStreamEvent :=
  let tool :=
    { tool with
      announced := true
      custom := decide (tool.name ∈ s.customToolNames)
      outputIndex := s.nextOutputIndex }
  (s.takeIndex (.tool tool.chatIndex), tool,
    [.outputItemAdded tool.outputIndex tool.id (toolAnnouncement codec tool)])

/-- A delta of the arguments, for those tools that show them. -/
def argumentsEvents (tool : StreamTool) (delta : String) : List ResponsesStreamEvent :=
  if tool.announced ∧ tool.custom = false ∧ delta ≠ "" then
    [.functionArgsDelta tool.outputIndex tool.id delta]
  else []

/-- The tool call of a delta, with the id and the name that the delta gives. -/
def mergeToolCall (s : StreamState) (toolCall : ToolCallResponse) : Except String StreamTool :=
  let chatIndex := toolCall.index.getD 0
  let id := Text.trimSpace toolCall.id
  let name := Text.trimSpace toolCall.function.name
  let tool := (findTool s.tools chatIndex).getD
    ⟨chatIndex, 0, if id = "" then callID s.id chatIndex else id, name, "", false, false, false⟩
  if id ≠ "" ∧ tool.announced ∧ tool.id ≠ id then
    .error ("tool-call index " ++ toString chatIndex ++ " changed id after announcement")
  else
    let tool := if id ≠ "" then { tool with id := id } else tool
    if name ≠ "" ∧ tool.announced ∧ tool.name ≠ name then
      .error ("tool-call index " ++ toString chatIndex ++ " changed name after announcement")
    else .ok (if name ≠ "" then { tool with name := name } else tool)

def appendToolCallDelta (s : StreamState) (toolCall : ToolCallResponse) :
    Except String (StreamState × List ResponsesStreamEvent) :=
  if (findTool s.tools (toolCall.index.getD 0)).any (·.done) then .ok (s, [])
  else
    match mergeToolCall s toolCall with
    | .error e => .error e
    | .ok tool =>
        let delta := toolCall.function.arguments
        let tool := { tool with arguments := tool.arguments ++ delta }
        if tool.announced = false ∧ tool.name ≠ "" then
          let (s, tool, added) := announceTool codec s tool
          .ok ({ s with tools := setTool tool s.tools },
            added ++ argumentsEvents tool tool.arguments)
        else
          .ok ({ s with tools := setTool tool s.tools }, argumentsEvents tool delta)

/-! ### Done -/

/-- The events at the end of a tool call that has been announced. -/
def toolDoneEvents (tool : StreamTool) (status : ResponseStatus) : List ResponsesStreamEvent :=
  let input := customToolInputFromArguments codec tool.arguments
  (if tool.custom then
    (if input ≠ "" then [.customInputDelta tool.outputIndex tool.id input] else []) ++
      [.customInputDone tool.outputIndex tool.id input]
  else [.functionArgsDone tool.outputIndex tool.id tool.arguments]) ++
    [.outputItemDone tool.outputIndex (toolOutput codec tool status)]

/-- The last loop of `doneDeltaEvents`, for one tool call. -/
def closeTool (status : ResponseStatus) (s : StreamState) (tool : StreamTool) :
    StreamState × List ResponsesStreamEvent :=
  if tool.done then (s, [])
  else
    let tool := { tool with done := true }
    if tool.announced then
      ({ s with tools := setTool tool s.tools }, toolDoneEvents codec tool status)
    else if tool.name = "" then ({ s with tools := setTool tool s.tools }, [])
    else
      let (s, tool, added) := announceTool codec s tool
      ({ s with tools := setTool tool s.tools },
        added ++ argumentsEvents tool tool.arguments ++ toolDoneEvents codec tool status)

def closeTools (status : ResponseStatus) :
    StreamState → List StreamTool → StreamState × List ResponsesStreamEvent
  | s, [] => (s, [])
  | s, tool :: tools =>
      let (s, events) := closeTool codec status s tool
      let (s, rest) := closeTools status s tools
      (s, events ++ rest)

/-- A tool call that never got a name makes the response incomplete. -/
def markNameless (s : StreamState) : StreamState :=
  if s.tools.any fun tool => tool.name = "" then s.markIncomplete "missing_tool_name" else s

def doneDeltaEvents (s : StreamState) : StreamState × List ResponsesStreamEvent :=
  let s := markNameless s
  let status := outputStatus s.status
  let (s, text) := Part.message.close s status
  let (s, reasoning) := Part.reasoning.close s status
  let (s, tools) := closeTools codec status s s.tools
  (s, text ++ reasoning ++ tools)

/-! ### Chunks -/

/-- How far a chunk has been converted: the state, the events so far, and the error that stopped
it. -/
structure Progress where
  state : StreamState
  events : List ResponsesStreamEvent
  error : Option String
  deriving DecidableEq

namespace Progress

/-- Nothing further happens after an error. -/
def andThen (p : Progress) (f : StreamState → Progress) : Progress :=
  match p.error with
  | some _ => p
  | none =>
      let r := f p.state
      ⟨r.state, p.events ++ r.events, r.error⟩

/-- Events without an error. -/
def emit (r : StreamState × List ResponsesStreamEvent) : Progress := ⟨r.1, r.2, none⟩

end Progress

/-- The tool calls of a delta. -/
def convertToolCalls : StreamState → List ToolCallResponse → Progress
  | s, [] => ⟨s, [], none⟩
  | s, toolCall :: toolCalls =>
      match appendToolCallDelta codec s toolCall with
      | .error e => ⟨s, [], some e⟩
      | .ok r => (Progress.emit r).andThen fun s => convertToolCalls s toolCalls

/-- The reasoning and the text of a delta. -/
def convertPart (p : Part) (delta : String) (s : StreamState) : Progress :=
  .emit (if delta ≠ "" then p.append s delta else (s, []))

def convertFinish (finishReason : Option String) (s : StreamState) : Progress :=
  match finishReason with
  | none => ⟨s, [], none⟩
  | some reason =>
      if Text.trimSpace reason ≠ "" then .emit (doneDeltaEvents codec (s.applyFinishReason reason))
      else ⟨s, [], none⟩

/-- One choice of a chunk. -/
def convertChoice (s : StreamState) (choice : ChatCompletionsStreamResponseChoice) : Progress :=
  (((convertPart .reasoning choice.delta.getReasoningContent s).andThen
      (convertPart .message choice.delta.getContentString)).andThen
        fun s => convertToolCalls codec s choice.delta.toolCalls).andThen
          (convertFinish codec choice.finishReason)

def convertChoices : StreamState → List ChatCompletionsStreamResponseChoice → Progress
  | s, [] => ⟨s, [], none⟩
  | s, choice :: choices =>
      (convertChoice codec s choice).andThen fun s => convertChoices s choices

/-- What a chunk says about the response as a whole. -/
def applyChunk (s : StreamState) (chunk : ChatCompletionsStreamResponse) : StreamState :=
  { s with
    id := if s.id = "" then chunk.id else s.id
    model := if s.model = "" then chunk.model else s.model
    usage :=
      match chunk.usage with
      | none => s.usage
      | some usage => usageFromChatUsage usage }

/-- `response.created`, before anything else. -/
def announceResponse (s : StreamState) : Progress :=
  if s.sentCreated then ⟨s, [], none⟩
  else
    let s := { s with sentCreated := true }
    ⟨s, [.created s.createdResponse], none⟩

/-- How far a chunk is converted. -/
def convertChunk (s : StreamState) (chunk : ChatCompletionsStreamResponse) : Progress :=
  (announceResponse (applyChunk s chunk)).andThen fun s => convertChoices codec s chunk.choices

/-- `ChatCompletionsStreamChunkToResponsesEvents`: with an error there are no events. -/
def chatCompletionsStreamChunkToResponsesEvents (s : StreamState)
    (chunk : ChatCompletionsStreamResponse) : StreamState × List ResponsesStreamEvent :=
  let p := convertChunk codec s chunk
  (p.state, if p.error.isSome then [] else p.events)

/-- The state after a chunk. -/
def chunkStep (s : StreamState) (chunk : ChatCompletionsStreamResponse) : StreamState :=
  (chatCompletionsStreamChunkToResponsesEvents codec s chunk).1

/-! ### The end -/

/-- The item of a reference. -/
def refOutput (s : StreamState) (status : ResponseStatus) : OutputRef → Option ResponsesOutput
  | .message => some (Part.message.output s status)
  | .reasoning => some (Part.reasoning.output s status)
  | .tool index => (findTool s.tools index).map fun tool => toolOutput codec tool status

def finalResponse (s : StreamState) : OpenAIResponsesResponse :=
  ⟨s.id, s.created, s.status, s.incompleteDetails, s.model,
    s.outputOrder.filterMap (refOutput codec s (outputStatus s.status)), some s.usage⟩

/-- `FinalizeChatCompletionsStreamToResponses`. -/
def finalizeChatCompletionsStreamToResponses (s : StreamState) :
    StreamState × List ResponsesStreamEvent :=
  if s.finalized then (s, [])
  else
    let (s, events) := doneDeltaEvents codec s
    let s := { s with finalized := true }
    (s, events ++
      [if s.status = .incomplete then .incomplete (finalResponse codec s)
        else .completed (finalResponse codec s)])

/-- The events of the chunks and of the end. -/
def streamEvents : StreamState → List ChatCompletionsStreamResponse → List ResponsesStreamEvent
  | s, [] => (finalizeChatCompletionsStreamToResponses codec s).2
  | s, chunk :: chunks =>
      let r := chatCompletionsStreamChunkToResponsesEvents codec s chunk
      r.2 ++ streamEvents r.1 chunks

end stream

end MaxApi.Responses
