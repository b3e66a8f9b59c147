import MaxApi.Convert.Merge
import MaxApi.Dto.Claude

/-! # Conversions: from OpenAI to Claude

An OpenAI response is converted as a whole (`responseOpenAI2Claude`) or chunk by chunk
(`streamResponseOpenAI2Claude`).  What the stream remembers between two chunks is its
`ClaudeConvertInfo`; the relay makes one call of `handleStreamFormat` for each chunk and ends with
one of `handleFinalResponse`. -/

namespace MaxApi.Convert

open Dto

/-- `encoding/json`, as far as the arguments of tool calls are concerned: `none` is an error and
`some none` is `null`. -/
structure ObjectCodec (J : Type) where
  unmarshal : String → Option (Option J)
  emptyObject : J
  argumentsObject : String → J

variable {J : Type} (codec : ObjectCodec J)

/-- `OpenAIFinishReasonToClaudeStopReason`. -/
def openAIFinishReasonToClaudeStopReason (finishReason : String) : String :=
  let lower := Text.toLower finishReason
  if lower = "stop" then "end_turn"
  else if lower = "stop_sequence" then "stop_sequence"
  else if lower = "length" ∨ lower = "max_tokens" then "max_tokens"
  else if lower = "content_filter" then "refusal"
  else if lower = "tool_calls" then "tool_use"
  else finishReason

/-- `buildClaudeUsageFromOpenAIUsage`. -/
def buildClaudeUsageFromOpenAIUsage (u : Usage) : ClaudeUsage :=
  let split := normalizeCacheCreationSplit u.promptTokensDetails.cachedCreationTokens
    u.claudeCacheCreation5mTokens u.claudeCacheCreation1hTokens
  { inputTokens := u.promptTokens
    cacheCreationInputTokens := u.promptTokensDetails.cachedCreationTokens
    cacheReadInputTokens := u.promptTokensDetails.cachedTokens
    outputTokens := u.completionTokens
    cacheCreation := if 0 < split.1 ∨ 0 < split.2 then some ⟨split.1, split.2⟩ else none
    claudeCacheCreation5mTokens := 0
    claudeCacheCreation1hTokens := 0 }

/-! ### What a stream remembers -/

/-- `LastMessagesType`. -/
inductive LastMessageType where
  | noMessage
  | text
  | tools
  | thinking
  deriving DecidableEq

structure ClaudeConvertInfo where
  lastMessagesType : LastMessageType
  index : ℤ
  usage : Option Usage
  finishReason : String
  done : Bool
  toolCallBaseIndex : ℤ
  toolCallMaxIndexOffset : ℤ
  deriving DecidableEq

def ClaudeConvertInfo.new : ClaudeConvertInfo := ⟨.noMessage, 0, none, "", false, 0, 0⟩

/-- What the conversion uses of the `RelayInfo`. -/
structure RelayInfo where
  sendResponseCount : ℕ
  estimatePromptTokens : ℤ
  claudeConvertInfo : ClaudeConvertInfo
  deriving DecidableEq

/-- The events of a step, and what is remembered after it. -/
abbrev Converted (J : Type) := List (ClaudeResponse J) × ClaudeConvertInfo

/-! ### Blocks -/

/-- `generateStopBlock`. -/
def generateStopBlock (index : ℤ) : ClaudeResponse J := .contentBlockStop index

def stopOpenBlocks (info : ClaudeConvertInfo) : List (ClaudeResponse J) :=
  match info.lastMessagesType with
  | .noMessage => []
  | .text => [generateStopBlock info.index]
  | .thinking => [generateStopBlock info.index]
  | .tools =>
      (List.range (info.toolCallMaxIndexOffset + 1).toNat).map fun offset : ℕ =>
        generateStopBlock (info.toolCallBaseIndex + offset)

def stopOpenBlocksAndAdvance (info : ClaudeConvertInfo) : Converted J :=
  match info.lastMessagesType with
  | .noMessage => ([], info)
  | .tools =>
      (stopOpenBlocks info,
        { info with
          index := info.toolCallBaseIndex + info.toolCallMaxIndexOffset + 1
          toolCallBaseIndex := 0
          toolCallMaxIndexOffset := 0
          lastMessagesType := .noMessage })
  | _ =>
    (stopOpenBlocks info, { info with index := info.index + 1, lastMessagesType := .noMessage })

/-- The end of a message; without a usage there is no `message_delta`. -/
def closingEvents (usage : Option Usage) (stopReason : String) : List (ClaudeResponse J) :=
  match usage with
  | none => [.messageStop]
  | some u =>
    [.messageDelta (some (buildClaudeUsageFromOpenAIUsage u)) (some stopReason), .messageStop]

/-- `FinishReason != nil && *FinishReason != ""`. -/
def doneReason (choice : ChatCompletionsStreamResponseChoice) : Option String :=
  match choice.finishReason with
  | none => none
  | some reason => if reason = "" then none else some reason

/-! ### The first chunk -/

/-- Only the first tool call of the first chunk is looked at. -/
def firstTool (toolCall : ToolCallResponse) (info : ClaudeConvertInfo) : Converted J :=
  (.contentBlockStart 0 (.toolUseBlock toolCall.id toolCall.function.name
    (some codec.emptyObject)) ::
      (if toolCall.function.arguments ≠ "" then
        [.contentBlockDelta 0 (.inputJsonDelta toolCall.function.arguments)] else []),
    { info with
      lastMessagesType := .tools
      toolCallBaseIndex := 0
      toolCallMaxIndexOffset := 0 })

/-- A text or thinking block of the first chunk is started in any case. -/
def firstBlock (type : LastMessageType) (block delta : ClaudeMediaMessage J)
    (info : ClaudeConvertInfo) : Converted J :=
  let stopped := if info.lastMessagesType ≠ type then stopOpenBlocksAndAdvance info else ([], info)
  (stopped.1 ++
      [.contentBlockStart stopped.2.index block, .contentBlockDelta stopped.2.index delta],
    { stopped.2 with lastMessagesType := type })

def firstContent (delta : ChatCompletionsStreamResponseChoiceDelta) (info : ClaudeConvertInfo) :
    Converted J :=
  if delta.getReasoningContent ≠ "" then
    firstBlock .thinking (.thinkingBlock "") (.thinkingDelta delta.getReasoningContent) info
  else if delta.getContentString ≠ "" then
    firstBlock .text (.textBlock "") (.textDelta delta.getContentString) info
  else ([], info)

def firstFinish (usage : Option Usage) (choice : ChatCompletionsStreamResponseChoice)
    (info : ClaudeConvertInfo) : Converted J :=
  match doneReason choice with
  | none => ([], info)
  | some reason =>
      (stopOpenBlocks info ++
          closingEvents (usage.or info.usage) (openAIFinishReasonToClaudeStopReason reason),
        { info with finishReason := reason, done := true })

def firstChoice (usage : Option Usage) (choice : ChatCompletionsStreamResponseChoice)
    (info : ClaudeConvertInfo) : Converted J :=
  let tools :=
    match choice.delta.toolCalls with
    | [] => ([], info)
    | toolCall :: _ => firstTool codec toolCall info
  let content := firstContent choice.delta tools.2
  let finish := firstFinish usage choice content.2
  (tools.1 ++ content.1 ++ finish.1, finish.2)

/-- The chunk with which `SendResponseCount` is one. -/
def firstChunk (response : ChatCompletionsStreamResponse) (estimate : ℤ)
    (info : ClaudeConvertInfo) : Converted J :=
  let usage := ClaudeUsage.empty
  let start := .messageStart response.id response.model
    (some { usage with inputTokens := estimate })
  match response.choices with
  | [] => ([start], info)
  | choice :: _ =>
      let out := firstChoice codec response.usage choice info
      (start :: out.1, out.2)

/-! ### The chunks after the first -/

/-- A text or thinking block is started where the last block was another one. -/
def laterBlock (type : LastMessageType) (block delta : ClaudeMediaMessage J)
    (info : ClaudeConvertInfo) : Converted J :=
  if info.lastMessagesType ≠ type then
    let stopped := stopOpenBlocksAndAdvance info
    (stopped.1 ++
        [.contentBlockStart stopped.2.index block, .contentBlockDelta stopped.2.index delta],
      { stopped.2 with lastMessagesType := type })
  else ([.contentBlockDelta info.index delta], { info with lastMessagesType := type })

/-- The index of a tool call; without one, its position in the chunk. -/
def toolOffset (toolCall : ToolCallResponse × ℕ) : ℤ := toolCall.1.index.getD toolCall.2

/-- The events of a tool call. -/
def toolEvents (base : ℤ) (toolCall : ToolCallResponse × ℕ) : List (ClaudeResponse J) :=
  let blockIndex := base + toolOffset toolCall
  let t := toolCall.1
  (if t.function.name ≠ "" then
    [.contentBlockStart blockIndex (.toolUseBlock t.id t.function.name (some codec.emptyObject))]
    else []) ++
  (if t.function.arguments ≠ "" then
    [.contentBlockDelta blockIndex (.inputJsonDelta t.function.arguments)] else [])

/-- The largest offset, from `maxOffset` on. -/
def maxToolOffset (maxOffset : ℤ) (toolCalls : List (ToolCallResponse × ℕ)) : ℤ :=
  toolCalls.foldl
    (fun maxOffset toolCall =>
      if maxOffset < toolOffset toolCall then toolOffset toolCall else maxOffset)
    maxOffset

/-- The tool blocks are opened at the next index, unless they are open. -/
def openTools (info : ClaudeConvertInfo) : Converted J :=
  if info.lastMessagesType ≠ .tools then
    let stopped := stopOpenBlocksAndAdvance info
    (stopped.1,
      { stopped.2 with
        lastMessagesType := .tools
        toolCallBaseIndex := stopped.2.index
        toolCallMaxIndexOffset := 0 })
  else ([], info)

def laterTools (toolCalls : List ToolCallResponse) (info : ClaudeConvertInfo) : Converted J :=
  let opened := openTools info
  let base := opened.2.toolCallBaseIndex
  let maxOffset := maxToolOffset opened.2.toolCallMaxIndexOffset toolCalls.zipIdx
  (opened.1 ++ toolCalls.zipIdx.flatMap (toolEvents codec base),
    { opened.2 with toolCallMaxIndexOffset := maxOffset, index := base + maxOffset })

/-- Tool calls displace reasoning, and reasoning displaces text. -/
def laterDelta (delta : ChatCompletionsStreamResponseChoiceDelta) (info : ClaudeConvertInfo) :
    Converted J :=
  if delta.toolCalls ≠ [] then laterTools codec delta.toolCalls info
  else if delta.getReasoningContent ≠ "" then
    laterBlock .thinking (.thinkingBlock "") (.thinkingDelta delta.getReasoningContent) info
  else if delta.getContentString ≠ "" then
    laterBlock .text (.textBlock "") (.textDelta delta.getContentString) info
  else ([], info)

/-- A finish reason without a usage of its own leaves the chunk unread. -/
def laterChoice (usage : Option Usage) (choice : ChatCompletionsStreamResponseChoice)
    (info : ClaudeConvertInfo) : Converted J :=
  match doneReason choice with
  | none => laterDelta codec choice.delta info
  | some reason =>
      let info := { info with finishReason := reason }
      match usage with
      | none => ([], info)
      | some u =>
          let out := laterDelta codec choice.delta info
          (out.1 ++ stopOpenBlocks out.2 ++
              closingEvents (some u) (openAIFinishReasonToClaudeStopReason reason),
            { out.2 with done := true })

/-- A chunk without choices ends the message as soon as there is a usage. -/
def usageOnly (usage : Option Usage) (info : ClaudeConvertInfo) : Converted J :=
  match usage.or info.usage with
  | none => ([], info)
  | some u =>
      let stopReason := openAIFinishReasonToClaudeStopReason info.finishReason
      (stopOpenBlocks info ++
          closingEvents (some u) (if stopReason = "" then "end_turn" else stopReason),
        { info with done := true })

def laterChunk (response : ChatCompletionsStreamResponse) (info : ClaudeConvertInfo) :
    Converted J :=
  match response.choices with
  | [] => usageOnly response.usage info
  | choice :: _ => laterChoice codec response.usage choice info

/-! ### The stream -/

/-- `StreamResponseOpenAI2Claude`. -/
def streamResponseOpenAI2Claude (response : ChatCompletionsStreamResponse) (info : RelayInfo) :
    Converted J :=
  if info.claudeConvertInfo.done then ([], info.claudeConvertInfo)
  else if info.sendResponseCount = 1 then
    firstChunk codec response info.estimatePromptTokens info.claudeConvertInfo
  else laterChunk codec response info.claudeConvertInfo

/-- A call that the relay makes for a chunk of the provider. -/
inductive Call where
  | handleStreamFormat (response : ChatCompletionsStreamResponse)
  | handleFinalResponse (response : ChatCompletionsStreamResponse) (usage : Usage)

def Call.response : Call → ChatCompletionsStreamResponse
  | .handleStreamFormat response => response
  | .handleFinalResponse response _ => response

/-- What is remembered when the conversion is called. -/
def Call.prepare (info : RelayInfo) : Call → RelayInfo
  | .handleStreamFormat response =>
      let convert := info.claudeConvertInfo
      { info with
        sendResponseCount := info.sendResponseCount + 1
        claudeConvertInfo := { convert with usage := response.usage.or convert.usage } }
  | .handleFinalResponse _ usage =>
      let convert := info.claudeConvertInfo
      { info with claudeConvertInfo := { convert with usage := some usage } }

/-- What is remembered after the call. -/
def Call.finish (convert : ClaudeConvertInfo) : Call → ClaudeConvertInfo
  | .handleStreamFormat _ => convert
  | .handleFinalResponse _ _ => { convert with done := true }

/-- `handleClaudeFormat` or `HandleFinalResponse`. -/
def handle (info : RelayInfo) (call : Call) : List (ClaudeResponse J) × RelayInfo :=
  let prepared := call.prepare info
  let out := streamResponseOpenAI2Claude codec call.response prepared
  (out.1, { prepared with claudeConvertInfo := call.finish out.2 })

/-- The events of the calls, one after the other. -/
def handleAll (info : RelayInfo) : List Call → List (ClaudeResponse J)
  | [] => []
  | call :: calls => (handle codec info call).1 ++ handleAll (handle codec info call).2 calls

/-- The relay: a call for each chunk, and a last one with the usage. -/
def relayCalls (chunks : List ChatCompletionsStreamResponse)
    (final : ChatCompletionsStreamResponse) (usage : Usage) : List Call :=
  chunks.map .handleStreamFormat ++ [.handleFinalResponse final usage]

def relayStream (estimate : ℤ) (chunks : List ChatCompletionsStreamResponse)
    (final : ChatCompletionsStreamResponse) (usage : Usage) : List (ClaudeResponse J) :=
  handleAll codec ⟨0, estimate, .new⟩ (relayCalls chunks final usage)

/-! ### The whole response -/

/-- `parseToolCallArguments`. -/
def parseToolCallArguments (rawArgs : String) : J :=
  if rawArgs = "" then codec.emptyObject
  else
    match codec.unmarshal rawArgs with
    | none => codec.argumentsObject rawArgs
    | some none => codec.emptyObject
    | some (some args) => args

def choiceContents (message : Message) : List (ClaudeMediaMessage J) :=
  (if message.content ≠ "" then [.textBlock message.content] else []) ++
    message.toolCalls.map fun t =>
      .toolUseBlock t.id t.function.name (some (parseToolCallArguments codec t.function.arguments))

/-- `ResponseOpenAI2Claude`. -/
def responseOpenAI2Claude (response : OpenAITextResponse) : ClaudeResponse J :=
  let empty : ClaudeResponse J := .ofType "message"
  { empty with
    id := response.id
    role := "assistant"
    model := response.model
    content := response.choices.flatMap fun choice => choiceContents codec choice.message
    stopReason :=
      ((response.choices.getLast?).map
        fun choice => openAIFinishReasonToClaudeStopReason choice.finishReason).getD ""
    usage := some (buildClaudeUsageFromOpenAIUsage response.usage) }

end MaxApi.Convert
