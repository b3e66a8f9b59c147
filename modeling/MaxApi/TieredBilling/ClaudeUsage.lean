import MaxApi.Dto.Claude
import MaxApi.Lib.System
import MaxApi.TieredBilling.Params

/-! # Tiered billing: the usage of a Claude response

The relay reads the usage of a Claude response from its body (`handleClaudeResponseData`), or
collects it from the events of its stream (`claudeStreamHandler`).  Errors of the upstream are left
out: the body and the events are those of a response. -/

namespace MaxApi.TieredBilling

open Dto

variable {J : Type}

/-! ### One body -/

/-- What `HandleClaudeResponseData` leaves in `claudeInfo.Usage`. -/
def handleClaudeResponseData (response : ClaudeResponse J) : Usage :=
  match response.usage with
  | none => .empty
  | some u =>
      { UsageCounts.empty with
        promptTokens := u.inputTokens
        completionTokens := u.outputTokens
        totalTokens := u.inputTokens + u.outputTokens
        usageSemantic := "anthropic"
        billingUsage := newClaudeMessagesBillingUsage u
        promptTokensDetails :=
          { InputTokenDetails.empty with
            cachedTokens := u.cacheReadInputTokens
            cachedCreationTokens := u.cacheCreationInputTokens }
        claudeCacheCreation5mTokens := u.getCacheCreation5mTokens
        claudeCacheCreation1hTokens := u.getCacheCreation1hTokens }

/-! ### A stream -/

inductive RelayFormat where
  | claude
  | openAI
  | openAIResponses
  deriving DecidableEq, Repr

/-- `ClaudeResponseInfo`, as far as usage is concerned. -/
structure ClaudeResponseInfo where
  responseText : String
  usage : Usage
  done : Bool
  responsesTerminalSeen : Bool
  responsesInputUsageReported : Bool
  responsesFinalOutputUsageReported : Bool
  responsesUsageFinalized : Bool
  responsesDeliveredText : String

/-- The info at the start of `ClaudeStreamHandler`. -/
def ClaudeResponseInfo.start : ClaudeResponseInfo :=
  ⟨"", .empty, false, false, false, false, false, ""⟩

/-- `if n > 0 { dst = n }`. -/
def overwrite (dst n : ℤ) : ℤ := if 0 < n then n else dst

/-- The usage of the `message_start` event. -/
def startUsage (usage : Usage) (u : ClaudeUsage) : Usage :=
  { usage with
    promptTokens := u.inputTokens
    usageSemantic := "anthropic"
    promptTokensDetails :=
      { usage.promptTokensDetails with
        cachedTokens := u.cacheReadInputTokens
        cachedCreationTokens := u.cacheCreationInputTokens }
    claudeCacheCreation5mTokens := u.getCacheCreation5mTokens
    claudeCacheCreation1hTokens := u.getCacheCreation1hTokens
    completionTokens := u.outputTokens }

/-- The usage of a `message_delta` event. -/
def deltaUsage (usage : Usage) (u : ClaudeUsage) : Usage :=
  let promptTokens := overwrite usage.promptTokens u.inputTokens
  let completionTokens := overwrite usage.completionTokens u.outputTokens
  { usage with
    usageSemantic := "anthropic"
    promptTokens := promptTokens
    promptTokensDetails :=
      { usage.promptTokensDetails with
        cachedTokens := overwrite usage.promptTokensDetails.cachedTokens u.cacheReadInputTokens
        cachedCreationTokens :=
          overwrite usage.promptTokensDetails.cachedCreationTokens u.cacheCreationInputTokens }
    claudeCacheCreation5mTokens :=
      overwrite usage.claudeCacheCreation5mTokens u.getCacheCreation5mTokens
    claudeCacheCreation1hTokens :=
      overwrite usage.claudeCacheCreation1hTokens u.getCacheCreation1hTokens
    completionTokens := completionTokens
    totalTokens := promptTokens + completionTokens }

/-- `FormatClaudeResponseInfo`. -/
def formatClaudeResponseInfo (info : ClaudeResponseInfo) (r : ClaudeResponse J) :
    ClaudeResponseInfo :=
  if r.type = "message_start" then
    match r.message.bind (·.usage) with
    | none => info
    | some u => { info with usage := startUsage info.usage u }
  else if r.type = "content_block_delta" then
    match r.delta with
    | none => info
    | some delta =>
        { info with
          responseText := info.responseText ++ delta.text.getD "" ++ delta.thinking.getD "" }
  else if r.type = "message_delta" then
    let info :=
      match r.usage with
      | none => info
      | some u => { info with usage := deltaUsage info.usage u }
    { info with done := true }
  else info

/-- One event of the stream, with what `gjson` finds in its text: whether
`message.usage.input_tokens` and `usage.output_tokens` are numbers.  `delivered` is the text that
the downstream got for it. -/
structure StreamData (J : Type) where
  response : ClaudeResponse J
  inputTokensNumber : Bool
  outputTokensNumber : Bool
  delivered : String

/-- What `writeClaudeResponsesEvents` does to the info. -/
def deliver (info : ClaudeResponseInfo) (delivered : String) : ClaudeResponseInfo :=
  if delivered = "" then info
  else
    let info := { info with responsesDeliveredText := info.responsesDeliveredText ++ delivered }
    if info.responsesUsageFinalized then
      { info with
        responsesUsageFinalized := false
        usage :=
          { info.usage with billingUsage := info.usage.billingUsage.filter (!·.estimated) } }
    else info

/-- The event ends the message, for a stream of the Responses format. -/
def isTerminal (r : ClaudeResponse J) : Bool :=
  r.type == "message_stop" ||
    (match r.delta.bind (·.stopReason) with
      | none => false
      | some reason => Text.trimSpace reason != "")

/-- `claudeInfo.ResponsesTerminalSeen = true`, at the end of the message. -/
def seeTerminal (info : ClaudeResponseInfo) (r : ClaudeResponse J) : ClaudeResponseInfo :=
  { info with responsesTerminalSeen := info.responsesTerminalSeen || isTerminal r }

/-- The start of the message has reported the input tokens. -/
def reportInput (info : ClaudeResponseInfo) (d : StreamData J) : ClaudeResponseInfo :=
  if d.response.type = "message_start" ∧ d.inputTokensNumber then
    { info with responsesInputUsageReported := true }
  else info

/-- The delta of the message has reported the output tokens, perhaps as zero. -/
def reportOutput (info : ClaudeResponseInfo) (d : StreamData J) : ClaudeResponseInfo :=
  if d.response.type = "message_delta" ∧ d.outputTokensNumber then
    { info with
      responsesFinalOutputUsageReported := true
      usage :=
        { info.usage with
          completionTokens := (d.response.usage.map ClaudeUsage.outputTokens).getD 0 } }
  else info

/-- What `HandleStreamResponseData` does to the info. -/
def handleStreamResponseData (format : RelayFormat) (info : ClaudeResponseInfo)
    (d : StreamData J) : ClaudeResponseInfo :=
  match format with
  | .claude | .openAI => formatClaudeResponseInfo info d.response
  | .openAIResponses =>
      let info := formatClaudeResponseInfo (seeTerminal info d.response) d.response
      deliver (reportOutput (reportInput info d) d) d.delivered

/-- `buildMessageDeltaPatchUsage`, without a response. -/
def buildMessageDeltaPatchUsage (usage : Usage) : ClaudeUsage :=
  let inputTokens := if 0 < usage.promptTokens then usage.promptTokens else 0
  let outputTokens := if 0 < usage.completionTokens then usage.completionTokens else 0
  let cacheReadInputTokens :=
    if 0 < usage.promptTokensDetails.cachedTokens then usage.promptTokensDetails.cachedTokens else 0
  let cacheCreationInputTokens :=
    if 0 < usage.promptTokensDetails.cachedCreationTokens then
      usage.promptTokensDetails.cachedCreationTokens
    else 0
  let split := normalizeCacheCreationSplit cacheCreationInputTokens
    usage.claudeCacheCreation5mTokens usage.claudeCacheCreation1hTokens
  { ClaudeUsage.empty with
    inputTokens := inputTokens
    outputTokens := outputTokens
    cacheReadInputTokens := cacheReadInputTokens
    cacheCreationInputTokens := cacheCreationInputTokens
    cacheCreation := if 0 < split.1 ∨ 0 < split.2 then some ⟨split.1, split.2⟩ else none }

/-- The local counts: the estimate of the prompt, and `EstimateTokenByModel` of a text. -/
structure Estimate where
  promptTokens : ℕ
  countTokens : String → ℕ

/-- The first half of `finalizeClaudeStreamUsage`: counts that the stream left out are estimated.
The flag says whether one was. -/
def fillCounts (responses : Bool) (estimate : Estimate) (info : ClaudeResponseInfo) :
    Usage × Bool :=
  let complete := if responses then info.responsesTerminalSeen else info.done
  let explicitZero := responses && complete && info.responsesFinalOutputUsageReported
  let usage := info.usage
  let fillsPrompt :=
    responses && decide (usage.promptTokens = 0) && !info.responsesInputUsageReported
  let usage := if fillsPrompt then { usage with promptTokens := estimate.promptTokens } else usage
  let estimated := fillsPrompt && decide (0 < usage.promptTokens)
  let noOutput := decide (usage.completionTokens = 0) && !explicitZero
  if noOutput || !complete then
    let text := if responses then info.responsesDeliveredText else info.responseText
    let fillsOutput :=
      noOutput || (!complete && decide (usage.completionTokens < estimate.countTokens text))
    let fillsInput := decide (usage.promptTokens = 0) && !info.responsesInputUsageReported
    let completionTokens :=
      if fillsOutput then (estimate.countTokens text : ℤ) else usage.completionTokens
    let promptTokens := if fillsInput then (estimate.promptTokens : ℤ) else usage.promptTokens
    ({ usage with
        completionTokens := completionTokens
        promptTokens := promptTokens
        totalTokens := promptTokens + completionTokens },
      estimated || fillsOutput || fillsInput)
  else (usage, estimated)

/-- The billing usage of what the stream has reported. -/
def providerBillingUsage (responses estimated : Bool) (info : ClaudeResponseInfo)
    (providerUsage : ClaudeUsage) : Option BillingUsage :=
  let reported := info.responsesInputUsageReported || info.responsesFinalOutputUsageReported
  let billingUsage :=
    if hasClaudeUsageTokens providerUsage || (responses && reported) then
      some (BillingUsage.mk BillingUsageSourceClaudeMessages BillingUsageSemanticAnthropic false
        false none (some providerUsage) none)
    else none
  if responses then
    billingUsage.map fun b =>
      BillingUsage.mk b.source b.semantic estimated
        (info.responsesInputUsageReported && info.responsesFinalOutputUsageReported)
        b.openAIUsage b.claudeUsage b.geminiUsageMetadata
  else billingUsage

/-- The second half of `finalizeClaudeStreamUsage`: the usage is recorded as the provider's. -/
def attachBillingUsage (responses estimated : Bool) (info : ClaudeResponseInfo) (usage : Usage) :
    Usage :=
  match usage.billingUsage with
  | some _ => usage
  | none =>
      { usage with
        billingUsage := providerBillingUsage responses estimated info
          (buildMessageDeltaPatchUsage usage) }

/-- `finalizeClaudeStreamUsage`. -/
def finalizeClaudeStreamUsage (responses : Bool) (estimate : Estimate)
    (info : ClaudeResponseInfo) : ClaudeResponseInfo :=
  if responses && info.responsesUsageFinalized then info
  else
    let (usage, estimated) := fillCounts responses estimate info
    let usage := { usage with usageSemantic := "anthropic" }
    let usage := attachBillingUsage responses estimated info usage
    { info with
      usage := { usage with totalTokens := usage.promptTokens + usage.completionTokens }
      responsesUsageFinalized := info.responsesUsageFinalized || responses }

/-- The usage that `ClaudeStreamHandler` returns for a stream that ends normally.  In the Responses
format the usage is finalized before and after the flush of the converter, and a stream without a
terminal event is an error.  `flushed` and `finished` are the texts delivered by the flush and by
the final events. -/
def claudeStreamHandler (format : RelayFormat) (estimate : Estimate) (flushed finished : String)
    (stream : List (StreamData J)) : Option Usage :=
  let info := Transition.run (handleStreamResponseData format) .start stream
  match format with
  | .claude | .openAI => some (finalizeClaudeStreamUsage false estimate info).usage
  | .openAIResponses =>
      if info.responsesTerminalSeen then
        let info := finalizeClaudeStreamUsage true estimate info
        let info := finalizeClaudeStreamUsage true estimate (deliver info flushed)
        some (deliver info finished).usage
      else none

/-- The variables that the bill of a response is computed at. -/
def tieredParams (claudeFormat : Bool) (usedVars : String → Bool) (usage : Usage) : TokenParams :=
  let billingUsage := effectiveBillingUsage usage
  buildTieredTokenParams billingUsage
    (decide (usageSemanticFromUsage claudeFormat billingUsage = "anthropic")) usedVars

end MaxApi.TieredBilling
