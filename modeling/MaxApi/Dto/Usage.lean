import MaxApi.Lib.Text
import Mathlib.Data.List.Basic

/-! # Token usage

The usage objects of the three kinds of providers, and the usage that the relay counts with.  The
field `BillingUsage` of a usage that is itself inside a `BillingUsage` is dropped when it is cloned;
the model has no such field. -/

namespace MaxApi.Dto

/-! ### Claude -/

structure ClaudeCacheCreationUsage where
  ephemeral5mInputTokens : ℤ
  ephemeral1hInputTokens : ℤ
  deriving DecidableEq

structure ClaudeUsage where
  inputTokens : ℤ
  cacheCreationInputTokens : ℤ
  cacheReadInputTokens : ℤ
  outputTokens : ℤ
  cacheCreation : Option ClaudeCacheCreationUsage
  claudeCacheCreation5mTokens : ℤ
  claudeCacheCreation1hTokens : ℤ
  deriving DecidableEq

/-- `&dto.ClaudeUsage{}`. -/
def ClaudeUsage.empty : ClaudeUsage := ⟨0, 0, 0, 0, none, 0, 0⟩

def ClaudeUsage.getCacheCreation5mTokens (u : ClaudeUsage) : ℤ :=
  match u.cacheCreation with
  | none => 0
  | some split => split.ephemeral5mInputTokens

def ClaudeUsage.getCacheCreation1hTokens (u : ClaudeUsage) : ℤ :=
  match u.cacheCreation with
  | none => 0
  | some split => split.ephemeral1hInputTokens

/-- `HasClaudeUsageTokens`. -/
def hasClaudeUsageTokens (u : ClaudeUsage) : Bool :=
  if u.inputTokens ≠ 0 ∨ u.outputTokens ≠ 0 ∨ u.cacheCreationInputTokens ≠ 0 ∨
      u.cacheReadInputTokens ≠ 0 ∨ u.claudeCacheCreation5mTokens ≠ 0 ∨
      u.claudeCacheCreation1hTokens ≠ 0 then true
  else
    match u.cacheCreation with
    | none => false
    | some split => decide (split.ephemeral5mInputTokens ≠ 0 ∨ split.ephemeral1hInputTokens ≠ 0)

/-- `NormalizeCacheCreationSplit`: the tokens without a lifetime count as 5 minutes. -/
def normalizeCacheCreationSplit (totalTokens tokens5m tokens1h : ℤ) : ℤ × ℤ :=
  let remainder := max (totalTokens - tokens5m - tokens1h) 0
  (tokens5m + remainder, tokens1h)

/-! ### Gemini -/

structure GeminiPromptTokensDetails where
  modality : String
  tokenCount : ℤ
  deriving DecidableEq

structure GeminiUsageMetadata where
  promptTokenCount : ℤ
  toolUsePromptTokenCount : ℤ
  candidatesTokenCount : ℤ
  totalTokenCount : ℤ
  thoughtsTokenCount : ℤ
  cachedContentTokenCount : ℤ
  promptTokensDetails : List GeminiPromptTokensDetails
  toolUsePromptTokensDetails : List GeminiPromptTokensDetails
  candidatesTokensDetails : List GeminiPromptTokensDetails
  deriving DecidableEq

/-! ### OpenAI -/

structure InputTokenDetails where
  cachedTokens : ℤ
  cachedCreationTokens : ℤ
  cacheWriteTokens : ℤ
  textTokens : ℤ
  audioTokens : ℤ
  imageTokens : ℤ
  deriving DecidableEq

def InputTokenDetails.empty : InputTokenDetails := ⟨0, 0, 0, 0, 0, 0⟩

/-- `CacheCreationTokensTotal`. -/
def InputTokenDetails.cacheCreationTokensTotal (d : InputTokenDetails) : ℤ :=
  let total :=
    if d.cachedCreationTokens < d.cacheWriteTokens then d.cacheWriteTokens
    else d.cachedCreationTokens
  if total < 0 then 0 else total

/-- A count is copied where there is none. -/
def fillCount (dst src : ℤ) : ℤ := if dst = 0 then src else dst

/-- `CopyInputTokenDetails`, without overwriting. -/
def copyInputTokenDetails (dst : InputTokenDetails) : Option InputTokenDetails → InputTokenDetails
  | none => dst
  | some src =>
      { cachedTokens := fillCount dst.cachedTokens src.cachedTokens
        cachedCreationTokens := fillCount dst.cachedCreationTokens src.cachedCreationTokens
        cacheWriteTokens := fillCount dst.cacheWriteTokens src.cacheWriteTokens
        textTokens := fillCount dst.textTokens src.textTokens
        audioTokens := fillCount dst.audioTokens src.audioTokens
        imageTokens := fillCount dst.imageTokens src.imageTokens }

structure OutputTokenDetails where
  textTokens : ℤ
  audioTokens : ℤ
  imageTokens : ℤ
  reasoningTokens : ℤ
  deriving DecidableEq

def OutputTokenDetails.empty : OutputTokenDetails := ⟨0, 0, 0, 0⟩

/-- `CopyOutputTokenDetails`, without overwriting. -/
def copyOutputTokenDetails (dst : OutputTokenDetails) :
    Option OutputTokenDetails → OutputTokenDetails
  | none => dst
  | some src =>
      { textTokens := fillCount dst.textTokens src.textTokens
        audioTokens := fillCount dst.audioTokens src.audioTokens
        imageTokens := fillCount dst.imageTokens src.imageTokens
        reasoningTokens := fillCount dst.reasoningTokens src.reasoningTokens }

/-- `Usage`, but for its billing usage. -/
structure UsageCounts where
  promptTokens : ℤ
  completionTokens : ℤ
  totalTokens : ℤ
  promptCacheHitTokens : ℤ
  usageSemantic : String
  usageSource : String
  promptTokensDetails : InputTokenDetails
  completionTokenDetails : OutputTokenDetails
  outputTokensDetails : Option OutputTokenDetails
  inputTokens : ℤ
  outputTokens : ℤ
  inputTokensDetails : Option InputTokenDetails
  claudeCacheCreation5mTokens : ℤ
  claudeCacheCreation1hTokens : ℤ
  deriving DecidableEq

def UsageCounts.empty : UsageCounts :=
  ⟨0, 0, 0, 0, "", "", .empty, .empty, none, 0, 0, none, 0, 0⟩

/-! ### Billing usage -/

def BillingUsageSourceClaudeMessages : String := "claude_messages"
def BillingUsageSourceGeminiChat : String := "gemini_chat"
def BillingUsageSourceOAIChat : String := "oai_chat"
def BillingUsageSourceOAIResponses : String := "oai_responses"

def BillingUsageSemanticAnthropic : String := "anthropic"
def BillingUsageSemanticGemini : String := "gemini"
def BillingUsageSemanticOpenAI : String := "openai"

/-- The usage as the provider reported it. -/
structure BillingUsage where
  source : String
  semantic : String
  estimated : Bool
  tokenCountsReported : Bool
  openAIUsage : Option UsageCounts
  claudeUsage : Option ClaudeUsage
  geminiUsageMetadata : Option GeminiUsageMetadata
  deriving DecidableEq

structure Usage extends UsageCounts where
  billingUsage : Option BillingUsage
  deriving DecidableEq

/-- `&dto.Usage{}`. -/
def Usage.empty : Usage := { UsageCounts.empty with billingUsage := none }

/-- `NewClaudeMessagesBillingUsage`. -/
def newClaudeMessagesBillingUsage (u : ClaudeUsage) : Option BillingUsage :=
  if hasClaudeUsageTokens u then
    some ⟨BillingUsageSourceClaudeMessages, BillingUsageSemanticAnthropic, false, false,
      none, some u, none⟩
  else none

end MaxApi.Dto
