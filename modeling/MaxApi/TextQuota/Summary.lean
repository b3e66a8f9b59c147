import MaxApi.Dto.Usage
import MaxApi.TaskPricing.ChargeBound
import MaxApi.TextQuota.Surcharge

/-! # Text quotas: the charge of a usage

`calculateTextQuotaSummary`.  The cached, cache-creation, image and audio tokens of an OpenAI usage
are part of its prompt and are taken off it; a Claude usage, and one derived from it before usages
named their source, reports cached tokens besides the prompt; and an OpenRouter usage of Claude has
them in the prompt, where the number of cache-creation tokens may be derived from the cost. -/

namespace MaxApi.TextQuota

open Dto Int64Range

/-! ### Usages -/

/-- The cost that an upstream reports, a value of any type. -/
inductive Cost where
  | none
  | int (n : ℤ)
  | float (q : ℚ)
  | other
  deriving DecidableEq

/-- The number of a `float64`, and `0` for anything else. -/
def Cost.value : Cost → ℚ
  | .float q => q
  | _ => 0

/-- A usage and its cost. -/
structure BilledUsage extends UsageCounts where
  cost : Cost

def channelTypeOpenRouter : ℤ := 20

def relayFormatClaude : String := "claude"

section summary

variable (settings : Settings) (info : RelayInfo)

/-- Without a usage the estimated prompt is billed. -/
def effectiveUsage (usage : Option BilledUsage) : BilledUsage :=
  usage.getD { UsageCounts.empty with
    promptTokens := info.estimatePromptTokens
    totalTokens := info.estimatePromptTokens
    cost := .none }

def usageSemanticFromUsage (usage : BilledUsage) : String :=
  if usage.usageSemantic ≠ "" then usage.usageSemantic
  else if info.finalRequestRelayFormat = relayFormatClaude then "anthropic"
  else "openai"

def IsClaudeUsageSemantic (usage : BilledUsage) : Prop :=
  usageSemanticFromUsage info usage = "anthropic"

/-- `isLegacyClaudeDerivedOpenAIUsage`. -/
def IsLegacyClaudeDerivedOpenAIUsage (usage : BilledUsage) : Prop :=
  info.finalRequestRelayFormat ≠ relayFormatClaude ∧
    usage.usageSource = "" ∧ usage.usageSemantic = "" ∧
    (0 < usage.claudeCacheCreation5mTokens ∨ 0 < usage.claudeCacheCreation1hTokens)

/-- The cached tokens are not part of the prompt that is billed. -/
def IsClaude (usage : BilledUsage) : Prop :=
  IsClaudeUsageSemantic info usage ∨ IsLegacyClaudeDerivedOpenAIUsage info usage

instance (usage : BilledUsage) : Decidable (IsClaudeUsageSemantic info usage) :=
  instDecidableEqString _ _

instance (usage : BilledUsage) : Decidable (IsLegacyClaudeDerivedOpenAIUsage info usage) :=
  instDecidableAnd

instance (usage : BilledUsage) : Decidable (IsClaude info usage) := instDecidableOr

/-! ### OpenRouter -/

def IsOpenRouterClaudeBilling (usage : BilledUsage) : Prop :=
  info.channelType = some channelTypeOpenRouter ∧ IsClaudeUsageSemantic info usage

def hasCustomModelRatio : Bool :=
  match settings.defaultModelRatio info.originModelName with
  | none => true
  | some defaultRatio => decide (info.priceData.modelRatio ≠ defaultRatio)

/-- The number of cache-creation tokens is derived from the cost.  The cost is compared with the
integer `0`, which no number of a response is. -/
def DerivesCacheCreation (usage : BilledUsage) : Prop :=
  IsOpenRouterClaudeBilling info usage ∧
    usage.promptTokensDetails.cacheCreationTokensTotal = 0 ∧
    info.priceData.cacheCreationRatio ≠ 1 ∧ usage.cost ≠ .int 0 ∧
    ¬ (info.priceData.usePrice = true ∨ hasCustomModelRatio settings info = true)

instance (usage : BilledUsage) : Decidable (IsOpenRouterClaudeBilling info usage) :=
  instDecidableAnd

instance (usage : BilledUsage) : Decidable (DerivesCacheCreation settings info usage) :=
  instDecidableAnd

/-- `CalcOpenRouterCacheCreateTokens`. -/
def calcOpenRouterCacheCreateTokens (usage : BilledUsage) : ℤ :=
  if info.priceData.cacheCreationRatio = 1 then 0
  else
    let quotaPrice := info.priceData.modelRatio / settings.quotaPerUnit
    let promptCacheCreatePrice := quotaPrice * info.priceData.cacheCreationRatio
    let promptCacheReadPrice := quotaPrice * info.priceData.cacheRatio
    let completionPrice := quotaPrice * info.priceData.completionRatio
    TaskPricing.round ((usage.cost.value - usage.promptTokens * quotaPrice +
      usage.promptTokensDetails.cachedTokens * (quotaPrice - promptCacheReadPrice) -
      usage.completionTokens * completionPrice) / (promptCacheCreatePrice - quotaPrice))

/-- The prompt tokens besides the cached ones. -/
def uncachedTokens (usage : BilledUsage) : ℤ :=
  wrap (usage.promptTokens - usage.promptTokensDetails.cachedTokens)

/-- The cache-creation tokens that are billed. -/
def cacheCreationTokens (usage : BilledUsage) : ℤ :=
  let reported := usage.promptTokensDetails.cacheCreationTokensTotal
  if DerivesCacheCreation settings info usage then
    let maybe := calcOpenRouterCacheCreateTokens settings info usage
    if 0 ≤ maybe ∧ maybe ≤ uncachedTokens usage then maybe else reported
  else reported

/-- The prompt tokens of the summary. -/
def promptTokens (usage : BilledUsage) : ℤ :=
  if IsOpenRouterClaudeBilling info usage then
    wrap (uncachedTokens usage - cacheCreationTokens settings info usage)
  else usage.promptTokens

/-- `TotalTokens` of the summary. -/
def totalTokens (usage : BilledUsage) : ℤ := wrap (usage.promptTokens + usage.completionTokens)

/-! ### Charges -/

/-- `GetGeminiInputAudioPricePerMillionTokens`. -/
def getGeminiInputAudioPricePerMillionTokens (modelName : String) : ℚ :=
  if Text.hasPrefix modelName "gemini-2.5-flash-preview-native-audio" then 3
  else if Text.hasPrefix modelName "gemini-2.5-flash-preview-lite" then 1 / 2
  else if Text.hasPrefix modelName "gemini-2.5-flash-preview" then 1
  else if Text.hasPrefix modelName "gemini-2.5-flash" then 1
  else if Text.hasPrefix modelName "gemini-2.0-flash" then 7 / 10
  else if Text.hasPrefix modelName "gemini-robotics-er-1.5" then 1
  else 0

def audioInputPrice : ℚ := getGeminiInputAudioPricePerMillionTokens info.originModelName

/-- The audio tokens that have a price of their own. -/
def pricedAudioTokens (usage : BilledUsage) : ℤ :=
  if 0 < audioInputPrice info then usage.promptTokensDetails.audioTokens else 0

/-- The prompt tokens without those of another price. -/
def baseTokens (usage : BilledUsage) : ℤ :=
  let base := promptTokens settings info usage
  let base :=
    if IsClaude info usage then base
    else base - usage.promptTokensDetails.cachedTokens - cacheCreationTokens settings info usage
  let base := base - usage.promptTokensDetails.imageTokens - pricedAudioTokens info usage
  if base < 0 then 0 else base

/-- The cache-creation tokens besides those of five minutes and of one hour. -/
def remainingCreationTokens (usage : BilledUsage) : ℤ :=
  let remaining := wrap (wrap (cacheCreationTokens settings info usage -
    usage.claudeCacheCreation5mTokens) - usage.claudeCacheCreation1hTokens)
  if remaining < 0 then 0 else remaining

def cachedCreationTokensWithRatio (usage : BilledUsage) : ℚ :=
  if cacheCreationTokens settings info usage ≠ 0 ∨ 0 < usage.claudeCacheCreation5mTokens ∨
      0 < usage.claudeCacheCreation1hTokens then
    if IsClaude info usage then
      remainingCreationTokens settings info usage * info.priceData.cacheCreationRatio +
        usage.claudeCacheCreation5mTokens * info.priceData.cacheCreation5mRatio +
        usage.claudeCacheCreation1hTokens * info.priceData.cacheCreation1hRatio
    else cacheCreationTokens settings info usage * info.priceData.cacheCreationRatio
  else 0

/-- `dModelRatio.Mul(dGroupRatio)`. -/
def ratio : ℚ := info.priceData.modelRatio * info.priceData.groupRatio

def audioInputQuota (usage : BilledUsage) : ℚ :=
  decimalDiv (audioInputPrice info) 1000000 * pricedAudioTokens info usage *
    info.priceData.groupRatio * settings.quotaPerUnit

/-- The charge of the tokens, before the tool calls are added. -/
def tokenQuota (usage : BilledUsage) : ℚ :=
  let promptQuota := baseTokens settings info usage +
    usage.promptTokensDetails.cachedTokens * info.priceData.cacheRatio +
    usage.promptTokensDetails.imageTokens * info.priceData.imageRatio +
    cachedCreationTokensWithRatio settings info usage
  let completionQuota := usage.completionTokens * info.priceData.completionRatio
  ((promptQuota + completionQuota) * ratio info + audioInputQuota settings info usage) *
    info.priceData.otherRatios.prod

/-- The charge before it is rounded. -/
def unroundedQuota (usage : BilledUsage) (calls : ToolCalls) : ℚ :=
  (if info.priceData.usePrice then
      info.priceData.modelPrice * settings.quotaPerUnit * info.priceData.groupRatio *
        info.priceData.otherRatios.prod
    else tokenQuota settings info usage) +
  calculateTextToolCallSurcharge settings info calls

/-- `hasBillableUsage`. -/
def HasBillableUsage (usage : BilledUsage) (calls : ToolCalls) : Prop :=
  0 < totalTokens usage ∨
    calculateTextToolCallSurcharge settings info calls ≠ 0 ∨
    (info.alphaSearch = true ∧ info.priceData.usePrice = true ∧ 0 < info.priceData.modelPrice)

instance (usage : BilledUsage) (calls : ToolCalls) :
    Decidable (HasBillableUsage settings info usage calls) := instDecidableOr

/-- Without a fixed price a charge at a ratio is at least one. -/
def raisedQuota (quota : ℚ) : ℚ :=
  if info.priceData.usePrice then quota
  else if ratio info ≠ 0 ∧ quota ≤ 0 then 1 else quota

/-- The end of `calculateTextQuotaSummary`: a charge is rounded, and a usage that is billed at a
ratio costs at least one. -/
def finalQuota (billable : Prop) [Decidable billable] (quota : ℚ) : ℤ :=
  let quota := TaskPricing.quotaRound (raisedQuota info quota)
  if ¬ billable then 0
  else if ratio info ≠ 0 ∧ quota = 0 then 1
  else quota

/-- `Quota` of `calculateTextQuotaSummary`. -/
def calculateTextQuota (usage : Option BilledUsage) (calls : ToolCalls) : ℤ :=
  let usage := effectiveUsage info usage
  finalQuota info (HasBillableUsage settings info usage calls)
    (unroundedQuota settings info usage calls)

end summary

end MaxApi.TextQuota
