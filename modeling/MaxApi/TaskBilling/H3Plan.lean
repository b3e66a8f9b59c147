import MaxApi.TaskBilling.UsageContract
import MaxApi.TaskPricing.Plan
import MaxApi.Lib.Dict
import MaxApi.TopUp.Store

/-! # H3 billing plans

A plan freezes the prices of a video task when the task is submitted: the components with their
unit prices, the quantities the request asks for and the quantities that are reserved for it.  A
quote prices quantities under a plan.  The estimate and the reservation are quotes of the request,
the final price is the quote of what the provider reports.  Prices and quotas before rounding are
exact rationals. -/

namespace MaxApi.TaskBilling

open Checked TopUps
open TaskPricing (TaskBillingPlan TaskBillingPlanComponent)

/-! ### Configurations -/

/-- A price list; the two maps give a price for each resolution. -/
structure H3BillingConfig where
  schemaVersion : ℤ
  mode : String
  currency : String
  outputUnitPrice : Dict String
  inputVideoUnitPrice : Dict String
  inputVideoMaxSeconds : ℤ
  inputImageFreeCount : ℤ
  inputImageExtraUnitPrice : String
  inputAudioUnitPrice : String

/-- The facts of a request. -/
structure H3BillingInput where
  resolution : String
  outputDurationSeconds : ℤ
  inputVideoCount : ℤ
  inputAudioCount : ℤ
  inputImageCount : ℤ

/-- What the package takes from elsewhere. -/
structure Host where
  /-- `decimal.NewFromString`. -/
  newFromString : String → Option ℚ
  /-- The hash of a text, in hexadecimal. -/
  sha256Hex : String → String
  /-- The text that a price list is marshalled to. -/
  marshal : H3BillingConfig → String
  /-- `common.QuotaPerUnit`. -/
  quotaPerUnit : ℚ

/-- A quota that does not fit 32 bits, before and after it is clamped. -/
structure QuotaClamp where
  op : String
  original : ℤ
  clamped : ℤ
  deriving DecidableEq

inductive H3Error where
  | message (text : String)
  | quotaClamp (clamp : QuotaClamp)
  deriving DecidableEq

def h3BillingSource : String := "minimax"

def legacyH3BillingSource : String := "minimax_hailuo"

/-- `TaskBillingPlanModeBoundedActual`. -/
def h3BillingMode : String := "bounded_actual"

def h3MinOutputDurationSeconds : ℤ := 4

def h3MaxOutputDurationSeconds : ℤ := 15

def h3MaxInputMediaDurationSeconds : ℤ := 15

def h3MaxInputVideoCount : ℤ := 3

def h3MaxInputAudioCount : ℤ := 3

def h3MaxInputImageCount : ℤ := 9

def nonNegativePrice (host : Host) (value : String) : Except String ℚ := do
  require (Text.trimSpace value ≠ "") "price cannot be empty"
  let price ← orThrow (host.newFromString (Text.trimSpace value)) "price must be a decimal string"
  require (0 ≤ price) "price cannot be negative"
  pure price

/-- `fmt.Errorf` with a prefix before the error of `x`. -/
def prefixed {α : Type} (text : String) (x : Except String α) : Except H3Error α :=
  x.mapError fun e => .message (text ++ e)

/-- The check that `prices` has a price for one resolution. -/
def validateResolutionPrice (host : Host) (key field : String) (prices : Dict String)
    (resolution : String) : Except H3Error Unit := do
  let price ← orThrow (prices.lookup resolution) (.message
    ("H3 billing profile " ++ key ++ " " ++ field ++ " must define " ++ resolution))
  let _ ← prefixed ("H3 billing profile " ++ key ++ " " ++ field ++ "[" ++ resolution ++ "]: ")
    (nonNegativePrice host price)
  pure ()

def validateResolutionPrices (host : Host) (key field : String) (prices : Dict String) :
    Except H3Error Unit := do
  validateResolutionPrice host key field prices "768P"
  validateResolutionPrice host key field prices "2K"

def validateH3BillingConfig (host : Host) (key : String) (profile : H3BillingConfig) :
    Except H3Error Unit := do
  require (¬ Text.isBlank key) (.message "H3 billing profile key cannot be empty")
  require (profile.schemaVersion = 1)
    (.message ("H3 billing profile " ++ key ++ " has unsupported schema_version"))
  require (profile.mode = h3BillingMode)
    (.message ("H3 billing profile " ++ key ++ " has unsupported mode"))
  require (¬ Text.isBlank profile.currency)
    (.message ("H3 billing profile " ++ key ++ " currency cannot be empty"))
  require (0 < profile.inputVideoMaxSeconds ∧
      profile.inputVideoMaxSeconds ≤ h3MaxInputMediaDurationSeconds)
    (.message ("H3 billing profile " ++ key ++ " input_video_max_seconds must be between 1 and " ++
      toString h3MaxInputMediaDurationSeconds))
  require (0 ≤ profile.inputImageFreeCount ∧ profile.inputImageFreeCount ≤ h3MaxInputImageCount)
    (.message ("H3 billing profile " ++ key ++ " input_image_free_count must be between 0 and " ++
      toString h3MaxInputImageCount))
  validateResolutionPrices host key "output_unit_price" profile.outputUnitPrice
  validateResolutionPrices host key "input_video_unit_price" profile.inputVideoUnitPrice
  let _ ← prefixed ("H3 billing profile " ++ key ++ " input_image_extra_unit_price: ")
    (nonNegativePrice host profile.inputImageExtraUnitPrice)
  let audioPrice ← prefixed ("H3 billing profile " ++ key ++ " input_audio_unit_price: ")
    (nonNegativePrice host profile.inputAudioUnitPrice)
  require (audioPrice = 0) (.message ("H3 billing profile " ++ key ++
    " input_audio_unit_price must be zero in schema version 1"))

def hashH3BillingConfig (host : Host) (config : H3BillingConfig) : String :=
  "sha256:" ++ host.sha256Hex (host.marshal config)

/-! ### Plans -/

def componentKeys : List String := ["output_video", "input_video", "input_image", "input_audio"]

/-- The first component under a key. -/
def planComponent (plan : TaskBillingPlan) (key : String) : Option TaskBillingPlanComponent :=
  plan.components.find? fun component => component.key = key

/-- The loop of `validateH3BillingPlan` over the components, after the keys in `seen`. -/
def validateComponents (host : Host) (plan : TaskBillingPlan) :
    List String → List TaskBillingPlanComponent → Except H3Error (List String)
  | seen, [] => .ok seen
  | seen, component :: components => do
      require (component.key ∈ componentKeys)
        (.message ("H3 billing plan has unsupported component " ++ component.key))
      require (component.key ∉ seen)
        (.message ("H3 billing plan has duplicate component " ++ component.key))
      let invalid : H3Error :=
        .message ("H3 billing plan component " ++ component.key ++ " is invalid")
      let _ ← (nonNegativePrice host component.unitPrice).mapError fun _ => invalid
      require (0 ≤ component.requestedQuantity ∧ 0 ≤ component.reservedQuantity ∧
        0 ≤ component.freeQuantity) invalid
      require (component.key = "output_video" →
          component.requestedQuantity = plan.requestedOutputDurationSeconds ∧
            component.requestedQuantity ≤ component.reservedQuantity)
        (.message "H3 output component does not match the request snapshot")
      require (component.key = "input_image" →
          component.requestedQuantity = plan.inputImageCount ∧
            component.requestedQuantity ≤ component.reservedQuantity)
        (.message "H3 image component does not match the request snapshot")
      require (component.key = "input_video" →
          component.requestedQuantity ≤ component.reservedQuantity ∧
            component.reservedQuantity ≤ h3MaxInputMediaDurationSeconds)
        (.message "H3 input video component reservation is invalid")
      validateComponents host plan (component.key :: seen) components

/-- The number of the fields of the contract identity that are set. -/
def usageIdentityFields (plan : TaskBillingPlan) : ℕ :=
  (if plan.usageProducerKind ≠ "" then 1 else 0) + (if plan.usageSourceID ≠ "" then 1 else 0) +
    (if plan.usageSchemaVersion ≠ 0 then 1 else 0) +
    (if plan.usageContractDigest ≠ "" then 1 else 0)

/-- The check of the contract identity in `validateH3BillingPlan`. -/
def validateUsageIdentity (host : Host) (plan : TaskBillingPlan) : Except H3Error Unit := do
  require (plan.source = h3BillingSource → usageIdentityFields plan = 4)
    (.message "H3 billing plan usage contract identity is required")
  if usageIdentityFields plan = 0 then pure ()
  else do
    require (usageIdentityFields plan = 4)
      (.message "H3 billing plan usage contract identity is incomplete")
    require (plan.usageProducerKind = "go_adapter" ∧ plan.usageSourceID = sourceIDMiniMax)
      (.message "H3 billing plan usage contract identity is invalid")
    let _ ← prefixed "H3 billing plan usage contract identity is invalid: "
      (resolveContract host.sha256Hex plan.usageSourceID plan.usageSchemaVersion
        plan.usageContractDigest)
    pure ()

def validateH3BillingPlan (host : Host) (plan : TaskBillingPlan) : Except H3Error Unit := do
  require (plan.source = h3BillingSource ∨ plan.source = legacyH3BillingSource)
    (.message "H3 billing plan source is invalid")
  require (¬ Text.isBlank plan.ruleKey) (.message "H3 billing plan rule key is invalid")
  require (plan.schemaVersion = 1) (.message "H3 billing plan schema version is invalid")
  require (plan.mode = h3BillingMode) (.message "H3 billing plan mode is invalid")
  require (¬ Text.isBlank plan.configHash) (.message "H3 billing plan config hash is invalid")
  validateUsageIdentity host plan
  require (0 ≤ plan.groupRatio) (.message "H3 billing plan group ratio is invalid")
  require (0 < plan.quotaPerUnit) (.message "H3 billing plan quota per unit is invalid")
  require (plan.resolution = "768P" ∨ plan.resolution = "2K")
    (.message "H3 billing plan resolution is invalid")
  require (h3MinOutputDurationSeconds ≤ plan.requestedOutputDurationSeconds ∧
      plan.requestedOutputDurationSeconds ≤ h3MaxOutputDurationSeconds)
    (.message "H3 billing plan requested output duration is invalid")
  require (0 ≤ plan.inputVideoCount) (.message "H3 billing plan input video count is invalid")
  require (0 ≤ plan.inputAudioCount) (.message "H3 billing plan input audio count is invalid")
  require (0 ≤ plan.inputImageCount) (.message "H3 billing plan input image count is invalid")
  let seen ← validateComponents host plan [] plan.components
  let missing (key : String) : H3Error :=
    .message ("H3 billing plan is missing component " ++ key)
  require ("output_video" ∈ seen) (missing "output_video")
  require ("input_video" ∈ seen) (missing "input_video")
  require ("input_image" ∈ seen) (missing "input_image")
  require ("input_audio" ∈ seen) (missing "input_audio")

/-! ### Quotes -/

inductive Stage where
  | estimate
  | reserve
  | final
  deriving DecidableEq

structure H3BillingQuoteComponent where
  key : String
  unit : String
  quantity : ℤ
  quantityDecimal : ℚ
  unitPrice : ℚ
  price : ℚ
  deriving DecidableEq

structure H3BillingQuote where
  stage : Stage
  price : ℚ
  quota : ℤ
  outputSeconds : ℤ
  inputVideoSeconds : ℤ
  inputAudioSeconds : ℤ
  outputDurationMs : ℤ
  inputVideoDurationMs : ℤ
  inputAudioDurationMs : ℤ
  inputImageCount : ℤ
  components : List H3BillingQuoteComponent
  deriving DecidableEq

/-- Quantities to be priced. -/
structure Quantities where
  outputMs : ℤ
  videoMs : ℤ
  audioMs : ℤ
  imageCount : ℤ
  deriving DecidableEq

def planComponentPrice (host : Host) (plan : TaskBillingPlan) (key : String) :
    Except H3Error ℚ :=
  match planComponent plan key with
  | some component => prefixed "" (nonNegativePrice host component.unitPrice)
  | none => .error (.message ("H3 billing plan is missing component " ++ key))

def planComponentFreeQuantity (plan : TaskBillingPlan) (key : String) : ℤ :=
  ((planComponent plan key).map (·.freeQuantity)).getD 0

/-- The error of `QuotaFromDecimalStrict` for a quota that does not fit. -/
def clampOf (quota : ℤ) : H3Error :=
  .quotaClamp ⟨"QuotaFromDecimal", quota, if maxQuota < quota then maxQuota else minQuota⟩

def quoteH3PlanMilliseconds (host : Host) (plan : TaskBillingPlan) (stage : Stage)
    (m : Quantities) : Except H3Error H3BillingQuote := do
  validateH3BillingPlan host plan
  require (0 ≤ m.outputMs ∧ 0 ≤ m.videoMs ∧ 0 ≤ m.audioMs ∧ 0 ≤ m.imageCount)
    (.message "H3 billing quantities cannot be negative")
  let outputPrice ← planComponentPrice host plan "output_video"
  let videoPrice ← planComponentPrice host plan "input_video"
  let audioPrice ← planComponentPrice host plan "input_audio"
  let imagePrice ← planComponentPrice host plan "input_image"
  let imageFree := planComponentFreeQuantity plan "input_image"
  let imageBillable := if m.imageCount - imageFree < 0 then 0 else m.imageCount - imageFree
  let outputQuantity : ℚ := m.outputMs / 1000
  let videoQuantity : ℚ := m.videoMs / 1000
  let audioQuantity : ℚ := m.audioMs / 1000
  let price := outputQuantity * outputPrice + videoQuantity * videoPrice +
    audioQuantity * audioPrice + imageBillable * imagePrice
  let quotaDecimal := price * plan.quotaPerUnit * plan.groupRatio
  let quota ← orThrow (quotaFromDecimalStrict quotaDecimal) (clampOf (roundDecimal quotaDecimal))
  pure
    { stage := stage
      price := price
      quota := quota
      outputSeconds := m.outputMs / 1000
      inputVideoSeconds := m.videoMs / 1000
      inputAudioSeconds := m.audioMs / 1000
      outputDurationMs := m.outputMs
      inputVideoDurationMs := m.videoMs
      inputAudioDurationMs := m.audioMs
      inputImageCount := m.imageCount
      components :=
        [⟨"output_video", "second", m.outputMs / 1000, outputQuantity, outputPrice,
            outputQuantity * outputPrice⟩,
          ⟨"input_video", "second", m.videoMs / 1000, videoQuantity, videoPrice,
            videoQuantity * videoPrice⟩,
          ⟨"input_audio", "second", m.audioMs / 1000, audioQuantity, audioPrice,
            audioQuantity * audioPrice⟩,
          ⟨"input_image", "image", imageBillable, imageBillable, imagePrice,
            imageBillable * imagePrice⟩] }

/-- `math.MaxInt64 / 1000`. -/
def maxSeconds : ℤ := (2 ^ 63 - 1) / 1000

def quoteH3Plan (host : Host) (plan : TaskBillingPlan) (stage : Stage)
    (outputSeconds videoSeconds audioSeconds imageCount : ℤ) : Except H3Error H3BillingQuote := do
  require (outputSeconds ≤ maxSeconds ∧ videoSeconds ≤ maxSeconds ∧ audioSeconds ≤ maxSeconds)
    (.message "H3 billing quantities are out of range")
  quoteH3PlanMilliseconds host plan stage
    ⟨outputSeconds * 1000, videoSeconds * 1000, audioSeconds * 1000, imageCount⟩

/-- The plan of a request before its totals are quoted. -/
def h3BillingPlan (host : Host) (profile : H3BillingConfig) (input : H3BillingInput)
    (groupRatio : ℚ) (source ruleKey resolution contractDigest : String) (videoReserve : ℤ) :
    TaskBillingPlan where
  profile := ""
  expressionPlan := none
  source := source
  ruleKey := ruleKey
  schemaVersion := profile.schemaVersion
  mode := profile.mode
  configHash := hashH3BillingConfig host profile
  currency := profile.currency
  groupRatio := groupRatio
  quotaPerUnit := host.quotaPerUnit
  resolution := resolution
  usageProducerKind := "go_adapter"
  usageSourceID := miniMaxH3Contract.sourceID
  usageSchemaVersion := miniMaxH3Contract.schemaVersion
  usageContractDigest := contractDigest
  requestedOutputDurationSeconds := input.outputDurationSeconds
  inputVideoCount := input.inputVideoCount
  inputAudioCount := input.inputAudioCount
  inputImageCount := input.inputImageCount
  components :=
    [⟨"output_video", "second", (profile.outputUnitPrice.lookup resolution).getD "",
        input.outputDurationSeconds, input.outputDurationSeconds, 0⟩,
      ⟨"input_video", "second", (profile.inputVideoUnitPrice.lookup resolution).getD "", 0,
        videoReserve, 0⟩,
      ⟨"input_image", "image", profile.inputImageExtraUnitPrice, input.inputImageCount,
        input.inputImageCount, profile.inputImageFreeCount⟩,
      ⟨"input_audio", "second", profile.inputAudioUnitPrice, 0, 0, 0⟩]
  estimateQuota := 0
  reserveQuota := 0

/-- A plan with other totals. -/
def withTotals (plan : TaskBillingPlan) (estimate reserve : ℤ) : TaskBillingPlan :=
  { plan with estimateQuota := estimate, reserveQuota := reserve }

def buildH3BillingPlan (host : Host) (profile : H3BillingConfig) (input : H3BillingInput)
    (groupRatio : ℚ) (source ruleKey : String) : Except H3Error TaskBillingPlan := do
  validateH3BillingConfig host ruleKey profile
  let resolution := Text.toUpper (Text.trimSpace input.resolution)
  require (resolution = "768P" ∨ resolution = "2K")
    (.message ("unsupported H3 resolution \"" ++ input.resolution ++ "\""))
  require (h3MinOutputDurationSeconds ≤ input.outputDurationSeconds ∧
      input.outputDurationSeconds ≤ h3MaxOutputDurationSeconds ∧
      0 ≤ input.inputVideoCount ∧ input.inputVideoCount ≤ h3MaxInputVideoCount ∧
      0 ≤ input.inputAudioCount ∧ input.inputAudioCount ≤ h3MaxInputAudioCount ∧
      0 ≤ input.inputImageCount ∧ input.inputImageCount ≤ h3MaxInputImageCount)
    (.message "H3 billing request facts are invalid")
  require (0 ≤ groupRatio) (.message "H3 group ratio must be finite and non-negative")
  require (0 < host.quotaPerUnit) (.message "H3 quota per unit must be finite and positive")
  let digest ← prefixed "build H3 usage contract digest: "
    (contractDigest host.sha256Hex miniMaxH3Contract)
  let videoReserve := if 0 < input.inputVideoCount then profile.inputVideoMaxSeconds else 0
  let plan := h3BillingPlan host profile input groupRatio source ruleKey resolution digest
    videoReserve
  let estimate ← quoteH3Plan host plan .estimate input.outputDurationSeconds 0 0
    input.inputImageCount
  let reserve ← quoteH3Plan host plan .reserve input.outputDurationSeconds videoReserve 0
    input.inputImageCount
  pure (withTotals plan estimate.quota reserve.quota)

def quoteH3Estimate (host : Host) (plan : TaskBillingPlan) : Except H3Error H3BillingQuote :=
  quoteH3Plan host plan .estimate plan.requestedOutputDurationSeconds 0 0 plan.inputImageCount

/-- The reserved seconds of the component `input_video`. -/
def reservedVideoSeconds (plan : TaskBillingPlan) : ℤ :=
  ((planComponent plan "input_video").map (·.reservedQuantity)).getD 0

def quoteH3Reserve (host : Host) (plan : TaskBillingPlan) : Except H3Error H3BillingQuote :=
  quoteH3Plan host plan .reserve plan.requestedOutputDurationSeconds
    (if 0 < plan.inputVideoCount then reservedVideoSeconds plan else 0) 0 plan.inputImageCount

def validateH3BillingPlanSnapshot (host : Host) (plan : TaskBillingPlan) :
    Except H3Error Unit := do
  let estimate ← quoteH3Estimate host plan
  let reserve ← quoteH3Reserve host plan
  require (estimate.quota = plan.estimateQuota ∧ reserve.quota = plan.reserveQuota)
    (.message "H3 billing plan frozen totals do not match its component snapshot")
  require (estimate.quota ≤ reserve.quota)
    (.message "H3 billing plan reservation is below its estimate")

/-! ### The final quote -/

/-- What a provider reports. -/
structure TaskUsage where
  outputDurationMs : Option ℤ
  inputVideoDurationMs : Option ℤ
  inputAudioDurationMs : Option ℤ
  inputImageCount : Option ℤ
  completeness : String
  deriving DecidableEq

def usageMilliseconds (value : Option ℤ) (field : String) (required : Prop) [Decidable required]
    (minimum maximum : ℤ) : Except H3Error ℤ :=
  match value with
  | none => do
      require (¬ required) (.message ("H3 " ++ field ++ " is missing"))
      pure 0
  | some value => do
      require (0 ≤ value)
        (.message ("H3 " ++ field ++ " must be a non-negative millisecond value"))
      require (minimum * 1000 ≤ value ∧ value ≤ maximum * 1000)
        (.message ("H3 " ++ field ++ " is outside the allowed range"))
      pure value

/-- The checks of `QuoteH3Final` on a usage, and the quantities that it reports. -/
def usageQuantities (plan : TaskBillingPlan) (usage : TaskUsage) : Except H3Error Quantities := do
  require (usage.completeness = "complete")
    (.message ("H3 usage is not automatically billable: " ++ usage.completeness))
  let outputMs ← usageMilliseconds usage.outputDurationMs "output_duration_ms" True
    h3MinOutputDurationSeconds h3MaxOutputDurationSeconds
  require (outputMs ≤ plan.requestedOutputDurationSeconds * 1000)
    (.message "H3 output usage exceeds the requested duration")
  let videoMs ← usageMilliseconds usage.inputVideoDurationMs "input_video_duration_ms"
    (0 < plan.inputVideoCount) 0 h3MaxInputMediaDurationSeconds
  require (videoMs ≤ reservedVideoSeconds plan * 1000)
    (.message "H3 input video usage exceeds the reserved maximum")
  require (¬ (plan.inputVideoCount = 0 ∧ 0 < videoMs))
    (.message "H3 provider reported input video usage without a request video")
  let audioMs ← usageMilliseconds usage.inputAudioDurationMs "input_audio_duration_ms"
    (0 < plan.inputAudioCount) 0 h3MaxInputMediaDurationSeconds
  require (¬ (plan.inputAudioCount = 0 ∧ 0 < audioMs))
    (.message "H3 provider reported input audio usage without a request audio")
  let imageCount ← orThrow usage.inputImageCount (.message "H3 input_image_count is missing")
  require (0 ≤ imageCount) (.message "H3 input_image_count cannot be negative")
  require (imageCount = plan.inputImageCount)
    (.message "H3 input_image_count does not match the request snapshot")
  pure ⟨outputMs, videoMs, audioMs, imageCount⟩

def quoteH3Final (host : Host) (plan : TaskBillingPlan) (usage : TaskUsage) :
    Except H3Error H3BillingQuote := do
  validateH3BillingPlan host plan
  let m ← usageQuantities plan usage
  let quote ← quoteH3PlanMilliseconds host plan .final m
  require (quote.quota ≤ plan.reserveQuota) (.message "H3 final quota exceeds reserved quota")
  pure quote

end MaxApi.TaskBilling
