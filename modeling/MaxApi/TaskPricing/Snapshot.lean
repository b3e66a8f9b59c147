import MaxApi.TaskPricing.Exposure
import MaxApi.TaskPricing.Plan

/-! # Frozen task plans

A task expression is selected, quoted and frozen into a plan before the provider is called.  The
plan alone, and the provider's final evidence, decide what the task is charged. -/

namespace MaxApi.TaskPricing

open Checked

/-! ### Selection -/

/-- Who executes the task. -/
structure Source where
  driver : String
  pluginKey : String
  deriving DecidableEq, Repr

def Source.validate (s : Source) : Except String Unit :=
  require ((s.driver = "go_adapter" ∧ s.pluginKey = "") ∨
      (s.driver = "task_plugin" ∧ s.pluginKey ≠ "" ∧ Text.trimSpace s.pluginKey = s.pluginKey ∧
        ¬ "::".toList <:+: s.pluginKey.toList))
    "invalid actual task pricing source"

/-- The configured prices. -/
structure TaskPricingMaps where
  billingMode : Dict String
  billingExpr : Dict String
  pluginBillingExpr : Dict String

structure Selection where
  expression : String
  model : String
  pluginKey : String
  deriving DecidableEq, Repr

def selection (expr model plugin : String) : Except String Selection := do
  require (¬ Text.isBlank expr) "selected task expression is empty"
  pure ⟨expr, model, plugin⟩

/-- The plugin's price of the original or the mapped model, or else the default price. -/
def selectExpression (prices : TaskPricingMaps) (source : Source) (original mapped : String) :
    Except String Selection := do
  source.validate
  require (¬ Text.isBlank original) "missing original model"
  let models := if mapped ≠ "" ∧ mapped ≠ original then [original, mapped] else [original]
  let plugin := if source.driver = "task_plugin" then
      models.find? fun model => (prices.pluginBillingExpr.lookup
        (source.pluginKey ++ "::" ++ model)).isSome
    else none
  match plugin with
  | some model => selection ((prices.pluginBillingExpr.lookup
      (source.pluginKey ++ "::" ++ model)).getD "") model source.pluginKey
  | none =>
      match models.find? fun model => prices.billingMode.lookup model = some "tiered_expr" with
      | some model => selection ((prices.billingExpr.lookup model).getD "") model ""
      | none => throw "no task expression configured for selected source/models"

/-- Equality tokens of the configuration a quote was made from. -/
structure Guards where
  priceVersion : String
  contractDigest : String
  bindingVersion : String
  deriving DecidableEq, Repr

def checkGuards (expected current : Guards) : Except String Unit :=
  require (expected.priceVersion ≠ "" ∧ expected.contractDigest ≠ "" ∧
    expected.bindingVersion ≠ "" ∧ current = expected) "stale or missing task pricing context"

/-! ### Previews -/

variable (host : Host)

structure PreviewInput where
  profile : String
  prices : TaskPricingMaps
  source : Source
  originalModel : String
  mappedModel : String
  contract : TaskFactContract
  expected : Guards
  current : Guards
  submit : TaskPricingFacts
  actual : Option TaskPricingFacts
  request : RequestInput
  pricingAt : ℤ
  quotaPerUnit : ℚ
  groupRatio : ℚ
  reservationFloor : ℤ

/-- Prices, without any accounting effect. -/
structure PreviewResult where
  profile : String
  source : Source
  selection : Selection
  contractDigest : String
  estimate : TaskQuote
  reservedQuota : ℤ
  final : Option TaskQuote
  finalMinusReserved : Option ℤ

def preview (input : PreviewInput) : Except String PreviewResult := do
  require (input.profile = taskExpressionProfile) "explicit task expression profile required"
  require (0 ≤ input.reservationFloor ∧ input.reservationFloor ≤ maxQuota)
    "invalid task reservation floor"
  let digest ← contractDigest host input.contract
  require (digest = input.current.contractDigest)
    "task contract does not match current quote context"
  checkGuards input.expected input.current
  let selected ← selectExpression input.prices input.source input.originalModel input.mappedModel
  validateExpressionContract host selected.expression input.contract
  let frozen ← submitFacts input.contract input.submit
  let quote := fun facts => quoteTaskExpression host
    ⟨input.profile, selected.expression, facts, input.request, input.pricingAt,
      input.quotaPerUnit, input.groupRatio⟩
  let estimate ← quote frozen
  let reserved := reservationQuota estimate.quotaAfterGroup input.groupRatio input.reservationFloor
  match input.actual with
  | none =>
      pure ⟨taskExpressionProfile, input.source, selected, digest, estimate, reserved, none, none⟩
  | some actual => do
      let actual ← completeFacts input.contract frozen actual
      let final ← quote actual
      pure ⟨taskExpressionProfile, input.source, selected, digest, estimate, reserved, some final,
        some (final.quotaAfterGroup - reserved)⟩

/-! ### Plans -/

def expressionPlanRounding : String := "half_away_from_zero@1"

def boundedActual : String := "bounded_actual"

def expressionRuleKey (selected : Selection) : String :=
  if selected.pluginKey ≠ "" then selected.pluginKey ++ "::" ++ selected.model else selected.model

/-- The exposure of a frozen plan. -/
def snapshotExposure (plan : TaskBillingPlan) (p : TaskExpressionPlan) :
    Except String ExposureQuote :=
  quoteExposure host ⟨plan.profile, p.expression, p.contract, p.submitFacts, p.pricingAt,
    plan.quotaPerUnit, plan.groupRatio, p.reservationFloor⟩

def quoteSnapshot (plan : TaskBillingPlan) (p : TaskExpressionPlan) (facts : TaskPricingFacts) :
    Except String TaskQuote :=
  quoteTaskExpression host ⟨plan.profile, p.expression, facts, .empty, p.pricingAt,
    plan.quotaPerUnit, plan.groupRatio⟩

/-- Probes of the request are refused, in dead branches too. -/
def validateFrozenDependencies (expression : String) : Except String Unit := do
  let node ← host.parse (parseExprVersion expression).2
  require (¬ node.nodes.any fun n => match n with
      | .identifier value => value = "param" ∨ value = "header"
      | _ => false)
    "request probes are not supported in frozen task plans; use declared request facts"

/-- `hex.DecodeString` gives 32 bytes. -/
def isSHA256 (s : String) : Bool :=
  s.toList.length = 64 && s.toList.all fun c => c.isDigit || ('a' ≤ c && c ≤ 'f') ||
    ('A' ≤ c && c ≤ 'F')

/-- What the plan must reserve: its bound where it has one. -/
def requiredReservation (plan : TaskBillingPlan) (p : TaskExpressionPlan) (quote : TaskQuote) :
    Except String ℤ :=
  match p.chargeBound with
  | none => pure (reservationQuota quote.quotaAfterGroup plan.groupRatio p.reservationFloor)
  | some b => do
      let bound ← snapshotExposure host plan p
      require (b.method = chargeBoundMethod ∧ b.maximumQuota = bound.maximum.quotaAfterGroup)
        "frozen task charge bound does not match its contract/expression"
      pure bound.requiredReservationQuota

/-- A plugin names its package; an adapter of the host has none. -/
def validatePackage (plan : TaskBillingPlan) (p : TaskExpressionPlan) : Except String Unit :=
  if p.driver = "task_plugin" then
    require (p.pluginVersion ≠ "" ∧ isSHA256 p.packageDigest ∧ plan.usageSourceID = p.pluginKey)
      "invalid frozen plugin package identity"
  else
    require (p.pluginVersion = "" ∧ p.packageDigest = "")
      "Go adapter cannot claim a plugin package"

/-- `ValidateSnapshot`, from the persisted snapshot alone. -/
def validateSnapshot (plan : TaskBillingPlan) : Except String Unit := do
  require (plan.profile = taskExpressionProfile) "explicit task expression snapshot required"
  let p ← orThrow plan.expressionPlan "explicit task expression snapshot required"
  require (((p.version = 1 ∧ p.chargeBound = none) ∨ (p.version = 2 ∧ p.chargeBound ≠ none)) ∧
      plan.schemaVersion = 1 ∧ plan.mode = boundedActual ∧ plan.source = "task_expression" ∧
      plan.currency = "USD" ∧ plan.configHash ≠ "" ∧ p.bindingVersion ≠ "" ∧ 0 < p.channelID ∧
      ¬ Text.isBlank p.action ∧ ¬ Text.isBlank p.requestID ∧ p.pricingAt ≠ zeroTime ∧
      p.rounding = expressionPlanRounding ∧ 0 ≤ p.reservationFloor ∧ p.reservationFloor ≤ maxQuota)
    "invalid task expression snapshot metadata"
  require (plan.components = [] ∧ plan.resolution = "" ∧ plan.requestedOutputDurationSeconds = 0 ∧
      plan.inputVideoCount = 0 ∧ plan.inputAudioCount = 0 ∧ plan.inputImageCount = 0)
    "task expression snapshot contains legacy components"
  Source.validate ⟨p.driver, p.pluginKey⟩
  require (plan.usageProducerKind = p.driver ∧ ¬ Text.isBlank plan.usageSourceID)
    "invalid task expression producer identity"
  validatePackage plan p
  require (¬ Text.isBlank p.originalModel ∧ ¬ Text.isBlank p.mappedModel ∧
      (p.selectedModel = p.originalModel ∨ p.selectedModel = p.mappedModel) ∧
      (p.selectedPluginKey = "" ∨ p.selectedPluginKey = p.pluginKey) ∧
      plan.ruleKey = expressionRuleKey ⟨"", p.selectedModel, p.selectedPluginKey⟩)
    "invalid frozen model selection"
  require (p.expressionHash = host.exprHash p.expression) "frozen task expression hash mismatch"
  validateFrozenDependencies host p.expression
  validateExpressionContract host p.expression p.contract
  let digest ← contractDigest host p.contract
  require (plan.usageContractDigest = digest ∧ plan.usageSchemaVersion = p.contract.version)
    "frozen task contract identity mismatch"
  let facts ← submitFacts p.contract p.submitFacts
  let quote ← quoteSnapshot host plan p facts
  let reservation ← requiredReservation host plan p quote
  require (plan.estimateQuota = quote.quotaAfterGroup ∧ plan.reserveQuota = reservation)
    "frozen task totals do not match the expression"

structure FreezeInput extends PreviewInput where
  channelID : ℤ
  action : String
  requestID : String
  sourceID : String
  pluginVersion : String
  packageDigest : String

def freeze (input : FreezeInput) : Except String TaskBillingPlan := do
  require (input.actual.isNone) "cannot freeze a task from completion facts"
  require (¬ Text.isBlank input.mappedModel)
    "actual upstream model is required for a frozen task plan"
  let preview ← preview host input.toPreviewInput
  let contract ← normalizeContract input.contract
  let facts ← submitFacts contract input.submit
  let plan : TaskBillingPlan := {
    profile := taskExpressionProfile
    source := "task_expression"
    ruleKey := expressionRuleKey preview.selection
    schemaVersion := 1
    mode := boundedActual
    configHash := input.current.priceVersion
    currency := "USD"
    groupRatio := input.groupRatio
    quotaPerUnit := input.quotaPerUnit
    resolution := ""
    usageProducerKind := input.source.driver
    usageSourceID := input.sourceID
    usageSchemaVersion := contract.version
    usageContractDigest := preview.contractDigest
    requestedOutputDurationSeconds := 0
    inputVideoCount := 0
    inputAudioCount := 0
    inputImageCount := 0
    components := []
    estimateQuota := preview.estimate.quotaAfterGroup
    reserveQuota := preview.reservedQuota
    expressionPlan := some {
      version := 1
      originalModel := input.originalModel
      mappedModel := input.mappedModel
      selectedModel := preview.selection.model
      selectedPluginKey := preview.selection.pluginKey
      driver := input.source.driver
      pluginKey := input.source.pluginKey
      pluginVersion := input.pluginVersion
      packageDigest := input.packageDigest
      channelID := input.channelID
      action := input.action
      requestID := input.requestID
      bindingVersion := input.current.bindingVersion
      expression := preview.selection.expression
      expressionHash := host.exprHash preview.selection.expression
      pricingAt := input.pricingAt
      rounding := expressionPlanRounding
      reservationFloor := input.reservationFloor
      contract := contract
      submitFacts := facts
      chargeBound := none } }
  validateSnapshot host plan
  pure plan

/-- Freeze a plan together with the upper bound of its charge. -/
def freezeBounded (input : FreezeInput) : Except String TaskBillingPlan := do
  let plan ← freeze host input
  let p ← orThrow plan.expressionPlan "explicit task expression snapshot required"
  let bound ← snapshotExposure host plan p
  let plan : TaskBillingPlan := { plan with
    expressionPlan := some { p with
      version := 2
      chargeBound := some ⟨bound.method, bound.maximum.quotaAfterGroup⟩ }
    reserveQuota := bound.requiredReservationQuota }
  validateSnapshot host plan
  pure plan

/-! ### The final quote -/

/-- What the provider reports when a task is done, and who says so. -/
structure TaskPricingUsageEnvelope where
  producerKind : String
  sourceID : String
  pluginVersion : String
  packageDigest : String
  channelID : ℤ
  requestID : String
  action : String
  schemaVersion : ℤ
  contractDigest : String
  stage : String
  completeness : String
  facts : TaskPricingFacts

/-- The evidence is complete and belongs to the plan. -/
def matchesPlan (plan : TaskBillingPlan) (p : TaskExpressionPlan)
    (envelope : TaskPricingUsageEnvelope) : Prop :=
  envelope.producerKind = plan.usageProducerKind ∧ envelope.sourceID = plan.usageSourceID ∧
    envelope.pluginVersion = p.pluginVersion ∧ envelope.packageDigest = p.packageDigest ∧
    envelope.channelID = p.channelID ∧ envelope.requestID = p.requestID ∧
    envelope.action = p.action ∧ envelope.schemaVersion = plan.usageSchemaVersion ∧
    envelope.contractDigest = plan.usageContractDigest ∧ envelope.stage = "provider_response" ∧
    envelope.completeness = "complete"

instance (plan : TaskBillingPlan) (p : TaskExpressionPlan) (envelope : TaskPricingUsageEnvelope) :
    Decidable (matchesPlan plan p envelope) :=
  inferInstanceAs (Decidable (_ ∧ _))

def quoteFinal (plan : TaskBillingPlan) (envelope : Option TaskPricingUsageEnvelope) :
    Except String TaskQuote := do
  validateSnapshot host plan
  let p ← orThrow plan.expressionPlan "explicit task expression snapshot required"
  let envelope ← orThrow envelope
    "missing, incomplete or mismatched final task pricing evidence"
  require (matchesPlan plan p envelope)
    "missing, incomplete or mismatched final task pricing evidence"
  let facts ← completeFacts p.contract p.submitFacts envelope.facts
  quoteSnapshot host plan p facts

end MaxApi.TaskPricing
