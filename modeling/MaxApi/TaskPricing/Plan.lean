import MaxApi.TaskPricing.Contract

/-! # Billing plans of tasks

The plan that a task is submitted under, as it is stored with the task.  A plan with an expression
plan prices by an expression; the other plans price by their components. -/

namespace MaxApi.TaskPricing

structure TaskChargeBound where
  method : String
  maximumQuota : ℤ
  deriving DecidableEq, Repr

/-- The pricing facts of a plan that prices by an expression. -/
structure TaskExpressionPlan where
  version : ℤ
  originalModel : String
  mappedModel : String
  selectedModel : String
  selectedPluginKey : String
  driver : String
  pluginKey : String
  pluginVersion : String
  packageDigest : String
  channelID : ℤ
  action : String
  requestID : String
  bindingVersion : String
  expression : String
  expressionHash : String
  pricingAt : ℤ
  rounding : String
  reservationFloor : ℤ
  contract : TaskFactContract
  submitFacts : TaskPricingFacts
  chargeBound : Option TaskChargeBound

structure TaskBillingPlanComponent where
  key : String
  unit : String
  unitPrice : String
  requestedQuantity : ℤ
  reservedQuantity : ℤ
  freeQuantity : ℤ
  deriving DecidableEq, Repr

/-- The pricing snapshot of one task. -/
structure TaskBillingPlan where
  profile : String
  expressionPlan : Option TaskExpressionPlan
  source : String
  ruleKey : String
  schemaVersion : ℤ
  mode : String
  configHash : String
  currency : String
  groupRatio : ℚ
  quotaPerUnit : ℚ
  resolution : String
  usageProducerKind : String
  usageSourceID : String
  usageSchemaVersion : ℤ
  usageContractDigest : String
  requestedOutputDurationSeconds : ℤ
  inputVideoCount : ℤ
  inputAudioCount : ℤ
  inputImageCount : ℤ
  components : List TaskBillingPlanComponent
  estimateQuota : ℤ
  reserveQuota : ℤ

end MaxApi.TaskPricing
