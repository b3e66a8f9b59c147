import MaxApi.TaskBilling.ContractDigest

/-! # Usage envelopes

`BuildEnvelope` and `ValidateEnvelope`: the facts that an adaptor reports about a task, classified
and bound to the contract by a digest.  The facts are walked in the order of a map, so each call
has a walk of its own; what the calls accept does not depend on it. -/

namespace MaxApi.UsageEvidence

open Checked MaxApi.TaskBilling

/-! ### Facts -/

structure TaskUsage where
  outputDurationMs : Option ℤ
  inputVideoDurationMs : Option ℤ
  inputAudioDurationMs : Option ℤ
  inputImageCount : Option ℤ
  inputVideoCount : Option ℤ
  inputAudioCount : Option ℤ
  completionTokens : Option ℤ
  totalTokens : Option ℤ
  source : String
  completeness : String
  deriving DecidableEq

structure TaskUsageEnvelope where
  producerKind : String
  sourceID : String
  schemaVersion : ℤ
  contractDigest : String
  stage : String
  presence : String
  completeness : String
  evidenceDigest : String
  usage : Option TaskUsage
  deriving DecidableEq

def legacyEvidenceFieldOrder : List String :=
  ["output_duration_ms", "input_video_duration_ms", "input_audio_duration_ms", "input_image_count",
    "input_video_count", "input_audio_count", "completion_tokens", "total_tokens"]

/-- `usageValues`, by its keys; a usage that is `nil` has no keys. -/
def usageValues (usage : Option TaskUsage) (key : String) : Option ℤ :=
  usage.bind fun u =>
    if key = "output_duration_ms" then u.outputDurationMs
    else if key = "input_video_duration_ms" then u.inputVideoDurationMs
    else if key = "input_audio_duration_ms" then u.inputAudioDurationMs
    else if key = "input_image_count" then u.inputImageCount
    else if key = "input_video_count" then u.inputVideoCount
    else if key = "input_audio_count" then u.inputAudioCount
    else if key = "completion_tokens" then u.completionTokens
    else if key = "total_tokens" then u.totalTokens
    else none

/-- An order in which the map of the values is walked. -/
structure Walk where
  keys : List String
  perm : keys.Perm legacyEvidenceFieldOrder

/-- The facts that are not `nil`, in the order of a walk. -/
def Walk.facts (walk : Walk) (usage : Option TaskUsage) : List (String × ℤ) :=
  walk.keys.filterMap fun key => (usageValues usage key).map (key, ·)

/-! ### Validation of facts -/

/-- The completeness of facts that can be billed. -/
def Counted (completeness : String) : Prop := completeness = "complete" ∨ completeness = "partial"

instance (completeness : String) : Decidable (Counted completeness) := instDecidableOr

/-- The range of a field. -/
def Within (field : TaskUsageFieldContract) (value : ℤ) : Prop :=
  (∀ lo ∈ field.minValue, lo ≤ value) ∧ ∀ hi ∈ field.maxValue, value ≤ hi

instance (field : TaskUsageFieldContract) (value : ℤ) : Decidable (Within field value) :=
  instDecidableAnd

/-- The field of a key in the map that is made of the fields; a later one replaces an earlier. -/
def allowed (contract : TaskUsageContract) (key : String) : Option TaskUsageFieldContract :=
  contract.fields.reverse.find? (·.key = key)

/-- The first loop of `validateUsage`. -/
def validateFacts (contract : TaskUsageContract) (completeness : String) :
    List (String × ℤ) → Except String Unit
  | [] => .ok ()
  | (key, value) :: facts => do
      let field ← orThrow (allowed contract key)
        ("task usage field \"" ++ key ++ "\" is not declared by the contract")
      require (Counted completeness → Within field value)
        ("task usage field \"" ++ key ++ "\" is outside the contract range")
      validateFacts contract completeness facts

/-- The loop over the required fields. -/
def validateRequired (usage : Option TaskUsage) :
    List TaskUsageFieldContract → Except String Unit
  | [] => .ok ()
  | field :: fields => do
      require (field.requiredForTerminal → usageValues usage field.key ≠ none)
        ("complete task usage is missing required field \"" ++ field.key ++ "\"")
      validateRequired usage fields

/-- The switch at the end of `validateUsage`, over the facts that are not `nil`. -/
def usagePresence (contract : TaskUsageContract) (usage : Option TaskUsage)
    (facts : List (String × ℤ)) (completeness : String) : Except String String :=
  let presentCount := facts.length
  let allZero := facts.all (·.2 = 0)
  if completeness = "missing" then do
    require (presentCount = 0) "missing task usage cannot contain canonical facts"
    pure "not_present"
  else if completeness = "partial" then do
    require (presentCount ≠ 0) "partial task usage requires at least one canonical fact"
    pure "partial"
  else if completeness = "invalid" then pure "invalid"
  else if completeness = "ambiguous" then pure "ambiguous"
  else if completeness = "complete" then do
    validateRequired usage contract.fields
    require (presentCount ≠ 0) "complete task usage requires canonical facts"
    pure (if allZero then "present_zero" else "present_valid")
  else throw ("unsupported task usage completeness \"" ++ completeness ++ "\"")

/-- `validateUsage`: the presence of the facts. -/
def validateUsage (walk : Walk) (contract : TaskUsageContract) (usage : Option TaskUsage)
    (completeness : String) : Except String String := do
  validateFacts contract completeness (walk.facts usage)
  require (Counted completeness → ∀ completionTokens ∈ usageValues usage "completion_tokens",
    ∀ totalTokens ∈ usageValues usage "total_tokens", completionTokens ≤ totalTokens)
    "total tokens cannot be less than completion tokens"
  usagePresence contract usage (walk.facts usage) completeness

/-! ### Envelopes -/

def validStage (stage : String) : Bool :=
  stage ∈ ["request_estimate", "provider_response", "callback", "manual_reconcile"]

def validCompleteness (completeness : String) : Bool :=
  completeness ∈ ["complete", "partial", "missing", "invalid", "ambiguous"]

def validProducer (producerKind : String) : Bool :=
  producerKind = "go_adapter" ∨ producerKind = "task_plugin"

/-- The line of a fact in the texts that are digested. -/
def factLine (usage : Option TaskUsage) (key : String) : String :=
  key ++ "=" ++ pointerString (usageValues usage key) ++ "\n"

/-- The text under an evidence digest that covers some keys. -/
def evidenceText (keys : List String) (stage presence completeness : String)
    (usage : Option TaskUsage) : String :=
  "stage=" ++ stage ++ "\npresence=" ++ presence ++ "\ncompleteness=" ++ completeness ++ "\n" ++
    String.join (keys.map (factLine usage))

section digests

variable (sha256Hex : String → String)

def evidenceDigest (contract : TaskUsageContract) (stage presence completeness : String)
    (usage : Option TaskUsage) : String :=
  sha256Hex (evidenceText ((contract.fields.insertionSort fun a b => a.key ≤ b.key).map
    TaskUsageFieldContract.key) stage presence completeness usage)

def legacyEvidenceDigest (stage presence completeness : String) (usage : Option TaskUsage) :
    String :=
  sha256Hex (evidenceText legacyEvidenceFieldOrder stage presence completeness usage)

def legacyEvidenceDigestAllowed (contract : TaskUsageContract) : Prop :=
  contract.schemaVersion = 1 ∧
    (contract.sourceID = sourceIDMiniMax ∨ contract.sourceID = sourceIDDoubaoVideo)

instance (contract : TaskUsageContract) : Decidable (legacyEvidenceDigestAllowed contract) :=
  instDecidableAnd

/-- The completeness that `buildEnvelope` takes from a usage. -/
def checkedCompleteness (stage : String) (usage : Option TaskUsage) : Except String String :=
  match usage with
  | none => pure "missing"
  | some u => do
      require (u.source = stage) ("task usage source \"" ++ u.source ++
        "\" does not match stage \"" ++ stage ++ "\"")
      require (validCompleteness u.completeness)
        ("unsupported task usage completeness \"" ++ u.completeness ++ "\"")
      pure u.completeness

def buildEnvelope (walk : Walk) (producerKind : String) (contract : TaskUsageContract)
    (stage : String) (usage : Option TaskUsage) : Except String TaskUsageEnvelope := do
  require (validProducer producerKind)
    ("unsupported task usage producer kind \"" ++ producerKind ++ "\"")
  require (validStage stage) ("unsupported task usage stage \"" ++ stage ++ "\"")
  let digest ← contractDigest sha256Hex contract
  let completeness ← checkedCompleteness stage usage
  let presence ← validateUsage walk contract usage completeness
  pure
    { producerKind := producerKind
      sourceID := contract.sourceID
      schemaVersion := contract.schemaVersion
      contractDigest := digest
      stage := stage
      presence := presence
      completeness := completeness
      evidenceDigest := evidenceDigest sha256Hex contract stage presence completeness usage
      usage := usage }

def validateEnvelope (walk : Walk) (contract : TaskUsageContract)
    (envelope : Option TaskUsageEnvelope) (expectedProducerKind : String) :
    Except String Unit := do
  let envelope ← orThrow envelope "task usage envelope is required"
  require (validProducer expectedProducerKind)
    ("unsupported expected task usage producer kind \"" ++ expectedProducerKind ++ "\"")
  require (envelope.producerKind = expectedProducerKind) "task usage producer kind mismatch"
  let expected ← buildEnvelope sha256Hex walk expectedProducerKind contract envelope.stage
    envelope.usage
  require (envelope.sourceID = expected.sourceID ∧
    envelope.schemaVersion = expected.schemaVersion ∧
    envelope.contractDigest = expected.contractDigest ∧ envelope.presence = expected.presence ∧
    envelope.completeness = expected.completeness)
    "task usage envelope identity or digest mismatch"
  require (envelope.evidenceDigest = expected.evidenceDigest ∨
    legacyEvidenceDigestAllowed contract ∧
      envelope.evidenceDigest = legacyEvidenceDigest sha256Hex envelope.stage envelope.presence
        envelope.completeness envelope.usage)
    "task usage envelope identity or digest mismatch"

end digests

end MaxApi.UsageEvidence
