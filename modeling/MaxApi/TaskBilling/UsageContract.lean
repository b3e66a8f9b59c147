import MaxApi.Lib.Checked
import MaxApi.Lib.Text
import Mathlib.Data.List.Sort

/-! # Usage contracts

A usage contract names the facts that an adaptor may report about a task, with a unit and a range
for each of them.  A billing plan keeps the digest of the contract it was made under, and is only
read under the contract with this digest. -/

namespace MaxApi.TaskBilling

open Checked

structure TaskUsageFieldContract where
  key : String
  unit : String
  requiredForTerminal : Bool
  minValue : Option ℤ
  maxValue : Option ℤ
  deriving DecidableEq

structure TaskUsageContract where
  sourceID : String
  schemaVersion : ℤ
  fields : List TaskUsageFieldContract
  deriving DecidableEq

def sourceIDMiniMax : String := "minimax"

def sourceIDDoubaoVideo : String := "doubao_video"

def usageField (key unit : String) (required : Bool) (minValue : ℤ) (maxValue : Option ℤ) :
    TaskUsageFieldContract := ⟨key, unit, required, some minValue, maxValue⟩

def miniMaxH3Contract : TaskUsageContract where
  sourceID := sourceIDMiniMax
  schemaVersion := 1
  fields :=
    [usageField "output_duration_ms" "millisecond" true 4000 (some 15000),
      usageField "input_video_duration_ms" "millisecond" false 0 (some 15000),
      usageField "input_audio_duration_ms" "millisecond" false 0 (some 15000),
      usageField "input_image_count" "count" true 0 (some 9)]

def doubaoVideoContract : TaskUsageContract where
  sourceID := sourceIDDoubaoVideo
  schemaVersion := 1
  fields :=
    [usageField "completion_tokens" "token" true 0 none,
      usageField "total_tokens" "token" true 0 none]

/-- The units of the facts that any contract may name. -/
def canonicalFieldUnits : List (String × String) :=
  [("output_duration_ms", "millisecond"), ("input_video_duration_ms", "millisecond"),
    ("input_audio_duration_ms", "millisecond"), ("input_image_count", "count"),
    ("input_video_count", "count"), ("input_audio_count", "count"),
    ("completion_tokens", "token"), ("total_tokens", "token")]

/-- The loop of `validateContract`, after the keys in `seen`. -/
def validateFields : List String → List TaskUsageFieldContract → Except String Unit
  | _, [] => .ok ()
  | seen, field :: fields => do
      require (canonicalFieldUnits.lookup field.key = some field.unit)
        ("task usage contract field \"" ++ field.key ++ "\" has invalid unit")
      require (field.key ∉ seen)
        ("task usage contract field \"" ++ field.key ++ "\" is duplicated")
      require (∀ lo ∈ field.minValue, ∀ hi ∈ field.maxValue, lo ≤ hi)
        ("task usage contract field \"" ++ field.key ++ "\" has invalid range")
      validateFields (field.key :: seen) fields

def validateContract (contract : TaskUsageContract) : Except String Unit := do
  require (¬ Text.isBlank contract.sourceID ∧
    contract.sourceID = Text.trimSpace contract.sourceID)
    "task usage contract source_id is invalid"
  require (0 < contract.schemaVersion) "task usage contract schema_version is invalid"
  require (contract.fields ≠ []) "task usage contract fields are required"
  validateFields [] contract.fields

def pointerString : Option ℤ → String
  | none => "absent"
  | some value => toString value

/-- The line of a field in the text that is digested. -/
def TaskUsageFieldContract.canonical (field : TaskUsageFieldContract) : String :=
  "field=" ++ field.key ++ "\nunit=" ++ field.unit ++ "\nrequired=" ++
    toString field.requiredForTerminal ++ "\nmin=" ++ pointerString field.minValue ++
    "\nmax=" ++ pointerString field.maxValue ++ "\n"

/-- `ContractDigest`; `sha256Hex` is the hash function. -/
def contractDigest (sha256Hex : String → String) (contract : TaskUsageContract) :
    Except String String := do
  validateContract contract
  pure (sha256Hex ("source_id=" ++ contract.sourceID ++ "\nschema_version=" ++
    toString contract.schemaVersion ++ "\n" ++
    String.join ((contract.fields.insertionSort fun a b => a.key ≤ b.key).map
      TaskUsageFieldContract.canonical)))

def resolveContract (sha256Hex : String → String) (sourceID : String) (schemaVersion : ℤ)
    (digest : String) : Except String TaskUsageContract := do
  let contract ← orThrow
    (if sourceID = sourceIDMiniMax ∧ schemaVersion = 1 then some miniMaxH3Contract
      else if sourceID = sourceIDDoubaoVideo ∧ schemaVersion = 1 then some doubaoVideoContract
      else none)
    ("unsupported task usage contract \"" ++ sourceID ++ "\" version " ++ toString schemaVersion)
  let expected ← contractDigest sha256Hex contract
  require (digest ≠ "" ∧ digest = expected) "task usage contract digest mismatch"
  pure contract

end MaxApi.TaskBilling
