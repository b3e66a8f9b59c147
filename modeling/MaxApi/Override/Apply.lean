import MaxApi.Override.Legacy
import MaxApi.Override.Operations

/-! # Applying an override

`ApplyParamOverride` with its audit recorder.  The recorder gets a line for an operation on a
sensitive path; the state also keeps the writes of the body so far, which the source does not. -/

namespace MaxApi.Override

/-! ### Audit lines -/

/-- `paramOverrideSensitivePathPrefixes`. -/
def paramOverrideSensitivePathPrefixes : List String :=
  ["model", "original_model", "upstream_model", "reasoning", "reasoning_effort", "output_config",
    "generationConfig.thinkingConfig", "generation_config.thinking_config", "service_tier",
    "inference_geo", "speed", "messages", "input", "instructions", "system", "contents",
    "systemInstruction", "system_instruction"]

/-- `shouldAuditParamPath`. -/
def shouldAuditParamPath (debugEnabled : Bool) (path : String) : Bool :=
  let path := Text.trimSpace path
  if path = "" then false
  else if debugEnabled then true
  else paramOverrideSensitivePathPrefixes.any fun pre =>
    path = pre || Text.hasPrefix path (pre ++ ".")

/-- `shouldAuditOperation`. -/
def shouldAuditOperation (debugEnabled : Bool) (path fromPath toPath : String) : Bool :=
  debugEnabled || [path, fromPath, toPath].any (shouldAuditParamPath debugEnabled)

/-- `formatParamOverrideAuditValue`. -/
def formatParamOverrideAuditValue (rt : Runtime) : Json → String
  | .null => "<empty>"
  | .string s => s
  | value => rt.jsonText value

/-- `buildParamOverrideAuditLine`. -/
def buildParamOverrideAuditLine (rt : Runtime) (debugEnabled : Bool)
    (mode path fromPath toPath : String) (value : Json) : String :=
  let mode := Text.trimSpace mode
  let path := Text.trimSpace path
  let fromPath := Text.trimSpace fromPath
  let toPath := Text.trimSpace toPath
  if shouldAuditOperation debugEnabled path fromPath toPath = false then ""
  else match mode with
    | "set" | "set_header" =>
        if path = "" then ""
        else mode ++ " " ++ path ++ " = " ++ formatParamOverrideAuditValue rt value
    | "delete" | "trim_space" | "to_lower" | "to_upper" | "delete_header" =>
        if path = "" then "" else mode ++ " " ++ path
    | "copy" | "move" | "copy_header" | "move_header" | "sync_fields" =>
        if fromPath = "" ∨ toPath = "" then "" else mode ++ " " ++ fromPath ++ " -> " ++ toPath
    | "prepend" | "append" | "trim_prefix" | "trim_suffix" | "ensure_prefix" | "ensure_suffix" =>
        if path = "" then ""
        else mode ++ " " ++ path ++ " with " ++ formatParamOverrideAuditValue rt value
    | "replace" | "regex_replace" =>
        if path = "" then ""
        else mode ++ " " ++ path ++ " from " ++ fromPath ++ " to " ++ toPath
    | "pass_headers" | "return_error" => mode ++ " " ++ formatParamOverrideAuditValue rt value
    | mode => if path = "" then mode else mode ++ " " ++ path

/-! ### The configuration -/

/-- `buildLegacyParamOverride`. -/
def buildLegacyParamOverride (paramOverride : List (String × Json)) : List (String × Json) :=
  paramOverride.filter fun e => !Text.equalFold (Text.trimSpace e.1) "operations"

/-- A string field of an operation. -/
def stringField (ms : List (String × Json)) (name : String) : Option String :=
  match Json.first name ms with
  | some (.string s) => some s
  | _ => none

/-- One entry of the list that `tryParseOperations` reads. -/
def parseOperation : Json → Option ParamOperation
  | .object ms => do
      let mode ← stringField ms "mode"
      let conditions ← match Json.first "conditions" ms with
        | some conditions => (parseConditionOperations conditions).toOption
        | none => some []
      some
        { path := (stringField ms "path").getD ""
          mode := mode
          value := (Json.first "value" ms).getD .null
          keepOrigin := match Json.first "keep_origin" ms with | some (.bool b) => b | _ => false
          opFrom := (stringField ms "from").getD ""
          opTo := (stringField ms "to").getD ""
          conditions := conditions
          logic := (stringField ms "logic").getD "OR" }
  | _ => none

/-- `tryParseOperations`. -/
def tryParseOperations (paramOverride : List (String × Json)) : Option (List ParamOperation) :=
  match Json.first "operations" paramOverride with
  | some (.array ops) => ops.mapM parseOperation
  | _ => none

/-- `shouldEnableParamOverrideAudit`. -/
def shouldEnableParamOverrideAudit (debugEnabled : Bool) (paramOverride : List (String × Json)) :
    Bool :=
  if debugEnabled then true
  else match tryParseOperations paramOverride with
    | some operations =>
        operations.any (fun operation =>
          shouldAuditParamPath debugEnabled (Text.trimSpace operation.path) ||
            shouldAuditParamPath debugEnabled (Text.trimSpace operation.opFrom) ||
            shouldAuditParamPath debugEnabled (Text.trimSpace operation.opTo)) ||
          (buildLegacyParamOverride paramOverride).any fun e =>
            shouldAuditParamPath debugEnabled (Text.trimSpace e.1)
    | none => paramOverride.any fun e => shouldAuditParamPath debugEnabled (Text.trimSpace e.1)

/-! ### The state -/

/-- A write of the body, with the line for the recorder. -/
structure Write where
  before : Json
  after : Json
  line : String

/-- The state of `applyOperations`; `recorder` is nil where the audit is not enabled, and `writes`
is a history that no operation reads. -/
structure State (Context : Type) where
  result : Json
  context : Context
  contextJson : Option Json
  recorder : Option (List String)
  writes : List Write

/-- Why an override returns no body. -/
inductive Failure where
  | message (text : String)
  | returned (text : String) (statusCode : ℤ) (code type : String) (skipRetry : Bool)

/-- Whether a header operation has failed because there is no source header. -/
inductive HeaderError where
  | sourceNotFound
  | other (text : String)

/-- The operations on the headers of the condition context. -/
structure Headers (Context : Type) where
  /-- `marshalContextJSON`. -/
  marshalContextJson : Context → Except String (Option Json)
  /-- `setHeaderOverrideInContext`. -/
  set : Context → String → Json → Bool → Except String Context
  /-- `deleteHeaderOverrideInContext`. -/
  delete : Context → String → Except String Context
  /-- `copyHeaderInContext` and `moveHeaderInContext`. -/
  copy : Context → String → String → Bool → Context × Option HeaderError
  move : Context → String → String → Bool → Context × Option HeaderError
  /-- `parseHeaderPassThroughNames`. -/
  passThroughNames : Json → Except String (List String)
  /-- `getHeaderValueFromContext`. -/
  get : Context → String → Context × Option String

section state

variable {Context : Type}

/-- `recordOperation`, of a line that has been built. -/
def State.record (s : State Context) (line : String) : State Context :=
  if line = "" then s
  else { s with recorder := s.recorder.map fun lines =>
    if line ∈ lines then lines else lines ++ [line] }

/-- Write the body and record the line. -/
def State.write (s : State Context) (after : Json) (line : String) : State Context :=
  State.record
    { s with result := after, writes := s.writes ++ [⟨s.result, after, line⟩] } line

variable (rt : Runtime) (hd : Headers Context) (debugEnabled : Bool)

/-- `applyOperationsLegacy`, with its recorder. -/
def applyLegacy : State Context → List (String × Json) → Except String (State Context)
  | s, [] => .ok s
  | s, (key, value) :: entries => do
      let next ← rt.sjsonSet s.result (escapeSjsonLiteralKey key) value
      applyLegacy
        (s.write next (buildParamOverrideAuditLine rt debugEnabled "set" key "" "" value)) entries

/-! ### One operation -/

/-- The line that the loop of a path-based operation records for a path. -/
def pathLine (op : ParamOperation) (doc : Json) (path : String) : String :=
  match op.mode with
  | "prune_objects" => ""
  | "set" =>
      if op.keepOrigin ∧ (rt.gjsonGet doc path).isSome then ""
      else buildParamOverrideAuditLine rt debugEnabled "set" path "" "" op.value
  | "delete" => buildParamOverrideAuditLine rt debugEnabled "delete" path "" "" .null
  | "trim_space" => buildParamOverrideAuditLine rt debugEnabled "trim_space" path "" "" .null
  | "to_lower" => buildParamOverrideAuditLine rt debugEnabled "to_lower" path "" "" .null
  | "to_upper" => buildParamOverrideAuditLine rt debugEnabled "to_upper" path "" "" .null
  | "replace" =>
      buildParamOverrideAuditLine rt debugEnabled "replace" path op.opFrom op.opTo .null
  | "regex_replace" =>
      buildParamOverrideAuditLine rt debugEnabled "regex_replace" path op.opFrom op.opTo .null
  | mode => buildParamOverrideAuditLine rt debugEnabled mode path "" "" op.value

/-- The loop of a path-based operation over its paths. -/
def applyPaths (op : ParamOperation) : State Context → List String → Except String (State Context)
  | s, [] => .ok s
  | s, path :: paths => do
      let next ← pathOperation rt s.contextJson op s.result path
      applyPaths op (s.write next (pathLine rt debugEnabled op s.result path)) paths

/-- The end of a header operation: the context is marshalled again. -/
def State.setContext (s : State Context) (context : Context) (line : String) :
    Except String (State Context) := do
  let contextJson ← hd.marshalContextJson context
  .ok { s.record line with context := context, contextJson := contextJson }

/-- `syncTarget`. -/
inductive SyncTarget where
  | json (key : String)
  | header (key : String)

/-- `parseSyncTarget`. -/
def parseSyncTarget (spec : String) : Except String SyncTarget :=
  let raw := Text.trimSpace spec
  if raw = "" then .error "sync_fields target is required"
  else
    let kind := raw.toList.takeWhile (· != ':')
    match raw.toList.dropWhile (· != ':') with
    | [] => .ok (.json raw)
    | _ :: rest =>
        let kind := Text.toLower (Text.trimSpace (String.ofList kind))
        let key := Text.trimSpace (String.ofList rest)
        if key = "" then .error ("sync_fields target key is required: " ++ raw)
        else if kind = "json" ∨ kind = "body" then .ok (.json key)
        else if kind = "header" then .ok (.header key)
        else .error ("sync_fields target prefix is invalid: " ++ raw)

/-- `readSyncTargetValue`. -/
def readSyncTargetValue (doc : Json) (context : Context) :
    SyncTarget → Context × Option Json
  | .json key =>
      let path := processNegativeIndex rt.toLibraries doc key
      match rt.gjsonGet doc path with
      | none | some .null => (context, none)
      | some (.string s) => (context, if Text.trimSpace s = "" then none else some (.string s))
      | some value => (context, some (rt.toLibraries.value value))
  | .header key =>
      match hd.get context key with
      | (context, some value) =>
          (context, if Text.trimSpace value = "" then none else some (.string value))
      | (context, none) => (context, none)

/-- `writeSyncTargetValue`. -/
def writeSyncTargetValue (doc : Json) (context : Context) (target : SyncTarget) (value : Json) :
    Except String (Json × Context) :=
  match target with
  | .json key => do
      let next ← rt.sjsonSet doc (processNegativeIndex rt.toLibraries doc key) value
      .ok (next, context)
  | .header key => do .ok (doc, ← hd.set context key value false)

/-- `syncFieldsBetweenTargets`. -/
def syncFieldsBetweenTargets (doc : Json) (context : Context) (fromSpec toSpec : String) :
    Except String (Json × Context) := do
  let fromTarget ← parseSyncTarget fromSpec
  let toTarget ← parseSyncTarget toSpec
  let (context, fromValue) := readSyncTargetValue rt hd doc context fromTarget
  let (context, toValue) := readSyncTargetValue rt hd doc context toTarget
  match fromValue, toValue with
  | some value, none => writeSyncTargetValue rt hd doc context toTarget value
  | none, some value => writeSyncTargetValue rt hd doc context fromTarget value
  | _, _ => .ok (doc, context)

/-- The source and target headers of `copy_header` and `move_header`. -/
def headerNames (op : ParamOperation) : String × String :=
  let source := Text.trimSpace op.opFrom
  let target := Text.trimSpace op.opTo
  (if source = "" then Text.trimSpace op.path else source,
    if target = "" then Text.trimSpace op.path else target)

/-- `copy_header` and `move_header`, by the operation on the context. -/
def headerOperation (mode : String)
    (move : Context → String → String → Bool → Context × Option HeaderError)
    (s : State Context) (op : ParamOperation) : Except String (State Context) :=
  let (source, target) := headerNames op
  match move s.context source target op.keepOrigin with
  | (_, some (.other text)) => .error text
  | (context, _) => s.setContext hd context
      (buildParamOverrideAuditLine rt debugEnabled mode "" source target .null)

/-- The loop of `pass_headers`. -/
def passHeaders (keepOrigin : Bool) : Context → List String → Except String Context
  | context, [] => .ok context
  | context, name :: names =>
      match hd.copy context name name keepOrigin with
      | (_, some (.other text)) => .error text
      | (context, _) => passHeaders keepOrigin context names

/-- `parseOverrideInt`. -/
def parseOverrideInt : Json → Option ℤ
  | .number n => if (rt.rewrite n).den = 1 then some (rt.rewrite n).num else none
  | _ => none

/-- The status of `parseParamOverrideReturnError`, from the first of two fields that exists. -/
def returnStatus (ms : List (String × Json)) : Except String ℤ :=
  match Json.first "status_code" ms, Json.first "status" ms with
  | some v, _ =>
      match parseOverrideInt rt v with
      | some n => .ok n
      | none => .error "return_error status_code must be an integer"
  | none, some v =>
      match parseOverrideInt rt v with
      | some n => .ok n
      | none => .error "return_error status must be an integer"
  | none, none => .ok 400

/-- `parseParamOverrideReturnError`. -/
def parseParamOverrideReturnError (value : Json) : Except String Failure := do
  let (message, statusCode, code, type, skipRetry) ←
    (match value with
      | .null => .error "return_error value is required"
      | .string raw =>
          .ok (Text.trimSpace raw, 400, "invalid_request", "invalid_request_error", true)
      | .object ms => do
          let message := Text.trimSpace ((stringField ms "message").getD "")
          let message :=
            if message = "" then Text.trimSpace ((stringField ms "msg").getD "") else message
          let code := match Json.first "code" ms with
            | some code => Text.trimSpace (rt.sprint code)
            | none => ""
          let type := Text.trimSpace ((stringField ms "type").getD "")
          let skipRetry := match Json.first "skip_retry" ms with | some (.bool b) => b | _ => true
          .ok (message, ← returnStatus rt ms, if code = "" then "invalid_request" else code,
            if type = "" then "invalid_request_error" else type, skipRetry)
      | _ => .error "return_error value must be string or object" :
      Except String (String × ℤ × String × String × Bool))
  if message = "" then .error "return_error message is required"
  else if statusCode < 100 ∨ 511 < statusCode then
    .error ("return_error status code out of range: " ++ toString statusCode)
  else .ok (.returned message statusCode code type skipRetry)

/-- An operation that is not path-based; `return_error` has returned before. -/
def otherOperation (s : State Context) (op : ParamOperation) : Except String (State Context) :=
  let lib := rt.toLibraries
  match op.mode with
  | "move" => do
      let opFrom := processNegativeIndex lib s.result op.opFrom
      let opTo := processNegativeIndex lib s.result op.opTo
      let next ← moveValue lib s.result opFrom opTo
      .ok (s.write next (buildParamOverrideAuditLine rt debugEnabled "move" "" opFrom opTo .null))
  | "copy" => do
      let opFrom := processNegativeIndex lib s.result op.opFrom
      let opTo := processNegativeIndex lib s.result op.opTo
      let next ← copyValue lib s.result opFrom opTo
      .ok (s.write next (buildParamOverrideAuditLine rt debugEnabled "copy" "" opFrom opTo .null))
  | "set_header" => do
      let context ← hd.set s.context op.path op.value op.keepOrigin
      s.setContext hd context
        (buildParamOverrideAuditLine rt debugEnabled "set_header" op.path "" "" op.value)
  | "delete_header" => do
      let context ← hd.delete s.context op.path
      s.setContext hd context
        (buildParamOverrideAuditLine rt debugEnabled "delete_header" op.path "" "" .null)
  | "copy_header" => headerOperation rt hd debugEnabled "copy_header" hd.copy s op
  | "move_header" => headerOperation rt hd debugEnabled "move_header" hd.move s op
  | "sync_fields" => do
      let (next, context) ← syncFieldsBetweenTargets rt hd s.result s.context op.opFrom op.opTo
      (s.write next (buildParamOverrideAuditLine rt debugEnabled "sync_fields" "" op.opFrom op.opTo
        .null)).setContext hd context ""
  | mode => .error ("unknown operation: " ++ mode)

/-- The error of an operation, as `applyOperations` returns it. -/
def failed {α : Type} (mode : String) (x : Except String α) : Except Failure α :=
  x.mapError fun err => .message ("operation " ++ mode ++ " failed: " ++ err)

/-- One iteration of `applyOperations`. -/
def applyOperation (s : State Context) (op : ParamOperation) : Except Failure (State Context) := do
  let holds ← (checkConditions rt s.result s.contextJson op.conditions op.logic).mapError .message
  if holds = false then .ok s
  else if isPathBasedOperation op.mode then
    let opPath := processNegativeIndex rt.toLibraries s.result op.path
    let opPaths := resolveOperationPaths rt.toLibraries s.result opPath
    failed op.mode (applyPaths rt debugEnabled op s opPaths)
  else if op.mode = "return_error" then
    match parseParamOverrideReturnError rt op.value with
    | .ok failure => .error failure
    | .error text => .error (.message text)
  else if op.mode = "copy" ∧ (op.opFrom = "" ∨ op.opTo = "") then
    .error (.message "copy from/to is required")
  else if op.mode = "pass_headers" then do
    let names ← (hd.passThroughNames op.value).mapError .message
    failed op.mode do
      let context ← passHeaders hd op.keepOrigin s.context names
      s.setContext hd context (buildParamOverrideAuditLine rt debugEnabled "pass_headers" "" "" ""
        (.array (names.map .string)))
  else if op.mode ∈ ["move", "copy", "set_header", "delete_header", "copy_header", "move_header",
      "sync_fields"] then
    failed op.mode (otherOperation rt hd debugEnabled s op)
  else .error (.message ("unknown operation: " ++ op.mode))

/-- The loop of `applyOperations`. -/
def applyOperations : State Context → List ParamOperation → Except Failure (State Context)
  | s, [] => .ok s
  | s, op :: operations => do
      let next ← applyOperation rt hd debugEnabled s op
      applyOperations next operations

/-- `ApplyParamOverride`. -/
def applyParamOverride (s : State Context) (paramOverride : List (String × Json)) :
    Except Failure (State Context) :=
  match tryParseOperations paramOverride with
  | some operations => do
      let s ← (applyLegacy rt debugEnabled s (buildLegacyParamOverride paramOverride)).mapError
        .message
      let contextJson ← (hd.marshalContextJson s.context).mapError fun err =>
        .message ("failed to marshal condition context: " ++ err)
      applyOperations rt hd debugEnabled { s with contextJson := contextJson } operations
  | none => (applyLegacy rt debugEnabled s paramOverride).mapError .message

/-- The state in which `ApplyParamOverrideWithRelayInfo` starts. -/
def initialState (paramOverride : List (String × Json)) (doc : Json) (context : Context) :
    State Context where
  result := doc
  context := context
  contextJson := none
  recorder :=
    if shouldEnableParamOverrideAudit debugEnabled paramOverride then some [] else none
  writes := []

/-- `ApplyParamOverrideWithRelayInfo`; the recorder of the state is the audit of the request. -/
def applyParamOverrideWithRelayInfo (paramOverride : List (String × Json)) (doc : Json)
    (context : Context) : Except Failure (State Context) :=
  applyParamOverride rt hd debugEnabled (initialState debugEnabled paramOverride doc context)
    paramOverride

end state

/-- A context without headers. -/
def noHeaders : Headers Unit where
  marshalContextJson _ := .ok none
  set context _ _ _ := .ok context
  delete context _ := .ok context
  copy context _ _ _ := (context, some .sourceNotFound)
  move context _ _ _ := (context, some .sourceNotFound)
  passThroughNames _ := .ok []
  get context _ := (context, none)

/-- The libraries on documents of short texts and small numbers, without queries. -/
def plainRuntime : Runtime where
  toLibraries := locationLibraries fun n => n
  text | .string s => s | _ => ""
  sprint | .string s => s | _ => ""
  jsonText | .string s => s | _ => ""
  lower := Text.toLower
  upper := Text.toUpper
  regexReplace _ current _ := .ok current

/-- A computation with a result that passes a test. -/
theorem exists_of_toBool {ε α : Type} {x : Except ε α} {p : α → Bool}
    (h : (match x with | .ok a => p a | .error _ => false) = true) :
    ∃ a, x = .ok a ∧ p a = true := by
  cases x with
  | error e => exact nomatch h
  | ok a => exact ⟨a, rfl, h⟩

end MaxApi.Override
