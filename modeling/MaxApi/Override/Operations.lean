import MaxApi.Lib.Text
import MaxApi.Override.Paths

/-! # Override operations

An operation of a parameter override on the body of a request: its conditions, the resolution of
its path, and the write at one path. -/

namespace MaxApi.Override

/-- What the operations take from the formatting of values and from the regular expressions. -/
structure Runtime extends Libraries where
  /-- `gjson.Result.String`. -/
  text : Json → String
  /-- `fmt.Sprintf("%v", value)`. -/
  sprint : Json → String
  /-- `common.GetJsonString`. -/
  jsonText : Json → String
  /-- `strings.ToLower` and `strings.ToUpper`. -/
  lower : String → String
  upper : String → String
  /-- `regexp.Compile` of the first text, then `ReplaceAllString` in the second by the third. -/
  regexReplace : String → String → String → Except String String

/-- `gjson.Result.Value`, as it is written back: numbers are `float64` values, and of several
members of one name the first one counts. -/
def Libraries.value (lib : Libraries) (j : Json) : Json := Json.value lib.rewrite j

/-- `common.Unmarshal` into an interface value: of several members of one name the last one
counts. -/
def Libraries.decode (lib : Libraries) (j : Json) : Json := Json.decode lib.rewrite j

/-- `ConditionOperation`. -/
structure ConditionOperation where
  path : String
  mode : String
  value : Json
  invert : Bool
  passMissingKey : Bool

/-- `ParamOperation`. -/
structure ParamOperation where
  path : String
  mode : String
  value : Json
  keepOrigin : Bool
  opFrom : String
  opTo : String
  conditions : List ConditionOperation
  logic : String

/-! ### Negative indices and wildcards -/

/-- The texts that `\.(-\d+)` captures, in their order. -/
def negativeIndices (path : List Char) : List (List Char) :=
  path.tails.filterMap fun
    | '.' :: '-' :: cs =>
        let digits := cs.takeWhile Char.isDigit
        if digits = [] then none else some ('-' :: digits)
    | _ => none

/-- `strings.Split(path, sub)[0]`. -/
def beforeFirst (sub : List Char) : List Char → List Char
  | [] => []
  | c :: cs => if sub.isPrefixOf (c :: cs) then [] else c :: beforeFirst sub cs

/-- One match of `processNegativeIndex`, in the path that the matches before it have left. -/
def replaceNegativeIndex (lib : Libraries) (doc : Json) (path result negIndex : List Char) :
    List Char :=
  let index := Json.digitsValue (negIndex.drop 1)
  let arrayPath := beforeFirst negIndex path
  let arrayPath := if arrayPath.getLast? = some '.' then arrayPath.dropLast else arrayPath
  match lib.gjsonGet doc (String.ofList arrayPath) with
  | some (.array items) =>
      if 0 < index ∧ index ≤ items.length then
        Text.replaceOnce ('.' :: negIndex) ('.' :: (toString (items.length - index)).toList) result
      else result
  | _ => result

/-- `processNegativeIndex`. -/
def processNegativeIndex (lib : Libraries) (doc : Json) (path : String) : String :=
  String.ofList ((negativeIndices path.toList).foldl
    (replaceNegativeIndex lib doc path.toList) path.toList)

theorem processNegativeIndex_none {lib : Libraries} {doc : Json} {path : String}
    (h : negativeIndices path.toList = []) : processNegativeIndex lib doc path = path := by
  unfold processNegativeIndex
  rw [h]
  exact String.ofList_toList

/-- `strconv.Atoi`. -/
def atoi (s : String) : Option ℤ :=
  match s.toList with
  | '-' :: cs => if cs ≠ [] ∧ cs.all Char.isDigit then some (-Json.digitsValue cs) else none
  | '+' :: cs => if cs ≠ [] ∧ cs.all Char.isDigit then some (Json.digitsValue cs) else none
  | cs => if cs ≠ [] ∧ cs.all Char.isDigit then some (Json.digitsValue cs) else none

/-- `collectWildcardPaths`, on a decoded node. -/
def collectWildcardPaths : Json → List String → List String → List String
  | _, [], pre => [".".intercalate pre]
  | node, segment :: segments, pre =>
      let segment := Text.trimSpace segment
      if segment = "" then []
      else if segment = "*" then
        match node with
        | .object ms => ms.flatMap fun m => collectWildcardPaths m.2 segments (pre ++ [m.1])
        | .array items => items.zipIdx.flatMap fun (item, index) =>
            collectWildcardPaths item segments (pre ++ [toString index])
        | _ => []
      else
        match node with
        | .object ms =>
            if segments = [] then [".".intercalate (pre ++ [segment])]
            else match Json.first segment ms with
              | none => []
              | some next => collectWildcardPaths next segments (pre ++ [segment])
        | .array items =>
            match atoi segment with
            | none => []
            | some index =>
                if index < 0 then []
                else match items[index.toNat]? with
                  | none => []
                  | some next =>
                      if segments = [] then [".".intercalate (pre ++ [segment])]
                      else collectWildcardPaths next segments (pre ++ [segment])
        | _ => []

/-- `expandWildcardPaths`; `lo.Uniq` keeps the first of several equal paths. -/
def expandWildcardPaths (lib : Libraries) (doc : Json) (path : String) : List String :=
  let paths := collectWildcardPaths (lib.decode doc) (Text.split path '.') []
  paths.foldl (fun unique path => if path ∈ unique then unique else unique ++ [path]) []

/-- `resolveOperationPaths`. -/
def resolveOperationPaths (lib : Libraries) (doc : Json) (path : String) : List String :=
  if '*' ∈ path.toList then expandWildcardPaths lib doc path else [path]

/-- `isPathBasedOperation`. -/
def isPathBasedOperation (mode : String) : Bool :=
  mode ∈ ["delete", "set", "prepend", "append", "trim_prefix", "trim_suffix", "ensure_prefix",
    "ensure_suffix", "trim_space", "to_lower", "to_upper", "replace", "regex_replace",
    "prune_objects"]

/-! ### Conditions -/

/-- `gjson.Type.String`; a missing value has the type of `null`. -/
def typeName : Option Json → String
  | none | some .null => "Null"
  | some (.bool false) => "False"
  | some (.bool true) => "True"
  | some (.number _) => "Number"
  | some (.string _) => "String"
  | some (.array _) | some (.object _) => "JSON"

/-- `compareEqual`. -/
def compareEqual (rt : Runtime) (jsonValue targetValue : Json) : Except String Bool :=
  match jsonValue, targetValue with
  | .null, .null => .ok true
  | .null, _ | _, .null => .ok false
  | .bool a, .bool b => .ok (a = b)
  | .number a, .number b => .ok (rt.rewrite a = rt.rewrite b)
  | a, b =>
      if typeName a = typeName b then .ok (rt.text a = rt.text b)
      else .error ("compare for different types, got " ++ typeName a ++ " and " ++ typeName b)

/-- `compareNumeric`. -/
def compareNumeric (rt : Runtime) (holds : ℚ → ℚ → Bool) (jsonValue targetValue : Json) :
    Except String Bool :=
  match jsonValue, targetValue with
  | .number a, .number b => .ok (holds (rt.rewrite a) (rt.rewrite b))
  | a, b => .error ("numeric comparison requires both values to be numbers, got " ++
      typeName a ++ " and " ++ typeName b)

/-- `compareGjsonValues`. -/
def compareGjsonValues (rt : Runtime) (jsonValue targetValue : Json) (mode : String) :
    Except String Bool :=
  match mode with
  | "full" => compareEqual rt jsonValue targetValue
  | "prefix" => .ok (Text.hasPrefix (rt.text jsonValue) (rt.text targetValue))
  | "suffix" => .ok (Text.hasSuffix (rt.text jsonValue) (rt.text targetValue))
  | "contains" => .ok (Text.contains (rt.text jsonValue) (rt.text targetValue))
  | "gt" => compareNumeric rt (fun a b => b < a) jsonValue targetValue
  | "gte" => compareNumeric rt (fun a b => b ≤ a) jsonValue targetValue
  | "lt" => compareNumeric rt (fun a b => a < b) jsonValue targetValue
  | "lte" => compareNumeric rt (fun a b => a ≤ b) jsonValue targetValue
  | mode => .error ("unsupported comparison mode: " ++ mode)

/-- `checkSingleCondition`. -/
def checkSingleCondition (rt : Runtime) (doc : Json) (contextJson : Option Json)
    (condition : ConditionOperation) : Except String Bool :=
  let path := processNegativeIndex rt.toLibraries doc condition.path
  let value := (rt.gjsonGet doc path).orElse fun _ =>
    contextJson.bind fun context => rt.gjsonGet context condition.path
  match value with
  | none => .ok condition.passMissingKey
  | some value =>
      match compareGjsonValues rt value condition.value (Text.toLower condition.mode) with
      | .error err => .error ("comparison failed for path " ++ condition.path ++ ": " ++ err)
      | .ok result => .ok (if condition.invert then !result else result)

/-- `checkConditions`. -/
def checkConditions (rt : Runtime) (doc : Json) (contextJson : Option Json)
    (conditions : List ConditionOperation) (logic : String) : Except String Bool :=
  if conditions = [] then .ok true
  else do
    let results ← conditions.mapM (checkSingleCondition rt doc contextJson)
    if Text.toUpper logic = "AND" then .ok (results.all id) else .ok (results.any id)

/-- `parseConditionOperations`. -/
def parseConditionOperations : Json → Except String (List ConditionOperation)
  | .object ms =>
      let conditions := ms.filterMap fun (key, value) =>
        let path := Text.trimSpace key
        if path = "" then none else some ⟨path, "full", value, false, false⟩
      if conditions = [] then .error "conditions object must contain at least one key"
      else .ok conditions
  | .array items => items.mapM fun
      | .object ms =>
          let path := match Json.first "path" ms with | some (.string s) => s | _ => ""
          let mode := match Json.first "mode" ms with | some (.string s) => s | _ => ""
          if Text.trimSpace path = "" ∨ Text.trimSpace mode = "" then
            .error "condition path/mode is required"
          else .ok
            { path := path
              mode := mode
              value := (Json.first "value" ms).getD .null
              invert := match Json.first "invert" ms with | some (.bool b) => b | _ => false
              passMissingKey :=
                match Json.first "pass_missing_key" ms with | some (.bool b) => b | _ => false }
      | _ => .error "condition must be object"
  | _ => .error "conditions must be an array or object"

/-! ### Writes at one path -/

/-- `moveValue`. -/
def moveValue (lib : Libraries) (doc : Json) (fromPath toPath : String) : Except String Json :=
  match lib.gjsonGet doc fromPath with
  | none => .error ("source path does not exist: " ++ fromPath)
  | some source => do
      let result ← lib.sjsonSet doc toPath (lib.value source)
      lib.sjsonDelete result fromPath

/-- `copyValue`. -/
def copyValue (lib : Libraries) (doc : Json) (fromPath toPath : String) : Except String Json :=
  match lib.gjsonGet doc fromPath with
  | none => .error ("source path does not exist: " ++ fromPath)
  | some source => lib.sjsonSet doc toPath (lib.value source)

/-- `deleteValue`. -/
def deleteValue (lib : Libraries) (doc : Json) (path : String) : Except String Json :=
  if Text.trimSpace path = "" then .ok doc else lib.sjsonDelete doc path

/-- The error of an operation on a value that it is not for. -/
def notSupported (current : Option Json) : String :=
  "operation not supported for type: " ++ typeName current

/-- A slice of values as it is marshalled: `newArray` stays nil where nothing is appended. -/
def marshalSlice : List Json → Json
  | [] => .null
  | items => .array items

/-- `modifyArray`. -/
def modifyArray (lib : Libraries) (doc : Json) (path : String) (items : List Json) (value : Json)
    (isPrepend : Bool) : Except String Json :=
  let added := match value with | .array values => values | value => [value]
  let original := items.map lib.value
  lib.sjsonSet doc path
    (marshalSlice (if isPrepend then added ++ original else original ++ added))

/-- `modifyString`. -/
def modifyString (rt : Runtime) (doc : Json) (path current : String) (value : Json)
    (isPrepend : Bool) : Except String Json :=
  let valueStr := rt.sprint value
  rt.sjsonSet doc path
    (.string (if isPrepend then valueStr ++ current else current ++ valueStr))

/-- `m[k] == nil`, of an entry of a map. -/
def isNil : Option Json → Bool
  | none | some .null => true
  | _ => false

/-- The loop of `mergeObjects` over the new members. -/
def mergeMembers (keepOrigin : Bool) (result : List (String × Json)) :
    List (String × Json) → List (String × Json)
  | [] => result
  | (k, v) :: ms =>
      mergeMembers keepOrigin
        (if !keepOrigin || isNil (Json.first k result) then Json.put k v result else result) ms

/-- `mergeObjects`, on the object with the members `current`. -/
def mergeObjects (lib : Libraries) (doc : Json) (path : String) (current : List (String × Json))
    (value : Json) (keepOrigin : Bool) : Except String Json :=
  let newMap : Except String (List (String × Json)) := match value with
    | .object ms => .ok ms
    | .null => .ok []
    | _ => .error "cannot unmarshal the value into an object"
  do
    let newMap ← newMap
    let currentMap := Json.canonical (Json.decodeMembers lib.rewrite current)
    lib.sjsonSet doc path
      (.object (Json.canonicalBy Json.first (mergeMembers keepOrigin currentMap newMap)))

/-- `modifyValue`. -/
def modifyValue (rt : Runtime) (doc : Json) (path : String) (value : Json)
    (keepOrigin isPrepend : Bool) : Except String Json :=
  match rt.gjsonGet doc path with
  | some (.array items) => modifyArray rt.toLibraries doc path items value isPrepend
  | some (.string current) => modifyString rt doc path current value isPrepend
  | some (.object ms) => mergeObjects rt.toLibraries doc path ms value keepOrigin
  | current => .error (notSupported current)

/-- An operation on a string, which is written back. -/
def stringOperation (lib : Libraries) (f : String → Except String (Option String)) (doc : Json)
    (path : String) : Except String Json :=
  match lib.gjsonGet doc path with
  | some (.string current) => do
      match ← f current with
      | some next => lib.sjsonSet doc path (.string next)
      | none => .ok doc
  | current => .error (notSupported current)

/-- The text of `trimStringValue`. -/
def trimmed (rt : Runtime) (value : Json) (isPrefix : Bool) (current : String) :
    Except String (Option String) :=
  match value with
  | .null => .error "trim value is required"
  | value => .ok (some (if isPrefix then Text.trimPrefix current (rt.sprint value)
      else Text.trimSuffix current (rt.sprint value)))

/-- `trimStringValue`. -/
def trimStringValue (rt : Runtime) (doc : Json) (path : String) (value : Json) (isPrefix : Bool) :
    Except String Json :=
  stringOperation rt.toLibraries (trimmed rt value isPrefix) doc path

/-- The text of `ensureStringAffix`, if it is another one. -/
def ensured (rt : Runtime) (value : Json) (isPrefix : Bool) (current : String) :
    Except String (Option String) :=
  match value with
  | .null => .error "ensure value is required"
  | value =>
      let valueStr := rt.sprint value
      if valueStr = "" then .error "ensure value is required"
      else if isPrefix then
        .ok (if Text.hasPrefix current valueStr then none else some (valueStr ++ current))
      else .ok (if Text.hasSuffix current valueStr then none else some (current ++ valueStr))

/-- `ensureStringAffix`. -/
def ensureStringAffix (rt : Runtime) (doc : Json) (path : String) (value : Json)
    (isPrefix : Bool) : Except String Json :=
  stringOperation rt.toLibraries (ensured rt value isPrefix) doc path

/-- `transformStringValue`. -/
def transformStringValue (lib : Libraries) (doc : Json) (path : String)
    (transform : String → String) : Except String Json :=
  stringOperation lib (fun current => .ok (some (transform current))) doc path

/-- `strings.ReplaceAll`, for a text that is not empty; `skip` characters belong to an occurrence
that has been replaced. -/
def replaceAllFrom (old new : List Char) : ℕ → List Char → List Char
  | _, [] => []
  | skip + 1, _ :: cs => replaceAllFrom old new skip cs
  | 0, c :: cs =>
      if old.isPrefixOf (c :: cs) then new ++ replaceAllFrom old new (old.length - 1) cs
      else c :: replaceAllFrom old new 0 cs

/-- The text of `replaceStringValue`. -/
def replaced (old new current : String) : Except String (Option String) :=
  if old = "" then .error "replace from is required"
  else .ok (some (String.ofList (replaceAllFrom old.toList new.toList 0 current.toList)))

/-- `replaceStringValue`. -/
def replaceStringValue (lib : Libraries) (doc : Json) (path old new : String) :
    Except String Json :=
  stringOperation lib (replaced old new) doc path

/-- The text of `regexReplaceStringValue`. -/
def regexReplaced (rt : Runtime) (pattern replacement current : String) :
    Except String (Option String) :=
  if pattern = "" then .error "regex pattern is required"
  else (rt.regexReplace pattern current replacement).map some

/-- `regexReplaceStringValue`. -/
def regexReplaceStringValue (rt : Runtime) (doc : Json) (path pattern replacement : String) :
    Except String Json :=
  stringOperation rt.toLibraries (regexReplaced rt pattern replacement) doc path

/-! ### Pruning -/

/-- `pruneObjectsOptions`. -/
structure PruneObjectsOptions where
  conditions : List ConditionOperation
  logic : String
  recursive : Bool

/-- `parsePruneObjectsOptions`. -/
def parsePruneObjectsOptions : Json → Except String PruneObjectsOptions
  | .null => .error "prune_objects value is required"
  | .string raw =>
      let v := Text.trimSpace raw
      if v = "" then .error "prune_objects value is required"
      else .ok ⟨[⟨"type", "full", .string v, false, false⟩], "AND", true⟩
  | .object raw => do
      let logic := match Json.first "logic" raw with
        | some (.string s) => if Text.trimSpace s = "" then "AND" else s
        | _ => "AND"
      let recursive := match Json.first "recursive" raw with | some (.bool b) => b | _ => true
      let listed ← match Json.first "conditions" raw with
        | some conditions => parseConditionOperations conditions
        | none => .ok []
      let whereConditions : List ConditionOperation ← match Json.first "where" raw with
        | some (.object ms) => .ok (ms.filterMap fun (key, value) =>
            let key := Text.trimSpace key
            if key = "" then none else some ⟨key, "full", value, false, false⟩)
        | some _ => .error "prune_objects where must be object"
        | none => .ok []
      let typed : List ConditionOperation := match Json.first "type" raw with
        | some value => [⟨"type", "full", value, false, false⟩]
        | none => []
      let conditions := listed ++ whereConditions ++ typed
      if conditions = [] then .error "prune_objects conditions are required"
      else .ok ⟨conditions, logic, recursive⟩
  | _ => .error "prune_objects value must be string or object"

section pruning

variable (shouldPrune : List (String × Json) → Except String Bool) (recursive : Bool)

mutual

/-- `pruneObjectsNode`: the node without its dropped objects, and whether it is dropped itself. -/
def pruneObjectsNode : Json → Bool → Except String (Json × Bool)
  | .array items, _ => do .ok (.array (← pruneItems items), false)
  | .object ms, isRoot => do
      let shouldDrop ← shouldPrune ms
      if shouldDrop && !isRoot then .ok (.null, true)
      else if recursive then do .ok (.object (← pruneMembers ms), false)
      else .ok (.object ms, false)
  | node, _ => .ok (node, false)

def pruneItems : List Json → Except String (List Json)
  | [] => .ok []
  | item :: items => do
      let (next, drop) ← pruneObjectsNode item false
      let rest ← pruneItems items
      .ok (if drop then rest else next :: rest)

def pruneMembers : List (String × Json) → Except String (List (String × Json))
  | [] => .ok []
  | (key, child) :: ms => do
      let (next, drop) ← pruneObjectsNode child false
      let rest ← pruneMembers ms
      .ok (if drop then rest else (key, next) :: rest)

end

end pruning

/-- `pruneObjects`. -/
def pruneObjects (rt : Runtime) (doc : Json) (path : String) (contextJson : Option Json)
    (value : Json) : Except String Json := do
  let options ← parsePruneObjectsOptions value
  let prune := fun node => (pruneObjectsNode
    (fun ms => checkConditions rt (.object ms) contextJson options.conditions options.logic)
    options.recursive node true).map Prod.fst
  if path = "" then prune (rt.toLibraries.decode doc)
  else match rt.gjsonGet doc path with
    | none => .ok doc
    | some target => do
        let cleaned ← prune (rt.toLibraries.decode target)
        rt.sjsonSet doc path cleaned

/-! ### One path of an operation -/

/-- The body of the loop over the paths of a path-based operation. -/
def pathOperation (rt : Runtime) (contextJson : Option Json) (op : ParamOperation) (doc : Json)
    (path : String) : Except String Json :=
  match op.mode with
  | "delete" => deleteValue rt.toLibraries doc path
  | "set" =>
      if op.keepOrigin ∧ (rt.gjsonGet doc path).isSome then .ok doc
      else rt.sjsonSet doc path op.value
  | "prepend" => modifyValue rt doc path op.value op.keepOrigin true
  | "append" => modifyValue rt doc path op.value op.keepOrigin false
  | "trim_prefix" => trimStringValue rt doc path op.value true
  | "trim_suffix" => trimStringValue rt doc path op.value false
  | "ensure_prefix" => ensureStringAffix rt doc path op.value true
  | "ensure_suffix" => ensureStringAffix rt doc path op.value false
  | "trim_space" => transformStringValue rt.toLibraries doc path Text.trimSpace
  | "to_lower" => transformStringValue rt.toLibraries doc path rt.lower
  | "to_upper" => transformStringValue rt.toLibraries doc path rt.upper
  | "replace" => replaceStringValue rt.toLibraries doc path op.opFrom op.opTo
  | "regex_replace" => regexReplaceStringValue rt doc path op.opFrom op.opTo
  | "prune_objects" => pruneObjects rt doc path contextJson op.value
  | mode => .error ("unknown operation: " ++ mode)

end MaxApi.Override
