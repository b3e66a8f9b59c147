import MaxApi.Lib.Rounding
import MaxApi.TaskPricing.Contract
import Mathlib.Data.List.Dedup

/-! # Task price expressions

The syntax trees of the expression language, what the billing core checks of them, and the price
an expression gives.  The parser, the type checker and whatever the evaluator does with syntax
that is not listed here belong to the host's expression library; so does the float that a real
number is rounded to. -/

namespace MaxApi.TaskPricing

open Checked

/-! ### Syntax -/

inductive UnaryOperator where
  /-- `!` -/
  | bang
  | other (name : String)
  deriving DecidableEq, Repr

inductive BinaryOperator where
  | add
  | mul
  | div
  /-- `&&` and `and` -/
  | and
  /-- `||` and `or` -/
  | or
  | eq
  | ne
  | gt
  | ge
  | lt
  | le
  | other (name : String)
  deriving DecidableEq, Repr

/-- A syntax tree of the expression language; `other` is syntax the billing core does not look
at. -/
inductive Node where
  | integer (value : ℤ)
  | float (value : ℚ)
  | string (value : String)
  | bool (value : Bool)
  | identifier (value : String)
  | call (callee : Node) (arguments : List Node)
  | builtin (name : String) (arguments : List Node)
  | variableDeclarator (name : String) (value expr : Node)
  | unary (operator : UnaryOperator) (node : Node)
  | binary (operator : BinaryOperator) (left right : Node)
  | conditional (cond exp1 exp2 : Node)
  | other (children : List Node)

mutual

/-- The nodes of a tree, children first, as `ast.Find` visits them. -/
def Node.nodes : Node → List Node
  | .call callee arguments => callee.nodes ++ nodesOf arguments ++ [.call callee arguments]
  | .builtin name arguments => nodesOf arguments ++ [.builtin name arguments]
  | .variableDeclarator name value expr =>
      value.nodes ++ expr.nodes ++ [.variableDeclarator name value expr]
  | .unary operator node => node.nodes ++ [.unary operator node]
  | .binary operator left right => left.nodes ++ right.nodes ++ [.binary operator left right]
  | .conditional cond exp1 exp2 =>
      cond.nodes ++ exp1.nodes ++ exp2.nodes ++ [.conditional cond exp1 exp2]
  | .other children => nodesOf children ++ [.other children]
  | .integer value => [.integer value]
  | .float value => [.float value]
  | .string value => [.string value]
  | .bool value => [.bool value]
  | .identifier value => [.identifier value]

def nodesOf : List Node → List Node
  | [] => []
  | node :: nodes => node.nodes ++ nodesOf nodes

end

/-- The key of a call `u("key")`. -/
def usageKey : Node → Option String
  | .call (.identifier "u") [.string key] => some key
  | _ => none

/-! ### Inspection -/

def taskTokenVariables : List String :=
  ["p", "c", "len", "cr", "cc", "cc1h", "img", "img_o", "ai", "ao"]

/-- What an inspection has found so far. -/
structure Inspection where
  keys : List String
  identifiers : ℕ
  calls : ℕ
  invalid : Option String

/-- A time zone that depends on the node the program runs on is refused. -/
def taskTimezoneName (tz : String) : Except String String :=
  let name := Text.trimSpace tz
  if name = "Local" then
    .error ("task time helpers do not support node-local timezone Local; " ++
      "use UTC or an explicit IANA timezone")
  else .ok name

/-- The check of one node. -/
def inspectNode (found : Inspection) : Node → Inspection
  | .identifier value =>
      { found with
        identifiers := found.identifiers + if value = "u" then 1 else 0
        invalid := if value = "fixed" ∨ value = "$env" ∨ value ∈ taskTokenVariables then
            some ("identifier " ++ quoted value ++ " is unsupported in task prices")
          else found.invalid }
  | .variableDeclarator name _ _ =>
      if name = "u" ∨ name = "$env" then
        { found with invalid := some "task usage accessor cannot be shadowed" }
      else found
  | .builtin name _ =>
      if name = "now" ∨ name = "date" ∨ name = "timezone" then
        { found with
          invalid := some ("builtin " ++ quoted name ++ " is unsupported in task prices; " ++
            "use frozen hour/minute/weekday/month/day helpers") }
      else found
  | .call (.identifier callee) arguments =>
      if callee ∈ ["hour", "minute", "weekday", "month", "day"] then
        match arguments with
        | [.string literal] =>
            match taskTimezoneName literal with
            | .error e => { found with invalid := some e }
            | .ok _ => found
        | _ => found
      else if callee = "u" then
        let found := { found with calls := found.calls + 1 }
        match arguments with
        | [.string literal] =>
            if Text.isBlank literal then
              { found with invalid := some "u() requires a nonempty literal usage key" }
            else { found with keys := literal :: found.keys }
        | [_] => { found with invalid := some "u() requires a nonempty literal usage key" }
        | _ => { found with invalid := some "u() requires one literal usage key" }
      else found
  | _ => found

/-- The facts an expression refers to, in dead branches too. -/
def inspectTaskExpression (node : Node) : Except String (List String) := do
  let found := node.nodes.foldl inspectNode ⟨[], 0, 0, none⟩
  match found.invalid with
  | some e => throw e
  | none => do
      require (found.calls = found.identifiers) "u() must be called directly with a literal key"
      pure (found.keys.dedup.insertionSort (· ≤ ·))

/-! ### Evaluation -/

/-- A value of the expression language. -/
inductive Value where
  | int (n : ℤ)
  | float (q : ℚ)
  | bool (b : Bool)
  | string (s : String)
  | other
  deriving DecidableEq, Repr

/-- The request, for expressions that probe it. -/
structure RequestInput where
  headers : Dict String
  body : String

/-- No request. -/
def RequestInput.empty : RequestInput := ⟨∅, ""⟩

/-- What a task is priced from. -/
structure TaskQuoteInput where
  profile : String
  expression : String
  usage : TaskPricingFacts
  request : RequestInput
  pricingAt : ℤ
  quotaPerUnit : ℚ
  groupRatio : ℚ

/-- What the program relies on outside itself. -/
structure Host where
  /-- `parser.Parse`. -/
  parse : String → Except String Node
  /-- The type check of `expr.Compile`. -/
  compile : String → Except String Unit
  /-- The value of syntax that `eval` does not cover. -/
  evalOther : TaskQuoteInput → Node → Except String Value
  /-- The float nearest to a number. -/
  fl : ℚ → ℚ
  fl_mono : Monotone fl
  fl_nonneg : ∀ q, 0 ≤ q → 0 ≤ fl q
  /-- `ExprHashString`. -/
  exprHash : String → String
  /-- The digest of a normalized contract. -/
  contractHash : TaskFactContract → String

variable (host : Host)

/-- A value read as a float. -/
def Value.number : Value → Option ℚ
  | .int n => some (host.fl n)
  | .float q => some q
  | _ => none

/-- A fact as the accessor `u` returns it. -/
def factValue : Fact → Value
  | .number n => .float n
  | .integer n => .int n
  | .bool b => .bool b
  | .string s => .string s
  | .other => .other

/-- `+` and `*`: integers wrap around, and where one operand is a float both are. -/
def arith (onInt : ℤ → ℤ → ℤ) (onFloat : ℚ → ℚ → ℚ) (a b : Value) : Except String Value :=
  match a, b with
  | .int m, .int n => .ok (.int (Int.bmod (onInt m n) (2 ^ 64)))
  | _, _ =>
      match a.number host, b.number host with
      | some x, some y => .ok (.float (host.fl (onFloat x y)))
      | _, _ => .error "invalid operation"

/-- Division is division of floats; a quotient that is not finite is no price. -/
def divide (a b : Value) : Except String Value :=
  match a.number host, b.number host with
  | some x, some y =>
      if y = 0 then .error "expr result must be finite" else .ok (.float (host.fl (x / y)))
  | _, _ => .error "invalid operation"

/-- `==`: numbers by their value, other values by kind and value. -/
def equalValues (a b : Value) : Bool :=
  match a, b with
  | .int m, .int n => m = n
  | _, _ =>
      match a.number host, b.number host with
      | some x, some y => x = y
      | _, _ => a = b

/-- An order comparison, of numbers or of strings. -/
def compare (onInt : ℤ → ℤ → Bool) (onFloat : ℚ → ℚ → Bool) (onString : String → String → Bool)
    (a b : Value) : Except String Value :=
  match a, b with
  | .string s, .string t => .ok (.bool (onString s t))
  | .int m, .int n => .ok (.bool (onInt m n))
  | _, _ =>
      match a.number host, b.number host with
      | some x, some y => .ok (.bool (onFloat x y))
      | _, _ => .error "invalid operation"

def Value.asBool : Value → Except String Bool
  | .bool b => .ok b
  | _ => .error "invalid operation"

/-- The value of an expression for the facts of `input`. -/
def eval (input : TaskQuoteInput) : Node → Except String Value
  | .integer n => .ok (.int n)
  | .float q => .ok (.float q)
  | .string s => .ok (.string s)
  | .bool b => .ok (.bool b)
  | .unary .bang node => do
      let b ← (← eval input node).asBool
      pure (.bool !b)
  | .conditional cond exp1 exp2 => do
      let b ← (← eval input cond).asBool
      if b then eval input exp1 else eval input exp2
  | .binary operator left right =>
      match operator with
      | .and => do
          let b ← (← eval input left).asBool
          if b then do
            let b' ← (← eval input right).asBool
            pure (.bool b')
          else pure (.bool false)
      | .or => do
          let b ← (← eval input left).asBool
          if b then pure (.bool true)
          else do
            let b' ← (← eval input right).asBool
            pure (.bool b')
      | .other name => host.evalOther input (.binary (.other name) left right)
      | _ => do
          let a ← eval input left
          let b ← eval input right
          match operator with
          | .add => arith host (· + ·) (· + ·) a b
          | .mul => arith host (· * ·) (· * ·) a b
          | .div => divide host a b
          | .eq => pure (.bool (equalValues host a b))
          | .ne => pure (.bool !(equalValues host a b))
          | .gt => compare host (fun m n => n < m) (fun x y => y < x) (fun s t => t < s) a b
          | .ge => compare host (fun m n => n ≤ m) (fun x y => y ≤ x) (fun s t => t ≤ s) a b
          | .lt => compare host (fun m n => m < n) (fun x y => x < y) (fun s t => s < t) a b
          | .le => compare host (fun m n => m ≤ n) (fun x y => x ≤ y) (fun s t => s ≤ t) a b
          | _ => host.evalOther input (.binary operator left right)
  | .call callee arguments =>
      match usageKey (.call callee arguments) with
      | some key => do
          let fact ← orThrow (input.usage.lookup key) ("missing task usage key " ++ quoted key)
          pure (factValue fact)
      | none => host.evalOther input (.call callee arguments)
  | node => host.evalOther input node

/-! ### Quotes -/

/-- `TaskExpressionProfile`. -/
def taskExpressionProfile : String := "new-api-task@1"

def maxQuota : ℤ := 2 ^ 31 - 1

def minQuota : ℤ := -2 ^ 31

/-- `math.Round`: half away from zero. -/
def round (q : ℚ) : ℤ := Rounding.nearest q

/-- `QuotaRound`. -/
def quotaRound (q : ℚ) : ℤ :=
  let value := round q
  if maxQuota < value then maxQuota else if value < minQuota then minQuota else value

/-- A pure price calculation: the total before the group ratio, and the quota. -/
structure TaskQuote where
  profile : String
  amount : ℚ
  quotaBeforeGroup : ℚ
  quotaAfterGroup : ℤ
  pricingAt : ℤ
  deriving DecidableEq, Repr

/-- The zero `time.Time`, in Unix time. -/
def zeroTime : ℤ := -62135596800

def DefaultExprVersion : ℕ := 1

/-- `ParseExprVersion`. -/
def parseExprVersion (exprStr : String) : ℕ × String :=
  if Text.hasPrefix exprStr "v1:" then (1, String.ofList (exprStr.toList.drop 3))
  else (DefaultExprVersion, exprStr)

/-- `taskEntry`: the syntax tree of an expression that the billing core accepts, with the facts it
refers to. -/
def taskEntry (expression : String) : Except String (Node × List String) := do
  let (_, body) := parseExprVersion expression
  let node ← host.parse body
  let keys ← inspectTaskExpression node
  host.compile body
  pure (node, keys)

def taskUsageKeys (expression : String) : Except String (List String) := do
  let (_, keys) ← taskEntry host expression
  pure keys

/-- A normalized fact. -/
def checkNormalized (name : String) : Fact → Except String Unit
  | .number n => require (0 ≤ n ∧ n ≤ maxExact)
      ("invalid normalized numeric task fact " ++ quoted name)
  | .bool _ => .ok ()
  | .string _ => .ok ()
  | _ => .error ("invalid normalized task fact " ++ quoted name)

/-- The float an expression evaluates to. -/
def runProgram (input : TaskQuoteInput) (node : Node) : Except String ℚ := do
  let value ← eval host input node
  orThrow (value.number host) "expr result is not a float64"

def quoteTaskExpression (input : TaskQuoteInput) : Except String TaskQuote := do
  require (input.profile = taskExpressionProfile ∧ input.pricingAt ≠ zeroTime)
    "task quote requires an explicit profile and pricing time"
  require (0 < input.quotaPerUnit ∧ 0 ≤ input.groupRatio) "invalid task quote conversion context"
  Dict.checkAll checkNormalized input.usage
  let (node, _) ← taskEntry host input.expression
  let amount ← runProgram host input node
  require (0 ≤ amount) "task price must be non-negative"
  let beforeGroup := host.fl (amount * input.quotaPerUnit)
  let afterGroup := host.fl (beforeGroup * input.groupRatio)
  require (round afterGroup ≤ maxQuota) "task quote exceeds representable quota"
  pure ⟨taskExpressionProfile, amount, beforeGroup, quotaRound afterGroup, input.pricingAt⟩

end MaxApi.TaskPricing
