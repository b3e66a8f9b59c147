import MaxApi.TaskPricing.Expression

/-! # Upper bounds of a task's charge

The shape of expressions whose price can only grow with the actual numeric facts, and the quote at
the upper endpoint of these facts. -/

namespace MaxApi.TaskPricing

open Checked

def errExposureUnproven : String := "task charge upper bound cannot be proved"

def chargeBoundMethod : String := "nonnegative-monotone-endpoint@1"

/-! ### The shape of a bounded expression -/

/-- A literal, or a fact that is frozen at submission. -/
def frozenScalar (c : TaskFactContract) : Node → Bool
  | .integer _ => true
  | .float _ => true
  | .string _ => true
  | .bool _ => true
  | node =>
      match usageKey node with
      | some key => (policyOf c key).phase = .request
      | none => false

/-- A condition on facts that are frozen at submission. -/
def frozenCondition (c : TaskFactContract) : Node → Bool
  | .bool _ => true
  | .call callee arguments =>
      match usageKey (.call callee arguments) with
      | some key => (policyOf c key).phase = .request ∧ typeOf c key = .boolean
      | none => false
  | .unary operator node => operator = .bang && frozenCondition c node
  | .binary operator left right =>
      match operator with
      | .and => frozenCondition c left && frozenCondition c right
      | .or => frozenCondition c left && frozenCondition c right
      | .eq => frozenScalar c left && frozenScalar c right
      | .ne => frozenScalar c left && frozenScalar c right
      | .gt => frozenScalar c left && frozenScalar c right
      | .ge => frozenScalar c left && frozenScalar c right
      | .lt => frozenScalar c left && frozenScalar c right
      | .le => frozenScalar c left && frozenScalar c right
      | _ => false
  | _ => false

/-- A positive literal. -/
def positiveLiteral : Node → Bool
  | .integer n => 0 < n
  | .float q => 0 < q
  | _ => false

/-- Whether the expression is of the bounded shape, and whether its value is a float. -/
def chargeShape (c : TaskFactContract) : Node → Bool × Bool
  | .integer n => (0 ≤ n ∧ n ≤ 2 ^ 53 - 1, false)
  | .float q => (0 ≤ q, true)
  | .call callee arguments =>
      match usageKey (.call callee arguments) with
      | some key => (typeOf c key = .number, true)
      | none => (false, true)
  | .binary operator left right =>
      let (l, leftFloat) := chargeShape c left
      let (r, rightFloat) := chargeShape c right
      match operator with
      | .add => (l && r && (leftFloat || rightFloat), true)
      | .mul => (l && r && (leftFloat || rightFloat), true)
      | .div => (positiveLiteral right && l && r && (leftFloat || rightFloat), true)
      | _ => (false, false)
  | .conditional cond exp1 exp2 =>
      let (first, firstFloat) := chargeShape c exp1
      let (second, secondFloat) := chargeShape c exp2
      (frozenCondition c cond && first && second, firstFloat && secondFloat)
  | _ => (false, false)

def monotoneCharge (c : TaskFactContract) (node : Node) : Bool := (chargeShape c node).1

/-! ### The upper endpoint -/

/-- The value of an actual fact at the endpoint: its maximum where the expression refers to it. -/
def endpointFact (c : TaskFactContract) (referenced : List String) (name : String)
    (p : TaskFactPolicy) : Except String (Option Fact) :=
  if p.phase = .request then .ok none
  else match c.usageSchema.lookup name with
    | none => .ok none
    | some field =>
        match field.type with
        | .number =>
            if name ∈ referenced then
              match p.max with
              | none => .error (errExposureUnproven ++ ": actual fact " ++ quoted name ++
                  " has no trusted maximum")
              | some hi => .ok (some (.number (if p.integer then ⌊hi⌋ else hi)))
            else
              let value := p.min.getD 0
              .ok (some (.number (if p.integer then ⌈value⌉ else value)))
        | .boolean => .ok (some (.bool false))
        | .enum =>
            match field.enum with
            | [] => .error "index out of range"
            | value :: _ => .ok (some (.string value))
        | .other _ => .ok none

variable (host : Host)

structure ExposureInput where
  profile : String
  expression : String
  contract : TaskFactContract
  submit : TaskPricingFacts
  pricingAt : ℤ
  quotaPerUnit : ℚ
  groupRatio : ℚ
  reservationFloor : ℤ

/-- A charge-domain bound: the quotes of the estimate and of the endpoint. -/
structure ExposureQuote where
  method : String
  contractDigest : String
  estimate : TaskQuote
  maximum : TaskQuote
  requiredReservationQuota : ℤ
  endpointFacts : TaskPricingFacts

/-- Every referenced fact is declared. -/
def validateExpressionContract (expression : String) (c : TaskFactContract) :
    Except String Unit := do
  let c ← normalizeContract c
  let keys ← taskUsageKeys host expression
  keys.forM fun key => require (c.usageSchema.lookup key ≠ none)
    ("task price references undeclared fact " ++ quoted key)

def contractDigest (c : TaskFactContract) : Except String String := do
  let c ← normalizeContract c
  pure (host.contractHash c)

/-- A free group is exempt from the floor. -/
def reservationQuota (estimate : ℤ) (groupRatio : ℚ) (floor : ℤ) : ℤ :=
  if 0 < groupRatio then max floor estimate else estimate

def quoteExposure (input : ExposureInput) : Except String ExposureQuote := do
  require (input.profile = taskExpressionProfile)
    "explicit task expression profile required for a charge upper bound"
  require (0 ≤ input.reservationFloor ∧ input.reservationFloor ≤ maxQuota)
    "invalid task reservation floor"
  let c ← normalizeContract input.contract
  validateExpressionContract host input.expression c
  let node ← (host.parse (parseExprVersion input.expression).2).mapError fun _ =>
    errExposureUnproven
  require (monotoneCharge c node) errExposureUnproven
  let frozen ← submitFacts c input.submit
  let referenced ← taskUsageKeys host input.expression
  let endpoint ← Dict.collect (endpointFact c referenced) c.fieldPolicy
  let endpoint ← (completeFacts c frozen endpoint).mapError fun e =>
    errExposureUnproven ++ ": " ++ e
  let quote := fun facts => quoteTaskExpression host
    ⟨input.profile, input.expression, facts, .empty, input.pricingAt, input.quotaPerUnit,
      input.groupRatio⟩
  let estimate ← quote frozen
  let maximum ← quote endpoint
  require (estimate.quotaAfterGroup ≤ maximum.quotaAfterGroup) errExposureUnproven
  let digest ← contractDigest host c
  pure ⟨chargeBoundMethod, digest, estimate, maximum,
    reservationQuota maximum.quotaAfterGroup input.groupRatio input.reservationFloor, endpoint⟩

end MaxApi.TaskPricing
