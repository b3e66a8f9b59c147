import MaxApi.TopUp.Store

/-! # Provider callbacks

The five callbacks repeat one transaction: find the order, check the provider and the status,
validate what was paid, convert it to quota and settle.  A `Gateway` is what a callback has of its
own; each callback is the common body at its gateway. -/

namespace MaxApi.TopUps

open Relational Relational.Txn

/-! ### The common body -/

/-- What one provider's callback does not share with the others. -/
structure Gateway where
  provider : PaymentProvider
  /-- The error for an empty trade number. -/
  missingOrder : TopUpError
  /-- The error for an unknown trade number. -/
  orderNotFound : TopUpError
  /-- The error for an order that is closed. -/
  statusError : TopUpError
  /-- The error for an amount that is not a valid credit. -/
  invalidQuota : TopUpError
  /-- The message for every failure that is not a validation error. -/
  retryLater : String
  /-- The conversion of the order to quota. -/
  creditedQuota : ℚ → TopUp → Option ℤ

/-- The arguments of one call: the validations of the webhook, the clock and the current value of
`QuotaPerUnit`, and the columns a callback writes besides. -/
structure Payment where
  validations : List PaymentValidation
  quotaPerUnit : ℚ
  now : ℤ
  stripeCustomer : Option String := none
  actualPaymentMethod : String := ""

/-- The column that `RechargeEpay` corrects. -/
def paymentMethodSet (method : String) : SetClause TopUp :=
  ⟨fun r => { r with paymentMethod := method }, keeps fun _ => rfl⟩

/-- The payment method of the webhook replaces the one of the order. -/
def correctPaymentMethod (topUp : TopUp) (method : String) : TopUpTxn Unit := do
  if method ≠ "" ∧ topUp.paymentMethod ≠ method then
    let s ← get
    require (s.topUps.affected (InStatus topUp.id .pending) = 1) .topUpStatusInvalid
    modify fun s =>
      { s with topUps := s.topUps.update (InStatus topUp.id .pending) (paymentMethodSet method) }
  else pure ()

/-- A pending order: validate, convert and settle. -/
def settlePendingTopUp (g : Gateway) (topUp : TopUp) (p : Payment) : TopUpTxn Bool := do
  Txn.ofExcept (validatePaymentAgainstTopUp topUp p.validations)
  let creditedQuota ← orThrow (g.creditedQuota p.quotaPerUnit topUp) g.invalidQuota
  require (0 < creditedQuota) g.invalidQuota
  correctPaymentMethod topUp p.actualPaymentMethod
  settlePaidTopUpTx topUp creditedQuota p.stripeCustomer p.now

/-- What a callback does with an order of its own provider; the result says whether the order
needs reconciliation. -/
def rechargeTopUp (g : Gateway) (topUp : TopUp) (p : Payment) : TopUpTxn Bool :=
  match topUp.status with
  | .success => pure false
  | .paidReconciliation => pure true
  | .pending => settlePendingTopUp g topUp p
  | .failed => throw g.statusError
  | .expired => throw g.statusError

/-- The body of the transaction. -/
def rechargeTx (g : Gateway) (tradeNo : String) (p : Payment) : TopUpTxn Bool := do
  let s ← get
  let topUp ← orThrow (s.topUps.first? (·.tradeNo = tradeNo)) g.orderNotFound
  require (topUp.paymentProvider = g.provider) .paymentMethodMismatch
  rechargeTopUp g topUp p

/-- What the caller of a callback is told. -/
def reported (g : Gateway) : Except TopUpError Bool → Except TopUpError Unit
  | .error e => .error (preservePaymentValidationError g.retryLater e)
  | .ok true => .error .topUpNeedsReconciliation
  | .ok false => .ok ()

/-- A callback. -/
def rechargeWith (g : Gateway) (tradeNo : String) (p : Payment) (s : Store) :
    Except TopUpError Unit × Store :=
  if tradeNo = "" then (.error g.missingOrder, s)
  else
    let (r, s') := transaction (rechargeTx g tradeNo p) s
    (reported g r, s')

/-! ### The callbacks -/

/-- `Recharge`, the Stripe callback. -/
def stripeGateway : Gateway where
  provider := .stripe
  missingOrder := .plain "未提供支付单号"
  orderNotFound := .plain "充值订单不存在"
  statusError := .plain "充值订单状态错误"
  invalidQuota := .plain "无效的充值额度"
  retryLater := "充值失败，请稍后重试"
  creditedQuota := stripeQuota

def Recharge (referenceId customerId : String) (validations : List PaymentValidation)
    (quotaPerUnit : ℚ) (now : ℤ) : Store → Except TopUpError Unit × Store :=
  rechargeWith stripeGateway referenceId
    { validations, quotaPerUnit, now, stripeCustomer := some customerId }

/-- `RechargeEpay`: the only callback that corrects the payment method. -/
def epayGateway : Gateway where
  provider := .epay
  missingOrder := .plain "missing payment order"
  orderNotFound := .plain "top-up order not found"
  statusError := .topUpStatusInvalid
  invalidQuota := .plain "invalid top-up quota"
  retryLater := "top-up failed, please retry later"
  creditedQuota := unitQuota

def RechargeEpay (tradeNo actualPaymentMethod : String) (validations : List PaymentValidation)
    (quotaPerUnit : ℚ) (now : ℤ) : Store → Except TopUpError Unit × Store :=
  rechargeWith epayGateway tradeNo { validations, quotaPerUnit, now, actualPaymentMethod }

/-- `RechargeCreem`: the amount of the order is the quota. -/
def creemGateway : Gateway := { stripeGateway with provider := .creem, creditedQuota := creemQuota }

def RechargeCreem (referenceId : String) (validations : List PaymentValidation)
    (quotaPerUnit : ℚ) (now : ℤ) : Store → Except TopUpError Unit × Store :=
  rechargeWith creemGateway referenceId { validations, quotaPerUnit, now }

/-- `RechargeWaffo`. -/
def waffoGateway : Gateway := { stripeGateway with provider := .waffo, creditedQuota := unitQuota }

def RechargeWaffo (tradeNo : String) (validations : List PaymentValidation)
    (quotaPerUnit : ℚ) (now : ℤ) : Store → Except TopUpError Unit × Store :=
  rechargeWith waffoGateway tradeNo { validations, quotaPerUnit, now }

/-- `RechargeWaffoPancake`. -/
def waffoPancakeGateway : Gateway :=
  { stripeGateway with provider := .waffoPancake, creditedQuota := unitQuota }

def RechargeWaffoPancake (tradeNo : String) (validations : List PaymentValidation)
    (quotaPerUnit : ℚ) (now : ℤ) : Store → Except TopUpError Unit × Store :=
  rechargeWith waffoPancakeGateway tradeNo { validations, quotaPerUnit, now }

/-! ### Closing and completing an order -/

/-- The statuses with which callers close an unpaid order. -/
inductive Closing where
  | failed
  | expired
  deriving DecidableEq, Repr

/-- The closing as the value of the column. -/
def Closing.status : Closing → TopUpStatus
  | .failed => .failed
  | .expired => .expired

/-- The body of `UpdatePendingTopUpStatus`; without an expected provider any order will do. -/
def closeTx (tradeNo : String) (expectedPaymentProvider : PaymentProvider)
    (targetStatus : TopUpStatus) : TopUpTxn Unit := do
  let s ← get
  let topUp ← orThrow (s.topUps.first? (·.tradeNo = tradeNo)) .topUpNotFound
  require (expectedPaymentProvider = .unset ∨ topUp.paymentProvider = expectedPaymentProvider)
    .paymentMethodMismatch
  require (topUp.status = .pending) .topUpStatusInvalid
  updatePendingTopUpStatusTx topUp targetStatus

/-- `UpdatePendingTopUpStatus`. -/
def UpdatePendingTopUpStatus (tradeNo : String) (expectedPaymentProvider : PaymentProvider)
    (targetStatus : TopUpStatus) (s : Store) : Except TopUpError Unit × Store :=
  if tradeNo = "" then (.error (.plain "未提供支付单号"), s)
  else transaction (closeTx tradeNo expectedPaymentProvider targetStatus) s

/-- Credit an order that an administrator vouches for. -/
def completeTopUp (topUp : TopUp) (quotaPerUnit : ℚ) (now : ℤ) : TopUpTxn Unit := do
  require (topUp.status = .pending ∨ topUp.status = .paidReconciliation)
    (.plain "订单状态不支持补单")
  let quotaToAdd ← orThrow (providerQuota quotaPerUnit topUp) .invalidTopUpQuota
  require (0 < quotaToAdd) (.plain "无效的充值额度")
  creditTopUpQuota topUp.userId quotaToAdd none
  markTopUpSuccessFromStatusTx topUp topUp.status now

/-- The body of `ManualCompleteTopUp`. -/
def completeTx (tradeNo : String) (quotaPerUnit : ℚ) (now : ℤ) : TopUpTxn Unit := do
  let s ← get
  let topUp ← orThrow (s.topUps.first? (·.tradeNo = tradeNo)) (.plain "充值订单不存在")
  if topUp.status = .success then pure () else completeTopUp topUp quotaPerUnit now

/-- `ManualCompleteTopUp`. -/
def ManualCompleteTopUp (tradeNo : String) (quotaPerUnit : ℚ) (now : ℤ) (s : Store) :
    Except TopUpError Unit × Store :=
  if tradeNo = "" then (.error (.plain "未提供订单号"), s)
  else transaction (completeTx tradeNo quotaPerUnit now) s

end MaxApi.TopUps
