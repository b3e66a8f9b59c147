import MaxApi.Lib.Rounding
import MaxApi.Lib.Table
import MaxApi.Lib.Txn

/-! # Wallet top-ups

Top-up orders and the statements that settle them.  A payment that the provider reports is
credited to the wallet in the transaction that moves the order to `success`; a credit that does
not fit the wallet moves the order to `paid_reconciliation` instead.

Decimals are exact: `money` and `quotaPerUnit` are the decimal values that
`decimal.NewFromFloat` reads from the stored floats. -/

namespace MaxApi.TopUps

open Relational Relational.Txn

/-! ### Rows -/

/-- The column `status` of an order. -/
inductive TopUpStatus where
  | pending
  | success
  | failed
  | expired
  | paidReconciliation
  deriving DecidableEq, Repr

/-- The column `payment_provider`; `unset` is the empty string. -/
inductive PaymentProvider where
  | epay
  | stripe
  | creem
  | waffo
  | waffoPancake
  | balance
  | unset
  deriving DecidableEq, Repr

/-- A top-up order. -/
structure TopUp where
  id : ℤ
  userId : ℤ
  amount : ℤ
  money : ℚ
  tradeNo : String
  paymentMethod : String
  paymentProvider : PaymentProvider
  createTime : ℤ
  completeTime : ℤ
  status : TopUpStatus
  deriving DecidableEq, Repr

/-- A user, with the columns that a credit reads or writes. -/
structure User where
  id : ℤ
  quota : ℤ
  stripeCustomer : String
  deriving DecidableEq, Repr

instance : Keyed TopUp where
  Key := ℤ × String
  key r := (r.id, r.tradeNo)
  Clash a b := a.1 = b.1 ∨ a.2 = b.2
  clashDec _ _ := instDecidableOr
  clash_refl := eitherEq_refl
  clash_symm := eitherEq_symm

instance : Keyed User where
  Key := ℤ
  key r := r.id
  Clash a b := a = b
  clashDec a b := inferInstanceAs (Decidable (a = b))
  clash_refl _ := rfl
  clash_symm h := h.symm

/-- The two tables. -/
structure Store where
  users : Table User
  topUps : Table TopUp

theorem topUp_eq_of_id {t : Table TopUp} {a b : TopUp} (ha : a ∈ t) (hb : b ∈ t)
    (h : a.id = b.id) : a = b := Table.eq_of_clash ha hb (.inl h)

theorem topUp_eq_of_tradeNo {t : Table TopUp} {a b : TopUp} (ha : a ∈ t) (hb : b ∈ t)
    (h : a.tradeNo = b.tradeNo) : a = b := Table.eq_of_clash ha hb (.inr h)

theorem user_eq_of_id {t : Table User} {a b : User} (ha : a ∈ t) (hb : b ∈ t)
    (h : a.id = b.id) : a = b := Table.eq_of_clash ha hb h

/-! ### Errors -/

/-- The errors of the store; `plain` is an error without a sentinel. -/
inductive TopUpError where
  | paymentMethodMismatch
  | paymentAmountMismatch
  | paymentCurrencyMismatch
  | topUpNotFound
  | topUpStatusInvalid
  | invalidTopUpQuota
  | topUpQuotaLimitExceeded
  | topUpNeedsReconciliation
  | recordNotFound
  | plain (message : String)
  deriving DecidableEq, Repr

/-- The message of an error. -/
def TopUpError.text : TopUpError → String
  | .paymentMethodMismatch => "payment method mismatch"
  | .paymentAmountMismatch => "payment amount mismatch"
  | .paymentCurrencyMismatch => "payment currency mismatch"
  | .topUpNotFound => "topup not found"
  | .topUpStatusInvalid => "topup status invalid"
  | .invalidTopUpQuota => "invalid top-up quota"
  | .topUpQuotaLimitExceeded => "top-up quota limit exceeded"
  | .topUpNeedsReconciliation => "paid top-up requires manual reconciliation"
  | .recordNotFound => "record not found"
  | .plain message => message

/-- `preservePaymentValidationError` and the fallback of its callers: a validation error goes to
the caller, every other error is replaced by a request to retry. -/
def preservePaymentValidationError (retryLater : String) : TopUpError → TopUpError
  | .paymentAmountMismatch => .paymentAmountMismatch
  | .paymentCurrencyMismatch => .paymentCurrencyMismatch
  | .paymentMethodMismatch => .paymentMethodMismatch
  | _ => .plain retryLater

abbrev TopUpTxn := Txn Store TopUpError

/-! ### Amounts -/

def maxQuota : ℤ := 2 ^ 31 - 1

def minQuota : ℤ := -2 ^ 31

/-- `d.Round(0)`: to the nearest integer, halves away from zero. -/
def roundDecimal (d : ℚ) : ℤ := Rounding.nearest d

/-- `QuotaFromDecimalStrict`: the rounded value, unless it does not fit 32 bits. -/
def quotaFromDecimalStrict (d : ℚ) : Option ℤ :=
  if maxQuota < roundDecimal d ∨ roundDecimal d < minQuota then none else some (roundDecimal d)

/-- The quota of a Stripe order: `money` is the amount in dollars after the group ratio. -/
def stripeQuota (quotaPerUnit : ℚ) (topUp : TopUp) : Option ℤ :=
  quotaFromDecimalStrict (topUp.money * quotaPerUnit)

/-- The quota of a Creem order: `amount` is the quota itself. -/
def creemQuota (_ : ℚ) (topUp : TopUp) : Option ℤ := some topUp.amount

/-- The quota of every other order: `amount` is in dollars. -/
def unitQuota (quotaPerUnit : ℚ) (topUp : TopUp) : Option ℤ :=
  quotaFromDecimalStrict (topUp.amount * quotaPerUnit)

/-- The formula of an order's provider. -/
def providerQuota (quotaPerUnit : ℚ) (topUp : TopUp) : Option ℤ :=
  match topUp.paymentProvider with
  | .stripe => stripeQuota quotaPerUnit topUp
  | .creem => creemQuota quotaPerUnit topUp
  | _ => unitQuota quotaPerUnit topUp

/-! ### Validation of what was paid -/

/-- What the provider says about the payment. -/
structure PaymentValidation where
  hasAmount : Bool
  paidAmountMinor : ℤ
  currency : String
  expectedCurrency : String
  allowDiscount : Bool
  deriving DecidableEq, Repr

/-- `validatePaymentAgainstExpectedAmount`; the expected amount in cents is a 64-bit integer. -/
def validatePaymentAgainstExpectedAmount (expectedAmount : ℚ) (v : PaymentValidation) :
    Except TopUpError Unit :=
  let expectedMinor := Int.bmod (roundDecimal (expectedAmount * 100)) (2 ^ 64)
  if v.expectedCurrency ≠ "" ∧ v.currency ≠ "" ∧ v.currency ≠ v.expectedCurrency then
    .error .paymentCurrencyMismatch
  else if v.hasAmount = false then .ok ()
  else if v.paidAmountMinor ≤ 0 then .error .paymentAmountMismatch
  else if expectedMinor ≤ 0 then .error .paymentAmountMismatch
  else if v.allowDiscount then
    if expectedMinor < v.paidAmountMinor then .error .paymentAmountMismatch else .ok ()
  else if v.paidAmountMinor ≠ expectedMinor then .error .paymentAmountMismatch
  else .ok ()

/-- `validatePaymentAgainstTopUp`: the first validation that fails. -/
def validatePaymentAgainstTopUp (topUp : TopUp) : List PaymentValidation → Except TopUpError Unit
  | [] => .ok ()
  | v :: vs =>
      match validatePaymentAgainstExpectedAmount topUp.money v with
      | .error e => .error e
      | .ok () => validatePaymentAgainstTopUp topUp vs

/-! ### Statements -/

/-- `topUpQuotaMaxCurrent`: the largest wallet that still has room for the credit. -/
def topUpQuotaMaxCurrent (creditedQuota : ℤ) : Except TopUpError ℤ :=
  if creditedQuota ≤ 0 ∨ maxQuota ≤ creditedQuota then .error .invalidTopUpQuota
  else .ok (maxQuota - 1 - creditedQuota)

/-- The columns of a credit; `updates` are the further columns of the same statement. -/
def credit (creditedQuota : ℤ) (stripeCustomer : Option String) : SetClause User :=
  ⟨fun u => { u with
    quota := u.quota + creditedQuota, stripeCustomer := stripeCustomer.getD u.stripeCustomer },
    keeps fun _ => rfl⟩

/-- The wallet has room for the credit. -/
def HasRoom (userId maxCurrent : ℤ) (u : User) : Prop := u.id = userId ∧ u.quota ≤ maxCurrent

instance (userId maxCurrent : ℤ) : DecidablePred (HasRoom userId maxCurrent) :=
  fun _ => instDecidableAnd

/-- Why the guard of a credit matched no row. -/
def creditRefused (users : Table User) (userId : ℤ) : TopUpError :=
  if users.affected (·.id = userId) = 0 then .recordNotFound else .topUpQuotaLimitExceeded

/-- `creditTopUpQuota`: the ceiling and the increment are one statement. -/
def creditTopUpQuota (userId creditedQuota : ℤ) (stripeCustomer : Option String) :
    TopUpTxn Unit := do
  let maxCurrent ← Txn.ofExcept (topUpQuotaMaxCurrent creditedQuota)
  let s ← get
  require (s.users.affected (HasRoom userId maxCurrent) = 1) (creditRefused s.users userId)
  modify fun s =>
    { s with
      users := s.users.update (HasRoom userId maxCurrent) (credit creditedQuota stripeCustomer) }

/-- The order is still in the expected status. -/
def InStatus (id : ℤ) (status : TopUpStatus) (r : TopUp) : Prop := r.id = id ∧ r.status = status

instance (id : ℤ) (status : TopUpStatus) : DecidablePred (InStatus id status) :=
  fun _ => instDecidableAnd

/-- A guarded update of one order, which must match. -/
def updateTopUp (topUp : TopUp) (expectedStatus : TopUpStatus) (m : SetClause TopUp) :
    TopUpTxn Unit := do
  require (topUp.id ≠ 0) .topUpNotFound
  let s ← get
  require (s.topUps.affected (InStatus topUp.id expectedStatus) = 1) .topUpStatusInvalid
  modify fun s => { s with topUps := s.topUps.update (InStatus topUp.id expectedStatus) m }

/-- The columns that `updatePendingTopUpStatusTx` writes. -/
def statusSet (status : TopUpStatus) : SetClause TopUp :=
  ⟨fun r => { r with status := status }, keeps fun _ => rfl⟩

/-- The columns that a settled payment writes. -/
def statusCompleted (status : TopUpStatus) (now : ℤ) : SetClause TopUp :=
  ⟨fun r => { r with status := status, completeTime := now }, keeps fun _ => rfl⟩

/-- `updatePendingTopUpStatusTx`. -/
def updatePendingTopUpStatusTx (topUp : TopUp) (targetStatus : TopUpStatus) : TopUpTxn Unit :=
  updateTopUp topUp .pending (statusSet targetStatus)

/-- `markTopUpSuccessFromStatusTx`. -/
def markTopUpSuccessFromStatusTx (topUp : TopUp) (expectedStatus : TopUpStatus) (now : ℤ) :
    TopUpTxn Unit :=
  updateTopUp topUp expectedStatus (statusCompleted .success now)

/-- `markPendingTopUpSuccessTx`. -/
def markPendingTopUpSuccessTx (topUp : TopUp) (now : ℤ) : TopUpTxn Unit :=
  markTopUpSuccessFromStatusTx topUp .pending now

/-- `markPendingTopUpPaidReconciliationTx`. -/
def markPendingTopUpPaidReconciliationTx (topUp : TopUp) (now : ℤ) : TopUpTxn Unit :=
  updateTopUp topUp .pending (statusCompleted .paidReconciliation now)

/-- What follows the credit: the order succeeds, or it goes to reconciliation when the credit was
refused for lack of room.  The result says whether it needs reconciliation. -/
def recordPaidTopUp (topUp : TopUp) (credited : Option Unit) (now : ℤ) : TopUpTxn Bool :=
  match credited with
  | some () => do
      markPendingTopUpSuccessTx topUp now
      pure false
  | none => do
      markPendingTopUpPaidReconciliationTx topUp now
      pure true

/-- `settlePaidTopUpTx`. -/
def settlePaidTopUpTx (topUp : TopUp) (creditedQuota : ℤ) (stripeCustomer : Option String)
    (now : ℤ) : TopUpTxn Bool := do
  let credited ← Txn.recover (creditTopUpQuota topUp.userId creditedQuota stripeCustomer)
    (· = .topUpQuotaLimitExceeded)
  recordPaidTopUp topUp credited now

end MaxApi.TopUps
