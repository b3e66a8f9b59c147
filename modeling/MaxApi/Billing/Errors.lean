import Mathlib.Data.Int.Basic

/-! # Errors of the billing store

The store's errors are matched in two ways: by the sentinel they wrap (`errors.Is`) and by the
marker `permanentBillingSettlementError`, which decides between a retry and a manual review.  The
message is kept as well, since a failed settlement persists it in `last_error` and a later
promotion matches on its prefix. -/

namespace MaxApi.Billing

/-- The errors that callers recognise with `errors.Is`; `other` is an error without a sentinel. -/
inductive Sentinel where
  | manualReview
  | taskConflict
  | operationConflict
  | recordNotDurable
  | reviewConflict
  | completionRequired
  | subscriptionRefundClamped
  | subscriptionSettlementUnbound
  | subscriptionSettlementPeriodChanged
  | subscriptionQuotaInsufficient
  | subscriptionResetPendingBilling
  | userNotFound
  | userQuotaInsufficient
  | tokenQuotaInsufficient
  | recordNotFound
  | other
  deriving DecidableEq, Repr

/-- The message of a sentinel error. -/
def Sentinel.text : Sentinel → String
  | .manualReview => "billing settlement requires manual review"
  | .taskConflict => "billing settlement task quota conflict"
  | .operationConflict => "billing settlement operation conflict"
  | .recordNotDurable => "billing settlement record was not durably created"
  | .reviewConflict => "billing settlement is no longer reviewable"
  | .completionRequired => "manual task settlement requires financial completion"
  | .subscriptionRefundClamped => "subscription refund was clamped"
  | .subscriptionSettlementUnbound =>
      "subscription settlement is not bound to its pre-consume request"
  | .subscriptionSettlementPeriodChanged =>
      "subscription settlement crossed a quota reset period"
  | .subscriptionQuotaInsufficient => "subscription quota insufficient"
  | .subscriptionResetPendingBilling =>
      "subscription has unsettled requests; retry quota reset after settlement"
  | .userNotFound => "user not found"
  | .userQuotaInsufficient => "user quota is not enough"
  | .tokenQuotaInsufficient => "token quota is not enough"
  | .recordNotFound => "record not found"
  | .other => ""

/-- An error value: what it wraps, its message, and whether it is marked permanent. -/
structure Failure where
  sentinel : Sentinel
  text : String
  permanent : Bool
  deriving DecidableEq, Repr

/-- The bare sentinel error. -/
def Sentinel.error (s : Sentinel) : Failure := ⟨s, s.text, false⟩

/-- `fmt.Errorf("%w: …", sentinel, …)`. -/
def Sentinel.wrap (s : Sentinel) (detail : String) : Failure := ⟨s, s.text ++ ": " ++ detail, false⟩

/-- `errors.New` and errors of the database driver. -/
def plainError (text : String) : Failure := ⟨.other, text, false⟩

/-- Mark an error as one that no retry can repair. -/
def permanentBillingSettlement (e : Failure) : Failure := { e with permanent := true }

/-- Whether the failure of a settlement sends it to manual review. -/
def isPermanentBillingSettlementError (e : Failure) : Bool := e.permanent

end MaxApi.Billing
