import MaxApi.Lib.Table
import MaxApi.Lib.Txn
import MaxApi.Billing.Errors

/-! # The billing tables

The rows that the settlement store, the subscription ledger and the task store share, with the
columns that some modelled function reads or writes.  Amounts and identifiers are integers; the
quota columns are 32-bit in supported deployments and every amount is saturated to that range
before it reaches the store, so the `int64` arithmetic of the source is exact.  Rows that are
soft-deleted are absent, as every query of the source leaves them out. -/

namespace MaxApi.Billing

open Relational

/-! ### Enumerations -/

/-- The column `source`; `other` is any value the store does not support. -/
inductive FundingSource where
  | wallet
  | subscription
  | other (value : String)
  deriving DecidableEq, Repr

/-- The column as text, for error messages. -/
def FundingSource.text : FundingSource → String
  | .wallet => "wallet"
  | .subscription => "subscription"
  | .other value => value

/-- The column `status` of a settlement; `empty` is the legacy value, read as applied. -/
inductive SettlementStatus where
  | empty
  | pending
  | applied
  | manual
  | other (value : String)
  deriving DecidableEq, Repr

/-- The column as text, for error messages. -/
def SettlementStatus.text : SettlementStatus → String
  | .empty => ""
  | .pending => "pending"
  | .applied => "applied"
  | .manual => "manual"
  | .other value => value

/-- The column `effect_status` of a settlement. -/
inductive EffectStatus where
  | none
  | pending
  | applying
  | applied
  deriving DecidableEq, Repr

/-- The column as text, for error messages. -/
def EffectStatus.text : EffectStatus → String
  | .none => ""
  | .pending => "pending"
  | .applying => "applying"
  | .applied => "applied"

/-- The column `status` of a user subscription. -/
inductive SubscriptionStatus where
  | active
  | expired
  | cancelled
  deriving DecidableEq, Repr

/-- The column `status` of a subscription pre-consume record. -/
inductive PreConsumeStatus where
  | consumed
  | refunded
  deriving DecidableEq, Repr

/-! ### Rows -/

/-- A user: the wallet and the usage counters. -/
structure User where
  id : ℤ
  username : String
  quota : ℤ
  usedQuota : ℤ
  requestCount : ℤ
  group : String
  deriving DecidableEq, Repr

/-- An API token with a quota of its own. -/
structure Token where
  id : ℤ
  userId : ℤ
  key : String
  name : String
  remainQuota : ℤ
  usedQuota : ℤ
  unlimitedQuota : Bool
  accessedTime : ℤ
  deriving DecidableEq, Repr

/-- A channel: only its usage counter takes part in billing. -/
structure Channel where
  id : ℤ
  usedQuota : ℤ
  deriving DecidableEq, Repr

/-- The billed side of an asynchronous task. -/
structure TaskRow where
  id : ℤ
  quota : ℤ
  updatedAt : ℤ
  deriving DecidableEq, Repr

/-- A subscription a user holds. -/
structure UserSubscription where
  id : ℤ
  userId : ℤ
  planId : ℤ
  amountTotal : ℤ
  amountUsed : ℤ
  startTime : ℤ
  endTime : ℤ
  status : SubscriptionStatus
  lastResetTime : ℤ
  nextResetTime : ℤ
  upgradeGroup : String
  prevUserGroup : String
  downgradeGroup : String
  allowWalletOverflow : Bool
  updatedAt : ℤ
  deriving DecidableEq, Repr

/-- The reservation one request made on a subscription. -/
structure SubscriptionPreConsumeRecord where
  id : ℤ
  requestId : String
  userId : ℤ
  tokenId : ℤ
  userSubscriptionId : ℤ
  subscriptionLastResetTime : ℤ
  modelName : String
  quotaType : ℤ
  preConsumed : ℤ
  status : PreConsumeStatus
  createdAt : ℤ
  updatedAt : ℤ
  deriving DecidableEq, Repr

/-- The funding source a request has been bound to. -/
structure BillingPreConsumeSelection where
  requestID : String
  source : FundingSource
  userID : ℤ
  tokenID : ℤ
  modelName : String
  requestedQuota : ℤ
  effectiveQuota : ℤ
  createdAt : ℤ
  deriving DecidableEq, Repr

/-- The durable idempotency record of a balance mutation. -/
structure BillingSettlement where
  id : ℤ
  operationKey : String
  source : FundingSource
  userID : ℤ
  subscriptionID : ℤ
  tokenID : ℤ
  fundingDelta : ℤ
  appliedFundingDelta : ℤ
  tokenDelta : ℤ
  appliedTokenDelta : ℤ
  taskID : ℤ
  taskQuota : ℤ
  taskQuotaTarget : ℤ
  status : SettlementStatus
  attempts : ℤ
  lastError : String
  nextAttempt : ℤ
  revision : ℤ
  subscriptionPreConsumeRequestID : String
  finalizeSubscriptionPreConsume : Bool
  allowMissingToken : Bool
  manualOnFailure : Bool
  preConsumeRequestID : String
  preConsumeModelName : String
  preConsumeRequestedQuota : ℤ
  preConsumeEffectiveQuota : ℤ
  effectPayload : String
  effectStatus : EffectStatus
  reconciliationReviewedAt : ℤ
  reconciliationReviewedBy : ℤ
  reconciliationReviewNote : String
  userBlockingOverride : Option Bool
  createdAt : ℤ
  updatedAt : ℤ
  deriving DecidableEq, Repr

/-! ### Unique indexes -/

instance : Keyed User where
  Key := ℤ
  key := User.id
  Clash a b := a = b
  clashDec := inferInstance
  clash_refl _ := rfl
  clash_symm := Eq.symm

instance : Keyed Token where
  Key := ℤ
  key := Token.id
  Clash a b := a = b
  clashDec := inferInstance
  clash_refl _ := rfl
  clash_symm := Eq.symm

instance : Keyed Channel where
  Key := ℤ
  key := Channel.id
  Clash a b := a = b
  clashDec := inferInstance
  clash_refl _ := rfl
  clash_symm := Eq.symm

instance : Keyed TaskRow where
  Key := ℤ
  key := TaskRow.id
  Clash a b := a = b
  clashDec := inferInstance
  clash_refl _ := rfl
  clash_symm := Eq.symm

instance : Keyed UserSubscription where
  Key := ℤ
  key := UserSubscription.id
  Clash a b := a = b
  clashDec := inferInstance
  clash_refl _ := rfl
  clash_symm := Eq.symm

instance : Keyed SubscriptionPreConsumeRecord where
  Key := ℤ × String
  key r := (r.id, r.requestId)
  Clash a b := a.1 = b.1 ∨ a.2 = b.2
  clashDec := inferInstance
  clash_refl := eitherEq_refl
  clash_symm := eitherEq_symm

instance : Keyed BillingPreConsumeSelection where
  Key := String
  key := BillingPreConsumeSelection.requestID
  Clash a b := a = b
  clashDec := inferInstance
  clash_refl _ := rfl
  clash_symm := Eq.symm

/-- Settlements are unique both by primary key and by operation key. -/
instance : Keyed BillingSettlement where
  Key := ℤ × String
  key r := (r.id, r.operationKey)
  Clash a b := a.1 = b.1 ∨ a.2 = b.2
  clashDec := inferInstance
  clash_refl := eitherEq_refl
  clash_symm := eitherEq_symm

/-! ### Sums at a primary key -/

theorem users_sumAt {t : Table User} {u : User} (hu : u ∈ t) (g : User → ℤ) :
    t.sumAt User.id u.id g = g u :=
  Table.sumAt_eq (fun _ ha _ hb hab => Table.eq_of_clash ha hb hab) hu

theorem tokens_sumAt {t : Table Token} {u : Token} (hu : u ∈ t) (g : Token → ℤ) :
    t.sumAt Token.id u.id g = g u :=
  Table.sumAt_eq (fun _ ha _ hb hab => Table.eq_of_clash ha hb hab) hu

theorem channels_sumAt {t : Table Channel} {u : Channel} (hu : u ∈ t) (g : Channel → ℤ) :
    t.sumAt Channel.id u.id g = g u :=
  Table.sumAt_eq (fun _ ha _ hb hab => Table.eq_of_clash ha hb hab) hu

theorem tasks_sumAt {t : Table TaskRow} {u : TaskRow} (hu : u ∈ t) (g : TaskRow → ℤ) :
    t.sumAt TaskRow.id u.id g = g u :=
  Table.sumAt_eq (fun _ ha _ hb hab => Table.eq_of_clash ha hb hab) hu

theorem userSubscriptions_sumAt {t : Table UserSubscription} {u : UserSubscription} (hu : u ∈ t)
    (g : UserSubscription → ℤ) : t.sumAt UserSubscription.id u.id g = g u :=
  Table.sumAt_eq (fun _ ha _ hb hab => Table.eq_of_clash ha hb hab) hu

/-! ### The database -/

/-- The tables of the main database that take part in billing. -/
structure Tables where
  users : Table User
  tokens : Table Token
  channels : Table Channel
  tasks : Table TaskRow
  userSubscriptions : Table UserSubscription
  subscriptionPreConsumeRecords : Table SubscriptionPreConsumeRecord
  billingPreConsumeSelections : Table BillingPreConsumeSelection
  billingSettlements : Table BillingSettlement

/-- A body of work on the main database. -/
abbrev Tx := Txn Tables Failure

/-- A database without rows. -/
def Tables.empty : Tables where
  users := .empty
  tokens := .empty
  channels := .empty
  tasks := .empty
  userSubscriptions := .empty
  subscriptionPreConsumeRecords := .empty
  billingPreConsumeSelections := .empty
  billingSettlements := .empty

end MaxApi.Billing
