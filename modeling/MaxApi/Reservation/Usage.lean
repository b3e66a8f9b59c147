import MaxApi.Lib.Int64
import MaxApi.Lib.System
import MaxApi.Reservation.PreConsume

/-! # The writers of a subscription's usage

The usage of a subscription is written by pre-consumes, by movements of usage (alone, or for a
settlement), by refunds, and by resets.  A movement takes any 64-bit delta, so here its sums are
64-bit ones; the exact ones of the settlements agree with them as long as no sum wraps. -/

namespace MaxApi.Reservation

open Relational MaxApi.Billing MaxApi.Subscription Int64Range

/-! ### Movements in 64 bits -/

theorem addsUsage_keeps (delta now : ℤ) (u : UserSubscription) :
    Keyed.key { u with amountUsed := u.amountUsed + delta, updatedAt := now } = Keyed.key u := rfl

theorem takesUsage_keeps (delta now : ℤ) (u : UserSubscription) :
    Keyed.key { u with
      amountUsed := if u.amountUsed + delta < 0 then 0 else u.amountUsed + delta
      updatedAt := now } = Keyed.key u := rfl

/-- `postConsumeUserSubscriptionDeltaTx`, with the sums of the process in 64 bits.  The sums of the
update are the database's, which does not wrap. -/
def postConsumeUserSubscriptionDelta64Tx (userSubscriptionId delta now : ℤ) : Tx ℤ := do
  let db ← get
  let sub ← Txn.orThrow (db.userSubscriptions.first? (·.id = userSubscriptionId))
    Sentinel.recordNotFound.error
  let newUsed := wrap (sub.amountUsed + delta)
  let insufficient := Sentinel.subscriptionQuotaInsufficient.wrap
    ("used=" ++ toString newUsed ++ " total=" ++ toString sub.amountTotal)
  if 0 < delta then
    Txn.require (¬ (0 < sub.amountTotal ∧ sub.amountTotal < newUsed)) insufficient
    Txn.require (db.userSubscriptions.affected (fun u => u.id = userSubscriptionId ∧
      (0 < sub.amountTotal → u.amountUsed + delta ≤ u.amountTotal)) = 1) insufficient
    modify fun db => { db with
      userSubscriptions := db.userSubscriptions.update (fun u => u.id = userSubscriptionId ∧
          (0 < sub.amountTotal → u.amountUsed + delta ≤ u.amountTotal))
        ⟨fun u => { u with amountUsed := u.amountUsed + delta, updatedAt := now },
          addsUsage_keeps delta now⟩ }
    pure delta
  else if sub.amountUsed ≤ 0 then pure 0
  else
    Txn.require (db.userSubscriptions.affected (·.id = userSubscriptionId) = 1)
      (plainError "subscription update conflict")
    modify fun db => { db with
      userSubscriptions := db.userSubscriptions.update (fun u => u.id = userSubscriptionId)
        ⟨fun u => { u with
          amountUsed := if u.amountUsed + delta < 0 then 0 else u.amountUsed + delta
          updatedAt := now }, takesUsage_keeps delta now⟩ }
    pure (if sub.amountUsed < wrap (-delta) then wrap (-sub.amountUsed) else delta)

/-- `PostConsumeUserSubscriptionDelta`. -/
def postConsumeUserSubscriptionDelta (userSubscriptionId delta now : ℤ) : Tx ℤ := do
  Txn.require (0 < userSubscriptionId) (plainError "invalid userSubscriptionId")
  if delta = 0 then pure 0 else postConsumeUserSubscriptionDelta64Tx userSubscriptionId delta now

/-- `applySubscriptionDeltaTx`, with the sums of the process in 64 bits. -/
def applySubscriptionDelta64Tx (input : Settlement.BillingSettlementInput) (now : ℤ) : Tx ℤ := do
  let requestID := input.subscriptionPreConsumeRequestID
  Txn.require (requestID ≠ "")
    (permanentBillingSettlement Sentinel.subscriptionSettlementUnbound.error)
  let db ← get
  let record ← Txn.orThrow (db.subscriptionPreConsumeRecords.first? (·.requestId = requestID))
    (permanentBillingSettlement
      (Sentinel.subscriptionSettlementUnbound.wrap ("request=" ++ requestID)))
  Txn.require (0 < input.subscriptionID ∧ record.userSubscriptionId = input.subscriptionID)
    (permanentBillingSettlement
      (plainError ("subscription settlement identity mismatch: request=" ++ requestID)))
  Txn.require (record.userId = input.userID ∧
      (input.tokenDelta ≠ 0 → record.tokenId = input.tokenID))
    (permanentBillingSettlement
      (plainError ("subscription settlement owner identity mismatch: request=" ++ requestID)))
  Txn.require (record.status ≠ .refunded)
    (permanentBillingSettlement
      (plainError ("subscription pre-consume already refunded: request=" ++ requestID)))
  let sub ← Txn.orThrow (db.userSubscriptions.first? (·.id = record.userSubscriptionId))
    (permanentBillingSettlement
      (plainError ("subscription settlement target no longer exists: request=" ++ requestID)))
  Txn.require (sub.userId = input.userID)
    (permanentBillingSettlement
      (plainError ("subscription settlement user identity mismatch: request=" ++ requestID)))
  Txn.ofExcept ((Settlement.validateSubscriptionPreConsumePeriod record sub).mapError
    permanentBillingSettlement)
  if input.fundingDelta = 0 then pure 0
  else
    Txn.require (input.finalizeSubscriptionPreConsume →
        input.fundingDelta < 0 ∧ record.preConsumed ≤ wrap (-input.fundingDelta))
      (permanentBillingSettlement (plainError
        ("subscription refund does not cover pre-consumed amount: request=" ++ requestID)))
    let applied ← Settlement.markQuotaErrorPermanent
      (postConsumeUserSubscriptionDelta64Tx record.userSubscriptionId input.fundingDelta now)
    Txn.require (input.finalizeSubscriptionPreConsume → applied = input.fundingDelta)
      (permanentBillingSettlement (Sentinel.subscriptionRefundClamped.wrap
        ("request=" ++ requestID ++ " requested=" ++ toString input.fundingDelta ++
          " applied=" ++ toString applied)))
    Settlement.finalizeSubscriptionPreConsumeRecord input.finalizeSubscriptionPreConsume record.id
      now
    pure applied

/-! ### Runs -/

/-- What writes the usage of a subscription, and what the rest of the program may do meanwhile. -/
inductive UsageOp where
  | preConsume (req : PreConsume) (ctx : ResetContext)
  | preConsumeToken (req : PreConsume) (ctx : ResetContext)
  | postConsume (userSubscriptionId delta now : ℤ)
  | settle (input : Settlement.BillingSettlementInput) (now : ℤ)
  | refund (requestId : String) (now : ℤ)
  | resetDue (id : ℤ) (ctx : ResetContext)
  | adminResetUser (plan : Option SubscriptionPlan) (userId planId : ℤ) (advanceResetTime : Bool)
      (ctx : ResetContext)
  | adminResetPlan (plan : Option SubscriptionPlan) (planId : ℤ) (advanceResetTime : Bool)
      (ctx : ResetContext)
  /-- Any change of the tables that leaves usages, totals and reservations as they are, apart from
  new subscriptions and deleted rows. -/
  | outside (tables : Tables)

/-- The change leaves usages, totals and reservations as they are. -/
def LeavesUsage (s t : Tables) : Prop :=
  (∀ u' ∈ t.userSubscriptions.rows, (u'.amountUsed = 0 ∧ Representable u'.amountTotal) ∨
    ∃ u ∈ s.userSubscriptions.rows, u'.id = u.id ∧ u'.amountTotal = u.amountTotal ∧
      u'.amountUsed = u.amountUsed) ∧
    ∀ r' ∈ t.subscriptionPreConsumeRecords.rows,
      ∃ r ∈ s.subscriptionPreConsumeRecords.rows, r'.preConsumed = r.preConsumed

instance (s t : Tables) : Decidable (LeavesUsage s t) :=
  inferInstanceAs (Decidable ((∀ u' ∈ t.userSubscriptions.rows, _ ∨
    ∃ u ∈ s.userSubscriptions.rows, _) ∧ ∀ r' ∈ t.subscriptionPreConsumeRecords.rows,
      ∃ r ∈ s.subscriptionPreConsumeRecords.rows, _))

/-- The transaction of an operation; a movement reports the delta it has applied. -/
def UsageOp.act (host : Settlement.Host) : UsageOp → Tx (Option ℤ)
  | .preConsume req ctx => do
      let _ ← preConsumeUserSubscription host ctx req
      pure none
  | .preConsumeToken req ctx => do
      let _ ← preConsumeTokenAndUserSubscription host ctx req
      pure none
  | .postConsume userSubscriptionId delta now => do
      let applied ← postConsumeUserSubscriptionDelta userSubscriptionId delta now
      pure (some applied)
  | .settle input now => do
      let applied ← applySubscriptionDelta64Tx input now
      pure (some applied)
  | .refund requestId now => do
      refundSubscriptionPreConsume requestId now
      pure none
  | .resetDue id ctx => do
      let _ ← resetDueSubscriptionTx ctx id
      pure none
  | .adminResetUser plan userId planId advanceResetTime ctx => do
      let _ ← adminResetUserSubscriptionsByPlanTx ctx plan userId planId advanceResetTime
      pure none
  | .adminResetPlan plan planId advanceResetTime ctx => do
      let _ ← adminResetPlanSubscriptionsTx ctx plan planId advanceResetTime
      pure none
  | .outside tables => do
      modify fun s => if LeavesUsage s tables then tables else s
      pure none

/-- What an operation answers, and the tables after it. -/
def UsageOp.run (host : Settlement.Host) (s : Tables) (op : UsageOp) :
    Except Failure (Option ℤ) × Tables :=
  transaction (op.act host) s

def usageStep (host : Settlement.Host) (s : Tables) (op : UsageOp) : Tables := (op.run host s).2

end MaxApi.Reservation
