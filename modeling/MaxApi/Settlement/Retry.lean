import MaxApi.Settlement.Apply
import Mathlib.Data.List.Sort

/-! # The settlement store: failures and the retry runner

A settlement whose transaction failed is rescheduled, or sent to manual review when the failure is
permanent.  `markBillingSettlementFailure` reads the record by its key and then writes back under
the guard that the record is still pending; the two statements are separate steps.  The runner
replays due pending records with the input they were created from. -/

namespace MaxApi.Settlement

open Relational MaxApi.Billing

/-- The new status of a failed settlement. -/
def failureStatus (record : BillingSettlement) (cause : Failure) : SettlementStatus :=
  if record.manualOnFailure ∨ isPermanentBillingSettlementError cause then .manual else .pending

/-- When the settlement is tried again: after `2 ^ min attempts 6` seconds, or never. -/
def failureNextAttempt (record : BillingSettlement) (cause : Failure) (now : ℤ) : ℤ :=
  if failureStatus record cause = .manual then 0
  else now + 2 ^ (min (record.attempts + 1) 6).toNat

/-- Whether the failure is news, so that an earlier review no longer counts.  The approval of a
manual completion is never erased. -/
def failureResetsReview (record : BillingSettlement) (cause : Failure) : Prop :=
  (cause.text ≠ record.lastError ∨ failureStatus record cause ≠ record.status) ∧
    ¬ billingSettlementIsManualTaskCompletion record.operationKey record.taskID

instance (record : BillingSettlement) (cause : Failure) :
    Decidable (failureResetsReview record cause) :=
  inferInstanceAs (Decidable (_ ∧ _))

/-- The columns `billingSettlementFailureUpdates` writes, computed from the record that was read. -/
def failedRecord (record : BillingSettlement) (cause : Failure) (now : ℤ) (r : BillingSettlement) :
    BillingSettlement :=
  let r := { r with
    attempts := record.attempts + 1
    lastError := cause.text
    status := failureStatus record cause
    nextAttempt := failureNextAttempt record cause now
    updatedAt := now
    revision := r.revision + 1 }
  if failureResetsReview record cause then
    { r with
      reconciliationReviewedAt := 0
      reconciliationReviewedBy := 0
      reconciliationReviewNote := ""
      userBlockingOverride := none }
  else r

/-- A failure writes the columns of an attempt and, at most, the review fields. -/
theorem failedRecord_eq (record : BillingSettlement) (cause : Failure) (now : ℤ)
    (r : BillingSettlement) : ∃ reviewedAt reviewedBy reviewNote override,
      failedRecord record cause now r = { r with
        attempts := record.attempts + 1
        lastError := cause.text
        status := failureStatus record cause
        nextAttempt := failureNextAttempt record cause now
        updatedAt := now
        revision := r.revision + 1
        reconciliationReviewedAt := reviewedAt
        reconciliationReviewedBy := reviewedBy
        reconciliationReviewNote := reviewNote
        userBlockingOverride := override } := by
  unfold failedRecord
  dsimp only
  split
  · exact ⟨_, _, _, _, rfl⟩
  · exact ⟨_, _, _, _, rfl⟩

theorem failedRecord_key (record : BillingSettlement) (cause : Failure) (now : ℤ)
    (r : BillingSettlement) : Keyed.key (failedRecord record cause now r) = Keyed.key r := by
  obtain ⟨_, _, _, _, h⟩ := failedRecord_eq record cause now r
  rw [h]
  rfl

/-- The guarded write of `markBillingSettlementFailure`, after `record` has been read. -/
def markBillingSettlementFailure (s : Tables) (record : BillingSettlement) (cause : Failure)
    (now : ℤ) : Tables :=
  { s with
    billingSettlements := s.billingSettlements.update
      (fun r => r.id = record.id ∧ r.status = .pending)
      ⟨failedRecord record cause now, failedRecord_key record cause now⟩ }

/-- The input the runner rebuilds from a stored record. -/
def replayInput (record : BillingSettlement) (effect : Option BillingSettlementEffect) :
    BillingSettlementInput where
  operationKey := record.operationKey
  source := record.source
  userID := record.userID
  subscriptionID := record.subscriptionID
  tokenID := record.tokenID
  fundingDelta := record.fundingDelta
  tokenDelta := record.tokenDelta
  taskID := record.taskID
  taskQuota := record.taskQuota
  taskQuotaTarget := record.taskQuotaTarget
  subscriptionPreConsumeRequestID := record.subscriptionPreConsumeRequestID
  finalizeSubscriptionPreConsume := record.finalizeSubscriptionPreConsume
  allowMissingToken := record.allowMissingToken
  manualOnFailure := record.manualOnFailure
  effect := effect
  preConsumeRequestID := record.preConsumeRequestID
  preConsumeModelName := record.preConsumeModelName
  preConsumeRequestedQuota := record.preConsumeRequestedQuota
  preConsumeEffectiveQuota := record.preConsumeEffectiveQuota

/-- The records a pass of the runner works on, in the order of their keys. -/
def dueSettlements (s : Tables) (now : ℤ) : List BillingSettlement :=
  ((s.billingSettlements.rows.filter fun r =>
    decide (r.status = .pending ∧ r.nextAttempt ≤ now)).insertionSort (·.id ≤ ·.id)).take 100

/-- Applied records whose effect is still to be processed. -/
def dueEffects (s : Tables) : List BillingSettlement :=
  ((s.billingSettlements.rows.filter fun r =>
    decide (r.status = .applied ∧ r.effectStatus = .pending)).insertionSort (·.id ≤ ·.id)).take 100

theorem mem_dueSettlements {s : Tables} {now : ℤ} {r : BillingSettlement}
    (h : r ∈ dueSettlements s now) :
    r ∈ s.billingSettlements ∧ r.status = .pending ∧ r.nextAttempt ≤ now := by
  have h := List.mem_of_mem_take h
  rw [List.mem_insertionSort, List.mem_filter] at h
  exact ⟨h.1, of_decide_eq_true h.2⟩

theorem failureStatus_eq (record : BillingSettlement) (cause : Failure) :
    failureStatus record cause = .pending ∨ failureStatus record cause = .manual := by
  unfold failureStatus
  split
  · exact .inr rfl
  · exact .inl rfl

/-- A failure applies nothing. -/
theorem failureStatus_ne (record : BillingSettlement) (cause : Failure) :
    failureStatus record cause ≠ .applied := by
  rcases failureStatus_eq record cause with h | h
  · rw [h]
    decide
  · rw [h]
    decide

end MaxApi.Settlement
