import MaxApi.Settlement.Retry

/-! # The settlement store: review and manual completion

An administrator acknowledges an open alert (`ReviewBillingSettlement`, `ReviewBillingSettlements`)
or completes a task whose amount was never known: an approved child settlement is created
(`EnsureManualTaskBillingCompletion`), applied like any other, and then closes the manual record
(`ResolveManualTaskBillingSettlement`).  The poller can instead give the manual record its amount
back (`PromoteManualTaskBillingSettlement`).  All of them are guarded by the revision or by the
review fields that were read. -/

namespace MaxApi.Settlement

open Relational MaxApi.Billing

/-! ### Scopes -/

/-- Unsettled records an administrator has to see. -/
def unresolvedBillingReconciliationScope (r : BillingSettlement) : Prop :=
  (r.status = .pending ∨ r.status = .manual) ∧
    ((0 < r.fundingDelta ∧
        Text.likeBetween r.operationKey billingRequestOperationPrefix
          billingRequestFinalizeSuffix) ∨
      (0 < r.taskID ∧
        Text.likeBetween r.operationKey billingTaskOperationPrefix billingRequestFinalizeSuffix))

instance : DecidablePred unresolvedBillingReconciliationScope := fun _ =>
  inferInstanceAs (Decidable (_ ∧ _))

/-- Unsettled records whose alert is open. -/
def openBillingReconciliationAlertScope (r : BillingSettlement) : Prop :=
  unresolvedBillingReconciliationScope r ∧
    (r.reconciliationReviewedAt = 0 ∨
      (0 < r.fundingDelta ∧
        Text.likeBetween r.operationKey billingRequestOperationPrefix
          billingRequestFinalizeSuffix ∧
        r.userBlockingOverride = some true))

instance : DecidablePred openBillingReconciliationAlertScope := fun _ =>
  inferInstanceAs (Decidable (_ ∧ _))

/-- The keys that the server gives its operations. -/
inductive IsOperationKey : String → Prop where
  | request (requestID : String) : IsOperationKey (billingRequestFinalizeOperationKey requestID)
  | task (taskID : ℤ) : IsOperationKey (billingTaskFinalizeOperationKey taskID)
  | completion (taskID : ℤ) : IsOperationKey (billingTaskManualCompletionOperationKey taskID)

/-- Each key is of one of the two patterns. -/
theorem IsOperationKey.parts {key : String} (h : IsOperationKey key) :
    ∃ pre ∈ [billingRequestOperationPrefix, billingTaskOperationPrefix], ∃ x,
      key = pre ++ x ++ billingRequestFinalizeSuffix := by
  cases h with
  | request requestID => exact ⟨_, by simp, requestID, rfl⟩
  | task taskID => exact ⟨_, by simp, toString taskID, rfl⟩
  | completion taskID =>
      refine ⟨billingTaskOperationPrefix, by simp,
        toString taskID ++ billingTaskManualCompletionSuffix, ?_⟩
      unfold billingTaskManualCompletionOperationKey
      simp only [String.append_assoc]

theorem operationPrefix_toList :
    billingRequestOperationPrefix.toList = 'r' :: "equest:".toList ∧
      billingTaskOperationPrefix.toList = 't' :: "ask:".toList := by
  decide +kernel

/-- On the keys of the server the scopes do not depend on the collation of the database. -/
theorem likeBetween_collation {fold : Char → Char} (hfold : fold 'r' ≠ fold 't') {key : String}
    (hkey : IsOperationKey key) :
    ∀ pre ∈ [billingRequestOperationPrefix, billingTaskOperationPrefix],
      Text.likeBetweenFold fold key pre billingRequestFinalizeSuffix =
        Text.likeBetween key pre billingRequestFinalizeSuffix := by
  obtain ⟨own, hown, x, rfl⟩ := hkey.parts
  obtain ⟨hrequest, htask⟩ := operationPrefix_toList
  intro pre hpre
  rw [← Text.likeBetweenFold_id]
  simp only [List.mem_cons, List.not_mem_nil, or_false] at hown hpre
  rcases hown with rfl | rfl <;> rcases hpre with rfl | rfl
  · rw [Text.likeBetweenFold_parts, Text.likeBetweenFold_parts]
  · have hkey : (billingRequestOperationPrefix ++ x ++ billingRequestFinalizeSuffix).toList =
        'r' :: ("equest:".toList ++ x.toList ++ billingRequestFinalizeSuffix.toList) := by
      simp only [String.toList_append, hrequest, List.cons_append]
    rw [Text.likeBetweenFold_head hkey htask hfold.symm,
      Text.likeBetweenFold_head hkey htask (by decide)]
  · have hkey : (billingTaskOperationPrefix ++ x ++ billingRequestFinalizeSuffix).toList =
        't' :: ("ask:".toList ++ x.toList ++ billingRequestFinalizeSuffix.toList) := by
      simp only [String.toList_append, htask, List.cons_append]
    rw [Text.likeBetweenFold_head hkey hrequest hfold,
      Text.likeBetweenFold_head hkey hrequest (by decide)]
  · rw [Text.likeBetweenFold_parts, Text.likeBetweenFold_parts]

/-- A manual record that moves no balance and waits for the completion of its task. -/
def billingSettlementRequiresManualTaskCompletion (r : BillingSettlement) : Prop :=
  r.status = .manual ∧ 0 < r.taskID ∧
    r.operationKey = billingTaskFinalizeOperationKey r.taskID ∧
    r.fundingDelta = 0 ∧ r.tokenDelta = 0 ∧ r.taskQuotaTarget = r.taskQuota

instance : DecidablePred billingSettlementRequiresManualTaskCompletion := fun _ =>
  inferInstanceAs (Decidable (_ ∧ _))

/-! ### Acknowledging alerts -/

/-- The four review fields, and nothing else (`UpdateColumns`). -/
def reviewedRecord (reviewerID : ℤ) (blockUser : Bool) (note : String) (reviewedAt : ℤ)
    (r : BillingSettlement) : BillingSettlement :=
  { r with
    reconciliationReviewedAt := reviewedAt
    reconciliationReviewedBy := reviewerID
    reconciliationReviewNote := note
    userBlockingOverride := some blockUser }

/-- The snapshot an administrator intends to close. -/
structure BillingSettlementReviewTarget where
  id : ℤ
  revision : ℤ
  deriving DecidableEq, Repr

/-- Acknowledge one target. -/
def reviewTarget (reviewerID now : ℤ) (target : BillingSettlementReviewTarget) : Tx PUnit := do
  let db ← get
  let scope := fun r : BillingSettlement =>
    openBillingReconciliationAlertScope r ∧ r.id = target.id ∧ r.revision = target.revision
  let current ← Txn.orThrow (db.billingSettlements.first? scope) Sentinel.reviewConflict.error
  Txn.require (¬ billingSettlementRequiresManualTaskCompletion current)
    Sentinel.completionRequired.error
  Txn.require (¬ billingSettlementIsManualTaskCompletion current.operationKey current.taskID)
    Sentinel.completionRequired.error
  Txn.require (db.billingSettlements.affected scope = 1) Sentinel.reviewConflict.error
  modify fun db => { db with
    billingSettlements :=
      db.billingSettlements.update scope ⟨reviewedRecord reviewerID false "" now,
        keeps fun _ => rfl⟩ }

/-- Acknowledge the targets one after the other. -/
def reviewTargets (reviewerID now : ℤ) : List BillingSettlementReviewTarget → Tx PUnit
  | [] => pure ⟨⟩
  | target :: targets => do
      reviewTarget reviewerID now target
      reviewTargets reviewerID now targets

/-- The transaction of `ReviewBillingSettlements`: all targets or none. -/
def reviewBillingSettlementsTx (targets : List BillingSettlementReviewTarget)
    (reviewerID now : ℤ) : Tx PUnit := do
  Txn.require (0 < reviewerID ∧ targets ≠ [] ∧ targets.length ≤ 200)
    Sentinel.reviewConflict.error
  Txn.require ((∀ t ∈ targets, 0 < t.id ∧ 0 < t.revision) ∧ (targets.map (·.id)).Nodup)
    Sentinel.reviewConflict.error
  reviewTargets reviewerID now (targets.insertionSort (·.id ≤ ·.id))

/-- `billingSettlementReviewSnapshotScope`: the record is still as it was read. -/
def billingSettlementReviewSnapshotScope (record r : BillingSettlement) : Prop :=
  r.id = record.id ∧ r.revision = record.revision ∧
    r.reconciliationReviewedAt = record.reconciliationReviewedAt ∧
    r.reconciliationReviewedBy = record.reconciliationReviewedBy ∧
    r.reconciliationReviewNote = record.reconciliationReviewNote ∧
    r.userBlockingOverride = record.userBlockingOverride

instance (record : BillingSettlement) :
    DecidablePred (billingSettlementReviewSnapshotScope record) := fun _ =>
  inferInstanceAs (Decidable (_ ∧ _))

/-- The reads and checks of `ReviewBillingSettlement` before its guarded write. -/
def loadReviewSnapshot (id reviewerID : ℤ) : Tx BillingSettlement := do
  Txn.require (0 < id ∧ 0 < reviewerID) Sentinel.reviewConflict.error
  let db ← get
  let record ← Txn.orThrow (db.billingSettlements.first? (·.id = id)) Sentinel.reviewConflict.error
  Txn.require (¬ billingSettlementRequiresManualTaskCompletion record)
    Sentinel.completionRequired.error
  Txn.require (¬ billingSettlementIsManualTaskCompletion record.operationKey record.taskID)
    Sentinel.completionRequired.error
  pure record

/-- The guarded write of `ReviewBillingSettlement`, after `record` has been read. -/
def reviewBillingSettlement (s : Tables) (record : BillingSettlement) (reviewerID : ℤ)
    (blockUser : Bool) (note : String) (now : ℤ) : Tables :=
  { s with
    billingSettlements := s.billingSettlements.update
      (fun r => unresolvedBillingReconciliationScope r ∧
        billingSettlementReviewSnapshotScope record r)
      ⟨reviewedRecord reviewerID blockUser note now, keeps fun _ => rfl⟩ }

/-! ### Manual completion of a task -/

/-- A failed child that the same administrator approves again is pending once more. -/
def reapprovedRecord (now : ℤ) (r : BillingSettlement) : BillingSettlement :=
  { r with
    status := .pending
    nextAttempt := now
    updatedAt := now
    revision := r.revision + 1 }

/-- The guard of the re-approval: the record is as it was read, reviewed by this administrator. -/
def reapprovalGuard (record : BillingSettlement) (reviewerID : ℤ) (note : String)
    (r : BillingSettlement) : Prop :=
  r.id = record.id ∧ r.revision = record.revision ∧ r.status = .manual ∧
    r.reconciliationReviewedAt = record.reconciliationReviewedAt ∧
    r.reconciliationReviewedBy = reviewerID ∧ r.reconciliationReviewNote = note

instance (record : BillingSettlement) (reviewerID : ℤ) (note : String) :
    DecidablePred (reapprovalGuard record reviewerID note) := fun _ =>
  inferInstanceAs (Decidable (_ ∧ _))

def reapproveManualTaskBillingCompletionDB (input : BillingSettlementInput) (reviewerID : ℤ)
    (note : String) (now : ℤ) : Tx BillingSettlement := do
  let record ← settlementByKey input.operationKey
  Txn.require (billingSettlementIsManualTaskCompletion record.operationKey record.taskID ∧
      record.status = .manual ∧ 0 < record.reconciliationReviewedAt ∧
      record.reconciliationReviewedBy = reviewerID ∧ record.reconciliationReviewNote = note)
    Sentinel.reviewConflict.error
  Txn.ofExcept (validateBillingSettlement record input)
  let db ← get
  Txn.require (db.billingSettlements.affected (reapprovalGuard record reviewerID note) = 1)
    Sentinel.reviewConflict.error
  modify fun db => { db with
    billingSettlements := db.billingSettlements.update (reapprovalGuard record reviewerID note)
      ⟨reapprovedRecord now, keeps fun _ => rfl⟩ }
  settlementByID record.id

/-- A record nobody has reviewed yet. -/
def notReviewed (record r : BillingSettlement) : Prop :=
  r.id = record.id ∧ r.reconciliationReviewedAt = 0 ∧ r.reconciliationReviewedBy = 0 ∧
    r.reconciliationReviewNote = ""

instance (record : BillingSettlement) : DecidablePred (notReviewed record) := fun _ =>
  inferInstanceAs (Decidable (_ ∧ _))

/-- Persist the approval of the administrator on the child record. -/
def approveCompletionRecord (record : BillingSettlement) (reviewerID : ℤ) (note : String)
    (now : ℤ) : Tx BillingSettlement :=
  if 0 < record.reconciliationReviewedAt ∨ 0 < record.reconciliationReviewedBy ∨
      record.reconciliationReviewNote ≠ "" then do
    Txn.require (0 < record.reconciliationReviewedAt ∧
        record.reconciliationReviewedBy = reviewerID ∧ record.reconciliationReviewNote = note)
      Sentinel.reviewConflict.error
    pure record
  else do
    let db ← get
    Txn.require (db.billingSettlements.affected (notReviewed record) = 1)
      Sentinel.reviewConflict.error
    modify fun db => { db with
      billingSettlements := db.billingSettlements.update (notReviewed record)
        ⟨reviewedRecord reviewerID false note now, keeps fun _ => rfl⟩ }
    settlementByID record.id

/-- The transaction of `EnsureManualTaskBillingCompletion`.  Its first part is
`ensureBillingSettlementRecordDB`; a record that turned manual is approved again instead. -/
def ensureManualTaskBillingCompletionTx (host : Host) (input : BillingSettlementInput)
    (reviewerID : ℤ) (note : String) (now : ℤ) : Tx BillingSettlement := do
  Txn.require (0 < reviewerID ∧ ¬ Text.isBlank note ∧
      billingSettlementIsManualTaskCompletion input.operationKey input.taskID)
    Sentinel.reviewConflict.error
  let ensured ← Txn.recover (ensureBillingSettlementRecordDB host input now)
    (·.sentinel = .manualReview)
  match ensured with
  | none => reapproveManualTaskBillingCompletionDB input reviewerID note now
  | some (record, _) => approveCompletionRecord record reviewerID note now

/-- The child settlement is the applied, approved and exact completion of the original. -/
def validateManualTaskBillingCompletionPair (original completion : BillingSettlement)
    (reviewerID : ℤ) (note : String) : Prop :=
  0 < original.taskID ∧
  original.operationKey = billingTaskFinalizeOperationKey original.taskID ∧
  completion.operationKey = billingTaskManualCompletionOperationKey original.taskID ∧
  completion.status = .applied ∧
  completion.source = original.source ∧
  completion.userID = original.userID ∧
  completion.subscriptionID = original.subscriptionID ∧
  completion.tokenID = original.tokenID ∧
  completion.taskID = original.taskID ∧
  completion.taskQuota = original.taskQuota ∧
  0 ≤ completion.taskQuotaTarget ∧
  completion.taskQuotaTarget ≤ original.taskQuota ∧
  completion.fundingDelta = completion.taskQuotaTarget - completion.taskQuota ∧
  completion.appliedFundingDelta = completion.fundingDelta ∧
  completion.subscriptionPreConsumeRequestID = original.subscriptionPreConsumeRequestID ∧
  0 < completion.reconciliationReviewedAt ∧
  completion.reconciliationReviewedBy = reviewerID ∧
  completion.reconciliationReviewNote = note

instance (original completion : BillingSettlement) (reviewerID : ℤ) (note : String) :
    Decidable (validateManualTaskBillingCompletionPair original completion reviewerID note) :=
  inferInstanceAs (Decidable (_ ∧ _))

/-- The original manual record once its child has been applied; no delta changes. -/
def resolvedRecord (reviewerID : ℤ) (note : String) (now : ℤ) (r : BillingSettlement) :
    BillingSettlement :=
  { r with
    status := .applied
    reconciliationReviewedAt := now
    reconciliationReviewedBy := reviewerID
    reconciliationReviewNote := note
    userBlockingOverride := some false
    nextAttempt := 0
    updatedAt := now
    revision := r.revision + 1 }

/-- The guard of the resolution. -/
def resolutionGuard (id expectedRevision : ℤ) (operationKey : String) (r : BillingSettlement) :
    Prop :=
  r.id = id ∧ r.revision = expectedRevision ∧ r.status = .manual ∧ r.operationKey = operationKey

instance (id expectedRevision : ℤ) (operationKey : String) :
    DecidablePred (resolutionGuard id expectedRevision operationKey) := fun _ =>
  inferInstanceAs (Decidable (_ ∧ _))

/-- The transaction of `ResolveManualTaskBillingSettlement`; the result says whether the record
had been resolved before. -/
def resolveManualTaskBillingSettlementTx (id expectedRevision reviewerID : ℤ) (note : String)
    (now : ℤ) : Tx Bool := do
  Txn.require (0 < id ∧ 0 < expectedRevision ∧ 0 < reviewerID ∧ ¬ Text.isBlank note)
    Sentinel.reviewConflict.error
  let db ← get
  let current ← Txn.orThrow (db.billingSettlements.first? (·.id = id))
    Sentinel.reviewConflict.error
  Txn.require (0 < current.taskID ∧
      current.operationKey = billingTaskFinalizeOperationKey current.taskID)
    Sentinel.reviewConflict.error
  let completion ← Txn.orThrow (db.billingSettlements.first?
      (·.operationKey = billingTaskManualCompletionOperationKey current.taskID))
    Sentinel.reviewConflict.error
  Txn.require (validateManualTaskBillingCompletionPair current completion reviewerID note)
    Sentinel.reviewConflict.error
  if current.status = .applied then
    Txn.require (current.revision = expectedRevision + 1 ∧ 0 < current.reconciliationReviewedAt ∧
        current.reconciliationReviewedBy = reviewerID ∧ current.reconciliationReviewNote = note)
      Sentinel.reviewConflict.error
    pure true
  else
    Txn.require (current.status = .manual ∧ current.revision = expectedRevision)
      Sentinel.reviewConflict.error
    Txn.require (db.billingSettlements.affected
        (resolutionGuard id expectedRevision current.operationKey) = 1)
      Sentinel.reviewConflict.error
    modify fun db => { db with
      billingSettlements := db.billingSettlements.update
        (resolutionGuard id expectedRevision current.operationKey)
        ⟨resolvedRecord reviewerID note now, keeps fun _ => rfl⟩ }
    pure false

/-! ### Promotion by the poller -/

/-- The manual record may be reopened for this input: same task and funding identity, nothing
applied yet, and the relaxations of the input are the only difference. -/
def promotable (record : BillingSettlement) (input : BillingSettlementInput)
    (reasonPrefix : String) : Prop :=
  Text.hasPrefix record.lastError reasonPrefix ∧
  record.source = input.source ∧
  record.userID = input.userID ∧
  record.subscriptionID = input.subscriptionID ∧
  record.tokenID = input.tokenID ∧
  record.taskID = input.taskID ∧
  record.taskQuota = input.taskQuota ∧
  record.taskQuotaTarget = record.taskQuota ∧
  record.fundingDelta = 0 ∧
  record.tokenDelta = 0 ∧
  record.subscriptionPreConsumeRequestID = input.subscriptionPreConsumeRequestID ∧
  (record.finalizeSubscriptionPreConsume → input.finalizeSubscriptionPreConsume) ∧
  (record.allowMissingToken → input.allowMissingToken) ∧
  record.manualOnFailure = input.manualOnFailure ∧
  record.effectPayload = ""

instance (record : BillingSettlement) (input : BillingSettlementInput) (reasonPrefix : String) :
    Decidable (promotable record input reasonPrefix) :=
  inferInstanceAs (Decidable (_ ∧ _))

/-- What the promotion appends to the review note: where the record came from. -/
def promotionAuditNote (host : Host) (record : BillingSettlement) (recoveryNote : String) :
    String :=
  let clean := fun text => host.sanitizePersistedLogContent (host.maskSensitiveInfo text)
  let auditNote := recoveryNote ++ "; original manual reason: " ++ clean record.lastError
  if 0 < record.reconciliationReviewedBy ∨ record.reconciliationReviewNote ≠ "" then
    auditNote ++ "; prior reviewer=" ++ toString record.reconciliationReviewedBy ++ " note=" ++
      clean record.reconciliationReviewNote
  else auditNote

/-- The reopened record. -/
def promotedRecord (input : BillingSettlementInput) (effectPayload recoveryNote auditNote : String)
    (now : ℤ) (r : BillingSettlement) : BillingSettlement :=
  { r with
    fundingDelta := input.fundingDelta
    tokenDelta := input.tokenDelta
    taskQuotaTarget := input.taskQuotaTarget
    finalizeSubscriptionPreConsume := input.finalizeSubscriptionPreConsume
    allowMissingToken := input.allowMissingToken
    effectPayload := effectPayload
    effectStatus := effectStatusAfterSettlement effectPayload
    status := .pending
    lastError := recoveryNote
    nextAttempt := now
    updatedAt := now
    revision := r.revision + 1
    reconciliationReviewedAt := 0
    reconciliationReviewedBy := 0
    reconciliationReviewNote := auditNote
    userBlockingOverride := none
    appliedFundingDelta := 0
    appliedTokenDelta := 0 }

/-- The guard of the promotion: the manual record is as it was read. -/
def promotionGuard (record r : BillingSettlement) : Prop :=
  r.id = record.id ∧ r.revision = record.revision ∧ r.status = .manual

instance (record : BillingSettlement) : DecidablePred (promotionGuard record) := fun _ =>
  inferInstanceAs (Decidable (_ ∧ _))

/-- `PromoteManualTaskBillingSettlement`: the checks of the input, then its transaction.  A record
that is pending or applied already is ready when it is the same operation. -/
def promoteManualTaskBillingSettlementTx (host : Host) (input : BillingSettlementInput)
    (reasonPrefix recoveryNote : String) (now : ℤ) : Tx Bool := do
  let conflict := permanentBillingSettlement Sentinel.operationConflict.error
  Txn.require (0 < input.taskID ∧
      input.operationKey = billingTaskFinalizeOperationKey input.taskID ∧ input.effect ≠ none)
    conflict
  Txn.require (0 ≤ input.taskQuota ∧ 0 ≤ input.taskQuotaTarget ∧
      input.taskQuotaTarget ≤ input.taskQuota ∧
      input.fundingDelta = input.taskQuotaTarget - input.taskQuota) conflict
  Txn.require (input.tokenID ≤ 0 → input.tokenDelta = 0) conflict
  Txn.require (0 < input.tokenID → input.tokenDelta = input.fundingDelta) conflict
  Txn.require (¬ Text.isBlank reasonPrefix ∧ ¬ Text.isBlank recoveryNote) conflict
  Txn.ofExcept (validateBillingSettlementInput input)
  let effectPayload ← Txn.ofExcept
    ((billingSettlementEffectPayload host input.effect).mapError Sentinel.recordNotDurable.wrap)
  let recoveryNote := host.sanitizePersistedLogContent (host.maskSensitiveInfo recoveryNote)
  let db ← get
  let record ← Txn.orThrow (db.billingSettlements.first? (·.operationKey = input.operationKey))
    conflict
  if record.status = .applied ∨ record.status = .pending then
    Txn.ofExcept (validateBillingSettlement record input)
    pure true
  else
    Txn.require (record.status = .manual)
      (permanentBillingSettlement (Sentinel.operationConflict.wrap
        ("unexpected status " ++ host.quoted record.status.text)))
    Txn.require (promotable record input reasonPrefix) conflict
    Txn.require (db.billingSettlements.affected (promotionGuard record) = 1)
      Sentinel.operationConflict.error
    modify fun db => { db with
      billingSettlements := db.billingSettlements.update (promotionGuard record)
        ⟨promotedRecord input effectPayload recoveryNote
          (promotionAuditNote host record recoveryNote) now, keeps fun _ => rfl⟩ }
    pure true

end MaxApi.Settlement
