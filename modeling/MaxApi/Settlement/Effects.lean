import MaxApi.Settlement.Review

/-! # The settlement store: effects

After the funding of a settlement is applied, its effect is processed: one log entry in the log
database, guarded by a receipt per operation key, and then one transaction on the main database
that claims the effect, raises the usage counters and marks the effect applied.  The two databases
are independent, so a crash may fall between the two. -/

namespace MaxApi.Settlement

open Relational MaxApi.Billing

/-! ### The log database -/

/-- A row of `logs`. -/
structure Log where
  userId : ℤ
  username : String
  createdAt : ℤ
  logType : ℤ
  content : String
  tokenName : String
  modelName : String
  quota : ℤ
  promptTokens : ℤ
  completionTokens : ℤ
  useTime : ℤ
  isStream : Bool
  channelId : ℤ
  tokenId : ℤ
  group : String
  requestId : String
  upstreamRequestId : String
  other : String
  deriving DecidableEq, Repr

/-- The receipt that keeps the log entry of an operation unique. -/
structure BillingLogReceipt where
  operationKey : String
  claimToken : String
  createdAt : ℤ
  deriving DecidableEq, Repr

instance : Keyed BillingLogReceipt where
  Key := String
  key := BillingLogReceipt.operationKey
  Clash a b := a = b
  clashDec := inferInstance
  clash_refl _ := rfl
  clash_symm := Eq.symm

/-- The log database.  Each log row is kept with the operation it was written for, which is not a
column of the table. -/
structure LogTables where
  logs : List (String × Log)
  billingLogReceipts : Table BillingLogReceipt

def LogTables.empty : LogTables := ⟨[], .empty⟩

/-- A body of work on the log database. -/
abbrev LogTx := Txn LogTables Failure

/-! ### The log entry -/

def logTypeConsume : ℤ := 2

/-- `applySubscriptionSettlementEffectMetadata`: the subscription totals after the settlement. -/
def applySubscriptionSettlementEffectMetadata (record : BillingSettlement)
    (effect : BillingSettlementEffect) (other : Other) : Other :=
  match record.source, effect.subscription with
  | .subscription, some info =>
      let postDelta := record.appliedFundingDelta
      let other := if postDelta ≠ 0 then other.set "subscription_post_delta" (.number postDelta)
        else other.erase "subscription_post_delta"
      let consumed := max (info.preConsumed + postDelta) 0
      let other := if 0 < consumed then other.set "subscription_consumed" (.number consumed)
        else other.erase "subscription_consumed"
      let used := max (info.amountUsedAfterPreConsume + postDelta) 0
      if 0 < info.amountTotal then
        ((other.set "subscription_total" (.number info.amountTotal)).set "subscription_used"
          (.number used)).set "subscription_remain" (.number (max (info.amountTotal - used) 0))
      else other
  | _, _ => other

/-- The effect states its quota itself. -/
def useActualQuota (effect : BillingSettlementEffect) : Prop :=
  effect.quotaIsActual ∨ 0 < effect.quota

instance : DecidablePred useActualQuota := fun _ => inferInstanceAs (Decidable (_ ∨ _))

/-- The quota an effect logs and counts: its own, or the funding that was applied. -/
def effectQuota (record : BillingSettlement) (effect : BillingSettlementEffect) : ℤ :=
  if useActualQuota effect then effect.quota else record.appliedFundingDelta

/-- The log row of an effect. -/
def effectLog (host : Host) (db : Tables) (record : BillingSettlement)
    (effect : BillingSettlementEffect) (now : ℤ) : Log :=
  let other := applySubscriptionSettlementEffectMetadata record effect effect.other
  let other := if 0 < record.taskID then
      other.set "actual_quota" (.number (record.taskQuota + record.appliedFundingDelta))
    else other
  let tokenName := match db.tokens.first? (·.id = effect.tokenID) with
    | some token => if 0 < effect.tokenID ∧ token.name ≠ "" then token.name else effect.tokenName
    | none => effect.tokenName
  { userId := record.userID
    username := ((db.users.first? (·.id = record.userID)).map (·.username)).getD ""
    createdAt := now
    logType := effect.logType
    -- sanitized by the caller and once more by the hook of the row
    content := host.sanitizePersistedLogContent (host.sanitizePersistedLogContent effect.content)
    tokenName := tokenName
    modelName := effect.modelName
    quota := |effectQuota record effect|
    promptTokens := effect.promptTokens
    completionTokens := effect.completionTokens
    useTime := effect.useTimeSeconds
    isStream := effect.isStream
    channelId := effect.channelID
    tokenId := effect.tokenID
    group := effect.group
    requestId := effect.requestID
    upstreamRequestId := effect.upstreamRequestID
    other := host.mapToJsonStr other }

/-- The transaction of `RecordTaskBillingLogOnce`: insert the receipt, and write the log row only
if the stored receipt carries this attempt's claim token. -/
def recordTaskBillingLogTx (operationKey claimToken : String) (log : Log) (now : ℤ) :
    LogTx PUnit := do
  modify fun db => { db with
    billingLogReceipts := db.billingLogReceipts.insert ⟨operationKey, claimToken, now⟩ }
  let db ← get
  let storedReceipt ← Txn.orThrow (db.billingLogReceipts.first? (·.operationKey = operationKey))
    Sentinel.recordNotFound.error
  if storedReceipt.claimToken ≠ claimToken then pure ⟨⟩
  else modify fun db => { db with logs := db.logs ++ [(operationKey, log)] }

/-- The log step of an effect, or nothing when no log entry is due. -/
def recordTaskBillingLogOnce (host : Host) (db : Tables) (record : BillingSettlement)
    (effect : BillingSettlementEffect) (claimToken : String) (now : ℤ) : LogTx PUnit :=
  if effectQuota record effect ≠ 0 ∨ effect.quotaIsActual then
    if effect.logType = logTypeConsume ∧ ¬ host.logConsumeEnabled then pure ⟨⟩
    else
      recordTaskBillingLogTx record.operationKey claimToken
        (effectLog host db record effect now) now
  else pure ⟨⟩

/-! ### Processing an effect -/

/-- The reads and checks of `ProcessBillingSettlementEffect`: the record and the effect to be
processed, or nothing when there is nothing left to do. -/
def loadSettlementEffect (host : Host) (operationKey : String) :
    Tx (Option (BillingSettlement × BillingSettlementEffect)) := do
  Txn.require (operationKey ≠ "")
    (plainError "billing settlement effect operation key is required")
  let record ← settlementByKey operationKey
  if record.effectPayload = "" ∨ record.effectStatus = .applied then pure none
  else
    Txn.require (record.status = .applied ∧ record.effectStatus = .pending)
      (plainError ("billing settlement effect is not ready: operation=" ++ operationKey ++
        " status=" ++ record.status.text ++ " effect_status=" ++ record.effectStatus.text))
    let effect ← Txn.ofExcept (decodeBillingSettlementEffect host record.effectPayload)
    match effect with
    | none => pure none
    | some effect => do
        Txn.require (¬ (effect.updateUsage ∧ effectQuota record effect < 0))
          (plainError ("billing settlement effect usage quota cannot be negative: operation=" ++
            operationKey ++ " quota=" ++ toString (effectQuota record effect)))
        pure (some (record, effect))

/-- The effect counts towards the usage of the user and the channel. -/
def countsUsage (record : BillingSettlement) (effect : BillingSettlementEffect) : Prop :=
  effect.updateUsage ∧ (0 < effectQuota record effect ∨ effect.quotaIsActual)

instance (record : BillingSettlement) (effect : BillingSettlementEffect) :
    Decidable (countsUsage record effect) :=
  inferInstanceAs (Decidable (_ ∧ _))

/-- The usage counters of a user grow by one request of the quota. -/
def addUserUsage (userID quota : ℤ) (s : Tables) : Tables :=
  { s with
    users := s.users.update (fun u => u.id = userID)
      ⟨fun u => { u with usedQuota := u.usedQuota + quota, requestCount := u.requestCount + 1 },
        keeps fun _ => rfl⟩ }

/-- The usage counter of a channel grows by the quota, if there is a channel. -/
def addChannelUsage (channelID quota : ℤ) (s : Tables) : Tables :=
  if 0 < channelID then
    { s with
      channels := s.channels.update (fun c => c.id = channelID)
        ⟨fun c => { c with usedQuota := c.usedQuota + quota }, keeps fun _ => rfl⟩ }
  else s

/-- The record with a new effect status; the update also stamps `updated_at`. -/
def withEffectStatus (status : EffectStatus) (now : ℤ) (r : BillingSettlement) :
    BillingSettlement :=
  { r with effectStatus := status, updatedAt := now }

/-- `UPDATE billing_settlements SET effect_status = …`. -/
def setEffectStatus (p : BillingSettlement → Prop) [DecidablePred p] (status : EffectStatus)
    (now : ℤ) (s : Tables) : Tables :=
  { s with
    billingSettlements := s.billingSettlements.update p ⟨withEffectStatus status now,
      keeps fun _ => rfl⟩ }

theorem mem_setEffectStatus {p : BillingSettlement → Prop} [DecidablePred p]
    {status : EffectStatus} {now : ℤ} {s : Tables} {r' : BillingSettlement} :
    r' ∈ (setEffectStatus p status now s).billingSettlements ↔
      ∃ r ∈ s.billingSettlements, r' = if p r then withEffectStatus status now r else r := by
  unfold setEffectStatus
  dsimp only
  exact Table.mem_update

/-- The rows a worker may claim: applied funding, effect still pending. -/
def claimable (record r : BillingSettlement) : Prop :=
  r.id = record.id ∧ r.status = .applied ∧ r.effectStatus = .pending

instance (record : BillingSettlement) : DecidablePred (claimable record) := fun _ =>
  inferInstanceAs (Decidable (_ ∧ _))

/-- The rows a worker has claimed. -/
def claimed (record r : BillingSettlement) : Prop := r.id = record.id ∧ r.effectStatus = .applying

instance (record : BillingSettlement) : DecidablePred (claimed record) := fun _ =>
  inferInstanceAs (Decidable (_ ∧ _))

/-- Raise the counters; a missing user fails the transaction. -/
def countUsageTx (record : BillingSettlement) (effect : BillingSettlementEffect) : Tx PUnit :=
  if countsUsage record effect then do
    let db ← get
    Txn.require (db.users.affected (·.id = record.userID) = 1)
      (plainError ("billing settlement effect user not found: user_id=" ++ toString record.userID))
    modify (addUserUsage record.userID (effectQuota record effect))
    modify (addChannelUsage effect.channelID (effectQuota record effect))
  else pure ⟨⟩

/-- The transaction of `ProcessBillingSettlementEffect`. -/
def processBillingSettlementEffectTx (record : BillingSettlement)
    (effect : BillingSettlementEffect) (now : ℤ) : Tx PUnit := do
  let db ← get
  if db.billingSettlements.affected (claimable record) = 0 then pure ⟨⟩
  else
    modify (setEffectStatus (claimable record) .applying now)
    countUsageTx record effect
    let db ← get
    Txn.require (db.billingSettlements.affected (claimed record) = 1)
      (plainError ("billing settlement effect state conflict: operation=" ++ record.operationKey))
    modify (setEffectStatus (claimed record) .applied now)

end MaxApi.Settlement
