import MaxApi.Billing.Schema
import MaxApi.Lib.Text

/-! # The settlement store: keys, identity and durable creation

Every balance mutation is requested as a `BillingSettlementInput` under an operation key.  The
first request for a key creates the record (`ensureBillingSettlementRecordDB`); every later one
must agree with it in all financial parameters (`validateBillingSettlement`), so that the key is
an idempotency boundary.  `ensureManualBillingSettlementRecordDB` creates a record that moves no
balance and waits for an administrator. -/

namespace MaxApi.Settlement

open Relational MaxApi.Billing

/-! ### Effects -/

/-- A value of the free-form map `other`; `raw` is any value the store only passes on. -/
inductive OtherValue where
  | number (value : ℤ)
  | raw (json : String)
  deriving DecidableEq, Repr

/-- The free-form map of a log entry. -/
abbrev Other := List (String × OtherValue)

/-- `other[name] = value`. -/
def Other.set (other : Other) (name : String) (value : OtherValue) : Other :=
  (name, value) :: other.filter fun e => !decide (e.1 = name)

/-- `delete(other, name)`. -/
def Other.erase (other : Other) (name : String) : Other :=
  other.filter fun e => !decide (e.1 = name)

/-- The subscription totals a settlement effect reports. -/
structure BillingSettlementSubscriptionEffect where
  preConsumed : ℤ
  amountTotal : ℤ
  amountUsedAfterPreConsume : ℤ
  deriving DecidableEq, Repr

/-- What follows the funding of a settlement: a log entry and the usage counters. -/
structure BillingSettlementEffect where
  logType : ℤ
  content : String
  channelID : ℤ
  modelName : String
  tokenID : ℤ
  tokenName : String
  group : String
  other : Other
  nodeName : String
  updateUsage : Bool
  quota : ℤ
  quotaIsActual : Bool
  promptTokens : ℤ
  completionTokens : ℤ
  useTimeSeconds : ℤ
  isStream : Bool
  requestID : String
  upstreamRequestID : String
  subscription : Option BillingSettlementSubscriptionEffect
  deriving DecidableEq, Repr

/-- What the store takes from the rest of the process: the text filters, the JSON codec, the
quoting verb of the formatter and the switch for consumption logs. -/
structure Host where
  sanitizePersistedLogContent : String → String
  maskSensitiveInfo : String → String
  marshal : BillingSettlementEffect → Except String String
  unmarshal : String → Except String BillingSettlementEffect
  mapToJsonStr : Other → String
  quoted : String → String
  logConsumeEnabled : Bool

/-- The request for one balance mutation. -/
structure BillingSettlementInput where
  operationKey : String
  source : FundingSource
  userID : ℤ
  subscriptionID : ℤ
  tokenID : ℤ
  fundingDelta : ℤ
  tokenDelta : ℤ
  taskID : ℤ
  taskQuota : ℤ
  taskQuotaTarget : ℤ
  subscriptionPreConsumeRequestID : String
  finalizeSubscriptionPreConsume : Bool
  allowMissingToken : Bool
  manualOnFailure : Bool
  effect : Option BillingSettlementEffect
  preConsumeRequestID : String
  preConsumeModelName : String
  preConsumeRequestedQuota : ℤ
  preConsumeEffectiveQuota : ℤ
  deriving DecidableEq, Repr

/-! ### Operation keys -/

def billingRequestOperationPrefix : String := "request:"
def billingRequestFinalizeSuffix : String := ":finalize"
def billingTaskOperationPrefix : String := "task:"
def billingTaskManualCompletionSuffix : String := ":manual-completion"

def billingRequestFinalizeOperationKey (requestID : String) : String :=
  billingRequestOperationPrefix ++ requestID ++ billingRequestFinalizeSuffix

def billingTaskFinalizeOperationKey (taskID : ℤ) : String :=
  billingTaskOperationPrefix ++ toString taskID ++ billingRequestFinalizeSuffix

def billingTaskManualCompletionOperationKey (taskID : ℤ) : String :=
  billingTaskOperationPrefix ++ toString taskID ++ billingTaskManualCompletionSuffix ++
    billingRequestFinalizeSuffix

/-- The record is the child settlement an administrator approved for its task. -/
def billingSettlementIsManualTaskCompletion (operationKey : String) (taskID : ℤ) : Prop :=
  0 < taskID ∧ operationKey = billingTaskManualCompletionOperationKey taskID

instance (operationKey : String) (taskID : ℤ) :
    Decidable (billingSettlementIsManualTaskCompletion operationKey taskID) :=
  inferInstanceAs (Decidable (_ ∧ _))

/-- The two keys under which a task can be finalized never coincide. -/
theorem billingTaskManualCompletionOperationKey_ne (taskID : ℤ) :
    billingTaskManualCompletionOperationKey taskID ≠ billingTaskFinalizeOperationKey taskID := by
  intro h
  have hlen := congrArg String.length h
  unfold billingTaskManualCompletionOperationKey billingTaskFinalizeOperationKey at hlen
  simp only [String.length_append, billingTaskManualCompletionSuffix] at hlen
  have : (":manual-completion").length = 18 := by decide
  omega

/-! ### Identity of an operation -/

/-- The record was created for exactly the financial parameters of the input. -/
def SameOperation (existing : BillingSettlement) (input : BillingSettlementInput) : Prop :=
  existing.source = input.source ∧
  existing.userID = input.userID ∧
  existing.subscriptionID = input.subscriptionID ∧
  existing.tokenID = input.tokenID ∧
  existing.fundingDelta = input.fundingDelta ∧
  existing.tokenDelta = input.tokenDelta ∧
  existing.taskID = input.taskID ∧
  existing.taskQuota = input.taskQuota ∧
  existing.taskQuotaTarget = input.taskQuotaTarget ∧
  existing.subscriptionPreConsumeRequestID = input.subscriptionPreConsumeRequestID ∧
  existing.finalizeSubscriptionPreConsume = input.finalizeSubscriptionPreConsume ∧
  existing.allowMissingToken = input.allowMissingToken ∧
  existing.manualOnFailure = input.manualOnFailure

instance (existing : BillingSettlement) (input : BillingSettlementInput) :
    Decidable (SameOperation existing input) :=
  inferInstanceAs (Decidable (_ ∧ _))

/-- The record carries the parameters of a pre-consume. -/
def billingSettlementHasPreConsumeFields (record : BillingSettlement) : Prop :=
  record.preConsumeRequestID ≠ "" ∨ record.preConsumeModelName ≠ "" ∨
    record.preConsumeRequestedQuota ≠ 0 ∨ record.preConsumeEffectiveQuota ≠ 0

instance (record : BillingSettlement) :
    Decidable (billingSettlementHasPreConsumeFields record) :=
  inferInstanceAs (Decidable (_ ∨ _))

/-- The record and the input agree on the parameters of a pre-consume. -/
def SamePreConsume (existing : BillingSettlement) (input : BillingSettlementInput) : Prop :=
  existing.preConsumeRequestID = input.preConsumeRequestID ∧
  existing.preConsumeModelName = input.preConsumeModelName ∧
  existing.preConsumeRequestedQuota = input.preConsumeRequestedQuota ∧
  existing.preConsumeEffectiveQuota = input.preConsumeEffectiveQuota

instance (existing : BillingSettlement) (input : BillingSettlementInput) :
    Decidable (SamePreConsume existing input) :=
  inferInstanceAs (Decidable (_ ∧ _))

/-- A replay must not reuse the key with other parameters.  The effect is not compared: the first
persisted payload wins. -/
def validateBillingSettlement (existing : BillingSettlement) (input : BillingSettlementInput) :
    Except Failure Unit :=
  if ¬ SameOperation existing input then
    .error (permanentBillingSettlement (Sentinel.operationConflict.wrap
      ("operation key reused with different parameters: " ++ input.operationKey)))
  else if billingSettlementHasPreConsumeFields existing ∧ ¬ SamePreConsume existing input then
    .error (permanentBillingSettlement (Sentinel.operationConflict.wrap
      ("operation key reused with different pre-consume parameters: " ++ input.operationKey)))
  else .ok ()

theorem validateBillingSettlement_ok {existing : BillingSettlement}
    {input : BillingSettlementInput} {u : Unit} :
    validateBillingSettlement existing input = .ok u ↔ SameOperation existing input ∧
      (billingSettlementHasPreConsumeFields existing → SamePreConsume existing input) := by
  unfold validateBillingSettlement
  by_cases h1 : SameOperation existing input
  · by_cases h2 : billingSettlementHasPreConsumeFields existing ∧ ¬ SamePreConsume existing input
    · simp only [h1, not_true, if_false, if_pos h2, reduceCtorEq, true_and, false_iff, not_forall]
      exact ⟨h2.1, h2.2⟩
    · simp only [h1, not_true, if_false, if_neg h2, true_and, true_iff]
      intro h3
      by_contra h4
      exact h2 ⟨h3, h4⟩
  · simp only [h1, not_false_eq_true, if_true, reduceCtorEq, false_and]

/-- The checks of an input that need no record. -/
def validateBillingSettlementInput (input : BillingSettlementInput) : Except Failure Unit :=
  if input.source ≠ .wallet ∧ input.source ≠ .subscription then
    .error (permanentBillingSettlement
      (plainError ("unsupported billing settlement source: " ++ input.source.text)))
  else if 0 < input.taskID ∧ input.taskQuotaTarget ≠ input.taskQuota + input.fundingDelta then
    .error (permanentBillingSettlement
      (plainError ("task quota target mismatch: task_id=" ++ toString input.taskID ++
        " current=" ++ toString input.taskQuota ++ " target=" ++ toString input.taskQuotaTarget ++
        " funding_delta=" ++ toString input.fundingDelta)))
  else if input.source = .subscription ∧ input.subscriptionPreConsumeRequestID = "" then
    .error (permanentBillingSettlement Sentinel.subscriptionSettlementUnbound.error)
  else if input.finalizeSubscriptionPreConsume ∧
      (input.source ≠ .subscription ∨ 0 ≤ input.fundingDelta) then
    .error (permanentBillingSettlement (plainError
      "subscription pre-consume finalization requires a negative subscription delta"))
  else .ok ()

theorem validateBillingSettlementInput_ok {input : BillingSettlementInput} {u : Unit} :
    validateBillingSettlementInput input = .ok u ↔
      (input.source = .wallet ∨ input.source = .subscription) ∧
      (0 < input.taskID → input.taskQuotaTarget = input.taskQuota + input.fundingDelta) ∧
      (input.source = .subscription → input.subscriptionPreConsumeRequestID ≠ "") ∧
      (input.finalizeSubscriptionPreConsume →
        input.source = .subscription ∧ input.fundingDelta < 0) := by
  unfold validateBillingSettlementInput
  split_ifs with h1 h2 h3 h4
  · simp only [false_iff]
    rintro ⟨h | h, _⟩
    · exact h1.1 h
    · exact h1.2 h
  · simp only [false_iff]
    rintro ⟨_, h, _⟩
    exact h2.2 (h h2.1)
  · simp only [false_iff]
    rintro ⟨_, _, h, _⟩
    exact h h3.1 h3.2
  · simp only [false_iff]
    rintro ⟨_, _, _, h⟩
    obtain ⟨hs, hd⟩ := h h4.1
    rcases h4.2 with h' | h'
    · exact h' hs
    · omega
  · simp only [true_iff]
    refine ⟨?_, ?_, ?_, ?_⟩
    · by_contra h
      exact h1 ⟨fun hw => h (.inl hw), fun hs => h (.inr hs)⟩
    · intro ht
      by_contra h
      exact h2 ⟨ht, h⟩
    · intro hs h
      exact h3 ⟨hs, h⟩
    · intro hf
      by_contra h
      apply h4
      refine ⟨hf, ?_⟩
      by_cases hs : input.source = .subscription
      · right
        by_contra hd
        exact h ⟨hs, by omega⟩
      · exact .inl hs

/-! ### Effect payloads -/

/-- The stored form of an effect; an absent effect is the empty payload. -/
def billingSettlementEffectPayload (host : Host) (effect : Option BillingSettlementEffect) :
    Except String String :=
  match effect with
  | none => .ok ""
  | some effect =>
      host.marshal { effect with content := host.sanitizePersistedLogContent effect.content }

/-- Read a stored effect back. -/
def decodeBillingSettlementEffect (host : Host) (payload : String) :
    Except Failure (Option BillingSettlementEffect) :=
  if payload = "" then .ok none
  else match host.unmarshal payload with
    | .ok effect => .ok (some effect)
    | .error e => .error (plainError e)

def effectStatusAfterSettlement (payload : String) : EffectStatus :=
  if payload = "" then .none else .pending

/-! ### Durable creation -/

/-- The pending record of a fresh operation. -/
def pendingRecord (input : BillingSettlementInput) (effectPayload : String) (now id : ℤ) :
    BillingSettlement where
  id := id
  operationKey := input.operationKey
  source := input.source
  userID := input.userID
  subscriptionID := input.subscriptionID
  tokenID := input.tokenID
  fundingDelta := input.fundingDelta
  appliedFundingDelta := 0
  tokenDelta := input.tokenDelta
  appliedTokenDelta := 0
  taskID := input.taskID
  taskQuota := input.taskQuota
  taskQuotaTarget := input.taskQuotaTarget
  status := .pending
  attempts := 0
  lastError := ""
  nextAttempt := now
  revision := 1
  subscriptionPreConsumeRequestID := input.subscriptionPreConsumeRequestID
  finalizeSubscriptionPreConsume := input.finalizeSubscriptionPreConsume
  allowMissingToken := input.allowMissingToken
  manualOnFailure := input.manualOnFailure
  preConsumeRequestID := input.preConsumeRequestID
  preConsumeModelName := input.preConsumeModelName
  preConsumeRequestedQuota := input.preConsumeRequestedQuota
  preConsumeEffectiveQuota := input.preConsumeEffectiveQuota
  effectPayload := effectPayload
  effectStatus := .none
  reconciliationReviewedAt := 0
  reconciliationReviewedBy := 0
  reconciliationReviewNote := ""
  userBlockingOverride := none
  createdAt := now
  updatedAt := now

/-- The manual record of a settlement whose amount is not known. -/
def manualRecord (input : BillingSettlementInput) (reason : String) (now id : ℤ) :
    BillingSettlement :=
  { pendingRecord input "" now id with
    status := .manual
    lastError := reason
    nextAttempt := 0
    preConsumeRequestID := ""
    preConsumeModelName := ""
    preConsumeRequestedQuota := 0
    preConsumeEffectiveQuota := 0 }

/-- `INSERT … ON CONFLICT (operation_key) DO NOTHING` under the next primary key. -/
def insertSettlement (row : ℤ → BillingSettlement) : Tx PUnit :=
  modify fun db =>
    { db with
      billingSettlements :=
        db.billingSettlements.insert (row (db.billingSettlements.nextID (·.id))) }

/-- The record under an operation key. -/
def settlementByKey (operationKey : String) : Tx BillingSettlement := do
  let db ← get
  Txn.orThrow (db.billingSettlements.first? (·.operationKey = operationKey))
    Sentinel.recordNotFound.error

/-- The record with a primary key. -/
def settlementByID (id : ℤ) : Tx BillingSettlement := do
  let db ← get
  Txn.orThrow (db.billingSettlements.first? (·.id = id)) Sentinel.recordNotFound.error

/-- Whether the funding of a record is settled; the legacy empty status counts as applied. -/
def settled (record : BillingSettlement) : Prop :=
  record.status = .empty ∨ record.status = .applied

instance (record : BillingSettlement) : Decidable (settled record) :=
  inferInstanceAs (Decidable (_ ∨ _))

/-- Create the record of an operation, or find the one that is there and check that it is the same
operation.  The result says whether its funding is settled already. -/
def ensureBillingSettlementRecordDB (host : Host) (input : BillingSettlementInput) (now : ℤ) :
    Tx (BillingSettlement × Bool) := do
  let effectPayload ← Txn.ofExcept
    ((billingSettlementEffectPayload host input.effect).mapError Sentinel.recordNotDurable.wrap)
  insertSettlement (pendingRecord input effectPayload now)
  let record ← settlementByKey input.operationKey
  Txn.ofExcept (validateBillingSettlement record input)
  Txn.require (record.status ≠ .manual) (Sentinel.manualReview.wrap record.lastError)
  pure (record, decide (settled record))

/-- Create a reconciliation-only record that preserves every balance, or find the identical one. -/
def ensureManualBillingSettlementRecordDB (host : Host) (input : BillingSettlementInput)
    (reason : String) (now : ℤ) : Tx BillingSettlement := do
  Txn.require (¬ Text.isBlank input.operationKey)
    (Sentinel.recordNotDurable.wrap "billing settlement operation key is required")
  Txn.require (input.fundingDelta = 0 ∧ input.tokenDelta = 0 ∧
      input.taskQuotaTarget = input.taskQuota ∧ input.effect = none)
    (permanentBillingSettlement (Sentinel.operationConflict.wrap
      "manual settlement must preserve all balances and task quota"))
  Txn.ofExcept (validateBillingSettlementInput input)
  let reason := host.sanitizePersistedLogContent (host.maskSensitiveInfo reason)
  Txn.require (¬ Text.isBlank reason)
    (permanentBillingSettlement (Sentinel.operationConflict.wrap
      "manual settlement reason is required"))
  insertSettlement (manualRecord input reason now)
  let record ← settlementByKey input.operationKey
  Txn.ofExcept (validateBillingSettlement record input)
  Txn.require (record.status = .manual ∧ record.lastError = reason)
    (permanentBillingSettlement (Sentinel.operationConflict.wrap
      ("manual settlement identity conflict: " ++ input.operationKey)))
  pure record

/-! ### Specifications -/

theorem insertSettlement_ok {row : ℤ → BillingSettlement} {s s' : Tables} {u : PUnit} :
    (insertSettlement row).Ok s u s' ↔ { s with
      billingSettlements :=
        s.billingSettlements.insert (row (s.billingSettlements.nextID (·.id))) } = s' :=
  Txn.ok_modify

theorem settlementByKey_readOnly (operationKey : String) :
    Txn.ReadOnly (settlementByKey operationKey) :=
  Txn.readOnly_bind Txn.readOnly_get fun _ => Txn.readOnly_orThrow _ _

theorem settlementByKey_ok {operationKey : String} {s s' : Tables} {r : BillingSettlement} :
    (settlementByKey operationKey).Ok s r s' ↔
      s.billingSettlements.first? (·.operationKey = operationKey) = some r ∧ s = s' := by
  simp [settlementByKey, and_comm]

theorem settlementByID_ok {id : ℤ} {s s' : Tables} {r : BillingSettlement} :
    (settlementByID id).Ok s r s' ↔
      s.billingSettlements.first? (·.id = id) = some r ∧ s = s' := by
  simp [settlementByID, and_comm]

/-- Run statement by statement, `ensureBillingSettlementRecordDB` creates at most the record, also
when it then fails. -/
theorem ensureBillingSettlementRecordDB_exec (host : Host) (input : BillingSettlementInput)
    (now : ℤ) (s : Tables) :
    ((ensureBillingSettlementRecordDB host input now).exec s).2 = s ∨
      ∃ payload, ((ensureBillingSettlementRecordDB host input now).exec s).2 = { s with
        billingSettlements := s.billingSettlements.insert
          (pendingRecord input payload now (s.billingSettlements.nextID (·.id))) } := by
  unfold ensureBillingSettlementRecordDB
  rw [Txn.exec_bind]
  cases billingSettlementEffectPayload host input.effect with
  | error e => exact .inl rfl
  | ok payload =>
      refine .inr ⟨payload, ?_⟩
      simp only [Except.mapError, Txn.exec_ofExcept_ok]
      rw [Txn.exec_bind_readOnly]
      · rfl
      · intro _
        refine Txn.readOnly_bind (settlementByKey_readOnly _) fun _ => ?_
        refine Txn.readOnly_bind (Txn.readOnly_ofExcept _) fun _ => ?_
        exact Txn.readOnly_bind (Txn.readOnly_require _) fun _ => Txn.readOnly_pure _

/-- What `ensureBillingSettlementRecordDB` has done when it returns a record. -/
theorem ensureBillingSettlementRecordDB_ok {host : Host} {input : BillingSettlementInput}
    {now : ℤ} {s s' : Tables} {record : BillingSettlement} {already : Bool}
    (h : (ensureBillingSettlementRecordDB host input now).Ok s (record, already) s') :
    ∃ payload, s' = { s with
        billingSettlements := s.billingSettlements.insert
          (pendingRecord input payload now (s.billingSettlements.nextID (·.id))) } ∧
      record ∈ s'.billingSettlements ∧ record.operationKey = input.operationKey ∧
      SameOperation record input ∧ record.status ≠ .manual ∧ already = decide (settled record) := by
  simp only [ensureBillingSettlementRecordDB, Txn.ok_bind, Txn.ok_ofExcept, Txn.ok_require,
    Txn.ok_pure, insertSettlement_ok, settlementByKey_ok, Prod.mk.injEq,
    validateBillingSettlement_ok] at h
  obtain ⟨payload, _, ⟨_, rfl⟩, _, _, rfl, _, _, ⟨hfirst, rfl⟩, _, _, ⟨⟨hsame, _⟩, rfl⟩, _, _,
    ⟨hman, rfl⟩, ⟨rfl, hal⟩, rfl⟩ := h
  obtain ⟨hmem, hkey⟩ := Table.first?_mem hfirst
  exact ⟨payload, rfl, hmem, hkey, hsame, hman, hal.symm⟩

end MaxApi.Settlement
