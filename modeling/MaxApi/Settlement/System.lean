import MaxApi.Lib.System
import MaxApi.Settlement.Effects

/-! # The settlement store as a concurrent system

The state is the main database, the log database and the calls that are under way, wherever they
run: request handlers, pollers, administrators and the retry runner.  A call is a `Call`: what it
has read so far and the database step it takes next.  `proceed i` lets call `i` take that step,
`crash i` ends it between two steps.  Every list of operations is a run, so any number of calls,
with equal or different inputs, interleave in any order.

`ApplyBillingSettlementOnce` is the sequence `ensure`, then `claim` or `settle`, then on failure
`fail` and `mark`; a pass of the runner starts one such call for every due record it has loaded,
and the passes over effects start an effect call for every due effect.  The sequential loop of the
runner is one of the orders in which these calls can proceed. -/

namespace MaxApi.Settlement

open Relational MaxApi.Billing

/-- A call under way, by the step it takes next. -/
inductive Call where
  /-- `ApplyBillingSettlementOnce`, before `ensureBillingSettlementRecord`. -/
  | ensure (input : BillingSettlementInput)
  /-- The funding was applied before; the pre-consume source is claimed once more. -/
  | claim (input : BillingSettlementInput)
  /-- The record is pending; the settlement transaction comes next. -/
  | settle (input : BillingSettlementInput) (recordID : ℤ)
  /-- The transaction failed; `markBillingSettlementFailure` reads the record next. -/
  | fail (operationKey : String) (cause : Failure)
  /-- The failed record has been read; the guarded write comes next. -/
  | mark (record : BillingSettlement) (cause : Failure)
  /-- `ReviewBillingSettlement` has read the record; the guarded write comes next. -/
  | review (record : BillingSettlement) (reviewerID : ℤ) (blockUser : Bool) (note : String)
  /-- `ProcessBillingSettlementEffect`, before it reads the record. -/
  | effect (operationKey : String)
  /-- The effect has been read; the log entry comes next. -/
  | log (record : BillingSettlement) (effect : BillingSettlementEffect)
  /-- The log entry is written or not due; the usage transaction comes next. -/
  | usage (record : BillingSettlement) (effect : BillingSettlementEffect)
  /-- The call has ended. -/
  | done
  deriving DecidableEq

/-- The state of the system. -/
structure World where
  db : Tables
  logDb : LogTables
  calls : List Call

/-- How a transaction can fail for a reason outside the store. -/
inductive Fault where
  /-- It does not. -/
  | none
  /-- The transaction is rolled back. -/
  | aborted (text : String)
  /-- The transaction commits, but its caller sees an error. -/
  | unacknowledged (text : String)
  deriving DecidableEq

/-- What can happen next. -/
inductive Op where
  /-- Someone calls `ApplyBillingSettlementOnce`. -/
  | apply (input : BillingSettlementInput)
  /-- A pass of `processPendingBillingSettlements` loads the due records. -/
  | runner (now : ℤ)
  /-- Someone calls `ProcessBillingSettlementEffect`. -/
  | processEffect (operationKey : String)
  /-- A pass of `processPendingBillingSettlementEffects` loads the due effects. -/
  | effectRunner
  /-- Call `i` takes its next step, at time `now`; a settlement transaction may fail for a reason
  outside the store, and a log entry is written under a fresh claim token. -/
  | proceed (i : ℕ) (now : ℤ) (fault : Fault) (claimToken : String)
  /-- Call `i` ends between two steps. -/
  | crash (i : ℕ)
  /-- `UpdateWithStatusAndSettlement…` creates a pending record in a transaction of its own. -/
  | persistIntent (input : BillingSettlementInput) (now : ℤ)
  /-- A reconciliation-only record is created. -/
  | persistManual (input : BillingSettlementInput) (reason : String) (now : ℤ)
  /-- An administrator calls `ReviewBillingSettlement`. -/
  | review (id reviewerID : ℤ) (blockUser : Bool) (note : String)
  /-- An administrator calls `ReviewBillingSettlements`. -/
  | reviewAll (targets : List BillingSettlementReviewTarget) (reviewerID now : ℤ)
  /-- An administrator calls `EnsureManualTaskBillingCompletion`. -/
  | ensureCompletion (input : BillingSettlementInput) (reviewerID : ℤ) (note : String) (now : ℤ)
  /-- An administrator calls `ResolveManualTaskBillingSettlement`. -/
  | resolve (id expectedRevision reviewerID : ℤ) (note : String) (now : ℤ)
  /-- A poller calls `PromoteManualTaskBillingSettlement`. -/
  | promote (input : BillingSettlementInput) (reasonPrefix recoveryNote : String) (now : ℤ)
  /-- A user deletes a token. -/
  | deleteToken (id : ℤ)

namespace World

/-- Start calls. -/
def start (w : World) (calls : List Call) : World := { w with calls := w.calls ++ calls }

/-- Call `i` goes on as `call`. -/
def become (w : World) (i : ℕ) (call : Call) : World := { w with calls := w.calls.set i call }

/-- Run one transaction on the main database and drop its result. -/
def commit {α : Type} (w : World) (x : Tx α) : World := { w with db := (transaction x w.db).2 }

end World

variable (host : Host)

/-- The call the runner starts for a due record: a replay, or the failure of one whose effect
cannot be decoded. -/
def runnerCall (record : BillingSettlement) : Call :=
  match decodeBillingSettlementEffect host record.effectPayload with
  | .ok effect => .ensure (replayInput record effect)
  | .error e => .fail record.operationKey (permanentBillingSettlement e)

/-- `ensureBillingSettlementRecord` runs without a transaction of its own. -/
def ensureStep (w : World) (i : ℕ) (input : BillingSettlementInput) (now : ℤ) : World :=
  if input.operationKey = "" then w.become i .done
  else match (ensureBillingSettlementRecordDB host input now).exec w.db with
    | (.ok (record, already), db) =>
        { w with db := db }.become i
          (if already then if input.preConsumeRequestID ≠ "" then .claim input else .done
           else .settle input record.id)
    | (.error _, db) => { w with db := db }.become i .done

/-- The settlement transaction; a failure of any kind is marked on the record. -/
def settleStep (w : World) (i : ℕ) (input : BillingSettlementInput) (recordID now : ℤ)
    (fault : Fault) : World :=
  match fault, transaction (applyBillingSettlementTx host input recordID now) w.db with
  | .aborted text, _ => w.become i (.fail input.operationKey (plainError text))
  | .unacknowledged text, (.ok _, db) =>
      { w with db := db }.become i (.fail input.operationKey (plainError text))
  | .none, (.ok _, db) => { w with db := db }.become i .done
  | _, (.error e, _) => w.become i (.fail input.operationKey e)

/-- The read of `markBillingSettlementFailure`. -/
def failStep (w : World) (i : ℕ) (operationKey : String) (cause : Failure) : World :=
  if operationKey = "" then w.become i .done
  else match w.db.billingSettlements.first? (·.operationKey = operationKey) with
    | some record => w.become i (.mark record cause)
    | none => w.become i .done

/-- The read of `ProcessBillingSettlementEffect`. -/
def effectStep (w : World) (i : ℕ) (operationKey : String) : World :=
  match (transaction (loadSettlementEffect host operationKey) w.db).1 with
  | .ok (some (record, effect)) => w.become i (.log record effect)
  | _ => w.become i .done

/-- The log step, under a claim token no earlier attempt has used. -/
def logStep (w : World) (i : ℕ) (record : BillingSettlement) (effect : BillingSettlementEffect)
    (claimToken : String) (now : ℤ) : World :=
  if ∃ r ∈ w.logDb.billingLogReceipts.rows, r.claimToken = claimToken then w
  else match transaction (recordTaskBillingLogOnce host w.db record effect claimToken now)
    w.logDb with
    | (.ok _, logDb) => { w with logDb := logDb }.become i (.usage record effect)
    | (.error _, _) => w.become i .done

/-- The next step of a call. -/
def proceedStep (w : World) (i : ℕ) (now : ℤ) (fault : Fault) (claimToken : String) :
    Call → World
  | .ensure input => ensureStep host w i input now
  | .claim input =>
      (w.commit (claimBillingPreConsumeSourceTx host
        (billingPreConsumeSelectionFromSettlement input now))).become i .done
  | .settle input recordID => settleStep host w i input recordID now fault
  | .fail operationKey cause => failStep w i operationKey cause
  | .mark record cause =>
      { w with db := markBillingSettlementFailure w.db record cause now }.become i .done
  | .review record reviewerID blockUser note =>
      { w with
        db := reviewBillingSettlement w.db record reviewerID blockUser note now }.become i .done
  | .effect operationKey => effectStep host w i operationKey
  | .log record effect => logStep host w i record effect claimToken now
  | .usage record effect =>
      (w.commit (processBillingSettlementEffectTx record effect now)).become i .done
  | .done => w

/-- What an operation makes of the state. -/
def step (w : World) : Op → World
  | .apply input => w.start [.ensure input]
  | .runner now => w.start ((dueSettlements w.db now).map (runnerCall host))
  | .processEffect operationKey => w.start [.effect operationKey]
  | .effectRunner => w.start ((dueEffects w.db).map fun r => .effect r.operationKey)
  | .proceed i now fault claimToken =>
      match w.calls[i]? with
      | some call => proceedStep host w i now fault claimToken call
      | none => w
  | .crash i => w.become i .done
  | .persistIntent input now => w.commit (ensureBillingSettlementRecordDB host input now)
  | .persistManual input reason now =>
      w.commit (ensureManualBillingSettlementRecordDB host input reason now)
  | .review id reviewerID blockUser note =>
      match (transaction (loadReviewSnapshot id reviewerID) w.db).1 with
      | .ok record => w.start [.review record reviewerID blockUser note]
      | .error _ => w
  | .reviewAll targets reviewerID now =>
      w.commit (reviewBillingSettlementsTx targets reviewerID now)
  | .ensureCompletion input reviewerID note now =>
      w.commit (ensureManualTaskBillingCompletionTx host input reviewerID note now)
  | .resolve id expectedRevision reviewerID note now =>
      w.commit (resolveManualTaskBillingSettlementTx id expectedRevision reviewerID note now)
  | .promote input reasonPrefix recoveryNote now =>
      w.commit (promoteManualTaskBillingSettlementTx host input reasonPrefix recoveryNote now)
  | .deleteToken id => { w with db := { w.db with tokens := w.db.tokens.delete (·.id = id) } }

theorem step_proceed {w : World} {i : ℕ} {call : Call} (h : w.calls[i]? = some call) (now : ℤ)
    (fault : Fault) (claimToken : String) :
    step host w (.proceed i now fault claimToken) =
      proceedStep host w i now fault claimToken call := by
  unfold step
  simp only [h]

theorem step_proceed_none {w : World} {i : ℕ} (h : w.calls[i]? = none) (now : ℤ)
    (fault : Fault) (claimToken : String) :
    step host w (.proceed i now fault claimToken) = w := by
  unfold step
  simp only [h]

/-- A process whose text filters change nothing and whose codec knows a single effect. -/
def plainHost (known : BillingSettlementEffect) : Host where
  sanitizePersistedLogContent := id
  maskSensitiveInfo := id
  marshal _ := .ok "effect"
  unmarshal payload := if payload = "effect" then .ok known else .error "unknown payload"
  mapToJsonStr _ := "{}"
  quoted s := "\"" ++ s ++ "\""
  logConsumeEnabled := true

/-- The state after a list of operations. -/
abbrev runs (w : World) (ops : List Op) : World := Transition.run (step host) w ops

end MaxApi.Settlement
