import MaxApi.Lib.Simulation
import MaxApi.Settlement.System

/-! # What settlements know about reservations

Of all the bodies of the store only `applySubscriptionDeltaTx` looks at the reservations of
subscriptions.  The others do on a database with other reservations what they do on this one, and
so does every step of the store that does not run the settlement transaction. -/

namespace MaxApi.Settlement

open Relational MaxApi.Billing

/-- The database with other reservations. -/
def withReservations (T : Table SubscriptionPreConsumeRecord) (s : Tables) : Tables :=
  { s with subscriptionPreConsumeRecords := T }

/-- The body neither reads nor writes reservations. -/
def IgnoresReservations {α : Type} (x : Tx α) : Prop := ∀ T, Txn.Commutes (withReservations T) x

section rules

variable {α β : Type}

theorem ignores_pure (a : α) : IgnoresReservations (pure a) := fun _ => Txn.commutes_pure a

theorem ignores_throw (e : Failure) : IgnoresReservations (throw e : Tx α) :=
  fun _ => Txn.commutes_throw e

theorem ignores_require {p : Prop} [Decidable p] (e : Failure) :
    IgnoresReservations (Txn.require p e) := fun _ => Txn.commutes_require e

theorem ignores_orThrow (o : Option α) (e : Failure) : IgnoresReservations (Txn.orThrow o e) :=
  fun _ => Txn.commutes_orThrow o e

theorem ignores_ofExcept (r : Except Failure α) : IgnoresReservations (Txn.ofExcept r) :=
  fun _ => Txn.commutes_ofExcept r

theorem ignores_bind {x : Tx α} {g : α → Tx β} (hx : IgnoresReservations x)
    (hg : ∀ a, IgnoresReservations (g a)) : IgnoresReservations (x >>= g) :=
  fun T => Txn.commutes_bind (hx T) fun a => hg a T

theorem ignores_get {g : Tables → Tx β} (hsame : ∀ T s, g (withReservations T s) = g s)
    (hg : ∀ s, IgnoresReservations (g s)) : IgnoresReservations (get >>= g) :=
  fun T => Txn.commutes_get (hsame T) fun s => hg s T

theorem ignores_modify {g : Tables → Tables}
    (h : ∀ T s, g (withReservations T s) = withReservations T (g s)) :
    IgnoresReservations (modify g) :=
  fun T => Txn.commutes_modify (h T)

theorem ignores_ite {p : Prop} [Decidable p] {x y : Tx α} (hx : IgnoresReservations x)
    (hy : IgnoresReservations y) : IgnoresReservations (if p then x else y) :=
  fun T => Txn.commutes_ite (hx T) (hy T)

end rules

/-! ### The bodies -/

section bodies

variable (host : Host)

theorem insertSettlement_ignores (row : ℤ → BillingSettlement) :
    IgnoresReservations (insertSettlement row) :=
  ignores_modify fun _ _ => rfl

theorem settlementByKey_ignores (operationKey : String) :
    IgnoresReservations (settlementByKey operationKey) :=
  ignores_get (fun _ _ => rfl) fun _ => ignores_orThrow _ _

theorem settlementByID_ignores (id : ℤ) : IgnoresReservations (settlementByID id) :=
  ignores_get (fun _ _ => rfl) fun _ => ignores_orThrow _ _

theorem ensureBillingSettlementRecordDB_ignores (input : BillingSettlementInput) (now : ℤ) :
    IgnoresReservations (ensureBillingSettlementRecordDB host input now) := by
  unfold ensureBillingSettlementRecordDB
  refine ignores_bind (ignores_ofExcept _) fun _ => ?_
  refine ignores_bind (insertSettlement_ignores _) fun _ => ?_
  refine ignores_bind (settlementByKey_ignores _) fun _ => ?_
  refine ignores_bind (ignores_ofExcept _) fun _ => ?_
  exact ignores_bind (ignores_require _) fun _ => ignores_pure _

theorem ensureManualBillingSettlementRecordDB_ignores (input : BillingSettlementInput)
    (reason : String) (now : ℤ) :
    IgnoresReservations (ensureManualBillingSettlementRecordDB host input reason now) := by
  unfold ensureManualBillingSettlementRecordDB
  refine ignores_bind (ignores_require _) fun _ => ?_
  refine ignores_bind (ignores_require _) fun _ => ?_
  refine ignores_bind (ignores_ofExcept _) fun _ => ?_
  refine ignores_bind (ignores_require _) fun _ => ?_
  refine ignores_bind (insertSettlement_ignores _) fun _ => ?_
  refine ignores_bind (settlementByKey_ignores _) fun _ => ?_
  refine ignores_bind (ignores_ofExcept _) fun _ => ?_
  exact ignores_bind (ignores_require _) fun _ => ignores_pure _

theorem claimBillingPreConsumeSourceTx_ignores (selection : BillingPreConsumeSelection) :
    IgnoresReservations (claimBillingPreConsumeSourceTx host selection) := by
  unfold claimBillingPreConsumeSourceTx
  refine ignores_bind (ignores_require _) fun _ => ?_
  refine ignores_bind (ignores_require _) fun _ => ?_
  refine ignores_bind (ignores_modify fun _ _ => rfl) fun _ => ?_
  refine ignores_get (fun _ _ => rfl) fun _ => ?_
  exact ignores_bind (ignores_orThrow _ _) fun _ => ignores_require _

theorem claimSettlementSource_ignores (input : BillingSettlementInput) (now : ℤ) :
    IgnoresReservations (claimSettlementSource host input now) :=
  ignores_ite (claimBillingPreConsumeSourceTx_ignores host _) (ignores_pure _)

theorem resolveSettlementToken_ignores (input : BillingSettlementInput) :
    IgnoresReservations (resolveSettlementToken input) := by
  unfold resolveSettlementToken
  refine ignores_ite (ignores_get (fun _ _ => rfl) fun db => ?_) (ignores_pure _)
  cases db.tokens.first? (·.id = input.tokenID) with
  | none => exact ignores_ite (ignores_pure _) (ignores_throw _)
  | some token => exact ignores_bind (ignores_require _) fun _ => ignores_pure _

theorem checkTaskQuota_ignores (input : BillingSettlementInput) :
    IgnoresReservations (checkTaskQuota input) := by
  unfold checkTaskQuota
  refine ignores_ite (ignores_get (fun _ _ => rfl) fun _ => ?_) (ignores_pure _)
  exact ignores_bind (ignores_orThrow _ _) fun _ => ignores_require _

theorem applyWalletDeltaTx_ignores (userID delta : ℤ) :
    IgnoresReservations (applyWalletDeltaTx userID delta) := by
  unfold applyWalletDeltaTx
  refine ignores_ite ?_ (ignores_ite ?_ (ignores_pure _))
  · refine ignores_get (fun _ _ => rfl) fun _ => ?_
    exact ignores_bind (ignores_require _) fun _ => ignores_modify fun _ _ => rfl
  · refine ignores_get (fun _ _ => rfl) fun _ => ?_
    exact ignores_bind (ignores_require _) fun _ => ignores_modify fun _ _ => rfl

theorem postConsumeUserSubscriptionDeltaTx_ignores (id delta now : ℤ) :
    IgnoresReservations (postConsumeUserSubscriptionDeltaTx id delta now) := by
  unfold postConsumeUserSubscriptionDeltaTx
  refine ignores_get (fun _ _ => rfl) fun _ => ?_
  refine ignores_bind (ignores_orThrow _ _) fun _ => ?_
  refine ignores_ite ?_ (ignores_ite (ignores_pure _) ?_)
  · refine ignores_bind (ignores_require _) fun _ => ?_
    refine ignores_bind (ignores_require _) fun _ => ?_
    exact ignores_bind (ignores_modify fun _ _ => rfl) fun _ => ignores_pure _
  · refine ignores_bind (ignores_require _) fun _ => ?_
    exact ignores_bind (ignores_modify fun _ _ => rfl) fun _ => ignores_pure _

theorem applyTokenDeltaTx_ignores (userID tokenID delta : ℤ) (allowMissing : Bool) (now : ℤ) :
    IgnoresReservations (applyTokenDeltaTx userID tokenID delta allowMissing now) := by
  unfold applyTokenDeltaTx
  refine ignores_ite (ignores_pure _) (ignores_ite ?_ ?_)
  · refine ignores_get (fun _ _ => rfl) fun _ => ?_
    refine ignores_ite (ignores_modify fun _ _ => rfl) ?_
    exact ignores_ite (ignores_throw _) (ignores_throw _)
  · refine ignores_get (fun _ _ => rfl) fun _ => ?_
    refine ignores_ite (ignores_modify fun _ _ => rfl) ?_
    exact ignores_ite (ignores_pure _) (ignores_throw _)

theorem writeTaskQuota_ignores (input : BillingSettlementInput) (applied now : ℤ) :
    IgnoresReservations (writeTaskQuota input applied now) := by
  unfold writeTaskQuota
  refine ignores_ite (ignores_get (fun _ _ => rfl) fun _ => ?_) (ignores_pure _)
  exact ignores_bind (ignores_require _) fun _ => ignores_modify fun _ _ => rfl

theorem markApplied_ignores (input : BillingSettlementInput) (current : BillingSettlement)
    (applied appliedToken now : ℤ) :
    IgnoresReservations (markApplied input current applied appliedToken now) := by
  unfold markApplied
  refine ignores_get (fun _ _ => rfl) fun _ => ?_
  exact ignores_bind (ignores_require _) fun _ => ignores_modify fun _ _ => rfl

theorem loadReviewSnapshot_ignores (id reviewerID : ℤ) :
    IgnoresReservations (loadReviewSnapshot id reviewerID) := by
  unfold loadReviewSnapshot
  refine ignores_bind (ignores_require _) fun _ => ?_
  refine ignores_get (fun _ _ => rfl) fun _ => ?_
  refine ignores_bind (ignores_orThrow _ _) fun _ => ?_
  refine ignores_bind (ignores_require _) fun _ => ?_
  exact ignores_bind (ignores_require _) fun _ => ignores_pure _

theorem reviewTarget_ignores (reviewerID now : ℤ) (target : BillingSettlementReviewTarget) :
    IgnoresReservations (reviewTarget reviewerID now target) := by
  unfold reviewTarget
  refine ignores_get (fun _ _ => rfl) fun _ => ?_
  refine ignores_bind (ignores_orThrow _ _) fun _ => ?_
  refine ignores_bind (ignores_require _) fun _ => ?_
  refine ignores_bind (ignores_require _) fun _ => ?_
  exact ignores_bind (ignores_require _) fun _ => ignores_modify fun _ _ => rfl

theorem reviewTargets_ignores (reviewerID now : ℤ) :
    ∀ targets, IgnoresReservations (reviewTargets reviewerID now targets)
  | [] => ignores_pure _
  | target :: targets =>
      ignores_bind (reviewTarget_ignores reviewerID now target) fun _ =>
        reviewTargets_ignores reviewerID now targets

theorem reviewBillingSettlementsTx_ignores (targets : List BillingSettlementReviewTarget)
    (reviewerID now : ℤ) :
    IgnoresReservations (reviewBillingSettlementsTx targets reviewerID now) :=
  ignores_bind (ignores_require _) fun _ => ignores_bind (ignores_require _) fun _ =>
    reviewTargets_ignores reviewerID now _

theorem reapproveManualTaskBillingCompletionDB_ignores (input : BillingSettlementInput)
    (reviewerID : ℤ) (note : String) (now : ℤ) :
    IgnoresReservations (reapproveManualTaskBillingCompletionDB input reviewerID note now) := by
  unfold reapproveManualTaskBillingCompletionDB
  refine ignores_bind (settlementByKey_ignores _) fun _ => ?_
  refine ignores_bind (ignores_require _) fun _ => ?_
  refine ignores_bind (ignores_ofExcept _) fun _ => ?_
  refine ignores_get (fun _ _ => rfl) fun _ => ?_
  refine ignores_bind (ignores_require _) fun _ => ?_
  exact ignores_bind (ignores_modify fun _ _ => rfl) fun _ => settlementByID_ignores _

theorem approveCompletionRecord_ignores (record : BillingSettlement) (reviewerID : ℤ)
    (note : String) (now : ℤ) :
    IgnoresReservations (approveCompletionRecord record reviewerID note now) := by
  unfold approveCompletionRecord
  refine ignores_ite (ignores_bind (ignores_require _) fun _ => ignores_pure _) ?_
  refine ignores_get (fun _ _ => rfl) fun _ => ?_
  refine ignores_bind (ignores_require _) fun _ => ?_
  exact ignores_bind (ignores_modify fun _ _ => rfl) fun _ => settlementByID_ignores _

theorem ensureManualTaskBillingCompletionTx_ignores (input : BillingSettlementInput)
    (reviewerID : ℤ) (note : String) (now : ℤ) :
    IgnoresReservations (ensureManualTaskBillingCompletionTx host input reviewerID note now) := by
  unfold ensureManualTaskBillingCompletionTx
  refine ignores_bind (ignores_require _) fun _ => ?_
  refine ignores_bind
    (fun T => Txn.commutes_recover (ensureBillingSettlementRecordDB_ignores host input now T))
    fun ensured => ?_
  cases ensured with
  | none => exact reapproveManualTaskBillingCompletionDB_ignores _ _ _ _
  | some p => exact approveCompletionRecord_ignores _ _ _ _

theorem resolveManualTaskBillingSettlementTx_ignores (id expectedRevision reviewerID : ℤ)
    (note : String) (now : ℤ) : IgnoresReservations
      (resolveManualTaskBillingSettlementTx id expectedRevision reviewerID note now) := by
  unfold resolveManualTaskBillingSettlementTx
  refine ignores_bind (ignores_require _) fun _ => ?_
  refine ignores_get (fun _ _ => rfl) fun _ => ?_
  refine ignores_bind (ignores_orThrow _ _) fun _ => ?_
  refine ignores_bind (ignores_require _) fun _ => ?_
  refine ignores_bind (ignores_orThrow _ _) fun _ => ?_
  refine ignores_bind (ignores_require _) fun _ => ?_
  refine ignores_ite (ignores_bind (ignores_require _) fun _ => ignores_pure _) ?_
  refine ignores_bind (ignores_require _) fun _ => ?_
  refine ignores_bind (ignores_require _) fun _ => ?_
  exact ignores_bind (ignores_modify fun _ _ => rfl) fun _ => ignores_pure _

theorem promoteManualTaskBillingSettlementTx_ignores (input : BillingSettlementInput)
    (reasonPrefix recoveryNote : String) (now : ℤ) : IgnoresReservations
      (promoteManualTaskBillingSettlementTx host input reasonPrefix recoveryNote now) := by
  unfold promoteManualTaskBillingSettlementTx
  refine ignores_bind (ignores_require _) fun _ => ?_
  refine ignores_bind (ignores_require _) fun _ => ?_
  refine ignores_bind (ignores_require _) fun _ => ?_
  refine ignores_bind (ignores_require _) fun _ => ?_
  refine ignores_bind (ignores_require _) fun _ => ?_
  refine ignores_bind (ignores_ofExcept _) fun _ => ?_
  refine ignores_bind (ignores_ofExcept _) fun _ => ?_
  refine ignores_get (fun _ _ => rfl) fun _ => ?_
  refine ignores_bind (ignores_orThrow _ _) fun _ => ?_
  refine ignores_ite (ignores_bind (ignores_ofExcept _) fun _ => ignores_pure _) ?_
  refine ignores_bind (ignores_require _) fun _ => ?_
  refine ignores_bind (ignores_require _) fun _ => ?_
  refine ignores_bind (ignores_require _) fun _ => ?_
  exact ignores_bind (ignores_modify fun _ _ => rfl) fun _ => ignores_pure _

theorem loadSettlementEffect_ignores (operationKey : String) :
    IgnoresReservations (loadSettlementEffect host operationKey) := by
  unfold loadSettlementEffect
  refine ignores_bind (ignores_require _) fun _ => ?_
  refine ignores_bind (settlementByKey_ignores _) fun _ => ?_
  refine ignores_ite (ignores_pure _) ?_
  refine ignores_bind (ignores_require _) fun _ => ?_
  refine ignores_bind (ignores_ofExcept _) fun effect => ?_
  cases effect with
  | none => exact ignores_pure _
  | some effect => exact ignores_bind (ignores_require _) fun _ => ignores_pure _

theorem addChannelUsage_withReservations (channelID quota : ℤ)
    (T : Table SubscriptionPreConsumeRecord) (s : Tables) :
    addChannelUsage channelID quota (withReservations T s) =
      withReservations T (addChannelUsage channelID quota s) := by
  unfold addChannelUsage
  split
  · rfl
  · rfl

theorem processBillingSettlementEffectTx_ignores (record : BillingSettlement)
    (effect : BillingSettlementEffect) (now : ℤ) :
    IgnoresReservations (processBillingSettlementEffectTx record effect now) := by
  unfold processBillingSettlementEffectTx countUsageTx
  refine ignores_get (fun _ _ => rfl) fun _ => ?_
  refine ignores_ite (ignores_pure _) ?_
  refine ignores_bind (ignores_modify fun _ _ => rfl) fun _ => ?_
  refine ignores_bind (ignores_ite ?_ (ignores_pure _)) fun _ => ?_
  · refine ignores_get (fun _ _ => rfl) fun _ => ?_
    refine ignores_bind (ignores_require _) fun _ => ?_
    refine ignores_bind (ignores_modify fun _ _ => rfl) fun _ => ?_
    exact ignores_modify (addChannelUsage_withReservations _ _)
  · refine ignores_get (fun _ _ => rfl) fun _ => ?_
    exact ignores_bind (ignores_require _) fun _ => ignores_modify fun _ _ => rfl

end bodies

/-! ### The steps -/

namespace World

/-- The state with other reservations. -/
def withReservations (T : Table SubscriptionPreConsumeRecord) (w : World) : World :=
  { w with db := Settlement.withReservations T w.db }

end World

/-- The settlement transaction that a step runs, if it runs one. -/
def settling (w : World) : Op → Option (BillingSettlementInput × ℤ)
  | .proceed i _ _ _ =>
      match w.calls[i]? with
      | some (.settle input recordID) => some (input, recordID)
      | _ => none
  | _ => none

theorem settling_eq_some {w : World} {op : Op} {input : BillingSettlementInput} {recordID : ℤ}
    (h : settling w op = some (input, recordID)) : ∃ i now fault claimToken,
      op = .proceed i now fault claimToken ∧ w.calls[i]? = some (.settle input recordID) := by
  cases op with
  | proceed i now fault claimToken =>
      refine ⟨i, now, fault, claimToken, rfl, ?_⟩
      unfold settling at h
      dsimp only at h
      split at h
      · next hcall =>
        rw [hcall]
        simp only [Option.some.injEq, Prod.mk.injEq] at h
        rw [h.1, h.2]
      · simp at h
  | _ => simp [settling] at h

section steps

variable (host : Host) (T : Table SubscriptionPreConsumeRecord) (w : World)

theorem commit_withReservations {α : Type} {x : Tx α} (hx : IgnoresReservations x) :
    (w.withReservations T).commit x = (w.commit x).withReservations T := by
  unfold World.commit
  rw [show (transaction x (w.withReservations T).db) = _ from (hx T).transaction w.db]
  rfl

theorem ensureStep_withReservations (i : ℕ) (input : BillingSettlementInput) (now : ℤ) :
    ensureStep host (w.withReservations T) i input now =
      (ensureStep host w i input now).withReservations T := by
  unfold ensureStep
  split
  · rfl
  · rw [show (ensureBillingSettlementRecordDB host input now).exec (w.withReservations T).db =
        _ from ensureBillingSettlementRecordDB_ignores host input now T w.db]
    rcases (ensureBillingSettlementRecordDB host input now).exec w.db with ⟨r, db⟩
    cases r with
    | ok p => rfl
    | error e => rfl

theorem failStep_withReservations (i : ℕ) (operationKey : String) (cause : Failure) :
    failStep (w.withReservations T) i operationKey cause =
      (failStep w i operationKey cause).withReservations T := by
  unfold failStep
  rw [show (w.withReservations T).db.billingSettlements = w.db.billingSettlements from rfl]
  split
  · rfl
  · split
    · rfl
    · rfl

theorem effectStep_withReservations (i : ℕ) (operationKey : String) :
    effectStep host (w.withReservations T) i operationKey =
      (effectStep host w i operationKey).withReservations T := by
  unfold effectStep
  rw [show (transaction (loadSettlementEffect host operationKey) (w.withReservations T).db) = _ from
    (loadSettlementEffect_ignores host operationKey T).transaction w.db]
  dsimp only
  split
  · rfl
  · rfl

theorem logStep_withReservations (i : ℕ) (record : BillingSettlement)
    (effect : BillingSettlementEffect) (claimToken : String) (now : ℤ) :
    logStep host (w.withReservations T) i record effect claimToken now =
      (logStep host w i record effect claimToken now).withReservations T := by
  unfold logStep
  rw [show (w.withReservations T).logDb = w.logDb from rfl]
  rw [show recordTaskBillingLogOnce host (w.withReservations T).db record effect claimToken now =
    recordTaskBillingLogOnce host w.db record effect claimToken now from rfl]
  split
  · rfl
  · split
    · rfl
    · rfl

/-- The next step of a call that does not run the settlement transaction. -/
theorem proceedStep_withReservations (i : ℕ) (now : ℤ) (fault : Fault) (claimToken : String)
    {call : Call} (hcall : ∀ input recordID, call ≠ .settle input recordID) :
    proceedStep host (w.withReservations T) i now fault claimToken call =
      (proceedStep host w i now fault claimToken call).withReservations T := by
  cases call with
  | ensure input => exact ensureStep_withReservations host T w i input now
  | claim input =>
      show World.become _ _ _ = _
      rw [commit_withReservations T w (claimBillingPreConsumeSourceTx_ignores host _)]
      rfl
  | settle input recordID => exact absurd rfl (hcall input recordID)
  | fail operationKey cause => exact failStep_withReservations T w i operationKey cause
  | mark | review | done => rfl
  | effect operationKey => exact effectStep_withReservations host T w i operationKey
  | log record effect => exact logStep_withReservations host T w i record effect claimToken now
  | usage record effect =>
      show World.become _ _ _ = _
      rw [commit_withReservations T w (processBillingSettlementEffectTx_ignores _ _ _)]
      rfl

/-- **A step that runs no settlement transaction** does on other reservations what it does on
these. -/
theorem step_withReservations {op : Op} (hop : settling w op = none) :
    step host (w.withReservations T) op = (step host w op).withReservations T := by
  cases op with
  | apply | runner | processEffect | effectRunner | crash | deleteToken => rfl
  | proceed i now fault claimToken =>
      cases hcall : w.calls[i]? with
      | none =>
          rw [step_proceed_none host hcall]
          exact step_proceed_none host (w := w.withReservations T) hcall now fault claimToken
      | some call =>
          rw [step_proceed host hcall]
          rw [step_proceed host (w := w.withReservations T) hcall]
          refine proceedStep_withReservations host T w i now fault claimToken ?_
          rintro input recordID rfl
          simp [settling, hcall] at hop
  | persistIntent input now =>
      exact commit_withReservations T w (ensureBillingSettlementRecordDB_ignores host input now)
  | persistManual input reason now =>
      exact commit_withReservations T w
        (ensureManualBillingSettlementRecordDB_ignores host input reason now)
  | review id reviewerID blockUser note =>
      unfold step
      dsimp only
      rw [show (transaction (loadReviewSnapshot id reviewerID) (w.withReservations T).db) = _ from
        (loadReviewSnapshot_ignores id reviewerID T).transaction w.db]
      dsimp only
      split
      · rfl
      · rfl
  | reviewAll targets reviewerID now =>
      exact commit_withReservations T w (reviewBillingSettlementsTx_ignores targets reviewerID now)
  | ensureCompletion input reviewerID note now =>
      exact commit_withReservations T w
        (ensureManualTaskBillingCompletionTx_ignores host input reviewerID note now)
  | resolve id expectedRevision reviewerID note now =>
      exact commit_withReservations T w
        (resolveManualTaskBillingSettlementTx_ignores id expectedRevision reviewerID note now)
  | promote input reasonPrefix recoveryNote now =>
      exact commit_withReservations T w
        (promoteManualTaskBillingSettlementTx_ignores host input reasonPrefix recoveryNote now)

end steps

end MaxApi.Settlement
