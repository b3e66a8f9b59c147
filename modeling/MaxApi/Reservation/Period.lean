import MaxApi.Subscription.LifeTime
import MaxApi.Settlement.Apply
import Mathlib.Data.List.Sort

/-! # Quota periods

A subscription counts its usage per quota period.  `last_reset_time` is the anchor of the period:
every reservation remembers the anchor it was made under, and a settlement is accepted only under
the same anchor.  Four paths write it: the lazy reset of a pre-consume, which catches up with the
periods that are over or gives a row without an end its first period, the reset of the rows that
are due, and the two resets of an administrator. -/

namespace MaxApi.Reservation

open Relational MaxApi.Billing MaxApi.Subscription

/-! ### The current period -/

/-- What a reset takes from outside the row. -/
structure ResetContext where
  cal : Calendar
  /-- The plan that the lookup for a subscription returns. -/
  planOf : UserSubscription → Option SubscriptionPlan
  /-- The database's time. -/
  now : ℤ
  /-- The process's time, which the update hooks stamp. -/
  updatedAt : ℤ
  /-- How many rounds a catch-up loop may take; a call whose loop is still running commits
  nothing. -/
  fuel : ℕ

def getSubscriptionPlanByIdTx (ctx : ResetContext) (sub : UserSubscription) :
    Tx SubscriptionPlan := do
  Txn.require (0 < sub.planId) (plainError "invalid plan id")
  Txn.orThrow (ctx.planOf sub) Sentinel.recordNotFound.error

/-- What `maybeResetUserSubscriptionWithPlanTx` finds out about the period of a row. -/
inductive PeriodUpdate where
  /-- The period goes on. -/
  | keep
  /-- The row gets the end of its period, and the anchor that belongs to it. -/
  | initialise (lastResetTime nextResetTime : ℤ)
  /-- The period is over, and the usage starts at zero. -/
  | restart (lastResetTime nextResetTime : ℤ)
  deriving DecidableEq, Repr

/-- Where the period of a row starts: at its anchor, or at its start if it has none. -/
def periodBase (sub : UserSubscription) : ℤ :=
  if sub.lastResetTime ≤ 0 then sub.startTime else sub.lastResetTime

/-- The loop over the periods that are over, at a period from `base` to `next`. -/
def catchUp (ctx : ResetContext) (plan : SubscriptionPlan) (endTime : ℤ) :
    ℕ → ℤ → ℤ → Option (ℤ × ℤ)
  | 0, _, _ => none
  | fuel + 1, base, next =>
      if 0 < next ∧ next ≤ ctx.now then
        catchUp ctx plan endTime fuel next (calcNextResetTime ctx.cal next plan endTime)
      else some (base, next)

/-- The decision of `maybeResetUserSubscriptionWithPlanTx`. -/
def periodUpdate (ctx : ResetContext) (plan : SubscriptionPlan) (sub : UserSubscription) :
    Option PeriodUpdate :=
  if 0 < sub.nextResetTime ∧ ctx.now < sub.nextResetTime then some .keep
  else if normalizeResetPeriod plan.quotaResetPeriod = .never then some .keep
  else
    let base := periodBase sub
    let next := calcNextResetTime ctx.cal base plan sub.endTime
    if 0 < next ∧ next ≤ ctx.now then
      (catchUp ctx plan sub.endTime ctx.fuel next
        (calcNextResetTime ctx.cal next plan sub.endTime)).map fun p => .restart p.1 p.2
    else if sub.nextResetTime = 0 ∧ 0 < next then some (.initialise base next)
    else some .keep

/-- The row after the update. -/
def PeriodUpdate.apply : PeriodUpdate → UserSubscription → UserSubscription
  | .keep, sub => sub
  | .initialise last next, sub => { sub with nextResetTime := next, lastResetTime := last }
  | .restart last next, sub =>
      { sub with amountUsed := 0, lastResetTime := last, nextResetTime := next }

/-- `tx.Save`: the whole row is written as it is in memory. -/
def saveSubscription (sub : UserSubscription) (updatedAt : ℤ) (s : Tables) : Tables :=
  { s with
    userSubscriptions := s.userSubscriptions.update (fun u => u.id = sub.id)
      ⟨fun u => { sub with id := u.id, updatedAt := updatedAt }, keeps fun _ => rfl⟩ }

def maybeResetUserSubscriptionWithPlanTx (ctx : ResetContext) (plan : SubscriptionPlan)
    (sub : UserSubscription) : Tx PeriodUpdate := do
  let update ← Txn.orThrow (periodUpdate ctx plan sub) (plainError "reset loop has not ended")
  if update = .keep then pure .keep
  else do
    modify (saveSubscription (update.apply sub) ctx.updatedAt)
    pure update

/-- The subscription whose usage an update has cleared, if it has. -/
def PeriodUpdate.clears (update : PeriodUpdate) (id : ℤ) : List ℤ :=
  match update with
  | .restart _ _ => [id]
  | _ => []

/-! ### The reset of due rows -/

/-- The transaction of `ResetDueSubscriptions` for one of the rows it has loaded.  The result
names the subscription if its usage was cleared. -/
def resetDueSubscriptionTx (ctx : ResetContext) (id : ℤ) : Tx (List ℤ) := do
  let db ← get
  match db.userSubscriptions.first?
      (fun u => u.id = id ∧ 0 < u.nextResetTime ∧ u.nextResetTime ≤ ctx.now) with
  | none => pure []
  | some locked => do
      let plan ← getSubscriptionPlanByIdTx ctx locked
      let update ← maybeResetUserSubscriptionWithPlanTx ctx plan locked
      pure (update.clears locked.id)

/-! ### The resets of an administrator -/

/-- The row after a reset. -/
def resetSubscription (ctx : ResetContext) (plan : SubscriptionPlan) (advanceResetTime : Bool)
    (sub : UserSubscription) : UserSubscription :=
  if advanceResetTime then
    let nextReset := calcNextResetTime ctx.cal ctx.now plan sub.endTime
    { sub with
      amountUsed := 0
      nextResetTime := nextReset
      lastResetTime := if 0 < nextReset then ctx.now else 0 }
  else { sub with amountUsed := 0 }

/-- A reservation proves that the settlement belongs to an earlier period. -/
def earlierPeriod (s : Tables) (sub : UserSubscription) (r : BillingSettlement) : Prop :=
  ∃ record ∈ s.subscriptionPreConsumeRecords.rows,
    record.requestId = r.subscriptionPreConsumeRequestID ∧ record.userId = r.userID ∧
      record.userSubscriptionId = sub.id ∧ record.userId = sub.userId ∧
      record.subscriptionLastResetTime < sub.lastResetTime ∧ record.status = .consumed

instance (s : Tables) (sub : UserSubscription) : DecidablePred (earlierPeriod s sub) := fun _ =>
  inferInstanceAs (Decidable (∃ record ∈ s.subscriptionPreConsumeRecords.rows, _))

/-- The settlement is the final one of its request or task. -/
def canonicalFinalize (r : BillingSettlement) : Prop :=
  r.operationKey =
      Settlement.billingRequestFinalizeOperationKey r.subscriptionPreConsumeRequestID ∨
    (0 < r.taskID ∧ (r.operationKey = Settlement.billingTaskFinalizeOperationKey r.taskID ∨
      r.operationKey = Settlement.billingTaskManualCompletionOperationKey r.taskID))

instance : DecidablePred canonicalFinalize := fun _ => inferInstanceAs (Decidable (_ ∨ _))

/-- A reservation of the running period, in which a reset that keeps the anchor could not tell it
from later usage. -/
def inPeriod (sub : UserSubscription) (record : SubscriptionPreConsumeRecord) : Prop :=
  record.userSubscriptionId = sub.id ∧ record.subscriptionLastResetTime = sub.lastResetTime ∧
    record.status = .consumed

instance (sub : UserSubscription) : DecidablePred (inPeriod sub) := fun _ =>
  inferInstanceAs (Decidable (_ ∧ _))

/-- The final settlement of a reservation has been applied to the subscription. -/
def finalized (s : Tables) (sub : UserSubscription) (record : SubscriptionPreConsumeRecord) :
    Prop :=
  ∃ r ∈ s.billingSettlements.rows, r.subscriptionPreConsumeRequestID = record.requestId ∧
    canonicalFinalize r ∧ Settlement.settled r ∧ r.source = .subscription ∧
    r.userID = sub.userId ∧ r.subscriptionID = sub.id

instance (s : Tables) (sub : UserSubscription) : DecidablePred (finalized s sub) := fun _ =>
  inferInstanceAs (Decidable (∃ r ∈ s.billingSettlements.rows, _))

/-- The batches of the source decide about each reservation by its own settlements. -/
def validateSubscriptionResetBillingTx (sub : UserSubscription) : Tx Unit := do
  let blocked : Failure := ⟨.subscriptionResetPendingBilling,
    Sentinel.subscriptionResetPendingBilling.text ++ " (subscription_id=" ++ toString sub.id ++ ")",
    false⟩
  let db ← get
  Txn.require (∀ r ∈ db.billingSettlements.rows, r.source = .subscription →
    r.subscriptionID = sub.id → ¬ Settlement.settled r → earlierPeriod db sub r) blocked
  Txn.require (∀ record ∈ db.subscriptionPreConsumeRecords.rows, inPeriod sub record →
    record.userId = sub.userId ∧ finalized db sub record) blocked

/-- A reset that keeps the anchor first checks that no reservation is open. -/
def checkResetBilling (sub updated : UserSubscription) : Tx Unit :=
  if updated.lastResetTime = sub.lastResetTime then validateSubscriptionResetBillingTx sub
  else pure ()

def resetUserSubscriptionTx (ctx : ResetContext) (plan : SubscriptionPlan)
    (advanceResetTime : Bool) (sub : UserSubscription) : Tx PUnit := do
  checkResetBilling sub (resetSubscription ctx plan advanceResetTime sub)
  modify (saveSubscription (resetSubscription ctx plan advanceResetTime sub) ctx.updatedAt)

/-- Reset the subscriptions one after the other.  The result names them. -/
def resetSubscriptions (ctx : ResetContext) (plan : SubscriptionPlan) (advanceResetTime : Bool) :
    List UserSubscription → Tx (List ℤ)
  | [] => pure []
  | sub :: subs => do
      resetUserSubscriptionTx ctx plan advanceResetTime sub
      let rest ← resetSubscriptions ctx plan advanceResetTime subs
      pure (sub.id :: rest)

/-- An active subscription of the plan. -/
def activeOfPlan (planId now : ℤ) (sub : UserSubscription) : Prop :=
  sub.planId = planId ∧ sub.status = .active ∧ now < sub.endTime

instance (planId now : ℤ) : DecidablePred (activeOfPlan planId now) := fun _ =>
  inferInstanceAs (Decidable (_ ∧ _))

/-- The transaction of `AdminResetUserSubscriptionsByPlan`; `plan` is what the lookup returns. -/
def adminResetUserSubscriptionsByPlanTx (ctx : ResetContext) (plan : Option SubscriptionPlan)
    (userId planId : ℤ) (advanceResetTime : Bool) : Tx (List ℤ) := do
  Txn.require (0 < userId ∧ 0 < planId) (plainError "invalid userId or planId")
  let plan ← Txn.orThrow plan Sentinel.recordNotFound.error
  let db ← get
  let subs := (db.userSubscriptions.rows.filter fun sub =>
    decide (sub.userId = userId ∧ activeOfPlan plan.id ctx.now sub)).insertionSort endsBefore
  Txn.require (subs ≠ []) (plainError "该用户没有有效的此套餐订阅")
  resetSubscriptions ctx plan advanceResetTime subs

/-- `ORDER BY user_id ASC, end_time ASC, id ASC`. -/
def userThenEnd (a b : UserSubscription) : Prop :=
  a.userId < b.userId ∨ (a.userId = b.userId ∧ endsBefore a b)

instance : DecidableRel userThenEnd := fun _ _ => inferInstanceAs (Decidable (_ ∨ _))

/-- The transaction of `AdminResetPlanSubscriptions`. -/
def adminResetPlanSubscriptionsTx (ctx : ResetContext) (plan : Option SubscriptionPlan)
    (planId : ℤ) (advanceResetTime : Bool) : Tx (List ℤ) := do
  Txn.require (0 < planId) (plainError "invalid planId")
  let plan ← Txn.orThrow plan Sentinel.recordNotFound.error
  let db ← get
  resetSubscriptions ctx plan advanceResetTime
    ((db.userSubscriptions.rows.filter fun sub =>
      decide (activeOfPlan plan.id ctx.now sub)).insertionSort userThenEnd)

/-! ### Specifications -/

section specifications

variable {ctx : ResetContext} {plan : SubscriptionPlan} {sub : UserSubscription} {s s' : Tables}

/-- A catch-up loop ends when its periods go forward. -/
theorem catchUp_isSome {endTime : ℤ}
    (hforward : ∀ t, 0 < calcNextResetTime ctx.cal t plan endTime →
      t < calcNextResetTime ctx.cal t plan endTime) :
    ∀ (fuel : ℕ) (base : ℤ), (ctx.now - base).toNat < fuel →
      (catchUp ctx plan endTime fuel base (calcNextResetTime ctx.cal base plan endTime)).isSome
  | 0, _, h => by omega
  | fuel + 1, base, h => by
      unfold catchUp
      split
      · next hover =>
        have hlt := hforward base hover.1
        exact catchUp_isSome hforward fuel _ (by omega)
      · rfl

/-- A row is initialised only when its period had no end, and at its base. -/
theorem periodUpdate_initialise {last next : ℤ}
    (h : periodUpdate ctx plan sub = some (.initialise last next)) :
    sub.nextResetTime = 0 ∧ normalizeResetPeriod plan.quotaResetPeriod ≠ .never ∧
      last = periodBase sub ∧ next = calcNextResetTime ctx.cal (periodBase sub) plan sub.endTime ∧
      0 < next ∧ ctx.now < next := by
  unfold periodUpdate at h
  dsimp only at h
  split_ifs at h with hahead hnever hover hfirst
  · simp at h
  · simp at h
  · simp at h
  · simp only [Option.some.injEq, PeriodUpdate.initialise.injEq] at h
    obtain ⟨rfl, rfl⟩ := h
    exact ⟨hfirst.1, hnever, rfl, rfl, hfirst.2, by omega⟩
  · simp at h

theorem maybeResetUserSubscriptionWithPlanTx_ok {update : PeriodUpdate} :
    (maybeResetUserSubscriptionWithPlanTx ctx plan sub).Ok s update s' ↔
      periodUpdate ctx plan sub = some update ∧
        s' = if update = .keep then s
          else saveSubscription (update.apply sub) ctx.updatedAt s := by
  unfold maybeResetUserSubscriptionWithPlanTx
  simp only [Txn.ok_bind, Txn.ok_orThrow, Txn.ok_ite, Txn.ok_pure, Txn.ok_modify]
  constructor
  · rintro ⟨_, _, ⟨hup, rfl⟩, ⟨hkeep, rfl, rfl⟩ | ⟨hkeep, _, _, rfl, rfl, rfl⟩⟩
    · rw [if_pos rfl, hup, hkeep]
      exact ⟨rfl, rfl⟩
    · rw [if_neg hkeep]
      exact ⟨hup, rfl⟩
  · rintro ⟨hup, rfl⟩
    refine ⟨update, s, ⟨hup, rfl⟩, ?_⟩
    by_cases hkeep : update = .keep
    · rw [if_pos hkeep]
      exact .inl ⟨hkeep, hkeep.symm, rfl⟩
    · rw [if_neg hkeep]
      exact .inr ⟨hkeep, ⟨⟩, _, rfl, rfl, rfl⟩

theorem mem_saveSubscription {t : ℤ} {u' : UserSubscription} :
    u' ∈ (saveSubscription sub t s).userSubscriptions ↔ ∃ u ∈ s.userSubscriptions,
      u' = if u.id = sub.id then { sub with id := u.id, updatedAt := t } else u :=
  Table.mem_update

@[simp] theorem PeriodUpdate.apply_id (update : PeriodUpdate) (sub : UserSubscription) :
    (update.apply sub).id = sub.id := by
  cases update with
  | keep | initialise | restart => rfl

/-- The rows after a lazy reset of `sub`: its own row is updated, the others are as they were. -/
theorem mem_maybeReset {update : PeriodUpdate} (hsub : sub ∈ s.userSubscriptions)
    (h : (maybeResetUserSubscriptionWithPlanTx ctx plan sub).Ok s update s') :
    s'.subscriptionPreConsumeRecords = s.subscriptionPreConsumeRecords ∧
      ∀ u' ∈ s'.userSubscriptions, (u'.id ≠ sub.id ∧ u' ∈ s.userSubscriptions) ∨
        ∃ t, u' = { update.apply sub with updatedAt := t } := by
  obtain ⟨_, rfl⟩ := maybeResetUserSubscriptionWithPlanTx_ok.mp h
  by_cases hkeep : update = .keep
  · rw [if_pos hkeep]
    refine ⟨rfl, fun u' hu' => ?_⟩
    by_cases hid : u'.id = sub.id
    · right
      rw [Table.eq_of_clash hu' hsub hid, hkeep]
      exact ⟨sub.updatedAt, rfl⟩
    · exact .inl ⟨hid, hu'⟩
  · rw [if_neg hkeep]
    refine ⟨rfl, fun u' hu' => ?_⟩
    obtain ⟨u, hu, rfl⟩ := mem_saveSubscription.mp hu'
    rw [PeriodUpdate.apply_id]
    by_cases hid : u.id = sub.id
    · right
      rw [if_pos hid, hid]
      refine ⟨ctx.updatedAt, ?_⟩
      rw [← update.apply_id sub]
    · rw [if_neg hid]
      exact .inl ⟨hid, hu⟩

/-- A lazy reset keeps the other rows, and its own one is there. -/
theorem maybeReset_mem {update : PeriodUpdate} (hsub : sub ∈ s.userSubscriptions)
    (h : (maybeResetUserSubscriptionWithPlanTx ctx plan sub).Ok s update s') :
    (∀ u ∈ s.userSubscriptions, u.id ≠ sub.id → u ∈ s'.userSubscriptions) ∧
      ∃ t, { update.apply sub with updatedAt := t } ∈ s'.userSubscriptions := by
  obtain ⟨_, rfl⟩ := maybeResetUserSubscriptionWithPlanTx_ok.mp h
  by_cases hkeep : update = .keep
  · rw [if_pos hkeep, hkeep]
    exact ⟨fun u hu _ => hu, sub.updatedAt, hsub⟩
  · rw [if_neg hkeep]
    constructor
    · intro u hu hid
      refine mem_saveSubscription.mpr ⟨u, hu, ?_⟩
      rw [PeriodUpdate.apply_id, if_neg hid]
    · refine ⟨ctx.updatedAt, mem_saveSubscription.mpr ⟨sub, hsub, ?_⟩⟩
      rw [PeriodUpdate.apply_id, if_pos rfl, ← update.apply_id sub]

theorem checkResetBilling_ok {sub updated : UserSubscription} {u : Unit}
    (h : (checkResetBilling sub updated).Ok s u s') : s' = s := by
  unfold checkResetBilling at h
  rw [Txn.ok_ite] at h
  rcases h with ⟨_, h⟩ | ⟨_, h⟩
  · simp only [validateSubscriptionResetBillingTx, Txn.ok_bind, Txn.ok_get, Txn.ok_require] at h
    obtain ⟨_, _, ⟨rfl, rfl⟩, _, _, ⟨_, rfl⟩, _, rfl⟩ := h
    rfl
  · exact (Txn.ok_pure.mp h).2.symm

end specifications

end MaxApi.Reservation
