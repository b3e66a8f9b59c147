import MaxApi.Settlement.Store

/-! # The settlement store: applying a settlement

`applyBillingSettlementTx` is the transaction of `ApplyBillingSettlementOnce`: it checks that the
record is still pending, moves the funding, the token quota and the task quota, and marks the
record applied, all or nothing.  The bodies below follow the source statement by statement; the
`Tables.move…` functions name what they write, and each `_ok` lemma says that a successful body
has written exactly that, together with the checks it passed. -/

namespace MaxApi.Settlement

open Relational MaxApi.Billing

/-! ### What the mutations write -/

/-- The wallet of a user pays `delta`. -/
def moveWallet (s : Tables) (userID delta : ℤ) : Tables :=
  { s with
    users := s.users.update (fun u => u.id = userID)
      ⟨fun u => { u with quota := u.quota - delta }, keeps fun _ => rfl⟩ }

/-- A token pays `delta`. -/
def moveToken (s : Tables) (tokenID delta now : ℤ) : Tables :=
  { s with
    tokens := s.tokens.update (fun t => t.id = tokenID)
      ⟨fun t => { t with
        remainQuota := t.remainQuota - delta
        usedQuota := t.usedQuota + delta
        accessedTime := now }, keeps fun _ => rfl⟩ }

/-- The usage of a subscription grows by `delta`. -/
def moveSubscription (s : Tables) (subscriptionID delta now : ℤ) : Tables :=
  { s with
    userSubscriptions := s.userSubscriptions.update (fun u => u.id = subscriptionID)
      ⟨fun u => { u with amountUsed := u.amountUsed + delta, updatedAt := now },
        keeps fun _ => rfl⟩ }

/-- The quota of a task becomes `quota`; the update also stamps `updated_at`. -/
def moveTask (s : Tables) (taskID quota now : ℤ) : Tables :=
  { s with
    tasks := s.tasks.update (fun t => t.id = taskID)
      ⟨fun t => { t with quota := quota, updatedAt := now }, keeps fun _ => rfl⟩ }

/-! ### The pre-consume selection -/

def billingPreConsumeSelectionFromSettlement (input : BillingSettlementInput) (now : ℤ) :
    BillingPreConsumeSelection where
  requestID := input.preConsumeRequestID
  source := input.source
  userID := input.userID
  tokenID := input.tokenID
  modelName := input.preConsumeModelName
  requestedQuota := input.preConsumeRequestedQuota
  effectiveQuota := input.preConsumeEffectiveQuota
  createdAt := now

/-- Bind a request to one funding source, or check that it is bound to this one. -/
def claimBillingPreConsumeSourceTx (host : Host) (selection : BillingPreConsumeSelection) :
    Tx Unit := do
  Txn.require (selection.requestID ≠ "" ∧ 0 < selection.userID ∧ 0 ≤ selection.requestedQuota ∧
      0 ≤ selection.effectiveQuota)
    (Sentinel.operationConflict.wrap "invalid billing pre-consume selection")
  Txn.require (selection.source = .wallet ∨ selection.source = .subscription)
    (Sentinel.operationConflict.wrap
      ("invalid billing pre-consume source " ++ host.quoted selection.source.text))
  modify fun db =>
    { db with billingPreConsumeSelections := db.billingPreConsumeSelections.insert selection }
  let db ← get
  let existing ← Txn.orThrow
    (db.billingPreConsumeSelections.first? (·.requestID = selection.requestID))
    Sentinel.recordNotFound.error
  Txn.require (existing.source = selection.source ∧ existing.userID = selection.userID ∧
      existing.tokenID = selection.tokenID ∧ existing.modelName = selection.modelName ∧
      existing.requestedQuota = selection.requestedQuota ∧
      existing.effectiveQuota = selection.effectiveQuota)
    (Sentinel.operationConflict.wrap ("request " ++ selection.requestID ++
      " reused with different pre-consume source or parameters"))

/-- The claim of a settlement that belongs to a pre-consume; others claim nothing. -/
def claimSettlementSource (host : Host) (input : BillingSettlementInput) (now : ℤ) : Tx Unit :=
  if input.preConsumeRequestID ≠ "" then
    claimBillingPreConsumeSourceTx host (billingPreConsumeSelectionFromSettlement input now)
  else pure ()

theorem claimBillingPreConsumeSourceTx_ok {host : Host} {selection : BillingPreConsumeSelection}
    {s s' : Tables} {u : Unit} (h : (claimBillingPreConsumeSourceTx host selection).Ok s u s') :
    ∃ selections, s' = { s with billingPreConsumeSelections := selections } := by
  simp only [claimBillingPreConsumeSourceTx, Txn.ok_bind, Txn.ok_require, Txn.ok_modify,
    Txn.ok_get, Txn.ok_orThrow] at h
  obtain ⟨_, _, ⟨_, rfl⟩, _, _, ⟨_, rfl⟩, _, _, rfl, _, _, ⟨rfl, rfl⟩, _, _, ⟨_, rfl⟩, _, rfl⟩ := h
  exact ⟨_, rfl⟩

theorem claimSettlementSource_ok {host : Host} {input : BillingSettlementInput} {now : ℤ}
    {s s' : Tables} {u : Unit} (h : (claimSettlementSource host input now).Ok s u s') :
    ∃ selections, s' = { s with billingPreConsumeSelections := selections } := by
  unfold claimSettlementSource at h
  rw [Txn.ok_ite] at h
  rcases h with ⟨_, h⟩ | ⟨_, h⟩
  · exact claimBillingPreConsumeSourceTx_ok h
  · rw [Txn.ok_pure] at h
    exact ⟨s.billingPreConsumeSelections, h.2.symm⟩

/-! ### The wallet -/

/-- The wallet branch of `applyFundingDeltaTx`: a charge needs the quota, a refund the user. -/
def applyWalletDeltaTx (userID delta : ℤ) : Tx PUnit :=
  if 0 < delta then do
    let db ← get
    Txn.require (db.users.affected (fun u => u.id = userID ∧ delta ≤ u.quota) = 1)
      (permanentBillingSettlement (Sentinel.userQuotaInsufficient.wrap
        ("id=" ++ toString userID ++ ", need=" ++ toString delta)))
    modify fun db => { db with
      users := db.users.update (fun u => u.id = userID ∧ delta ≤ u.quota)
        ⟨fun u => { u with quota := u.quota - delta }, keeps fun _ => rfl⟩ }
  else if delta < 0 then do
    let db ← get
    Txn.require (db.users.affected (fun u => u.id = userID) = 1)
      (permanentBillingSettlement (Sentinel.userNotFound.wrap ("id=" ++ toString userID)))
    modify fun db => { db with
      users := db.users.update (fun u => u.id = userID)
        ⟨fun u => { u with quota := u.quota + -delta }, keeps fun _ => rfl⟩ }
  else pure ⟨⟩

theorem applyWalletDeltaTx_ok {userID delta : ℤ} {s s' : Tables} {u : PUnit}
    (h : (applyWalletDeltaTx userID delta).Ok s u s') :
    s' = moveWallet s userID delta ∧
      (delta ≠ 0 → ∃ u ∈ s.users, u.id = userID) ∧
      (0 < delta → ∃ u ∈ s.users, u.id = userID ∧ delta ≤ u.quota) := by
  unfold applyWalletDeltaTx at h
  split_ifs at h with hpos hneg
  · simp only [Txn.ok_bind, Txn.ok_get, Txn.ok_require, Txn.ok_modify] at h
    obtain ⟨_, _, ⟨rfl, rfl⟩, _, _, ⟨haff, rfl⟩, rfl⟩ := h
    obtain ⟨u, hu, ⟨hid, hq⟩, huniq⟩ := Table.exists_of_affected_eq_one haff
    refine ⟨?_, fun _ => ⟨u, hu, hid⟩, fun _ => ⟨u, hu, hid, hq⟩⟩
    unfold moveWallet
    congr 1
    exact Table.update_single_congr ⟨hid, hq⟩ hid huniq
      (fun a ha hai => Table.eq_of_clash ha hu (hai.trans hid.symm)) rfl
  · simp only [Txn.ok_bind, Txn.ok_get, Txn.ok_require, Txn.ok_modify] at h
    obtain ⟨_, _, ⟨rfl, rfl⟩, _, _, ⟨haff, rfl⟩, rfl⟩ := h
    obtain ⟨u, hu, hid, _⟩ := Table.exists_of_affected_eq_one haff
    exact ⟨rfl, fun _ => ⟨u, hu, hid⟩, fun h => absurd h hpos⟩
  · rw [Txn.ok_pure] at h
    have h0 : delta = 0 := by omega
    refine ⟨?_, fun h => absurd h0 h, fun h => absurd h hpos⟩
    rw [← h.2, h0]
    unfold moveWallet
    rw [Table.update_eq_self]
    intro a _ _
    simp

/-! ### The subscription -/

/-- A settlement must fall into the quota period its reservation was made in. -/
def validateSubscriptionPreConsumePeriod (record : SubscriptionPreConsumeRecord)
    (sub : UserSubscription) : Except Failure Unit :=
  if record.subscriptionLastResetTime ≠ sub.lastResetTime then
    .error (Sentinel.subscriptionSettlementPeriodChanged.wrap ("request=" ++ record.requestId))
  else .ok ()

/-- Move the usage of a subscription; a refund is clamped at zero usage. -/
def postConsumeUserSubscriptionDeltaTx (userSubscriptionId delta now : ℤ) : Tx ℤ := do
  let db ← get
  let sub ← Txn.orThrow (db.userSubscriptions.first? (·.id = userSubscriptionId))
    Sentinel.recordNotFound.error
  let insufficient := Sentinel.subscriptionQuotaInsufficient.wrap
    ("used=" ++ toString (sub.amountUsed + delta) ++ " total=" ++ toString sub.amountTotal)
  if 0 < delta then
    Txn.require (¬ (0 < sub.amountTotal ∧ sub.amountTotal < sub.amountUsed + delta)) insufficient
    Txn.require (db.userSubscriptions.affected (fun u => u.id = userSubscriptionId ∧
      (0 < sub.amountTotal → u.amountUsed + delta ≤ u.amountTotal)) = 1) insufficient
    modify fun db => { db with
      userSubscriptions := db.userSubscriptions.update (fun u => u.id = userSubscriptionId ∧
          (0 < sub.amountTotal → u.amountUsed + delta ≤ u.amountTotal))
        ⟨fun u => { u with amountUsed := u.amountUsed + delta, updatedAt := now },
          keeps fun _ => rfl⟩ }
    pure delta
  else if sub.amountUsed ≤ 0 then pure 0
  else
    Txn.require (db.userSubscriptions.affected (·.id = userSubscriptionId) = 1)
      (plainError "subscription update conflict")
    modify fun db => { db with
      userSubscriptions := db.userSubscriptions.update (fun u => u.id = userSubscriptionId)
        ⟨fun u => { u with
          amountUsed := if u.amountUsed + delta < 0 then 0 else u.amountUsed + delta
          updatedAt := now }, keeps fun _ => rfl⟩ }
    pure (if sub.amountUsed < -delta then -sub.amountUsed else delta)

/-- What a movement of a subscription's usage by `delta` amounts to: charges are exact, refunds
are clamped at the usage that is there. -/
def clampedDelta (amountUsed delta : ℤ) : ℤ :=
  if 0 < delta then delta
  else if amountUsed ≤ 0 then 0
  else if amountUsed < -delta then -amountUsed
  else delta

/-- The subscription branch that moved nothing wrote nothing. -/
def moveSubscriptionIfAny (s : Tables) (subscriptionID delta now : ℤ) : Tables :=
  if delta = 0 then s else moveSubscription s subscriptionID delta now

theorem postConsumeUserSubscriptionDeltaTx_ok {subscriptionID delta now applied : ℤ}
    {s s' : Tables} (hd : delta ≠ 0)
    (h : (postConsumeUserSubscriptionDeltaTx subscriptionID delta now).Ok s applied s') :
    ∃ sub ∈ s.userSubscriptions, sub.id = subscriptionID ∧
      applied = clampedDelta sub.amountUsed delta ∧
      (0 < delta → 0 < sub.amountTotal → sub.amountUsed + delta ≤ sub.amountTotal) ∧
      s' = moveSubscriptionIfAny s subscriptionID applied now := by
  simp only [postConsumeUserSubscriptionDeltaTx, Txn.ok_bind, Txn.ok_get, Txn.ok_orThrow] at h
  obtain ⟨_, _, ⟨rfl, rfl⟩, sub, _, ⟨hfirst, rfl⟩, h⟩ := h
  obtain ⟨hsub, hid⟩ := Table.first?_mem hfirst
  have huniq : ∀ a ∈ s.userSubscriptions, a.id = subscriptionID → a = sub :=
    fun a ha hai => Table.eq_of_clash ha hsub (hai.trans hid.symm)
  refine ⟨sub, hsub, hid, ?_⟩
  unfold clampedDelta moveSubscriptionIfAny moveSubscription
  simp only [Txn.ok_ite] at h
  rcases h with ⟨hpos, h⟩ | ⟨hpos, ⟨hzero, h⟩ | ⟨hzero, h⟩⟩
  · simp only [Txn.ok_bind, Txn.ok_require, Txn.ok_modify, Txn.ok_pure] at h
    obtain ⟨_, _, ⟨hle, rfl⟩, _, _, ⟨_, rfl⟩, _, _, rfl, rfl, rfl⟩ := h
    rw [if_pos hpos, if_neg hd]
    refine ⟨rfl, fun _ ht => by omega, ?_⟩
    congr 1
    exact Table.update_single_congr ⟨hid, fun ht => by omega⟩ hid
      (fun a ha h => huniq a ha h.1) huniq rfl
  · rw [Txn.ok_pure] at h
    rw [if_neg hpos, if_pos hzero, ← h.1, if_pos rfl]
    exact ⟨rfl, fun h => absurd h hpos, h.2.symm⟩
  · simp only [Txn.ok_bind, Txn.ok_require, Txn.ok_modify, Txn.ok_pure] at h
    obtain ⟨_, _, ⟨_, rfl⟩, _, _, rfl, rfl, rfl⟩ := h
    rw [if_neg hpos, if_neg hzero]
    refine ⟨rfl, fun h => absurd h hpos, ?_⟩
    rw [if_neg (by split <;> omega)]
    congr 1
    refine Table.update_single_congr hid hid huniq huniq ?_
    dsimp only
    congr 1
    split_ifs <;> omega

/-- An exhausted subscription is a permanent failure, any other error of the movement is not. -/
def markQuotaErrorPermanent (x : Tx ℤ) : Tx ℤ :=
  tryCatch x fun e =>
    throw (if e.sentinel = .subscriptionQuotaInsufficient then permanentBillingSettlement e else e)

/-- A finalized reservation is refunded; it must still be consumed. -/
def finalizeSubscriptionPreConsumeRecord (finalize : Bool) (recordID now : ℤ) : Tx PUnit :=
  if finalize then do
    let db ← get
    Txn.require (db.subscriptionPreConsumeRecords.affected
        (fun r => r.id = recordID ∧ r.status = .consumed) = 1)
      (permanentBillingSettlement (plainError "subscription refund claim lost"))
    modify fun db => { db with
      subscriptionPreConsumeRecords := db.subscriptionPreConsumeRecords.update
        (fun r => r.id = recordID ∧ r.status = .consumed)
        ⟨fun r => { r with status := .refunded, updatedAt := now }, keeps fun _ => rfl⟩ }
  else pure ⟨⟩

/-- The subscription branch of `applyFundingDeltaTx`, bound to the reservation of the request. -/
def applySubscriptionDeltaTx (input : BillingSettlementInput) (now : ℤ) : Tx ℤ := do
  let requestID := input.subscriptionPreConsumeRequestID
  Txn.require (requestID ≠ "")
    (permanentBillingSettlement Sentinel.subscriptionSettlementUnbound.error)
  let db ← get
  let record ← Txn.orThrow (db.subscriptionPreConsumeRecords.first? (·.requestId = requestID))
    (permanentBillingSettlement
      (Sentinel.subscriptionSettlementUnbound.wrap ("request=" ++ requestID)))
  Txn.require (0 < input.subscriptionID ∧ record.userSubscriptionId = input.subscriptionID)
    (permanentBillingSettlement
      (plainError ("subscription settlement identity mismatch: request=" ++ requestID)))
  Txn.require (record.userId = input.userID ∧
      (input.tokenDelta ≠ 0 → record.tokenId = input.tokenID))
    (permanentBillingSettlement
      (plainError ("subscription settlement owner identity mismatch: request=" ++ requestID)))
  Txn.require (record.status ≠ .refunded)
    (permanentBillingSettlement
      (plainError ("subscription pre-consume already refunded: request=" ++ requestID)))
  let sub ← Txn.orThrow (db.userSubscriptions.first? (·.id = record.userSubscriptionId))
    (permanentBillingSettlement
      (plainError ("subscription settlement target no longer exists: request=" ++ requestID)))
  Txn.require (sub.userId = input.userID)
    (permanentBillingSettlement
      (plainError ("subscription settlement user identity mismatch: request=" ++ requestID)))
  Txn.ofExcept
    ((validateSubscriptionPreConsumePeriod record sub).mapError permanentBillingSettlement)
  if input.fundingDelta = 0 then pure 0
  else
    Txn.require (input.finalizeSubscriptionPreConsume →
        input.fundingDelta < 0 ∧ record.preConsumed ≤ -input.fundingDelta)
      (permanentBillingSettlement (plainError
        ("subscription refund does not cover pre-consumed amount: request=" ++ requestID)))
    let applied ← markQuotaErrorPermanent
      (postConsumeUserSubscriptionDeltaTx record.userSubscriptionId input.fundingDelta now)
    Txn.require (input.finalizeSubscriptionPreConsume → applied = input.fundingDelta)
      (permanentBillingSettlement (Sentinel.subscriptionRefundClamped.wrap
        ("request=" ++ requestID ++ " requested=" ++ toString input.fundingDelta ++
          " applied=" ++ toString applied)))
    finalizeSubscriptionPreConsumeRecord input.finalizeSubscriptionPreConsume record.id now
    pure applied

/-- The reservation `record` has been closed as refunded. -/
def refundPreConsumeRecord (s : Tables) (recordID now : ℤ) : Tables :=
  { s with
    subscriptionPreConsumeRecords := s.subscriptionPreConsumeRecords.update
      (fun r => r.id = recordID ∧ r.status = .consumed)
      ⟨fun r => { r with status := .refunded, updatedAt := now }, keeps fun _ => rfl⟩ }

/-- What a settlement funded by a subscription has checked and written: `record` is the
reservation it is bound to, `sub` the subscription, `applied` the delta after clamping. -/
structure SubscriptionFunding (input : BillingSettlementInput) (now : ℤ) (s : Tables)
    (record : SubscriptionPreConsumeRecord) (sub : UserSubscription) (applied : ℤ)
    (s' : Tables) : Prop where
  record_mem : record ∈ s.subscriptionPreConsumeRecords
  request : record.requestId = input.subscriptionPreConsumeRequestID
  subscription : record.userSubscriptionId = input.subscriptionID
  user : record.userId = input.userID
  open_record : record.status ≠ .refunded
  sub_mem : sub ∈ s.userSubscriptions
  sub_id : sub.id = input.subscriptionID
  period : record.subscriptionLastResetTime = sub.lastResetTime
  applied_eq : applied = clampedDelta sub.amountUsed input.fundingDelta
  exact_of_finalize : input.finalizeSubscriptionPreConsume → applied = input.fundingDelta
  writes : s' = if input.finalizeSubscriptionPreConsume ∧ input.fundingDelta ≠ 0 then
      refundPreConsumeRecord (moveSubscriptionIfAny s input.subscriptionID applied now)
        record.id now
    else moveSubscriptionIfAny s input.subscriptionID applied now

theorem clampedDelta_zero (amountUsed : ℤ) : clampedDelta amountUsed 0 = 0 := by
  unfold clampedDelta
  split_ifs <;> omega

theorem finalizeSubscriptionPreConsumeRecord_ok {finalize : Bool} {recordID now : ℤ}
    {s s' : Tables} {u : PUnit}
    (h : (finalizeSubscriptionPreConsumeRecord finalize recordID now).Ok s u s') :
    s' = if finalize then refundPreConsumeRecord s recordID now else s := by
  unfold finalizeSubscriptionPreConsumeRecord at h
  cases finalize with
  | false =>
      rw [if_neg Bool.false_ne_true, Txn.ok_pure] at h
      exact h.2.symm
  | true =>
      simp only [if_true, Txn.ok_bind, Txn.ok_get, Txn.ok_require, Txn.ok_modify] at h
      obtain ⟨_, _, ⟨rfl, rfl⟩, _, _, ⟨_, rfl⟩, rfl⟩ := h
      rfl

theorem applySubscriptionDeltaTx_ok {input : BillingSettlementInput} {now applied : ℤ}
    {s s' : Tables} (h : (applySubscriptionDeltaTx input now).Ok s applied s') :
    ∃ record sub, SubscriptionFunding input now s record sub applied s' := by
  simp only [applySubscriptionDeltaTx, Txn.ok_bind, Txn.ok_require, Txn.ok_get, Txn.ok_orThrow,
    Txn.ok_ofExcept] at h
  obtain ⟨_, _, ⟨_, rfl⟩, _, _, ⟨rfl, rfl⟩, record, _, ⟨hrec, rfl⟩, _, _, ⟨⟨_, hsubid⟩, rfl⟩, _, _,
    ⟨⟨huser, _⟩, rfl⟩, _, _, ⟨hopen, rfl⟩, sub, _, ⟨hsub, rfl⟩, _, _, ⟨_, rfl⟩, _, _,
    ⟨hperiod, rfl⟩, h⟩ := h
  obtain ⟨hrmem, hrid⟩ := Table.first?_mem hrec
  obtain ⟨hsmem, hsid⟩ := Table.first?_mem hsub
  have hper : record.subscriptionLastResetTime = sub.lastResetTime := by
    by_contra hne
    simp [validateSubscriptionPreConsumePeriod, hne, Except.mapError] at hperiod
  rw [Txn.ok_ite] at h
  rcases h with ⟨hd, h⟩ | ⟨hd, h⟩
  · rw [Txn.ok_pure] at h
    obtain ⟨rfl, rfl⟩ := h
    refine ⟨record, sub, hrmem, hrid, hsubid, huser, hopen, hsmem, hsid.trans hsubid, hper, ?_,
      fun _ => hd.symm, ?_⟩
    · rw [hd, clampedDelta_zero]
    · rw [if_neg fun h => h.2 hd, moveSubscriptionIfAny, if_pos rfl]
  · simp only [Txn.ok_bind, Txn.ok_require, Txn.ok_pure, markQuotaErrorPermanent,
      Txn.ok_mapError] at h
    obtain ⟨_, _, ⟨_, rfl⟩, a, t, hpost, _, _, ⟨hexact, rfl⟩, _, _, hfin, rfl, rfl⟩ := h
    rw [hsubid] at hpost
    obtain ⟨sub', hsub', hid', happ, _, rfl⟩ := postConsumeUserSubscriptionDeltaTx_ok hd hpost
    have hss : sub' = sub := Table.eq_of_clash hsub' hsmem (hid'.trans (hsid.trans hsubid).symm)
    rw [hss] at happ
    refine ⟨record, sub, hrmem, hrid, hsubid, huser, hopen, hsmem, hsid.trans hsubid, hper, happ,
      hexact, ?_⟩
    rw [finalizeSubscriptionPreConsumeRecord_ok hfin]
    by_cases hf : input.finalizeSubscriptionPreConsume
    · rw [if_pos hf, if_pos ⟨hf, hd⟩]
    · rw [if_neg hf, if_neg fun h => hf h.1]

/-! ### Funding -/

def applyFundingDeltaTx (input : BillingSettlementInput) (now : ℤ) : Tx ℤ :=
  match input.source with
  | .wallet => do
      Txn.require (0 < input.userID)
        (permanentBillingSettlement (plainError "wallet settlement user id is required"))
      applyWalletDeltaTx input.userID input.fundingDelta
      pure input.fundingDelta
  | .subscription => applySubscriptionDeltaTx input now
  | .other value =>
      throw (permanentBillingSettlement
        (plainError ("unsupported billing settlement source: " ++ value)))

/-- What the funding of a settlement has checked and written, per source. -/
inductive Funded (input : BillingSettlementInput) (now : ℤ) (s : Tables) :
    ℤ → Tables → Prop where
  | wallet (hsource : input.source = .wallet) (huser : 0 < input.userID)
      (hmem : input.fundingDelta ≠ 0 → ∃ u ∈ s.users, u.id = input.userID)
      (hpos : 0 < input.fundingDelta →
        ∃ u ∈ s.users, u.id = input.userID ∧ input.fundingDelta ≤ u.quota) :
      Funded input now s input.fundingDelta (moveWallet s input.userID input.fundingDelta)
  | subscription (hsource : input.source = .subscription) {record sub applied s'}
      (h : SubscriptionFunding input now s record sub applied s') : Funded input now s applied s'

theorem applyFundingDeltaTx_ok {input : BillingSettlementInput} {now applied : ℤ} {s s' : Tables}
    (h : (applyFundingDeltaTx input now).Ok s applied s') : Funded input now s applied s' := by
  unfold applyFundingDeltaTx at h
  cases hs : input.source with
  | wallet =>
      rw [hs] at h
      simp only [Txn.ok_bind, Txn.ok_require, Txn.ok_pure] at h
      obtain ⟨_, _, ⟨huser, rfl⟩, _, _, hw, rfl, rfl⟩ := h
      obtain ⟨rfl, hmem, hpos⟩ := applyWalletDeltaTx_ok hw
      exact .wallet hs huser hmem hpos
  | subscription =>
      rw [hs] at h
      obtain ⟨record, sub, h⟩ := applySubscriptionDeltaTx_ok h
      exact .subscription hs h
  | other value =>
      rw [hs] at h
      exact absurd h Txn.ok_throw

/-! ### The token -/

/-- Move the quota of a token.  A refund of a token that is gone may be skipped. -/
def applyTokenDeltaTx (userID tokenID delta : ℤ) (allowMissing : Bool) (now : ℤ) : Tx PUnit :=
  if tokenID ≤ 0 ∨ delta = 0 then pure ⟨⟩
  else if 0 < delta then do
    let db ← get
    let covers := fun t : Token =>
      t.id = tokenID ∧ t.userId = userID ∧ (t.unlimitedQuota ∨ delta ≤ t.remainQuota)
    if db.tokens.affected covers = 1 then
      modify fun db => { db with
        tokens := db.tokens.update covers
          ⟨fun t => { t with
            remainQuota := t.remainQuota - delta
            usedQuota := t.usedQuota + delta
            accessedTime := now }, keeps fun _ => rfl⟩ }
    else if db.tokens.first? (·.id = tokenID) = none then throw Sentinel.recordNotFound.error
    else throw (permanentBillingSettlement (Sentinel.tokenQuotaInsufficient.wrap
      ("id=" ++ toString tokenID ++ ", need=" ++ toString delta)))
  else do
    let db ← get
    let covers := fun t : Token => t.id = tokenID ∧ t.userId = userID ∧ -delta ≤ t.usedQuota
    if db.tokens.affected covers = 1 then
      modify fun db => { db with
        tokens := db.tokens.update covers
          ⟨fun t => { t with
            remainQuota := t.remainQuota + -delta
            usedQuota := t.usedQuota - -delta
            accessedTime := now }, keeps fun _ => rfl⟩ }
    else if allowMissing ∧ db.tokens.first? (·.id = tokenID) = none then pure ⟨⟩
    else throw (permanentBillingSettlement (Sentinel.tokenQuotaInsufficient.wrap
      ("id=" ++ toString tokenID)))

/-- The token branch that moved nothing wrote nothing. -/
def moveTokenIfAny (s : Tables) (tokenID delta now : ℤ) : Tables :=
  if tokenID ≤ 0 ∨ delta = 0 then s else moveToken s tokenID delta now

theorem applyTokenDeltaTx_ok {userID tokenID delta now : ℤ} {allowMissing : Bool} {s s' : Tables}
    {u : PUnit} (h : (applyTokenDeltaTx userID tokenID delta allowMissing now).Ok s u s') :
    s' = moveTokenIfAny s tokenID delta now ∧
      (0 < tokenID → delta ≠ 0 →
        (∃ t ∈ s.tokens, t.id = tokenID ∧ t.userId = userID) ∨ ∀ t ∈ s.tokens, t.id ≠ tokenID) := by
  unfold applyTokenDeltaTx at h
  unfold moveTokenIfAny moveToken
  rw [Txn.ok_ite, Txn.ok_ite] at h
  rcases h with ⟨h0, h⟩ | ⟨h0, ⟨hpos, h⟩ | ⟨hpos, h⟩⟩
  · rw [Txn.ok_pure] at h
    rw [if_pos h0]
    refine ⟨h.2.symm, fun ht hd => ?_⟩
    rcases h0 with h0 | h0
    · omega
    · exact absurd h0 hd
  · rw [if_neg h0]
    simp only [Txn.ok_bind, Txn.ok_get, Txn.ok_ite, Txn.ok_modify, Txn.ok_throw, and_false,
      or_false] at h
    obtain ⟨_, _, ⟨rfl, rfl⟩, haff, rfl⟩ := h
    obtain ⟨t, ht, hc, huniq⟩ := Table.exists_of_affected_eq_one haff
    refine ⟨?_, fun _ _ => .inl ⟨t, ht, hc.1, hc.2.1⟩⟩
    congr 1
    exact Table.update_single_congr hc hc.1 huniq
      (fun a ha hai => Table.eq_of_clash ha ht (hai.trans hc.1.symm)) rfl
  · rw [if_neg h0]
    simp only [Txn.ok_bind, Txn.ok_get, Txn.ok_ite, Txn.ok_modify, Txn.ok_throw, Txn.ok_pure,
      and_false, or_false] at h
    obtain ⟨_, _, ⟨rfl, rfl⟩, ⟨haff, rfl⟩ | ⟨_, ⟨_, hnone⟩, _, rfl⟩⟩ := h
    · obtain ⟨t, ht, hc, huniq⟩ := Table.exists_of_affected_eq_one haff
      refine ⟨?_, fun _ _ => .inl ⟨t, ht, hc.1, hc.2.1⟩⟩
      congr 1
      refine Table.update_single_congr hc hc.1 huniq
        (fun a ha hai => Table.eq_of_clash ha ht (hai.trans hc.1.symm)) ?_
      dsimp only
      congr 1
      all_goals omega
    · rw [Table.first?_eq_none] at hnone
      refine ⟨?_, fun _ _ => .inr hnone⟩
      rw [Table.update_eq_self fun a ha hai => absurd hai (hnone a ha)]

/-! ### The transaction of a settlement -/

/-- The token a settlement charges, and by how much: a missing token may be left out. -/
def resolveSettlementToken (input : BillingSettlementInput) : Tx (ℤ × ℤ) :=
  if 0 < input.tokenID ∧ input.tokenDelta ≠ 0 then do
    let db ← get
    match db.tokens.first? (·.id = input.tokenID) with
    | none =>
        if input.allowMissingToken then pure (0, 0) else throw Sentinel.recordNotFound.error
    | some token => do
        Txn.require (token.userId = input.userID)
          (permanentBillingSettlement (plainError
            ("billing settlement token user identity mismatch: token_id=" ++
              toString input.tokenID)))
        pure (input.tokenID, input.tokenDelta)
  else pure (input.tokenID, input.tokenDelta)

/-- The optimistic check of a task settlement: the task still has the quota it was priced at. -/
def taskConflict (input : BillingSettlementInput) : Failure :=
  permanentBillingSettlement (Sentinel.taskConflict.wrap
    ("task_id=" ++ toString input.taskID ++ " expected_quota=" ++ toString input.taskQuota))

def checkTaskQuota (input : BillingSettlementInput) : Tx Unit :=
  if 0 < input.taskID then do
    let db ← get
    let task ← Txn.orThrow (db.tasks.first? (·.id = input.taskID)) (taskConflict input)
    Txn.require (task.quota = input.taskQuota) (taskConflict input)
  else pure ()

/-- Write the new quota of the task when it differs. -/
def writeTaskQuota (input : BillingSettlementInput) (applied now : ℤ) : Tx PUnit :=
  if 0 < input.taskID ∧ input.taskQuota + applied ≠ input.taskQuota then do
    let db ← get
    Txn.require (db.tasks.affected
        (fun t => t.id = input.taskID ∧ t.quota = input.taskQuota) = 1) (taskConflict input)
    modify fun db => { db with
      tasks := db.tasks.update (fun t => t.id = input.taskID ∧ t.quota = input.taskQuota)
        ⟨fun t => { t with quota := input.taskQuota + applied, updatedAt := now },
          keeps fun _ => rfl⟩ }
  else pure ⟨⟩

/-- The record once its funding is applied. -/
def appliedRecord (appliedFundingDelta appliedTokenDelta : ℤ) (effectPayload : String) (now : ℤ)
    (r : BillingSettlement) : BillingSettlement :=
  { r with
    appliedFundingDelta := appliedFundingDelta
    appliedTokenDelta := appliedTokenDelta
    status := .applied
    effectStatus := effectStatusAfterSettlement effectPayload
    lastError := ""
    nextAttempt := 0
    updatedAt := now
    revision := r.revision + 1 }

/-- `UPDATE … WHERE id = ? AND status = 'pending'`. -/
def markApplied (input : BillingSettlementInput) (current : BillingSettlement)
    (appliedFundingDelta appliedTokenDelta now : ℤ) : Tx PUnit := do
  let db ← get
  Txn.require (db.billingSettlements.affected
      (fun r => r.id = current.id ∧ r.status = .pending) = 1)
    (permanentBillingSettlement (Sentinel.operationConflict.wrap input.operationKey))
  modify fun db => { db with
    billingSettlements := db.billingSettlements.update
      (fun r => r.id = current.id ∧ r.status = .pending)
      ⟨appliedRecord appliedFundingDelta appliedTokenDelta current.effectPayload now,
        keeps fun _ => rfl⟩ }

/-- The token delta that is moved: a settlement funded by a subscription whose token delta is its
funding delta follows the funding when that was clamped. -/
def effectiveTokenDelta (input : BillingSettlementInput) (applied tokenDelta : ℤ) : ℤ :=
  if input.source = .subscription ∧ input.tokenDelta = input.fundingDelta then applied
  else tokenDelta

/-- The transaction of `ApplyBillingSettlementOnce`.  It returns the applied funding delta and
whether the settlement had been applied before. -/
def applyBillingSettlementTx (host : Host) (input : BillingSettlementInput) (recordID now : ℤ) :
    Tx (ℤ × Bool) := do
  let current ← settlementByID recordID
  Txn.ofExcept (validateBillingSettlement current input)
  if settled current then pure (current.appliedFundingDelta, true)
  else
    Txn.require (current.status ≠ .manual)
      (permanentBillingSettlement (Sentinel.manualReview.wrap current.lastError))
    Txn.require (current.status = .pending)
      (permanentBillingSettlement (plainError
        ("unknown billing settlement status " ++ host.quoted current.status.text)))
    Txn.ofExcept (validateBillingSettlementInput input)
    claimSettlementSource host input now
    let token ← resolveSettlementToken input
    checkTaskQuota input
    let applied ← applyFundingDeltaTx input now
    Txn.require (billingSettlementIsManualTaskCompletion input.operationKey input.taskID →
        applied = input.fundingDelta)
      (permanentBillingSettlement (Sentinel.operationConflict.wrap
        ("exact funding delta required requested=" ++ toString input.fundingDelta ++
          " applied=" ++ toString applied)))
    let tokenDelta := effectiveTokenDelta input applied token.2
    applyTokenDeltaTx input.userID token.1 tokenDelta input.allowMissingToken now
    writeTaskQuota input applied now
    markApplied input current applied (if 0 < token.1 then tokenDelta else 0) now
    pure (applied, false)

/-! ### What an application does -/

/-- The task branch that moved nothing wrote nothing. -/
def moveTaskIfAny (s : Tables) (input : BillingSettlementInput) (applied now : ℤ) : Tables :=
  if 0 < input.taskID ∧ applied ≠ 0 then
    moveTask s input.taskID (input.taskQuota + applied) now
  else s

/-- The record of the application. -/
def recordApplication (s : Tables) (current : BillingSettlement) (applied appliedToken now : ℤ) :
    Tables :=
  { s with
    billingSettlements := s.billingSettlements.update
      (fun r => r.id = current.id ∧ r.status = .pending)
      ⟨appliedRecord applied appliedToken current.effectPayload now, keeps fun _ => rfl⟩ }

/-- What a transaction that applied the pending record `current` has checked and written. -/
structure Application (input : BillingSettlementInput) (now : ℤ) (s : Tables)
    (current : BillingSettlement) (applied appliedToken : ℤ) (s' : Tables) : Prop where
  mem : current ∈ s.billingSettlements
  pending : current.status = .pending
  same : SameOperation current input
  valid : validateBillingSettlementInput input = .ok ()
  task : 0 < input.taskID → ∃ t ∈ s.tasks, t.id = input.taskID ∧ t.quota = input.taskQuota
  exact : billingSettlementIsManualTaskCompletion input.operationKey input.taskID →
    applied = input.fundingDelta
  token : appliedToken = 0 ∨
    (0 < input.tokenID ∧ appliedToken = effectiveTokenDelta input applied input.tokenDelta)
  writes : ∃ selections t, Funded input now { s with billingPreConsumeSelections := selections }
      applied t ∧
    s' = recordApplication
      (moveTaskIfAny (moveTokenIfAny t input.tokenID appliedToken now) input applied now)
      current applied appliedToken now

theorem resolveSettlementToken_ok {input : BillingSettlementInput} {s s' : Tables} {token : ℤ × ℤ}
    (h : (resolveSettlementToken input).Ok s token s') :
    s = s' ∧ (token = (input.tokenID, input.tokenDelta) ∨ token = (0, 0)) := by
  unfold resolveSettlementToken at h
  rw [Txn.ok_ite] at h
  rcases h with ⟨_, h⟩ | ⟨_, h⟩
  · rw [Txn.ok_bind] at h
    obtain ⟨db, _, hget, h⟩ := h
    obtain ⟨rfl, rfl⟩ := Txn.ok_get.mp hget
    cases hf : s.tokens.first? (·.id = input.tokenID) with
    | none =>
        rw [hf, Txn.ok_ite] at h
        rcases h with ⟨_, h⟩ | ⟨_, h⟩
        · obtain ⟨rfl, rfl⟩ := Txn.ok_pure.mp h
          exact ⟨rfl, .inr rfl⟩
        · exact absurd h Txn.ok_throw
    | some t =>
        rw [hf] at h
        simp only [Txn.ok_bind, Txn.ok_require, Txn.ok_pure] at h
        obtain ⟨_, _, ⟨_, rfl⟩, rfl, rfl⟩ := h
        exact ⟨rfl, .inl rfl⟩
  · obtain ⟨rfl, rfl⟩ := Txn.ok_pure.mp h
    exact ⟨rfl, .inl rfl⟩

theorem checkTaskQuota_ok {input : BillingSettlementInput} {s s' : Tables} {u : Unit}
    (h : (checkTaskQuota input).Ok s u s') :
    s = s' ∧ (0 < input.taskID → ∃ t ∈ s.tasks, t.id = input.taskID ∧
      t.quota = input.taskQuota) := by
  unfold checkTaskQuota at h
  rw [Txn.ok_ite] at h
  rcases h with ⟨_, h⟩ | ⟨hn, h⟩
  · simp only [Txn.ok_bind, Txn.ok_get, Txn.ok_orThrow, Txn.ok_require] at h
    obtain ⟨_, _, ⟨rfl, rfl⟩, t, _, ⟨hf, rfl⟩, hq, rfl⟩ := h
    obtain ⟨ht, hid⟩ := Table.first?_mem hf
    exact ⟨rfl, fun _ => ⟨t, ht, hid, hq⟩⟩
  · exact ⟨(Txn.ok_pure.mp h).2, fun h => absurd h hn⟩

theorem writeTaskQuota_ok {input : BillingSettlementInput} {applied now : ℤ} {s s' : Tables}
    {u : PUnit} (h : (writeTaskQuota input applied now).Ok s u s') :
    s' = moveTaskIfAny s input applied now := by
  unfold writeTaskQuota at h
  unfold moveTaskIfAny moveTask
  rw [Txn.ok_ite] at h
  rcases h with ⟨hc, h⟩ | ⟨hc, h⟩
  · simp only [Txn.ok_bind, Txn.ok_get, Txn.ok_require, Txn.ok_modify] at h
    obtain ⟨_, _, ⟨rfl, rfl⟩, _, _, ⟨haff, rfl⟩, rfl⟩ := h
    obtain ⟨t, ht, hp, huniq⟩ := Table.exists_of_affected_eq_one haff
    rw [if_pos ⟨hc.1, fun h => hc.2 (by omega)⟩]
    congr 1
    exact Table.update_single_congr hp hp.1 huniq
      (fun a ha hai => Table.eq_of_clash ha ht (hai.trans hp.1.symm)) rfl
  · rw [if_neg fun h => hc ⟨h.1, fun h' => h.2 (by omega)⟩]
    exact (Txn.ok_pure.mp h).2.symm

theorem markApplied_ok {input : BillingSettlementInput} {current : BillingSettlement}
    {applied appliedToken now : ℤ} {s s' : Tables} {u : PUnit}
    (h : (markApplied input current applied appliedToken now).Ok s u s') :
    s' = recordApplication s current applied appliedToken now := by
  simp only [markApplied, Txn.ok_bind, Txn.ok_get, Txn.ok_require, Txn.ok_modify] at h
  obtain ⟨_, _, ⟨rfl, rfl⟩, _, _, ⟨_, rfl⟩, rfl⟩ := h
  rfl

/-- The transaction of a settlement either finds it settled and writes nothing, or applies the
pending record. -/
theorem applyBillingSettlementTx_ok {host : Host} {input : BillingSettlementInput}
    {recordID now : ℤ} {s s' : Tables} {result : ℤ × Bool}
    (h : (applyBillingSettlementTx host input recordID now).Ok s result s') :
    ∃ current ∈ s.billingSettlements, current.id = recordID ∧ SameOperation current input ∧
      ((settled current ∧ result = (current.appliedFundingDelta, true) ∧ s = s') ∨
        ∃ applied appliedToken, result = (applied, false) ∧
          Application input now s current applied appliedToken s') := by
  simp only [applyBillingSettlementTx, Txn.ok_bind, settlementByID_ok, Txn.ok_ofExcept,
    validateBillingSettlement_ok] at h
  obtain ⟨current, _, ⟨hcur, rfl⟩, _, _, ⟨⟨hsame, _⟩, rfl⟩, h⟩ := h
  obtain ⟨hmem, hid⟩ := Table.first?_mem hcur
  refine ⟨current, hmem, hid, hsame, ?_⟩
  rw [Txn.ok_ite] at h
  rcases h with ⟨hset, h⟩ | ⟨_, h⟩
  · obtain ⟨rfl, rfl⟩ := Txn.ok_pure.mp h
    exact .inl ⟨hset, rfl, rfl⟩
  · simp only [Txn.ok_bind, Txn.ok_require, Txn.ok_ofExcept, Txn.ok_pure] at h
    obtain ⟨_, _, ⟨_, rfl⟩, _, _, ⟨hpend, rfl⟩, _, _, ⟨hvalid, rfl⟩, _, s₁, hclaim, token, _,
      htok, _, _, htask, applied, t, hfund, _, _, ⟨hexact, rfl⟩, _, s₃, htm, _, s₄, hwt, _, _,
      hmark, rfl, rfl⟩ := h
    obtain ⟨selections, rfl⟩ := claimSettlementSource_ok hclaim
    obtain ⟨rfl, htoken⟩ := resolveSettlementToken_ok htok
    obtain ⟨rfl, hquota⟩ := checkTaskQuota_ok htask
    obtain ⟨rfl, _⟩ := applyTokenDeltaTx_ok htm
    refine .inr ⟨applied, if 0 < token.1 then effectiveTokenDelta input applied token.2 else 0,
      rfl, hmem, hpend, hsame, hvalid, hquota, hexact, ?_, selections, t,
      applyFundingDeltaTx_ok hfund, ?_⟩
    · rcases htoken with rfl | rfl
      · split
        · next ht => exact .inr ⟨ht, rfl⟩
        · exact .inl rfl
      · exact .inl rfl
    · rw [markApplied_ok hmark, writeTaskQuota_ok hwt]
      congr 2
      rcases htoken with rfl | rfl
      · unfold moveTokenIfAny
        by_cases ht : 0 < input.tokenID
        · simp only [if_pos ht]
        · rw [if_pos (.inl (by omega)), if_pos (.inl (by omega))]
      · unfold moveTokenIfAny
        rw [if_pos (.inl le_rfl), if_pos (.inr rfl)]

/-! ### Frames of an application -/

section frames

variable {input : BillingSettlementInput} {now applied appliedToken : ℤ} {s s' : Tables}
variable {current : BillingSettlement}

theorem moveSubscriptionIfAny_frame (subscriptionID delta : ℤ) :
    (moveSubscriptionIfAny s subscriptionID delta now).users = s.users ∧
    (moveSubscriptionIfAny s subscriptionID delta now).tokens = s.tokens ∧
    (moveSubscriptionIfAny s subscriptionID delta now).channels = s.channels ∧
    (moveSubscriptionIfAny s subscriptionID delta now).tasks = s.tasks ∧
    (moveSubscriptionIfAny s subscriptionID delta now).billingSettlements =
      s.billingSettlements := by
  unfold moveSubscriptionIfAny
  split
  · exact ⟨rfl, rfl, rfl, rfl, rfl⟩
  · exact ⟨rfl, rfl, rfl, rfl, rfl⟩

/-- The subscriptions after a settlement that they fund, whether it closes its reservation or
not. -/
theorem SubscriptionFunding.subscriptions {record : SubscriptionPreConsumeRecord}
    {sub : UserSubscription} (h : SubscriptionFunding input now s record sub applied s') :
    s'.userSubscriptions =
      (moveSubscriptionIfAny s input.subscriptionID applied now).userSubscriptions ∧
    s'.users = s.users := by
  rw [h.writes]
  split
  · exact ⟨rfl, (moveSubscriptionIfAny_frame _ _).1⟩
  · exact ⟨rfl, (moveSubscriptionIfAny_frame _ _).1⟩

/-- Funding touches neither tokens nor channels nor tasks nor settlement records. -/
theorem Funded.frame (h : Funded input now s applied s') :
    s'.tokens = s.tokens ∧ s'.channels = s.channels ∧ s'.tasks = s.tasks ∧
      s'.billingSettlements = s.billingSettlements := by
  cases h with
  | wallet => exact ⟨rfl, rfl, rfl, rfl⟩
  | subscription hsource h =>
      rw [h.writes]
      split
      · exact (moveSubscriptionIfAny_frame _ _).2
      · exact (moveSubscriptionIfAny_frame _ _).2

theorem moveTokenIfAny_frame (s : Tables) (tokenID delta now : ℤ) :
    (moveTokenIfAny s tokenID delta now).users = s.users ∧
    (moveTokenIfAny s tokenID delta now).channels = s.channels ∧
    (moveTokenIfAny s tokenID delta now).tasks = s.tasks ∧
    (moveTokenIfAny s tokenID delta now).userSubscriptions = s.userSubscriptions ∧
    (moveTokenIfAny s tokenID delta now).billingSettlements = s.billingSettlements := by
  unfold moveTokenIfAny
  split
  · exact ⟨rfl, rfl, rfl, rfl, rfl⟩
  · exact ⟨rfl, rfl, rfl, rfl, rfl⟩

theorem moveTaskIfAny_frame (s : Tables) (input : BillingSettlementInput) (applied now : ℤ) :
    (moveTaskIfAny s input applied now).users = s.users ∧
    (moveTaskIfAny s input applied now).tokens = s.tokens ∧
    (moveTaskIfAny s input applied now).channels = s.channels ∧
    (moveTaskIfAny s input applied now).userSubscriptions = s.userSubscriptions ∧
    (moveTaskIfAny s input applied now).billingSettlements = s.billingSettlements := by
  unfold moveTaskIfAny
  split
  · exact ⟨rfl, rfl, rfl, rfl, rfl⟩
  · exact ⟨rfl, rfl, rfl, rfl, rfl⟩

/-- The tables an application leaves behind, one by one. -/
theorem Application.tables (h : Application input now s current applied appliedToken s') :
    ∃ t selections, Funded input now { s with billingPreConsumeSelections := selections }
        applied t ∧
      s'.users = t.users ∧ s'.userSubscriptions = t.userSubscriptions ∧
      s'.channels = s.channels ∧
      s'.tokens = (moveTokenIfAny s input.tokenID appliedToken now).tokens ∧
      s'.tasks = (moveTaskIfAny s input applied now).tasks ∧
      s'.billingSettlements =
        (recordApplication s current applied appliedToken now).billingSettlements := by
  obtain ⟨selections, t, hf, rfl⟩ := h.writes
  obtain ⟨htok, hch, htask, hset⟩ := hf.frame
  have hT := moveTokenIfAny_frame t input.tokenID appliedToken now
  have hK := moveTaskIfAny_frame (moveTokenIfAny t input.tokenID appliedToken now) input applied now
  refine ⟨t, selections, hf, ?_, ?_, ?_, ?_, ?_, ?_⟩
  · exact hK.1.trans hT.1
  · exact hK.2.2.2.1.trans hT.2.2.2.1
  · exact hK.2.2.1.trans (hT.2.1.trans hch)
  · refine hK.2.1.trans ?_
    unfold moveTokenIfAny moveToken
    split
    · exact htok
    · simp only [htok]
  · show (moveTaskIfAny (moveTokenIfAny t input.tokenID appliedToken now) input applied now).tasks =
        _
    unfold moveTaskIfAny moveTask
    split
    · simp only [hT.2.2.1, htask]
    · exact hT.2.2.1.trans htask
  · unfold recordApplication
    simp only [hK.2.2.2.2, hT.2.2.2.2, hset]

/-- The records an application leaves behind: the pending one is applied. -/
theorem Application.mem_settlements
    (h : Application input now s current applied appliedToken s') {r' : BillingSettlement} :
    r' ∈ s'.billingSettlements ↔ ∃ r ∈ s.billingSettlements,
      r' = if r.id = current.id ∧ r.status = .pending then
          appliedRecord applied appliedToken current.effectPayload now r
        else r := by
  obtain ⟨_, _, _, _, _, _, _, _, hset⟩ := h.tables
  rw [hset]
  unfold recordApplication
  dsimp only
  exact Table.mem_update

end frames

end MaxApi.Settlement
