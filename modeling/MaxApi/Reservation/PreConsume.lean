import MaxApi.Reservation.Period

/-! # Reservations on subscriptions

A request reserves its amount on the first active subscription of the user that has room for it,
and leaves a record under its request id.  The record makes a replay harmless, and the settlements
of the request are bound to it.  The scheduled cleanup deletes old records all of whose settlements
are applied or manual. -/

namespace MaxApi.Reservation

open Relational MaxApi.Billing MaxApi.Subscription

/-! ### Pre-consumption -/

/-- The arguments of a pre-consume. -/
structure PreConsume where
  requestId : String
  userId : ℤ
  tokenId : ℤ
  modelName : String
  quotaType : ℤ
  amount : ℤ
  deriving DecidableEq, Repr

structure SubscriptionPreConsumeResult where
  userSubscriptionId : ℤ
  preConsumed : ℤ
  amountTotal : ℤ
  amountUsedBefore : ℤ
  amountUsedAfter : ℤ
  deriving DecidableEq, Repr

/-- What a pre-consume has done.  The source returns the result and whether the request had been
consumed before; `cleared` names the subscriptions whose usage its lazy resets have cleared. -/
structure Reserved where
  result : SubscriptionPreConsumeResult
  alreadyConsumed : Bool
  cleared : List ℤ
  deriving DecidableEq, Repr

def validateSubscriptionPreConsumeReplay (existing : SubscriptionPreConsumeRecord)
    (req : PreConsume) : Except Failure Unit :=
  if existing.userId ≠ req.userId ∨ existing.tokenId ≠ req.tokenId ∨
      existing.modelName ≠ req.modelName ∨ existing.quotaType ≠ req.quotaType ∨
      existing.preConsumed ≠ req.amount then
    .error (plainError ("subscription pre-consume request reused with different identity or " ++
      "parameters: request=" ++ existing.requestId))
  else .ok ()

/-- A pre-consume whose request id has a record already. -/
def replayPreConsume (req : PreConsume) (existing : SubscriptionPreConsumeRecord) :
    Tx Reserved := do
  Txn.ofExcept (validateSubscriptionPreConsumeReplay existing req)
  Txn.require (existing.status ≠ .refunded)
    (plainError "subscription pre-consume already refunded")
  let db ← get
  let sub ← Txn.orThrow (db.userSubscriptions.first? (·.id = existing.userSubscriptionId))
    Sentinel.recordNotFound.error
  Txn.require (sub.userId = req.userId)
    (plainError "subscription pre-consume user identity mismatch")
  Txn.ofExcept (Settlement.validateSubscriptionPreConsumePeriod existing sub)
  pure
    { result :=
        { userSubscriptionId := sub.id
          preConsumed := existing.preConsumed
          amountTotal := sub.amountTotal
          amountUsedBefore := sub.amountUsed
          amountUsedAfter := sub.amountUsed }
      alreadyConsumed := true
      cleared := [] }

/-- The record of a fresh reservation. -/
def preConsumeRecord (req : PreConsume) (sub : UserSubscription) (stamp id : ℤ) :
    SubscriptionPreConsumeRecord where
  id := id
  requestId := req.requestId
  userId := req.userId
  tokenId := req.tokenId
  userSubscriptionId := sub.id
  subscriptionLastResetTime := sub.lastResetTime
  modelName := req.modelName
  quotaType := req.quotaType
  preConsumed := req.amount
  status := .consumed
  createdAt := stamp
  updatedAt := stamp

/-- The guard of the charge. -/
def hasRoom (id now amount : ℤ) (u : UserSubscription) : Prop :=
  u.id = id ∧ u.status = .active ∧ now < u.endTime ∧
    (u.amountTotal ≤ 0 ∨ u.amountUsed + amount ≤ u.amountTotal)

instance (id now amount : ℤ) : DecidablePred (hasRoom id now amount) := fun _ =>
  inferInstanceAs (Decidable (_ ∧ _))

/-- Charge the subscription for the record `recordID` that has just been created; the record goes
when the charge matches no row. -/
def chargeReservation (ctx : ResetContext) (req : PreConsume) (sub : UserSubscription)
    (recordID : ℤ) : Tx (Option Reserved) := do
  let db ← get
  if db.userSubscriptions.affected (hasRoom sub.id ctx.now req.amount) = 1 then do
    modify fun db => { db with
      userSubscriptions := db.userSubscriptions.update (hasRoom sub.id ctx.now req.amount)
        ⟨fun u => { u with amountUsed := u.amountUsed + req.amount, updatedAt := ctx.updatedAt },
          keeps fun _ => rfl⟩ }
    let db ← get
    let updatedSub ← Txn.orThrow (db.userSubscriptions.first? (·.id = sub.id))
      Sentinel.recordNotFound.error
    pure (some
      { result :=
          { userSubscriptionId := sub.id
            preConsumed := req.amount
            amountTotal := updatedSub.amountTotal
            amountUsedBefore := sub.amountUsed
            amountUsedAfter := updatedSub.amountUsed }
        alreadyConsumed := false
        cleared := [] })
  else do
    modify fun db => { db with
      subscriptionPreConsumeRecords :=
        db.subscriptionPreConsumeRecords.delete (·.id = recordID) }
    pure none

/-- Reserve on a subscription whose period is up to date; `none` sends the request to the next
one.  A request id that has been taken meanwhile makes it a replay. -/
def reserveOn (ctx : ResetContext) (req : PreConsume) (sub : UserSubscription) :
    Tx (Option Reserved) :=
  if 0 < sub.amountTotal ∧ sub.amountTotal - sub.amountUsed < req.amount then pure none
  else do
    let db ← get
    match db.subscriptionPreConsumeRecords.first? (·.requestId = req.requestId) with
    | some duplicate => do
        let reserved ← replayPreConsume req duplicate
        pure (some reserved)
    | none => do
        let recordID := db.subscriptionPreConsumeRecords.nextID (·.id)
        modify fun db => { db with
          subscriptionPreConsumeRecords := db.subscriptionPreConsumeRecords.insert
            (preConsumeRecord req sub ctx.updatedAt recordID) }
        chargeReservation ctx req sub recordID

/-- The loop over the candidates. -/
def reserveOnFirst (ctx : ResetContext) (req : PreConsume) : List UserSubscription → Tx Reserved
  | [] => throw (Sentinel.subscriptionQuotaInsufficient.wrap ("need=" ++ toString req.amount))
  | candidate :: candidates => do
      let plan ← getSubscriptionPlanByIdTx ctx candidate
      let update ← maybeResetUserSubscriptionWithPlanTx ctx plan candidate
      let reserved ← reserveOn ctx req (update.apply candidate)
      let cleared := update.clears candidate.id
      match reserved with
      | some reserved => pure { reserved with cleared := cleared ++ reserved.cleared }
      | none => do
          let reserved ← reserveOnFirst ctx req candidates
          pure { reserved with cleared := cleared ++ reserved.cleared }

/-- The active subscriptions of a user, in the order of their ends. -/
def activeSubscriptions (s : Tables) (userId now : ℤ) : List UserSubscription :=
  (s.userSubscriptions.rows.filter fun sub =>
    decide (sub.userId = userId ∧ sub.status = .active ∧ now < sub.endTime)).insertionSort
      endsBefore

def preConsumeUserSubscriptionTx (ctx : ResetContext) (req : PreConsume) : Tx Reserved := do
  let db ← get
  match db.subscriptionPreConsumeRecords.first? (·.requestId = req.requestId) with
  | some existing => replayPreConsume req existing
  | none => do
      let subs := activeSubscriptions db req.userId ctx.now
      Txn.require (subs ≠ []) (plainError "no active subscription")
      reserveOnFirst ctx req subs

/-- The funding source a pre-consume binds its request to. -/
def PreConsume.selection (req : PreConsume) (createdAt : ℤ) : BillingPreConsumeSelection where
  requestID := req.requestId
  source := .subscription
  userID := req.userId
  tokenID := req.tokenId
  modelName := req.modelName
  requestedQuota := req.amount
  effectiveQuota := req.amount
  createdAt := createdAt

/-- The checks of the arguments. -/
def validatePreConsume (req : PreConsume) : Tx Unit := do
  Txn.require (0 < req.userId) (plainError "invalid userId")
  Txn.require (¬ Text.isBlank req.requestId) (plainError "requestId is empty")
  Txn.require (0 < req.amount) (plainError "amount must be > 0")

/-- `PreConsumeUserSubscription`; its requests belong to no token. -/
def preConsumeUserSubscription (host : Settlement.Host) (ctx : ResetContext) (req : PreConsume) :
    Tx Reserved := do
  let req := { req with tokenId := 0 }
  validatePreConsume req
  Settlement.claimBillingPreConsumeSourceTx host (req.selection ctx.updatedAt)
  preConsumeUserSubscriptionTx ctx req

/-- The guard of the token's charge. -/
def tokenCovers (req : PreConsume) (t : Token) : Prop :=
  t.id = req.tokenId ∧ t.userId = req.userId ∧ (t.unlimitedQuota ∨ req.amount ≤ t.remainQuota)

instance (req : PreConsume) : DecidablePred (tokenCovers req) := fun _ =>
  inferInstanceAs (Decidable (_ ∧ _))

/-- The token pays its part of a fresh reservation. -/
def chargeToken (ctx : ResetContext) (req : PreConsume) : Tx PUnit := do
  let db ← get
  Txn.require (db.tokens.affected (tokenCovers req) = 1)
    (Sentinel.tokenQuotaInsufficient.wrap
      ("id=" ++ toString req.tokenId ++ ", need=" ++ toString req.amount))
  modify fun db => { db with
    tokens := db.tokens.update (tokenCovers req)
      ⟨fun t => { t with
        remainQuota := t.remainQuota - req.amount
        usedQuota := t.usedQuota + req.amount
        accessedTime := ctx.updatedAt }, keeps fun _ => rfl⟩ }

/-- `PreConsumeTokenAndUserSubscription`. -/
def preConsumeTokenAndUserSubscription (host : Settlement.Host) (ctx : ResetContext)
    (req : PreConsume) : Tx Reserved := do
  Txn.require (0 < req.tokenId) (plainError "invalid tokenId")
  validatePreConsume req
  Settlement.claimBillingPreConsumeSourceTx host (req.selection ctx.updatedAt)
  let reserved ← preConsumeUserSubscriptionTx ctx req
  if reserved.alreadyConsumed then pure reserved
  else do
    chargeToken ctx req
    pure reserved

/-! ### Refund -/

/-- Give the reserved amount back, all of it or nothing. -/
def returnReservation (record : SubscriptionPreConsumeRecord) (now : ℤ) : Tx PUnit :=
  if record.preConsumed ≤ 0 then pure ⟨⟩
  else do
    let applied ← Settlement.postConsumeUserSubscriptionDeltaTx record.userSubscriptionId
      (-record.preConsumed) now
    Txn.require (applied = -record.preConsumed)
      (plainError ("subscription refund was clamped: requested=" ++
        toString (-record.preConsumed) ++ " applied=" ++ toString applied))

/-- `RefundSubscriptionPreConsume`. -/
def refundSubscriptionPreConsume (requestId : String) (now : ℤ) : Tx PUnit := do
  Txn.require (¬ Text.isBlank requestId) (plainError "requestId is empty")
  let db ← get
  let record ← Txn.orThrow
    (db.subscriptionPreConsumeRecords.first? (·.requestId = requestId))
    Sentinel.recordNotFound.error
  if record.status = .refunded then pure ⟨⟩
  else do
    let sub ← Txn.orThrow (db.userSubscriptions.first? (·.id = record.userSubscriptionId))
      Sentinel.recordNotFound.error
    Txn.ofExcept (Settlement.validateSubscriptionPreConsumePeriod record sub)
    modify fun db => Settlement.refundPreConsumeRecord db record.id now
    if db.subscriptionPreConsumeRecords.affected
        (fun r => r.id = record.id ∧ r.status = .consumed) = 1 then
      returnReservation record now
    else pure ⟨⟩

/-! ### Cleanup -/

/-- The settlement is bound to the reservation. -/
def boundTo (record : SubscriptionPreConsumeRecord) (r : BillingSettlement) : Prop :=
  r.subscriptionPreConsumeRequestID = record.requestId

instance (record : SubscriptionPreConsumeRecord) : DecidablePred (boundTo record) := fun _ =>
  inferInstanceAs (Decidable (_ = _))

/-- A status in which the cleanup takes a settlement for closed. -/
def terminalStatus (r : BillingSettlement) : Prop := r.status = .applied ∨ r.status = .manual

instance : DecidablePred terminalStatus := fun _ => inferInstanceAs (Decidable (_ ∨ _))

/-- An old reservation with settlements, all of them closed. -/
def removable (s : Tables) (cutoff : ℤ) (record : SubscriptionPreConsumeRecord) : Prop :=
  record.createdAt < cutoff ∧
    (∃ r ∈ s.billingSettlements.rows, boundTo record r ∧ terminalStatus r) ∧
    ¬ ∃ r ∈ s.billingSettlements.rows, boundTo record r ∧ ¬ terminalStatus r

instance (s : Tables) (cutoff : ℤ) : DecidablePred (removable s cutoff) := fun _ =>
  inferInstanceAs (Decidable (_ ∧ (∃ r ∈ s.billingSettlements.rows, _) ∧
    ¬ ∃ r ∈ s.billingSettlements.rows, _))

/-- `CleanupSubscriptionPreConsumeRecords`. -/
def cleanupSubscriptionPreConsumeRecords (olderThanSeconds now : ℤ) (s : Tables) : Tables :=
  let cutoff := now - olderThanSeconds
  if olderThanSeconds ≤ 0 ∨ cutoff ≤ 0 then s
  else { s with
    subscriptionPreConsumeRecords := s.subscriptionPreConsumeRecords.delete (removable s cutoff) }

/-! ### Specifications -/

section specifications

variable {ctx : ResetContext} {req : PreConsume} {sub : UserSubscription} {s s' : Tables}

/-- A replay writes nothing. -/
theorem replayPreConsume_ok {existing : SubscriptionPreConsumeRecord} {reserved : Reserved}
    (h : (replayPreConsume req existing).Ok s reserved s') :
    s' = s ∧ reserved.alreadyConsumed = true ∧ reserved.cleared = [] := by
  simp only [replayPreConsume, Txn.ok_bind, Txn.ok_ofExcept, Txn.ok_require, Txn.ok_get,
    Txn.ok_orThrow, Txn.ok_pure] at h
  obtain ⟨_, _, ⟨_, rfl⟩, _, _, ⟨_, rfl⟩, _, _, ⟨rfl, rfl⟩, _, _, ⟨_, rfl⟩, _, _, ⟨_, rfl⟩, _, _,
    ⟨_, rfl⟩, rfl, rfl⟩ := h
  exact ⟨rfl, rfl, rfl⟩

/-- The row has room for the amount. -/
def Fits (amount : ℤ) (u : UserSubscription) : Prop :=
  u.amountTotal ≤ 0 ∨ u.amountUsed + amount ≤ u.amountTotal

instance (amount : ℤ) : DecidablePred (Fits amount) := fun _ => inferInstanceAs (Decidable (_ ∨ _))

/-- What a fresh reservation on `sub` writes: the row pays, and the record is there. -/
structure Charges (ctx : ResetContext) (req : PreConsume) (sub : UserSubscription) (s : Tables)
    (reserved : Reserved) (s' : Tables) : Prop where
  fresh : reserved.alreadyConsumed = false
  subscription : reserved.result.userSubscriptionId = sub.id
  cleared : reserved.cleared = []
  rows : ∀ u' ∈ s'.userSubscriptions, ∃ u ∈ s.userSubscriptions,
    u' = if u.id = sub.id then
        { u with amountUsed := u.amountUsed + req.amount, updatedAt := ctx.updatedAt }
      else u
  records : ∃ id, s'.subscriptionPreConsumeRecords =
      s.subscriptionPreConsumeRecords.insert (preConsumeRecord req sub ctx.updatedAt id) ∧
    ∀ r ∈ s.subscriptionPreConsumeRecords, r.id ≠ id

/-- On a row that is in the table, active and of a request without a record, the room alone
decides: the amount is reserved, or nothing is written. -/
theorem reserveOn_ok {row : UserSubscription} {reserved : Option Reserved}
    (hrow : row ∈ s.userSubscriptions) (hid : row.id = sub.id)
    (hsame : row.amountUsed = sub.amountUsed ∧ row.amountTotal = sub.amountTotal)
    (hactive : row.status = .active ∧ ctx.now < row.endTime)
    (hfree : ∀ r ∈ s.subscriptionPreConsumeRecords, r.requestId ≠ req.requestId)
    (h : (reserveOn ctx req sub).Ok s reserved s') :
    (¬ Fits req.amount sub ∧ reserved = none ∧ s' = s) ∨
      (Fits req.amount sub ∧ ∃ r, reserved = some r ∧ Charges ctx req sub s r s') := by
  unfold reserveOn at h
  rw [Txn.ok_ite] at h
  rcases h with ⟨hfull, h⟩ | ⟨hfull, h⟩
  · obtain ⟨rfl, rfl⟩ := Txn.ok_pure.mp h
    refine .inl ⟨?_, rfl, rfl⟩
    unfold Fits
    omega
  · have hfits : Fits req.amount sub := by
      unfold Fits
      omega
    have hnone : s.subscriptionPreConsumeRecords.first? (·.requestId = req.requestId) = none :=
      Table.first?_eq_none.mpr hfree
    have haff : s.userSubscriptions.affected (hasRoom sub.id ctx.now req.amount) = 1 := by
      refine Table.affected_eq_one hrow ⟨hid, hactive.1, hactive.2, ?_⟩
        fun a ha hp => Table.eq_of_clash ha hrow (hp.1.trans hid.symm)
      unfold Fits at hfits
      omega
    rw [Txn.ok_bind] at h
    obtain ⟨db, _, hget, h⟩ := h
    obtain ⟨rfl, rfl⟩ := Txn.ok_get.mp hget
    rw [hnone] at h
    dsimp only at h
    rw [Txn.ok_bind] at h
    obtain ⟨_, t, hins, h⟩ := h
    obtain rfl := Txn.ok_modify.mp hins
    simp only [chargeReservation, Txn.ok_bind, Txn.ok_get, Txn.ok_ite] at h
    obtain ⟨_, _, ⟨rfl, rfl⟩, ⟨_, h⟩ | ⟨hno, _⟩⟩ := h
    · simp only [Txn.ok_modify, Txn.ok_orThrow, Txn.ok_pure] at h
      obtain ⟨_, _, rfl, _, _, ⟨rfl, rfl⟩, updated, _, ⟨_, rfl⟩, rfl, rfl⟩ := h
      refine .inr ⟨hfits, _, rfl, rfl, rfl, rfl, ?_, _, rfl, ?_⟩
      · intro u' hu'
        obtain ⟨u, hu, rfl⟩ := Table.mem_update.mp hu'
        refine ⟨u, hu, ?_⟩
        by_cases hu1 : u.id = sub.id
        · have hur : u = row := Table.eq_of_clash hu hrow (hu1.trans hid.symm)
          have hp : hasRoom sub.id ctx.now req.amount u := by
            rw [hur]
            refine ⟨hid, hactive.1, hactive.2, ?_⟩
            unfold Fits at hfits
            omega
          rw [if_pos hp, if_pos hu1]
        · rw [if_neg fun hp => hu1 hp.1, if_neg hu1]
      · intro r hr
        have hlt : r.id < s.subscriptionPreConsumeRecords.nextID (·.id) := Table.lt_nextID hr
        omega
    · exact absurd haff hno

/-! ### The loop over the candidates -/

/-- The row a lazy reset makes of a subscription. -/
def refresh (ctx : ResetContext) (sub : UserSubscription) : Option UserSubscription :=
  (ctx.planOf sub).bind fun plan =>
    (periodUpdate ctx plan sub).map fun update => update.apply sub

/-- The subscriptions a pre-consume visits, up to the one that has room for the amount; none if
none of them has. -/
def visited (ctx : ResetContext) (amount : ℤ) :
    List UserSubscription → Option (List UserSubscription)
  | [] => none
  | sub :: subs =>
      match refresh ctx sub with
      | none => none
      | some fresh =>
          if Fits amount fresh then some [sub] else (visited ctx amount subs).map (sub :: ·)

/-- What a fresh reservation has written, where `seen` are the subscriptions it has visited: each
row is as its update leaves it, one of them pays, and the record carries the anchor of that one. -/
structure Reserves (ctx : ResetContext) (req : PreConsume) (seen : List UserSubscription)
    (s : Tables) (reserved : Reserved) (s' : Tables) : Prop where
  fresh : reserved.alreadyConsumed = false
  rows : ∀ u' ∈ s'.userSubscriptions, ∃ u ∈ s.userSubscriptions, ∃ update : PeriodUpdate,
    (update = .keep ∨
      (u ∈ seen ∧ ∃ plan, ctx.planOf u = some plan ∧ periodUpdate ctx plan u = some update)) ∧
    update.clears u.id ⊆ reserved.cleared ∧ u'.id = u.id ∧
    u'.lastResetTime = (update.apply u).lastResetTime ∧
    u'.amountUsed = (update.apply u).amountUsed +
      if u.id = reserved.result.userSubscriptionId then req.amount else 0
  records : ∃ record, s'.subscriptionPreConsumeRecords =
      s.subscriptionPreConsumeRecords.insert record ∧
    record ∈ s'.subscriptionPreConsumeRecords ∧ record ∉ s.subscriptionPreConsumeRecords ∧
    record.requestId = req.requestId ∧
    record.userSubscriptionId = reserved.result.userSubscriptionId ∧
    record.preConsumed = req.amount ∧
    ∀ u' ∈ s'.userSubscriptions, u'.id = record.userSubscriptionId →
      record.subscriptionLastResetTime = u'.lastResetTime

/-- The subscriptions of the list are rows of the table, active and not over. -/
def Candidates (ctx : ResetContext) (s : Tables) (subs : List UserSubscription) : Prop :=
  ∀ c ∈ subs, c ∈ s.userSubscriptions ∧ c.status = .active ∧ ctx.now < c.endTime

/-- The first candidate has room. -/
theorem Charges.reserves {update : PeriodUpdate} {plan : SubscriptionPlan} {t : Tables}
    {reserved : Reserved} (hsub : sub ∈ s.userSubscriptions) (hplan : ctx.planOf sub = some plan)
    (hreset : (maybeResetUserSubscriptionWithPlanTx ctx plan sub).Ok s update t)
    (hfree : ∀ r ∈ s.subscriptionPreConsumeRecords, r.requestId ≠ req.requestId)
    (h : Charges ctx req (update.apply sub) t reserved s') :
    Reserves ctx req [sub] s { reserved with
      cleared := update.clears sub.id ++ reserved.cleared } s' := by
  obtain ⟨hrecords, hrows⟩ := mem_maybeReset hsub hreset
  obtain ⟨hupdate, _⟩ := maybeResetUserSubscriptionWithPlanTx_ok.mp hreset
  have hcharged := h.subscription
  rw [PeriodUpdate.apply_id] at hcharged
  have hback : ∀ u' ∈ s'.userSubscriptions, (u' ∈ s.userSubscriptions ∧ u'.id ≠ sub.id) ∨
      (u'.id = sub.id ∧ u'.lastResetTime = (update.apply sub).lastResetTime ∧
        u'.amountUsed = (update.apply sub).amountUsed + req.amount) := by
    intro u' hu'
    obtain ⟨u, hu, rfl⟩ := h.rows u' hu'
    rw [PeriodUpdate.apply_id]
    rcases hrows u hu with ⟨hne, hmem⟩ | ⟨stamp, rfl⟩
    · rw [if_neg hne]
      exact .inl ⟨hmem, hne⟩
    · rw [if_pos (update.apply_id sub)]
      exact .inr ⟨update.apply_id sub, rfl, rfl⟩
  refine ⟨h.fresh, ?_, ?_⟩
  · intro u' hu'
    rcases hback u' hu' with ⟨hmem, hne⟩ | ⟨hid, hlast, hused⟩
    · refine ⟨u', hmem, .keep, .inl rfl, List.nil_subset _, rfl, rfl, ?_⟩
      rw [if_neg fun heq => hne (heq.trans hcharged)]
      exact (add_zero _).symm
    · refine ⟨sub, hsub, update, .inr ⟨List.mem_singleton_self sub, plan, hplan, hupdate⟩,
        List.subset_append_left _ _, hid, hlast, ?_⟩
      rw [hused, if_pos hcharged.symm]
  · obtain ⟨recordID, hins, hfresh⟩ := h.records
    rw [hrecords] at hins hfresh
    refine ⟨_, hins, ?_, fun hmem => hfree _ hmem rfl, rfl, h.subscription.symm, rfl, ?_⟩
    · rw [hins]
      refine Table.mem_insert_self fun a ha hclash => ?_
      rcases hclash with hclash | hclash
      · exact hfresh a ha hclash
      · exact hfree a ha hclash
    · intro u' hu' hid
      have hid' : u'.id = sub.id := hid.trans (update.apply_id sub)
      rcases hback u' hu' with ⟨_, hne⟩ | ⟨_, hlast, _⟩
      · exact absurd hid' hne
      · exact hlast.symm

/-- The first candidate has no room, and a later one has. -/
theorem Reserves.cons {update : PeriodUpdate} {plan : SubscriptionPlan} {t : Tables}
    {reserved : Reserved} {seen : List UserSubscription} (hsub : sub ∈ s.userSubscriptions)
    (hplan : ctx.planOf sub = some plan)
    (hreset : (maybeResetUserSubscriptionWithPlanTx ctx plan sub).Ok s update t)
    (hseen : ∀ u ∈ seen, u.id ≠ sub.id) (h : Reserves ctx req seen t reserved s') :
    Reserves ctx req (sub :: seen) s { reserved with
      cleared := update.clears sub.id ++ reserved.cleared } s' := by
  obtain ⟨hrecords, hrows⟩ := mem_maybeReset hsub hreset
  obtain ⟨hupdate, _⟩ := maybeResetUserSubscriptionWithPlanTx_ok.mp hreset
  refine ⟨h.fresh, ?_, ?_⟩
  · intro u' hu'
    obtain ⟨u, hu, later, hlater, hclears, hid, hlast, hused⟩ := h.rows u' hu'
    rcases hrows u hu with ⟨_, hmem⟩ | ⟨stamp, rfl⟩
    · refine ⟨u, hmem, later, ?_, fun c hc => List.mem_append_right _ (hclears hc), hid, hlast,
        hused⟩
      rcases hlater with hkeep | ⟨hin, hrest⟩
      · exact .inl hkeep
      · exact .inr ⟨List.mem_cons_of_mem sub hin, hrest⟩
    · have hkeep : later = .keep := by
        rcases hlater with hkeep | ⟨hin, _⟩
        · exact hkeep
        · have hne := hseen _ hin
          exact absurd (update.apply_id sub) hne
      subst hkeep
      have hid' : u'.id = sub.id := hid.trans (update.apply_id sub)
      refine ⟨sub, hsub, update, .inr ⟨List.mem_cons_self, plan, hplan, hupdate⟩,
        List.subset_append_left _ _, hid', hlast, ?_⟩
      rw [hused]
      show _ + (if (update.apply sub).id = _ then _ else _) = _
      rw [PeriodUpdate.apply_id]
      rfl
  · obtain ⟨record, hins, hrecord⟩ := h.records
    rw [hrecords] at hins hrecord
    exact ⟨record, hins, hrecord⟩

/-- **A reservation visits the candidates in order, and the first one that has room pays.** -/
theorem reserveOnFirst_ok : ∀ {subs : List UserSubscription} {s s' : Tables} {reserved : Reserved},
    subs.Nodup → Candidates ctx s subs →
    (∀ r ∈ s.subscriptionPreConsumeRecords, r.requestId ≠ req.requestId) →
    (reserveOnFirst ctx req subs).Ok s reserved s' →
    ∃ seen, visited ctx req.amount subs = some seen ∧ (∀ u ∈ seen, u ∈ subs) ∧
      Reserves ctx req seen s reserved s'
  | [], _, _, _, _, _, _, h => absurd h Txn.ok_throw
  | sub :: subs, s, s', reserved, hnodup, hcand, hfree, h => by
      obtain ⟨hnotin, hnodup'⟩ := List.nodup_cons.mp hnodup
      obtain ⟨hsub, hactive⟩ := hcand sub List.mem_cons_self
      have hothers : ∀ u ∈ subs, u.id ≠ sub.id := by
        intro u hu hid
        have hmem := (hcand u (List.mem_cons_of_mem sub hu)).1
        rw [Table.eq_of_clash hmem hsub hid] at hu
        exact hnotin hu
      unfold reserveOnFirst at h
      simp only [Txn.ok_bind, getSubscriptionPlanByIdTx, Txn.ok_require, Txn.ok_orThrow] at h
      obtain ⟨plan, _, ⟨_, _, ⟨_, rfl⟩, hplan, rfl⟩, update, t, hreset, o, t', hon, h⟩ := h
      obtain ⟨hrecords, _⟩ := mem_maybeReset hsub hreset
      obtain ⟨hkept, stamp, hself⟩ := maybeReset_mem hsub hreset
      obtain ⟨hupdate, _⟩ := maybeResetUserSubscriptionWithPlanTx_ok.mp hreset
      have hrefresh : refresh ctx sub = some (update.apply sub) := by
        unfold refresh
        rw [hplan, Option.bind_some, hupdate, Option.map_some]
      have hstill : (update.apply sub).status = .active ∧ ctx.now < (update.apply sub).endTime := by
        cases update with
        | keep | initialise | restart => exact hactive
      have hfree' : ∀ r ∈ t.subscriptionPreConsumeRecords, r.requestId ≠ req.requestId := by
        rw [hrecords]
        exact hfree
      rcases reserveOn_ok hself (show _ = (update.apply sub).id from rfl) ⟨rfl, rfl⟩ hstill hfree'
        hon with ⟨hfull, rfl, hsame⟩ | ⟨hfits, r, rfl, hcharges⟩
      · subst hsame
        dsimp only at h
        obtain ⟨later, _, hlater, hpure⟩ := Txn.ok_bind.mp h
        obtain ⟨rfl, rfl⟩ := Txn.ok_pure.mp hpure
        have hcand' : Candidates ctx t' subs := fun u hu =>
          ⟨hkept u (hcand u (List.mem_cons_of_mem sub hu)).1 (hothers u hu),
            (hcand u (List.mem_cons_of_mem sub hu)).2⟩
        obtain ⟨seen, hvisited, hin, hres⟩ := reserveOnFirst_ok hnodup' hcand' hfree' hlater
        refine ⟨sub :: seen, ?_, ?_, hres.cons hsub hplan hreset fun u hu => hothers u (hin u hu)⟩
        · unfold visited
          rw [hrefresh]
          dsimp only
          rw [if_neg hfull, hvisited]
          rfl
        · intro u hu
          rcases List.mem_cons.mp hu with rfl | hu
          · exact List.mem_cons_self
          · exact List.mem_cons_of_mem sub (hin u hu)
      · obtain ⟨rfl, rfl⟩ := Txn.ok_pure.mp h
        refine ⟨[sub], ?_, ?_, hcharges.reserves hsub hplan hreset hfree⟩
        · unfold visited
          rw [hrefresh]
          dsimp only
          rw [if_pos hfits]
        · intro u hu
          rw [List.mem_singleton.mp hu]
          exact List.mem_cons_self

/-- The candidates of a pre-consume. -/
theorem activeSubscriptions_candidates (ctx : ResetContext) (s : Tables) (userId : ℤ) :
    (activeSubscriptions s userId ctx.now).Nodup ∧
      Candidates ctx s (activeSubscriptions s userId ctx.now) := by
  unfold activeSubscriptions
  constructor
  · have hnodup : s.userSubscriptions.rows.Nodup := by
      refine s.userSubscriptions.distinct.imp ?_
      rintro a b hab rfl
      exact hab (Keyed.clash_refl _)
    exact (List.perm_insertionSort _ _).nodup_iff.mpr (hnodup.filter _)
  · intro c hc
    rw [List.mem_insertionSort, List.mem_filter] at hc
    exact ⟨hc.1, (of_decide_eq_true hc.2).2⟩

/-- A pre-consume is a replay, which writes nothing, or a fresh reservation. -/
theorem preConsumeUserSubscriptionTx_ok {reserved : Reserved}
    (h : (preConsumeUserSubscriptionTx ctx req).Ok s reserved s') :
    (s' = s ∧ reserved.alreadyConsumed = true ∧ reserved.cleared = []) ∨
      ((∀ r ∈ s.subscriptionPreConsumeRecords, r.requestId ≠ req.requestId) ∧
        ∃ seen, visited ctx req.amount (activeSubscriptions s req.userId ctx.now) = some seen ∧
          Reserves ctx req seen s reserved s') := by
  unfold preConsumeUserSubscriptionTx at h
  rw [Txn.ok_bind] at h
  obtain ⟨db, _, hget, h⟩ := h
  obtain ⟨rfl, rfl⟩ := Txn.ok_get.mp hget
  cases hfirst : s.subscriptionPreConsumeRecords.first? (·.requestId = req.requestId) with
  | some existing =>
      rw [hfirst] at h
      exact .inl (replayPreConsume_ok h)
  | none =>
      rw [hfirst] at h
      dsimp only at h
      have hfree := Table.first?_eq_none.mp hfirst
      obtain ⟨_, _, hsome, h⟩ := Txn.ok_bind.mp h
      obtain ⟨_, rfl⟩ := Txn.ok_require.mp hsome
      obtain ⟨hnodup, hcand⟩ := activeSubscriptions_candidates ctx s req.userId
      obtain ⟨seen, hvisited, _, hres⟩ := reserveOnFirst_ok hnodup hcand hfree h
      exact .inr ⟨hfree, seen, hvisited, hres⟩

end specifications

end MaxApi.Reservation
