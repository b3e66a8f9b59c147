import MaxApi.Subscription.Plan
import Mathlib.Data.List.Sort

/-! # Purchase and end of a subscription

A purchase moves the user into the plan's group and remembers the group the user came from, if the
purchase moved the user at all.  A subscription ends by expiry, by cancellation or by deletion; the
user then leaves the group unless another active subscription grants it.  Expiry works on the batch
of all due subscriptions of a user and decides by one of them. -/

namespace MaxApi.Subscription

open Relational MaxApi.Billing

/-! ### Groups -/

/-- The group of a user; empty for a user who is not there. -/
def groupOf (s : Tables) (userId : ℤ) : String :=
  ((s.users.first? (·.id = userId)).map (·.group)).getD ""

/-- `UPDATE users SET group = …`. -/
def setGroup (userId : ℤ) (group : String) (s : Tables) : Tables :=
  { s with
    users := s.users.update (fun u => u.id = userId)
      ⟨fun u => { u with group := group }, keeps fun _ => rfl⟩ }

def getUserGroupByIdTx (userId : ℤ) : Tx String := do
  Txn.require (0 < userId) (plainError "invalid userId")
  let db ← get
  pure (groupOf db userId)

/-- An active subscription of the user that grants the group. -/
def grantsGroup (userId now : ℤ) (group : String) (sub : UserSubscription) : Prop :=
  sub.userId = userId ∧ sub.status = .active ∧ now < sub.endTime ∧ sub.upgradeGroup ≠ "" ∧
    Text.sqlTrim sub.upgradeGroup = group

instance (userId now : ℤ) (group : String) : DecidablePred (grantsGroup userId now group) :=
  fun _ => inferInstanceAs (Decidable (_ ∧ _))

/-- The group a user falls back to when `sub` is cancelled or deleted; empty for none. -/
def downgradeTarget (sub : UserSubscription) (currentGroup : String) : String :=
  let downgradeGroup := Text.trimSpace sub.downgradeGroup
  let upgradeGroup := Text.trimSpace sub.upgradeGroup
  if downgradeGroup = "" then
    if upgradeGroup = "" ∨ currentGroup ≠ upgradeGroup then ""
    else Text.trimSpace sub.prevUserGroup
  else if upgradeGroup ≠ "" ∧ currentGroup ≠ upgradeGroup then ""
  else downgradeGroup

/-- The group the user now has, or nothing when the group stays. -/
def downgradeUserGroupForSubscriptionTx (sub : UserSubscription) (now : ℤ) : Tx String :=
  if Text.trimSpace sub.downgradeGroup = "" ∧ Text.trimSpace sub.upgradeGroup = "" then pure ""
  else do
    let currentGroup ← getUserGroupByIdTx sub.userId
    let db ← get
    if 0 < db.userSubscriptions.affected
        (fun u => grantsGroup sub.userId now currentGroup u ∧ u.id ≠ sub.id) then pure ""
    else
      let target := downgradeTarget sub currentGroup
      if target = "" ∨ target = currentGroup then pure ""
      else do
        modify (setGroup sub.userId target)
        pure target

/-! ### Purchase -/

/-- The row a purchase creates. -/
def purchasedSubscription (userId : ℤ) (plan : SubscriptionPlan) (now endUnix nextReset : ℤ)
    (prevGroup : String) (updatedAt id : ℤ) : UserSubscription where
  id := id
  userId := userId
  planId := plan.id
  amountTotal := plan.totalAmount
  amountUsed := 0
  startTime := now
  endTime := endUnix
  status := .active
  lastResetTime := if 0 < nextReset then now else 0
  nextResetTime := nextReset
  upgradeGroup := Text.trimSpace plan.upgradeGroup
  prevUserGroup := prevGroup
  downgradeGroup := Text.trimSpace plan.downgradeGroup
  allowWalletOverflow := plan.allowWalletOverflow.getD true
  updatedAt := updatedAt

/-- The limit of purchases per user; expired subscriptions count. -/
def checkPurchaseLimit (userId : ℤ) (plan : SubscriptionPlan) : Tx Unit :=
  if 0 < plan.maxPurchasePerUser then do
    let db ← get
    let _ ← Txn.orThrow (db.users.first? (·.id = userId)) Sentinel.recordNotFound.error
    Txn.require
      (((db.userSubscriptions.affected fun u => u.userId = userId ∧ u.planId = plan.id) : ℤ)
        < plan.maxPurchasePerUser)
      (plainError "已达到该套餐购买上限")
  else pure ()

/-- Move the user into the group of the plan; the result is the group the user was in, if that was
another one. -/
def upgradeUserGroup (userId : ℤ) (upgradeGroup : String) : Tx String :=
  if upgradeGroup ≠ "" then do
    let currentGroup ← getUserGroupByIdTx userId
    if currentGroup ≠ upgradeGroup then do
      modify (setGroup userId upgradeGroup)
      pure currentGroup
    else pure ""
  else pure ""

/-- The transaction of a purchase, at the database's time `now`. -/
def createUserSubscriptionFromPlanTx (cal : Calendar) (userId : ℤ) (plan : SubscriptionPlan)
    (now updatedAt : ℤ) : Tx PUnit := do
  Txn.require (plan.id ≠ 0) (plainError "invalid plan")
  Txn.require (0 < userId) (plainError "invalid user id")
  checkPurchaseLimit userId plan
  let endUnix ← Txn.ofExcept (calcPlanEndTime cal now plan)
  let nextReset := calcNextResetTime cal now plan endUnix
  let prevGroup ← upgradeUserGroup userId (Text.trimSpace plan.upgradeGroup)
  modify fun db => { db with
    userSubscriptions := db.userSubscriptions.insert
      (purchasedSubscription userId plan now endUnix nextReset prevGroup updatedAt
        (db.userSubscriptions.nextID (·.id))) }

/-! ### Cancellation and deletion -/

/-- A cancelled subscription ends now. -/
def cancelledSubscription (now : ℤ) (sub : UserSubscription) : UserSubscription :=
  { sub with status := .cancelled, endTime := now, updatedAt := now }

/-- Cancel the subscription `id`. -/
def markCancelled (id now : ℤ) (s : Tables) : Tables :=
  { s with
    userSubscriptions := s.userSubscriptions.update (fun u => u.id = id)
      ⟨cancelledSubscription now, keeps fun _ => rfl⟩ }

/-- The transaction of `AdminInvalidateUserSubscription`. -/
def adminInvalidateUserSubscriptionTx (userSubscriptionId now : ℤ) : Tx String := do
  Txn.require (0 < userSubscriptionId) (plainError "invalid userSubscriptionId")
  let db ← get
  let sub ← Txn.orThrow (db.userSubscriptions.first? (·.id = userSubscriptionId))
    Sentinel.recordNotFound.error
  modify (markCancelled sub.id now)
  downgradeUserGroupForSubscriptionTx (cancelledSubscription now sub) now

/-- The transaction of `AdminDeleteUserSubscription`. -/
def adminDeleteUserSubscriptionTx (userSubscriptionId now : ℤ) : Tx String := do
  Txn.require (0 < userSubscriptionId) (plainError "invalid userSubscriptionId")
  let db ← get
  let sub ← Txn.orThrow (db.userSubscriptions.first? (·.id = userSubscriptionId))
    Sentinel.recordNotFound.error
  let target ← downgradeUserGroupForSubscriptionTx sub now
  modify fun db => { db with
    userSubscriptions := db.userSubscriptions.delete (·.id = userSubscriptionId) }
  pure target

/-! ### Expiry -/

/-- A subscription whose end has come and that is still marked active. -/
def due (now : ℤ) (sub : UserSubscription) : Prop :=
  sub.status = .active ∧ 0 < sub.endTime ∧ sub.endTime ≤ now

instance (now : ℤ) : DecidablePred (due now) := fun _ => inferInstanceAs (Decidable (_ ∧ _))

/-- `ORDER BY end_time ASC, id ASC`. -/
def endsBefore (a b : UserSubscription) : Prop :=
  a.endTime < b.endTime ∨ (a.endTime = b.endTime ∧ a.id ≤ b.id)

instance : DecidableRel endsBefore := fun _ _ => inferInstanceAs (Decidable (_ ∨ _))

/-- The due subscriptions of a user, in the order of their ends. -/
def dueSubscriptions (s : Tables) (userId now : ℤ) : List UserSubscription :=
  (s.userSubscriptions.rows.filter fun sub =>
    decide (sub.userId = userId ∧ due now sub)).insertionSort endsBefore

/-- The subscription of an expired batch that decides about the group: the last one that carries
a group of its own. -/
def lastExpired (batch : List UserSubscription) : Option UserSubscription :=
  batch.reverse.find? fun sub =>
    decide (Text.trimSpace sub.upgradeGroup ≠ "" ∨ Text.trimSpace sub.downgradeGroup ≠ "")

/-- The group a user falls back to when a batch has expired; empty for none. -/
def expiryTarget (sub : UserSubscription) (currentGroup : String) : String :=
  let upgradeGroup := Text.trimSpace sub.upgradeGroup
  let downgradeGroup := Text.trimSpace sub.downgradeGroup
  let prevGroup := Text.trimSpace sub.prevUserGroup
  if downgradeGroup = "" then
    if prevGroup = "" ∨ upgradeGroup = "" ∨ currentGroup ≠ upgradeGroup ∨ currentGroup = prevGroup
    then ""
    else prevGroup
  else if upgradeGroup ≠ "" ∧ currentGroup ≠ upgradeGroup then ""
  else downgradeGroup

/-- An expired subscription. -/
def expiredSubscription (updatedAt : ℤ) (sub : UserSubscription) : UserSubscription :=
  { sub with status := .expired, updatedAt := updatedAt }

/-- Mark the due subscriptions of a user as expired. -/
def markExpired (userId now updatedAt : ℤ) (s : Tables) : Tables :=
  { s with
    userSubscriptions := s.userSubscriptions.update (fun u => u.userId = userId ∧ due now u)
      ⟨expiredSubscription updatedAt, keeps fun _ => rfl⟩ }

/-- The transaction of `ExpireDueSubscriptions` for one user; `now` was read when the pass
started. -/
def expireUserSubscriptionsTx (userId now updatedAt : ℤ) : Tx PUnit := do
  let db ← get
  let dueSubs := dueSubscriptions db userId now
  if dueSubs = [] then pure ⟨⟩
  else
    modify (markExpired userId now updatedAt)
    match lastExpired dueSubs with
    | none => pure ⟨⟩
    | some last => do
        let currentGroup ← getUserGroupByIdTx userId
        let target := expiryTarget last currentGroup
        let db ← get
        if target = "" ∨ target = currentGroup ∨
            0 < db.userSubscriptions.affected (grantsGroup userId now currentGroup) then pure ⟨⟩
        else modify (setGroup userId target)

/-- The users a pass works on: those of the first `limit` due subscriptions. -/
def dueUsers (s : Tables) (limit now : ℤ) : List ℤ :=
  let limit := if limit ≤ 0 then 200 else limit
  let subs := ((s.userSubscriptions.rows.filter fun sub => decide (due now sub)).insertionSort
    endsBefore).take limit.toNat
  ((subs.map (·.userId)).filter fun userId => decide (0 < userId)).dedup

/-- Expire the users one after the other; a transaction that fails ends the pass. -/
def expireUsers (now updatedAt : ℤ) : List ℤ → Tables → Tables
  | [], s => s
  | userId :: users, s =>
      match transaction (expireUserSubscriptionsTx userId now updatedAt) s with
      | (.ok _, s') => expireUsers now updatedAt users s'
      | (.error _, s') => s'

/-- `ExpireDueSubscriptions`. -/
def expireDueSubscriptions (limit now updatedAt : ℤ) (s : Tables) : Tables :=
  expireUsers now updatedAt (dueUsers s limit now) s

end MaxApi.Subscription
