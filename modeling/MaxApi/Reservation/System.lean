import MaxApi.Lib.System
import MaxApi.Settlement.Changes
import MaxApi.Reservation.PreConsume

/-! # Subscriptions, reservations and settlements as one system

The state is the settlement store with its calls under way and the plans.  Every process reads
plans through a cache, so that a lookup may return any version a plan has had; an operation says
which version it gets for each subscription.  `counted` is a ghost: the requests whose reservation
has been added to the usage of a subscription and has not been cleared since. -/

namespace MaxApi.Reservation

open Relational MaxApi.Billing MaxApi.Subscription

/-- The state of the system. -/
structure World where
  store : Settlement.World
  /-- All versions of all plans, the newest first. -/
  plans : List SubscriptionPlan
  /-- The requests that count, with their subscriptions. -/
  counted : List (String × ℤ)

/-- When and how an operation runs: the clocks, the versions of the plans it gets to see and the
rounds its loops may take. -/
structure Moment where
  now : ℤ
  updatedAt : ℤ
  /-- The index of the version that the lookup for a subscription returns. -/
  version : ℤ → ℕ
  fuel : ℕ

/-- What can happen next. -/
inductive Op where
  /-- A step of the settlement store. -/
  | settlement (op : Settlement.Op)
  /-- `PreConsumeUserSubscription`. -/
  | preConsume (req : PreConsume) (moment : Moment)
  /-- `PreConsumeTokenAndUserSubscription`. -/
  | preConsumeToken (req : PreConsume) (moment : Moment)
  /-- `RefundSubscriptionPreConsume`. -/
  | refund (requestId : String) (now : ℤ)
  /-- `CleanupSubscriptionPreConsumeRecords`. -/
  | cleanup (olderThanSeconds now : ℤ)
  /-- `ResetDueSubscriptions` resets one of the rows it has loaded. -/
  | resetDue (id : ℤ) (moment : Moment)
  /-- `AdminResetUserSubscriptionsByPlan`. -/
  | adminResetUser (userId planId : ℤ) (advanceResetTime : Bool) (moment : Moment)
  /-- `AdminResetPlanSubscriptions`. -/
  | adminResetPlan (planId : ℤ) (advanceResetTime : Bool) (moment : Moment)
  /-- `AdminUpdateSubscriptionPlan`. -/
  | updatePlan (id : ℤ) (plan : SubscriptionPlan)

/-- The outside of the system: the settlement store's host, the calendar and the groups that have a
ratio. -/
structure Environment where
  host : Settlement.Host
  cal : Calendar
  groupExists : String → Bool

/-! ### Plans -/

/-- A version of the plan `id`. -/
def planVersion (plans : List SubscriptionPlan) (id : ℤ) (version : ℕ) : Option SubscriptionPlan :=
  (plans.filter fun plan => decide (plan.id = id))[version]?

/-- The plan `AdminUpdateSubscriptionPlan` stores for a request, next to the version `old`. -/
def updatedPlan (env : Environment) (id : ℤ) (req old : SubscriptionPlan) :
    Except Failure SubscriptionPlan :=
  let durationUnit := if req.durationUnit = .other "" then .month else req.durationUnit
  let durationValue :=
    if req.durationValue ≤ 0 ∧ durationUnit ≠ .custom then 1 else req.durationValue
  let upgradeGroup := Text.trimSpace req.upgradeGroup
  let downgradeGroup := Text.trimSpace req.downgradeGroup
  let period := normalizeResetPeriod req.quotaResetPeriod
  if id ≤ 0 then .error (plainError "无效的ID")
  else if req.maxPurchasePerUser < 0 then .error (plainError "购买上限不能为负数")
  else if req.totalAmount < 0 then .error (plainError "总额度不能为负数")
  else if upgradeGroup ≠ "" ∧ env.groupExists upgradeGroup = false then
    .error (plainError "升级分组不存在")
  else if downgradeGroup ≠ "" ∧ env.groupExists downgradeGroup = false then
    .error (plainError "降级分组不存在")
  else if period = .custom ∧ req.quotaResetCustomSeconds ≤ 0 then
    .error (plainError "自定义重置周期需大于0秒")
  else .ok { req with
    id := id
    durationUnit := durationUnit
    durationValue := durationValue
    upgradeGroup := upgradeGroup
    downgradeGroup := downgradeGroup
    quotaResetPeriod := period.text
    allowWalletOverflow :=
      match req.allowWalletOverflow with
      | some allow => some allow
      | none => old.allowWalletOverflow }

/-- The versions of the plans after `AdminUpdateSubscriptionPlan`. -/
def adminUpdateSubscriptionPlan (env : Environment) (id : ℤ) (req : SubscriptionPlan)
    (plans : List SubscriptionPlan) : List SubscriptionPlan :=
  match planVersion plans id 0 with
  | none => plans
  | some old =>
      match updatedPlan env id req old with
      | .ok plan => plan :: plans
      | .error _ => plans

/-! ### Steps -/

/-- The context of the resets of an operation. -/
def Moment.context (env : Environment) (plans : List SubscriptionPlan) (m : Moment) :
    ResetContext where
  cal := env.cal
  planOf sub := planVersion plans sub.planId (m.version sub.id)
  now := m.now
  updatedAt := m.updatedAt
  fuel := m.fuel

/-- What a transaction of the system reports: the reservation a pre-consume returns, and the
subscriptions whose usage has been cleared. -/
structure Report where
  reserved : Option Reserved
  cleared : List ℤ
  deriving DecidableEq, Repr

/-- The report of a pre-consume. -/
def Reserved.report (reserved : Reserved) : Report := ⟨some reserved, reserved.cleared⟩

/-- The transaction of an operation; the operations that are none do nothing here. -/
def act (env : Environment) (plans : List SubscriptionPlan) : Op → Tx Report
  | .preConsume req moment => do
      let reserved ← preConsumeUserSubscription env.host (moment.context env plans) req
      pure reserved.report
  | .preConsumeToken req moment => do
      let reserved ← preConsumeTokenAndUserSubscription env.host (moment.context env plans) req
      pure reserved.report
  | .refund requestId now => do
      refundSubscriptionPreConsume requestId now
      pure ⟨none, []⟩
  | .resetDue id moment => do
      let cleared ← resetDueSubscriptionTx (moment.context env plans) id
      pure ⟨none, cleared⟩
  | .adminResetUser userId planId advanceResetTime moment => do
      let cleared ← adminResetUserSubscriptionsByPlanTx (moment.context env plans)
        (planVersion plans planId (moment.version 0)) userId planId advanceResetTime
      pure ⟨none, cleared⟩
  | .adminResetPlan planId advanceResetTime moment => do
      let cleared ← adminResetPlanSubscriptionsTx (moment.context env plans)
        (planVersion plans planId (moment.version 0)) planId advanceResetTime
      pure ⟨none, cleared⟩
  | .cleanup olderThanSeconds now => do
      modify (cleanupSubscriptionPreConsumeRecords olderThanSeconds now)
      pure ⟨none, []⟩
  | .settlement _ | .updatePlan _ _ => pure ⟨none, []⟩

/-- What an operation answers in a state. -/
def outcome (env : Environment) (w : World) (op : Op) : Except Failure Report :=
  (transaction (act env w.plans op) w.store.db).1

/-- The request id of a pre-consume. -/
def Op.requestId : Op → String
  | .preConsume req _ | .preConsumeToken req _ => req.requestId
  | _ => ""

/-- The reservation that a transaction has added to the usage of a subscription. -/
def Report.charge (op : Op) (report : Report) : Option (String × ℤ) :=
  match report.reserved with
  | some reserved =>
      if reserved.alreadyConsumed then none
      else some (op.requestId, reserved.result.userSubscriptionId)
  | none => none

/-- The reservations that count after a transaction. -/
def countAfter (op : Op) (report : Report) (counted : List (String × ℤ)) : List (String × ℤ) :=
  (report.charge op).toList ++ counted.filter fun c => decide (c.2 ∉ report.cleared)

/-- Run the transaction of an operation. -/
def World.commit (env : Environment) (w : World) (op : Op) : World :=
  match transaction (act env w.plans op) w.store.db with
  | (.ok report, db) => { w with
      store := { w.store with db := db }
      counted := countAfter op report w.counted }
  | (.error _, _) => w

/-- What an operation makes of the state. -/
def step (env : Environment) (w : World) : Op → World
  | .settlement op => { w with store := Settlement.step env.host w.store op }
  | .updatePlan id plan => { w with plans := adminUpdateSubscriptionPlan env id plan w.plans }
  | op => w.commit env op

/-- The state after a list of operations. -/
abbrev runs (env : Environment) (w : World) (ops : List Op) : World :=
  Transition.run (step env) w ops

/-! ### A small system -/

/-- An environment whose days have 86400 seconds. -/
def plainEnvironment : Environment where
  host :=
    { sanitizePersistedLogContent := id
      maskSensitiveInfo := id
      marshal := fun _ => .ok ""
      unmarshal := fun _ => .error "unknown payload"
      mapToJsonStr := fun _ => "{}"
      quoted := fun s => s
      logConsumeEnabled := false }
  cal :=
    { addDate := fun t _ _ days => t + days * 86400
      startOfDay := fun t => t - t % 86400
      startOfMonth := fun t => t
      weekday := fun t => (t / 86400 + 4) % 7 }
  groupExists _ := true

/-- A plan that never resets its quota. -/
def steadyPlan : SubscriptionPlan where
  id := 1
  durationUnit := .month
  durationValue := 1
  customSeconds := 0
  allowWalletOverflow := none
  maxPurchasePerUser := 0
  upgradeGroup := ""
  downgradeGroup := ""
  totalAmount := 100
  quotaResetPeriod := "never"
  quotaResetCustomSeconds := 0

/-- A subscription to the plan, as its purchase at time 1000 has created it. -/
def steadySubscription : UserSubscription where
  id := 1
  userId := 1
  planId := 1
  amountTotal := 100
  amountUsed := 0
  startTime := 1000
  endTime := 2593000
  status := .active
  lastResetTime := 0
  nextResetTime := 0
  upgradeGroup := ""
  prevUserGroup := ""
  downgradeGroup := ""
  allowWalletOverflow := true
  updatedAt := 1000

/-- One subscription, and no request yet. -/
def steadyWorld : World where
  store :=
    { db := { Tables.empty with
        userSubscriptions := ⟨[steadySubscription], List.pairwise_singleton _ _⟩ }
      logDb := .empty
      calls := [] }
  plans := [steadyPlan]
  counted := []

/-- A request of user 1 for an amount. -/
def request (requestId : String) (amount : ℤ) : PreConsume := ⟨requestId, 1, 0, "model", 0, amount⟩

/-- An operation that sees the newest plans at a time. -/
def atTime (now : ℤ) : Moment := ⟨now, now, fun _ => 0, 10⟩

end MaxApi.Reservation
