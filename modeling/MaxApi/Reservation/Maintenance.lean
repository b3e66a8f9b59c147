import MaxApi.Lib.Batches
import MaxApi.Reservation.System

/-! # Maintenance of quota periods

The maintenance resets the rows whose period is over, in batches, until a batch has reset fewer
rows than it may take.  Each row is reset in a transaction of its own, in which a loop catches up
with the periods that are over.  Two loops have to end: the catch-up of a row, for which each
period must end later than it starts, and the loop over the batches, for which the rows that a
batch counts must not stay due. -/

namespace MaxApi.Reservation

open Relational MaxApi.Billing MaxApi.Subscription

/-! ### Batches -/

/-- The number of rows a batch takes. -/
def batchLimit (limit : ℤ) : ℕ := if limit ≤ 0 then 200 else limit.toNat

/-- The rows that the query of a batch selects. -/
def isDue (now : ℤ) (sub : UserSubscription) : Prop :=
  0 < sub.nextResetTime ∧ sub.nextResetTime ≤ now ∧ sub.status = .active

instance (now : ℤ) : DecidablePred (isDue now) := fun _ => inferInstanceAs (Decidable (_ ∧ _))

/-- `ORDER BY next_reset_time ASC`. -/
def resetsBefore (a b : UserSubscription) : Prop := a.nextResetTime ≤ b.nextResetTime

instance : DecidableRel resetsBefore := fun _ _ => inferInstanceAs (Decidable (_ ≤ _))

/-- The rows that are due, in the order of the query. -/
def dueSubscriptions (now : ℤ) (s : Tables) : List UserSubscription :=
  (s.userSubscriptions.rows.filter fun sub => decide (isDue now sub)).insertionSort resetsBefore

/-- The plan of a row, if the lookup by its id returns one. -/
def planFor (ctx : ResetContext) (sub : UserSubscription) : Option SubscriptionPlan :=
  if 0 < sub.planId then ctx.planOf sub else none

/-- The transaction for one row; the result is whether the row was still due. -/
def resetLockedTx (ctx : ResetContext) (plan : SubscriptionPlan) (id : ℤ) : Tx Bool := do
  let db ← get
  match db.userSubscriptions.first?
      (fun u => u.id = id ∧ 0 < u.nextResetTime ∧ u.nextResetTime ≤ ctx.now) with
  | none => pure false
  | some locked => do
      let _ ← maybeResetUserSubscriptionWithPlanTx ctx plan locked
      pure true

/-- What a batch does with one of its rows; the result is what it adds to the count. -/
def resetRow (ctx : ResetContext) (sub : UserSubscription) : Tx ℕ :=
  match planFor ctx sub with
  | none => pure 0
  | some plan => do
      let reset ← transaction (resetLockedTx ctx plan sub.id)
      pure (if reset then 1 else 0)

/-- The loop of `ResetDueSubscriptions` over its rows. -/
def resetRows (ctx : ResetContext) : List UserSubscription → Tx ℕ
  | [] => pure 0
  | sub :: subs => do
      let n ← resetRow ctx sub
      let m ← resetRows ctx subs
      pure (n + m)

def resetDueSubscriptions (ctx : ResetContext) (limit : ℤ) : Tx ℕ := do
  let db ← get
  resetRows ctx ((dueSubscriptions ctx.now db).take (batchLimit limit))

/-- The loop of `runSubscriptionQuotaResetOnce` over the batches, for at most so many of them: the
state it ends in, or nothing if it has not ended. -/
def resetLoop (ctx : ResetContext) (limit : ℤ) : ℕ → Tables → Option Tables
  | 0, _ => none
  | rounds + 1, s =>
      match (resetDueSubscriptions ctx limit).exec s with
      | (.error _, s') => some s'
      | (.ok n, s') =>
          if n = 0 then some s'
          else if n < batchLimit limit then some s'
          else resetLoop ctx limit rounds s'

/-- The batch size of the task. -/
def subscriptionResetBatchSize : ℤ := 300

/-! ### Periods that go forward -/

/-- Each period that the plan computes ends later than it starts.  The seconds of a custom period
are multiplied into 64-bit nanoseconds, of which at least one whole second must be left. -/
def Forward (cal : Calendar) (plan : SubscriptionPlan) : Prop :=
  match normalizeResetPeriod plan.quotaResetPeriod with
  | .never => True
  | .daily => ∀ t, 0 < cal.addDate (cal.startOfDay t) 0 0 1 →
      t < cal.addDate (cal.startOfDay t) 0 0 1
  | .weekly => ∀ t,
      0 < cal.addDate (cal.startOfDay t) 0 0 (8 - if cal.weekday t = 0 then 7 else cal.weekday t) →
        t < cal.addDate (cal.startOfDay t) 0 0 (8 - if cal.weekday t = 0 then 7 else cal.weekday t)
  | .monthly => ∀ t, 0 < cal.addDate (cal.startOfMonth t) 0 1 0 →
      t < cal.addDate (cal.startOfMonth t) 0 1 0
  | .custom => 0 < plan.quotaResetCustomSeconds →
      1000000000 ≤ Int.bmod (plan.quotaResetCustomSeconds * 1000000000) (2 ^ 64)

/-- A period that starts at `base` is over. -/
def Overdue (ctx : ResetContext) (plan : SubscriptionPlan) (endTime base : ℤ) : Prop :=
  0 < calcNextResetTime ctx.cal base plan endTime ∧
    calcNextResetTime ctx.cal base plan endTime ≤ ctx.now

instance (ctx : ResetContext) (plan : SubscriptionPlan) (endTime base : ℤ) :
    Decidable (Overdue ctx plan endTime base) := inferInstanceAs (Decidable (_ ∧ _))

/-- From every base and at every time, each iteration of the catch-up loop goes to a later period,
and the loop ends. -/
def CatchesUp (cal : Calendar) (plan : SubscriptionPlan) : Prop :=
  ∀ (ctx : ResetContext) (endTime base : ℤ), ctx.cal = cal →
    (Overdue ctx plan endTime base → base < calcNextResetTime cal base plan endTime) ∧
      ∃ fuel, (catchUp ctx plan endTime fuel base (calcNextResetTime cal base plan endTime)).isSome

/-! ### Rows that stay due -/

/-- The reset of a due row leaves the row as it is: its plan has no periods any more, or the period
that starts at its base has not ended or has no end. -/
def Stuck (ctx : ResetContext) (plan : SubscriptionPlan) (sub : UserSubscription) : Prop :=
  normalizeResetPeriod plan.quotaResetPeriod = .never ∨
    ¬ Overdue ctx plan sub.endTime (periodBase sub)

instance (ctx : ResetContext) (plan : SubscriptionPlan) (sub : UserSubscription) :
    Decidable (Stuck ctx plan sub) := inferInstanceAs (Decidable (_ ∨ _))

/-- A batch counts the row. -/
def counts (ctx : ResetContext) (sub : UserSubscription) : Bool := (planFor ctx sub).isSome

/-- A batch moves the row to a later period. -/
def moves (ctx : ResetContext) (sub : UserSubscription) : Bool :=
  (planFor ctx sub).any fun plan => decide (¬ Stuck ctx plan sub)

/-- The first rows that stay due make up a full batch of rows that have a plan. -/
def Blocked (ctx : ResetContext) (limit : ℤ) (s : Tables) : Prop :=
  Batches.Stalled (counts ctx) (moves ctx) (batchLimit limit) (dueSubscriptions ctx.now s)

end MaxApi.Reservation
