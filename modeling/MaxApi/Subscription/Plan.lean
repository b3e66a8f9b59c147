import MaxApi.Billing.Schema
import MaxApi.Lib.Text

/-! # Subscription plans

What a plan says about the lifetime, the quota period and the groups of the subscriptions that are
bought from it.  Dates are Unix times; the functions of the host's calendar that depend on the
local time zone are those of a `Calendar`. -/

namespace MaxApi.Subscription

open Relational MaxApi.Billing

/-- The column `duration_unit`. -/
inductive DurationUnit where
  | year
  | month
  | day
  | hour
  | custom
  | other (value : String)
  deriving DecidableEq, Repr

/-- The column as text, for error messages. -/
def DurationUnit.text : DurationUnit → String
  | .year => "year"
  | .month => "month"
  | .day => "day"
  | .hour => "hour"
  | .custom => "custom"
  | .other value => value

/-- A normalized quota reset period. -/
inductive ResetPeriod where
  | never
  | daily
  | weekly
  | monthly
  | custom
  deriving DecidableEq, Repr

/-- The period as the column holds it. -/
def ResetPeriod.text : ResetPeriod → String
  | .never => "never"
  | .daily => "daily"
  | .weekly => "weekly"
  | .monthly => "monthly"
  | .custom => "custom"

/-- A plan, with the columns that purchases and resets read. -/
structure SubscriptionPlan where
  id : ℤ
  durationUnit : DurationUnit
  durationValue : ℤ
  customSeconds : ℤ
  allowWalletOverflow : Option Bool
  maxPurchasePerUser : ℤ
  upgradeGroup : String
  downgradeGroup : String
  totalAmount : ℤ
  quotaResetPeriod : String
  quotaResetCustomSeconds : ℤ
  deriving DecidableEq, Repr

/-- The calendar of the process, in Unix time. -/
structure Calendar where
  /-- `t.AddDate(years, months, days)`. -/
  addDate : ℤ → ℤ → ℤ → ℤ → ℤ
  /-- Midnight of the day of `t`. -/
  startOfDay : ℤ → ℤ
  /-- Midnight of the first day of the month of `t`. -/
  startOfMonth : ℤ → ℤ
  /-- The day of the week of `t`; Sunday is 0. -/
  weekday : ℤ → ℤ

/-- `t.Add(time.Duration(n) * unit)` for a unit of so many seconds; a `time.Duration` counts
nanoseconds in 64 bits. -/
def addDuration (t n seconds : ℤ) : ℤ :=
  t + Int.bmod (n * (seconds * 1000000000)) (2 ^ 64) / 1000000000

/-- When a subscription bought at `start` ends. -/
def calcPlanEndTime (cal : Calendar) (start : ℤ) (plan : SubscriptionPlan) : Except Failure ℤ :=
  if plan.durationValue ≤ 0 ∧ plan.durationUnit ≠ .custom then
    .error (plainError "duration_value must be > 0")
  else match plan.durationUnit with
    | .year => .ok (cal.addDate start plan.durationValue 0 0)
    | .month => .ok (cal.addDate start 0 plan.durationValue 0)
    | .day => .ok (addDuration start plan.durationValue 86400)
    | .hour => .ok (addDuration start plan.durationValue 3600)
    | .custom =>
        if plan.customSeconds ≤ 0 then .error (plainError "custom_seconds must be > 0")
        else .ok (addDuration start plan.customSeconds 1)
    | .other value => .error (plainError ("invalid duration_unit: " ++ value))

/-- `NormalizeResetPeriod`. -/
def normalizeResetPeriod (period : String) : ResetPeriod :=
  let period := Text.trimSpace period
  if period = "daily" then .daily
  else if period = "weekly" then .weekly
  else if period = "monthly" then .monthly
  else if period = "custom" then .custom
  else .never

/-- The end of the quota period that starts at `base`; 0 when the quota is not reset any more. -/
def calcNextResetTime (cal : Calendar) (base : ℤ) (plan : SubscriptionPlan) (endUnix : ℤ) : ℤ :=
  let clip := fun next : ℤ => if 0 < endUnix ∧ endUnix < next then 0 else next
  match normalizeResetPeriod plan.quotaResetPeriod with
  | .never => 0
  | .daily => clip (cal.addDate (cal.startOfDay base) 0 0 1)
  | .weekly =>
      -- aligned to the next Monday, with Sunday as the seventh day of the week
      let weekday := if cal.weekday base = 0 then 7 else cal.weekday base
      clip (cal.addDate (cal.startOfDay base) 0 0 (8 - weekday))
  | .monthly => clip (cal.addDate (cal.startOfMonth base) 0 1 0)
  | .custom =>
      if plan.quotaResetCustomSeconds ≤ 0 then 0
      else clip (addDuration base plan.quotaResetCustomSeconds 1)

end MaxApi.Subscription
