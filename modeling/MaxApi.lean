import MaxApi.AuthFlow.OneTime
import MaxApi.BillingExpr.Transparent
import MaxApi.Channels.Agreement
import MaxApi.Channels.WellFormed
import MaxApi.Convert.ClaudeAgreement
import MaxApi.Convert.ClaudeCarried
import MaxApi.Convert.ClaudeConversation
import MaxApi.Convert.EventOrder
import MaxApi.Convert.GeminiRequest
import MaxApi.Convert.ToolPairing
import MaxApi.Lib.JsonPatterns
import MaxApi.Override.Audit
import MaxApi.Override.Legacy
import MaxApi.Override.Values
import MaxApi.Override.Wildcards
import MaxApi.PassThrough.Delivery
import MaxApi.PerfMetrics.CountedOnce
import MaxApi.RateLimit.Window
import MaxApi.Redemption.CreditedOnce
import MaxApi.Relay.Priorities
import MaxApi.Reservation.Anchor
import MaxApi.Reservation.Cleanup
import MaxApi.Reservation.Termination
import MaxApi.Reservation.UsageReports
import MaxApi.Responses.Agreement
import MaxApi.Responses.WellFormed
import MaxApi.Settlement.EffectsOnce
import MaxApi.Settlement.Evidence
import MaxApi.Settlement.ManualTask
import MaxApi.Stream.Delivery
import MaxApi.Stream.ResponsesState
import MaxApi.Subscription.Restoration
import MaxApi.SystemTask.Lease
import MaxApi.TaskBilling.H3Covered
import MaxApi.TaskPlugin.Answers
import MaxApi.TaskPlugin.Binding
import MaxApi.TaskPlugin.Guarantees
import MaxApi.TaskPricing.ChargeBound
import MaxApi.TextQuota.ChargeLaw
import MaxApi.TextQuota.Summary
import MaxApi.TextQuota.Surcharge
import MaxApi.TieredBilling.PricedOnce
import MaxApi.ToolUsage.CountedOnce
import MaxApi.TopUp.CreditOnce
import MaxApi.TwoFA.Lockout
import MaxApi.Usage.CountedOnce
import MaxApi.UsageEvidence.Binding
