import MaxApi.Reservation.System

/-! # The anchor of a quota period

A reservation is accepted for settlement as long as the anchor of its subscription is the one it
was made under, so the anchor may only move together with the usage: when the usage is cleared, no
earlier reservation counts any more.  All resets obey this except one branch of the lazy reset:
it gives a row without an end of its period the anchor of its first period and leaves the usage as
it is.  `KeepsAnchors` says when that branch does no harm. -/

namespace MaxApi.Reservation

open Relational MaxApi.Billing MaxApi.Subscription

/-! ### The two properties -/

/-- An anchor that has moved has left no usage behind, apart from the reservation that the same
transaction has made afterwards. -/
def AnchorMovesWithClear (s s' : Tables) : Prop :=
  ∀ sub ∈ s.userSubscriptions.rows, ∀ sub' ∈ s'.userSubscriptions.rows, sub'.id = sub.id →
    sub'.lastResetTime ≠ sub.lastResetTime →
      sub'.amountUsed = 0 ∨ ∃ record ∈ s'.subscriptionPreConsumeRecords.rows,
        record ∉ s.subscriptionPreConsumeRecords.rows ∧ record.userSubscriptionId = sub.id ∧
          record.preConsumed = sub'.amountUsed

instance (s s' : Tables) : Decidable (AnchorMovesWithClear s s') :=
  inferInstanceAs (Decidable (∀ sub ∈ s.userSubscriptions.rows,
    ∀ sub' ∈ s'.userSubscriptions.rows, sub'.id = sub.id →
      sub'.lastResetTime ≠ sub.lastResetTime → sub'.amountUsed = 0 ∨
        ∃ record ∈ s'.subscriptionPreConsumeRecords.rows, _))

/-- Reservations that count are accepted for settlement. -/
def Accepted (s : Tables) (counted : List (String × ℤ)) : Prop :=
  ∀ c ∈ counted, ∀ record ∈ s.subscriptionPreConsumeRecords.rows, record.requestId = c.1 →
    record.userSubscriptionId = c.2 → record.status = .consumed →
      ∀ sub ∈ s.userSubscriptions.rows, sub.id = c.2 →
        (Settlement.validateSubscriptionPreConsumePeriod record sub).isOk

instance (s : Tables) (counted : List (String × ℤ)) : Decidable (Accepted s counted) :=
  inferInstanceAs (Decidable (∀ c ∈ counted,
    ∀ record ∈ s.subscriptionPreConsumeRecords.rows, record.requestId = c.1 →
      record.userSubscriptionId = c.2 → record.status = .consumed →
        ∀ sub ∈ s.userSubscriptions.rows, _))

theorem validateSubscriptionPreConsumePeriod_isOk {record : SubscriptionPreConsumeRecord}
    {sub : UserSubscription} :
    (Settlement.validateSubscriptionPreConsumePeriod record sub).isOk ↔
      record.subscriptionLastResetTime = sub.lastResetTime := by
  unfold Settlement.validateSubscriptionPreConsumePeriod
  by_cases h : record.subscriptionLastResetTime = sub.lastResetTime
  · simp [h, Except.isOk, Except.toBool]
  · simp [h, Except.isOk, Except.toBool]

/-! ### The condition -/

/-- The lazy reset moves the anchor of a subscription that has usage or open reservations: the row
has no end of its period, no anchor, and a plan whose first period is running. -/
def AnchorLost (ctx : ResetContext) (s : Tables) (sub : UserSubscription)
    (plan : SubscriptionPlan) : Prop :=
  sub.nextResetTime = 0 ∧ sub.lastResetTime ≤ 0 ∧ sub.lastResetTime ≠ sub.startTime ∧
    normalizeResetPeriod plan.quotaResetPeriod ≠ .never ∧
    0 < calcNextResetTime ctx.cal sub.startTime plan sub.endTime ∧
    ctx.now < calcNextResetTime ctx.cal sub.startTime plan sub.endTime ∧
    (sub.amountUsed ≠ 0 ∨ ∃ record ∈ s.subscriptionPreConsumeRecords.rows, inPeriod sub record)

instance (ctx : ResetContext) (s : Tables) (sub : UserSubscription) (plan : SubscriptionPlan) :
    Decidable (AnchorLost ctx s sub plan) :=
  inferInstanceAs (Decidable (_ ∧ _))

/-- A fresh reservation loses no anchor on its way to the subscription that pays. -/
def PreConsumeKeepsAnchors (ctx : ResetContext) (req : PreConsume) (s : Tables) : Prop :=
  (∀ r ∈ s.subscriptionPreConsumeRecords.rows, r.requestId ≠ req.requestId) →
    ∀ seen ∈ visited ctx req.amount (activeSubscriptions s req.userId ctx.now),
      ∀ sub ∈ seen, ∀ plan ∈ ctx.planOf sub, ¬ AnchorLost ctx s sub plan

instance (ctx : ResetContext) (req : PreConsume) (s : Tables) :
    Decidable (PreConsumeKeepsAnchors ctx req s) :=
  inferInstanceAs (Decidable (_ → ∀ seen ∈ visited _ _ _, ∀ sub ∈ seen, ∀ plan ∈ ctx.planOf sub, _))

/-- The condition on an operation; only pre-consumes can break it. -/
def KeepsAnchors (env : Environment) (w : World) : Op → Prop
  | .preConsume req moment | .preConsumeToken req moment =>
      PreConsumeKeepsAnchors (moment.context env w.plans) req w.store.db
  | _ => True

instance (env : Environment) (w : World) : (op : Op) → Decidable (KeepsAnchors env w op)
  | .preConsume _ _ | .preConsumeToken _ _ =>
      inferInstanceAs (Decidable (PreConsumeKeepsAnchors _ _ _))
  | .settlement _ | .refund _ _ | .cleanup _ _ | .resetDue _ _ | .adminResetUser _ _ _ _
  | .adminResetPlan _ _ _ | .updatePlan _ _ => .isTrue trivial

/-! ### What a transaction may do to anchors and reservations -/

/-- A reservation before and after a step that did not create it. -/
def SameReservation (r r' : SubscriptionPreConsumeRecord) : Prop :=
  r.requestId = r'.requestId ∧ r.userSubscriptionId = r'.userSubscriptionId ∧
    r.subscriptionLastResetTime = r'.subscriptionLastResetTime ∧
    (r'.status = .consumed → r.status = .consumed)

/-- A step that clears the usage of the subscriptions in `cleared` and makes the reservation
`charge`.  An anchor moves only without usage, and only where the usage has been cleared or no
reservation is open. -/
structure Follows (s s' : Tables) (cleared : List ℤ) (charge : Option (String × ℤ)) : Prop where
  rows : ∀ u' ∈ s'.userSubscriptions, ∃ u ∈ s.userSubscriptions, u'.id = u.id ∧
    (u'.lastResetTime = u.lastResetTime ∨
      ((u'.amountUsed = 0 ∨ ∃ record ∈ s'.subscriptionPreConsumeRecords,
          record ∉ s.subscriptionPreConsumeRecords ∧ record.userSubscriptionId = u.id ∧
            record.preConsumed = u'.amountUsed) ∧
        (u.id ∈ cleared ∨ ∀ r ∈ s.subscriptionPreConsumeRecords, ¬ inPeriod u r)))
  records : ∀ r' ∈ s'.subscriptionPreConsumeRecords,
    (∃ r ∈ s.subscriptionPreConsumeRecords, SameReservation r r') ∨
      (charge = some (r'.requestId, r'.userSubscriptionId) ∧
        ∀ u' ∈ s'.userSubscriptions, u'.id = r'.userSubscriptionId →
          r'.subscriptionLastResetTime = u'.lastResetTime)
  fresh : ∀ c ∈ charge, ∀ r ∈ s.subscriptionPreConsumeRecords, r.requestId ≠ c.1

section follows

variable {s s' t : Tables} {cleared : List ℤ} {charge : Option (String × ℤ)}

theorem Follows.anchorMovesWithClear (h : Follows s s' cleared charge) :
    AnchorMovesWithClear s s' := by
  intro sub hsub sub' hsub' hid hmoved
  obtain ⟨u, hu, huid, hcase⟩ := h.rows sub' hsub'
  have hus : u = sub := Table.eq_of_clash hu hsub (huid.symm.trans hid)
  rw [hus] at hcase
  rcases hcase with hsame | ⟨hused, _⟩
  · exact absurd hsame hmoved
  · exact hused

/-- The reservations that count go on counting, except those of the cleared subscriptions. -/
theorem Follows.accepted {counted : List (String × ℤ)} (h : Follows s s' cleared charge)
    (hs : Accepted s counted) :
    Accepted s' (charge.toList ++ counted.filter fun c => decide (c.2 ∉ cleared)) := by
  intro c hc record hrecord hrid hsid hconsumed sub hsub hid
  rw [validateSubscriptionPreConsumePeriod_isOk]
  rcases h.records record hrecord with ⟨r, hr, hreq, hrsub, hanchor, hstatus⟩ | ⟨hcharge, hnew⟩
  · have hold : c ∈ counted ∧ c.2 ∉ cleared := by
      rcases List.mem_append.mp hc with hc | hc
      · have hne := h.fresh c (Option.mem_toList.mp hc) r hr
        exact absurd (hreq.trans hrid) hne
      · obtain ⟨hmem, hnot⟩ := List.mem_filter.mp hc
        exact ⟨hmem, of_decide_eq_true hnot⟩
    obtain ⟨u, hu, huid, hcase⟩ := h.rows sub hsub
    have hacc := hs c hold.1 r hr (hreq.trans hrid) (hrsub.trans hsid) (hstatus hconsumed) u hu
      (huid.symm.trans hid)
    rw [validateSubscriptionPreConsumePeriod_isOk] at hacc
    rcases hcase with hsame | ⟨_, hclear | hnone⟩
    · rw [← hanchor, hacc, hsame]
    · rw [huid.symm.trans hid] at hclear
      exact absurd hclear hold.2
    · refine absurd ⟨?_, hacc, hstatus hconsumed⟩ (hnone r hr)
      rw [hrsub, hsid, ← hid, huid]
  · exact hnew sub hsub (hid.trans hsid.symm)

/-! ### Steps that leave the anchors alone -/

/-- The anchors stay, and no reservation is made. -/
structure Keeps (s s' : Tables) : Prop where
  rows : ∀ u' ∈ s'.userSubscriptions, ∃ u ∈ s.userSubscriptions,
    u'.id = u.id ∧ u'.lastResetTime = u.lastResetTime
  records : ∀ r' ∈ s'.subscriptionPreConsumeRecords,
    ∃ r ∈ s.subscriptionPreConsumeRecords, SameReservation r r'

theorem Keeps.follows (h : Keeps s s') : Follows s s' [] none where
  rows u' hu' := by
    obtain ⟨u, hu, hid, hlast⟩ := h.rows u' hu'
    exact ⟨u, hu, hid, .inl hlast⟩
  records r' hr' := .inl (h.records r' hr')
  fresh c hc := by simp at hc

theorem Keeps.of_eq (hrows : s'.userSubscriptions = s.userSubscriptions)
    (hrecords : s'.subscriptionPreConsumeRecords = s.subscriptionPreConsumeRecords) :
    Keeps s s' where
  rows u' hu' := ⟨u', hrows ▸ hu', rfl, rfl⟩
  records r' hr' := ⟨r', hrecords ▸ hr', rfl, rfl, rfl, id⟩

theorem Keeps.trans (h : Keeps s t) (h' : Keeps t s') : Keeps s s' where
  rows u' hu' := by
    obtain ⟨v, hv, hid, hlast⟩ := h'.rows u' hu'
    obtain ⟨u, hu, hid', hlast'⟩ := h.rows v hv
    exact ⟨u, hu, hid.trans hid', hlast.trans hlast'⟩
  records r' hr' := by
    obtain ⟨v, hv, h1, h2, h3, h4⟩ := h'.records r' hr'
    obtain ⟨r, hr, h1', h2', h3', h4'⟩ := h.records v hv
    exact ⟨r, hr, h1'.trans h1, h2'.trans h2, h3'.trans h3, fun h => h4' (h4 h)⟩

theorem moveSubscriptionIfAny_keeps (s : Tables) (id delta now : ℤ) :
    Keeps s (Settlement.moveSubscriptionIfAny s id delta now) := by
  unfold Settlement.moveSubscriptionIfAny
  split
  · exact .of_eq rfl rfl
  · refine ⟨fun u' hu' => ?_, fun r' hr' => ⟨r', hr', rfl, rfl, rfl, fun h => h⟩⟩
    obtain ⟨u, hu, rfl⟩ := Table.mem_update.mp hu'
    refine ⟨u, hu, ?_⟩
    split
    · exact ⟨rfl, rfl⟩
    · exact ⟨rfl, rfl⟩

theorem refundPreConsumeRecord_keeps (s : Tables) (id now : ℤ) :
    Keeps s (Settlement.refundPreConsumeRecord s id now) := by
  refine ⟨fun u' hu' => ⟨u', hu', rfl, rfl⟩, fun r' hr' => ?_⟩
  obtain ⟨r, hr, rfl⟩ := Table.mem_update.mp hr'
  refine ⟨r, hr, ?_⟩
  split
  · exact ⟨rfl, rfl, rfl, fun h => by simp at h⟩
  · exact ⟨rfl, rfl, rfl, fun h => h⟩

theorem refundSubscriptionPreConsume_keeps {requestId : String} {now : ℤ} {u : PUnit}
    (h : (refundSubscriptionPreConsume requestId now).Ok s u s') : Keeps s s' := by
  simp only [refundSubscriptionPreConsume, Txn.ok_bind, Txn.ok_require, Txn.ok_get,
    Txn.ok_orThrow] at h
  obtain ⟨_, _, ⟨_, rfl⟩, _, _, ⟨rfl, rfl⟩, record, _, ⟨_, rfl⟩, h⟩ := h
  rw [Txn.ok_ite] at h
  rcases h with ⟨_, h⟩ | ⟨_, h⟩
  · obtain ⟨_, rfl⟩ := Txn.ok_pure.mp h
    exact .of_eq rfl rfl
  · simp only [Txn.ok_bind, Txn.ok_orThrow, Txn.ok_ofExcept, Txn.ok_modify] at h
    obtain ⟨sub, _, ⟨_, rfl⟩, _, _, ⟨_, rfl⟩, _, _, rfl, h⟩ := h
    refine (refundPreConsumeRecord_keeps s record.id now).trans ?_
    rw [Txn.ok_ite] at h
    rcases h with ⟨_, h⟩ | ⟨_, h⟩
    · unfold returnReservation at h
      rw [Txn.ok_ite] at h
      rcases h with ⟨_, h⟩ | ⟨hpos, h⟩
      · obtain ⟨_, rfl⟩ := Txn.ok_pure.mp h
        exact .of_eq rfl rfl
      · simp only [Txn.ok_bind, Txn.ok_require] at h
        obtain ⟨applied, _, hpost, _, rfl⟩ := h
        obtain ⟨_, _, _, _, _, rfl⟩ :=
          Settlement.postConsumeUserSubscriptionDeltaTx_ok (by omega) hpost
        exact moveSubscriptionIfAny_keeps _ _ _ _
    · obtain ⟨_, rfl⟩ := Txn.ok_pure.mp h
      exact .of_eq rfl rfl

/-- A settlement moves usage, and closes at most its reservation. -/
theorem application_keeps {input : Settlement.BillingSettlementInput} {now applied appliedToken : ℤ}
    {current : BillingSettlement}
    (h : Settlement.Application input now s current applied appliedToken s') : Keeps s s' := by
  obtain ⟨selections, t, hfunded, rfl⟩ := h.writes
  have hfund : Keeps s t := by
    refine .trans (t := { s with billingPreConsumeSelections := selections }) (.of_eq rfl rfl) ?_
    cases hfunded with
    | wallet => exact .of_eq rfl rfl
    | subscription hsource hsub =>
        rw [hsub.writes]
        split
        · exact (moveSubscriptionIfAny_keeps _ _ _ _).trans (refundPreConsumeRecord_keeps _ _ _)
        · exact moveSubscriptionIfAny_keeps _ _ _ _
  refine hfund.trans (.of_eq ?_ ?_)
  · unfold Settlement.recordApplication Settlement.moveTaskIfAny Settlement.moveTokenIfAny
    split_ifs
    · rfl
    · rfl
    · rfl
    · rfl
  · unfold Settlement.recordApplication Settlement.moveTaskIfAny Settlement.moveTokenIfAny
    split_ifs
    · rfl
    · rfl
    · rfl
    · rfl

theorem change_keeps {A : Settlement.BillingSettlementInput → Prop}
    {C : Settlement.ChangeKind → Prop} (h : Settlement.Change A C s s') : Keeps s s' := by
  cases h with
  | createPending | createManual | select | edit | deleteToken => exact .of_eq rfl rfl
  | apply input now current applied appliedToken s' hA hC happ => exact application_keeps happ
  | effect record r effect now =>
      refine .of_eq ?_ ?_
      · unfold Settlement.setEffectStatus Settlement.countUsage Settlement.addChannelUsage
        split_ifs
        · rfl
        · rfl
        · rfl
      · unfold Settlement.setEffectStatus Settlement.countUsage Settlement.addChannelUsage
        split_ifs
        · rfl
        · rfl
        · rfl

theorem settlement_keeps (host : Settlement.Host) (w : Settlement.World) (op : Settlement.Op) :
    Keeps w.db (Settlement.step host w op).db := by
  obtain ⟨_, _, h⟩ := Settlement.step_changes_any host w op
  exact Settlement.Changes.preserve (P := Keeps w.db) (fun hc hk => hk.trans (change_keeps hc)) h
    (.of_eq rfl rfl)

/-! ### Steps that clear usage -/

/-- Every row is as it was, or it is one of the `cleared` and has no usage. -/
structure Resets (cleared : List ℤ) (s s' : Tables) : Prop where
  rows : ∀ u' ∈ s'.userSubscriptions, u' ∈ s.userSubscriptions ∨
    (u'.amountUsed = 0 ∧ ∃ u ∈ s.userSubscriptions, u'.id = u.id ∧ u.id ∈ cleared)
  records : s'.subscriptionPreConsumeRecords = s.subscriptionPreConsumeRecords

theorem Resets.follows (h : Resets cleared s s') : Follows s s' cleared none where
  rows u' hu' := by
    rcases h.rows u' hu' with hu | ⟨hused, u, hu, hid, hclear⟩
    · exact ⟨u', hu, rfl, .inl rfl⟩
    · exact ⟨u, hu, hid, .inr ⟨.inl hused, .inl hclear⟩⟩
  records r' hr' := by
    rw [h.records] at hr'
    exact .inl ⟨r', hr', rfl, rfl, rfl, fun h => h⟩
  fresh c hc := by simp at hc

theorem Resets.refl (s : Tables) : Resets [] s s := ⟨fun _ hu => .inl hu, rfl⟩

theorem Resets.trans {cleared' : List ℤ} (h : Resets cleared s t) (h' : Resets cleared' t s') :
    Resets (cleared ++ cleared') s s' where
  rows u' hu' := by
    rcases h'.rows u' hu' with hv | ⟨hused, v, hv, hid, hclear⟩
    · rcases h.rows u' hv with hu | ⟨hused, u, hu, hid, hclear⟩
      · exact .inl hu
      · exact .inr ⟨hused, u, hu, hid, List.mem_append_left _ hclear⟩
    · rcases h.rows v hv with hu | ⟨_, u, hu, hid', _⟩
      · exact .inr ⟨hused, v, hu, hid, List.mem_append_right _ hclear⟩
      · exact .inr ⟨hused, u, hu, hid.trans hid', List.mem_append_right _ (hid' ▸ hclear)⟩
  records := h'.records.trans h.records

theorem saveSubscription_resets {sub : UserSubscription} (hused : sub.amountUsed = 0) (stamp : ℤ)
    (s : Tables) : Resets [sub.id] s (saveSubscription sub stamp s) where
  rows u' hu' := by
    obtain ⟨u, hu, rfl⟩ := mem_saveSubscription.mp hu'
    by_cases hid : u.id = sub.id
    · rw [if_pos hid]
      exact .inr ⟨hused, u, hu, rfl, List.mem_singleton.mpr hid⟩
    · rw [if_neg hid]
      exact .inl hu
  records := rfl

/-- Due rows have an end of their period, so that their reset initialises nothing. -/
theorem resetDueSubscriptionTx_resets {ctx : ResetContext} {id : ℤ}
    (h : (resetDueSubscriptionTx ctx id).Ok s cleared s') : Resets cleared s s' := by
  unfold resetDueSubscriptionTx at h
  rw [Txn.ok_bind] at h
  obtain ⟨db, _, hget, h⟩ := h
  obtain ⟨rfl, rfl⟩ := Txn.ok_get.mp hget
  cases hfirst : s.userSubscriptions.first?
      (fun u => u.id = id ∧ 0 < u.nextResetTime ∧ u.nextResetTime ≤ ctx.now) with
  | none =>
      rw [hfirst] at h
      obtain ⟨rfl, rfl⟩ := Txn.ok_pure.mp h
      exact .refl s
  | some locked =>
      rw [hfirst] at h
      simp only [Txn.ok_bind, getSubscriptionPlanByIdTx, Txn.ok_require, Txn.ok_orThrow,
        Txn.ok_pure] at h
      obtain ⟨plan, _, ⟨_, _, ⟨_, rfl⟩, _, rfl⟩, update, t, hreset, rfl, rfl⟩ := h
      obtain ⟨hupdate, rfl⟩ := maybeResetUserSubscriptionWithPlanTx_ok.mp hreset
      obtain ⟨_, _, hdue, _⟩ := Table.first?_mem hfirst
      cases update with
      | keep => exact .refl s
      | initialise last next =>
          have hzero := (periodUpdate_initialise hupdate).1
          omega
      | restart last next =>
          rw [if_neg (by simp)]
          have hzero : (PeriodUpdate.apply (.restart last next) locked).amountUsed = 0 := rfl
          exact saveSubscription_resets hzero ctx.updatedAt s

theorem resetSubscription_amountUsed (ctx : ResetContext) (plan : SubscriptionPlan)
    (advanceResetTime : Bool) (sub : UserSubscription) :
    (resetSubscription ctx plan advanceResetTime sub).id = sub.id ∧
      (resetSubscription ctx plan advanceResetTime sub).amountUsed = 0 := by
  unfold resetSubscription
  split
  · exact ⟨rfl, rfl⟩
  · exact ⟨rfl, rfl⟩

theorem resetSubscriptions_resets {ctx : ResetContext} {plan : SubscriptionPlan}
    {advanceResetTime : Bool} : ∀ {subs : List UserSubscription} {s s' : Tables} {ids : List ℤ},
      (resetSubscriptions ctx plan advanceResetTime subs).Ok s ids s' → Resets ids s s'
  | [], s, _, _, h => by
      obtain ⟨rfl, rfl⟩ := Txn.ok_pure.mp h
      exact .refl s
  | sub :: subs, s, _, _, h => by
      simp only [resetSubscriptions, resetUserSubscriptionTx, Txn.ok_bind, Txn.ok_modify,
        Txn.ok_pure] at h
      obtain ⟨_, t, ⟨_, _, hcheck, rfl⟩, rest, _, hrest, rfl, rfl⟩ := h
      rw [checkResetBilling_ok hcheck] at hrest
      obtain ⟨hid, hused⟩ := resetSubscription_amountUsed ctx plan advanceResetTime sub
      have hfirst := saveSubscription_resets hused ctx.updatedAt s
      rw [hid] at hfirst
      exact hfirst.trans (resetSubscriptions_resets hrest)

/-! ### Pre-consumes -/

/-- A reservation that loses no anchor moves anchors only where there is nothing to lose. -/
theorem Reserves.follows {ctx : ResetContext} {req : PreConsume} {seen : List UserSubscription}
    {reserved : Reserved} (h : Reserves ctx req seen s reserved s')
    (hfree : ∀ r ∈ s.subscriptionPreConsumeRecords, r.requestId ≠ req.requestId)
    (hkeeps : ∀ sub ∈ seen, ∀ plan ∈ ctx.planOf sub, ¬ AnchorLost ctx s sub plan) :
    Follows s s' reserved.cleared
      (some (req.requestId, reserved.result.userSubscriptionId)) := by
  obtain ⟨record, hins, hnew, hnot, hrid, hsid, hamount, hanchor⟩ := h.records
  refine ⟨fun u' hu' => ?_, fun r' hr' => ?_, fun c hc r hr => ?_⟩
  · obtain ⟨u, hu, update, hupdate, hclears, hid, hlast, hused⟩ := h.rows u' hu'
    refine ⟨u, hu, hid, ?_⟩
    -- an update that has cleared the usage leaves the reservation as the only usage
    have hemptied : (update.apply u).amountUsed = 0 →
        u'.amountUsed = 0 ∨ ∃ record ∈ s'.subscriptionPreConsumeRecords,
          record ∉ s.subscriptionPreConsumeRecords ∧ record.userSubscriptionId = u.id ∧
            record.preConsumed = u'.amountUsed := by
      intro hzero
      rw [hzero, zero_add] at hused
      by_cases hpays : u.id = reserved.result.userSubscriptionId
      · rw [if_pos hpays] at hused
        exact .inr ⟨record, hnew, hnot, hsid.trans hpays.symm, hamount.trans hused.symm⟩
      · rw [if_neg hpays] at hused
        exact .inl hused
    cases update with
    | keep => exact .inl hlast
    | restart last next =>
        exact .inr ⟨hemptied rfl, .inl (hclears (List.mem_singleton_self u.id))⟩
    | initialise last next =>
        rcases hupdate with hkeep | ⟨hseen, plan, hplan, hup⟩
        · simp at hkeep
        · obtain ⟨hend, hperiod, hbase, hnext, hpos, hrunning⟩ := periodUpdate_initialise hup
          rw [show (PeriodUpdate.apply (.initialise last next) u).lastResetTime = last from rfl,
            hbase] at hlast
          unfold periodBase at hlast hnext
          by_cases hnone : u.lastResetTime ≤ 0
          · rw [if_pos hnone] at hlast hnext
            by_cases hstart : u.lastResetTime = u.startTime
            · exact .inl (hlast.trans hstart.symm)
            · have hlost := hkeeps u hseen plan hplan
              unfold AnchorLost at hlost
              rw [← hnext] at hlost
              have hclean : ¬ (u.amountUsed ≠ 0 ∨
                  ∃ record ∈ s.subscriptionPreConsumeRecords.rows, inPeriod u record) :=
                fun hdirty => hlost ⟨hend, hnone, hstart, hperiod, hpos, hrunning, hdirty⟩
              have hzero : u.amountUsed = 0 := by
                by_contra hne
                exact hclean (.inl hne)
              exact .inr ⟨hemptied hzero, .inr fun r hr hin => hclean (.inr ⟨r, hr, hin⟩)⟩
          · rw [if_neg hnone] at hlast
            exact .inl hlast
  · rw [hins] at hr'
    rcases Table.mem_insert hr' with hr | ⟨rfl, _⟩
    · exact .inl ⟨r', hr, rfl, rfl, rfl, fun h => h⟩
    · right
      rw [hrid, hsid]
      exact ⟨rfl, fun u' hu' hid => hanchor u' hu' (hid.trans hsid.symm)⟩
  · rw [Option.mem_some_iff] at hc
    rw [← hc]
    exact hfree r hr

theorem preConsumeUserSubscriptionTx_follows {ctx : ResetContext} {req : PreConsume}
    {reserved : Reserved} (h : (preConsumeUserSubscriptionTx ctx req).Ok s reserved s')
    (hkeeps : PreConsumeKeepsAnchors ctx req s) :
    Follows s s' reserved.cleared (if reserved.alreadyConsumed then none
      else some (req.requestId, reserved.result.userSubscriptionId)) := by
  rcases preConsumeUserSubscriptionTx_ok h with
    ⟨rfl, halready, hcleared⟩ | ⟨hfree, seen, hseen, hres⟩
  · rw [halready, if_pos rfl, hcleared]
    exact (Keeps.of_eq rfl rfl).follows
  · rw [hres.fresh, if_neg Bool.false_ne_true]
    exact hres.follows hfree (hkeeps hfree seen hseen)

end follows

/-! ### Steps and runs -/

section runs

variable {env : Environment} {w : World} {s' : Tables}

/-- A transaction that meets the condition obeys the anchors. -/
theorem act_follows {op : Op} {report : Report} (hkeeps : KeepsAnchors env w op)
    (h : (act env w.plans op).Ok w.store.db report s') :
    Follows w.store.db s' report.cleared (report.charge op) := by
  cases op with
  | settlement | updatePlan =>
      obtain ⟨rfl, rfl⟩ := Txn.ok_pure.mp h
      exact (Keeps.of_eq rfl rfl).follows
  | preConsume req moment =>
      simp only [act, preConsumeUserSubscription, validatePreConsume, Txn.ok_bind, Txn.ok_require,
        Txn.ok_pure] at h
      obtain ⟨reserved, _, ⟨_, _, ⟨_, _, ⟨_, rfl⟩, _, _, ⟨_, rfl⟩, _, rfl⟩, _, _, hclaim,
        hpre⟩, rfl, rfl⟩ := h
      obtain ⟨selections, rfl⟩ := Settlement.claimBillingPreConsumeSourceTx_ok hclaim
      have hf := preConsumeUserSubscriptionTx_follows hpre hkeeps
      exact ⟨hf.rows, hf.records, hf.fresh⟩
  | preConsumeToken req moment =>
      simp only [act, preConsumeTokenAndUserSubscription, validatePreConsume, Txn.ok_bind,
        Txn.ok_require, Txn.ok_pure] at h
      obtain ⟨reserved, _, ⟨_, _, ⟨_, rfl⟩, _, _, ⟨_, _, ⟨_, rfl⟩, _, _, ⟨_, rfl⟩, _, rfl⟩, _,
        _, hclaim, r, t, hpre, h⟩, rfl, rfl⟩ := h
      obtain ⟨selections, rfl⟩ := Settlement.claimBillingPreConsumeSourceTx_ok hclaim
      have hf := preConsumeUserSubscriptionTx_follows hpre hkeeps
      rw [Txn.ok_ite] at h
      rcases h with ⟨_, h⟩ | ⟨_, h⟩
      · obtain ⟨rfl, rfl⟩ := Txn.ok_pure.mp h
        exact ⟨hf.rows, hf.records, hf.fresh⟩
      · simp only [chargeToken, Txn.ok_bind, Txn.ok_get, Txn.ok_require, Txn.ok_modify,
          Txn.ok_pure] at h
        obtain ⟨_, _, ⟨_, _, ⟨rfl, rfl⟩, _, _, ⟨_, rfl⟩, rfl⟩, rfl, rfl⟩ := h
        exact ⟨hf.rows, hf.records, hf.fresh⟩
  | refund requestId now =>
      simp only [act, Txn.ok_bind, Txn.ok_pure] at h
      obtain ⟨_, _, h, rfl, rfl⟩ := h
      exact (refundSubscriptionPreConsume_keeps h).follows
  | cleanup olderThanSeconds now =>
      simp only [act, Txn.ok_bind, Txn.ok_modify, Txn.ok_pure] at h
      obtain ⟨_, _, rfl, rfl, rfl⟩ := h
      refine Keeps.follows ?_
      unfold cleanupSubscriptionPreConsumeRecords
      dsimp only
      split
      · exact .of_eq rfl rfl
      · exact ⟨fun u' hu' => ⟨u', hu', rfl, rfl⟩, fun r' hr' =>
          ⟨r', (Table.mem_delete.mp hr').1, rfl, rfl, rfl, fun h => h⟩⟩
  | resetDue id moment =>
      simp only [act, Txn.ok_bind, Txn.ok_pure] at h
      obtain ⟨cleared, _, h, rfl, rfl⟩ := h
      exact (resetDueSubscriptionTx_resets h).follows
  | adminResetUser userId planId advanceResetTime moment =>
      simp only [act, adminResetUserSubscriptionsByPlanTx, Txn.ok_bind, Txn.ok_require,
        Txn.ok_orThrow, Txn.ok_get, Txn.ok_pure] at h
      obtain ⟨cleared, _, ⟨_, _, ⟨_, rfl⟩, plan, _, ⟨_, rfl⟩, _, _, ⟨rfl, rfl⟩, _, _, ⟨_, rfl⟩, h⟩,
        rfl, rfl⟩ := h
      exact (resetSubscriptions_resets h).follows
  | adminResetPlan planId advanceResetTime moment =>
      simp only [act, adminResetPlanSubscriptionsTx, Txn.ok_bind, Txn.ok_require,
        Txn.ok_orThrow, Txn.ok_get, Txn.ok_pure] at h
      obtain ⟨cleared, _, ⟨_, _, ⟨_, rfl⟩, plan, _, ⟨_, rfl⟩, _, _, ⟨rfl, rfl⟩, h⟩, rfl, rfl⟩ := h
      exact (resetSubscriptions_resets h).follows

/-- **A step that meets the condition** moves anchors only with the usage, and the reservations
that count stay acceptable. -/
theorem step_accepted {op : Op} (hkeeps : KeepsAnchors env w op)
    (hw : Accepted w.store.db w.counted) :
    AnchorMovesWithClear w.store.db (step env w op).store.db ∧
      Accepted (step env w op).store.db (step env w op).counted := by
  have hcommit : AnchorMovesWithClear w.store.db (w.commit env op).store.db ∧
      Accepted (w.commit env op).store.db (w.commit env op).counted := by
    unfold World.commit
    rcases transaction_cases (act env w.plans op) w.store.db with ⟨report, s', hok, ht⟩ | ⟨e, ht⟩
    · rw [ht]
      have hf := act_follows hkeeps hok
      exact ⟨hf.anchorMovesWithClear, hf.accepted hw⟩
    · rw [ht]
      exact ⟨(Keeps.of_eq rfl rfl).follows.anchorMovesWithClear, hw⟩
  cases op with
  | settlement op =>
      have hf := (settlement_keeps env.host w.store op).follows
      refine ⟨hf.anchorMovesWithClear, ?_⟩
      have hacc := hf.accepted hw
      rw [List.filter_eq_self.mpr fun c _ => by simp] at hacc
      exact hacc
  | updatePlan id plan => exact ⟨(Keeps.of_eq rfl rfl).follows.anchorMovesWithClear, hw⟩
  | preConsume | preConsumeToken | refund | cleanup | resetDue | adminResetUser | adminResetPlan =>
      exact hcommit

/-- Every step of the run moves anchors only with the usage, and the reservations that count are
accepted at its end. -/
def AnchorsFollow (env : Environment) : World → List Op → Prop
  | w, [] => Accepted w.store.db w.counted
  | w, op :: ops => Accepted w.store.db w.counted ∧
      AnchorMovesWithClear w.store.db (step env w op).store.db ∧
        AnchorsFollow env (step env w op) ops

/-- **Anchors follow the usage.** In every run whose pre-consumes lose no anchor, a transaction
that moves an anchor clears the usage, and a reservation that counts is never refused for a changed
period. -/
theorem anchors_follow (env : Environment) : ∀ (ops : List Op) (w : World),
    Accepted w.store.db w.counted → Transition.Throughout (step env) (KeepsAnchors env) w ops →
    AnchorsFollow env w ops
  | [], _, hw, _ => hw
  | op :: ops, w, hw, hkeeps => by
      obtain ⟨hmoves, hacc⟩ := step_accepted hkeeps.1 hw
      exact ⟨hw, hmoves, anchors_follow env ops (step env w op) hacc hkeeps.2⟩

end runs

instance (env : Environment) : (w : World) → (ops : List Op) → Decidable (AnchorsFollow env w ops)
  | w, [] => inferInstanceAs (Decidable (Accepted w.store.db w.counted))
  | w, op :: ops =>
      have : Decidable (AnchorsFollow env (step env w op) ops) :=
        instDecidableAnchorsFollow env (step env w op) ops
      inferInstanceAs (Decidable (_ ∧ _ ∧ _))

/-- The plan with a period of an hour. -/
def hourlyPlan : SubscriptionPlan :=
  { steadyPlan with quotaResetPeriod := "custom", quotaResetCustomSeconds := 3600 }

/-- A request before the plan gets a period, the edit, and a request in the first period. -/
def editedPlan : List Op :=
  [.preConsume (request "first" 10) (atTime 2000), .updatePlan 1 hourlyPlan,
    .preConsume (request "second" 5) (atTime 3000)]

/-- After the edit of the plan the second request moves the anchor and keeps the usage, so that
the first one is refused. -/
theorem plan_edit_loses_anchor :
    ¬ ∀ (env : Environment) (w : World) (ops : List Op), Accepted w.store.db w.counted →
      AnchorsFollow env w ops := by
  intro h
  exact absurd (h plainEnvironment steadyWorld editedPlan (by decide)) (by decide +kernel)

/-- Requests in two periods of an hourly plan; the second one finds the first period over. -/
def twoPeriods : List Op :=
  [.updatePlan 1 hourlyPlan, .preConsume (request "first" 10) (atTime 5000),
    .preConsume (request "second" 5) (atTime 9000)]

/-- With the period over, the usage starts again. -/
theorem anchors_follow_twoPeriods :
    AnchorsFollow plainEnvironment steadyWorld twoPeriods ∧
      (runs plainEnvironment steadyWorld twoPeriods).store.db.userSubscriptions.rows.map
        (fun u => (u.lastResetTime, u.amountUsed)) = [(8200, 5)] :=
  ⟨anchors_follow plainEnvironment twoPeriods steadyWorld (by decide) (by decide +kernel),
    by decide +kernel⟩

end MaxApi.Reservation
