import MaxApi.Reservation.Usage

/-! # The bounds of a subscription's usage

Every writer keeps the usage of a limited subscription between zero and its total, because every
update carries its own guard.  The sums that the process computes beside it are exact, and the delta
it reports is the one that was applied, as long as the requested delta keeps away from the two ends
of the 64-bit range (`Within`). -/

namespace MaxApi.Reservation

open Relational MaxApi.Billing MaxApi.Subscription Int64Range

/-! ### The bounds -/

/-- A limited subscription has used no more than its total, and nothing negative. -/
def InBounds (u : UserSubscription) : Prop :=
  Representable u.amountTotal ∧
    (0 < u.amountTotal → 0 ≤ u.amountUsed ∧ u.amountUsed ≤ u.amountTotal)

/-- All subscriptions are in bounds, and the reserved amounts are 64-bit numbers. -/
structure Bounded (s : Tables) : Prop where
  rows : ∀ u ∈ s.userSubscriptions, InBounds u
  records : ∀ r ∈ s.subscriptionPreConsumeRecords, Representable r.preConsumed

section writers

variable {host : Settlement.Host} {ctx : ResetContext} {req : PreConsume} {s s' : Tables}

/-- The subscriptions after an update that keeps the bounds of each row. -/
theorem Bounded.update (h : Bounded s) {p : UserSubscription → Prop} [DecidablePred p]
    {m : SetClause UserSubscription} (hm : ∀ u ∈ s.userSubscriptions, p u → InBounds (m.set u)) :
    Bounded { s with userSubscriptions := s.userSubscriptions.update p m } := by
  refine ⟨fun u' hu' => ?_, h.records⟩
  obtain ⟨u, hu, rfl⟩ := Table.mem_update.mp hu'
  by_cases hp : p u
  · rw [if_pos hp]
    exact hm u hu hp
  · rw [if_neg hp]
    exact h.rows u hu

theorem Bounded.save (h : Bounded s) {sub : UserSubscription} (hsub : InBounds sub)
    (updatedAt : ℤ) : Bounded (saveSubscription sub updatedAt s) :=
  h.update fun _ _ _ => hsub

theorem InBounds.apply {sub : UserSubscription} (h : InBounds sub) (update : PeriodUpdate) :
    InBounds (update.apply sub) := by
  cases update with
  | keep => exact h
  | initialise last next => exact h
  | restart last next => exact ⟨h.1, fun hpos => ⟨Int.le_refl 0, Int.le_of_lt hpos⟩⟩

theorem maybeReset_bounded {plan : SubscriptionPlan} {sub : UserSubscription} (h : Bounded s)
    (hsub : InBounds sub) :
    Txn.Post (maybeResetUserSubscriptionWithPlanTx ctx plan sub) (fun _ t => Bounded t) s := by
  intro update s' hok
  obtain ⟨-, rfl⟩ := maybeResetUserSubscriptionWithPlanTx_ok.mp hok
  by_cases hkeep : update = .keep
  · rw [if_pos hkeep]
    exact h
  · rw [if_neg hkeep]
    exact h.save (hsub.apply update) ctx.updatedAt

/-! ### Pre-consumes -/

theorem replayPreConsume_bounded (h : Bounded s) (existing : SubscriptionPreConsumeRecord) :
    Txn.Post (replayPreConsume req existing) (fun _ t => Bounded t) s := by
  intro _ s' hok
  obtain ⟨rfl, -⟩ := replayPreConsume_ok hok
  exact h

theorem chargeReservation_bounded (h : Bounded s) (hpos : 0 < req.amount) (sub : UserSubscription)
    (recordID : ℤ) :
    Txn.Post (chargeReservation ctx req sub recordID) (fun _ t => Bounded t) s := by
  unfold chargeReservation
  refine Txn.post_get (Txn.post_ite (fun _ => ?_) fun _ => ?_)
  · refine Txn.post_bind (Txn.post_modify (Txn.post_get ?_))
    refine Txn.post_bind (Txn.post_orThrow fun _ _ => Txn.post_pure ?_)
    refine h.update fun u hu hroom => ⟨(h.rows u hu).1, fun htotal => ?_⟩
    have hbounds := (h.rows u hu).2 htotal
    obtain ⟨-, -, -, hroom⟩ := hroom
    dsimp only at htotal ⊢
    omega
  · refine Txn.post_bind (Txn.post_modify (Txn.post_pure ⟨h.rows, fun r hr => ?_⟩))
    exact h.records r (Table.mem_delete.mp hr).1

theorem reserveOn_bounded (h : Bounded s) (hpos : 0 < req.amount)
    (hamount : Representable req.amount) (sub : UserSubscription) :
    Txn.Post (reserveOn ctx req sub) (fun _ t => Bounded t) s := by
  unfold reserveOn
  refine Txn.post_ite (fun _ => Txn.post_pure h) fun _ => Txn.post_get ?_
  cases s.subscriptionPreConsumeRecords.first? (·.requestId = req.requestId) with
  | some duplicate =>
      refine Txn.post_bind ((replayPreConsume_bounded h duplicate).mono fun _ t ht => ?_)
      exact Txn.post_pure ht
  | none =>
      refine Txn.post_bind (Txn.post_modify (chargeReservation_bounded ?_ hpos sub _))
      refine ⟨h.rows, fun r hr => ?_⟩
      rcases Table.mem_insert hr with hr | ⟨rfl, -⟩
      · exact h.records r hr
      · exact hamount

theorem reserveOnFirst_bounded (hpos : 0 < req.amount) (hamount : Representable req.amount) :
    ∀ {subs : List UserSubscription} {s : Tables}, Bounded s → (∀ sub ∈ subs, InBounds sub) →
      Txn.Post (reserveOnFirst ctx req subs) (fun _ t => Bounded t) s
  | [], _, _, _ => Txn.post_throw
  | candidate :: candidates, s, h, hsubs => by
      unfold reserveOnFirst
      have hcandidate := hsubs candidate List.mem_cons_self
      refine Txn.post_bind (fun plan t hplan => ?_)
      have hsame : t = s := by
        simp only [getSubscriptionPlanByIdTx, Txn.ok_bind, Txn.ok_require, Txn.ok_orThrow] at hplan
        obtain ⟨_, _, ⟨-, rfl⟩, -, rfl⟩ := hplan
        rfl
      rw [hsame]
      refine Txn.post_bind ((maybeReset_bounded h hcandidate).mono fun update t ht => ?_)
      refine Txn.post_bind ((reserveOn_bounded ht hpos hamount _).mono fun reserved u hu => ?_)
      cases reserved with
      | some reserved => exact Txn.post_pure hu
      | none =>
          have hrest := reserveOnFirst_bounded hpos hamount hu
            fun sub hsub => hsubs sub (List.mem_cons_of_mem candidate hsub)
          exact Txn.post_bind (hrest.mono fun _ _ hv => Txn.post_pure hv)

theorem preConsumeTx_bounded (h : Bounded s) (hpos : 0 < req.amount)
    (hamount : Representable req.amount) :
    Txn.Post (preConsumeUserSubscriptionTx ctx req) (fun _ t => Bounded t) s := by
  unfold preConsumeUserSubscriptionTx
  refine Txn.post_get ?_
  cases s.subscriptionPreConsumeRecords.first? (·.requestId = req.requestId) with
  | some existing => exact replayPreConsume_bounded h existing
  | none =>
      refine Txn.post_bind (Txn.post_require fun _ => ?_)
      refine reserveOnFirst_bounded hpos hamount h fun sub hsub => h.rows sub ?_
      exact ((activeSubscriptions_candidates ctx s req.userId).2 sub hsub).1

theorem validatePreConsume_post : Txn.Post (validatePreConsume req)
    (fun _ t => t = s ∧ 0 < req.amount) s := by
  unfold validatePreConsume
  refine Txn.post_bind (Txn.post_require fun _ => Txn.post_bind (Txn.post_require fun _ => ?_))
  exact Txn.post_require fun hpos => ⟨rfl, hpos⟩

theorem claimSource_bounded (h : Bounded s) (selection : BillingPreConsumeSelection) :
    Txn.Post (Settlement.claimBillingPreConsumeSourceTx host selection)
      (fun _ t => Bounded t) s := by
  intro _ s' hok
  obtain ⟨selections, rfl⟩ := Settlement.claimBillingPreConsumeSourceTx_ok hok
  exact ⟨h.rows, h.records⟩

theorem preConsume_bounded (h : Bounded s) (hamount : Representable req.amount) :
    Txn.Post (preConsumeUserSubscription host ctx req) (fun _ t => Bounded t) s := by
  unfold preConsumeUserSubscription
  refine Txn.post_bind (validatePreConsume_post.mono fun _ t ht => ?_)
  rw [ht.1]
  refine Txn.post_bind ((claimSource_bounded h _).mono fun _ t hclaimed => ?_)
  exact preConsumeTx_bounded hclaimed ht.2 hamount

theorem preConsumeToken_bounded (h : Bounded s) (hamount : Representable req.amount) :
    Txn.Post (preConsumeTokenAndUserSubscription host ctx req) (fun _ t => Bounded t) s := by
  unfold preConsumeTokenAndUserSubscription
  refine Txn.post_bind (Txn.post_require fun _ => ?_)
  refine Txn.post_bind (validatePreConsume_post.mono fun _ t ht => ?_)
  rw [ht.1]
  refine Txn.post_bind ((claimSource_bounded h _).mono fun _ t hclaimed => ?_)
  refine Txn.post_bind ((preConsumeTx_bounded hclaimed ht.2 hamount).mono fun _ t hreserved => ?_)
  refine Txn.post_ite (fun _ => Txn.post_pure hreserved) fun _ => ?_
  unfold chargeToken
  refine Txn.post_bind (Txn.post_get (Txn.post_bind (Txn.post_require fun _ => ?_)))
  exact Txn.post_modify (Txn.post_pure ⟨hreserved.rows, hreserved.records⟩)

/-! ### Movements -/

theorem postConsume64_bounded (h : Bounded s) (id delta now : ℤ) :
    Txn.Post (postConsumeUserSubscriptionDelta64Tx id delta now) (fun _ t => Bounded t) s := by
  unfold postConsumeUserSubscriptionDelta64Tx
  refine Txn.post_get (Txn.post_bind (Txn.post_orThrow fun sub hsub => ?_))
  obtain ⟨hmem, hid⟩ := Table.first?_mem hsub
  refine Txn.post_ite (fun hpos => ?_) fun hneg => Txn.post_ite (fun _ => Txn.post_pure h)
    fun _ => ?_
  · refine Txn.post_bind (Txn.post_require fun _ => Txn.post_bind (Txn.post_require fun _ => ?_))
    refine Txn.post_bind (Txn.post_modify (Txn.post_pure (h.update fun u hu hroom => ?_)))
    obtain rfl := Table.eq_of_clash hu hmem (hroom.1.trans hid.symm)
    refine ⟨(h.rows u hu).1, fun htotal => ?_⟩
    have hbounds := (h.rows u hu).2 htotal
    have hle := hroom.2 htotal
    dsimp only
    omega
  · refine Txn.post_bind (Txn.post_require fun _ => ?_)
    refine Txn.post_bind (Txn.post_modify (Txn.post_pure (h.update fun u hu _ => ?_)))
    refine ⟨(h.rows u hu).1, fun htotal => ?_⟩
    have hbounds := (h.rows u hu).2 htotal
    dsimp only
    split <;> omega

theorem postConsume_bounded (h : Bounded s) (id delta now : ℤ) :
    Txn.Post (postConsumeUserSubscriptionDelta id delta now) (fun _ t => Bounded t) s := by
  unfold postConsumeUserSubscriptionDelta
  refine Txn.post_bind (Txn.post_require fun _ => ?_)
  exact Txn.post_ite (fun _ => Txn.post_pure h) fun _ => postConsume64_bounded h id delta now

theorem refundRecord_bounded (h : Bounded s) (recordID now : ℤ) :
    Bounded (Settlement.refundPreConsumeRecord s recordID now) := by
  refine ⟨h.rows, fun r' hr' => ?_⟩
  obtain ⟨r, hr, rfl⟩ := Table.mem_update.mp hr'
  split
  · exact h.records r hr
  · exact h.records r hr

theorem settle_bounded (h : Bounded s) (input : Settlement.BillingSettlementInput) (now : ℤ) :
    Txn.Post (applySubscriptionDelta64Tx input now) (fun _ t => Bounded t) s := by
  unfold applySubscriptionDelta64Tx
  refine Txn.post_bind (Txn.post_require fun _ => Txn.post_get ?_)
  refine Txn.post_bind (Txn.post_orThrow fun record _ => ?_)
  refine Txn.post_bind (Txn.post_require fun _ => Txn.post_bind (Txn.post_require fun _ => ?_))
  refine Txn.post_bind (Txn.post_require fun _ => ?_)
  refine Txn.post_bind (Txn.post_orThrow fun sub _ => Txn.post_bind (Txn.post_require fun _ => ?_))
  refine Txn.post_bind (Txn.post_ofExcept fun _ _ => ?_)
  refine Txn.post_ite (fun _ => Txn.post_pure h) fun _ => ?_
  refine Txn.post_bind (Txn.post_require fun _ => ?_)
  refine Txn.post_bind (Txn.post_mapError ((postConsume64_bounded h _ _ now).mono fun _ t ht => ?_))
  refine Txn.post_bind (Txn.post_require fun _ => Txn.post_bind fun _ u hfinal => ?_)
  rw [Settlement.finalizeSubscriptionPreConsumeRecord_ok hfinal]
  refine Txn.post_pure ?_
  split
  · exact refundRecord_bounded ht record.id now
  · exact ht

theorem moveSubscription_bounded (h : Bounded s) {sub : UserSubscription} {delta : ℤ}
    (hsub : sub ∈ s.userSubscriptions) (hneg : delta < 0) (now : ℤ) :
    Bounded (Settlement.moveSubscriptionIfAny s sub.id
      (Settlement.clampedDelta sub.amountUsed delta) now) := by
  unfold Settlement.moveSubscriptionIfAny Settlement.moveSubscription
  split
  · exact h
  · refine h.update fun u hu hid => ⟨(h.rows u hu).1, fun htotal => ?_⟩
    obtain rfl := Table.eq_of_clash hu hsub hid
    have hbounds := (h.rows u hu).2 htotal
    unfold Settlement.clampedDelta
    dsimp only
    split_ifs <;> omega

theorem refund_bounded (h : Bounded s) (requestId : String) (now : ℤ) :
    Txn.Post (refundSubscriptionPreConsume requestId now) (fun _ t => Bounded t) s := by
  unfold refundSubscriptionPreConsume
  refine Txn.post_bind (Txn.post_require fun _ => Txn.post_get ?_)
  refine Txn.post_bind (Txn.post_orThrow fun record _ => ?_)
  refine Txn.post_ite (fun _ => Txn.post_pure h) fun _ => ?_
  refine Txn.post_bind (Txn.post_orThrow fun sub _ =>
    Txn.post_bind (Txn.post_ofExcept fun _ _ => ?_))
  have hrefunded := refundRecord_bounded h record.id now
  refine Txn.post_bind (Txn.post_modify (Txn.post_ite (fun _ => ?_) fun _ => ?_))
  · unfold returnReservation
    refine Txn.post_ite (fun _ => Txn.post_pure hrefunded) fun hpos => ?_
    refine Txn.post_bind fun applied t hmoved => ?_
    obtain ⟨row, hrow, hid, rfl, -, rfl⟩ :=
      Settlement.postConsumeUserSubscriptionDeltaTx_ok (by omega) hmoved
    rw [← hid]
    exact Txn.post_require fun _ => moveSubscription_bounded hrefunded hrow (by omega) now
  · exact Txn.post_pure hrefunded

/-! ### Resets -/

theorem resetDue_bounded (h : Bounded s) (id : ℤ) :
    Txn.Post (resetDueSubscriptionTx ctx id) (fun _ t => Bounded t) s := by
  unfold resetDueSubscriptionTx
  refine Txn.post_get ?_
  cases hfirst : s.userSubscriptions.first?
      (fun u => u.id = id ∧ 0 < u.nextResetTime ∧ u.nextResetTime ≤ ctx.now) with
  | none => exact Txn.post_pure h
  | some locked =>
      have hlocked := h.rows locked (Table.first?_mem hfirst).1
      refine Txn.post_bind fun plan t hplan => ?_
      simp only [getSubscriptionPlanByIdTx, Txn.ok_bind, Txn.ok_require, Txn.ok_orThrow] at hplan
      obtain ⟨_, _, ⟨-, rfl⟩, -, rfl⟩ := hplan
      exact Txn.post_bind ((maybeReset_bounded h hlocked).mono fun _ _ ht => Txn.post_pure ht)

theorem resetSubscriptions_bounded (plan : SubscriptionPlan) (advanceResetTime : Bool) :
    ∀ {subs : List UserSubscription} {s : Tables}, Bounded s → (∀ sub ∈ subs, InBounds sub) →
      Txn.Post (resetSubscriptions ctx plan advanceResetTime subs) (fun _ t => Bounded t) s
  | [], _, h, _ => Txn.post_pure h
  | sub :: subs, _, h, hsubs => by
      unfold resetSubscriptions resetUserSubscriptionTx
      have hsub := hsubs sub List.mem_cons_self
      refine Txn.post_bind (Txn.post_bind fun _ t hcheck => ?_)
      rw [checkResetBilling_ok hcheck]
      have hreset : InBounds (resetSubscription ctx plan advanceResetTime sub) := by
        unfold resetSubscription
        cases advanceResetTime with
        | true => exact ⟨hsub.1, fun hpos => ⟨Int.le_refl 0, Int.le_of_lt hpos⟩⟩
        | false => exact ⟨hsub.1, fun hpos => ⟨Int.le_refl 0, Int.le_of_lt hpos⟩⟩
      refine Txn.post_modify ?_
      have hrest := resetSubscriptions_bounded plan advanceResetTime
        (h.save hreset ctx.updatedAt) fun u hu => hsubs u (List.mem_cons_of_mem sub hu)
      exact Txn.post_bind (hrest.mono fun _ _ ht => Txn.post_pure ht)

/-! ### Runs -/

/-- The 64-bit arguments of an operation are 64-bit numbers. -/
def UsageOp.Typed : UsageOp → Prop
  | .preConsume req _ | .preConsumeToken req _ => Representable req.amount
  | .postConsume _ delta _ => Representable delta
  | .settle input _ => Representable input.fundingDelta
  | _ => True

/-- **One step.** Every operation keeps the bounds. -/
theorem usageStep_bounded (op : UsageOp) (htyped : op.Typed) (h : Bounded s) :
    Bounded (usageStep host s op) := by
  have hpost : Txn.Post (op.act host) (fun _ t => Bounded t) s := by
    cases op with
    | preConsume req ctx =>
        exact Txn.post_bind ((preConsume_bounded h htyped).mono fun _ _ ht => Txn.post_pure ht)
    | preConsumeToken req ctx =>
        exact Txn.post_bind ((preConsumeToken_bounded h htyped).mono fun _ _ ht => Txn.post_pure ht)
    | postConsume id delta now =>
        exact Txn.post_bind ((postConsume_bounded h id delta now).mono fun _ _ ht =>
          Txn.post_pure ht)
    | settle input now =>
        exact Txn.post_bind ((settle_bounded h input now).mono fun _ _ ht => Txn.post_pure ht)
    | refund requestId now =>
        exact Txn.post_bind ((refund_bounded h requestId now).mono fun _ _ ht => Txn.post_pure ht)
    | resetDue id ctx =>
        exact Txn.post_bind ((resetDue_bounded h id).mono fun _ _ ht => Txn.post_pure ht)
    | adminResetUser plan userId planId advanceResetTime ctx =>
        unfold UsageOp.act adminResetUserSubscriptionsByPlanTx
        refine Txn.post_bind (Txn.post_bind (Txn.post_require fun _ => ?_))
        refine Txn.post_bind (Txn.post_orThrow fun plan _ => Txn.post_get ?_)
        refine Txn.post_bind (Txn.post_require fun _ => ?_)
        refine (resetSubscriptions_bounded _ _ h fun sub hsub => ?_).mono fun _ _ ht =>
          Txn.post_pure ht
        rw [List.mem_insertionSort, List.mem_filter] at hsub
        exact h.rows sub hsub.1
    | adminResetPlan plan planId advanceResetTime ctx =>
        unfold UsageOp.act adminResetPlanSubscriptionsTx
        refine Txn.post_bind (Txn.post_bind (Txn.post_require fun _ => ?_))
        refine Txn.post_bind (Txn.post_orThrow fun plan _ => Txn.post_get ?_)
        refine (resetSubscriptions_bounded _ _ h fun sub hsub => ?_).mono fun _ _ ht =>
          Txn.post_pure ht
        rw [List.mem_insertionSort, List.mem_filter] at hsub
        exact h.rows sub hsub.1
    | outside tables =>
        refine Txn.post_bind (Txn.post_modify (Txn.post_pure ?_))
        by_cases hleaves : LeavesUsage s tables
        · rw [if_pos hleaves]
          refine ⟨fun u' hu' => ?_, fun r' hr' => ?_⟩
          · rcases hleaves.1 u' hu' with ⟨hnone, htotal⟩ | ⟨u, hu, -, htotal, hused⟩
            · exact ⟨htotal, fun hpos => by omega⟩
            · have hin := h.rows u hu
              unfold InBounds at hin ⊢
              rwa [htotal, hused]
          · obtain ⟨r, hr, heq⟩ := hleaves.2 r' hr'
            rw [heq]
            exact h.records r hr
        · rw [if_neg hleaves]
          exact h
  unfold usageStep UsageOp.run
  rcases transaction_cases (op.act host) s with ⟨a, t, hok, heq⟩ | ⟨e, heq⟩
  · rw [heq]
    exact hpost a t hok
  · rw [heq]
    exact h

theorem usage_runs_bounded (ops : List UsageOp) (htyped : ∀ op ∈ ops, op.Typed) (h : Bounded s) :
    Bounded (Transition.run (usageStep host) s ops) :=
  Transition.run_invariant_mem (I := Bounded) (usageStep host) ops
    (fun _ op hop ht => usageStep_bounded op (htyped op hop) ht) s h

end writers

end MaxApi.Reservation
