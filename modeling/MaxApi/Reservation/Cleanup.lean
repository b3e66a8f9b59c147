import MaxApi.Settlement.Reservations
import MaxApi.Reservation.System

/-! # The cleanup of reservations

The cleanup deletes reservations all of whose settlements are applied or manual.  Nothing stops a
request from being looked up again after that: a replayed pre-consume, a late refund of its task, a
manual settlement that is reopened.  What holds is that the deleted reservations are the only
difference: two runs, one with the cleanup and one without, agree in everything else for as long as
no operation looks up a request whose reservation was deleted. -/

namespace MaxApi.Reservation

open Relational MaxApi.Billing MaxApi.Subscription
open MaxApi.Settlement (withReservations IgnoresReservations ignores_pure ignores_throw
  ignores_require ignores_orThrow ignores_ofExcept ignores_bind ignores_get ignores_modify
  ignores_ite)

/-! ### Databases that differ by deleted reservations -/

/-- The reservation under another automatic key. -/
def withId (i : ℤ) (r : SubscriptionPreConsumeRecord) : SubscriptionPreConsumeRecord :=
  { r with id := i }

@[simp] theorem withId_id (i : ℤ) (r : SubscriptionPreConsumeRecord) : (withId i r).id = i := rfl

@[simp] theorem withId_requestId (i : ℤ) (r : SubscriptionPreConsumeRecord) :
    (withId i r).requestId = r.requestId := rfl

@[simp] theorem withId_withId (i j : ℤ) (r : SubscriptionPreConsumeRecord) :
    withId i (withId j r) = withId i r := rfl

@[simp] theorem withId_self (r : SubscriptionPreConsumeRecord) : withId r.id r = r := rfl

/-- The table `t'` is `t` without the reservations of the requests in `D`, up to the automatic
keys. -/
structure HiddenIn (D : String → Prop) (t t' : Table SubscriptionPreConsumeRecord) : Prop where
  forth : ∀ r ∈ t, ¬ D r.requestId → ∃ i, withId i r ∈ t'
  back : ∀ r' ∈ t', ¬ D r'.requestId ∧ ∃ i, withId i r' ∈ t

/-- The databases differ only in the reservations of the requests in `D`. -/
def Hidden (D : String → Prop) (s s' : Tables) : Prop :=
  ∃ T, s' = withReservations T s ∧ HiddenIn D s.subscriptionPreConsumeRecords T

section hidden

variable {D : String → Prop} {t t' : Table SubscriptionPreConsumeRecord} {s s' : Tables}
variable {r : SubscriptionPreConsumeRecord} {i : ℤ}

/-- Only one row belongs to a request. -/
theorem eq_of_requestId {a b : SubscriptionPreConsumeRecord} (ha : a ∈ t) (hb : b ∈ t)
    (h : a.requestId = b.requestId) : a = b := Table.eq_of_clash ha hb (.inr h)

/-- A row is found by its key exactly when it is found by its request. -/
theorem id_eq_iff {a b : SubscriptionPreConsumeRecord} (ha : a ∈ t) (hb : b ∈ t) :
    a.id = b.id ↔ a.requestId = b.requestId := by
  constructor
  · intro h
    rw [Table.eq_of_clash ha hb (.inl h)]
  · intro h
    rw [eq_of_requestId ha hb h]

/-- A lookup of a request outside `D` finds nothing in both tables, or the same reservation. -/
theorem HiddenIn.lookup (h : HiddenIn D t t') {requestId : String} (hD : ¬ D requestId) :
    (t.first? (·.requestId = requestId) = none ↔ t'.first? (·.requestId = requestId) = none) ∧
    ∀ r r', t.first? (·.requestId = requestId) = some r →
      t'.first? (·.requestId = requestId) = some r' →
        r ∈ t ∧ r' ∈ t' ∧ ∃ i, r' = withId i r := by
  constructor
  · rw [Table.first?_eq_none, Table.first?_eq_none]
    constructor
    · intro hnone r' hr' hid
      obtain ⟨_, i, hr⟩ := h.back r' hr'
      exact hnone _ hr hid
    · intro hnone r hr hid
      obtain ⟨i, hr'⟩ := h.forth r hr (hid ▸ hD)
      exact hnone _ hr' hid
  · intro r r' hfirst hfirst'
    obtain ⟨hr, hid⟩ := Table.first?_mem hfirst
    obtain ⟨hr', hid'⟩ := Table.first?_mem hfirst'
    obtain ⟨i, hmem⟩ := h.forth r hr (hid ▸ hD)
    exact ⟨hr, hr', i, eq_of_requestId hr' hmem (hid'.trans hid.symm)⟩

/-- Updates of matching rows, by functions that do not look at the key. -/
theorem HiddenIn.update (h : HiddenIn D t t') {p p' : SubscriptionPreConsumeRecord → Prop}
    [DecidablePred p] [DecidablePred p'] {m : SetClause SubscriptionPreConsumeRecord}
    (hp : ∀ a ∈ t, ∀ i, withId i a ∈ t' → (p a ↔ p' (withId i a)))
    (hm : ∀ a i, m.set (withId i a) = withId i (m.set a)) :
    HiddenIn D (t.update p m) (t'.update p' m) := by
  have hreq : ∀ a, (m.set a).requestId = a.requestId := fun a => congrArg Prod.snd (m.keeps a)
  constructor
  · intro b hb hD
    obtain ⟨a, ha, rfl⟩ := Table.mem_update.mp hb
    have hD' : ¬ D a.requestId := by
      split at hD
      · rw [← hreq]
        exact hD
      · exact hD
    obtain ⟨i, ha'⟩ := h.forth a ha hD'
    refine ⟨i, Table.mem_update.mpr ⟨_, ha', ?_⟩⟩
    by_cases hpa : p a
    · rw [if_pos hpa, if_pos ((hp a ha i ha').mp hpa), hm]
    · rw [if_neg hpa, if_neg fun hq => hpa ((hp a ha i ha').mpr hq)]
  · intro b hb
    obtain ⟨a', ha', rfl⟩ := Table.mem_update.mp hb
    obtain ⟨hD, i, ha⟩ := h.back a' ha'
    have hpa : p (withId i a') ↔ p' a' := hp _ ha a'.id ha'
    constructor
    · split
      · rw [hreq]
        exact hD
      · exact hD
    · refine ⟨i, Table.mem_update.mpr ⟨_, ha, ?_⟩⟩
      by_cases hq : p' a'
      · rw [if_pos hq, if_pos (hpa.mpr hq), hm]
      · rw [if_neg hq, if_neg fun hp => hq (hpa.mp hp)]

/-- Deletions of matching rows. -/
theorem HiddenIn.delete (h : HiddenIn D t t') {p p' : SubscriptionPreConsumeRecord → Prop}
    [DecidablePred p] [DecidablePred p']
    (hp : ∀ a ∈ t, ∀ i, withId i a ∈ t' → (p a ↔ p' (withId i a))) :
    HiddenIn D (t.delete p) (t'.delete p') := by
  constructor
  · intro a ha hD
    obtain ⟨ha, hna⟩ := Table.mem_delete.mp ha
    obtain ⟨i, ha'⟩ := h.forth a ha hD
    exact ⟨i, Table.mem_delete.mpr ⟨ha', fun hq => hna ((hp a ha i ha').mpr hq)⟩⟩
  · intro a' ha'
    obtain ⟨ha', hna⟩ := Table.mem_delete.mp ha'
    obtain ⟨hD, i, ha⟩ := h.back a' ha'
    have hpa : p (withId i a') ↔ p' a' := hp _ ha a'.id ha'
    exact ⟨hD, i, Table.mem_delete.mpr ⟨ha, fun hq => hna (hpa.mp hq)⟩⟩

/-- The same new reservation under free keys. -/
theorem HiddenIn.insert (h : HiddenIn D t t') (hD : ¬ D r.requestId)
    (hfree : ∀ a ∈ t, a.requestId ≠ r.requestId) (hid : ∀ a ∈ t, a.id ≠ r.id)
    (hid' : ∀ a ∈ t', a.id ≠ i) :
    HiddenIn D (t.insert r) (t'.insert (withId i r)) ∧ r ∈ t.insert r ∧
      withId i r ∈ t'.insert (withId i r) := by
  have hself : r ∈ t.insert r := by
    refine Table.mem_insert_self fun a ha hclash => ?_
    rcases hclash with hclash | hclash
    · exact hid a ha hclash
    · exact hfree a ha hclash
  have hself' : withId i r ∈ t'.insert (withId i r) := by
    refine Table.mem_insert_self fun a' ha' hclash => ?_
    rcases hclash with hclash | hclash
    · exact hid' a' ha' hclash
    · obtain ⟨_, j, ha⟩ := h.back a' ha'
      exact hfree _ ha hclash
  refine ⟨⟨?_, ?_⟩, hself, hself'⟩
  · intro a ha hDa
    rcases Table.mem_insert ha with ha | ⟨rfl, _⟩
    · obtain ⟨j, ha'⟩ := h.forth a ha hDa
      exact ⟨j, Table.mem_insert_of_mem ha'⟩
    · exact ⟨i, hself'⟩
  · intro a' ha'
    rcases Table.mem_insert ha' with ha' | ⟨rfl, _⟩
    · obtain ⟨hDa, j, ha⟩ := h.back a' ha'
      exact ⟨hDa, j, Table.mem_insert_of_mem ha⟩
    · exact ⟨hD, r.id, hself⟩

/-- Writes to the other tables. -/
theorem Hidden.congr (h : Hidden D s s') {g : Tables → Tables}
    (hg : ∀ T s, g (withReservations T s) = withReservations T (g s)) : Hidden D (g s) (g s') := by
  obtain ⟨T, rfl, hin⟩ := h
  refine ⟨T, hg T s, ?_⟩
  have hself : g s = withReservations s.subscriptionPreConsumeRecords (g s) :=
    hg s.subscriptionPreConsumeRecords s
  rw [hself]
  exact hin

end hidden

section bodies

variable {D : String → Prop} {s s' : Tables}

/-- A body that ignores reservations keeps them. -/
theorem records_of_ignores {α : Type} {x : Tx α} (hx : IgnoresReservations x) (s : Tables) :
    (x.exec s).2.subscriptionPreConsumeRecords = s.subscriptionPreConsumeRecords :=
  congrArg (fun p => p.2.subscriptionPreConsumeRecords) (hx s.subscriptionPreConsumeRecords s)

theorem records_of_ok {α : Type} {x : Tx α} {a : α} (hx : IgnoresReservations x)
    (h : x.Ok s a s') : s'.subscriptionPreConsumeRecords = s.subscriptionPreConsumeRecords := by
  rw [← records_of_ignores hx s, show x.exec s = _ from h]

/-- A body that ignores reservations does the same on both databases. -/
theorem agrees_of_ignores {α : Type} {x : Tx α} (hx : IgnoresReservations x) (h : Hidden D s s') :
    Txn.Agrees (Hidden D) x x s s' := by
  obtain ⟨T, rfl, hin⟩ := h
  unfold Txn.Agrees
  rw [hx T s]
  refine ⟨rfl, T, rfl, ?_⟩
  rw [records_of_ignores hx]
  exact hin

/-! ### Settlements of subscriptions -/

/-- The claim of a reservation that is there matches its row, if it is open. -/
theorem affected_consumed {t : Table SubscriptionPreConsumeRecord}
    {r : SubscriptionPreConsumeRecord} (hr : r ∈ t) :
    t.affected (fun a => a.id = r.id ∧ a.status = .consumed) = 1 ↔ r.status = .consumed := by
  constructor
  · intro h
    obtain ⟨a, ha, ⟨hid, hstatus⟩, _⟩ := Table.exists_of_affected_eq_one h
    rw [← eq_of_requestId ha hr ((id_eq_iff ha hr).mp hid)]
    exact hstatus
  · intro h
    exact Table.affected_eq_one hr ⟨rfl, h⟩ fun a ha hp =>
      eq_of_requestId ha hr ((id_eq_iff ha hr).mp hp.1)

/-- Closing one reservation in both databases. -/
theorem refundPreConsumeRecord_hidden {r : SubscriptionPreConsumeRecord} {i : ℤ}
    (h : Hidden D s s') (hr : r ∈ s.subscriptionPreConsumeRecords)
    (hr' : withId i r ∈ s'.subscriptionPreConsumeRecords) (now : ℤ) :
    Hidden D (Settlement.refundPreConsumeRecord s r.id now)
      (Settlement.refundPreConsumeRecord s' i now) := by
  obtain ⟨T, rfl, hin⟩ := h
  refine ⟨_, rfl, hin.update ?_ fun a j => rfl⟩
  intro a ha j ha'
  have hkeys : a.id = r.id ↔ j = i := by
    rw [id_eq_iff ha hr]
    exact (id_eq_iff ha' hr').symm
  exact and_congr_left fun _ => hkeys

theorem finalizeSubscriptionPreConsumeRecord_agrees {r : SubscriptionPreConsumeRecord} {i : ℤ}
    (h : Hidden D s s') (hr : r ∈ s.subscriptionPreConsumeRecords)
    (hr' : withId i r ∈ s'.subscriptionPreConsumeRecords) (finalize : Bool) (now : ℤ) :
    Txn.Agrees (Hidden D) (Settlement.finalizeSubscriptionPreConsumeRecord finalize r.id now)
      (Settlement.finalizeSubscriptionPreConsumeRecord finalize i now) s s' := by
  unfold Settlement.finalizeSubscriptionPreConsumeRecord
  refine Txn.agrees_ite Iff.rfl (fun _ => Txn.agrees_get ?_) fun _ => Txn.agrees_pure _ h
  have hcount : s.subscriptionPreConsumeRecords.affected
        (fun a => a.id = r.id ∧ a.status = .consumed) = 1 ↔
      s'.subscriptionPreConsumeRecords.affected
        (fun a => a.id = i ∧ a.status = .consumed) = 1 :=
    (affected_consumed hr).trans (affected_consumed hr').symm
  refine Txn.agrees_require hcount h fun _ => ?_
  exact Txn.agrees_modify (refundPreConsumeRecord_hidden h hr hr' now)

theorem markQuotaErrorPermanent_ignores {x : Tx ℤ} (hx : IgnoresReservations x) :
    IgnoresReservations (Settlement.markQuotaErrorPermanent x) :=
  fun T => Txn.commutes_mapError (hx T)

/-- A settlement of a subscription does the same as long as its reservation is not deleted. -/
theorem applySubscriptionDeltaTx_agrees {input : Settlement.BillingSettlementInput} (now : ℤ)
    (hD : ¬ D input.subscriptionPreConsumeRequestID) (h : Hidden D s s') :
    Txn.Agrees (Hidden D) (Settlement.applySubscriptionDeltaTx input now)
      (Settlement.applySubscriptionDeltaTx input now) s s' := by
  unfold Settlement.applySubscriptionDeltaTx
  refine Txn.agrees_require Iff.rfl h fun _ => Txn.agrees_get ?_
  have h' := h
  obtain ⟨T, rfl, hin⟩ := h'
  obtain ⟨hnone, hsome⟩ := hin.lookup hD
  refine Txn.agrees_orThrow hnone (fun record record' hrec hrec' => ?_) h
  obtain ⟨hr, hr', i, rfl⟩ := hsome record record' hrec hrec'
  refine Txn.agrees_require Iff.rfl h fun _ => ?_
  refine Txn.agrees_require Iff.rfl h fun _ => ?_
  refine Txn.agrees_require Iff.rfl h fun _ => ?_
  refine Txn.agrees_orThrow Iff.rfl (fun sub sub' hsub hsub' => ?_) h
  obtain rfl := Option.some.inj (hsub.symm.trans hsub')
  refine Txn.agrees_require Iff.rfl h fun _ => ?_
  refine Txn.agrees_ofExcept h fun _ _ => ?_
  refine Txn.agrees_ite Iff.rfl (fun _ => Txn.agrees_pure _ h) fun _ => ?_
  refine Txn.agrees_require Iff.rfl h fun _ => ?_
  have hpost := markQuotaErrorPermanent_ignores
    (Settlement.postConsumeUserSubscriptionDeltaTx_ignores record.userSubscriptionId
      input.fundingDelta now)
  refine Txn.agrees_bind (agrees_of_ignores hpost h) ?_
  intro applied t t' ht ht' hrel
  rw [← records_of_ok hpost ht] at hr
  have hr'' : withId i record ∈ t'.subscriptionPreConsumeRecords := by
    rw [records_of_ok hpost ht']
    exact hr'
  refine Txn.agrees_require Iff.rfl hrel fun _ => ?_
  refine Txn.agrees_bind (finalizeSubscriptionPreConsumeRecord_agrees hrel hr hr'' _ now) ?_
  intro _ u u' _ _ hu
  exact Txn.agrees_pure _ hu

theorem applyFundingDeltaTx_agrees {input : Settlement.BillingSettlementInput} (now : ℤ)
    (hD : input.source = .subscription → ¬ D input.subscriptionPreConsumeRequestID)
    (h : Hidden D s s') :
    Txn.Agrees (Hidden D) (Settlement.applyFundingDeltaTx input now)
      (Settlement.applyFundingDeltaTx input now) s s' := by
  unfold Settlement.applyFundingDeltaTx
  cases hsource : input.source with
  | wallet =>
      refine agrees_of_ignores (ignores_bind (ignores_require _) fun _ => ?_) h
      exact ignores_bind (Settlement.applyWalletDeltaTx_ignores _ _) fun _ => ignores_pure _
  | subscription => exact applySubscriptionDeltaTx_agrees now (hD hsource) h
  | other value => exact Txn.agrees_throw _ h

/-- The settlement transaction does the same, unless it looks up a deleted reservation for a record
that is still pending. -/
theorem applyBillingSettlementTx_agrees (host : Settlement.Host)
    {input : Settlement.BillingSettlementInput} (recordID now : ℤ)
    (hD : input.source = .subscription →
      (∃ r ∈ s.billingSettlements.rows, r.id = recordID ∧ r.status = .pending) →
        ¬ D input.subscriptionPreConsumeRequestID)
    (h : Hidden D s s') :
    Txn.Agrees (Hidden D) (Settlement.applyBillingSettlementTx host input recordID now)
      (Settlement.applyBillingSettlementTx host input recordID now) s s' := by
  unfold Settlement.applyBillingSettlementTx
  refine Txn.agrees_bind (agrees_of_ignores (Settlement.settlementByID_ignores recordID) h) ?_
  intro current t t' ht ht' _
  obtain ⟨hcurrent, rfl⟩ := Settlement.settlementByID_ok.mp ht
  obtain ⟨_, rfl⟩ := Settlement.settlementByID_ok.mp ht'
  obtain ⟨hmem, hid⟩ := Table.first?_mem hcurrent
  refine Txn.agrees_ofExcept h fun _ _ => ?_
  refine Txn.agrees_ite Iff.rfl (fun _ => Txn.agrees_pure _ h) fun _ => ?_
  refine Txn.agrees_require Iff.rfl h fun _ => ?_
  refine Txn.agrees_require Iff.rfl h fun hpending => ?_
  refine Txn.agrees_ofExcept h fun _ _ => ?_
  refine Txn.agrees_bind
    (agrees_of_ignores (Settlement.claimSettlementSource_ignores host input now) h) ?_
  intro _ t t' _ _ h
  refine Txn.agrees_bind
    (agrees_of_ignores (Settlement.resolveSettlementToken_ignores input) h) ?_
  intro token t t' _ _ h
  refine Txn.agrees_bind (agrees_of_ignores (Settlement.checkTaskQuota_ignores input) h) ?_
  intro _ t t' _ _ h
  refine Txn.agrees_bind (applyFundingDeltaTx_agrees now
    (fun hsource => hD hsource ⟨current, hmem, hid, hpending⟩) h) ?_
  intro applied t t' _ _ h
  refine Txn.agrees_require Iff.rfl h fun _ => ?_
  refine agrees_of_ignores ?_ h
  refine ignores_bind (Settlement.applyTokenDeltaTx_ignores _ _ _ _ _) fun _ => ?_
  refine ignores_bind (Settlement.writeTaskQuota_ignores _ _ _) fun _ => ?_
  exact ignores_bind (Settlement.markApplied_ignores _ _ _ _ _) fun _ => ignores_pure _

/-! ### Pre-consumes -/

theorem getSubscriptionPlanByIdTx_ignores (ctx : ResetContext) (sub : UserSubscription) :
    IgnoresReservations (getSubscriptionPlanByIdTx ctx sub) :=
  ignores_bind (ignores_require _) fun _ => ignores_orThrow _ _

theorem maybeResetUserSubscriptionWithPlanTx_ignores (ctx : ResetContext) (plan : SubscriptionPlan)
    (sub : UserSubscription) :
    IgnoresReservations (maybeResetUserSubscriptionWithPlanTx ctx plan sub) := by
  unfold maybeResetUserSubscriptionWithPlanTx
  refine ignores_bind (ignores_orThrow _ _) fun _ => ignores_ite (ignores_pure _) ?_
  exact ignores_bind (ignores_modify fun _ _ => rfl) fun _ => ignores_pure _

theorem resetDueSubscriptionTx_ignores (ctx : ResetContext) (id : ℤ) :
    IgnoresReservations (resetDueSubscriptionTx ctx id) := by
  unfold resetDueSubscriptionTx
  refine ignores_get (fun _ _ => rfl) fun db => ?_
  cases db.userSubscriptions.first?
      (fun u => u.id = id ∧ 0 < u.nextResetTime ∧ u.nextResetTime ≤ ctx.now) with
  | none => exact ignores_pure _
  | some locked =>
      refine ignores_bind (getSubscriptionPlanByIdTx_ignores ctx locked) fun plan => ?_
      exact ignores_bind (maybeResetUserSubscriptionWithPlanTx_ignores ctx plan locked) fun _ =>
        ignores_pure _

theorem replayPreConsume_ignores (req : PreConsume) (existing : SubscriptionPreConsumeRecord) :
    IgnoresReservations (replayPreConsume req existing) := by
  unfold replayPreConsume
  refine ignores_bind (ignores_ofExcept _) fun _ => ?_
  refine ignores_bind (ignores_require _) fun _ => ?_
  refine ignores_get (fun _ _ => rfl) fun _ => ?_
  refine ignores_bind (ignores_orThrow _ _) fun _ => ?_
  refine ignores_bind (ignores_require _) fun _ => ?_
  exact ignores_bind (ignores_ofExcept _) fun _ => ignores_pure _

/-- A lookup of a request, followed by a replay of what it finds. -/
theorem lookup_agrees {requestId : String} (hD : ¬ D requestId) (h : Hidden D s s') :
    (s.subscriptionPreConsumeRecords.first? (·.requestId = requestId) = none ∧
      s'.subscriptionPreConsumeRecords.first? (·.requestId = requestId) = none) ∨
    ∃ r i, s.subscriptionPreConsumeRecords.first? (·.requestId = requestId) = some r ∧
      s'.subscriptionPreConsumeRecords.first? (·.requestId = requestId) = some (withId i r) := by
  obtain ⟨T, rfl, hin⟩ := h
  obtain ⟨hnone, hsome⟩ := hin.lookup hD
  cases hfirst : s.subscriptionPreConsumeRecords.first? (·.requestId = requestId) with
  | none => exact .inl ⟨rfl, hnone.mp hfirst⟩
  | some r =>
      cases hfirst' : T.first? (·.requestId = requestId) with
      | none =>
          rw [hnone.mpr hfirst'] at hfirst
          simp at hfirst
      | some r' =>
          obtain ⟨_, _, i, rfl⟩ := hsome r r' hfirst hfirst'
          exact .inr ⟨r, i, rfl, hfirst'⟩

/-- The charge for a reservation that has just been created in both databases. -/
theorem chargeReservation_agrees {ctx : ResetContext} {req : PreConsume} {sub : UserSubscription}
    {r : SubscriptionPreConsumeRecord} {i : ℤ} (h : Hidden D s s')
    (hr : r ∈ s.subscriptionPreConsumeRecords)
    (hr' : withId i r ∈ s'.subscriptionPreConsumeRecords) :
    Txn.Agrees (Hidden D) (chargeReservation ctx req sub r.id) (chargeReservation ctx req sub i)
      s s' := by
  unfold chargeReservation
  refine Txn.agrees_get (Txn.agrees_ite ?_ (fun _ => ?_) fun _ => ?_)
  · obtain ⟨T, rfl, _⟩ := h
    exact Iff.rfl
  · refine agrees_of_ignores ?_ h
    refine ignores_bind (ignores_modify fun _ _ => rfl) fun _ => ?_
    refine ignores_get (fun _ _ => rfl) fun _ => ?_
    exact ignores_bind (ignores_orThrow _ _) fun _ => ignores_pure _
  · obtain ⟨T, rfl, hin⟩ := h
    refine Txn.agrees_bind (Txn.agrees_modify ⟨_, rfl, hin.delete ?_⟩) ?_
    · intro a ha j ha'
      rw [id_eq_iff ha hr]
      exact (id_eq_iff ha' hr').symm
    · intro _ t t' _ _ hrel
      exact Txn.agrees_pure _ hrel

theorem reserveOn_agrees {ctx : ResetContext} {req : PreConsume} (sub : UserSubscription)
    (hD : ¬ D req.requestId) (h : Hidden D s s') :
    Txn.Agrees (Hidden D) (reserveOn ctx req sub) (reserveOn ctx req sub) s s' := by
  unfold reserveOn
  refine Txn.agrees_ite Iff.rfl (fun _ => Txn.agrees_pure _ h) fun _ => Txn.agrees_get ?_
  rcases lookup_agrees hD h with ⟨hnone, hnone'⟩ | ⟨r, i, hsome, hsome'⟩
  · rw [hnone, hnone']
    dsimp only
    obtain ⟨T, rfl, hin⟩ := h
    have hlt : ∀ a ∈ s.subscriptionPreConsumeRecords,
        a.id ≠ s.subscriptionPreConsumeRecords.nextID (·.id) := by
      intro a ha
      have hlt : a.id < s.subscriptionPreConsumeRecords.nextID (·.id) := Table.lt_nextID ha
      omega
    have hlt' : ∀ a ∈ T, a.id ≠ T.nextID (·.id) := by
      intro a ha
      have hlt : a.id < T.nextID (·.id) := Table.lt_nextID ha
      omega
    obtain ⟨hin', hself, hself'⟩ := hin.insert
      (r := preConsumeRecord req sub ctx.updatedAt (s.subscriptionPreConsumeRecords.nextID (·.id)))
      hD (Table.first?_eq_none.mp hnone) hlt hlt'
    refine Txn.agrees_bind (Txn.agrees_modify ⟨_, rfl, hin'⟩) ?_
    intro _ t t' ht ht' hrel
    obtain rfl := Txn.ok_modify.mp ht
    obtain rfl := Txn.ok_modify.mp ht'
    exact chargeReservation_agrees
      (r := preConsumeRecord req sub ctx.updatedAt (s.subscriptionPreConsumeRecords.nextID (·.id)))
      (i := T.nextID (·.id)) hrel hself hself'
  · rw [hsome, hsome']
    dsimp only
    refine Txn.agrees_bind (agrees_of_ignores (replayPreConsume_ignores req r) h) ?_
    intro _ t t' _ _ hrel
    exact Txn.agrees_pure _ hrel

theorem reserveOnFirst_agrees {ctx : ResetContext} {req : PreConsume} (hD : ¬ D req.requestId) :
    ∀ (subs : List UserSubscription) {s s' : Tables}, Hidden D s s' →
      Txn.Agrees (Hidden D) (reserveOnFirst ctx req subs) (reserveOnFirst ctx req subs) s s'
  | [], _, _, h => Txn.agrees_throw _ h
  | sub :: subs, _, _, h => by
      unfold reserveOnFirst
      refine Txn.agrees_bind (agrees_of_ignores (getSubscriptionPlanByIdTx_ignores ctx sub) h) ?_
      intro plan t t' _ _ h
      refine Txn.agrees_bind
        (agrees_of_ignores (maybeResetUserSubscriptionWithPlanTx_ignores ctx plan sub) h) ?_
      intro update t t' _ _ h
      refine Txn.agrees_bind (reserveOn_agrees _ hD h) ?_
      intro reserved t t' _ _ h
      cases reserved with
      | some reserved => exact Txn.agrees_pure _ h
      | none =>
          refine Txn.agrees_bind (reserveOnFirst_agrees hD subs h) ?_
          intro _ t t' _ _ h
          exact Txn.agrees_pure _ h

/-- A pre-consume does the same as long as its reservation is not deleted. -/
theorem preConsumeUserSubscriptionTx_agrees {ctx : ResetContext} {req : PreConsume}
    (hD : ¬ D req.requestId) (h : Hidden D s s') :
    Txn.Agrees (Hidden D) (preConsumeUserSubscriptionTx ctx req)
      (preConsumeUserSubscriptionTx ctx req) s s' := by
  unfold preConsumeUserSubscriptionTx
  refine Txn.agrees_get ?_
  rcases lookup_agrees hD h with ⟨hnone, hnone'⟩ | ⟨r, i, hsome, hsome'⟩
  · rw [hnone, hnone']
    dsimp only
    obtain ⟨T, rfl, hin⟩ := h
    refine Txn.agrees_require Iff.rfl ⟨T, rfl, hin⟩ fun _ => ?_
    exact reserveOnFirst_agrees hD _ ⟨T, rfl, hin⟩
  · rw [hsome, hsome']
    exact agrees_of_ignores (replayPreConsume_ignores req r) h

theorem validatePreConsume_ignores (req : PreConsume) :
    IgnoresReservations (validatePreConsume req) :=
  ignores_bind (ignores_require _) fun _ => ignores_bind (ignores_require _) fun _ =>
    ignores_require _

theorem chargeToken_ignores (ctx : ResetContext) (req : PreConsume) :
    IgnoresReservations (chargeToken ctx req) := by
  unfold chargeToken
  refine ignores_get (fun _ _ => rfl) fun _ => ?_
  exact ignores_bind (ignores_require _) fun _ => ignores_modify fun _ _ => rfl

/-- A refund does the same as long as its reservation is not deleted. -/
theorem refundSubscriptionPreConsume_agrees {requestId : String} (now : ℤ) (hD : ¬ D requestId)
    (h : Hidden D s s') :
    Txn.Agrees (Hidden D) (refundSubscriptionPreConsume requestId now)
      (refundSubscriptionPreConsume requestId now) s s' := by
  unfold refundSubscriptionPreConsume
  refine Txn.agrees_require Iff.rfl h fun _ => Txn.agrees_get ?_
  have h' := h
  obtain ⟨T, rfl, hin⟩ := h'
  obtain ⟨hnone, hsome⟩ := hin.lookup hD
  refine Txn.agrees_orThrow hnone (fun record record' hrec hrec' => ?_) h
  obtain ⟨hr, hr', i, rfl⟩ := hsome record record' hrec hrec'
  refine Txn.agrees_ite Iff.rfl (fun _ => Txn.agrees_pure _ h) fun _ => ?_
  refine Txn.agrees_orThrow Iff.rfl (fun sub sub' hsub hsub' => ?_) h
  obtain rfl := Option.some.inj (hsub.symm.trans hsub')
  refine Txn.agrees_ofExcept h fun _ _ => ?_
  refine Txn.agrees_bind (Txn.agrees_modify (refundPreConsumeRecord_hidden h hr hr' now)) ?_
  intro _ t t' _ _ hrel
  have hcount := (affected_consumed hr).trans (affected_consumed hr').symm
  refine Txn.agrees_ite hcount (fun _ => agrees_of_ignores ?_ hrel) fun _ => Txn.agrees_pure _ hrel
  refine ignores_ite (ignores_pure _) ?_
  exact ignores_bind (Settlement.postConsumeUserSubscriptionDeltaTx_ignores _ _ _) fun _ =>
    ignores_require _

/-- A later cleanup deletes the same reservations in both databases. -/
theorem cleanup_hidden (olderThanSeconds now : ℤ) (h : Hidden D s s') :
    Hidden D (cleanupSubscriptionPreConsumeRecords olderThanSeconds now s)
      (cleanupSubscriptionPreConsumeRecords olderThanSeconds now s') := by
  obtain ⟨T, rfl, hin⟩ := h
  unfold cleanupSubscriptionPreConsumeRecords
  dsimp only
  split
  · exact ⟨T, rfl, hin⟩
  · exact ⟨_, rfl, hin.delete fun a _ i _ => Iff.rfl⟩

/-! ### Resets by an administrator -/

/-- No reservation of the subscription has been deleted. -/
def Unaffected (D : String → Prop) (s : Tables) (sub : UserSubscription) : Prop :=
  ∀ r ∈ s.subscriptionPreConsumeRecords, r.userSubscriptionId = sub.id → ¬ D r.requestId

theorem earlierPeriod_hidden {sub : UserSubscription} {r : BillingSettlement}
    (hsub : Unaffected D s sub) (h : Hidden D s s') :
    earlierPeriod s sub r ↔ earlierPeriod s' sub r := by
  obtain ⟨T, rfl, hin⟩ := h
  constructor
  · rintro ⟨record, hrecord, hrid, huser, hsid, hrest⟩
    obtain ⟨i, hmem⟩ := hin.forth record hrecord (hsub record hrecord hsid)
    exact ⟨withId i record, hmem, hrid, huser, hsid, hrest⟩
  · rintro ⟨record, hrecord, hrest⟩
    obtain ⟨_, i, hmem⟩ := hin.back record hrecord
    exact ⟨withId i record, hmem, hrest⟩

/-- The check before a reset sees the same reservations of its subscription. -/
theorem checkResetBilling_agrees {sub updated : UserSubscription} (hsub : Unaffected D s sub)
    (h : Hidden D s s') :
    Txn.Agrees (Hidden D) (checkResetBilling sub updated) (checkResetBilling sub updated) s s' := by
  unfold checkResetBilling validateSubscriptionResetBillingTx
  refine Txn.agrees_ite Iff.rfl (fun _ => ?_) fun _ => Txn.agrees_pure _ h
  refine Txn.agrees_get (Txn.agrees_require ?_ h fun _ => ?_)
  · have hearlier : ∀ r, earlierPeriod s sub r ↔ earlierPeriod s' sub r :=
      fun r => earlierPeriod_hidden hsub h
    obtain ⟨T, rfl, _⟩ := h
    exact forall₂_congr fun r _ => imp_congr_right fun _ => imp_congr_right fun _ =>
      imp_congr_right fun _ => hearlier r
  · refine Txn.agrees_require_end ?_ h
    obtain ⟨T, rfl, hin⟩ := h
    constructor
    · intro hall record hrecord hperiod
      obtain ⟨_, i, hmem⟩ := hin.back record hrecord
      exact hall (withId i record) hmem hperiod
    · intro hall record hrecord hperiod
      obtain ⟨i, hmem⟩ := hin.forth record hrecord (hsub record hrecord hperiod.1)
      exact hall (withId i record) hmem hperiod

theorem resetSubscriptions_agrees {ctx : ResetContext} {plan : SubscriptionPlan}
    {advanceResetTime : Bool} : ∀ (subs : List UserSubscription) {s s' : Tables},
      (∀ sub ∈ subs, Unaffected D s sub) → Hidden D s s' →
        Txn.Agrees (Hidden D) (resetSubscriptions ctx plan advanceResetTime subs)
          (resetSubscriptions ctx plan advanceResetTime subs) s s'
  | [], _, _, _, h => Txn.agrees_pure _ h
  | sub :: subs, s, s', hsubs, h => by
      unfold resetSubscriptions resetUserSubscriptionTx
      refine Txn.agrees_bind (Txn.agrees_bind
        (checkResetBilling_agrees (hsubs sub List.mem_cons_self) h) fun _ t t' ht _ hrel =>
          Txn.agrees_modify (hrel.congr fun _ _ => rfl)) ?_
      intro _ t t' ht _ hrel
      obtain ⟨_, u, hcheck, hsave⟩ := Txn.ok_bind.mp ht
      rw [checkResetBilling_ok hcheck] at hsave
      obtain rfl := Txn.ok_modify.mp hsave
      refine Txn.agrees_bind (resetSubscriptions_agrees subs
        (fun sub' hsub' => hsubs sub' (List.mem_cons_of_mem sub hsub')) hrel) ?_
      intro _ v v' _ _ hrel
      exact Txn.agrees_pure _ hrel

end bodies

/-! ### Steps and runs -/

/-- The states differ only in the reservations of the requests in `D`. -/
structure HiddenWorld (D : String → Prop) (w w' : World) : Prop where
  store : ∃ T, w'.store = w.store.withReservations T ∧
    HiddenIn D w.store.db.subscriptionPreConsumeRecords T
  plans : w'.plans = w.plans
  counted : w'.counted = w.counted

/-- The request has a reservation on a subscription that a reset of the plan covers. -/
def ReservedOnPlan (s : Tables) (planId now : ℤ) (requestId : String) : Prop :=
  ∃ r ∈ s.subscriptionPreConsumeRecords.rows, r.requestId = requestId ∧
    ∃ sub ∈ s.userSubscriptions.rows, r.userSubscriptionId = sub.id ∧ activeOfPlan planId now sub

instance (s : Tables) (planId now : ℤ) (requestId : String) :
    Decidable (ReservedOnPlan s planId now requestId) :=
  inferInstanceAs (Decidable (∃ r ∈ s.subscriptionPreConsumeRecords.rows, _ ∧
    ∃ sub ∈ s.userSubscriptions.rows, _))

/-- The operation looks up the reservation of a request: a pre-consume or a refund of the request,
the transaction of a settlement that is bound to it, funded by a subscription and still pending, or
the check before an administrator's reset of its subscription. -/
def LooksUp (w : World) (requestId : String) : Op → Prop
  | .preConsume req _ | .preConsumeToken req _ => req.requestId = requestId
  | .refund id _ => id = requestId
  | .settlement op => ∃ p ∈ Settlement.settling w.store op,
      p.1.source = .subscription ∧ p.1.subscriptionPreConsumeRequestID = requestId ∧
        ∃ r ∈ w.store.db.billingSettlements.rows, r.id = p.2 ∧ r.status = .pending
  | .adminResetUser _ planId _ moment | .adminResetPlan planId _ moment =>
      ReservedOnPlan w.store.db planId moment.now requestId
  | .cleanup _ _ | .resetDue _ _ | .updatePlan _ _ => False

instance (w : World) (requestId : String) : (op : Op) → Decidable (LooksUp w requestId op)
  | .preConsume _ _ | .preConsumeToken _ _ | .refund _ _ => inferInstanceAs (Decidable (_ = _))
  | .settlement op => inferInstanceAs (Decidable (∃ p ∈ Settlement.settling w.store op, _))
  | .adminResetUser _ _ _ _ | .adminResetPlan _ _ _ =>
      inferInstanceAs (Decidable (ReservedOnPlan _ _ _ _))
  | .cleanup _ _ | .resetDue _ _ | .updatePlan _ _ => .isFalse id

section steps

variable {D : String → Prop} {env : Environment} {w w' : World}

theorem planVersion_id {plans : List SubscriptionPlan} {id : ℤ} {version : ℕ}
    {plan : SubscriptionPlan} (h : planVersion plans id version = some plan) : plan.id = id := by
  have hmem := List.mem_of_getElem? h
  exact of_decide_eq_true (List.mem_filter.mp hmem).2

/-- The subscriptions a reset covers have lost no reservation. -/
theorem unaffected_of_notReserved {planId now : ℤ} {plan : SubscriptionPlan} {s : Tables}
    {sub : UserSubscription} (hplan : plan.id = planId) (hsub : sub ∈ s.userSubscriptions)
    (hactive : activeOfPlan plan.id now sub)
    (hD : ∀ requestId, D requestId → ¬ ReservedOnPlan s planId now requestId) :
    Unaffected D s sub :=
  fun r hr hsid hDr => hD r.requestId hDr ⟨r, hr, rfl, sub, hsub, hsid, hplan ▸ hactive⟩

/-- The transaction of an operation that looks up no request in `D`. -/
theorem act_agrees {op : Op} {s' : Tables} (h : Hidden D w.store.db s')
    (hop : ∀ requestId, D requestId → ¬ LooksUp w requestId op) :
    Txn.Agrees (Hidden D) (act env w.plans op) (act env w.plans op) w.store.db s' := by
  cases op with
  | settlement | updatePlan => exact Txn.agrees_pure _ h
  | preConsume req moment =>
      have hD : ¬ D req.requestId := fun hD => hop _ hD rfl
      unfold act preConsumeUserSubscription
      refine Txn.agrees_bind (Txn.agrees_bind (agrees_of_ignores (validatePreConsume_ignores _) h)
        fun _ t t' _ _ h => ?_) fun _ t t' _ _ h => Txn.agrees_pure _ h
      refine Txn.agrees_bind
        (agrees_of_ignores (Settlement.claimBillingPreConsumeSourceTx_ignores _ _) h) ?_
      intro _ t t' _ _ h
      exact preConsumeUserSubscriptionTx_agrees hD h
  | preConsumeToken req moment =>
      have hD : ¬ D req.requestId := fun hD => hop _ hD rfl
      unfold act preConsumeTokenAndUserSubscription
      refine Txn.agrees_bind (Txn.agrees_require Iff.rfl h fun _ => ?_)
        fun _ t t' _ _ h => Txn.agrees_pure _ h
      refine Txn.agrees_bind (agrees_of_ignores (validatePreConsume_ignores _) h) ?_
      intro _ t t' _ _ h
      refine Txn.agrees_bind
        (agrees_of_ignores (Settlement.claimBillingPreConsumeSourceTx_ignores _ _) h) ?_
      intro _ t t' _ _ h
      refine Txn.agrees_bind (preConsumeUserSubscriptionTx_agrees hD h) ?_
      intro reserved t t' _ _ h
      refine Txn.agrees_ite Iff.rfl (fun _ => Txn.agrees_pure _ h) fun _ => ?_
      exact agrees_of_ignores
        (ignores_bind (chargeToken_ignores _ _) fun _ => ignores_pure _) h
  | refund requestId now =>
      have hD : ¬ D requestId := fun hD => hop _ hD rfl
      exact Txn.agrees_bind (refundSubscriptionPreConsume_agrees now hD h)
        fun _ t t' _ _ h => Txn.agrees_pure _ h
  | cleanup olderThanSeconds now =>
      exact Txn.agrees_bind (Txn.agrees_modify (cleanup_hidden olderThanSeconds now h))
        fun _ t t' _ _ h => Txn.agrees_pure _ h
  | resetDue id moment =>
      exact agrees_of_ignores
        (ignores_bind (resetDueSubscriptionTx_ignores _ id) fun _ => ignores_pure _) h
  | adminResetUser userId planId advanceResetTime moment =>
      unfold act adminResetUserSubscriptionsByPlanTx
      refine Txn.agrees_bind (Txn.agrees_require Iff.rfl h fun _ => ?_)
        fun _ t t' _ _ h => Txn.agrees_pure _ h
      refine Txn.agrees_orThrow Iff.rfl (fun plan plan' hplan hplan' => ?_) h
      obtain rfl := Option.some.inj (hplan.symm.trans hplan')
      refine Txn.agrees_get ?_
      have h' := h
      obtain ⟨T, rfl, _⟩ := h'
      refine Txn.agrees_require Iff.rfl h fun _ => resetSubscriptions_agrees _ ?_ h
      intro sub hsub
      rw [List.mem_insertionSort, List.mem_filter] at hsub
      exact unaffected_of_notReserved (planVersion_id hplan) hsub.1 (of_decide_eq_true hsub.2).2 hop
  | adminResetPlan planId advanceResetTime moment =>
      unfold act adminResetPlanSubscriptionsTx
      refine Txn.agrees_bind (Txn.agrees_require Iff.rfl h fun _ => ?_)
        fun _ t t' _ _ h => Txn.agrees_pure _ h
      refine Txn.agrees_orThrow Iff.rfl (fun plan plan' hplan hplan' => ?_) h
      obtain rfl := Option.some.inj (hplan.symm.trans hplan')
      refine Txn.agrees_get ?_
      have h' := h
      obtain ⟨T, rfl, _⟩ := h'
      refine resetSubscriptions_agrees _ ?_ h
      intro sub hsub
      rw [List.mem_insertionSort, List.mem_filter] at hsub
      exact unaffected_of_notReserved (planVersion_id hplan) hsub.1 (of_decide_eq_true hsub.2) hop

theorem outcome_hidden (env : Environment) {op : Op} (h : HiddenWorld D w w')
    (hop : ∀ requestId, D requestId → ¬ LooksUp w requestId op) :
    outcome env w op = outcome env w' op ∧
      Hidden D (transaction (act env w.plans op) w.store.db).2
        (transaction (act env w'.plans op) w'.store.db).2 := by
  obtain ⟨T, hstore, hin⟩ := h.store
  have hdb : Hidden D w.store.db w'.store.db := by
    rw [hstore]
    exact ⟨T, rfl, hin⟩
  unfold outcome
  rw [h.plans]
  exact Txn.Agrees.transaction hdb (act_agrees hdb hop)

/-- Two commits of the same operation. -/
theorem commit_hidden (env : Environment) {op : Op} (h : HiddenWorld D w w')
    (hop : ∀ requestId, D requestId → ¬ LooksUp w requestId op) :
    HiddenWorld D (w.commit env op) (w'.commit env op) := by
  obtain ⟨hresult, hdb⟩ := outcome_hidden env h hop
  unfold outcome at hresult
  unfold World.commit
  rcases ht : transaction (act env w.plans op) w.store.db with ⟨r, db⟩
  rcases ht' : transaction (act env w'.plans op) w'.store.db with ⟨r', db'⟩
  rw [ht, ht'] at hresult hdb
  dsimp only at hresult hdb
  subst hresult
  cases r with
  | error e => exact h
  | ok report =>
      obtain ⟨U, rfl, hin⟩ := hdb
      obtain ⟨T, hstore, _⟩ := h.store
      refine ⟨⟨U, ?_, hin⟩, h.plans, ?_⟩
      · dsimp only
        rw [hstore]
        rfl
      · dsimp only
        rw [h.counted]

/-- Two steps of the settlement store. -/
theorem settlement_hidden (env : Environment) {store : Settlement.World}
    {T : Table SubscriptionPreConsumeRecord}
    (op : Settlement.Op) (hin : HiddenIn D store.db.subscriptionPreConsumeRecords T)
    (hop : ∀ requestId, D requestId → ¬ ∃ p ∈ Settlement.settling store op,
      p.1.source = .subscription ∧ p.1.subscriptionPreConsumeRequestID = requestId ∧
        ∃ r ∈ store.db.billingSettlements.rows, r.id = p.2 ∧ r.status = .pending) :
    ∃ U, Settlement.step env.host (store.withReservations T) op =
        (Settlement.step env.host store op).withReservations U ∧
      HiddenIn D (Settlement.step env.host store op).db.subscriptionPreConsumeRecords U := by
  cases hsettling : Settlement.settling store op with
  | none =>
      refine ⟨T, Settlement.step_withReservations env.host T store hsettling, ?_⟩
      have hown := Settlement.step_withReservations env.host
        store.db.subscriptionPreConsumeRecords store hsettling
      have hkept : (Settlement.step env.host store op).db.subscriptionPreConsumeRecords =
          store.db.subscriptionPreConsumeRecords :=
        congrArg (fun w => w.db.subscriptionPreConsumeRecords) hown
      rw [hkept]
      exact hin
  | some p =>
      obtain ⟨input, recordID⟩ := p
      obtain ⟨i, now, fault, claimToken, rfl, hcall⟩ := Settlement.settling_eq_some hsettling
      have hagrees := Txn.Agrees.transaction (s := store.db) (t := withReservations T store.db)
        ⟨T, rfl, hin⟩ (applyBillingSettlementTx_agrees (D := D) env.host recordID now
          (fun hsource hrecord hDr => hop _ hDr ⟨_, hsettling, hsource, rfl, hrecord⟩)
            ⟨T, rfl, hin⟩)
      obtain ⟨hresult, U, hdb, hin'⟩ := hagrees
      rw [Settlement.step_proceed env.host hcall]
      rw [Settlement.step_proceed env.host (w := store.withReservations T) hcall]
      show ∃ U,
          Settlement.settleStep env.host (store.withReservations T) i input recordID now fault =
          (Settlement.settleStep env.host store i input recordID now fault).withReservations U ∧
        HiddenIn D (Settlement.settleStep env.host store i input recordID now
          fault).db.subscriptionPreConsumeRecords U
      unfold Settlement.settleStep
      rw [show (store.withReservations T).db = withReservations T store.db from rfl]
      rcases ht : transaction (Settlement.applyBillingSettlementTx env.host input recordID now)
        store.db with ⟨r, db⟩
      rcases ht' : transaction (Settlement.applyBillingSettlementTx env.host input recordID now)
        (withReservations T store.db) with ⟨r', db'⟩
      rw [ht, ht'] at hresult hdb
      rw [ht] at hin'
      dsimp only at hresult hdb hin'
      subst hresult hdb
      cases fault with
      | aborted text => exact ⟨T, rfl, hin⟩
      | none =>
          cases r with
          | ok a => exact ⟨U, rfl, hin'⟩
          | error e => exact ⟨T, rfl, hin⟩
      | unacknowledged text =>
          cases r with
          | ok a => exact ⟨U, rfl, hin'⟩
          | error e => exact ⟨T, rfl, hin⟩

/-- **Two steps that look up no deleted reservation** have the same outcome and end in states that
differ in the deleted reservations only. -/
theorem step_hidden {op : Op} (h : HiddenWorld D w w')
    (hop : ∀ requestId, D requestId → ¬ LooksUp w requestId op) :
    HiddenWorld D (step env w op) (step env w' op) := by
  cases op with
  | settlement op =>
      obtain ⟨T, hstore, hin⟩ := h.store
      obtain ⟨U, hstep, hin'⟩ := settlement_hidden env op hin hop
      refine ⟨⟨U, ?_, hin'⟩, h.plans, h.counted⟩
      show Settlement.step env.host w'.store op = _
      rw [hstore]
      exact hstep
  | updatePlan id plan =>
      refine ⟨h.store, ?_, h.counted⟩
      show adminUpdateSubscriptionPlan env id plan w'.plans = _
      rw [h.plans]
      rfl
  | preConsume | preConsumeToken | refund | cleanup | resetDue | adminResetUser | adminResetPlan =>
      exact commit_hidden env h hop

end steps

/-! ### The cleanup -/

/-- The reservations a cleanup deletes. -/
def deleted (olderThanSeconds now : ℤ) (s : Tables) : List SubscriptionPreConsumeRecord :=
  s.subscriptionPreConsumeRecords.rows.filter fun r =>
    decide (0 < olderThanSeconds ∧ 0 < now - olderThanSeconds ∧
      removable s (now - olderThanSeconds) r)

/-- The cleanup leaves the rows it does not delete. -/
theorem mem_cleanup {olderThanSeconds now : ℤ} {s : Tables} {r : SubscriptionPreConsumeRecord} :
    r ∈
      (cleanupSubscriptionPreConsumeRecords olderThanSeconds now s).subscriptionPreConsumeRecords ↔
      r ∈ s.subscriptionPreConsumeRecords ∧ r ∉ deleted olderThanSeconds now s := by
  unfold cleanupSubscriptionPreConsumeRecords deleted
  rw [List.mem_filter]
  dsimp only
  split
  · next hoff =>
    refine ⟨fun hr => ⟨hr, fun hd => ?_⟩, fun h => h.1⟩
    have hon := of_decide_eq_true hd.2
    omega
  · next hon =>
    rw [Table.mem_delete]
    refine and_congr_right fun hr => ⟨fun hno hd => hno (of_decide_eq_true hd.2).2.2,
      fun hno hp => ?_⟩
    exact hno ⟨hr, decide_eq_true ⟨by omega, by omega, hp⟩⟩

/-- The state after the cleanup hides what it has deleted. -/
theorem cleanup_hiddenWorld (env : Environment) (w : World) (olderThanSeconds now : ℤ) :
    HiddenWorld (fun requestId =>
        ∃ r ∈ deleted olderThanSeconds now w.store.db, r.requestId = requestId)
      w (step env w (.cleanup olderThanSeconds now)) := by
  have hstep : step env w (.cleanup olderThanSeconds now) = { w with
      store := { w.store with
        db := cleanupSubscriptionPreConsumeRecords olderThanSeconds now w.store.db }
      counted := countAfter (.cleanup olderThanSeconds now) ⟨none, []⟩ w.counted } := rfl
  have hcounted : countAfter (.cleanup olderThanSeconds now) ⟨none, []⟩ w.counted = w.counted :=
    List.filter_eq_self.mpr fun c _ => by simp
  rw [hstep, hcounted]
  refine ⟨⟨(cleanupSubscriptionPreConsumeRecords olderThanSeconds now
    w.store.db).subscriptionPreConsumeRecords, ?_, ?_, ?_⟩, rfl, rfl⟩
  · dsimp only
    unfold cleanupSubscriptionPreConsumeRecords
    dsimp only
    split
    · rfl
    · rfl
  · intro r hr hD
    exact ⟨r.id, mem_cleanup.mpr ⟨hr, fun hd => hD ⟨r, hd, rfl⟩⟩⟩
  · intro r hr
    obtain ⟨hmem, hkept⟩ := mem_cleanup.mp hr
    refine ⟨?_, r.id, hmem⟩
    rintro ⟨d, hd, hid⟩
    have hdr : d = r := eq_of_requestId (List.mem_filter.mp hd).1 hmem hid
    exact hkept (hdr ▸ hd)

/-- Everything but the reservations is the same: the usage of every subscription, every settlement
and every call under way. -/
def SameButReservations (w w' : World) : Prop :=
  w'.store = w.store.withReservations w'.store.db.subscriptionPreConsumeRecords ∧
    w'.plans = w.plans ∧ w'.counted = w.counted

/-- The runs from two states go the same way: every operation has the same outcome, and all states
are the same but for the reservations. -/
def Invisible (env : Environment) : World → World → List Op → Prop
  | w, w', [] => SameButReservations w w'
  | w, w', op :: ops => SameButReservations w w' ∧ outcome env w op = outcome env w' op ∧
      Invisible env (step env w op) (step env w' op) ops

theorem HiddenWorld.same {D : String → Prop} {w w' : World} (h : HiddenWorld D w w') :
    SameButReservations w w' := by
  obtain ⟨T, hstore, _⟩ := h.store
  refine ⟨?_, h.plans, h.counted⟩
  rw [hstore]
  rfl

theorem HiddenWorld.invisible {D : String → Prop} (env : Environment) :
    ∀ (ops : List Op) {w w' : World}, HiddenWorld D w w' →
      Transition.Throughout (step env) (fun w op => ∀ requestId, D requestId →
        ¬ LooksUp w requestId op) w ops → Invisible env w w' ops
  | [], _, _, h, _ => h.same
  | _ :: ops, _, _, h, hops =>
      ⟨h.same, (outcome_hidden env h hops.1).1,
        HiddenWorld.invisible env ops (step_hidden h hops.1) hops.2⟩

/-- The operation looks up none of the reservations. -/
def LooksUpNone (gone : List SubscriptionPreConsumeRecord) (w : World) (op : Op) : Prop :=
  ∀ r ∈ gone, ¬ LooksUp w r.requestId op

instance (gone : List SubscriptionPreConsumeRecord) (w : World) (op : Op) :
    Decidable (LooksUpNone gone w op) := inferInstanceAs (Decidable (∀ r ∈ gone, _))

/-- **The cleanup is invisible to those who do not look.** It deletes only old reservations that
have settlements, all of them applied or manual; and as long as no operation looks up a request
whose reservation it has deleted, every operation succeeds or fails as without the cleanup, and
leaves the same usage, settlements and calls. -/
theorem cleanup_invisible (env : Environment) (w : World) (olderThanSeconds now : ℤ)
    (ops : List Op) (hops : Transition.Throughout (step env)
      (LooksUpNone (deleted olderThanSeconds now w.store.db)) w ops) :
    (∀ r ∈ deleted olderThanSeconds now w.store.db, r.createdAt < now - olderThanSeconds ∧
      (∃ b ∈ w.store.db.billingSettlements, boundTo r b) ∧
        ∀ b ∈ w.store.db.billingSettlements, boundTo r b → terminalStatus b) ∧
    Invisible env w (step env w (.cleanup olderThanSeconds now)) ops := by
  constructor
  · intro r hr
    obtain ⟨_, _, hold, ⟨b, hb, hbound, _⟩, hclosed⟩ := of_decide_eq_true (List.mem_filter.mp hr).2
    refine ⟨hold, ⟨b, hb, hbound⟩, fun b hb hbound => ?_⟩
    by_contra hopen
    exact hclosed ⟨b, hb, hbound, hopen⟩
  · refine (cleanup_hiddenWorld env w olderThanSeconds now).invisible env ops ?_
    refine Transition.throughout_mono (step env) ?_ ops w hops
    rintro v op hnone requestId ⟨r, hr, rfl⟩
    exact hnone r hr

/-! ### A request after the cleanup -/

/-- The final settlement of a request that moves nothing. -/
def finalSettlement (requestId : String) : Settlement.BillingSettlementInput where
  operationKey := Settlement.billingRequestFinalizeOperationKey requestId
  source := .subscription
  userID := 1
  subscriptionID := 1
  tokenID := 0
  fundingDelta := 0
  tokenDelta := 0
  taskID := 0
  taskQuota := 0
  taskQuotaTarget := 0
  subscriptionPreConsumeRequestID := requestId
  finalizeSubscriptionPreConsume := false
  allowMissingToken := false
  manualOnFailure := false
  effect := none
  preConsumeRequestID := ""
  preConsumeModelName := ""
  preConsumeRequestedQuota := 0
  preConsumeEffectiveQuota := 0

/-- A request has reserved 10 and is settled. -/
def settledWorld : World :=
  runs plainEnvironment steadyWorld [.preConsume (request "first" 10) (atTime 2000),
    .settlement (.apply (finalSettlement "first")),
    .settlement (.proceed 0 2001 .none ""), .settlement (.proceed 0 2002 .none "")]

/-- Another request does not notice the cleanup. -/
theorem cleanup_invisible_otherRequest :
    (deleted 604800 700000 settledWorld.store.db).map (·.requestId) = ["first"] ∧
      Invisible plainEnvironment settledWorld
        (step plainEnvironment settledWorld (.cleanup 604800 700000))
        [.preConsume (request "second" 5) (atTime 700001)] :=
  ⟨by decide +kernel, (cleanup_invisible plainEnvironment settledWorld 604800 700000
    [.preConsume (request "second" 5) (atTime 700001)] (by decide +kernel)).2⟩

/-- A replay of the request after the cleanup is charged once more. -/
theorem cleanup_visible :
    ¬ ∀ (env : Environment) (w : World) (olderThanSeconds now : ℤ) (ops : List Op),
      Invisible env w (step env w (.cleanup olderThanSeconds now)) ops := by
  intro h
  have hreplay := h plainEnvironment settledWorld 604800 700000
    [.preConsume (request "first" 10) (atTime 700001)]
  have hused : ∀ w w' : World, SameButReservations w w' →
      w'.store.db.userSubscriptions.rows.map (·.amountUsed) =
        w.store.db.userSubscriptions.rows.map (·.amountUsed) := by
    intro w w' hsame
    rw [hsame.1]
    rfl
  exact absurd (hused _ _ hreplay.2.2) (by decide +kernel)

end MaxApi.Reservation
