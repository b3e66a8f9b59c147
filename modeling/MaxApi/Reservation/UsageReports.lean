import MaxApi.Reservation.System
import MaxApi.Reservation.UsageBounds

/-! # Sums and reports of the writers of usage

The sums that the process computes about a limited subscription stay within 64 bits, and a movement
reports the delta it has applied, unless its delta is at one of the two ends of the 64-bit range
(`Within`, `usage_law`, `usage_broken`). -/

namespace MaxApi.Reservation

open Relational MaxApi.Billing MaxApi.Subscription Int64Range

/-! ### The sums of the process -/

/-- The sums of a movement, if it finds a limited subscription with something to move. -/
def movementSums (s : Tables) (id delta : ℤ) : List ℤ :=
  match s.userSubscriptions.first? (·.id = id) with
  | none => []
  | some sub =>
      if sub.amountTotal ≤ 0 ∨ (delta ≤ 0 ∧ sub.amountUsed ≤ 0) then []
      else if 0 < delta then [sub.amountUsed + delta]
      else [-delta, -sub.amountUsed, sub.amountUsed + delta]

/-- The sums of a pre-consume about one of its candidates. -/
def reservationSums (ctx : ResetContext) (amount : ℤ) (sub : UserSubscription) : List ℤ :=
  match refresh ctx sub with
  | none => []
  | some fresh =>
      if fresh.amountTotal ≤ 0 ∨ amount ≤ 0 then []
      else if Fits amount fresh then
        [fresh.amountTotal - fresh.amountUsed, fresh.amountUsed + amount]
      else [fresh.amountTotal - fresh.amountUsed]

/-- The reservation of a request. -/
def reservationOf (s : Tables) (requestId : String) : Option SubscriptionPreConsumeRecord :=
  s.subscriptionPreConsumeRecords.first? (·.requestId = requestId)

/-- The sums of an operation about limited subscriptions. -/
def UsageOp.sums (s : Tables) : UsageOp → List ℤ
  | .preConsume req ctx | .preConsumeToken req ctx =>
      (activeSubscriptions s req.userId ctx.now).flatMap (reservationSums ctx req.amount)
  | .postConsume id delta _ => movementSums s id delta
  | .settle input _ =>
      match reservationOf s input.subscriptionPreConsumeRequestID with
      | none => []
      | some record =>
          (if input.finalizeSubscriptionPreConsume = true ∧ input.fundingDelta < 0 then
              [-input.fundingDelta]
            else []) ++
            movementSums s record.userSubscriptionId input.fundingDelta
  | .refund requestId _ =>
      match reservationOf s requestId with
      | none => []
      | some record =>
          if record.preConsumed ≤ 0 then []
          else -record.preConsumed ::
            movementSums s record.userSubscriptionId (-record.preConsumed)
  | _ => []

/-! ### The condition -/

/-- The delta keeps away from the ends of the 64-bit range, as far as the subscription needs it. -/
def MovesWithin (s : Tables) (id delta : ℤ) : Prop :=
  ∀ sub, s.userSubscriptions.first? (·.id = id) = some sub → 0 < sub.amountTotal →
    sub.amountUsed + delta ≤ maxValue ∧ (0 < sub.amountUsed → delta ≠ minValue)

/-- The condition on an operation; only movements can break it. -/
def UsageOp.Within (s : Tables) : UsageOp → Prop
  | .postConsume id delta _ => MovesWithin s id delta
  | .settle input _ =>
      ∀ record, reservationOf s input.subscriptionPreConsumeRequestID = some record →
        (input.finalizeSubscriptionPreConsume = true → input.fundingDelta ≠ minValue) ∧
          MovesWithin s record.userSubscriptionId input.fundingDelta
  | _ => True

section sums

variable {s : Tables} {id delta : ℤ}

theorem movementSums_iff (h : Bounded s) (hdelta : Representable delta) :
    (∀ x ∈ movementSums s id delta, Representable x) ↔ MovesWithin s id delta := by
  unfold movementSums MovesWithin
  cases hfirst : s.userSubscriptions.first? (·.id = id) with
  | none => exact iff_of_true (fun x hx => absurd hx List.not_mem_nil) fun _ h => nomatch h
  | some sub =>
      obtain ⟨htotal, hbounds⟩ := h.rows sub (Table.first?_mem hfirst).1
      dsimp only
      unfold Representable minValue maxValue at *
      constructor
      · intro hsums sub' hsub' hpos
        obtain rfl := Option.some.inj hsub'
        have hin := hbounds hpos
        by_cases hidle : sub.amountTotal ≤ 0 ∨ (delta ≤ 0 ∧ sub.amountUsed ≤ 0)
        · omega
        · rw [if_neg hidle] at hsums
          by_cases hcharge : 0 < delta
          · rw [if_pos hcharge] at hsums
            have hsum := hsums _ List.mem_cons_self
            omega
          · rw [if_neg hcharge] at hsums
            have hneg := hsums _ List.mem_cons_self
            omega
      · intro hwithin x hx
        by_cases hidle : sub.amountTotal ≤ 0 ∨ (delta ≤ 0 ∧ sub.amountUsed ≤ 0)
        · rw [if_pos hidle] at hx
          exact absurd hx List.not_mem_nil
        · rw [if_neg hidle] at hx
          have hin := hbounds (by omega)
          have hends := hwithin sub rfl (by omega)
          by_cases hcharge : 0 < delta
          · rw [if_pos hcharge, List.mem_singleton] at hx
            omega
          · rw [if_neg hcharge] at hx
            simp only [List.mem_cons, List.not_mem_nil, or_false] at hx
            omega

theorem reservationSums_representable {ctx : ResetContext} {amount : ℤ} {sub : UserSubscription}
    (hsub : InBounds sub) : ∀ x ∈ reservationSums ctx amount sub, Representable x := by
  intro x hx
  unfold reservationSums at hx
  cases hfresh : refresh ctx sub with
  | none =>
      rw [hfresh] at hx
      exact absurd hx List.not_mem_nil
  | some fresh =>
      have hin : InBounds fresh := by
        unfold refresh at hfresh
        obtain ⟨plan, -, hupdate⟩ := Option.bind_eq_some_iff.mp hfresh
        obtain ⟨update, -, rfl⟩ := Option.map_eq_some_iff.mp hupdate
        exact hsub.apply update
      obtain ⟨htotal, hbounds⟩ := hin
      rw [hfresh] at hx
      dsimp only at hx
      unfold Representable minValue maxValue at *
      by_cases hidle : fresh.amountTotal ≤ 0 ∨ amount ≤ 0
      · rw [if_pos hidle] at hx
        exact absurd hx List.not_mem_nil
      · rw [if_neg hidle] at hx
        have hin := hbounds (by omega)
        by_cases hfits : Fits amount fresh
        · rw [if_pos hfits] at hx
          unfold Fits at hfits
          simp only [List.mem_cons, List.not_mem_nil, or_false] at hx
          omega
        · rw [if_neg hfits, List.mem_singleton] at hx
          omega

theorem preConsumeSums_representable (h : Bounded s) (req : PreConsume) (ctx : ResetContext) :
    ∀ x ∈ (activeSubscriptions s req.userId ctx.now).flatMap (reservationSums ctx req.amount),
      Representable x := by
  intro x hx
  obtain ⟨sub, hsub, hx⟩ := List.mem_flatMap.mp hx
  have hmem := ((activeSubscriptions_candidates ctx s req.userId).2 sub hsub).1
  exact reservationSums_representable (h.rows sub hmem) x hx

/-- No sum wraps exactly under the condition. -/
theorem sums_iff (h : Bounded s) (op : UsageOp) (htyped : op.Typed) :
    (∀ x ∈ op.sums s, Representable x) ↔ op.Within s := by
  cases op with
  | preConsume req ctx => exact iff_of_true (preConsumeSums_representable h req ctx) trivial
  | preConsumeToken req ctx => exact iff_of_true (preConsumeSums_representable h req ctx) trivial
  | postConsume id delta now => exact movementSums_iff h htyped
  | settle input now =>
      unfold UsageOp.sums UsageOp.Within
      dsimp only
      cases hrecord : reservationOf s input.subscriptionPreConsumeRequestID with
      | none => exact iff_of_true (fun x hx => absurd hx List.not_mem_nil) fun _ h => nomatch h
      | some record =>
          have htyped : Representable input.fundingDelta := htyped
          dsimp only
          rw [List.forall_mem_append, movementSums_iff h htyped]
          constructor
          · rintro ⟨hneg, hmoves⟩ record' hrecord'
            obtain rfl := Option.some.inj hrecord'
            refine ⟨fun hfinal hmin => ?_, hmoves⟩
            rw [if_pos ⟨hfinal, by rw [hmin]; decide⟩] at hneg
            have hneg := hneg _ List.mem_cons_self
            rw [hmin] at hneg
            exact absurd hneg (by decide)
          · intro hwithin
            obtain ⟨hends, hmoves⟩ := hwithin record rfl
            refine ⟨fun x hx => ?_, hmoves⟩
            by_cases hfinal : input.finalizeSubscriptionPreConsume = true ∧ input.fundingDelta < 0
            · rw [if_pos hfinal, List.mem_singleton] at hx
              have hne := hends hfinal.1
              unfold Representable minValue maxValue at *
              omega
            · rw [if_neg hfinal] at hx
              exact absurd hx List.not_mem_nil
  | refund requestId now =>
      refine iff_of_true ?_ trivial
      unfold UsageOp.sums
      dsimp only
      cases hrecord : reservationOf s requestId with
      | none => exact fun x hx => absurd hx List.not_mem_nil
      | some record =>
          have hamount := h.records record (Table.first?_mem hrecord).1
          dsimp only
          split
          · exact fun x hx => absurd hx List.not_mem_nil
          · have hneg : Representable (-record.preConsumed) := by
              unfold Representable minValue maxValue at *
              omega
            rw [List.forall_mem_cons, movementSums_iff h hneg]
            refine ⟨hneg, fun sub hsub hpos => ?_⟩
            have hin := (h.rows sub (Table.first?_mem hsub).1).2 hpos
            have htotal := (h.rows sub (Table.first?_mem hsub).1).1
            unfold Representable minValue maxValue at *
            omega
  | resetDue id ctx => exact iff_of_true (fun x hx => absurd hx List.not_mem_nil) trivial
  | adminResetUser plan userId planId advanceResetTime ctx =>
      exact iff_of_true (fun x hx => absurd hx List.not_mem_nil) trivial
  | adminResetPlan plan planId advanceResetTime ctx =>
      exact iff_of_true (fun x hx => absurd hx List.not_mem_nil) trivial
  | outside tables => exact iff_of_true (fun x hx => absurd hx List.not_mem_nil) trivial

end sums

/-! ### Reports -/

/-- The subscription that a movement addresses, and its delta. -/
def UsageOp.movement (s : Tables) : UsageOp → Option (UserSubscription × ℤ)
  | .postConsume id delta _ => (s.userSubscriptions.first? (·.id = id)).map fun sub => (sub, delta)
  | .settle input _ =>
      (reservationOf s input.subscriptionPreConsumeRequestID).bind fun record =>
        (s.userSubscriptions.first? (·.id = record.userSubscriptionId)).map fun sub =>
          (sub, input.fundingDelta)
  | _ => none

/-- The usage of a subscription has moved by `applied`, and no other subscription has changed. -/
def MovedBy (s t : Tables) (sub : UserSubscription) (applied : ℤ) : Prop :=
  ∀ u ∈ t.userSubscriptions,
    if u.id = sub.id then u.amountUsed = sub.amountUsed + applied else u ∈ s.userSubscriptions

/-- A movement of a limited subscription that succeeds reports the delta after clamping, and the
usage has moved by this delta. -/
def Reports (host : Settlement.Host) (s : Tables) (op : UsageOp) : Prop :=
  ∀ applied t, op.run host s = (.ok (some applied), t) →
    ∀ sub delta, op.movement s = some (sub, delta) → 0 < sub.amountTotal →
      applied = Settlement.clampedDelta sub.amountUsed delta ∧ MovedBy s t sub applied

/-- A movement that would exceed the total of a limited subscription fails. -/
def Refuses (host : Settlement.Host) (s : Tables) (op : UsageOp) : Prop :=
  ∀ sub delta, op.movement s = some (sub, delta) → 0 < sub.amountTotal → 0 < delta →
    sub.amountTotal < sub.amountUsed + delta → ∃ e, op.run host s = (.error e, s)

section reports

variable {host : Settlement.Host} {s t : Tables} {sub : UserSubscription} {id delta now applied : ℤ}

/-- Under the condition the 64-bit movement of a limited subscription is the exact one. -/
theorem postConsume64_exec (h : Bounded s) (hdelta : Representable delta)
    (hwithin : MovesWithin s id delta) (hsub : s.userSubscriptions.first? (·.id = id) = some sub)
    (hlimited : 0 < sub.amountTotal) :
    (postConsumeUserSubscriptionDelta64Tx id delta now).exec s =
      (Settlement.postConsumeUserSubscriptionDeltaTx id delta now).exec s := by
  obtain ⟨hmem, -⟩ := Table.first?_mem hsub
  have hbounds := (h.rows sub hmem).2 hlimited
  obtain ⟨hupper, hends⟩ := hwithin sub hsub hlimited
  unfold Representable minValue maxValue at hdelta
  unfold minValue maxValue at *
  have hsum : wrap (sub.amountUsed + delta) = sub.amountUsed + delta :=
    wrap_eq (by unfold Representable minValue maxValue; omega)
  unfold postConsumeUserSubscriptionDelta64Tx Settlement.postConsumeUserSubscriptionDeltaTx
  rw [Txn.exec_bind, Txn.exec_bind, Txn.exec_get]
  dsimp only
  rw [Txn.exec_bind, Txn.exec_bind, hsub]
  unfold Txn.orThrow
  rw [Txn.exec_pure]
  dsimp only
  rw [hsum]
  by_cases hidle : delta ≤ 0 ∧ sub.amountUsed ≤ 0
  · have hcharge : ¬0 < delta := Int.not_lt.mpr hidle.1
    rw [if_neg hcharge, if_neg hcharge, if_pos hidle.2, if_pos hidle.2]
  · have hneg : ¬0 < delta → wrap (-delta) = -delta := fun hneg =>
      wrap_eq (by unfold Representable minValue maxValue; omega)
    have hused : wrap (-sub.amountUsed) = -sub.amountUsed := by
      have htotal := (h.rows sub hmem).1
      unfold Representable minValue maxValue at htotal
      exact wrap_eq (by unfold Representable minValue maxValue; omega)
    by_cases hcharge : 0 < delta
    · rw [if_pos hcharge, if_pos hcharge]
    · rw [if_neg hcharge, if_neg hcharge, hneg hcharge, hused]

theorem moved_of_moveSubscription (hsub : sub ∈ s.userSubscriptions) :
    MovedBy s (Settlement.moveSubscriptionIfAny s sub.id delta now) sub delta := by
  intro u hu
  unfold Settlement.moveSubscriptionIfAny Settlement.moveSubscription at hu
  split at hu
  · next hzero =>
    split
    · next hid =>
      rw [Table.eq_of_clash hu hsub hid, hzero, Int.add_zero]
    · exact hu
  · obtain ⟨v, hv, rfl⟩ := Table.mem_update.mp hu
    by_cases hid : v.id = sub.id
    · rw [if_pos hid, if_pos hid, Table.eq_of_clash hv hsub hid]
    · rw [if_neg hid, if_neg hid]
      exact hv

/-- What a successful movement of a limited subscription reports and does. -/
theorem postConsume64_ok (h : Bounded s) (hdelta : Representable delta)
    (hwithin : MovesWithin s id delta) (hsub : s.userSubscriptions.first? (·.id = id) = some sub)
    (hlimited : 0 < sub.amountTotal) (hne : delta ≠ 0)
    (hok : (postConsumeUserSubscriptionDelta64Tx id delta now).Ok s applied t) :
    applied = Settlement.clampedDelta sub.amountUsed delta ∧ MovedBy s t sub applied := by
  unfold Txn.Ok at hok
  rw [postConsume64_exec h hdelta hwithin hsub hlimited] at hok
  obtain ⟨row, hrow, hid, happlied, -, rfl⟩ :=
    Settlement.postConsumeUserSubscriptionDeltaTx_ok hne hok
  obtain ⟨hmem, hsubid⟩ := Table.first?_mem hsub
  obtain rfl := Table.eq_of_clash hrow hmem (hid.trans hsubid.symm)
  rw [← hid]
  exact ⟨happlied, moved_of_moveSubscription hrow⟩

/-- The guard of the update holds for whatever has been charged. -/
theorem postConsume64_fits (now : ℤ) (hsub : s.userSubscriptions.first? (·.id = id) = some sub)
    (hlimited : 0 < sub.amountTotal) (hcharge : 0 < delta) :
    Txn.Post (postConsumeUserSubscriptionDelta64Tx id delta now)
      (fun _ _ => sub.amountUsed + delta ≤ sub.amountTotal) s := by
  obtain ⟨hmem, hid⟩ := Table.first?_mem hsub
  unfold postConsumeUserSubscriptionDelta64Tx
  refine Txn.post_get (Txn.post_bind (Txn.post_orThrow fun row hrow => ?_))
  obtain rfl := Option.some.inj (hsub.symm.trans hrow)
  refine Txn.post_ite (fun _ => ?_) fun hno => absurd hcharge hno
  refine Txn.post_bind (Txn.post_require fun _ =>
    Txn.post_bind (Txn.post_require fun haffected => ?_))
  obtain ⟨u, hu, ⟨huid, hguard⟩, -⟩ := Table.exists_of_affected_eq_one haffected
  obtain rfl := Table.eq_of_clash hu hmem (huid.trans hid.symm)
  exact Txn.post_bind (Txn.post_modify (Txn.post_pure (hguard hlimited)))

/-- A settlement that succeeds has moved nothing, or what its movement has moved. -/
theorem settle_ok {input : Settlement.BillingSettlementInput}
    (hok : (applySubscriptionDelta64Tx input now).Ok s applied t) :
    ∃ record, reservationOf s input.subscriptionPreConsumeRequestID = some record ∧
      ((input.fundingDelta = 0 ∧ applied = 0 ∧ t = s) ∨
        (input.fundingDelta ≠ 0 ∧ ∃ u,
          (postConsumeUserSubscriptionDelta64Tx record.userSubscriptionId input.fundingDelta now).Ok
            s applied u ∧ t.userSubscriptions = u.userSubscriptions)) := by
  simp only [applySubscriptionDelta64Tx, Txn.ok_bind, Txn.ok_require, Txn.ok_get, Txn.ok_orThrow,
    Txn.ok_ofExcept] at hok
  obtain ⟨_, _, ⟨_, rfl⟩, _, _, ⟨rfl, rfl⟩, record, _, ⟨hrecord, rfl⟩, _, _, ⟨_, rfl⟩, _, _,
    ⟨_, rfl⟩, _, _, ⟨_, rfl⟩, sub, _, ⟨_, rfl⟩, _, _, ⟨_, rfl⟩, _, _, ⟨_, rfl⟩, hok⟩ := hok
  refine ⟨record, hrecord, ?_⟩
  rw [Txn.ok_ite] at hok
  rcases hok with ⟨hzero, hok⟩ | ⟨hne, hok⟩
  · obtain ⟨rfl, rfl⟩ := Txn.ok_pure.mp hok
    exact .inl ⟨hzero, rfl, rfl⟩
  · simp only [Txn.ok_bind, Txn.ok_require, Txn.ok_pure, Settlement.markQuotaErrorPermanent,
      Txn.ok_mapError] at hok
    obtain ⟨_, _, ⟨_, rfl⟩, a, u, hmoved, _, _, ⟨_, rfl⟩, _, _, hfinal, rfl, rfl⟩ := hok
    refine .inr ⟨hne, u, hmoved, ?_⟩
    rw [Settlement.finalizeSubscriptionPreConsumeRecord_ok hfinal]
    split <;> rfl

/-- A step that does not commit changes nothing. -/
theorem run_error {op : UsageOp} {e : Failure} (h : (op.run host s).1 = .error e) :
    usageStep host s op = s := by
  unfold usageStep UsageOp.run at *
  rcases transaction_cases (op.act host) s with ⟨a, t, -, heq⟩ | ⟨e', heq⟩
  · rw [heq] at h
    exact nomatch h
  · rw [heq]

theorem run_ok {op : UsageOp} {report : Option ℤ} (h : op.run host s = (.ok report, t)) :
    (op.act host).Ok s report t := by
  unfold UsageOp.run at h
  rcases transaction_cases (op.act host) s with ⟨a, u, hok, heq⟩ | ⟨e, heq⟩
  · rw [heq] at h
    obtain ⟨hreport, rfl⟩ := Prod.mk.inj h
    obtain rfl := Except.ok.inj hreport
    exact hok
  · rw [heq] at h
    exact nomatch (Prod.mk.inj h).1

theorem movedBy_zero (hsub : sub ∈ s.userSubscriptions) : MovedBy s s sub 0 := by
  intro u hu
  split
  · next hid =>
    rw [Table.eq_of_clash hu hsub hid, Int.add_zero]
  · exact hu

/-- What a movement that succeeds comes down to. -/
theorem movement_ok {op : UsageOp} (hmovement : op.movement s = some (sub, delta))
    (hok : (op.act host).Ok s (some applied) t) :
    ∃ id now, s.userSubscriptions.first? (·.id = id) = some sub ∧
      (op.Typed → Representable delta) ∧ (op.Within s → MovesWithin s id delta) ∧
      ((delta = 0 ∧ applied = 0 ∧ t = s) ∨
        (delta ≠ 0 ∧ ∃ u, (postConsumeUserSubscriptionDelta64Tx id delta now).Ok s applied u ∧
          t.userSubscriptions = u.userSubscriptions)) := by
  cases op with
  | postConsume id delta' now =>
      obtain ⟨row, hrow, heq⟩ := Option.map_eq_some_iff.mp hmovement
      obtain ⟨rfl, rfl⟩ := Prod.mk.inj heq
      refine ⟨id, now, hrow, fun h => h, fun h => h, ?_⟩
      simp only [UsageOp.act, postConsumeUserSubscriptionDelta, Txn.ok_bind, Txn.ok_require,
        Txn.ok_ite, Txn.ok_pure, Option.some.injEq] at hok
      obtain ⟨a, u, ⟨_, _, ⟨-, rfl⟩, ⟨hzero, rfl, rfl⟩ | ⟨hne, hmoved⟩⟩, rfl, rfl⟩ := hok
      · exact .inl ⟨hzero, rfl, rfl⟩
      · exact .inr ⟨hne, u, hmoved, rfl⟩
  | settle input now =>
      obtain ⟨record, hrecord, hsub⟩ := Option.bind_eq_some_iff.mp hmovement
      obtain ⟨row, hrow, heq⟩ := Option.map_eq_some_iff.mp hsub
      obtain ⟨rfl, rfl⟩ := Prod.mk.inj heq
      refine ⟨record.userSubscriptionId, now, hrow, fun h => h, fun h => (h record hrecord).2, ?_⟩
      simp only [UsageOp.act, Txn.ok_bind, Txn.ok_pure, Option.some.injEq] at hok
      obtain ⟨a, u, hsettled, rfl, rfl⟩ := hok
      obtain ⟨record', hrecord', hcases⟩ := settle_ok hsettled
      obtain rfl := Option.some.inj (hrecord.symm.trans hrecord')
      exact hcases
  | preConsume | preConsumeToken | refund | resetDue | adminResetUser | adminResetPlan | outside =>
      cases hmovement

theorem reports_of_within (h : Bounded s) {op : UsageOp} (htyped : op.Typed)
    (hwithin : op.Within s) : Reports host s op := by
  intro applied t hrun sub delta hmovement hlimited
  obtain ⟨id, now, hsub, hdelta, hmoves, hcases⟩ := movement_ok hmovement (run_ok hrun)
  rcases hcases with ⟨rfl, rfl, rfl⟩ | ⟨hne, u, hok, hrows⟩
  · exact ⟨(Settlement.clampedDelta_zero sub.amountUsed).symm,
      movedBy_zero (Table.first?_mem hsub).1⟩
  · obtain ⟨happlied, hmoved⟩ :=
      postConsume64_ok h (hdelta htyped) (hmoves hwithin) hsub hlimited hne hok
    refine ⟨happlied, fun v hv => hmoved v ?_⟩
    rwa [← hrows]

theorem refuses (op : UsageOp) : Refuses host s op := by
  intro sub delta hmovement hlimited hcharge hexceeds
  have hnot : ∀ applied t, ¬(op.act host).Ok s (some applied) t := by
    intro applied t hok
    obtain ⟨id, now, hsub, -, -, hcases⟩ := movement_ok hmovement hok
    rcases hcases with ⟨hzero, -⟩ | ⟨-, u, hmoved, -⟩
    · omega
    · have hfits := postConsume64_fits now hsub hlimited hcharge applied u hmoved
      omega
  unfold UsageOp.run
  rcases transaction_cases (op.act host) s with ⟨report, t, hok, -⟩ | herror
  · cases report with
    | some applied => exact absurd hok (hnot applied t)
    | none =>
        -- a movement always reports
        cases op with
        | postConsume | settle =>
            simp only [UsageOp.act, Txn.ok_bind, Txn.ok_pure, reduceCtorEq, false_and, and_false,
              exists_false] at hok
        | preConsume | preConsumeToken | refund | resetDue | adminResetUser | adminResetPlan
        | outside => cases hmovement
  · exact herror

end reports

/-! ### Main result -/

/-- **Main.** In every run of the writers of usage the limited subscriptions stay in bounds, a
failing operation changes nothing, and so does a movement that would exceed the total.  No sum
wraps, and a movement reports the delta it has applied, exactly under the condition. -/
theorem usage_law (host : Settlement.Host) (s : Tables) (hs : Bounded s) (ops : List UsageOp)
    (hops : ∀ op ∈ ops, op.Typed) :
    let t := Transition.run (usageStep host) s ops
    Bounded t ∧ ∀ op : UsageOp, op.Typed →
      (∀ e, (op.run host t).1 = .error e → usageStep host t op = t) ∧ Refuses host t op ∧
        (((∀ x ∈ op.sums t, Representable x) ∧ Reports host t op) ↔ op.Within t) := by
  intro t
  have ht : Bounded t := usage_runs_bounded ops hops hs
  refine ⟨ht, fun op htyped => ⟨fun e => run_error, refuses op, ?_⟩⟩
  rw [sums_iff ht op htyped]
  exact ⟨And.left, fun hwithin => ⟨hwithin, reports_of_within ht htyped hwithin⟩⟩

/-- A subscription with some usage. -/
def usedSubscription : UserSubscription := { steadySubscription with amountUsed := 1 }

def usedTables : Tables :=
  { Tables.empty with
    userSubscriptions := ⟨[usedSubscription], List.pairwise_singleton _ _⟩ }

theorem usedTables_bounded : Bounded usedTables := by
  refine ⟨fun u hu => ?_, fun r hr => absurd hr List.not_mem_nil⟩
  rw [List.mem_singleton.mp hu]
  exact ⟨by decide, fun _ => by decide⟩

theorem usage_law_used :
    Bounded (Transition.run (usageStep plainEnvironment.host) usedTables
      [.postConsume 1 50 2000, .postConsume 1 (-70) 2001]) :=
  (usage_law plainEnvironment.host usedTables usedTables_bounded
    [.postConsume 1 50 2000, .postConsume 1 (-70) 2001] fun op hop => by
      rcases List.mem_cons.mp hop with rfl | hop
      · exact (by decide : Representable 50)
      · rw [List.mem_singleton.mp hop]
        exact (by decide : Representable (-70))).1

/-- The smallest 64-bit delta clears a usage of 1 and reports itself; the largest one makes the sum
wrap. -/
theorem usage_broken :
    ¬Reports plainEnvironment.host usedTables (.postConsume 1 minValue 2000) ∧
      ¬∀ x ∈ (UsageOp.postConsume 1 maxValue 2000).sums usedTables, Representable x := by
  constructor
  · intro h
    have hreport : ((UsageOp.postConsume 1 minValue 2000).run plainEnvironment.host usedTables).1 =
        .ok (some minValue) := by decide +kernel
    obtain ⟨happlied, -⟩ := h minValue _ (Prod.ext hreport rfl) usedSubscription minValue rfl
      (by decide)
    exact absurd happlied (by decide)
  · intro h
    exact absurd (h _ List.mem_cons_self) (by decide)

end MaxApi.Reservation
