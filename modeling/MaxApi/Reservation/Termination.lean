import MaxApi.Reservation.Maintenance

/-! # Termination of the maintenance

The catch-up loop makes progress and ends for exactly the plans whose periods go forward
(`catchesUp_iff`).  A batch takes from the queue of due rows those that it moves
(`resetDueSubscriptions_exec`), so the loop over the batches drains that queue. -/

namespace MaxApi.Reservation

open Relational MaxApi.Billing MaxApi.Subscription

variable {ctx : ResetContext} {cal : Calendar} {plan : SubscriptionPlan}

/-! ### The catch-up loop -/

/-- A start of a period that is not beyond the end of the subscription. -/
theorem lt_of_clip {base next endTime : ℤ} (hforward : 0 < next → base < next)
    (h : 0 < if 0 < endTime ∧ endTime < next then 0 else next) :
    base < if 0 < endTime ∧ endTime < next then 0 else next := by
  by_cases hbeyond : 0 < endTime ∧ endTime < next
  · rw [if_pos hbeyond] at h
    omega
  · rw [if_neg hbeyond] at h ⊢
    exact hforward h

theorem Forward.lt (hf : Forward cal plan) {base endTime : ℤ}
    (h : 0 < calcNextResetTime cal base plan endTime) :
    base < calcNextResetTime cal base plan endTime := by
  unfold calcNextResetTime at h ⊢
  unfold Forward at hf
  cases hperiod : normalizeResetPeriod plan.quotaResetPeriod with
  | never =>
      rw [hperiod] at h
      exact absurd h (Int.lt_irrefl 0)
  | daily =>
      rw [hperiod] at hf h
      exact lt_of_clip (hf base) h
  | weekly =>
      rw [hperiod] at hf h
      exact lt_of_clip (hf base) h
  | monthly =>
      rw [hperiod] at hf h
      exact lt_of_clip (hf base) h
  | custom =>
      rw [hperiod] at hf h
      dsimp only at hf h ⊢
      by_cases hseconds : plan.quotaResetCustomSeconds ≤ 0
      · rw [if_pos hseconds] at h
        omega
      · rw [if_neg hseconds] at h ⊢
        have hnano := hf (by omega)
        refine lt_of_clip (fun _ => ?_) h
        unfold addDuration
        rw [one_mul]
        omega

/-- The periods of a plan go forward if no iteration of a catch-up goes back. -/
theorem forward_of_lt (h : ∀ (ctx : ResetContext) (base : ℤ), ctx.cal = cal →
    Overdue ctx plan 0 base → base < calcNextResetTime cal base plan 0) : Forward cal plan := by
  -- the time at which the period that starts at `base` has just ended
  have hlt : ∀ base, 0 < calcNextResetTime cal base plan 0 →
      base < calcNextResetTime cal base plan 0 := fun base hpos =>
    h ⟨cal, fun _ => none, calcNextResetTime cal base plan 0, 0, 0⟩ base rfl ⟨hpos, le_refl _⟩
  unfold Forward
  unfold calcNextResetTime at hlt
  cases hperiod : normalizeResetPeriod plan.quotaResetPeriod with
  | never => trivial
  | daily =>
      rw [hperiod] at hlt
      exact fun t ht => hlt t ht
  | weekly =>
      rw [hperiod] at hlt
      exact fun t ht => hlt t ht
  | monthly =>
      rw [hperiod] at hlt
      exact fun t ht => hlt t ht
  | custom =>
      rw [hperiod] at hlt
      intro hseconds
      by_contra hnano
      -- from this base the period ends at 1
      have hnext := hlt (1 - Int.bmod (plan.quotaResetCustomSeconds * 1000000000) (2 ^ 64) /
        1000000000)
      dsimp only at hnext
      rw [if_neg (by omega)] at hnext
      unfold addDuration at hnext
      rw [one_mul] at hnext
      simp only [lt_self_iff_false, false_and, if_false] at hnext
      omega

/-- The catch-up loop makes progress and ends exactly when the periods go forward. -/
theorem catchesUp_iff : CatchesUp cal plan ↔ Forward cal plan := by
  constructor
  · intro h
    exact forward_of_lt fun ctx base hcal hover => (h ctx 0 base hcal).1 hover
  · rintro hf ctx endTime base rfl
    exact ⟨fun hover => hf.lt hover.1, _,
      catchUp_isSome (fun t ht => hf.lt ht) ((ctx.now - base).toNat + 1) base (by omega)⟩

theorem catchUp_exit {endTime : ℤ} {p : ℤ × ℤ} :
    ∀ {fuel : ℕ} {base next : ℤ}, catchUp ctx plan endTime fuel base next = some p →
      ¬ (0 < p.2 ∧ p.2 ≤ ctx.now)
  | 0, _, _, h => by simp [catchUp] at h
  | fuel + 1, base, next, h => by
      unfold catchUp at h
      split at h
      · exact catchUp_exit h
      · next hexit =>
        obtain rfl := Option.some.inj h
        exact hexit

/-! ### One row -/

section row

variable {s s' : Tables} {sub : UserSubscription}

/-- What the reset of a due row finds out about its period. -/
theorem periodUpdate_due (h : isDue ctx.now sub) :
    periodUpdate ctx plan sub = if Stuck ctx plan sub then some .keep else
      (catchUp ctx plan sub.endTime ctx.fuel
        (calcNextResetTime ctx.cal (periodBase sub) plan sub.endTime)
        (calcNextResetTime ctx.cal (calcNextResetTime ctx.cal (periodBase sub) plan sub.endTime)
          plan sub.endTime)).map fun p => .restart p.1 p.2 := by
  obtain ⟨hpos, hle, _⟩ := h
  unfold periodUpdate
  dsimp only
  rw [if_neg (by omega)]
  by_cases hnever : normalizeResetPeriod plan.quotaResetPeriod = .never
  · rw [if_pos hnever, if_pos (show Stuck ctx plan sub from .inl hnever)]
  · rw [if_neg hnever]
    by_cases hover : Overdue ctx plan sub.endTime (periodBase sub)
    · rw [if_neg (show ¬ Stuck ctx plan sub from not_or.mpr ⟨hnever, not_not.mpr hover⟩)]
      exact if_pos hover
    · rw [if_pos (show Stuck ctx plan sub from .inr hover)]
      refine (if_neg hover).trans (if_neg ?_)
      omega

/-- The catch-up loops of the rows that a batch moves end. -/
def Settles (ctx : ResetContext) (sub : UserSubscription) : Prop :=
  ∀ plan, planFor ctx sub = some plan → ¬ Stuck ctx plan sub →
    (periodUpdate ctx plan sub).isSome

/-- The rows that are due, in the order of the table. -/
def dueRows (now : ℤ) (s : Tables) : List UserSubscription :=
  s.userSubscriptions.rows.filter fun sub => decide (isDue now sub)

theorem mem_dueRows {now : ℤ} :
    sub ∈ dueRows now s ↔ sub ∈ s.userSubscriptions ∧ isDue now sub := by
  unfold dueRows
  rw [List.mem_filter, decide_eq_true_iff]
  exact Iff.rfl

/-- A row that is saved with the end of a later period is due no more; the other rows stay. -/
theorem dueRows_save {now t : ℤ} {updated : UserSubscription} (hsub : sub ∈ dueRows now s)
    (hid : updated.id = sub.id) (hnot : ¬ (0 < updated.nextResetTime ∧
      updated.nextResetTime ≤ now)) :
    dueRows now (saveSubscription updated t s) = (dueRows now s).filter fun u => u ≠ sub := by
  obtain ⟨hmem, hdue⟩ := mem_dueRows.mp hsub
  have hsingle : ∀ u ∈ s.userSubscriptions, u.id = updated.id → u = sub := fun u hu h =>
    Table.eq_of_clash hu hmem (h.trans hid)
  obtain ⟨l, l', hrows, hrows'⟩ : ∃ l l', s.userSubscriptions.rows = l ++ sub :: l' ∧
      (saveSubscription updated t s).userSubscriptions.rows =
        l ++ { updated with id := sub.id, updatedAt := t } :: l' :=
    Table.rows_update_single hmem hid.symm hsingle
  have hnodup := s.userSubscriptions.nodup
  rw [hrows, List.nodup_middle, List.nodup_cons] at hnodup
  have hkeep : ∀ k : List UserSubscription, (∀ u ∈ k, u ∈ l ++ l') →
      ((k.filter fun u => decide (isDue now u)).filter fun u => decide (u ≠ sub)) =
        k.filter fun u => decide (isDue now u) := by
    intro k hk
    rw [List.filter_eq_self]
    intro u hu
    rw [decide_eq_true_iff]
    intro heq
    rw [← heq] at hnodup
    exact hnodup.1 (hk u (List.mem_of_mem_filter hu))
  have hgone : decide (isDue now { updated with id := sub.id, updatedAt := t }) = false :=
    decide_eq_false fun h => hnot ⟨h.1, h.2.1⟩
  unfold dueRows
  rw [hrows', hrows, List.filter_append, List.filter_append, List.filter_append, List.filter_cons,
    hgone, List.filter_cons, if_pos (decide_eq_true hdue), List.filter_cons,
    hkeep l fun u hu => List.mem_append_left _ hu, hkeep l' fun u hu => List.mem_append_right _ hu]
  simp

/-- A batch takes a due row out of the queue if it moves it. -/
theorem resetRow_exec (hsub : sub ∈ dueRows ctx.now s) (hsettles : Settles ctx sub) :
    ∃ s', (resetRow ctx sub).exec s = (.ok (if counts ctx sub then 1 else 0), s') ∧
      dueRows ctx.now s' = (dueRows ctx.now s).filter fun u => ¬ (u = sub ∧ moves ctx sub) := by
  obtain ⟨hmem, hdue⟩ := mem_dueRows.mp hsub
  cases hplan : planFor ctx sub with
  | none =>
      refine ⟨s, ?_, ?_⟩
      · unfold resetRow counts
        rw [hplan]
        rfl
      · unfold moves
        rw [hplan]
        simp
  | some plan =>
      have hfirst : s.userSubscriptions.first? (fun u => u.id = sub.id ∧ 0 < u.nextResetTime ∧
          u.nextResetTime ≤ ctx.now) = some sub :=
        Table.first?_eq_some hmem ⟨rfl, hdue.1, hdue.2.1⟩ fun u hu h =>
          Table.eq_of_clash hu hmem h.1
      have hrow : ∀ {s'}, (∃ update, (maybeResetUserSubscriptionWithPlanTx ctx plan sub).Ok s
          update s') → (resetRow ctx sub).exec s = (.ok (if counts ctx sub then 1 else 0), s') := by
        rintro s' ⟨update, hok⟩
        have htx : (resetLockedTx ctx plan sub.id).Ok s true s' := by
          unfold resetLockedTx
          refine Txn.ok_bind.mpr ⟨s, s, Txn.ok_get.mpr ⟨rfl, rfl⟩, ?_⟩
          rw [hfirst]
          exact Txn.ok_bind.mpr ⟨update, s', hok, Txn.ok_pure.mpr ⟨rfl, rfl⟩⟩
        unfold resetRow counts
        rw [hplan]
        show Txn.exec (bind _ _) s = _
        rw [Txn.exec_bind, show Txn.exec (transaction (resetLockedTx ctx plan sub.id)) s =
          (.ok true, s') from transaction_of_ok htx]
        rfl
      by_cases hstuck : Stuck ctx plan sub
      · refine ⟨s, hrow ⟨.keep, maybeResetUserSubscriptionWithPlanTx_ok.mpr ⟨?_, rfl⟩⟩, ?_⟩
        · rw [periodUpdate_due hdue, if_pos hstuck]
        · unfold moves
          rw [hplan]
          simp [hstuck]
      · obtain ⟨update, hupdate⟩ := Option.isSome_iff_exists.mp (hsettles plan hplan hstuck)
        have hcatch := hupdate
        rw [periodUpdate_due hdue, if_neg hstuck, Option.map_eq_some_iff] at hcatch
        obtain ⟨p, hp, rfl⟩ := hcatch
        have hnot : ¬ (0 < (PeriodUpdate.apply (.restart p.1 p.2) sub).nextResetTime ∧
            (PeriodUpdate.apply (.restart p.1 p.2) sub).nextResetTime ≤ ctx.now) :=
          catchUp_exit hp
        refine ⟨_, hrow ⟨_, maybeResetUserSubscriptionWithPlanTx_ok.mpr ⟨hupdate, rfl⟩⟩, ?_⟩
        rw [if_neg (fun h => nomatch h), dueRows_save hsub (PeriodUpdate.apply_id _ _) hnot]
        unfold moves
        rw [hplan]
        simp [hstuck]

/-- A batch takes the rows that it moves out of the queue, and counts those with a plan. -/
theorem resetRows_exec : ∀ {subs : List UserSubscription} {s : Tables},
    (∀ sub ∈ subs, sub ∈ dueRows ctx.now s) → subs.Nodup → (∀ sub ∈ subs, Settles ctx sub) →
      ∃ s', (resetRows ctx subs).exec s = (.ok (subs.countP (counts ctx)), s') ∧
        dueRows ctx.now s' = (dueRows ctx.now s).filter fun u => ¬ (u ∈ subs ∧ moves ctx u)
  | [], s, _, _, _ => ⟨s, rfl, by simp⟩
  | sub :: subs, s, hmem, hnodup, hsettles => by
      obtain ⟨hnot, hnodup⟩ := List.nodup_cons.mp hnodup
      obtain ⟨t, ht, hrows⟩ := resetRow_exec (hmem sub List.mem_cons_self)
        (hsettles sub List.mem_cons_self)
      have hstay : ∀ u ∈ subs, u ∈ dueRows ctx.now t := by
        intro u hu
        rw [hrows, List.mem_filter]
        refine ⟨hmem u (List.mem_cons_of_mem _ hu), decide_eq_true ?_⟩
        rintro ⟨rfl, _⟩
        exact hnot hu
      obtain ⟨s', hs', hrows'⟩ := resetRows_exec hstay hnodup fun u hu =>
        hsettles u (List.mem_cons_of_mem _ hu)
      refine ⟨s', ?_, ?_⟩
      · unfold resetRows
        rw [Txn.exec_bind, ht]
        dsimp only
        rw [Txn.exec_bind, hs', List.countP_cons]
        dsimp only
        rw [Txn.exec_pure, Nat.add_comm]
      · rw [hrows', hrows, List.filter_filter]
        refine List.filter_congr fun u _ => ?_
        by_cases hu : u = sub
        · subst hu
          simp [hnot]
        · simp [hu]

end row

/-! ### The loop over the batches -/

section loop

variable {s : Tables} {limit : ℤ}

theorem dueSubscriptions_eq (now : ℤ) (s : Tables) :
    dueSubscriptions now s = (dueRows now s).insertionSort resetsBefore := rfl

theorem nodup_dueSubscriptions (now : ℤ) (s : Tables) : (dueSubscriptions now s).Nodup := by
  rw [dueSubscriptions_eq, (List.perm_insertionSort _ _).nodup_iff]
  exact s.userSubscriptions.nodup.filter _

instance : IsTrans UserSubscription resetsBefore := ⟨fun _ _ _ => Int.le_trans⟩

instance : Std.Total resetsBefore := ⟨fun a b => Int.le_total a.nextResetTime b.nextResetTime⟩

/-- A batch counts the rows that have a plan, and leaves the queue without the rows it moved. -/
theorem resetDueSubscriptions_exec (limit : ℤ) (hsettles : ∀ sub ∈ dueSubscriptions ctx.now s,
    Settles ctx sub) :
    ∃ s', (resetDueSubscriptions ctx limit).exec s = (.ok (Batches.count (counts ctx)
        (batchLimit limit) (dueSubscriptions ctx.now s)), s') ∧
      dueSubscriptions ctx.now s' = Batches.rest (moves ctx) (batchLimit limit)
        (dueSubscriptions ctx.now s) := by
  have hnodup := nodup_dueSubscriptions ctx.now s
  have hdue : ∀ sub ∈ (dueSubscriptions ctx.now s).take (batchLimit limit),
      sub ∈ dueRows ctx.now s := fun sub hsub =>
    (List.mem_insertionSort _).mp (List.mem_of_mem_take hsub)
  obtain ⟨s', hs', hrows⟩ := resetRows_exec hdue (hnodup.sublist (List.take_sublist _ _))
    fun sub hsub => hsettles sub (List.mem_of_mem_take hsub)
  refine ⟨s', hs', ?_⟩
  rw [dueSubscriptions_eq, hrows, ← Batches.filter_insertionSort, ← dueSubscriptions_eq]
  exact Batches.filter_eq_rest hnodup

/-- The rows that a batch leaves in the queue were there before. -/
theorem mem_rest {sub : UserSubscription} {q : List UserSubscription} {n : ℕ}
    (h : sub ∈ Batches.rest (moves ctx) n q) : sub ∈ q := by
  unfold Batches.rest at h
  rcases List.mem_append.mp h with h | h
  · exact List.mem_of_mem_take (List.mem_of_mem_filter h)
  · exact List.mem_of_mem_drop h

theorem batchLimit_pos (limit : ℤ) : 0 < batchLimit limit := by
  unfold batchLimit
  split
  · omega
  · omega

/-- The loop over the batches drains the queue of due rows. -/
theorem resetLoop_isSome {rounds : ℕ} (hsettles : ∀ sub ∈ dueSubscriptions ctx.now s,
    Settles ctx sub) :
    (resetLoop ctx limit rounds s).isSome ↔ Batches.Ends (counts ctx) (moves ctx)
      (batchLimit limit) rounds (dueSubscriptions ctx.now s) := by
  induction rounds generalizing s with
  | zero => simp [resetLoop, Batches.Ends]
  | succ rounds ih =>
      obtain ⟨s', hexec, hrest⟩ := resetDueSubscriptions_exec limit hsettles
      have hpos := batchLimit_pos limit
      unfold resetLoop Batches.Ends
      rw [hexec]
      dsimp only
      by_cases hzero : Batches.count (counts ctx) (batchLimit limit)
          (dueSubscriptions ctx.now s) = 0
      · rw [if_pos hzero]
        simp [hzero, hpos]
      · rw [if_neg hzero]
        by_cases hlt : Batches.count (counts ctx) (batchLimit limit)
            (dueSubscriptions ctx.now s) < batchLimit limit
        · rw [if_pos hlt]
          simp [hlt]
        · rw [if_neg hlt, ih (by rw [hrest]; exact fun sub hsub => hsettles sub (mem_rest hsub)),
            hrest, or_iff_right hlt]

theorem moves_counts {sub : UserSubscription} (h : moves ctx sub) : counts ctx sub := by
  unfold moves at h
  unfold counts
  cases hplan : planFor ctx sub with
  | none => simp [hplan] at h
  | some plan => rfl

/-- The loop ends unless the queue is blocked. -/
theorem exists_resetLoop_iff (hsettles : ∀ sub ∈ dueSubscriptions ctx.now s, Settles ctx sub) :
    (∃ rounds, (resetLoop ctx limit rounds s).isSome) ↔ ¬ Blocked ctx limit s := by
  unfold Blocked
  rw [← Batches.exists_ends_iff fun sub _ => moves_counts]
  constructor
  · rintro ⟨rounds, h⟩
    exact ⟨rounds, (resetLoop_isSome hsettles).mp h⟩
  · rintro ⟨rounds, h⟩
    exact ⟨rounds, (resetLoop_isSome hsettles).mpr h⟩

end loop

/-! ### The maintenance -/

/-- The same context for longer catch-up loops. -/
def ResetContext.withFuel (ctx : ResetContext) (fuel : ℕ) : ResetContext :=
  { ctx with fuel := fuel }

/-- The periods of the plans that the rows have go forward. -/
def ForwardPlans (ctx : ResetContext) : Prop :=
  ∀ sub plan, planFor ctx sub = some plan → Forward ctx.cal plan

theorem settles_of_forward {ctx : ResetContext} (hf : ForwardPlans ctx) {sub : UserSubscription}
    (hdue : isDue ctx.now sub) (hfuel : (ctx.now - periodBase sub).toNat < ctx.fuel) :
    Settles ctx sub := by
  intro plan hplan hstuck
  have hover : Overdue ctx plan sub.endTime (periodBase sub) := by
    by_contra hnot
    exact hstuck (.inr hnot)
  have hlt := (hf sub plan hplan).lt hover.1
  rw [periodUpdate_due hdue, if_neg hstuck, Option.isSome_map]
  exact catchUp_isSome (fun t ht => (hf sub plan hplan).lt ht) ctx.fuel _ (by omega)

/-- Catch-up loops that are long enough for all rows. -/
theorem exists_fuel (now : ℤ) (subs : List UserSubscription) :
    ∃ fuel, ∀ sub ∈ subs, (now - periodBase sub).toNat < fuel := by
  induction subs with
  | nil => exact ⟨0, fun _ h => absurd h List.not_mem_nil⟩
  | cons sub subs ih =>
      obtain ⟨fuel, hfuel⟩ := ih
      refine ⟨fuel + (now - periodBase sub).toNat + 1, fun u hu => ?_⟩
      rcases List.mem_cons.mp hu with rfl | hu
      · omega
      · have := hfuel u hu
        omega

/-- With catch-up loops that are long enough, the rows of a table settle. -/
theorem exists_settles (hf : ForwardPlans ctx) (s : Tables) :
    ∃ fuel₀, ∀ fuel, fuel₀ ≤ fuel → ∀ sub ∈ dueSubscriptions (ctx.withFuel fuel).now s,
      Settles (ctx.withFuel fuel) sub := by
  obtain ⟨fuel₀, hfuel⟩ := exists_fuel ctx.now (dueSubscriptions ctx.now s)
  refine ⟨fuel₀, fun fuel hle sub hsub => ?_⟩
  have hdue := (mem_dueRows.mp ((List.mem_insertionSort _).mp hsub)).2
  have hlt := hfuel sub hsub
  exact settles_of_forward (show ForwardPlans (ctx.withFuel fuel) from hf) hdue
    (Nat.lt_of_lt_of_le hlt hle)

theorem blocked_withFuel (ctx : ResetContext) (fuel : ℕ) (limit : ℤ) (s : Tables) :
    Blocked (ctx.withFuel fuel) limit s ↔ Blocked ctx limit s := Iff.rfl

/-- The maintenance of a table terminates: each catch-up loop makes progress and ends, and so does
the loop over the batches, once the catch-up loops are allowed to end. -/
def Terminates (ctx : ResetContext) (limit : ℤ) (s : Tables) : Prop :=
  (∀ sub plan, planFor ctx sub = some plan → CatchesUp ctx.cal plan) ∧
    ∃ fuel₀, ∀ fuel, fuel₀ ≤ fuel →
      ∃ rounds, (resetLoop (ctx.withFuel fuel) limit rounds s).isSome

/-- **Main.** The maintenance terminates exactly when the periods of the plans go forward and the
rows that stay due do not block the batches.  A batch that returns its limit makes fewer rows due
exactly when it moves one of its rows. -/
theorem maintenance_terminates (ctx : ResetContext) (limit : ℤ) (s : Tables) :
    (Terminates ctx limit s ↔ ForwardPlans ctx ∧ ¬ Blocked ctx limit s) ∧
      (ForwardPlans ctx → ∃ fuel₀, ∀ fuel, fuel₀ ≤ fuel → ∀ n s',
        (resetDueSubscriptions (ctx.withFuel fuel) limit).exec s = (.ok n, s') →
          n = batchLimit limit →
            ((dueSubscriptions ctx.now s').length < (dueSubscriptions ctx.now s).length ↔
              ∃ sub ∈ (dueSubscriptions ctx.now s).take (batchLimit limit), moves ctx sub)) := by
  have hplans : (∀ sub plan, planFor ctx sub = some plan → CatchesUp ctx.cal plan) ↔
      ForwardPlans ctx := by
    unfold ForwardPlans
    simp only [catchesUp_iff]
  refine ⟨?_, ?_⟩
  · unfold Terminates
    rw [hplans, and_congr_right_iff]
    intro hf
    obtain ⟨fuel₀, hsettles⟩ := exists_settles hf s
    have hloop : ∀ fuel, fuel₀ ≤ fuel →
        ((∃ rounds, (resetLoop (ctx.withFuel fuel) limit rounds s).isSome) ↔
          ¬ Blocked ctx limit s) := by
      intro fuel hle
      rw [← blocked_withFuel ctx fuel]
      exact exists_resetLoop_iff (hsettles fuel hle)
    constructor
    · rintro ⟨fuel₁, hends⟩
      exact (hloop (max fuel₀ fuel₁) (Nat.le_max_left _ _)).mp
        (hends (max fuel₀ fuel₁) (Nat.le_max_right _ _))
    · intro hfree
      exact ⟨fuel₀, fun fuel hle => (hloop fuel hle).mpr hfree⟩
  · intro hf
    obtain ⟨fuel₀, hsettles⟩ := exists_settles hf s
    refine ⟨fuel₀, fun fuel hle n s' hexec _ => ?_⟩
    obtain ⟨t, ht, hrest⟩ := resetDueSubscriptions_exec limit (hsettles fuel hle)
    obtain rfl : t = s' := (Prod.mk.inj (ht.symm.trans hexec)).2
    have hlength : (dueSubscriptions ctx.now t).length = (Batches.rest (moves ctx)
        (batchLimit limit) (dueSubscriptions ctx.now s)).length := congrArg List.length hrest
    rw [hlength]
    exact Batches.length_rest_lt_iff

/-! ### Maintenance without end -/

/-- The request for a plan whose custom period is `2 ^ 55` seconds. -/
def endlessRequest : SubscriptionPlan :=
  { steadyPlan with quotaResetPeriod := "custom", quotaResetCustomSeconds := 2 ^ 55 }

/-- The rows of 300 subscriptions that are due. -/
def blockedRows : List UserSubscription :=
  (List.range 300).map fun i : ℕ =>
    { steadySubscription with id := (i : ℤ) + 1, nextResetTime := 2000 }

def blockedTables : Tables :=
  { Tables.empty with
    userSubscriptions := ⟨blockedRows, by
      unfold blockedRows
      rw [List.pairwise_map]
      refine List.pairwise_lt_range.imp fun {i j} hij => ?_
      show ¬ (i : ℤ) + 1 = j + 1
      omega⟩ }

/-- The plan of the rows, which had periods once, has none any more. -/
def blockedContext (fuel : ℕ) : ResetContext where
  cal := plainEnvironment.cal
  planOf _ := some steadyPlan
  now := 3000
  updatedAt := 3000
  fuel := fuel

/-- A period that ends where it starts is caught up with for ever. -/
theorem catchUp_standing {endTime base : ℤ} (hover : Overdue ctx plan endTime base)
    (hsame : calcNextResetTime ctx.cal base plan endTime = base) (fuel : ℕ) :
    catchUp ctx plan endTime fuel base (calcNextResetTime ctx.cal base plan endTime) = none := by
  induction fuel with
  | zero => rfl
  | succ fuel ih =>
      unfold catchUp
      rw [if_pos (show _ ∧ _ from hover)]
      rw [hsame] at ih ⊢
      rw [hsame]
      exact ih

theorem mem_blockedRows {sub : UserSubscription} (h : sub ∈ blockedRows) :
    isDue 3000 sub ∧ sub.planId = 1 := by
  unfold blockedRows at h
  obtain ⟨i, _, rfl⟩ := List.mem_map.mp h
  exact ⟨⟨show (0 : ℤ) < 2000 by decide, show (2000 : ℤ) ≤ 3000 by decide, rfl⟩, rfl⟩

theorem blockedTables_blocked (fuel : ℕ) :
    Blocked (blockedContext fuel) subscriptionResetBatchSize blockedTables := by
  have hplan : ∀ sub ∈ dueSubscriptions 3000 blockedTables,
      planFor (blockedContext fuel) sub = some steadyPlan := by
    intro sub hsub
    obtain ⟨hmem, _⟩ := mem_dueRows.mp ((List.mem_insertionSort _).mp hsub)
    unfold planFor
    rw [(mem_blockedRows hmem).2]
    rfl
  have hstuck : ∀ sub, Stuck (blockedContext fuel) steadyPlan sub := fun _ =>
    .inl (by decide +kernel)
  have hkeep : (dueSubscriptions 3000 blockedTables).filter
      (fun sub => !moves (blockedContext fuel) sub) = dueSubscriptions 3000 blockedTables := by
    rw [List.filter_eq_self]
    intro sub hsub
    unfold moves
    rw [hplan sub hsub]
    simp [hstuck]
  have hlength : (dueSubscriptions 3000 blockedTables).length = 300 := by
    have hall : dueRows 3000 blockedTables = blockedRows :=
      List.filter_eq_self.mpr fun sub hsub => decide_eq_true (mem_blockedRows hsub).1
    rw [dueSubscriptions_eq, List.length_insertionSort, hall]
    unfold blockedRows
    rw [List.length_map, List.length_range]
  unfold Blocked
  show Batches.Stalled _ _ (batchLimit subscriptionResetBatchSize)
    (dueSubscriptions 3000 blockedTables)
  unfold Batches.Stalled
  rw [hkeep, hlength]
  refine ⟨by decide, fun sub hsub => ?_⟩
  unfold counts
  rw [hplan sub (List.mem_of_mem_take hsub)]
  rfl

/-- A custom period of `2 ^ 55` seconds is accepted and lasts no time, so that the catch-up loop
stays where it is; and 300 due rows whose plan has no periods any more are counted and left due by
each batch of 300. -/
theorem maintenance_endless :
    (∃ plan, updatedPlan plainEnvironment 1 endlessRequest steadyPlan = .ok plan ∧
      0 < plan.quotaResetCustomSeconds ∧
      ∀ fuel, catchUp (blockedContext 0) plan 0 fuel 1000
        (calcNextResetTime plainEnvironment.cal 1000 plan 0) = none) ∧
      ∀ fuel rounds, resetLoop (blockedContext fuel) subscriptionResetBatchSize rounds
        blockedTables = none := by
  constructor
  · refine ⟨endlessRequest, by decide +kernel,
      by decide, fun fuel => ?_⟩
    have hsame : calcNextResetTime plainEnvironment.cal 1000
        endlessRequest 0 = 1000 := by decide +kernel
    refine catchUp_standing ?_ hsame fuel
    unfold Overdue
    rw [show calcNextResetTime (blockedContext 0).cal 1000 _ 0 = 1000 from hsame]
    decide
  · intro fuel rounds
    have hblocked := blockedTables_blocked fuel
    have hsettles : ∀ sub ∈ dueSubscriptions (blockedContext fuel).now blockedTables,
        Settles (blockedContext fuel) sub := by
      intro sub hsub plan hplan hnot
      have hsome : planFor (blockedContext fuel) sub = some steadyPlan := by
        obtain ⟨hmem, _⟩ := mem_dueRows.mp ((List.mem_insertionSort _).mp hsub)
        unfold planFor
        rw [(mem_blockedRows hmem).2]
        rfl
      obtain rfl := Option.some.inj (hsome.symm.trans hplan)
      exact absurd (.inl (by decide +kernel)) hnot
    by_contra hsome
    exact Batches.not_ends_of_stalled (fun sub _ => moves_counts) hblocked rounds
      ((resetLoop_isSome hsettles).mp (Option.isSome_iff_ne_none.mpr hsome))

end MaxApi.Reservation
