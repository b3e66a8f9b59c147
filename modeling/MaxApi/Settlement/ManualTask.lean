import MaxApi.Settlement.Ledger

/-! # One task, one final charge

A task whose amount is not known has a manual finalize record that preserves its reservation.  Two
parties may settle it: a poller, who promotes the record and applies it, and an administrator, who
has a completion applied and then resolves the record.  The two use different operation keys, so
nothing but the task row keeps them apart: both settlements are priced at the reservation, a
settlement is applied only while the task still has the quota it is priced at, and it moves that
quota by what it applies. -/

namespace MaxApi.Settlement

open Relational MaxApi.Billing

variable {N Q : ℤ}

/-- The keys under which the task is finalized. -/
def FinalizesTask (N : ℤ) (operationKey : String) : Prop :=
  operationKey = billingTaskFinalizeOperationKey N ∨
    operationKey = billingTaskManualCompletionOperationKey N

instance (N : ℤ) (operationKey : String) : Decidable (FinalizesTask N operationKey) :=
  inferInstanceAs (Decidable (_ ∨ _))

/-- What is requested for a task reserved at `Q`: nothing under another key, and completions that
an administrator derived from the reservation.  A poller may ask for anything under the finalize
key, and every other operation is free. -/
def RequestsForTask (N Q : ℤ) (input : BillingSettlementInput) : Prop :=
  (input.taskID = N → FinalizesTask N input.operationKey) ∧
    (input.operationKey = billingTaskManualCompletionOperationKey N →
      input.taskID = N ∧ input.taskQuota = Q)

instance (N Q : ℤ) : DecidablePred (RequestsForTask N Q) := fun _ =>
  inferInstanceAs (Decidable (_ ∧ _))

/-- The task has the quota it was reserved at and a manual finalize record that moves nothing, and
no other record. -/
structure ManualReservation (N Q : ℤ) (s : Tables) : Prop where
  positive : 0 < N
  unposted : Unposted s
  task : ∃ t ∈ s.tasks, t.id = N ∧ t.quota = Q
  record : ∃ r ∈ s.billingSettlements, r.operationKey = billingTaskFinalizeOperationKey N ∧
    r.taskID = N ∧ r.taskQuota = Q ∧ r.status = .manual ∧ r.fundingDelta = 0
  only : ∀ r ∈ s.billingSettlements,
    r.taskID = N ∨ r.operationKey = billingTaskManualCompletionOperationKey N →
      r.operationKey = billingTaskFinalizeOperationKey N

/-- The operation of a key has been applied with a non-zero funding delta. -/
def Charged (s : Tables) (operationKey : String) : Prop :=
  ∃ r ∈ s.billingSettlements, r.operationKey = operationKey ∧ r.status = .applied ∧
    r.appliedFundingDelta ≠ 0

/-- At most one of the two operations has charged, and the task shows what was applied. -/
structure OneFinalCharge (N Q : ℤ) (s : Tables) : Prop where
  once : ¬ (Charged s (billingTaskFinalizeOperationKey N) ∧
    Charged s (billingTaskManualCompletionOperationKey N))
  quota : ∃ t ∈ s.tasks, t.id = N ∧ t.quota = Q + posted s (paysTask N) .funding

/-! ### The invariant -/

/-- The records of the task are priced at its reservation, and at most one of them has posted an
amount. -/
structure TaskPriced (N Q : ℤ) (s : Tables) : Prop where
  unposted : Unposted s
  task : ∃ t ∈ s.tasks, t.id = N
  ledger : taskLedger s N = Q
  finalize : ∃ r ∈ s.billingSettlements, r.operationKey = billingTaskFinalizeOperationKey N
  keys : ∀ r ∈ s.billingSettlements, r.taskID = N ↔ FinalizesTask N r.operationKey
  priced : ∀ r ∈ s.billingSettlements, r.taskID = N → r.taskQuota = Q
  once : ∀ r ∈ s.billingSettlements, ∀ r' ∈ s.billingSettlements,
    posting (paysTask N) .funding r ≠ 0 → posting (paysTask N) .funding r' ≠ 0 → r = r'

section invariant

variable {A : BillingSettlementInput → Prop} {C : ChangeKind → Prop} {s s' : Tables}

/-- Where nothing is posted in sum and at most one record posts, no record posts. -/
theorem TaskPriced.posting_eq_zero (h : TaskPriced N Q s)
    (h0 : posted s (paysTask N) .funding = 0) {r : BillingSettlement}
    (hr : r ∈ s.billingSettlements) : posting (paysTask N) .funding r = 0 := by
  by_contra hne
  have hsum : posted s (paysTask N) .funding = posting (paysTask N) .funding r := by
    refine Table.sum_eq_single hr fun a ha har => ?_
    by_contra hpost
    exact har (h.once a ha r hr hpost hne)
  exact hne (hsum.symm.trans h0)

/-- A settlement of the task is applied only while nothing is posted to it. -/
theorem TaskPriced.posted_eq_zero (h : TaskPriced N Q s) (hN : 0 < N)
    {input : BillingSettlementInput} {now applied appliedToken : ℤ} {current : BillingSettlement}
    (happ : Application input now s current applied appliedToken s') (hid : current.taskID = N) :
    posted s (paysTask N) .funding = 0 := by
  obtain ⟨_, _, _, _, _, _, htask, hquota, _⟩ := happ.same
  obtain ⟨t, ht, htid, htq⟩ := happ.task (by rw [← htask, hid]; exact hN)
  have hsum := tasks_sumAt ht TaskRow.quota
  rw [htid, ← htask, hid] at hsum
  have hpriced := h.priced current happ.mem hid
  have hl := h.ledger
  unfold taskLedger at hl
  omega

/-- The records that post to the task in `s'` posted to it in `s`, up to the record `k`. -/
def OldPostings (N : ℤ) (s s' : Tables) (k : Option ℤ) : Prop :=
  ∀ r' ∈ s'.billingSettlements, posting (paysTask N) .funding r' ≠ 0 →
    k = some r'.id ∨ ∃ r ∈ s.billingSettlements, r.id = r'.id ∧
      posting (paysTask N) .funding r ≠ 0

/-- A change adds no posting to the task, unless it applies a record of the task. -/
theorem Change.postings (h : Change A C s s') (hs : Unposted s) :
    OldPostings N s s' none ∨ ∃ input now current applied appliedToken,
      Application input now s current applied appliedToken s' ∧ current.taskID = N ∧
        OldPostings N s s' (some current.id) := by
  cases h with
  | createPending | createManual =>
      refine .inl fun r' hr' hpost => .inr ?_
      rcases Table.mem_insert hr' with hr | ⟨rfl, _⟩
      · exact ⟨r', hr, rfl, hpost⟩
      · exact absurd (posting_of_not_applied (by simp [pendingRecord, manualRecord])) hpost
  | select | deleteToken => exact .inl fun r' hr' hpost => .inr ⟨r', hr', rfl, hpost⟩
  | edit p dec m hedit =>
      refine .inl fun r' hr' hpost => .inr ?_
      dsimp only at hr'
      obtain ⟨r, hr, rfl⟩ := Table.mem_update.mp hr'
      refine ⟨r, hr, ?_⟩
      split at hpost
      · next hp =>
        rw [(hedit r hr hp).posting_eq (hs r hr)] at hpost
        rw [if_pos hp]
        exact ⟨congrArg Prod.fst (m.keeps r).symm, hpost⟩
      · next hp =>
        rw [if_neg hp]
        exact ⟨rfl, hpost⟩
  | apply input now current applied appliedToken s' hA hC happ =>
      have hold : OldPostings N s s' (some current.id) := by
        intro r' hr' hpost
        obtain ⟨r, hr, rfl⟩ := happ.mem_settlements.mp hr'
        split at hpost
        · next hp =>
          rw [if_pos hp]
          exact .inl (congrArg some hp.1.symm)
        · next hp =>
          rw [if_neg hp]
          exact .inr ⟨r, hr, rfl, hpost⟩
      by_cases hid : current.taskID = N
      · exact .inr ⟨input, now, current, applied, appliedToken, happ, hid, hold⟩
      · refine .inl fun r' hr' hpost => .inr ?_
        rcases hold r' hr' hpost with hk | hr
        · obtain ⟨r, hr, rfl⟩ := happ.mem_settlements.mp hr'
          split at hpost
          · next hp =>
            obtain rfl : r = current := Table.eq_of_clash hr happ.mem (.inl hp.1)
            exact absurd (if_neg fun h => hid h.2) hpost
          · next hp =>
            rw [if_neg hp]
            exact ⟨r, hr, rfl, hpost⟩
        · exact hr
  | effect record a effect now hC ha hc hu =>
      refine .inl fun r' hr' hpost => .inr ?_
      obtain ⟨r, hr, rfl⟩ := mem_setEffectStatus.mp hr'
      rw [countUsage_billingSettlements] at hr
      refine ⟨r, hr, ?_⟩
      split at hpost
      · next hp =>
        rw [if_pos hp]
        exact ⟨rfl, hpost⟩
      · next hp =>
        rw [if_neg hp]
        exact ⟨rfl, hpost⟩

theorem TaskPriced.once_change (hN : 0 < N) (hc : Change A C s s') (h : TaskPriced N Q s) :
    ∀ r ∈ s'.billingSettlements, ∀ r' ∈ s'.billingSettlements,
      posting (paysTask N) .funding r ≠ 0 → posting (paysTask N) .funding r' ≠ 0 → r = r' := by
  intro a ha b hb hpa hpb
  rcases hc.postings h.unposted with hold | ⟨_, _, current, _, _, happ, htask, hold⟩
  · obtain ⟨a₀, ha₀, haid, hpa₀⟩ := (hold a ha hpa).resolve_left (by simp)
    obtain ⟨b₀, hb₀, hbid, hpb₀⟩ := (hold b hb hpb).resolve_left (by simp)
    have heq : a₀ = b₀ := h.once a₀ ha₀ b₀ hb₀ hpa₀ hpb₀
    exact Table.eq_of_clash ha hb (.inl (haid.symm.trans ((congrArg _ heq).trans hbid)))
  · -- the task has no posting yet, so the record applied now is the only one that posts
    have hzero : ∀ r ∈ s.billingSettlements, posting (paysTask N) .funding r = 0 := fun r hr =>
      h.posting_eq_zero (h.posted_eq_zero hN happ htask) hr
    have hnew : ∀ r' ∈ s'.billingSettlements, posting (paysTask N) .funding r' ≠ 0 →
        r'.id = current.id := by
      intro r' hr' hpost
      rcases hold r' hr' hpost with hk | ⟨r, hr, _, hpr⟩
      · exact (Option.some.inj hk).symm
      · exact absurd (hzero r hr) hpr
    exact Table.eq_of_clash ha hb (.inl ((hnew a ha hpa).trans (hnew b hb hpb).symm))

theorem TaskPriced.change (hN : 0 < N) (hA : ∀ input, A input → RequestsForTask N Q input)
    (hc : Change A C s s') (h : TaskPriced N Q s) : TaskPriced N Q s' where
  unposted := h.unposted.change hc
  task := by
    obtain ⟨t, ht, hid⟩ := h.task
    obtain ⟨t', ht', hid'⟩ := Table.mem_keys (tasks_keys_change hc h.unposted) ht
    exact ⟨t', ht', Eq.trans hid' hid⟩
  ledger := (taskLedger_change hc h.unposted hN).trans h.ledger
  finalize := by
    obtain ⟨r, hr, hkey⟩ := h.finalize
    obtain ⟨r', hr', hk⟩ := hc.keeps hr
    exact ⟨r', hr', hk.trans hkey⟩
  keys := by
    intro r' hr'
    rcases hc.origin hr' with ⟨r, hr, hparties, hkey, _⟩ | ⟨input, hin, hfree, hkey, htask, _⟩
    · rw [show r'.taskID = r.taskID from congrArg Parties.taskID hparties, hkey]
      exact h.keys r hr
    · -- the finalize key is taken, so the new record can only be a completion
      obtain ⟨hreq, hcompletion⟩ := hA input hin
      obtain ⟨f, hf, hfkey⟩ := h.finalize
      rw [hkey, htask]
      constructor
      · exact hreq
      · rintro (hk | hk)
        · exact absurd (hfkey.trans hk.symm) (hfree f hf)
        · exact (hcompletion hk).1
  priced := by
    intro r' hr' hid
    rcases hc.origin hr' with ⟨r, hr, hparties, _, hquota⟩ | ⟨input, hin, hfree, _, htask, hquota⟩
    · rw [hquota]
      exact h.priced r hr ((congrArg Parties.taskID hparties).symm.trans hid)
    · obtain ⟨hreq, hcompletion⟩ := hA input hin
      obtain ⟨f, hf, hfkey⟩ := h.finalize
      rw [hquota]
      rcases hreq (htask.symm.trans hid) with hk | hk
      · exact absurd (hfkey.trans hk.symm) (hfree f hf)
      · exact (hcompletion hk).2
  once := h.once_change hN hc

end invariant

/-! ### Every run -/

theorem ManualReservation.taskPriced {s : Tables} (h : ManualReservation N Q s) :
    TaskPriced N Q s := by
  obtain ⟨f, hf, hfkey, hftask, hfquota, hfstatus, _⟩ := h.record
  have honly : ∀ r ∈ s.billingSettlements, r.taskID = N ∨ FinalizesTask N r.operationKey →
      r = f := by
    intro r hr hcase
    refine Table.eq_of_clash hr hf (.inr (Eq.trans ?_ hfkey.symm))
    rcases hcase with hid | hk | hk
    · exact h.only r hr (.inl hid)
    · exact hk
    · exact h.only r hr (.inr hk)
  have hzero : ∀ r ∈ s.billingSettlements, posting (paysTask N) .funding r = 0 := by
    intro r hr
    by_cases hid : r.taskID = N
    · rw [honly r hr (.inl hid)]
      exact posting_of_not_applied (by rw [hfstatus]; decide)
    · exact if_neg fun h => hid h.2
  obtain ⟨t, ht, htid, htq⟩ := h.task
  refine ⟨h.unposted, ⟨t, ht, htid⟩, ?_, ⟨f, hf, hfkey⟩, ?_, ?_, ?_⟩
  · have hposted : posted s (paysTask N) .funding = 0 := Table.sum_eq_zero hzero
    unfold taskLedger
    rw [hposted, ← htid, tasks_sumAt ht, htq, sub_zero]
  · intro r hr
    constructor
    · intro hid
      rw [honly r hr (.inl hid)]
      exact .inl hfkey
    · intro hk
      rw [honly r hr (.inr hk)]
      exact hftask
  · intro r hr hid
    rw [honly r hr (.inl hid)]
    exact hfquota
  · intro r hr _ _ hpost
    exact absurd (hzero r hr) hpost

theorem TaskPriced.oneFinalCharge {s : Tables} (h : TaskPriced N Q s) : OneFinalCharge N Q s where
  once := by
    rintro ⟨⟨r, hr, hkey, hst, hd⟩, r', hr', hkey', hst', hd'⟩
    have hpost : posting (paysTask N) .funding r ≠ 0 := by
      unfold posting
      rwa [if_pos ⟨hst, (h.keys r hr).mpr (.inl hkey)⟩]
    have hpost' : posting (paysTask N) .funding r' ≠ 0 := by
      unfold posting
      rwa [if_pos ⟨hst', (h.keys r' hr').mpr (.inr hkey')⟩]
    have heq : r = r' := h.once r hr r' hr' hpost hpost'
    rw [← heq, hkey] at hkey'
    exact billingTaskManualCompletionOperationKey_ne N hkey'.symm
  quota := by
    obtain ⟨t, ht, hid⟩ := h.task
    refine ⟨t, ht, hid, ?_⟩
    have hl := h.ledger
    unfold taskLedger at hl
    rw [← hid, tasks_sumAt ht, hid] at hl
    omega

/-- **One task, one final charge.**  However many pollers and administrators settle the task, with
whatever amounts, and wherever they crash: at most one of the two operations ever applies a
non-zero amount, and the quota of the task is its reservation moved by what has been applied. -/
theorem one_final_charge (host : Host) (w : World) (h : ManualReservation N Q w.db)
    (hcalls : ∀ c ∈ w.calls, c.Carries (RequestsForTask N Q)) (ops : List Op)
    (hops : ∀ op ∈ ops, op.Carries (RequestsForTask N Q)) :
    OneFinalCharge N Q (runs host w ops).db := by
  have hN := h.positive
  have hinv := Transition.run_invariant_mem (step host)
    (I := fun v => TaskPriced N Q v.db ∧ ∀ c ∈ v.calls, c.Carries (RequestsForTask N Q)) ops
    (fun v op hop ⟨hdb, hv⟩ => by
      obtain ⟨_, _, hc⟩ := step_changes host hv (hops op hop)
      refine ⟨hc.preserve (TaskPriced.change hN fun _ => id) hdb, step_carries ?_ hv (hops op hop)⟩
      intro r hr effect
      have hkeys := hdb.keys r hr
      exact ⟨hkeys.mp, fun hk => ⟨hkeys.mpr (.inr hk), hdb.priced r hr (hkeys.mpr (.inr hk))⟩⟩)
    w ⟨h.taskPriced, hcalls⟩
  exact hinv.1.oneFinalCharge

/-! ### A race between a poller and an administrator -/

/-- The settlement of task 7, reserved at 50, at the amount `target`. -/
def taskCharge (operationKey : String) (target : ℤ) : BillingSettlementInput :=
  { demoCharge (target - 50) with
    operationKey := operationKey
    taskID := 7
    taskQuota := 50
    taskQuotaTarget := target }

/-- The task and its manual record. -/
def manualTaskWorld : World :=
  { demoWorld with
    db := { demoWorld.db with
      tokens := ⟨[⟨2, 1, "key", "token", 50, 50, false, 0⟩], List.pairwise_singleton _ _⟩
      tasks := ⟨[⟨7, 50, 0⟩], List.pairwise_singleton _ _⟩
      billingSettlements := ⟨[manualRecord
        { taskCharge (billingTaskFinalizeOperationKey 7) 50 with effect := none }
        "usage missing" 0 1], List.pairwise_singleton _ _⟩ } }

/-- The poller promotes the record while the administrator's completion is applied; then the
promoted record comes too late. -/
def manualTaskRace : List Op :=
  [.ensureCompletion (taskCharge (billingTaskManualCompletionOperationKey 7) 20) 5 "checked" 1,
    .promote (taskCharge (billingTaskFinalizeOperationKey 7) 35) "usage" "recovered" 2,
    .apply (taskCharge (billingTaskManualCompletionOperationKey 7) 20),
    .apply (taskCharge (billingTaskFinalizeOperationKey 7) 35),
    .proceed 0 3 .none "", .proceed 1 3 .none "", .proceed 0 4 .none "", .proceed 1 4 .none "",
    .proceed 1 5 .none "", .proceed 1 5 .none ""]

/-- The completion is charged and the promoted record is not. -/
theorem one_final_charge_manualTaskRace :
    OneFinalCharge 7 50 (runs (plainHost demoEffect) manualTaskWorld manualTaskRace).db ∧
      (runs (plainHost demoEffect) manualTaskWorld manualTaskRace).db.billingSettlements.rows.map
        (fun r => (r.status, r.appliedFundingDelta)) = [(.manual, 0), (.applied, -30)] := by
  refine ⟨one_final_charge (plainHost demoEffect) manualTaskWorld ?_ ?_ manualTaskRace ?_, ?_⟩
  · refine ⟨by decide, ?_, ⟨_, List.mem_singleton_self _, rfl, rfl⟩,
      ⟨_, List.mem_singleton_self _, rfl, rfl, rfl, rfl, rfl⟩, ?_⟩
    · intro r hr _
      rw [List.mem_singleton.mp hr]
      exact ⟨rfl, rfl⟩
    · intro r hr _
      rw [List.mem_singleton.mp hr]
      rfl
  · intro c hc
    cases hc
  · simp only [manualTaskRace, List.forall_mem_cons, Op.Carries, List.not_mem_nil, false_implies,
      implies_true, and_true]
    decide
  · decide

end MaxApi.Settlement
