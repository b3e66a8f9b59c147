import MaxApi.Settlement.Blocking
import MaxApi.Settlement.Ledger
import MaxApi.Settlement.LifeCycle

/-! # A review stands for the evidence it was written on

An administrator reviews a record as it stands: its error and its status.  A later failure that
changes one of them resets the review.  The decision is taken on the record that the failing call
read, before its guarded write: a failure that repeats the error its call has read keeps the
review, also when the stored error has changed and has been reviewed in between.  Runs in which no
failure comes that late keep every review true (`review_stands`); the run at the end does not. -/

namespace MaxApi.Settlement

open Relational MaxApi.Billing

/-! ### Reviews and their evidence -/

/-- What a review acknowledges. -/
def evidence (r : BillingSettlement) : String × SettlementStatus := (r.lastError, r.status)

/-- The four review fields. -/
def reviewFields (r : BillingSettlement) : ℤ × ℤ × String × Option Bool :=
  (r.reconciliationReviewedAt, r.reconciliationReviewedBy, r.reconciliationReviewNote,
    r.userBlockingOverride)

/-- The record is the completion of a manual task. -/
def isCompletion (r : BillingSettlement) : Prop :=
  billingSettlementIsManualTaskCompletion r.operationKey r.taskID

instance : DecidablePred isCompletion := fun r =>
  inferInstanceAs (Decidable (billingSettlementIsManualTaskCompletion r.operationKey r.taskID))

/-- The record is pending or manual, and no manual completion. -/
def Watched (r : BillingSettlement) : Prop :=
  (r.status = .pending ∨ r.status = .manual) ∧ ¬ isCompletion r

instance : DecidablePred Watched := fun _ => inferInstanceAs (Decidable (_ ∧ _))

/-- The review fields are reset; where `audit` holds, a note may remain. -/
structure Erased (audit : Prop) (r : BillingSettlement) : Prop where
  reviewedAt : r.reconciliationReviewedAt = 0
  reviewedBy : r.reconciliationReviewedBy = 0
  override : r.userBlockingOverride = none
  note : r.reconciliationReviewNote = "" ∨ audit

/-! ### What becomes of a record nobody reviews -/

/-- The record keeps its evidence and its review, or its review is reset. -/
structure Follows (audit : Prop) (r r' : BillingSettlement) : Prop where
  identity : r'.id = r.id ∧ r'.operationKey = r.operationKey ∧ r'.taskID = r.taskID
  review : Watched r' →
    (evidence r' = evidence r ∧ reviewFields r' = reviewFields r) ∨ Erased audit r'

/-- Every record goes on, and a new one carries no review. -/
structure TablesFollow (audit : Prop) (s s' : Tables) : Prop where
  keeps : ∀ r ∈ s.billingSettlements, ∃ r' ∈ s'.billingSettlements, Follows audit r r'
  fresh : ∀ r' ∈ s'.billingSettlements, Watched r' →
    r'.reconciliationReviewedAt = 0 ∨ ∃ r ∈ s.billingSettlements, r.id = r'.id

section follows

variable {audit : Prop} {A : BillingSettlementInput → Prop} {kind : ChangeKind}
variable {s s' s'' : Tables} {r r' r'' : BillingSettlement}

theorem isCompletion_congr (hkey : r'.operationKey = r.operationKey)
    (htask : r'.taskID = r.taskID) :
    isCompletion r' ↔ isCompletion r := by
  unfold isCompletion
  rw [hkey, htask]

/-- A record with the same evidence is watched as before. -/
theorem Follows.watched (h : Follows audit r r') (hr' : Watched r')
    (he : evidence r' = evidence r) : Watched r := by
  have hstatus : r'.status = r.status := congrArg Prod.snd he
  have hcompletion := isCompletion_congr h.identity.2.1 h.identity.2.2
  exact ⟨hstatus ▸ hr'.1, fun hc => hr'.2 (hcompletion.mpr hc)⟩

theorem Follows.refl (audit : Prop) (r : BillingSettlement) : Follows audit r r :=
  ⟨⟨rfl, rfl, rfl⟩, fun _ => .inl ⟨rfl, rfl⟩⟩

/-- A reset is not undone by a record that keeps its review. -/
theorem Erased.congr (h : Erased audit r) (he : reviewFields r' = reviewFields r) :
    Erased audit r' := by
  unfold reviewFields at he
  simp only [Prod.mk.injEq] at he
  obtain ⟨hat, hby, hnote, hover⟩ := he
  exact ⟨hat.trans h.reviewedAt, hby.trans h.reviewedBy, hover.trans h.override,
    h.note.imp (fun hn => hnote.trans hn) id⟩

theorem Follows.trans (h : Follows audit r r') (h' : Follows audit r' r'') :
    Follows audit r r'' := by
  refine ⟨⟨h'.identity.1.trans h.identity.1, h'.identity.2.1.trans h.identity.2.1,
    h'.identity.2.2.trans h.identity.2.2⟩, fun hw => ?_⟩
  rcases h'.review hw with ⟨he, hf⟩ | herased
  · rcases h.review (h'.watched hw he) with ⟨he', hf'⟩ | herased
    · exact .inl ⟨he.trans he', hf.trans hf'⟩
    · exact .inr (herased.congr hf)
  · exact .inr herased

theorem TablesFollow.refl (audit : Prop) (s : Tables) : TablesFollow audit s s :=
  ⟨fun r hr => ⟨r, hr, .refl audit r⟩, fun r hr _ => .inr ⟨r, hr, rfl⟩⟩

theorem TablesFollow.trans (h : TablesFollow audit s s') (h' : TablesFollow audit s' s'') :
    TablesFollow audit s s'' := by
  constructor
  · intro r hr
    obtain ⟨r', hr', hf⟩ := h.keeps r hr
    obtain ⟨r'', hr'', hf'⟩ := h'.keeps r' hr'
    exact ⟨r'', hr'', hf.trans hf'⟩
  · intro c hc hw
    rcases h'.fresh c hc hw with h0 | ⟨b, hb, hid⟩
    · exact .inl h0
    · obtain ⟨c', hc', hf⟩ := h'.keeps b hb
      obtain rfl : c' = c := Table.eq_of_clash hc' hc (.inl (hf.identity.1.trans hid))
      rcases hf.review hw with ⟨he, hfields⟩ | herased
      · rcases h.fresh b hb (hf.watched hw he) with h0 | ⟨a, ha, haid⟩
        · exact .inl ((congrArg Prod.fst hfields).trans h0)
        · exact .inr ⟨a, ha, haid.trans hid⟩
      · exact .inl herased.reviewedAt

/-- An edit that is neither a failure nor a review. -/
theorem RecordEdit.follows (hf : kind ≠ .failure) (hv : kind ≠ .review)
    (h : RecordEdit kind.orCreation s r r') : Follows (∃ key, kind = .promotion key) r r' := by
  refine ⟨?_, fun hw => ?_⟩
  · exact h.evolves.identity
  · cases h with
    | failed record cause now hC => exact absurd (ChangeKind.orCreation_eq hC (by simp)).symm hf
    | reviewed reviewerID blockUser note now hC =>
        exact absurd (ChangeKind.orCreation_eq hC (by simp)).symm hv
    | reapproved reviewerID note now hC hm hkey => exact absurd hkey hw.2
    | resolved completion reviewerID note now => exact absurd hw.1 (by simp [resolvedRecord])
    | promoted input payload recoveryNote auditNote now hC =>
        exact .inr ⟨rfl, rfl, rfl, .inr ⟨_, (ChangeKind.orCreation_eq hC (by simp)).symm⟩⟩

/-- A change that is neither a failure nor a review. -/
theorem Change.follows (hf : kind ≠ .failure) (hv : kind ≠ .review)
    (h : Change A kind.orCreation s s') : TablesFollow (∃ key, kind = .promotion key) s s' := by
  cases h with
  | createPending | createManual =>
      constructor
      · intro r hr
        exact ⟨r, Table.mem_insert_of_mem hr, .refl _ r⟩
      · intro r' hr' _
        rcases Table.mem_insert hr' with hr | ⟨rfl, _⟩
        · exact .inr ⟨r', hr, rfl⟩
        · exact .inl rfl
  | select | deleteToken =>
      exact ⟨fun r hr => ⟨r, hr, .refl _ r⟩, fun r hr _ => .inr ⟨r, hr, rfl⟩⟩
  | edit p dec m hedit =>
      constructor
      · intro r hr
        refine ⟨_, Table.mem_update.mpr ⟨r, hr, rfl⟩, ?_⟩
        split
        · next hp => exact (hedit r hr hp).follows hf hv
        · exact .refl _ r
      · intro r' hr' _
        obtain ⟨r, hr, rfl⟩ := Table.mem_update.mp hr'
        refine .inr ⟨r, hr, ?_⟩
        split
        · exact (congrArg Prod.fst (m.keeps r)).symm
        · rfl
  | apply input now current applied appliedToken s' hA hC happ =>
      constructor
      · intro r hr
        refine ⟨_, happ.mem_settlements.mpr ⟨r, hr, rfl⟩, ?_⟩
        split
        · exact ⟨⟨rfl, rfl, rfl⟩, fun hw => absurd hw.1 (by simp [appliedRecord])⟩
        · exact .refl _ r
      · intro r' hr' _
        obtain ⟨r, hr, rfl⟩ := happ.mem_settlements.mp hr'
        refine .inr ⟨r, hr, ?_⟩
        split
        · rfl
        · rfl
  | effect record a effect now hC ha hc hu =>
      constructor
      · intro r hr
        rw [← countUsage_billingSettlements record effect] at hr
        refine ⟨_, mem_setEffectStatus.mpr ⟨r, hr, rfl⟩, ?_⟩
        split
        · exact ⟨⟨rfl, rfl, rfl⟩, fun _ => .inl ⟨rfl, rfl⟩⟩
        · exact .refl _ r
      · intro r' hr' _
        obtain ⟨r, hr, rfl⟩ := mem_setEffectStatus.mp hr'
        rw [countUsage_billingSettlements] at hr
        refine .inr ⟨r, hr, ?_⟩
        split
        · rfl
        · rfl

theorem Changes.follows (hf : kind ≠ .failure) (hv : kind ≠ .review)
    (h : Changes A kind.orCreation s s') : TablesFollow (∃ key, kind = .promotion key) s s' := by
  induction h with
  | refl => exact .refl _ s
  | tail _ hc ih => exact ih.trans (hc.follows hf hv)

/-- A weaker reading of what a reset may leave. -/
theorem TablesFollow.mono {audit' : Prop} (h : TablesFollow audit s s') (ha : audit → audit') :
    TablesFollow audit' s s' := by
  refine ⟨fun r hr => ?_, h.fresh⟩
  obtain ⟨r', hr', hf⟩ := h.keeps r hr
  exact ⟨r', hr', hf.identity, fun hw => (hf.review hw).imp id fun he =>
    ⟨he.reviewedAt, he.reviewedBy, he.override, he.note.imp id ha⟩⟩

end follows

/-! ### What a review writes -/

section reviews

variable {s s' s'' : Tables} {audit : Prop}

/-- Records keep everything but the review fields, and those too unless their id is in `p`. -/
structure Reviewed (p : ℤ → Prop) (s s' : Tables) : Prop where
  keeps : ∀ r ∈ s.billingSettlements, ∃ r' ∈ s'.billingSettlements,
    (r'.id = r.id ∧ r'.operationKey = r.operationKey ∧ r'.taskID = r.taskID) ∧
      evidence r' = evidence r ∧ (reviewFields r' = reviewFields r ∨ p r.id)
  back : ∀ r' ∈ s'.billingSettlements, ∃ r ∈ s.billingSettlements, r.id = r'.id

theorem Reviewed.mono {p q : ℤ → Prop} (h : Reviewed p s s') (hpq : ∀ id, p id → q id) :
    Reviewed q s s' := by
  refine ⟨fun r hr => ?_, h.back⟩
  obtain ⟨r', hr', hid, he, hf⟩ := h.keeps r hr
  exact ⟨r', hr', hid, he, hf.imp id (hpq _)⟩

theorem Reviewed.trans {p : ℤ → Prop} (h : Reviewed p s s') (h' : Reviewed p s' s'') :
    Reviewed p s s'' := by
  constructor
  · intro r hr
    obtain ⟨r', hr', hid, he, hf⟩ := h.keeps r hr
    obtain ⟨r'', hr'', hid', he', hf'⟩ := h'.keeps r' hr'
    refine ⟨r'', hr'', ⟨hid'.1.trans hid.1, hid'.2.1.trans hid.2.1, hid'.2.2.trans hid.2.2⟩,
      he'.trans he, ?_⟩
    rcases hf' with hf' | hp
    · exact hf.imp hf'.trans id
    · exact .inr (hid.1 ▸ hp)
  · intro r'' hr''
    obtain ⟨r', hr', hid'⟩ := h'.back r'' hr''
    obtain ⟨r, hr, hid⟩ := h.back r' hr'
    exact ⟨r, hr, hid.trans hid'⟩

/-- Reviewing the records that satisfy `q` changes the review of no other record. -/
theorem update_reviewed (q : BillingSettlement → Prop) [DecidablePred q] (reviewerID : ℤ)
    (blockUser : Bool) (note : String) (now : ℤ) :
    Reviewed (fun id => ∃ r ∈ s.billingSettlements, r.id = id ∧ q r) s { s with
      billingSettlements := s.billingSettlements.update q
        ⟨reviewedRecord reviewerID blockUser note now, keeps fun _ => rfl⟩ } := by
  constructor
  · intro r hr
    refine ⟨_, Table.mem_update.mpr ⟨r, hr, rfl⟩, ?_⟩
    split
    · next hq => exact ⟨⟨rfl, rfl, rfl⟩, rfl, .inr ⟨r, hr, rfl, hq⟩⟩
    · exact ⟨⟨rfl, rfl, rfl⟩, rfl, .inl rfl⟩
  · intro r' hr'
    obtain ⟨r, hr, rfl⟩ := Table.mem_update.mp hr'
    refine ⟨r, hr, ?_⟩
    split
    · rfl
    · rfl

theorem reviewTargets_reviewed {reviewerID now : ℤ} :
    ∀ {targets : List BillingSettlementReviewTarget} {s s' : Tables} {u : PUnit},
      (reviewTargets reviewerID now targets).Ok s u s' →
      Reviewed (fun id => ∃ t ∈ targets, t.id = id) s s'
  | [], s, s', u, h => by
      obtain ⟨_, rfl⟩ := Txn.ok_pure.mp h
      exact ⟨fun r hr => ⟨r, hr, ⟨rfl, rfl, rfl⟩, rfl, .inl rfl⟩, fun r hr => ⟨r, hr, rfl⟩⟩
  | target :: targets, s, s', u, h => by
      obtain ⟨_, t, h1, h2⟩ := Txn.ok_bind.mp h
      have hrest := (reviewTargets_reviewed h2).mono
        (q := fun id => ∃ t ∈ target :: targets, t.id = id)
        fun id ⟨t, ht, hid⟩ => ⟨t, List.mem_cons_of_mem target ht, hid⟩
      simp only [reviewTarget, Txn.ok_bind, Txn.ok_get, Txn.ok_orThrow, Txn.ok_require,
        Txn.ok_modify] at h1
      obtain ⟨_, _, ⟨rfl, rfl⟩, _, _, ⟨_, rfl⟩, _, _, ⟨_, rfl⟩, _, _, ⟨_, rfl⟩, _, _, ⟨_, rfl⟩,
        rfl⟩ := h1
      refine Reviewed.trans ((update_reviewed _ reviewerID false "" now).mono ?_) hrest
      rintro id ⟨r, _, rfl, _, hid, _⟩
      exact ⟨target, List.mem_cons_self, hid.symm⟩

theorem reviewBillingSettlementsTx_reviewed {targets : List BillingSettlementReviewTarget}
    {reviewerID now : ℤ} {u : PUnit}
    (h : (reviewBillingSettlementsTx targets reviewerID now).Ok s u s') :
    Reviewed (fun id => ∃ t ∈ targets, t.id = id) s s' := by
  simp only [reviewBillingSettlementsTx, Txn.ok_bind, Txn.ok_require] at h
  obtain ⟨_, _, ⟨_, rfl⟩, _, _, ⟨_, rfl⟩, h⟩ := h
  refine (reviewTargets_reviewed h).mono fun id ⟨t, ht, hid⟩ => ⟨t, ?_, hid⟩
  exact (List.mem_insertionSort _).mp ht

/-- A review of completions only is no review of a watched record. -/
theorem update_completions_follows {q : BillingSettlement → Prop} [DecidablePred q]
    (hq : ∀ r ∈ s.billingSettlements, q r → isCompletion r) (reviewerID : ℤ) (blockUser : Bool)
    (note : String) (now : ℤ) :
    TablesFollow audit s { s with
      billingSettlements := s.billingSettlements.update q
        ⟨reviewedRecord reviewerID blockUser note now, keeps fun _ => rfl⟩ } := by
  constructor
  · intro r hr
    refine ⟨_, Table.mem_update.mpr ⟨r, hr, rfl⟩, ?_⟩
    split
    · next hp => exact ⟨⟨rfl, rfl, rfl⟩, fun hw => absurd (hq r hr hp) hw.2⟩
    · exact .refl _ r
  · intro r' hr' _
    obtain ⟨r, hr, rfl⟩ := Table.mem_update.mp hr'
    refine .inr ⟨r, hr, ?_⟩
    split
    · rfl
    · rfl

/-- The approval of a completion reviews no other record. -/
theorem ensureManualTaskBillingCompletionTx_follows {host : Host} {input : BillingSettlementInput}
    {reviewerID : ℤ} {note : String} {now : ℤ} {a : BillingSettlement}
    (h : (ensureManualTaskBillingCompletionTx host input reviewerID note now).Ok s a s') :
    TablesFollow audit s s' := by
  have hcreate : TablesFollow audit s ((ensureBillingSettlementRecordDB host input now).exec s).2 :=
    ((ensureBillingSettlementRecordDB_changes (A := fun _ => True)
      (C := ChangeKind.orCreation .creation) host s now trivial (.inl rfl)).follows
        (by simp) (by simp)).mono fun h => by simp at h
  simp only [ensureManualTaskBillingCompletionTx, Txn.ok_bind, Txn.ok_require,
    Txn.ok_recover] at h
  obtain ⟨_, _, ⟨hinput, rfl⟩, _, t, ⟨⟨record, already⟩, rfl, hens⟩ | ⟨rfl, e, _, hens⟩, h⟩ := h
  · obtain ⟨_, _, hmem, hkey, hsame, _⟩ := ensureBillingSettlementRecordDB_ok hens
    rw [show _ = _ from hens] at hcreate
    refine hcreate.trans ?_
    simp only [approveCompletionRecord, Txn.ok_ite, Txn.ok_bind, Txn.ok_require, Txn.ok_pure,
      Txn.ok_get, Txn.ok_modify, settlementByID_ok] at h
    rcases h with ⟨_, _, _, ⟨_, rfl⟩, _, rfl⟩ | ⟨_, _, _, ⟨rfl, rfl⟩, _, _, ⟨_, rfl⟩, _, _,
      rfl, _, rfl⟩
    · exact .refl _ _
    · refine update_completions_follows ?_ reviewerID false note now
      intro r hr hp
      obtain rfl : r = record := Table.eq_of_clash hr hmem (.inl hp.1)
      obtain ⟨_, _, _, _, _, _, htask, _⟩ := hsame
      unfold isCompletion
      rw [hkey, htask]
      exact hinput.2.2
  · rw [hens] at hcreate
    exact hcreate.trans (((reapproveManualTaskBillingCompletionDB_changes (A := fun _ => True)
      (C := ChangeKind.orCreation (.reapproval reviewerID note)) (.inr rfl) h).follows
        (by simp) (by simp)).mono fun h => by simp at h)

end reviews

/-! ### Steps -/

/-- The operation writes a review on the record. -/
def writesReview (w : World) (r : BillingSettlement) : Op → Bool
  | .proceed i _ _ _ =>
      match w.calls[i]? with
      | some (.review record _ _ _) =>
          decide (unresolvedBillingReconciliationScope r ∧
            billingSettlementReviewSnapshotScope record r)
      | _ => false
  | .reviewAll targets reviewerID now =>
      (transaction (reviewBillingSettlementsTx targets reviewerID now) w.db).1.isOk &&
        targets.any (·.id = r.id)
  | _ => false

/-- A poller gives a manual record its amount. -/
def Op.promotes : Op → Prop
  | .promote _ _ _ _ => True
  | _ => False

/-- What an operation makes of a record and its review. -/
structure Outcome (w : World) (op : Op) (r r' : BillingSettlement) : Prop where
  identity : r'.id = r.id ∧ r'.operationKey = r.operationKey ∧ r'.taskID = r.taskID
  review : Watched r' →
    (evidence r' = evidence r ∧ (reviewFields r' = reviewFields r ∨ writesReview w r op = true)) ∨
    Erased op.promotes r' ∨ (r.reconciliationReviewedAt = 0 ∧ r'.reconciliationReviewedAt = 0)

/-- What an operation makes of the records and their reviews. -/
structure Outcomes (w : World) (op : Op) (s' : Tables) : Prop where
  keeps : ∀ r ∈ w.db.billingSettlements, ∃ r' ∈ s'.billingSettlements, Outcome w op r r'
  fresh : ∀ r' ∈ s'.billingSettlements, Watched r' →
    r'.reconciliationReviewedAt = 0 ∨ ∃ r ∈ w.db.billingSettlements, r.id = r'.id

/-- The record a failing call has read is the stored record of its id. -/
def MarksStored (w : World) : Prop :=
  ∀ record cause, .mark record cause ∈ w.calls → ∃ r ∈ w.db.billingSettlements,
    r.id = record.id ∧ r.operationKey = record.operationKey ∧ r.taskID = record.taskID

/-- A failure that keeps the review of a record meets the error and the status that its call has
read, if that record is still pending and reviewed. -/
def UpToDate (w : World) : Op → Prop
  | .proceed i _ _ _ =>
      match w.calls[i]? with
      | some (.mark record cause) =>
          ¬ failureResetsReview record cause → ∀ r ∈ w.db.billingSettlements.rows,
            r.id = record.id → r.status = .pending → ¬ isCompletion r →
              r.reconciliationReviewedAt ≠ 0 →
                r.lastError = record.lastError ∧ r.status = record.status
      | _ => True
  | _ => True

instance (w : World) (op : Op) : Decidable (UpToDate w op) := by
  unfold UpToDate
  split
  · split
    · exact instDecidableForall
    · infer_instance
  · infer_instance

section steps

variable {host : Host} {w : World} {op : Op} {i : ℕ} {now : ℤ} {fault : Fault} {claimToken : String}

theorem TablesFollow.outcomes {s' : Tables} (h : TablesFollow op.promotes w.db s') :
    Outcomes w op s' := by
  refine ⟨fun r hr => ?_, h.fresh⟩
  obtain ⟨r', hr', hf⟩ := h.keeps r hr
  refine ⟨r', hr', hf.identity, fun hw => ?_⟩
  rcases hf.review hw with ⟨he, hfields⟩ | herased
  · exact .inl ⟨he, .inl hfields⟩
  · exact .inr (.inl herased)

theorem Reviewed.outcomes {p : ℤ → Prop} {s' : Tables} (h : Reviewed p w.db s')
    (hp : ∀ r ∈ w.db.billingSettlements, p r.id → writesReview w r op = true) :
    Outcomes w op s' := by
  constructor
  · intro r hr
    obtain ⟨r', hr', hid, he, hf⟩ := h.keeps r hr
    exact ⟨r', hr', hid, fun _ => .inl ⟨he, hf.imp id (hp r hr)⟩⟩
  · intro r' hr' _
    exact .inr (h.back r' hr')

/-- An operation that is neither a failure nor a review. -/
theorem step_quiet (host : Host) (h : ∀ kind, op.Kinds w kind → kind ≠ .failure ∧ kind ≠ .review) :
    Outcomes w op (step host w op).db := by
  obtain ⟨kind, hk, hc⟩ := step_changes_any host w op
  obtain ⟨hf, hv⟩ := h kind hk
  refine ((hc.follows hf hv).mono ?_).outcomes
  rintro ⟨key, rfl⟩
  obtain ⟨_, _, _, _, rfl, _⟩ := hk.promotion
  trivial

/-- A failure whose error or status is news resets the review. -/
theorem failedRecord_erased {record : BillingSettlement} {cause : Failure} (r : BillingSettlement)
    (h : failureResetsReview record cause) (audit : Prop) :
    Erased audit (failedRecord record cause now r) := by
  unfold failedRecord
  rw [if_pos h]
  exact ⟨rfl, rfl, rfl, .inl rfl⟩

/-- Any other failure keeps it. -/
theorem failedRecord_reviewFields {record : BillingSettlement} {cause : Failure} (now : ℤ)
    (r : BillingSettlement) (h : ¬ failureResetsReview record cause) :
    reviewFields (failedRecord record cause now r) = reviewFields r := by
  unfold failedRecord
  rw [if_neg h]
  rfl

theorem failedRecord_evidence (record : BillingSettlement) (cause : Failure)
    (r : BillingSettlement) :
    evidence (failedRecord record cause now r) = (cause.text, failureStatus record cause) := by
  obtain ⟨_, _, _, _, h⟩ := failedRecord_eq record cause now r
  rw [h]
  rfl

theorem failedRecord_identity (record : BillingSettlement) (cause : Failure) (now : ℤ)
    (r : BillingSettlement) :
    (failedRecord record cause now r).id = r.id ∧
      (failedRecord record cause now r).operationKey = r.operationKey ∧
      (failedRecord record cause now r).taskID = r.taskID := by
  obtain ⟨_, _, _, _, h⟩ := failedRecord_eq record cause now r
  rw [h]
  exact ⟨rfl, rfl, rfl⟩

/-- The record read by a failing call is a completion when the stored one is. -/
theorem MarksStored.isCompletion_iff (h : MarksStored w) {record : BillingSettlement}
    {cause : Failure} (hcall : .mark record cause ∈ w.calls) {r : BillingSettlement}
    (hr : r ∈ w.db.billingSettlements) (hid : r.id = record.id) :
    isCompletion record ↔ isCompletion r := by
  obtain ⟨a, ha, haid, hkey, htask⟩ := h record cause hcall
  obtain rfl : a = r := Table.eq_of_clash ha hr (.inl (haid.trans hid.symm))
  exact isCompletion_congr hkey.symm htask.symm

/-- The guarded write of a failure. -/
theorem mark_outcomes {record : BillingSettlement} {cause : Failure} (hmarks : MarksStored w)
    (hcall : w.calls[i]? = some (.mark record cause))
    (hup : UpToDate w (.proceed i now fault claimToken)) :
    Outcomes w (.proceed i now fault claimToken)
      (markBillingSettlementFailure w.db record cause now) := by
  constructor
  · intro r hr
    refine ⟨_, Table.mem_update.mpr ⟨r, hr, rfl⟩, ?_⟩
    split
    · next hp =>
        have hiff := hmarks.isCompletion_iff (List.mem_of_getElem? hcall) hr hp.1
        refine ⟨failedRecord_identity record cause now r, fun hw => ?_⟩
        by_cases hreset : failureResetsReview record cause
        · exact .inr (.inl (failedRecord_erased r hreset _))
        · have hfields := failedRecord_reviewFields now r hreset
          by_cases h0 : r.reconciliationReviewedAt = 0
          · exact .inr (.inr ⟨h0, (congrArg Prod.fst hfields).trans h0⟩)
          · -- the review was written on the error that the failure repeats
            have hid := failedRecord_identity record cause now r
            have hnc : ¬ isCompletion r := fun hc =>
              hw.2 ((isCompletion_congr hid.2.1 hid.2.2).mpr hc)
            unfold UpToDate at hup
            simp only [hcall] at hup
            obtain ⟨herror, hstatus⟩ := hup hreset r hr hp.1 hp.2 hnc h0
            have hsame : cause.text = record.lastError ∧
                failureStatus record cause = record.status := by
              by_contra hne
              exact hreset ⟨not_and_or.mp hne, fun hc => hnc (hiff.mp hc)⟩
            refine .inl ⟨?_, .inl hfields⟩
            rw [failedRecord_evidence, hsame.1, hsame.2, ← herror, ← hstatus]
            rfl
    · exact ⟨⟨rfl, rfl, rfl⟩, fun _ => .inl ⟨rfl, .inl rfl⟩⟩
  · intro r' hr' _
    obtain ⟨r, hr, rfl⟩ := Table.mem_update.mp hr'
    refine .inr ⟨r, hr, ?_⟩
    split
    · exact (failedRecord_identity record cause now r).1.symm
    · rfl

/-- **What one operation makes of the reviews.** -/
theorem step_outcomes (host : Host) (hmarks : MarksStored w) (hup : UpToDate w op) :
    Outcomes w op (step host w op).db := by
  cases op with
  | apply | runner | processEffect | effectRunner | crash | persistIntent | persistManual | review
  | resolve | promote | deleteToken =>
      refine step_quiet host fun kind hk => ?_
      simp only [Op.Kinds] at hk
      subst hk
      simp
  | proceed i now fault claimToken =>
      cases hcall : w.calls[i]? with
      | none =>
          refine step_quiet host fun kind hk => ?_
          simp only [Op.Kinds, hcall, Option.map_none, Option.getD_none] at hk
          subst hk
          simp
      | some call =>
          by_cases hkind : call.kind ≠ .failure ∧ call.kind ≠ .review
          · refine step_quiet host fun kind hk => ?_
            simp only [Op.Kinds, hcall, Option.map_some, Option.getD_some] at hk
            rw [hk]
            exact hkind
          · cases call with
            | mark record cause =>
                rw [step_proceed host hcall]
                exact mark_outcomes hmarks hcall hup
            | review record reviewerID blockUser note =>
                rw [step_proceed host hcall]
                refine (update_reviewed _ reviewerID blockUser note now).outcomes ?_
                rintro r hr ⟨a, ha, hid, hq⟩
                obtain rfl : a = r := Table.eq_of_clash ha hr (.inl hid)
                unfold writesReview
                simp only [hcall]
                exact decide_eq_true hq
            | ensure | claim | settle | fail | effect | log | usage | done =>
                exact absurd (by simp [Call.kind]) hkind
  | reviewAll targets reviewerID now =>
      rcases transaction_cases (reviewBillingSettlementsTx targets reviewerID now) w.db with
        ⟨a, s', hok, ht⟩ | ⟨e, ht⟩
      · have hs : (step host w (.reviewAll targets reviewerID now)).db = s' := congrArg Prod.snd ht
        rw [hs]
        refine (reviewBillingSettlementsTx_reviewed hok).outcomes ?_
        rintro r hr ⟨t, htarget, hid⟩
        unfold writesReview
        dsimp only
        rw [ht, Bool.and_eq_true, List.any_eq_true]
        exact ⟨rfl, t, htarget, decide_eq_true hid⟩
      · have hs : (step host w (.reviewAll targets reviewerID now)).db = w.db :=
          congrArg Prod.snd ht
        rw [hs]
        exact (TablesFollow.refl _ w.db).outcomes
  | ensureCompletion input reviewerID note now =>
      rcases transaction_cases
        (ensureManualTaskBillingCompletionTx host input reviewerID note now) w.db with
        ⟨a, s', hok, ht⟩ | ⟨e, ht⟩
      · have hs : (step host w (.ensureCompletion input reviewerID note now)).db = s' :=
          congrArg Prod.snd ht
        rw [hs]
        exact (ensureManualTaskBillingCompletionTx_follows hok).outcomes
      · have hs : (step host w (.ensureCompletion input reviewerID note now)).db = w.db :=
          congrArg Prod.snd ht
        rw [hs]
        exact (TablesFollow.refl _ w.db).outcomes

/-! ### Calls that mark a failure -/

/-- A call that is about to mark a failure was so before, or has just read its record. -/
theorem step_marks {record : BillingSettlement} {cause : Failure}
    (hc : .mark record cause ∈ (step host w op).calls) :
    .mark record cause ∈ w.calls ∨ record ∈ w.db.billingSettlements := by
  have hstart : ∀ calls : List Call, .mark record cause ∉ calls →
      .mark record cause ∈ (w.start calls).calls → .mark record cause ∈ w.calls ∨
        record ∈ w.db.billingSettlements := by
    intro calls hnot hc
    exact .inl ((mem_start hc).resolve_right hnot)
  cases op with
  | apply | processEffect => exact hstart _ (by simp) hc
  | runner now =>
      refine hstart _ (fun hmem => ?_) hc
      obtain ⟨r, _, hr⟩ := List.mem_map.mp hmem
      unfold runnerCall at hr
      split at hr
      · cases hr
      · cases hr
  | effectRunner =>
      refine hstart _ (fun hmem => ?_) hc
      obtain ⟨r, _, hr⟩ := List.mem_map.mp hmem
      cases hr
  | proceed i now fault claimToken =>
      cases hcall : w.calls[i]? with
      | none =>
          rw [step_proceed_none host hcall] at hc
          exact .inl hc
      | some call =>
          rw [step_proceed host hcall] at hc
          cases call with
          | fail operationKey cause' =>
              unfold proceedStep failStep at hc
              dsimp only at hc
              split at hc
              · exact .inl ((mem_become hc).resolve_right (by simp))
              · split at hc
                · next r hfirst =>
                    rcases mem_become hc with hc | hc
                    · exact .inl hc
                    · obtain ⟨rfl, _⟩ := Call.mark.inj hc
                      exact .inr (Table.first?_mem hfirst).1
                · exact .inl ((mem_become hc).resolve_right (by simp))
          | ensure | claim | settle | mark | review | effect | log | usage | done =>
              rcases proceedStep_calls hc with hc | hnext
              · exact .inl hc
              · cases hnext
  | crash i => exact .inl ((mem_become hc).resolve_right (by simp))
  | review id reviewerID blockUser note =>
      unfold step at hc
      dsimp only at hc
      split at hc
      · exact hstart _ (by simp) hc
      · exact .inl hc
  | persistIntent | persistManual | reviewAll | ensureCompletion | resolve | promote
  | deleteToken => exact .inl hc

theorem MarksStored.step (host : Host) (op : Op) (h : MarksStored w) :
    MarksStored (step host w op) := by
  intro record cause hc
  obtain ⟨kind, _, hchanges⟩ := step_changes_any host w op
  have hgo : ∀ r ∈ w.db.billingSettlements, r.id = record.id ∧
      r.operationKey = record.operationKey ∧ r.taskID = record.taskID →
      ∃ r' ∈ (Settlement.step host w op).db.billingSettlements, r'.id = record.id ∧
        r'.operationKey = record.operationKey ∧ r'.taskID = record.taskID := by
    intro r hr hid
    obtain ⟨r', hr', he⟩ := hchanges.evolves hr
    exact ⟨r', hr', he.identity.1.trans hid.1, he.identity.2.1.trans hid.2.1,
      he.identity.2.2.trans hid.2.2⟩
  rcases step_marks hc with hc | hmem
  · obtain ⟨r, hr, hid⟩ := h record cause hc
    exact hgo r hr hid
  · exact hgo record hmem ⟨rfl, rfl, rfl⟩

end steps

/-! ### Every review leaves a decision -/

theorem RecordEdit.decided {C : ChangeKind → Prop} {s : Tables} {r r' : BillingSettlement}
    (h : RecordEdit C s r r')
    (hr : r.reconciliationReviewedAt ≠ 0 → r.userBlockingOverride ≠ none) :
    r'.reconciliationReviewedAt ≠ 0 → r'.userBlockingOverride ≠ none := by
  cases h with
  | failed record cause now =>
      by_cases hreset : failureResetsReview record cause
      · exact fun h0 => absurd (failedRecord_erased r hreset True).reviewedAt h0
      · have hfields := failedRecord_reviewFields now r hreset
        unfold reviewFields at hfields
        simp only [Prod.mk.injEq] at hfields
        rw [hfields.1, hfields.2.2.2]
        exact hr
  | reviewed | resolved => exact fun _ => by simp [reviewedRecord, resolvedRecord]
  | reapproved => exact hr
  | promoted => exact fun h0 => absurd rfl h0

theorem Decided.change {A : BillingSettlementInput → Prop} {C : ChangeKind → Prop} {s s' : Tables}
    (h : Change A C s s') (hs : Decided s) : Decided s' := by
  intro r' hr'
  cases h with
  | createPending | createManual =>
      rcases Table.mem_insert hr' with hr | ⟨rfl, _⟩
      · exact hs r' hr
      · exact fun h0 => absurd rfl h0
  | select | deleteToken => exact hs r' hr'
  | edit p dec m hedit =>
      obtain ⟨r, hr, rfl⟩ := Table.mem_update.mp hr'
      split
      · next hp => exact (hedit r hr hp).decided (hs r hr)
      · exact hs r hr
  | apply input now current applied appliedToken s' hA hC happ =>
      obtain ⟨r, hr, rfl⟩ := happ.mem_settlements.mp hr'
      split
      · exact hs r hr
      · exact hs r hr
  | effect record a effect now hC ha hc hu =>
      obtain ⟨r, hr, rfl⟩ := mem_setEffectStatus.mp hr'
      rw [countUsage_billingSettlements] at hr
      split
      · exact hs r hr
      · exact hs r hr

/-! ### Runs -/

/-- The evidence each record had when its review was written. -/
abbrev Seen := ℤ → Option (String × SettlementStatus)

/-- Note the evidence of the records the operation reviews. -/
def noteReviews (w : World) (op : Op) (seen : Seen) : Seen := fun id =>
  match w.db.billingSettlements.first? (fun r => r.id = id ∧ writesReview w r op = true) with
  | some r => some (evidence r)
  | none => seen id

/-- The system with the evidence of its reviews. -/
def watch (host : Host) (v : World × Seen) (op : Op) : World × Seen :=
  (step host v.1 op, noteReviews v.1 op v.2)

/-- A pending or manual record that carries a review has the error and the status it had when the
review was written. -/
def Stands (v : World × Seen) : Prop :=
  ∀ r ∈ v.1.db.billingSettlements, Watched r → r.reconciliationReviewedAt ≠ 0 →
    v.2 r.id = some (evidence r)

/-- A change of the error or the status of a reviewed record resets its review. -/
def ResetsOnChange (host : Host) (w : World) (op : Op) : Prop :=
  ∀ r ∈ w.db.billingSettlements, Watched r → r.reconciliationReviewedAt ≠ 0 →
    ∀ r' ∈ (step host w op).db.billingSettlements, r'.id = r.id → Watched r' →
      evidence r' ≠ evidence r → Erased op.promotes r'

/-- A failure leaves the approval of a manual completion as it is. -/
def FailureKeepsApproval (host : Host) (w : World) (op : Op) : Prop :=
  ∀ i now fault claimToken record cause, op = .proceed i now fault claimToken →
    w.calls[i]? = some (.mark record cause) →
      ∀ r ∈ w.db.billingSettlements, isCompletion r →
        ∀ r' ∈ (step host w op).db.billingSettlements, r'.id = r.id →
          reviewFields r' = reviewFields r

/-- What holds in a state and of the next operation. -/
structure ReviewsKept (host : Host) (v : World × Seen) (op : Op) : Prop where
  stands : Stands v
  blocking : BlockingAgrees v.1.db
  resets : ResetsOnChange host v.1 op
  approvals : FailureKeepsApproval host v.1 op

section runs

variable {host : Host} {w : World} {op : Op} {seen : Seen}

/-- The evidence of a record that is not reviewed is not noted. -/
theorem noteReviews_of_not {id : ℤ}
    (h : ∀ r ∈ w.db.billingSettlements, r.id = id → writesReview w r op = false) :
    noteReviews w op seen id = seen id := by
  unfold noteReviews
  split
  · next r hfirst =>
      obtain ⟨hr, hid, hwrites⟩ := Table.first?_mem hfirst
      rw [h r hr hid] at hwrites
      exact absurd hwrites (by decide)
  · rfl

theorem noteReviews_of_writes {r : BillingSettlement} (hr : r ∈ w.db.billingSettlements)
    (h : writesReview w r op = true) : noteReviews w op seen r.id = some (evidence r) := by
  unfold noteReviews
  rw [Table.first?_eq_some (r := r) hr ⟨rfl, h⟩]
  intro a ha ⟨hid, _⟩
  exact Table.eq_of_clash ha hr (.inl hid)

theorem Outcomes.stands {s' : Tables} (h : Outcomes w op s') (hs : Stands (w, seen))
    {r' : BillingSettlement}
    (hr' : r' ∈ s'.billingSettlements) (hw : Watched r') (h0 : r'.reconciliationReviewedAt ≠ 0) :
    noteReviews w op seen r'.id = some (evidence r') := by
  obtain ⟨r, hr, hid⟩ := (h.fresh r' hr' hw).resolve_left h0
  obtain ⟨a, ha, ho⟩ := h.keeps r hr
  obtain rfl : a = r' := Table.eq_of_clash ha hr' (.inl (ho.identity.1.trans hid))
  rcases ho.review hw with ⟨he, hfields⟩ | herased | ⟨_, h0'⟩
  · rw [← hid, he]
    by_cases hwrites : writesReview w r op = true
    · exact noteReviews_of_writes hr hwrites
    · have hsame := hfields.resolve_right hwrites
      rw [noteReviews_of_not]
      · have hwatched : Watched r := by
          have hstatus : a.status = r.status := congrArg Prod.snd he
          have hiff := isCompletion_congr ho.identity.2.1 ho.identity.2.2
          exact ⟨hstatus ▸ hw.1, fun hc => hw.2 (hiff.mpr hc)⟩
        exact hs r hr hwatched fun h => h0 ((congrArg Prod.fst hsame).trans h)
      · intro b hb hbid
        obtain rfl : b = r := Table.eq_of_clash hb hr (.inl hbid)
        exact Bool.not_eq_true _ ▸ hwrites
  · exact absurd herased.reviewedAt h0
  · exact absurd h0' h0

theorem Outcomes.resets (h : Outcomes w op (step host w op).db) : ResetsOnChange host w op := by
  intro r hr _ h0 r' hr' hid hw hne
  obtain ⟨a, ha, ho⟩ := h.keeps r hr
  obtain rfl : a = r' := Table.eq_of_clash ha hr' (.inl (ho.identity.1.trans hid.symm))
  rcases ho.review hw with ⟨he, _⟩ | herased | ⟨h0', _⟩
  · exact absurd he hne
  · exact herased
  · exact absurd h0' h0

theorem MarksStored.approvals (h : MarksStored w) : FailureKeepsApproval host w op := by
  rintro i now fault claimToken record cause rfl hcall r hr hc r' hr' hid
  rw [step_proceed host hcall] at hr'
  obtain ⟨a, ha, rfl⟩ := Table.mem_update.mp hr'
  split at hid
  · next hp =>
      rw [(failedRecord_identity record cause now a).1] at hid
      obtain rfl : a = r := Table.eq_of_clash ha hr (.inl hid)
      rw [if_pos hp]
      refine failedRecord_reviewFields now a fun hreset => hreset.2 ?_
      exact (h.isCompletion_iff (List.mem_of_getElem? hcall) hr hp.1).mpr hc
  · next hp =>
      obtain rfl : a = r := Table.eq_of_clash ha hr (.inl hid)
      rw [if_neg hp]

/-- **Reviews stand for their evidence.** In every run in which no failure keeps a review that was
written on another error than the one its call has read: the review of a pending or manual record
stands for the stored error and status, a change of these resets it, no failure erases the approval
of a completion, and admission agrees with the page of the administrator about who is blocked. -/
theorem review_stands (host : Host) (v : World × Seen) (hcalls : v.1.calls = [])
    (hstands : Stands v) (hdecided : Decided v.1.db) (ops : List Op)
    (hops : Transition.Throughout (watch host) (fun v op => UpToDate v.1 op) v ops) :
    Transition.Throughout (watch host) (ReviewsKept host) v ops ∧
      Stands (Transition.run (watch host) v ops) ∧
      BlockingAgrees (Transition.run (watch host) v ops).1.db := by
  have hinv : ∀ (v : World × Seen) (op : Op), UpToDate v.1 op →
      (Stands v ∧ Decided v.1.db ∧ MarksStored v.1) →
        Stands (watch host v op) ∧ Decided (watch host v op).1.db ∧
          MarksStored (watch host v op).1 := by
    rintro ⟨w, seen⟩ op hup ⟨hs, hd, hm⟩
    have hout := step_outcomes host hm hup
    obtain ⟨_, _, hc⟩ := step_changes_any host w op
    exact ⟨fun r hr hw h0 => hout.stands hs hr hw h0, hc.preserve Decided.change hd,
      hm.step host op⟩
  have hstart : Stands v ∧ Decided v.1.db ∧ MarksStored v.1 := by
    refine ⟨hstands, hdecided, fun record cause hc => ?_⟩
    rw [hcalls] at hc
    exact absurd hc List.not_mem_nil
  obtain ⟨hs, hd, _⟩ := Transition.throughout_invariant (watch host) hinv ops v hops hstart
  refine ⟨?_, hs, hd.blockingAgrees⟩
  refine Transition.throughout_of_invariant (watch host) hinv ?_ ops v hops hstart
  rintro ⟨w, seen⟩ op hup ⟨hs, hd, hm⟩
  exact ⟨hs, hd.blockingAgrees, (step_outcomes host hm hup).resets, hm.approvals⟩

end runs

/-! ### A failure that comes late -/

/-- Two retries of one charge fail.  The first has read the error "timeout" and fails with it
again; in between the second has failed with "deadlock", and the administrator has reviewed that. -/
def lateFailure : List Op :=
  [.apply (demoCharge 30), .proceed 0 1 .none "", .proceed 0 1 (.aborted "timeout") "",
    .proceed 0 1 .none "", .proceed 0 1 .none "",
    .runner 10, .runner 10, .proceed 1 10 .none "", .proceed 2 10 .none "",
    .proceed 1 11 (.aborted "timeout") "", .proceed 2 11 (.aborted "deadlock") "",
    .proceed 1 12 .none "", .proceed 2 12 .none "", .proceed 2 12 .none "",
    .review 1 5 false "known deadlock", .proceed 3 13 .none "", .proceed 1 14 .none ""]

/-- Without the last step, the review stands for the deadlock. -/
theorem review_stands_deadlock :
    (Transition.Throughout (watch (plainHost demoEffect)) (ReviewsKept (plainHost demoEffect))
        (demoWorld, fun _ => none) lateFailure.dropLast ∧
      Stands (Transition.run (watch (plainHost demoEffect)) (demoWorld, fun _ => none)
        lateFailure.dropLast) ∧
      BlockingAgrees (Transition.run (watch (plainHost demoEffect)) (demoWorld, fun _ => none)
        lateFailure.dropLast).1.db) ∧
    (Transition.run (watch (plainHost demoEffect)) (demoWorld, fun _ => none)
      lateFailure.dropLast).1.db.billingSettlements.rows.map
        (fun r => (reviewFields r, evidence r)) =
        [((13, 5, "known deadlock", some false), ("deadlock", .pending))] :=
  ⟨review_stands (plainHost demoEffect) (demoWorld, fun _ => none) rfl
    (fun r hr => absurd hr List.not_mem_nil) (fun r hr => absurd hr List.not_mem_nil)
    lateFailure.dropLast (by decide +kernel), by decide +kernel⟩

/-- **The review of the deadlock now stands for the timeout**, and the user is not blocked. -/
theorem review_of_another_error :
    ¬ (∀ (host : Host) (v : World × Seen), v.1.calls = [] → Stands v → Decided v.1.db →
      ∀ ops, Stands (Transition.run (watch host) v ops)) := by
  intro h
  have hstands := h (plainHost demoEffect) (demoWorld, fun _ => none) rfl
    (fun r hr => absurd hr List.not_mem_nil) (fun r hr => absurd hr List.not_mem_nil) lateFailure
  have hbad : ∃ r ∈ (Transition.run (watch (plainHost demoEffect)) (demoWorld, fun _ => none)
      lateFailure).1.db.billingSettlements.rows, Watched r ∧ r.reconciliationReviewedAt ≠ 0 ∧
        (Transition.run (watch (plainHost demoEffect)) (demoWorld, fun _ => none)
          lateFailure).2 r.id ≠ some (evidence r) := by
    decide +kernel
  obtain ⟨r, hr, hw, h0, hne⟩ := hbad
  exact hne (hstands r hr hw h0)

end MaxApi.Settlement
