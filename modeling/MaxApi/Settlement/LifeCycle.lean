import MaxApi.Settlement.Changes

/-! # The life cycle of a settlement record

A record is created pending or manual.  A pending record is applied or fails; a manual record is
reopened by a promotion or by a second approval, or is closed once the completion of its task is
applied; an applied record stays as it is.  `Evolves` says what the changes of one kind can make of
a record, in any number; it is a preorder, so it carries over from one elementary change to a step
(`Changes.evolves`).  What a kind of changes means for the operation that made them is read off
`Op.Kinds`. -/

namespace MaxApi.Settlement

open Relational MaxApi.Billing

/-! ### What one kind of changes does to a record -/

/-- The requested and the applied amounts of a record. -/
def deltas (r : BillingSettlement) : ℤ × ℤ × ℤ × ℤ :=
  (r.fundingDelta, r.tokenDelta, r.appliedFundingDelta, r.appliedTokenDelta)

/-- The record with its four review fields blank. -/
def withoutReview (r : BillingSettlement) : BillingSettlement :=
  { r with
    reconciliationReviewedAt := 0
    reconciliationReviewedBy := 0
    reconciliationReviewNote := ""
    userBlockingOverride := none }

/-- The statuses a kind of changes leads from and to, if it changes the status at all. -/
def ChangeKind.edge : ChangeKind → Option (SettlementStatus × SettlementStatus)
  | .application => some (.pending, .applied)
  | .failure => some (.pending, .manual)
  | .promotion _ => some (.manual, .pending)
  | .reapproval _ _ => some (.manual, .pending)
  | .resolution _ => some (.manual, .applied)
  | _ => none

/-- The records a kind of changes may move along its edge. -/
def ChangeKind.Fits (r : BillingSettlement) : ChangeKind → Prop
  | .promotion operationKey => operationKey = r.operationKey
  | .reapproval reviewerID note =>
      billingSettlementIsManualTaskCompletion r.operationKey r.taskID ∧
        r.reconciliationReviewedBy = reviewerID ∧ r.reconciliationReviewNote = note
  | .resolution id => id = r.id
  | _ => True

/-- The record keeps its status or takes the edge of the kind. -/
def KindEdge (kind : ChangeKind) (r r' : BillingSettlement) : Prop :=
  r'.status = r.status ∨ (kind.edge = some (r.status, r'.status) ∧ kind.Fits r)

/-- What changes of one kind can make of the record `r`. -/
structure Evolves (kind : ChangeKind) (r r' : BillingSettlement) : Prop where
  identity : r'.id = r.id ∧ r'.operationKey = r.operationKey ∧ r'.taskID = r.taskID
  edge : KindEdge kind r r'
  absorbing : r.status = .applied → deltas r' = deltas r
  monotone : r.revision ≤ r'.revision
  strict : r'.status ≠ r.status ∨ deltas r' ≠ deltas r → r.revision < r'.revision
  review : kind = .review ∨ kind = .creation → withoutReview r' = withoutReview r
  reviewer : (∃ reviewerID note, kind = .reapproval reviewerID note) →
    r'.reconciliationReviewedBy = r.reconciliationReviewedBy ∧
      r'.reconciliationReviewNote = r.reconciliationReviewNote

section evolves

variable {A : BillingSettlementInput → Prop} {kind : ChangeKind} {s s' : Tables}
variable {r r' r'' : BillingSettlement}

theorem Evolves.refl (kind : ChangeKind) (r : BillingSettlement) : Evolves kind r r where
  identity := ⟨rfl, rfl, rfl⟩
  edge := .inl rfl
  absorbing _ := rfl
  monotone := le_rfl
  strict h := by simp at h
  review _ := rfl
  reviewer _ := ⟨rfl, rfl⟩

/-- An edge leads to another status, and none leaves the status applied. -/
theorem ChangeKind.edge_ne {a b : SettlementStatus} (h : kind.edge = some (a, b)) :
    a ≠ b ∧ a ≠ .applied := by
  cases kind <;> simp [ChangeKind.edge] at h <;> obtain ⟨rfl, rfl⟩ := h <;> decide

theorem KindEdge.applied_stays (h : KindEdge kind r r') (hr : r.status = .applied) :
    r'.status = .applied := by
  rcases h with h | ⟨h, _⟩
  · exact h.trans hr
  · exact absurd hr (ChangeKind.edge_ne h).2

/-- Whether a record may be moved depends on what changes of the kind leave alone. -/
theorem Evolves.fits (h : Evolves kind r r') (hf : kind.Fits r') : kind.Fits r := by
  obtain ⟨hid, hkey, htask⟩ := h.identity
  cases kind with
  | promotion operationKey => exact hf.trans hkey
  | reapproval reviewerID note =>
      obtain ⟨hby, hnote⟩ := h.reviewer ⟨_, _, rfl⟩
      unfold ChangeKind.Fits at hf ⊢
      rw [hkey, htask, hby, hnote] at hf
      exact hf
  | resolution id => exact hf.trans hid
  | _ => trivial

/-- Changes of one kind take its edge at most once. -/
theorem Evolves.edge_trans (h : Evolves kind r r') (h' : Evolves kind r' r'') :
    KindEdge kind r r'' := by
  rcases h.edge with e | ⟨e, hf⟩
  · rcases h'.edge with e' | ⟨e', hf'⟩
    · exact .inl (e'.trans e)
    · exact .inr ⟨e ▸ e', h.fits hf'⟩
  · rcases h'.edge with e' | ⟨e', _⟩
    · exact .inr ⟨e'.symm ▸ e, hf⟩
    · rw [e] at e'
      simp only [Option.some.injEq, Prod.mk.injEq] at e'
      exact absurd e'.1 (ChangeKind.edge_ne e).1

theorem Evolves.trans (h : Evolves kind r r') (h' : Evolves kind r' r'') : Evolves kind r r'' where
  identity := by
    obtain ⟨hid, hkey, htask⟩ := h.identity
    obtain ⟨hid', hkey', htask'⟩ := h'.identity
    exact ⟨hid'.trans hid, hkey'.trans hkey, htask'.trans htask⟩
  edge := h.edge_trans h'
  absorbing hr := (h'.absorbing (h.edge.applied_stays hr)).trans (h.absorbing hr)
  monotone := h.monotone.trans h'.monotone
  strict hne := by
    have hm := h.monotone
    have hm' := h'.monotone
    by_cases hst : r'.status ≠ r.status ∨ deltas r' ≠ deltas r
    · have := h.strict hst
      omega
    · obtain ⟨e, d⟩ := not_or.mp hst
      rw [not_not] at e d
      rw [← e, ← d] at hne
      have := h'.strict hne
      omega
  review hk := (h'.review hk).trans (h.review hk)
  reviewer hk := by
    obtain ⟨hby, hnote⟩ := h.reviewer hk
    obtain ⟨hby', hnote'⟩ := h'.reviewer hk
    exact ⟨hby'.trans hby, hnote'.trans hnote⟩

/-- The kind of a change that is not a creation. -/
theorem ChangeKind.orCreation_eq {k : ChangeKind} (h : kind.orCreation k) (hk : k ≠ .creation) :
    k = kind := h.resolve_left hk

theorem RecordEdit.evolves (h : RecordEdit kind.orCreation s r r') : Evolves kind r r' := by
  cases h with
  | failed record cause now hC hr =>
      obtain rfl := ChangeKind.orCreation_eq hC (by decide)
      obtain ⟨_, _, _, _, h⟩ := failedRecord_eq record cause now r
      rw [h]
      refine ⟨⟨rfl, rfl, rfl⟩, ?_, fun _ => rfl, ?_, fun _ => ?_, by simp, by simp⟩
      · rcases failureStatus_eq record cause with hs | hs
        · exact .inl (hs.trans hr.symm)
        · refine .inr ⟨?_, trivial⟩
          dsimp only
          rw [hr, hs]
          rfl
      · dsimp only
        omega
      · dsimp only
        omega
  | reviewed reviewerID blockUser note now hC =>
      obtain rfl := ChangeKind.orCreation_eq hC (by decide)
      exact ⟨⟨rfl, rfl, rfl⟩, .inl rfl, fun _ => rfl, le_rfl,
        fun h => by simp [reviewedRecord, deltas] at h, fun _ => rfl, by simp⟩
  | reapproved reviewerID note now hC hr hkey hby hnote =>
      obtain rfl := ChangeKind.orCreation_eq hC (by simp)
      refine ⟨⟨rfl, rfl, rfl⟩, .inr ⟨by rw [hr]; rfl, hkey, hby, hnote⟩, fun _ => rfl, ?_,
        fun _ => ?_, by simp, fun _ => ⟨rfl, rfl⟩⟩
      · simp [reapprovedRecord]
      · simp [reapprovedRecord]
  | resolved completion reviewerID note now hC hr =>
      obtain rfl := ChangeKind.orCreation_eq hC (by simp)
      refine ⟨⟨rfl, rfl, rfl⟩, .inr ⟨by rw [hr]; rfl, rfl⟩, fun _ => rfl, ?_, fun _ => ?_, by simp,
        by simp⟩
      · simp [resolvedRecord]
      · simp [resolvedRecord]
  | promoted input payload recoveryNote auditNote now hC hr =>
      obtain rfl := ChangeKind.orCreation_eq hC (by simp)
      refine ⟨⟨rfl, rfl, rfl⟩, .inr ⟨by rw [hr]; rfl, rfl⟩, fun h => ?_, ?_, fun _ => ?_, by simp,
        by simp⟩
      · exact absurd (hr.symm.trans h) (by decide)
      · simp [promotedRecord]
      · simp [promotedRecord]

/-- One elementary change keeps every record, evolved. -/
theorem Change.evolves (h : Change A kind.orCreation s s') (hr : r ∈ s.billingSettlements) :
    ∃ r' ∈ s'.billingSettlements, Evolves kind r r' := by
  cases h with
  | createPending | createManual =>
      exact ⟨r, Table.mem_insert_of_mem hr, .refl kind r⟩
  | select | deleteToken => exact ⟨r, hr, .refl kind r⟩
  | edit p dec m hedit =>
      refine ⟨_, Table.mem_update.mpr ⟨r, hr, rfl⟩, ?_⟩
      by_cases hp : p r
      · rw [if_pos hp]
        exact (hedit r hr hp).evolves
      · rw [if_neg hp]
        exact .refl kind r
  | apply input now current applied appliedToken s' hA hC happ =>
      obtain rfl := ChangeKind.orCreation_eq hC (by decide)
      refine ⟨_, happ.mem_settlements.mpr ⟨r, hr, rfl⟩, ?_⟩
      split
      · next hp =>
        refine ⟨⟨rfl, rfl, rfl⟩, .inr ⟨by rw [hp.2]; rfl, trivial⟩, fun h => ?_, ?_,
          fun _ => ?_, by simp, by simp⟩
        · exact absurd (hp.2.symm.trans h) (by decide)
        · simp [appliedRecord]
        · simp [appliedRecord]
      · exact .refl _ r
  | effect record a effect now hC ha hc hu =>
      obtain rfl := ChangeKind.orCreation_eq hC (by decide)
      have hr' : r ∈ (countUsage record effect s).billingSettlements := by
        rw [countUsage_billingSettlements]
        exact hr
      refine ⟨_, mem_setEffectStatus.mpr ⟨r, hr', rfl⟩, ?_⟩
      split
      · exact ⟨⟨rfl, rfl, rfl⟩, .inl rfl, fun _ => rfl, le_rfl,
          fun h => by simp [withEffectStatus, deltas] at h, by simp, by simp⟩
      · exact .refl _ r

/-- Any number of changes of one kind keeps every record, evolved. -/
theorem Changes.evolves (h : Changes A kind.orCreation s s') (hr : r ∈ s.billingSettlements) :
    ∃ r' ∈ s'.billingSettlements, Evolves kind r r' := by
  induction h with
  | refl => exact ⟨r, hr, .refl kind r⟩
  | tail _ hc ih =>
      obtain ⟨r', hr', he⟩ := ih
      obtain ⟨r'', hr'', he'⟩ := hc.evolves hr'
      exact ⟨r'', hr'', he.trans he'⟩

end evolves

/-! ### What one operation does to a record -/

/-- The edges of the life cycle, by the operation that takes them. -/
inductive StatusEdge (w : World) (op : Op) (r r' : BillingSettlement) : Prop where
  | same (h : r'.status = r.status)
  /-- A pending record is applied, or its failure sends it to manual review. -/
  | settled (h : r.status = .pending) (h' : r'.status = .applied ∨ r'.status = .manual)
  /-- A manual record is promoted. -/
  | promoted (input : BillingSettlementInput) (reasonPrefix recoveryNote : String) (now : ℤ)
      (hop : op = .promote input reasonPrefix recoveryNote now)
      (hkey : input.operationKey = r.operationKey)
      (h : r.status = .manual) (h' : r'.status = .pending)
  /-- The reviewer of a manual completion approves it again, with the same note. -/
  | reapproved (input : BillingSettlementInput) (now : ℤ)
      (hop : op = .ensureCompletion input r.reconciliationReviewedBy r.reconciliationReviewNote now)
      (hkey : billingSettlementIsManualTaskCompletion r.operationKey r.taskID)
      (h : r.status = .manual) (h' : r'.status = .pending)
  /-- A manual record is resolved while the completion of its task is applied. -/
  | resolved (expectedRevision reviewerID : ℤ) (note : String) (now : ℤ)
      (completion : BillingSettlement)
      (hop : op = .resolve r.id expectedRevision reviewerID note now)
      (hmem : completion ∈ w.db.billingSettlements)
      (hkey : completion.operationKey = billingTaskManualCompletionOperationKey r.taskID)
      (htask : completion.taskID = r.taskID) (hstatus : completion.status = .applied)
      (h : r.status = .manual) (h' : r'.status = .applied)

/-- The operation is a step of `ReviewBillingSettlement` or of `ReviewBillingSettlements`. -/
def Op.IsReview (w : World) : Op → Prop
  | .review _ _ _ _ => True
  | .reviewAll _ _ _ => True
  | .proceed i _ _ _ =>
      ∃ record reviewerID blockUser note,
        w.calls[i]? = some (.review record reviewerID blockUser note)
  | _ => False

/-- What an operation may make of the record `r`. -/
structure LifeCycle (w : World) (op : Op) (r r' : BillingSettlement) : Prop where
  identity : r'.id = r.id ∧ r'.operationKey = r.operationKey
  absorbing : r.status = .applied → r'.status = .applied ∧ deltas r' = deltas r
  edge : StatusEdge w op r r'
  revision : r'.status ≠ r.status ∨ deltas r' ≠ deltas r → r.revision < r'.revision
  review : op.IsReview w → withoutReview r' = withoutReview r

/-- Every record of the store is still there after the operation, as its life cycle allows. -/
def StepKeepsLifeCycle (host : Host) (w : World) (op : Op) : Prop :=
  ∀ r ∈ w.db.billingSettlements, ∃ r' ∈ (step host w op).db.billingSettlements,
    LifeCycle w op r r'

/-- The applied records of `s` are in `s'` with the same amounts. -/
def AppliedStays (s s' : Tables) : Prop :=
  ∀ r ∈ s.billingSettlements, r.status = .applied → ∃ r' ∈ s'.billingSettlements,
    r'.id = r.id ∧ r'.operationKey = r.operationKey ∧ r'.status = .applied ∧ deltas r' = deltas r

section lifeCycle

variable {w : World} {op : Op} {r r' : BillingSettlement} {kind : ChangeKind}

theorem Op.Kinds.promotion {key : String} (h : op.Kinds w (.promotion key)) :
    ∃ input reasonPrefix recoveryNote now, op = .promote input reasonPrefix recoveryNote now ∧
      input.operationKey = key := by
  cases op with
  | promote input reasonPrefix recoveryNote now =>
      simp only [Op.Kinds, ChangeKind.promotion.injEq] at h
      exact ⟨input, reasonPrefix, recoveryNote, now, rfl, h.symm⟩
  | proceed i now fault claimToken =>
      unfold Op.Kinds at h
      cases hcall : w.calls[i]? with
      | some call => cases call <;> simp [hcall, Call.kind] at h
      | none => simp [hcall] at h
  | _ => simp [Op.Kinds] at h

theorem Op.Kinds.reapproval {reviewerID : ℤ} {note : String}
    (h : op.Kinds w (.reapproval reviewerID note)) :
    ∃ input now, op = .ensureCompletion input reviewerID note now := by
  cases op with
  | ensureCompletion input reviewerID' note' now =>
      simp only [Op.Kinds, reduceCtorEq, ChangeKind.reapproval.injEq, false_or] at h
      obtain ⟨rfl, rfl⟩ := h
      exact ⟨input, now, rfl⟩
  | proceed i now fault claimToken =>
      unfold Op.Kinds at h
      cases hcall : w.calls[i]? with
      | some call => cases call <;> simp [hcall, Call.kind] at h
      | none => simp [hcall] at h
  | _ => simp [Op.Kinds] at h

theorem Op.Kinds.resolution {id : ℤ} (h : op.Kinds w (.resolution id)) :
    ∃ expectedRevision reviewerID note now,
      op = .resolve id expectedRevision reviewerID note now := by
  cases op with
  | resolve id' expectedRevision reviewerID note now =>
      simp only [Op.Kinds, ChangeKind.resolution.injEq] at h
      exact ⟨expectedRevision, reviewerID, note, now, by rw [h]⟩
  | proceed i now fault claimToken =>
      unfold Op.Kinds at h
      cases hcall : w.calls[i]? with
      | some call => cases call <;> simp [hcall, Call.kind] at h
      | none => simp [hcall] at h
  | _ => simp [Op.Kinds] at h

/-- A review makes no change but reviews. -/
theorem Op.IsReview.kind_eq (h : op.IsReview w) (hk : op.Kinds w kind) :
    kind = .review ∨ kind = .creation := by
  cases op with
  | review => exact .inr hk
  | reviewAll => exact .inl hk
  | proceed i now fault claimToken =>
      obtain ⟨_, _, _, _, hcall⟩ := h
      simp only [Op.Kinds, hcall] at hk
      exact .inl hk
  | _ => exact absurd h (by simp [Op.IsReview])

/-- A record that a resolution moved has the applied completion of its task beside it. -/
theorem Change.resolved_completion {A : BillingSettlementInput → Prop} {id : ℤ} {s s' : Tables}
    (h : Change A (ChangeKind.orCreation (.resolution id)) s s') (hr : r ∈ s.billingSettlements) :
    ∃ r' ∈ s'.billingSettlements, r'.id = r.id ∧ (r'.status ≠ r.status →
      ∃ completion ∈ s.billingSettlements,
        completion.operationKey = billingTaskManualCompletionOperationKey r.taskID ∧
          completion.taskID = r.taskID ∧ completion.status = .applied) := by
  cases h with
  | createPending | createManual =>
      exact ⟨r, Table.mem_insert_of_mem hr, rfl, fun h => absurd rfl h⟩
  | select | deleteToken => exact ⟨r, hr, rfl, fun h => absurd rfl h⟩
  | edit p dec m hedit =>
      refine ⟨_, Table.mem_update.mpr ⟨r, hr, rfl⟩, ?_⟩
      by_cases hp : p r
      · rw [if_pos hp]
        have he := hedit r hr hp
        refine ⟨he.evolves.identity.1, fun _ => ?_⟩
        generalize m.set r = r' at he
        cases he with
        | failed _ _ _ hC => exact absurd (ChangeKind.orCreation_eq hC (by simp)) (by simp)
        | reviewed _ _ _ _ hC => exact absurd (ChangeKind.orCreation_eq hC (by simp)) (by simp)
        | reapproved _ _ _ hC => exact absurd (ChangeKind.orCreation_eq hC (by simp)) (by simp)
        | resolved completion _ _ _ _ _ hmem hpair =>
            obtain ⟨_, _, hkey, happlied, _, _, _, _, htask, _⟩ := hpair
            exact ⟨completion, hmem, hkey, htask, happlied⟩
        | promoted _ _ _ _ _ hC => exact absurd (ChangeKind.orCreation_eq hC (by simp)) (by simp)
      · rw [if_neg hp]
        exact ⟨rfl, fun h => absurd rfl h⟩
  | apply _ _ _ _ _ _ _ hC => exact absurd (ChangeKind.orCreation_eq hC (by simp)) (by simp)
  | effect _ _ _ _ hC => exact absurd (ChangeKind.orCreation_eq hC (by simp)) (by simp)

/-- The edge of a kind of changes, as an edge of the operation that made them. -/
theorem Evolves.statusEdge {host : Host} (he : Evolves kind r r') (hk : op.Kinds w kind)
    (hr : r ∈ w.db.billingSettlements) (hr' : r' ∈ (step host w op).db.billingSettlements) :
    StatusEdge w op r r' := by
  rcases he.edge with h | ⟨h, hf⟩
  · exact .same h
  · cases kind with
    | application =>
        simp only [ChangeKind.edge, Option.some.injEq, Prod.mk.injEq] at h
        exact .settled h.1.symm (.inl h.2.symm)
    | failure =>
        simp only [ChangeKind.edge, Option.some.injEq, Prod.mk.injEq] at h
        exact .settled h.1.symm (.inr h.2.symm)
    | promotion operationKey =>
        simp only [ChangeKind.edge, Option.some.injEq, Prod.mk.injEq] at h
        obtain ⟨input, reasonPrefix, recoveryNote, now, hop, hkey⟩ := hk.promotion
        exact .promoted input reasonPrefix recoveryNote now hop (hkey.trans hf) h.1.symm h.2.symm
    | reapproval reviewerID note =>
        simp only [ChangeKind.edge, Option.some.injEq, Prod.mk.injEq] at h
        obtain ⟨input, now, hop⟩ := hk.reapproval
        obtain ⟨hkey, rfl, rfl⟩ := hf
        exact .reapproved input now hop hkey h.1.symm h.2.symm
    | resolution id =>
        simp only [ChangeKind.edge, Option.some.injEq, Prod.mk.injEq] at h
        obtain ⟨expectedRevision, reviewerID, note, now, rfl⟩ := hk.resolution
        have hne : r'.status ≠ r.status := by
          rw [← h.1, ← h.2]
          decide
        rcases resolve_change (A := fun _ => True) host w id expectedRevision reviewerID note now
          with hs | hs
        · rw [hs] at hr'
          exact absurd (congrArg _ (Table.eq_of_clash hr' hr (.inl he.identity.1))) hne
        · obtain ⟨a, ha, hid, hcompletion⟩ := hs.resolved_completion hr
          obtain rfl : a = r' := Table.eq_of_clash ha hr' (.inl (hid.trans he.identity.1.symm))
          obtain ⟨completion, hmem, hkey, htask, happlied⟩ := hcompletion hne
          exact .resolved expectedRevision reviewerID note now completion (hf ▸ rfl) hmem hkey htask
            happlied h.1.symm h.2.symm
    | _ => exact absurd h (by simp [ChangeKind.edge])

theorem step_keeps_lifeCycle (host : Host) (w : World) (op : Op) :
    StepKeepsLifeCycle host w op := by
  intro r hr
  obtain ⟨kind, hk, hc⟩ := step_changes_any host w op
  obtain ⟨r', hr', he⟩ := hc.evolves hr
  exact ⟨r', hr', ⟨he.identity.1, he.identity.2.1⟩,
    fun h => ⟨he.edge.applied_stays h, he.absorbing h⟩, he.statusEdge hk hr hr', he.strict,
    fun h => he.review (h.kind_eq hk)⟩

/-- **The life cycle of a settlement record.**  Whatever the state of the store, an operation
moves a record along the edges of the life cycle only, and an applied record never changes its
status or an amount again. -/
theorem settlement_life_cycle (host : Host) (w : World) :
    (∀ op, StepKeepsLifeCycle host w op) ∧ ∀ ops, AppliedStays w.db (runs host w ops).db := by
  refine ⟨step_keeps_lifeCycle host w, fun ops r hr hst => ?_⟩
  refine Transition.run_invariant (I := fun v => ∃ r' ∈ v.db.billingSettlements, r'.id = r.id ∧
    r'.operationKey = r.operationKey ∧ r'.status = .applied ∧ deltas r' = deltas r) (step host)
    ?_ ops w ⟨r, hr, rfl, rfl, hst, rfl⟩
  rintro v op ⟨a, ha, hid, hkey, hsa, hd⟩
  obtain ⟨b, hb, hl⟩ := step_keeps_lifeCycle host v op a ha
  obtain ⟨hsb, hdb⟩ := hl.absorbing hsa
  exact ⟨b, hb, hl.identity.1.trans hid, hl.identity.2.trans hkey, hsb, hdb.trans hd⟩

end lifeCycle

end MaxApi.Settlement
