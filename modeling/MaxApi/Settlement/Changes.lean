import MaxApi.Settlement.System
import Mathlib.Logic.Relation

/-! # What a step of the settlement store can write

Every operation of the system changes the main database by a sequence of the few `Change`s below.
This is the only place where the bodies of the operations are taken apart: the laws of the store
are proved for one `Change` and hold for every step and every run. -/

namespace MaxApi.Settlement

open Relational MaxApi.Billing

/-! ### Changes of one record that move no balance -/

/-- The kinds of elementary changes, with what distinguishes two changes of one kind. -/
inductive ChangeKind where
  | creation
  | selection
  | failure
  | review
  | reapproval (reviewerID : ℤ) (note : String)
  | resolution (id : ℤ)
  | promotion (operationKey : String)
  | application
  | effect
  | tokenDeletion
  deriving DecidableEq

/-- Creations and changes of one further kind. -/
def ChangeKind.orCreation (kind : ChangeKind) (k : ChangeKind) : Prop := k = .creation ∨ k = kind

/-- The record `r` of the database `s` becomes `r'`, and no balance moves. -/
inductive RecordEdit (C : ChangeKind → Prop) (s : Tables) (r : BillingSettlement) :
    BillingSettlement → Prop where
  /-- A pending settlement failed. -/
  | failed (record : BillingSettlement) (cause : Failure) (now : ℤ) (hC : C .failure)
      (hr : r.status = .pending) : RecordEdit C s r (failedRecord record cause now r)
  /-- An administrator left a review. -/
  | reviewed (reviewerID : ℤ) (blockUser : Bool) (note : String) (now : ℤ) (hC : C .review) :
      RecordEdit C s r (reviewedRecord reviewerID blockUser note now r)
  /-- The administrator who approved a failed completion approved it again. -/
  | reapproved (reviewerID : ℤ) (note : String) (now : ℤ) (hC : C (.reapproval reviewerID note))
      (hr : r.status = .manual)
      (hkey : billingSettlementIsManualTaskCompletion r.operationKey r.taskID)
      (hreviewer : r.reconciliationReviewedBy = reviewerID)
      (hnote : r.reconciliationReviewNote = note) : RecordEdit C s r (reapprovedRecord now r)
  /-- The completion of the task of a manual record has been applied. -/
  | resolved (completion : BillingSettlement) (reviewerID : ℤ) (note : String) (now : ℤ)
      (hC : C (.resolution r.id)) (hr : r.status = .manual)
      (hc : completion ∈ s.billingSettlements)
      (hpair : validateManualTaskBillingCompletionPair r completion reviewerID note) :
      RecordEdit C s r (resolvedRecord reviewerID note now r)
  /-- The poller gave a manual record its amount. -/
  | promoted (input : BillingSettlementInput) (effectPayload recoveryNote auditNote : String)
      (now : ℤ) (hC : C (.promotion r.operationKey)) (hr : r.status = .manual)
      (hkey : r.operationKey = input.operationKey) (hquota : r.taskQuota = input.taskQuota) :
      RecordEdit C s r (promotedRecord input effectPayload recoveryNote auditNote now r)

/-- Who an operation charges, and for what. -/
structure Parties where
  source : FundingSource
  userID : ℤ
  subscriptionID : ℤ
  tokenID : ℤ
  taskID : ℤ
  deriving DecidableEq

def parties (r : BillingSettlement) : Parties where
  source := r.source
  userID := r.userID
  subscriptionID := r.subscriptionID
  tokenID := r.tokenID
  taskID := r.taskID

/-- An edit changes neither the key nor the parties nor the task quota of the operation. -/
theorem RecordEdit.identity {C : ChangeKind → Prop} {s : Tables} {r r' : BillingSettlement}
    (h : RecordEdit C s r r') :
    parties r' = parties r ∧ r'.operationKey = r.operationKey ∧ r'.taskQuota = r.taskQuota := by
  cases h with
  | failed record cause now =>
      obtain ⟨_, _, _, _, h⟩ := failedRecord_eq record cause now r
      rw [h]
      exact ⟨rfl, rfl, rfl⟩
  | reviewed | reapproved | resolved | promoted => exact ⟨rfl, rfl, rfl⟩

/-! ### Changes of the database -/

/-- The usage an effect adds. -/
def countUsage (record : BillingSettlement) (effect : BillingSettlementEffect) (s : Tables) :
    Tables :=
  if countsUsage record effect then
    addChannelUsage effect.channelID (effectQuota record effect)
      (addUserUsage record.userID (effectQuota record effect) s)
  else s

/-- One elementary change of the main database, of a kind in `C`, and requested by an input that
satisfies `A` where it creates or applies a record. -/
inductive Change (A : BillingSettlementInput → Prop) (C : ChangeKind → Prop) (s : Tables) :
    Tables → Prop where
  /-- A pending record is created, unless its key is taken. -/
  | createPending (input : BillingSettlementInput) (effectPayload : String) (now : ℤ)
      (hA : A input) (hC : C .creation) : Change A C s { s with
        billingSettlements := s.billingSettlements.insert
          (pendingRecord input effectPayload now (s.billingSettlements.nextID (·.id))) }
  /-- A manual record is created, unless its key is taken. -/
  | createManual (input : BillingSettlementInput) (reason : String) (now : ℤ)
      (hA : A input) (hC : C .creation) : Change A C s { s with
        billingSettlements := s.billingSettlements.insert
          (manualRecord input reason now (s.billingSettlements.nextID (·.id))) }
  /-- A request is bound to a funding source. -/
  | select (selections : Table BillingPreConsumeSelection) (hC : C .selection) :
      Change A C s { s with billingPreConsumeSelections := selections }
  /-- Records are edited without moving a balance. -/
  | edit (p : BillingSettlement → Prop) (dec : DecidablePred p) (m : SetClause BillingSettlement)
      (h : ∀ r ∈ s.billingSettlements, p r → RecordEdit C s r (m.set r)) :
      Change A C s { s with billingSettlements := s.billingSettlements.update p m }
  /-- A pending record is applied. -/
  | apply (input : BillingSettlementInput) (now : ℤ) (current : BillingSettlement)
      (applied appliedToken : ℤ) (s' : Tables) (hA : A input) (hC : C .application)
      (h : Application input now s current applied appliedToken s') : Change A C s s'
  /-- The effect of an applied record is processed. -/
  | effect (record r : BillingSettlement) (effect : BillingSettlementEffect) (now : ℤ)
      (hC : C .effect) (hr : r ∈ s.billingSettlements) (hc : claimable record r)
      (hu : countsUsage record effect → ∃ u ∈ s.users, u.id = record.userID) :
      Change A C s (setEffectStatus (claimable record) .applied now (countUsage record effect s))
  /-- A token is deleted. -/
  | deleteToken (id : ℤ) (hC : C .tokenDeletion) :
      Change A C s { s with tokens := s.tokens.delete (·.id = id) }

/-- A sequence of elementary changes. -/
abbrev Changes (A : BillingSettlementInput → Prop) (C : ChangeKind → Prop) :
    Tables → Tables → Prop :=
  Relation.ReflTransGen (Change A C)

section changes

variable {A : BillingSettlementInput → Prop} {C : ChangeKind → Prop} {host : Host}
variable {s s' : Tables}

/-- A property of the database that every elementary change preserves is preserved by sequences. -/
theorem Changes.preserve {P : Tables → Prop} (hP : ∀ {s s'}, Change A C s s' → P s → P s')
    (h : Changes A C s s') (hs : P s) : P s' := by
  induction h with
  | refl => exact hs
  | tail _ hc ih => exact hP hc ih

theorem countUsage_billingSettlements (record : BillingSettlement)
    (effect : BillingSettlementEffect) :
    (countUsage record effect s).billingSettlements = s.billingSettlements := by
  unfold countUsage addChannelUsage
  split_ifs
  · rfl
  · rfl
  · rfl

/-- A record that is there after a change belongs to an operation that had a record before, or to an
input whose key was free. -/
theorem Change.origin (h : Change A C s s') {r' : BillingSettlement}
    (hr' : r' ∈ s'.billingSettlements) :
    (∃ r ∈ s.billingSettlements, parties r' = parties r ∧ r'.operationKey = r.operationKey ∧
      r'.taskQuota = r.taskQuota) ∨
    ∃ input, A input ∧ (∀ r ∈ s.billingSettlements, r.operationKey ≠ input.operationKey) ∧
      r'.operationKey = input.operationKey ∧ r'.taskID = input.taskID ∧
      r'.taskQuota = input.taskQuota := by
  cases h with
  | createPending input payload now hA | createManual input reason now hA =>
      rcases Table.mem_insert hr' with hr | ⟨rfl, hfree⟩
      · exact .inl ⟨r', hr, rfl, rfl, rfl⟩
      · exact .inr ⟨input, hA, fun r hr h => hfree r hr (.inr h), rfl, rfl, rfl⟩
  | select | deleteToken => exact .inl ⟨r', hr', rfl, rfl, rfl⟩
  | edit p dec m hedit =>
      dsimp only at hr'
      obtain ⟨r, hr, rfl⟩ := Table.mem_update.mp hr'
      refine .inl ⟨r, hr, ?_⟩
      split
      · next hp => exact (hedit r hr hp).identity
      · exact ⟨rfl, rfl, rfl⟩
  | apply input now current applied appliedToken s' hA hC happ =>
      obtain ⟨r, hr, rfl⟩ := happ.mem_settlements.mp hr'
      refine .inl ⟨r, hr, ?_⟩
      split
      · exact ⟨rfl, rfl, rfl⟩
      · exact ⟨rfl, rfl, rfl⟩
  | effect record a effect now hC ha hc hu =>
      obtain ⟨r, hr, rfl⟩ := mem_setEffectStatus.mp hr'
      rw [countUsage_billingSettlements] at hr
      refine .inl ⟨r, hr, ?_⟩
      split
      · exact ⟨rfl, rfl, rfl⟩
      · exact ⟨rfl, rfl, rfl⟩

/-- A change keeps the record of every operation. -/
theorem Change.keeps (h : Change A C s s') {r : BillingSettlement} (hr : r ∈ s.billingSettlements) :
    ∃ r' ∈ s'.billingSettlements, r'.operationKey = r.operationKey := by
  cases h with
  | createPending | createManual => exact ⟨r, Table.mem_insert_of_mem hr, rfl⟩
  | select | deleteToken => exact ⟨r, hr, rfl⟩
  | edit p dec m hedit =>
      refine ⟨_, Table.mem_update.mpr ⟨r, hr, rfl⟩, ?_⟩
      split
      · exact congrArg Prod.snd (m.keeps r)
      · rfl
  | apply input now current applied appliedToken s' hA hC happ =>
      refine ⟨_, happ.mem_settlements.mpr ⟨r, hr, rfl⟩, ?_⟩
      split
      · rfl
      · rfl
  | effect record a effect now hC ha hc hu =>
      refine ⟨_, mem_setEffectStatus.mpr ⟨r, ?_, rfl⟩, ?_⟩
      · rw [countUsage_billingSettlements]
        exact hr
      · split
        · rfl
        · rfl

/-- A transaction changes what its body changes, or nothing. -/
theorem transaction_changes {α : Type} {x : Tx α}
    (h : ∀ a s', x.Ok s a s' → Changes A C s s') : Changes A C s (transaction x s).2 := by
  rcases transaction_cases x s with ⟨a, s', hok, ht⟩ | ⟨e, ht⟩
  · rw [ht]
    exact h a s' hok
  · rw [ht]

/-! ### Creation -/

theorem ensureBillingSettlementRecordDB_changes (host : Host) (s : Tables)
    {input : BillingSettlementInput} (now : ℤ) (hA : A input) (hC : C .creation) :
    Changes A C s ((ensureBillingSettlementRecordDB host input now).exec s).2 := by
  rcases ensureBillingSettlementRecordDB_exec host input now s with h | ⟨payload, h⟩
  · rw [h]
  · rw [h]
    exact .single (.createPending input payload now hA hC)

theorem ensureManualBillingSettlementRecordDB_changes {input : BillingSettlementInput}
    {reason : String} {now : ℤ} {r : BillingSettlement} (hA : A input) (hC : C .creation)
    (h : (ensureManualBillingSettlementRecordDB host input reason now).Ok s r s') :
    Changes A C s s' := by
  simp only [ensureManualBillingSettlementRecordDB, Txn.ok_bind, Txn.ok_require, Txn.ok_ofExcept,
    insertSettlement_ok, settlementByKey_ok, Txn.ok_pure] at h
  obtain ⟨_, _, ⟨_, rfl⟩, _, _, ⟨_, rfl⟩, _, _, ⟨_, rfl⟩, _, _, ⟨_, rfl⟩, _, _, rfl, _, _,
    ⟨_, rfl⟩, _, _, ⟨_, rfl⟩, _, _, ⟨_, rfl⟩, rfl, rfl⟩ := h
  exact .single (.createManual input _ now hA hC)

/-! ### Application and failure -/

theorem applyBillingSettlementTx_changes {input : BillingSettlementInput} {recordID now : ℤ}
    {result : ℤ × Bool} (hA : A input) (hC : C .application)
    (h : (applyBillingSettlementTx host input recordID now).Ok s result s') : Changes A C s s' := by
  obtain ⟨current, _, _, _, ⟨_, _, rfl⟩ | ⟨applied, appliedToken, _, happ⟩⟩ :=
    applyBillingSettlementTx_ok h
  · exact .refl
  · exact .single (.apply input now current applied appliedToken s' hA hC happ)

theorem claimBillingPreConsumeSourceTx_changes {selection : BillingPreConsumeSelection} {u : Unit}
    (hC : C .selection)
    (h : (claimBillingPreConsumeSourceTx host selection).Ok s u s') : Changes A C s s' := by
  obtain ⟨selections, rfl⟩ := claimBillingPreConsumeSourceTx_ok h
  exact .single (.select selections hC)

theorem markBillingSettlementFailure_changes (record : BillingSettlement) (cause : Failure)
    (now : ℤ) (hC : C .failure) : Changes A C s (markBillingSettlementFailure s record cause now) :=
  .single (.edit _ _ _ fun _ _ hp => .failed record cause now hC hp.2)

/-! ### Review -/

theorem reviewBillingSettlement_changes (record : BillingSettlement) (reviewerID : ℤ)
    (blockUser : Bool) (note : String) (now : ℤ) (hC : C .review) :
    Changes A C s (reviewBillingSettlement s record reviewerID blockUser note now) :=
  .single (.edit _ _ _ fun _ _ _ => .reviewed reviewerID blockUser note now hC)

theorem reviewTarget_changes {reviewerID now : ℤ} {target : BillingSettlementReviewTarget}
    {u : PUnit} (hC : C .review) (h : (reviewTarget reviewerID now target).Ok s u s') :
    Changes A C s s' := by
  simp only [reviewTarget, Txn.ok_bind, Txn.ok_get, Txn.ok_orThrow, Txn.ok_require,
    Txn.ok_modify] at h
  obtain ⟨_, _, ⟨rfl, rfl⟩, _, _, ⟨_, rfl⟩, _, _, ⟨_, rfl⟩, _, _, ⟨_, rfl⟩, _, _, ⟨_, rfl⟩, rfl⟩ :=
    h
  exact .single (.edit _ _ _ fun _ _ _ => .reviewed reviewerID false "" now hC)

theorem reviewTargets_changes {reviewerID now : ℤ} (hC : C .review) :
    ∀ {targets : List BillingSettlementReviewTarget} {s s' : Tables} {u : PUnit},
      (reviewTargets reviewerID now targets).Ok s u s' → Changes A C s s'
  | [], _, _, _, h => by
      obtain ⟨_, rfl⟩ := Txn.ok_pure.mp h
      exact .refl
  | target :: targets, _, _, _, h => by
      obtain ⟨_, _, h1, h2⟩ := Txn.ok_bind.mp h
      exact (reviewTarget_changes hC h1).trans (reviewTargets_changes hC h2)

theorem reviewBillingSettlementsTx_changes {targets : List BillingSettlementReviewTarget}
    {reviewerID now : ℤ} {u : PUnit} (hC : C .review)
    (h : (reviewBillingSettlementsTx targets reviewerID now).Ok s u s') : Changes A C s s' := by
  simp only [reviewBillingSettlementsTx, Txn.ok_bind, Txn.ok_require] at h
  obtain ⟨_, _, ⟨_, rfl⟩, _, _, ⟨_, rfl⟩, h⟩ := h
  exact reviewTargets_changes hC h

/-! ### Manual completion -/

theorem reapproveManualTaskBillingCompletionDB_changes {input : BillingSettlementInput}
    {reviewerID : ℤ} {note : String} {now : ℤ} {r : BillingSettlement}
    (hC : C (.reapproval reviewerID note))
    (h : (reapproveManualTaskBillingCompletionDB input reviewerID note now).Ok s r s') :
    Changes A C s s' := by
  simp only [reapproveManualTaskBillingCompletionDB, Txn.ok_bind, settlementByKey_ok,
    Txn.ok_require, Txn.ok_ofExcept, Txn.ok_get, Txn.ok_modify, settlementByID_ok] at h
  obtain ⟨record, _, ⟨hrec, rfl⟩, _, _, ⟨⟨hkey, _⟩, rfl⟩, _, _, ⟨_, rfl⟩, _, _, ⟨rfl, rfl⟩, _, _,
    ⟨_, rfl⟩, _, _, rfl, _, rfl⟩ := h
  obtain ⟨hmem, _⟩ := Table.first?_mem hrec
  refine .single (.edit _ _ _ fun r hr hp => ?_)
  have hrr : r = record := Table.eq_of_clash hr hmem (.inl hp.1)
  exact .reapproved reviewerID note now hC hp.2.2.1 (hrr ▸ hkey) hp.2.2.2.2.1 hp.2.2.2.2.2

theorem approveCompletionRecord_changes {record : BillingSettlement} {reviewerID : ℤ}
    {note : String} {now : ℤ} {r : BillingSettlement} (hC : C .review)
    (h : (approveCompletionRecord record reviewerID note now).Ok s r s') : Changes A C s s' := by
  unfold approveCompletionRecord at h
  rw [Txn.ok_ite] at h
  rcases h with ⟨_, h⟩ | ⟨_, h⟩
  · simp only [Txn.ok_bind, Txn.ok_require, Txn.ok_pure] at h
    obtain ⟨_, _, ⟨_, rfl⟩, _, rfl⟩ := h
    exact .refl
  · simp only [Txn.ok_bind, Txn.ok_get, Txn.ok_require, Txn.ok_modify, settlementByID_ok] at h
    obtain ⟨_, _, ⟨rfl, rfl⟩, _, _, ⟨_, rfl⟩, _, _, rfl, _, rfl⟩ := h
    exact .single (.edit _ _ _ fun _ _ _ => .reviewed reviewerID false note now hC)

/-- The completion is approved, or a failed one is approved again. -/
theorem ensureManualTaskBillingCompletionTx_changes {input : BillingSettlementInput}
    {reviewerID : ℤ} {note : String} {now : ℤ} {r : BillingSettlement} (hA : A input)
    (h : (ensureManualTaskBillingCompletionTx host input reviewerID note now).Ok s r s') :
    ∃ kind : ChangeKind, (kind = .review ∨ kind = .reapproval reviewerID note) ∧
      Changes A kind.orCreation s s' := by
  simp only [ensureManualTaskBillingCompletionTx, Txn.ok_bind, Txn.ok_require,
    Txn.ok_recover] at h
  obtain ⟨_, _, ⟨_, rfl⟩, _, t, ⟨⟨record, already⟩, rfl, hens⟩ | ⟨rfl, e, _, hens⟩, h⟩ := h
  · have hct := ensureBillingSettlementRecordDB_changes
      (C := ChangeKind.orCreation .review) host s now hA (.inl rfl)
    rw [show _ = _ from hens] at hct
    exact ⟨_, .inl rfl, hct.trans (approveCompletionRecord_changes (.inr rfl) h)⟩
  · have hct := ensureBillingSettlementRecordDB_changes
      (C := ChangeKind.orCreation (.reapproval reviewerID note)) host s now hA (.inl rfl)
    rw [hens] at hct
    exact ⟨_, .inr rfl, hct.trans (reapproveManualTaskBillingCompletionDB_changes (.inr rfl) h)⟩

theorem resolveManualTaskBillingSettlementTx_change {id expectedRevision reviewerID now : ℤ}
    {note : String} {b : Bool} (hC : C (.resolution id))
    (h : (resolveManualTaskBillingSettlementTx id expectedRevision reviewerID note now).Ok s b s') :
    s' = s ∨ Change A C s s' := by
  simp only [resolveManualTaskBillingSettlementTx, Txn.ok_bind, Txn.ok_require, Txn.ok_get,
    Txn.ok_orThrow] at h
  obtain ⟨_, _, ⟨_, rfl⟩, _, _, ⟨rfl, rfl⟩, current, _, ⟨hcur, rfl⟩, _, _, ⟨_, rfl⟩, completion, _,
    ⟨hcomp, rfl⟩, _, _, ⟨hpair, rfl⟩, h⟩ := h
  obtain ⟨hcmem, hcid⟩ := Table.first?_mem hcur
  obtain ⟨hcomem, _⟩ := Table.first?_mem hcomp
  rw [Txn.ok_ite] at h
  rcases h with ⟨_, h⟩ | ⟨_, h⟩
  · simp only [Txn.ok_bind, Txn.ok_require, Txn.ok_pure] at h
    obtain ⟨_, _, ⟨_, rfl⟩, _, rfl⟩ := h
    exact .inl rfl
  · simp only [Txn.ok_bind, Txn.ok_require, Txn.ok_modify, Txn.ok_pure] at h
    obtain ⟨_, _, ⟨_, rfl⟩, _, _, ⟨_, rfl⟩, _, _, rfl, _, rfl⟩ := h
    refine .inr (.edit _ _ _ fun r hr hp => ?_)
    have hrc : r = current := Table.eq_of_clash hr hcmem (.inl (hp.1.trans hcid.symm))
    exact .resolved completion reviewerID note now (hp.1 ▸ hC) hp.2.2.1 hcomem (hrc ▸ hpair)

theorem promoteManualTaskBillingSettlementTx_changes {input : BillingSettlementInput}
    {reasonPrefix recoveryNote : String} {now : ℤ} {b : Bool}
    (hC : C (.promotion input.operationKey))
    (h :
      (promoteManualTaskBillingSettlementTx host input reasonPrefix recoveryNote now).Ok s b s') :
    Changes A C s s' := by
  simp only [promoteManualTaskBillingSettlementTx, Txn.ok_bind, Txn.ok_require, Txn.ok_get,
    Txn.ok_orThrow, Txn.ok_ofExcept] at h
  obtain ⟨_, _, ⟨_, rfl⟩, _, _, ⟨_, rfl⟩, _, _, ⟨_, rfl⟩, _, _, ⟨_, rfl⟩, _, _, ⟨_, rfl⟩, _, _,
    ⟨_, rfl⟩, payload, _, ⟨_, rfl⟩, _, _, ⟨rfl, rfl⟩, record, _, ⟨hrec, rfl⟩, h⟩ := h
  obtain ⟨hrmem, hrkey⟩ := Table.first?_mem hrec
  rw [Txn.ok_ite] at h
  rcases h with ⟨_, h⟩ | ⟨_, h⟩
  · simp only [Txn.ok_bind, Txn.ok_ofExcept, Txn.ok_pure] at h
    obtain ⟨_, _, ⟨_, rfl⟩, _, rfl⟩ := h
    exact .refl
  · simp only [Txn.ok_bind, Txn.ok_require, Txn.ok_modify, Txn.ok_pure] at h
    obtain ⟨_, _, ⟨_, rfl⟩, _, _, ⟨hprom, rfl⟩, _, _, ⟨_, rfl⟩, _, _, rfl, _, rfl⟩ := h
    refine .single (.edit _ _ _ fun r hr hp => ?_)
    have hrr : r = record := Table.eq_of_clash hr hrmem (.inl hp.1)
    have hkey : r.operationKey = input.operationKey := hrr ▸ hrkey
    exact .promoted input payload _ _ now (hkey ▸ hC) hp.2.2 hkey (hrr ▸ hprom.2.2.2.2.2.2.1)

/-! ### Effects -/

theorem countUsageTx_ok {record : BillingSettlement} {effect : BillingSettlementEffect} {u : PUnit}
    (h : (countUsageTx record effect).Ok s u s') :
    s' = countUsage record effect s ∧
      (countsUsage record effect → ∃ u ∈ s.users, u.id = record.userID) := by
  unfold countUsageTx at h
  unfold countUsage
  rw [Txn.ok_ite] at h
  rcases h with ⟨hc, h⟩ | ⟨hc, h⟩
  · simp only [Txn.ok_bind, Txn.ok_get, Txn.ok_require, Txn.ok_modify] at h
    obtain ⟨_, _, ⟨rfl, rfl⟩, _, _, ⟨haff, rfl⟩, _, _, rfl, rfl⟩ := h
    obtain ⟨u, hu, hid, _⟩ := Table.exists_of_affected_eq_one haff
    rw [if_pos hc]
    exact ⟨rfl, fun _ => ⟨u, hu, hid⟩⟩
  · rw [if_neg hc]
    exact ⟨(Txn.ok_pure.mp h).2.symm, fun h => absurd h hc⟩

theorem countUsage_setEffectStatus (record : BillingSettlement) (effect : BillingSettlementEffect)
    (p : BillingSettlement → Prop) [DecidablePred p] (status : EffectStatus) (now : ℤ) :
    countUsage record effect (setEffectStatus p status now s) =
      setEffectStatus p status now (countUsage record effect s) := by
  unfold countUsage addChannelUsage
  split_ifs
  · rfl
  · rfl
  · rfl

/-- Claiming an effect and marking it applied in one transaction marks it applied: no committed
state has an effect that is only claimed. -/
theorem setEffectStatus_claimed {record r : BillingSettlement} {now : ℤ}
    (hr : r ∈ s.billingSettlements) (hc : claimable record r) :
    setEffectStatus (claimed record) .applied now
        (setEffectStatus (claimable record) .applying now s) =
      setEffectStatus (claimable record) .applied now s := by
  unfold setEffectStatus
  congr 1
  apply Table.ext
  simp only [Table.update, List.map_map]
  apply List.map_congr_left
  intro a ha
  simp only [Function.comp]
  by_cases hca : claimable record a
  · have h : claimed record (withEffectStatus .applying now a) := ⟨hca.1, rfl⟩
    rw [if_pos hca, if_pos hca, if_pos h]
    rfl
  · rw [if_neg hca, if_neg hca, if_neg]
    intro h
    have har : a = r := Table.eq_of_clash ha hr (.inl (h.1.trans hc.1.symm))
    exact hca (har ▸ hc)

/-- The transaction of an effect finds nothing to claim and writes nothing, or it processes the
claimed effect. -/
theorem processBillingSettlementEffectTx_ok {record : BillingSettlement}
    {effect : BillingSettlementEffect} {now : ℤ} {u : PUnit}
    (h : (processBillingSettlementEffectTx record effect now).Ok s u s') :
    s' = s ∨ ∃ r ∈ s.billingSettlements, claimable record r ∧
      (countsUsage record effect → ∃ u ∈ s.users, u.id = record.userID) ∧
      s' = setEffectStatus (claimable record) .applied now (countUsage record effect s) := by
  simp only [processBillingSettlementEffectTx, Txn.ok_bind, Txn.ok_get] at h
  obtain ⟨_, _, ⟨rfl, rfl⟩, h⟩ := h
  rw [Txn.ok_ite] at h
  rcases h with ⟨_, h⟩ | ⟨hne, h⟩
  · obtain ⟨_, rfl⟩ := Txn.ok_pure.mp h
    exact .inl rfl
  · obtain ⟨r, hr, hc⟩ := Table.exists_of_affected_ne_zero hne
    simp only [Txn.ok_bind, Txn.ok_get, Txn.ok_modify, Txn.ok_require] at h
    obtain ⟨_, _, rfl, _, t, hcount, _, _, ⟨rfl, rfl⟩, _, _, ⟨_, rfl⟩, rfl⟩ := h
    obtain ⟨rfl, hu⟩ := countUsageTx_ok hcount
    refine .inr ⟨r, hr, hc, hu, ?_⟩
    rw [countUsage_setEffectStatus, setEffectStatus_claimed (r := r)]
    · rw [countUsage_billingSettlements]
      exact hr
    · exact hc

theorem processBillingSettlementEffectTx_changes {record : BillingSettlement}
    {effect : BillingSettlementEffect} {now : ℤ} {u : PUnit} (hC : C .effect)
    (h : (processBillingSettlementEffectTx record effect now).Ok s u s') : Changes A C s s' := by
  rcases processBillingSettlementEffectTx_ok h with rfl | ⟨r, hr, hc, hu, rfl⟩
  · exact .refl
  · exact .single (.effect record r effect now hC hr hc hu)

/-! ### Steps -/

/-- The input of a call under way satisfies `A`. -/
def Call.Carries (A : BillingSettlementInput → Prop) : Call → Prop
  | .ensure input => A input
  | .claim input => A input
  | .settle input _ => A input
  | _ => True

/-- The input of an operation satisfies `A`. -/
def Op.Carries (A : BillingSettlementInput → Prop) : Op → Prop
  | .apply input => A input
  | .persistIntent input _ => A input
  | .persistManual input _ _ => A input
  | .ensureCompletion input _ _ _ => A input
  | .promote input _ _ _ => A input
  | _ => True

/-- The kind of changes the next step of a call can make beside creations. -/
def Call.kind : Call → ChangeKind
  | .claim _ => .selection
  | .settle _ _ => .application
  | .mark _ _ => .failure
  | .review _ _ _ _ => .review
  | .usage _ _ => .effect
  | _ => .creation

/-- The kinds of changes an operation can make beside creations. -/
def Op.Kinds (w : World) : Op → ChangeKind → Prop
  | .proceed i _ _ _, kind => kind = ((w.calls[i]?).map Call.kind).getD .creation
  | .reviewAll _ _ _, kind => kind = .review
  | .ensureCompletion _ reviewerID note _, kind =>
      kind = .review ∨ kind = .reapproval reviewerID note
  | .resolve id _ _ _ _, kind => kind = .resolution id
  | .promote input _ _ _, kind => kind = .promotion input.operationKey
  | .deleteToken _, kind => kind = .tokenDeletion
  | _, kind => kind = .creation

theorem commit_changes {α : Type} {w : World} {x : Tx α}
    (h : ∀ a s', x.Ok w.db a s' → Changes A C w.db s') : Changes A C w.db (w.commit x).db :=
  transaction_changes h

theorem ensureStep_changes {w : World} {i : ℕ} {input : BillingSettlementInput} {now : ℤ}
    (hA : A input) (hC : C .creation) : Changes A C w.db (ensureStep host w i input now).db := by
  have h := ensureBillingSettlementRecordDB_changes host w.db now hA hC
  unfold ensureStep
  by_cases hk : input.operationKey = ""
  · rw [if_pos hk]
    exact .refl
  · rw [if_neg hk]
    rcases hx : (ensureBillingSettlementRecordDB host input now).exec w.db with ⟨⟨e⟩ | ⟨r⟩, t⟩
    · rw [hx] at h
      exact h
    · rw [hx] at h
      exact h

theorem settleStep_changes {w : World} {i : ℕ} {input : BillingSettlementInput} {recordID now : ℤ}
    {fault : Fault} (hA : A input) (hC : C .application) :
    Changes A C w.db (settleStep host w i input recordID now fault).db := by
  have h : Changes A C w.db
      (transaction (applyBillingSettlementTx host input recordID now) w.db).2 :=
    transaction_changes fun _ _ h => applyBillingSettlementTx_changes hA hC h
  unfold settleStep
  split
  · exact .refl
  · next heq => rw [heq] at h; exact h
  · next heq => rw [heq] at h; exact h
  · exact .refl

theorem proceedStep_changes (w : World) (i : ℕ) (now : ℤ) (fault : Fault) (claimToken : String)
    {call : Call} (hA : call.Carries A) :
    Changes A call.kind.orCreation w.db (proceedStep host w i now fault claimToken call).db := by
  cases call with
  | ensure input => exact ensureStep_changes hA (.inl rfl)
  | claim input =>
      exact commit_changes fun _ _ h => claimBillingPreConsumeSourceTx_changes (.inr rfl) h
  | settle input recordID => exact settleStep_changes hA (.inr rfl)
  | fail operationKey cause =>
      unfold proceedStep failStep
      dsimp only
      split_ifs
      · exact .refl
      · split
        · exact .refl
        · exact .refl
  | mark record cause => exact markBillingSettlementFailure_changes record cause now (.inr rfl)
  | review record reviewerID blockUser note =>
      exact reviewBillingSettlement_changes record reviewerID blockUser note now (.inr rfl)
  | effect operationKey =>
      unfold proceedStep effectStep
      dsimp only
      split
      · exact .refl
      · exact .refl
  | log record effect =>
      unfold proceedStep logStep
      dsimp only
      split_ifs
      · exact .refl
      · split
        · exact .refl
        · exact .refl
  | usage record effect =>
      exact commit_changes fun _ _ h => processBillingSettlementEffectTx_changes (.inr rfl) h
  | done => exact .refl

/-- A resolution is one change of the database at most. -/
theorem resolve_change (host : Host) (w : World) (id expectedRevision reviewerID : ℤ)
    (note : String) (now : ℤ) :
    (step host w (.resolve id expectedRevision reviewerID note now)).db = w.db ∨
      Change A (ChangeKind.orCreation (.resolution id)) w.db
        (step host w (.resolve id expectedRevision reviewerID note now)).db := by
  rcases transaction_cases
    (resolveManualTaskBillingSettlementTx id expectedRevision reviewerID note now) w.db with
    ⟨a, s', hok, ht⟩ | ⟨e, ht⟩
  · have hs : (step host w (.resolve id expectedRevision reviewerID note now)).db = s' :=
      congrArg Prod.snd ht
    rw [hs]
    exact resolveManualTaskBillingSettlementTx_change (.inr rfl) hok
  · exact .inl (congrArg Prod.snd ht)

/-- **Every step creates records and makes elementary changes of one further kind.** -/
theorem step_changes (host : Host) {w : World} {op : Op} (hw : ∀ c ∈ w.calls, c.Carries A)
    (hop : op.Carries A) :
    ∃ kind, op.Kinds w kind ∧ Changes A kind.orCreation w.db (step host w op).db := by
  cases op with
  | apply | runner | processEffect | effectRunner | crash => exact ⟨_, rfl, .refl⟩
  | proceed i now fault claimToken =>
      cases hcall : w.calls[i]? with
      | some call =>
          rw [step_proceed host hcall]
          exact ⟨call.kind, by simp [Op.Kinds, hcall], proceedStep_changes w i now fault claimToken
            (hw call (List.mem_of_getElem? hcall))⟩
      | none =>
          rw [step_proceed_none host hcall]
          exact ⟨.creation, by simp [Op.Kinds, hcall], .refl⟩
  | persistIntent input now =>
      refine ⟨_, rfl, commit_changes fun a s' h => ?_⟩
      have hc := ensureBillingSettlementRecordDB_changes
        (C := ChangeKind.orCreation .creation) host w.db now hop (.inl rfl)
      rw [show _ = _ from h] at hc
      exact hc
  | persistManual input reason now =>
      exact ⟨_, rfl, commit_changes fun _ _ h =>
        ensureManualBillingSettlementRecordDB_changes hop (.inl rfl) h⟩
  | review id reviewerID blockUser note =>
      refine ⟨_, rfl, ?_⟩
      unfold step
      dsimp only
      split
      · exact .refl
      · exact .refl
  | reviewAll targets reviewerID now =>
      exact ⟨_, rfl, commit_changes fun _ _ h => reviewBillingSettlementsTx_changes (.inr rfl) h⟩
  | ensureCompletion input reviewerID note now =>
      rcases transaction_cases
        (ensureManualTaskBillingCompletionTx host input reviewerID note now) w.db with
        ⟨a, s', hok, ht⟩ | ⟨e, ht⟩
      · obtain ⟨kind, hkind, h⟩ := ensureManualTaskBillingCompletionTx_changes hop hok
        have hs : (step host w (.ensureCompletion input reviewerID note now)).db = s' :=
          congrArg Prod.snd ht
        rw [hs]
        exact ⟨kind, hkind, h⟩
      · have hs : (step host w (.ensureCompletion input reviewerID note now)).db = w.db :=
          congrArg Prod.snd ht
        rw [hs]
        exact ⟨_, .inl rfl, .refl⟩
  | resolve id expectedRevision reviewerID note now =>
      refine ⟨_, rfl, ?_⟩
      rcases resolve_change host w id expectedRevision reviewerID note now with h | h
      · rw [h]
      · exact .single h
  | promote input reasonPrefix recoveryNote now =>
      exact ⟨_, rfl, commit_changes fun _ _ h =>
        promoteManualTaskBillingSettlementTx_changes (.inr rfl) h⟩
  | deleteToken id => exact ⟨_, rfl, .single (.deleteToken id (.inr rfl))⟩

/-- `step_changes` without the inputs. -/
theorem step_changes_any (host : Host) (w : World) (op : Op) :
    ∃ kind, op.Kinds w kind ∧
      Changes (fun _ => True) kind.orCreation w.db (step host w op).db :=
  step_changes host (fun c _ => by cases c <;> trivial) (by cases op <;> trivial)

/-! ### Calls -/

/-- How a call can go on in the state `w`. -/
inductive Call.Next (host : Host) (w : World) : Call → Call → Prop where
  | ends (c : Call) : Call.Next host w c .done
  | claims (input : BillingSettlementInput) : Call.Next host w (.ensure input) (.claim input)
  | settles (input : BillingSettlementInput) (recordID : ℤ) :
      Call.Next host w (.ensure input) (.settle input recordID)
  | fails (input : BillingSettlementInput) (recordID : ℤ) (cause : Failure) :
      Call.Next host w (.settle input recordID) (.fail input.operationKey cause)
  | marks (operationKey : String) (cause : Failure) (record : BillingSettlement) :
      Call.Next host w (.fail operationKey cause) (.mark record cause)
  | logs (operationKey : String) (record : BillingSettlement) (effect : BillingSettlementEffect)
      (h : (transaction (loadSettlementEffect host operationKey) w.db).1 =
        .ok (some (record, effect))) :
      Call.Next host w (.effect operationKey) (.log record effect)
  | counts (record : BillingSettlement) (effect : BillingSettlementEffect) :
      Call.Next host w (.log record effect) (.usage record effect)

/-- The calls an operation starts in the state `w`. -/
inductive Op.Starts (host : Host) (w : World) : Op → Call → Prop where
  | apply (input : BillingSettlementInput) : Op.Starts host w (.apply input) (.ensure input)
  | replay (now : ℤ) (record : BillingSettlement) (h : record ∈ dueSettlements w.db now) :
      Op.Starts host w (.runner now) (runnerCall host record)
  | effect (op : Op) (operationKey : String) : Op.Starts host w op (.effect operationKey)
  | review (op : Op) (record : BillingSettlement) (reviewerID : ℤ) (blockUser : Bool)
      (note : String) : Op.Starts host w op (.review record reviewerID blockUser note)

theorem mem_become {w : World} {i : ℕ} {call c : Call} (h : c ∈ (w.become i call).calls) :
    c ∈ w.calls ∨ c = call := List.mem_or_eq_of_mem_set h

theorem mem_start {w : World} {calls : List Call} {c : Call} (h : c ∈ (w.start calls).calls) :
    c ∈ w.calls ∨ c ∈ calls := List.mem_append.mp h

theorem proceedStep_calls {w : World} {i : ℕ} {now : ℤ} {fault : Fault} {claimToken : String}
    {call c : Call} (hc : c ∈ (proceedStep host w i now fault claimToken call).calls) :
    c ∈ w.calls ∨ call.Next host w c := by
  have hbecome : ∀ (v : World) (call' : Call), v.calls = w.calls → call.Next host w call' →
      c ∈ (v.become i call').calls → c ∈ w.calls ∨ call.Next host w c := by
    intro v call' hv hnext hc
    rcases mem_become hc with hc | rfl
    · exact .inl (hv ▸ hc)
    · exact .inr hnext
  cases call with
  | ensure input =>
      unfold proceedStep ensureStep at hc
      dsimp only at hc
      split at hc
      · exact hbecome _ _ rfl (.ends _) hc
      · split at hc
        · refine hbecome _ _ rfl ?_ hc
          split_ifs
          · exact .claims input
          · exact .ends _
          · exact .settles input _
        · exact hbecome _ _ rfl (.ends _) hc
  | claim | mark | review | usage => exact hbecome _ _ rfl (.ends _) hc
  | settle input recordID =>
      unfold proceedStep settleStep at hc
      dsimp only at hc
      split at hc
      · exact hbecome _ _ rfl (.fails _ _ _) hc
      · exact hbecome _ _ rfl (.fails _ _ _) hc
      · exact hbecome _ _ rfl (.ends _) hc
      · exact hbecome _ _ rfl (.fails _ _ _) hc
  | fail operationKey cause =>
      unfold proceedStep failStep at hc
      dsimp only at hc
      split at hc
      · exact hbecome _ _ rfl (.ends _) hc
      · split at hc
        · exact hbecome _ _ rfl (.marks _ _ _) hc
        · exact hbecome _ _ rfl (.ends _) hc
  | effect operationKey =>
      unfold proceedStep effectStep at hc
      dsimp only at hc
      split at hc
      · next h => exact hbecome _ _ rfl (.logs _ _ _ h) hc
      · exact hbecome _ _ rfl (.ends _) hc
  | log record effect =>
      unfold proceedStep logStep at hc
      dsimp only at hc
      split at hc
      · exact .inl hc
      · split at hc
        · exact hbecome _ _ rfl (.counts _ _) hc
        · exact hbecome _ _ rfl (.ends _) hc
  | done => exact .inl hc

/-- A call that is under way after a step was under way before, has been started, or is how
another one goes on. -/
theorem step_calls {w : World} {op : Op} {c : Call} (hc : c ∈ (step host w op).calls) :
    c ∈ w.calls ∨ op.Starts host w c ∨ c = .done ∨ ∃ call ∈ w.calls, call.Next host w c := by
  have hstart : ∀ calls : List Call, (∀ c ∈ calls, op.Starts host w c) →
      c ∈ (w.start calls).calls →
      c ∈ w.calls ∨ op.Starts host w c ∨ c = .done ∨ ∃ call ∈ w.calls, call.Next host w c := by
    intro calls hcalls hc
    rcases mem_start hc with hc | hc
    · exact .inl hc
    · exact .inr (.inl (hcalls c hc))
  cases op with
  | apply input => exact hstart _ (fun c hc => List.mem_singleton.mp hc ▸ .apply input) hc
  | runner now =>
      refine hstart _ (fun c hc => ?_) hc
      obtain ⟨record, hrecord, rfl⟩ := List.mem_map.mp hc
      exact .replay now record hrecord
  | processEffect operationKey =>
      exact hstart _ (fun c hc => List.mem_singleton.mp hc ▸ .effect _ operationKey) hc
  | effectRunner =>
      refine hstart _ (fun c hc => ?_) hc
      obtain ⟨record, _, rfl⟩ := List.mem_map.mp hc
      exact .effect _ record.operationKey
  | proceed i now fault claimToken =>
      cases hcall : w.calls[i]? with
      | some call =>
          rw [step_proceed host hcall] at hc
          rcases proceedStep_calls hc with hc | hnext
          · exact .inl hc
          · exact .inr (.inr (.inr ⟨call, List.mem_of_getElem? hcall, hnext⟩))
      | none =>
          rw [step_proceed_none host hcall] at hc
          exact .inl hc
  | crash i =>
      rcases mem_become hc with hc | rfl
      · exact .inl hc
      · exact .inr (.inr (.inl rfl))
  | review id reviewerID blockUser note =>
      unfold step at hc
      dsimp only at hc
      split at hc
      · exact hstart _ (fun c hc => List.mem_singleton.mp hc ▸ .review _ _ _ _ _) hc
      · exact .inl hc
  | persistIntent | persistManual | reviewAll | ensureCompletion | resolve | promote
  | deleteToken => exact .inl hc

/-- The calls under way keep carrying inputs that satisfy `A`, if the replays of the stored records
do. -/
theorem step_carries {w : World} {op : Op}
    (hreplay : ∀ r ∈ w.db.billingSettlements, ∀ effect, A (replayInput r effect))
    (hw : ∀ c ∈ w.calls, c.Carries A) (hop : op.Carries A) :
    ∀ c ∈ (step host w op).calls, c.Carries A := by
  intro c hc
  rcases step_calls hc with hc | hstart | rfl | ⟨call, hcall, hnext⟩
  · exact hw c hc
  · cases hstart with
    | apply => exact hop
    | replay now record h =>
        unfold runnerCall
        split
        · exact hreplay record (mem_dueSettlements h).1 _
        · trivial
    | effect | review => trivial
  · trivial
  · have hA := hw call hcall
    cases hnext with
    | claims | settles => exact hA
    | ends | fails | marks | logs | counts => trivial

end changes

end MaxApi.Settlement
