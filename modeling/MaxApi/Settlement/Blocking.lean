import MaxApi.Settlement.Review
import Mathlib.Data.List.Dedup

/-! # The settlement store: who is blocked

An unsettled positive finalize record can keep its user from new paid requests.  The rule exists
twice: admission asks the database (`HasUnresolvedPositiveFinalizeSettlement`), and the page of
the administrator computes it record by record (`billingSettlementBlocksUser`).  The two agree as
soon as a reviewed record carries a decision, which every review writes. -/

namespace MaxApi.Settlement

open Relational MaxApi.Billing

/-! ### The rule as queries -/

/-- Requests whose final charge has not been settled. -/
def unresolvedPositiveFinalizeSettlementScope (r : BillingSettlement) : Prop :=
  0 < r.fundingDelta ∧ (r.status = .pending ∨ r.status = .manual) ∧
    Text.likeBetween r.operationKey billingRequestOperationPrefix billingRequestFinalizeSuffix

instance : DecidablePred unresolvedPositiveFinalizeSettlementScope := fun _ =>
  inferInstanceAs (Decidable (_ ∧ _))

/-- The last condition of the query, for either default. -/
def overrideBlocks (blockUserByDefault : Bool) (r : BillingSettlement) : Prop :=
  if blockUserByDefault then r.userBlockingOverride = none ∨ r.userBlockingOverride = some true
  else r.userBlockingOverride = some true

instance (blockUserByDefault : Bool) : DecidablePred (overrideBlocks blockUserByDefault) :=
    fun r => by
  unfold overrideBlocks
  infer_instance

/-- The records that block their user. -/
def blockingPositiveFinalizeSettlementScope (blockUserByDefault : Bool) (r : BillingSettlement) :
    Prop :=
  unresolvedPositiveFinalizeSettlementScope r ∧
    (r.reconciliationReviewedAt = 0 ∨ r.userBlockingOverride = some true) ∧
    overrideBlocks blockUserByDefault r

instance (blockUserByDefault : Bool) :
    DecidablePred (blockingPositiveFinalizeSettlementScope blockUserByDefault) := fun _ =>
  inferInstanceAs (Decidable (_ ∧ _))

/-- `HasUnresolvedPositiveFinalizeSettlement`: may the user not start a new paid request? -/
def hasUnresolvedPositiveFinalizeSettlement (blockUserByDefault : Bool) (s : Tables) (userID : ℤ) :
    Bool :=
  if userID ≤ 0 then false
  else (s.billingSettlements.first? fun r =>
    blockingPositiveFinalizeSettlementScope blockUserByDefault r ∧ r.userID = userID).isSome

/-! ### The rule record by record -/

/-- The decision of the administrator, or the default. -/
def billingSettlementBlocksUser (override : Option Bool) (blockUserByDefault : Bool) : Bool :=
  override.getD blockUserByDefault

/-- One record as the administrator sees it. -/
structure BillingSettlementReconciliationItem where
  id : ℤ
  revision : ℤ
  operationKey : String
  status : SettlementStatus
  source : FundingSource
  userID : ℤ
  subscriptionID : ℤ
  tokenID : ℤ
  taskID : ℤ
  taskQuota : ℤ
  taskQuotaTarget : ℤ
  requiresManualCompletion : Bool
  zeroQuotaEligible : Bool
  fundingDelta : ℤ
  appliedFundingDelta : ℤ
  tokenDelta : ℤ
  appliedTokenDelta : ℤ
  attempts : ℤ
  lastError : String
  nextAttempt : ℤ
  createdAt : ℤ
  updatedAt : ℤ
  reconciliationReviewedAt : ℤ
  reconciliationReviewedBy : ℤ
  reconciliationReviewNote : String
  userBlockingOverride : Option Bool
  recordBlocksUser : Bool
  blocksUser : Bool
  deriving DecidableEq, Repr

/-- The page of open alerts. -/
structure BillingSettlementReconciliationData where
  totalCount : ℕ
  pendingCount : ℕ
  manualCount : ℕ
  openAlertCount : ℕ
  reviewedCount : ℕ
  blockingRecordCount : ℕ
  blockedUserCount : ℕ
  blockUserByDefault : Bool
  oldestCreatedAt : ℤ
  truncated : Bool
  generatedAt : ℤ
  items : List BillingSettlementReconciliationItem
  deriving DecidableEq, Repr

/-- `IsMiniMaxH3Task`, of the upstream model of a stored task. -/
def isMiniMaxH3Task (upstreamModelName : Option String) : Bool :=
  match upstreamModelName with
  | none => false
  | some upstream =>
      !Text.isBlank upstream && (Text.trimSpace upstream).toLower == "minimax-h3"

/-- The records of a query in the order of the page. -/
def alertOrder (a b : BillingSettlement) : Prop :=
  a.createdAt < b.createdAt ∨ (a.createdAt = b.createdAt ∧ a.id ≤ b.id)

instance : DecidableRel alertOrder := fun _ _ => inferInstanceAs (Decidable (_ ∨ _))

/-- The users some blocking record belongs to. -/
def blockedUserIDs (blockUserByDefault : Bool) (s : Tables) : List ℤ :=
  ((s.billingSettlements.rows.filter fun r =>
    decide (blockingPositiveFinalizeSettlementScope blockUserByDefault r)).map (·.userID)).dedup

/-- The projection of one record; `upstreamModelName` reads the stored task, and `displayed` are
the users of the page. -/
def reconciliationItem (host : Host) (upstreamModelName : ℤ → Option String)
    (blockUserByDefault : Bool) (s : Tables) (displayed : List ℤ) (r : BillingSettlement) :
    BillingSettlementReconciliationItem where
  id := r.id
  revision := r.revision
  operationKey := r.operationKey
  status := r.status
  source := r.source
  userID := r.userID
  subscriptionID := r.subscriptionID
  tokenID := r.tokenID
  taskID := r.taskID
  taskQuota := r.taskQuota
  taskQuotaTarget := r.taskQuotaTarget
  requiresManualCompletion := decide (billingSettlementRequiresManualTaskCompletion r)
  zeroQuotaEligible :=
    decide (billingSettlementRequiresManualTaskCompletion r) &&
      isMiniMaxH3Task (upstreamModelName r.taskID)
  fundingDelta := r.fundingDelta
  appliedFundingDelta := r.appliedFundingDelta
  tokenDelta := r.tokenDelta
  appliedTokenDelta := r.appliedTokenDelta
  attempts := r.attempts
  lastError := host.sanitizePersistedLogContent (host.maskSensitiveInfo r.lastError)
  nextAttempt := r.nextAttempt
  createdAt := r.createdAt
  updatedAt := r.updatedAt
  reconciliationReviewedAt := r.reconciliationReviewedAt
  reconciliationReviewedBy := r.reconciliationReviewedBy
  reconciliationReviewNote :=
    host.sanitizePersistedLogContent (host.maskSensitiveInfo r.reconciliationReviewNote)
  userBlockingOverride := r.userBlockingOverride
  recordBlocksUser :=
    decide (0 < r.fundingDelta) && Text.hasPrefix r.operationKey billingRequestOperationPrefix &&
      Text.hasSuffix r.operationKey billingRequestFinalizeSuffix &&
      billingSettlementBlocksUser r.userBlockingOverride blockUserByDefault
  blocksUser := decide (r.userID ∈ (blockedUserIDs blockUserByDefault s).filter (· ∈ displayed))

/-- How many records the page shows at most. -/
def pageLimit (limit : ℤ) : ℕ :=
  if limit ≤ 0 then 100 else if 200 < limit then 200 else limit.toNat

/-- The open alerts in the order of the page. -/
def openAlerts (s : Tables) : List BillingSettlement :=
  (s.billingSettlements.rows.filter fun r =>
    decide (openBillingReconciliationAlertScope r)).insertionSort alertOrder

/-- `GetUnresolvedPositiveFinalizeSettlements`: one consistent read of the open alerts. -/
def getUnresolvedPositiveFinalizeSettlements (host : Host) (upstreamModelName : ℤ → Option String)
    (blockUserByDefault : Bool) (s : Tables) (limit now : ℤ) :
    BillingSettlementReconciliationData :=
  let alerts := openAlerts s
  let shown := alerts.take (pageLimit limit)
  let displayed := (shown.map (·.userID)).filter (0 < ·)
  { totalCount := alerts.length
    pendingCount := (alerts.filter (·.status = .pending)).length
    manualCount := (alerts.filter (·.status = .manual)).length
    openAlertCount := alerts.length
    reviewedCount := 0
    blockingRecordCount := s.billingSettlements.affected
      (blockingPositiveFinalizeSettlementScope blockUserByDefault)
    blockedUserCount := (blockedUserIDs blockUserByDefault s).length
    blockUserByDefault := blockUserByDefault
    oldestCreatedAt := ((alerts.map (·.createdAt)).min?).getD 0
    truncated := decide (pageLimit limit < alerts.length)
    generatedAt := now
    items := shown.map
      (reconciliationItem host upstreamModelName blockUserByDefault s displayed) }

/-! ### The two rules agree -/

/-- Every review leaves a decision about the user. -/
def Decided (s : Tables) : Prop :=
  ∀ r ∈ s.billingSettlements, r.reconciliationReviewedAt ≠ 0 → r.userBlockingOverride ≠ none

/-- An unsettled positive finalize record that blocks its user by its override or, without one, by
the default. -/
def Blocks (blockUserByDefault : Bool) (r : BillingSettlement) : Prop :=
  unresolvedPositiveFinalizeSettlementScope r ∧
    billingSettlementBlocksUser r.userBlockingOverride blockUserByDefault = true

/-- For a record that carries a decision if it is reviewed, the query is the rule. -/
theorem blockingScope_iff {blockUserByDefault : Bool} {r : BillingSettlement}
    (h : r.reconciliationReviewedAt ≠ 0 → r.userBlockingOverride ≠ none) :
    blockingPositiveFinalizeSettlementScope blockUserByDefault r ↔ Blocks blockUserByDefault r := by
  unfold blockingPositiveFinalizeSettlementScope Blocks overrideBlocks billingSettlementBlocksUser
  refine and_congr_right fun _ => ?_
  cases hover : r.userBlockingOverride with
  | none =>
      have h0 : r.reconciliationReviewedAt = 0 := by
        by_contra hne
        exact h hne hover
      cases blockUserByDefault with
      | false => simp
      | true => simp [h0]
  | some b =>
      cases blockUserByDefault with
      | false => cases b <;> simp
      | true => cases b <;> simp

theorem mem_blockedUserIDs {blockUserByDefault : Bool} {s : Tables} {u : ℤ} :
    u ∈ blockedUserIDs blockUserByDefault s ↔ ∃ r ∈ s.billingSettlements,
      blockingPositiveFinalizeSettlementScope blockUserByDefault r ∧ r.userID = u := by
  unfold blockedUserIDs
  simp only [List.mem_dedup, List.mem_map, List.mem_filter, decide_eq_true_eq, and_assoc]
  rfl

theorem hasUnresolved_iff {blockUserByDefault : Bool} {s : Tables} {u : ℤ} :
    hasUnresolvedPositiveFinalizeSettlement blockUserByDefault s u = true ↔
      0 < u ∧ u ∈ blockedUserIDs blockUserByDefault s := by
  unfold hasUnresolvedPositiveFinalizeSettlement
  rw [mem_blockedUserIDs]
  split
  · next h =>
      simp only [Bool.false_eq_true, false_iff, not_and]
      intro h'
      omega
  · next h =>
      have hu : 0 < u := by omega
      rw [Option.isSome_iff_ne_none, ne_eq, Table.first?_eq_none]
      push Not
      simp only [hu, true_and]

theorem mem_openAlerts {s : Tables} {r : BillingSettlement} :
    r ∈ openAlerts s ↔ r ∈ s.billingSettlements ∧ openBillingReconciliationAlertScope r := by
  unfold openAlerts
  rw [List.mem_insertionSort, List.mem_filter, decide_eq_true_eq]
  rfl

/-- A key of a request is no key of a task. -/
theorem hasPrefix_request_of_task {key : String}
    (h : Text.hasPrefix key billingTaskOperationPrefix = true) :
    Text.hasPrefix key billingRequestOperationPrefix = false := by
  unfold Text.hasPrefix at *
  have ht : billingTaskOperationPrefix.toList = ['t', 'a', 's', 'k', ':'] := by decide
  have hr : billingRequestOperationPrefix.toList = 'r' :: ['e', 'q', 'u', 'e', 's', 't', ':'] := by
    decide
  rw [ht] at h
  rw [hr]
  cases hk : key.toList with
  | nil => rfl
  | cons c l =>
      rw [hk] at h
      simp only [List.isPrefixOf, Bool.and_eq_true, beq_iff_eq] at h
      rw [← h.1]
      rfl

/-- What the page says of an open alert is the rule. -/
theorem recordBlocksUser_iff {host : Host} {upstreamModelName : ℤ → Option String}
    {blockUserByDefault : Bool} {s : Tables} {displayed : List ℤ} {r : BillingSettlement}
    (h : openBillingReconciliationAlertScope r) :
    (reconciliationItem host upstreamModelName blockUserByDefault s displayed r).recordBlocksUser
      = true ↔ Blocks blockUserByDefault r := by
  obtain ⟨⟨hstatus, hkind⟩, _⟩ := h
  unfold reconciliationItem Blocks unresolvedPositiveFinalizeSettlementScope
  simp only [Bool.and_eq_true, decide_eq_true_eq]
  constructor
  · rintro ⟨⟨⟨hpos, hpre⟩, hsuf⟩, hblocks⟩
    rcases hkind with ⟨_, hlike⟩ | ⟨_, hlike⟩
    · exact ⟨⟨hpos, hstatus, hlike⟩, hblocks⟩
    · unfold Text.likeBetween at hlike
      simp only [Bool.and_eq_true] at hlike
      rw [hasPrefix_request_of_task hlike.1.1] at hpre
      exact absurd hpre (by decide)
  · rintro ⟨⟨hpos, _, hlike⟩, hblocks⟩
    unfold Text.likeBetween at hlike
    simp only [Bool.and_eq_true] at hlike
    exact ⟨⟨⟨hpos, hlike.1.1⟩, hlike.1.2⟩, hblocks⟩

/-- A blocking record is an open alert. -/
theorem openAlert_of_blocking {blockUserByDefault : Bool} {r : BillingSettlement}
    (h : blockingPositiveFinalizeSettlementScope blockUserByDefault r) :
    openBillingReconciliationAlertScope r := by
  obtain ⟨⟨hpos, hstatus, hlike⟩, hreview, _⟩ := h
  exact ⟨⟨hstatus, .inl ⟨hpos, hlike⟩⟩, hreview.imp id fun h => ⟨hpos, hlike, h⟩⟩

/-- Admission, the rule and the page of the administrator agree about who is blocked. -/
structure BlockingAgrees (s : Tables) : Prop where
  /-- Admission is the rule. -/
  rule : ∀ blockUserByDefault u,
    hasUnresolvedPositiveFinalizeSettlement blockUserByDefault s u = true ↔
      0 < u ∧ ∃ r ∈ s.billingSettlements, Blocks blockUserByDefault r ∧ r.userID = u
  /-- Every item of the page says of its user what admission says, and of its record what the rule
  says. -/
  items : ∀ host upstreamModelName blockUserByDefault limit now,
    ∀ item ∈ (getUnresolvedPositiveFinalizeSettlements host upstreamModelName blockUserByDefault s
        limit now).items,
      item.blocksUser = hasUnresolvedPositiveFinalizeSettlement blockUserByDefault s item.userID ∧
      ∃ r ∈ s.billingSettlements, r.id = item.id ∧ r.userID = item.userID ∧
        (item.recordBlocksUser = true ↔ Blocks blockUserByDefault r)
  /-- A page that is not truncated shows a blocking record of every blocked user. -/
  complete : ∀ host upstreamModelName blockUserByDefault limit now,
    (getUnresolvedPositiveFinalizeSettlements host upstreamModelName blockUserByDefault s limit
        now).truncated = false →
      ∀ u, hasUnresolvedPositiveFinalizeSettlement blockUserByDefault s u = true ↔ 0 < u ∧
        ∃ item ∈ (getUnresolvedPositiveFinalizeSettlements host upstreamModelName
          blockUserByDefault s limit now).items, item.userID = u ∧ item.recordBlocksUser = true
  /-- The number of blocked users counts those. -/
  users : ∀ host upstreamModelName blockUserByDefault limit now, ∃ users : List ℤ, users.Nodup ∧
    (getUnresolvedPositiveFinalizeSettlements host upstreamModelName blockUserByDefault s limit
      now).blockedUserCount = users.length ∧
    ∀ u, 0 < u → (u ∈ users ↔ hasUnresolvedPositiveFinalizeSettlement blockUserByDefault s u = true)

/-- The item of a shown record says of its user what admission says. -/
theorem blocksUser_eq {host : Host} {upstreamModelName : ℤ → Option String}
    {blockUserByDefault : Bool} {s : Tables} {shown : List BillingSettlement}
    {r : BillingSettlement} (hr : r ∈ shown) :
    (reconciliationItem host upstreamModelName blockUserByDefault s
        ((shown.map (·.userID)).filter (0 < ·)) r).blocksUser =
      hasUnresolvedPositiveFinalizeSettlement blockUserByDefault s r.userID := by
  rw [Bool.eq_iff_iff, hasUnresolved_iff]
  unfold reconciliationItem
  simp only [decide_eq_true_eq, List.mem_filter, List.mem_map]
  constructor
  · rintro ⟨hblocked, _, hpos⟩
    exact ⟨hpos, hblocked⟩
  · rintro ⟨hpos, hblocked⟩
    exact ⟨hblocked, ⟨r, hr, rfl⟩, hpos⟩

theorem Decided.blockingAgrees {s : Tables} (h : Decided s) : BlockingAgrees s where
  rule d u := by
    rw [hasUnresolved_iff, mem_blockedUserIDs]
    refine and_congr_right fun _ => exists_congr fun r => and_congr_right fun hr => ?_
    rw [blockingScope_iff (h r hr)]
  items host models d limit now := by
    intro item hitem
    obtain ⟨r, hr, rfl⟩ := List.mem_map.mp hitem
    obtain ⟨hmem, hopen⟩ := mem_openAlerts.mp (List.mem_of_mem_take hr)
    exact ⟨blocksUser_eq hr, r, hmem, rfl, rfl, recordBlocksUser_iff hopen⟩
  complete host models d limit now := by
    intro htrunc u
    have hlen : (openAlerts s).length ≤ pageLimit limit := by
      have := of_decide_eq_false htrunc
      omega
    rw [hasUnresolved_iff, mem_blockedUserIDs]
    refine and_congr_right fun _ => ?_
    constructor
    · rintro ⟨r, hr, hblocking, hu⟩
      have hopen := openAlert_of_blocking hblocking
      refine ⟨_, List.mem_map.mpr ⟨r, ?_, rfl⟩, hu, ?_⟩
      · rw [List.take_of_length_le hlen]
        exact mem_openAlerts.mpr ⟨hr, hopen⟩
      · rw [recordBlocksUser_iff hopen]
        exact (blockingScope_iff (h r hr)).mp hblocking
    · rintro ⟨item, hitem, hu, hblocks⟩
      obtain ⟨r, hr, rfl⟩ := List.mem_map.mp hitem
      obtain ⟨hmem, hopen⟩ := mem_openAlerts.mp (List.mem_of_mem_take hr)
      rw [recordBlocksUser_iff hopen] at hblocks
      exact ⟨r, hmem, (blockingScope_iff (h r hmem)).mpr hblocks, hu⟩
  users host models d limit now :=
    ⟨blockedUserIDs d s, List.nodup_dedup _, rfl, fun u hu => by
      rw [hasUnresolved_iff]
      simp only [hu, true_and]⟩

end MaxApi.Settlement
