import MaxApi.Settlement.Changes

/-! # Conservation of the ledger

Every balance the store moves is an `Account`: the wallet of a user, the two quota columns of a
token, the quota of a task and the usage of a subscription.  An account owes the amounts that the
applied records of its owner have posted, and its balance together with what has been posted is
the same in every reachable state.  The law is proved for one elementary `Change` per account; the
only change that moves a balance is the application of a pending record, which posts exactly what
it moves. -/

namespace MaxApi.Settlement

open Relational MaxApi.Billing

/-! ### Postings -/

/-- The applied amount of a record that an account is charged with. -/
inductive Amount where
  | funding
  | token
  deriving DecidableEq

def Amount.of : Amount → BillingSettlement → ℤ
  | .funding, r => r.appliedFundingDelta
  | .token, r => r.appliedTokenDelta

/-- What a record posts to the accounts of the parties that `owes` selects. -/
def posting (owes : Parties → Prop) [DecidablePred owes] (amount : Amount)
    (r : BillingSettlement) : ℤ :=
  if r.status = .applied ∧ owes (parties r) then amount.of r else 0

/-- What the applied records have posted to the parties that `owes` selects. -/
def posted (s : Tables) (owes : Parties → Prop) [DecidablePred owes] (amount : Amount) : ℤ :=
  s.billingSettlements.sum (posting owes amount)

/-- A record whose funding is not applied has no applied amounts. -/
def Unposted (s : Tables) : Prop :=
  ∀ r ∈ s.billingSettlements, r.status ≠ .applied →
    r.appliedFundingDelta = 0 ∧ r.appliedTokenDelta = 0

section postings

variable {A : BillingSettlementInput → Prop} {C : ChangeKind → Prop} {s s' : Tables}
variable {owes : Parties → Prop} [DecidablePred owes] {amount : Amount}

theorem posting_of_not_applied {r : BillingSettlement} (h : r.status ≠ .applied) :
    posting owes amount r = 0 := if_neg fun h' => h h'.1

/-- An edit leaves what a record posts alone. -/
theorem RecordEdit.posting_eq {r r' : BillingSettlement} (h : RecordEdit C s r r')
    (hr : r.status ≠ .applied → r.appliedFundingDelta = 0 ∧ r.appliedTokenDelta = 0) :
    posting owes amount r' = posting owes amount r := by
  cases h with
  | failed record cause now hC hp =>
      rw [posting_of_not_applied, posting_of_not_applied]
      · rw [hp]
        decide
      · obtain ⟨_, _, _, _, h⟩ := failedRecord_eq record cause now r
        rw [h]
        exact failureStatus_ne record cause
  | reviewed => cases amount <;> rfl
  | reapproved reviewerID note now hC hm =>
      rw [posting_of_not_applied, posting_of_not_applied]
      · rw [hm]
        decide
      · simp [reapprovedRecord]
  | resolved completion reviewerID note now hC hm =>
      -- the manual record turns applied, but it has never moved anything
      have h0 := hr (by rw [hm]; decide)
      rw [posting_of_not_applied (r := r) (by rw [hm]; decide)]
      unfold posting
      split
      · cases amount
        · exact h0.1
        · exact h0.2
      · rfl
  | promoted input effectPayload recoveryNote auditNote now hC hm =>
      rw [posting_of_not_applied, posting_of_not_applied]
      · rw [hm]
        decide
      · simp [promotedRecord]

theorem RecordEdit.unposted {r r' : BillingSettlement} (h : RecordEdit C s r r')
    (hr : r.status ≠ .applied → r.appliedFundingDelta = 0 ∧ r.appliedTokenDelta = 0)
    (hst : r'.status ≠ .applied) : r'.appliedFundingDelta = 0 ∧ r'.appliedTokenDelta = 0 := by
  cases h with
  | failed record cause now hC hp =>
      obtain ⟨_, _, _, _, h⟩ := failedRecord_eq record cause now r
      rw [h]
      exact hr (by rw [hp]; decide)
  | reviewed => exact hr hst
  | reapproved reviewerID note now hC hm => exact hr (by rw [hm]; decide)
  | resolved => exact absurd rfl hst
  | promoted => exact ⟨rfl, rfl⟩

/-- Records that are not applied keep having posted nothing. -/
theorem Unposted.change (h : Change A C s s') (hs : Unposted s) : Unposted s' := by
  cases h with
  | createPending input payload now hA hC =>
      intro r hr hst
      rcases Table.mem_insert hr with hr | ⟨rfl, _⟩
      · exact hs r hr hst
      · exact ⟨rfl, rfl⟩
  | createManual input reason now hA hC =>
      intro r hr hst
      rcases Table.mem_insert hr with hr | ⟨rfl, _⟩
      · exact hs r hr hst
      · exact ⟨rfl, rfl⟩
  | select | deleteToken => exact hs
  | edit p dec m hedit =>
      intro r' hr' hst
      dsimp only at hr'
      obtain ⟨r, hr, rfl⟩ := Table.mem_update.mp hr'
      by_cases hp : p r
      · rw [if_pos hp] at hst ⊢
        exact (hedit r hr hp).unposted (hs r hr) hst
      · rw [if_neg hp] at hst ⊢
        exact hs r hr hst
  | apply input now current applied appliedToken s' hA hC happ =>
      intro r' hr' hst
      obtain ⟨r, hr, rfl⟩ := happ.mem_settlements.mp hr'
      split at hst
      · exact absurd rfl hst
      · next hp =>
        rw [if_neg hp]
        exact hs r hr hst
  | effect record r effect now hC hr hc hu =>
      intro r' hr' hst
      obtain ⟨a, ha, rfl⟩ := mem_setEffectStatus.mp hr'
      rw [countUsage_billingSettlements] at ha
      split at hst
      · next hp => exact absurd hp.2.1 hst
      · next hp =>
        rw [if_neg hp]
        exact hs a ha hst

/-- Only an application posts: it posts the amounts it has moved. -/
theorem posted_application {input : BillingSettlementInput} {now applied appliedToken : ℤ}
    {current : BillingSettlement}
    (happ : Application input now s current applied appliedToken s') :
    posted s' owes amount = posted s owes amount +
      if owes (parties current) then
        match amount with
        | .funding => applied
        | .token => appliedToken
      else 0 := by
  obtain ⟨_, _, _, _, _, _, _, _, hset⟩ := happ.tables
  unfold posted
  rw [hset]
  unfold recordApplication
  dsimp only
  rw [Table.sum_update_single happ.mem ⟨rfl, happ.pending⟩]
  · rw [posting_of_not_applied (r := current) (by rw [happ.pending]; decide)]
    unfold posting appliedRecord
    simp only [true_and, parties, sub_zero]
    cases amount <;> rfl
  · intro a ha hp
    exact Table.eq_of_clash ha happ.mem (.inl hp.1)

/-! ### Changes that move no balance -/

/-- Nothing is posted and no balance moves; at most a token is deleted. -/
structure Quiet (s s' : Tables) : Prop where
  posted : ∀ (owes : Parties → Prop) [DecidablePred owes] (amount : Amount),
    posted s' owes amount = posted s owes amount
  users : s'.users.keys = s.users.keys
  wallets : ∀ k, s'.users.sumAt User.id k User.quota = s.users.sumAt User.id k User.quota
  tokens : s'.tokens = s.tokens ∨ ∃ id, s'.tokens = s.tokens.delete (·.id = id)
  tasks : s'.tasks = s.tasks
  subscriptions : s'.userSubscriptions = s.userSubscriptions

theorem countUsage_quiet (record : BillingSettlement) (effect : BillingSettlementEffect) (k : ℤ) :
    (countUsage record effect s).users.sumAt User.id k User.quota =
      s.users.sumAt User.id k User.quota ∧
      (countUsage record effect s).users.keys = s.users.keys ∧
      (countUsage record effect s).tokens = s.tokens ∧
      (countUsage record effect s).tasks = s.tasks ∧
      (countUsage record effect s).userSubscriptions = s.userSubscriptions := by
  have h : (addUserUsage record.userID (effectQuota record effect) s).users.sumAt User.id k
      User.quota = s.users.sumAt User.id k User.quota :=
    Table.sumAt_update_eq (fun _ => rfl) fun _ => rfl
  unfold countUsage addChannelUsage
  split_ifs
  · exact ⟨h, Table.keys_update, rfl, rfl, rfl⟩
  · exact ⟨h, Table.keys_update, rfl, rfl, rfl⟩
  · exact ⟨rfl, rfl, rfl, rfl, rfl⟩

/-- An elementary change is quiet, or it is the application of a pending record. -/
theorem Change.quiet_or_application (h : Change A C s s') (hs : Unposted s) :
    Quiet s s' ∨ ∃ input now current applied appliedToken, A input ∧
      Application input now s current applied appliedToken s' := by
  cases h with
  | createPending input payload now hA hC =>
      exact .inl ⟨fun _ _ _ => Table.sum_insert (posting_of_not_applied (by simp [pendingRecord])),
        rfl, fun _ => rfl, .inl rfl, rfl, rfl⟩
  | createManual input reason now hA hC =>
      exact .inl ⟨fun _ _ _ => Table.sum_insert (posting_of_not_applied (by simp [manualRecord])),
        rfl, fun _ => rfl, .inl rfl, rfl, rfl⟩
  | select selections hC => exact .inl ⟨fun _ _ _ => rfl, rfl, fun _ => rfl, .inl rfl, rfl, rfl⟩
  | edit p dec m hedit =>
      refine .inl ⟨fun _ _ _ => ?_, rfl, fun _ => rfl, .inl rfl, rfl, rfl⟩
      exact Table.sum_update_eq fun r hr hp => (hedit r hr hp).posting_eq (hs r hr)
  | apply input now current applied appliedToken s' hA hC happ =>
      exact .inr ⟨input, now, current, applied, appliedToken, hA, happ⟩
  | effect record r effect now hC hr hc hu =>
      have hq := countUsage_quiet (s := s) record effect
      refine .inl ⟨fun owes _ amount => ?_, (hq 0).2.1, fun k => (hq k).1, .inl (hq 0).2.2.1,
        (hq 0).2.2.2.1, (hq 0).2.2.2.2⟩
      unfold Settlement.posted setEffectStatus
      rw [countUsage_billingSettlements]
      exact Table.sum_update_eq fun a _ _ => by cases amount <;> rfl
  | deleteToken id hC => exact .inl ⟨fun _ _ _ => rfl, rfl, fun _ => rfl, .inr ⟨id, rfl⟩, rfl, rfl⟩

end postings

/-! ### The accounts -/

/-- The wallet of user `k` pays the wallet settlements of the user. -/
def paysWallet (k : ℤ) (p : Parties) : Prop := p.source = .wallet ∧ p.userID = k

instance (k : ℤ) : DecidablePred (paysWallet k) := fun _ => inferInstanceAs (Decidable (_ ∧ _))

/-- Token `k` pays the settlements it is named in. -/
def paysToken (k : ℤ) (p : Parties) : Prop := p.tokenID = k

instance (k : ℤ) : DecidablePred (paysToken k) := fun _ => inferInstanceAs (Decidable (_ = _))

/-- Task `k` carries the settlements of the task. -/
def paysTask (k : ℤ) (p : Parties) : Prop := p.taskID = k

instance (k : ℤ) : DecidablePred (paysTask k) := fun _ => inferInstanceAs (Decidable (_ = _))

/-- Subscription `k` pays the subscription settlements that name it. -/
def paysSubscription (k : ℤ) (p : Parties) : Prop := p.source = .subscription ∧ p.subscriptionID = k

instance (k : ℤ) : DecidablePred (paysSubscription k) := fun _ =>
  inferInstanceAs (Decidable (_ ∧ _))

/-- The wallet of user `k` and what it has paid. -/
def walletLedger (s : Tables) (k : ℤ) : ℤ :=
  s.users.sumAt User.id k User.quota + posted s (paysWallet k) .funding

/-- The remaining quota of token `k` and what it has paid. -/
def tokenLedger (s : Tables) (k : ℤ) : ℤ :=
  s.tokens.sumAt Token.id k Token.remainQuota + posted s (paysToken k) .token

/-- The used quota of token `k` less what it has paid. -/
def tokenUsageLedger (s : Tables) (k : ℤ) : ℤ :=
  s.tokens.sumAt Token.id k Token.usedQuota - posted s (paysToken k) .token

/-- The quota of task `k` less what has been settled for it. -/
def taskLedger (s : Tables) (k : ℤ) : ℤ :=
  s.tasks.sumAt TaskRow.id k TaskRow.quota - posted s (paysTask k) .funding

/-- The usage of subscription `k` less what it has paid. -/
def subscriptionLedger (s : Tables) (k : ℤ) : ℤ :=
  s.userSubscriptions.sumAt UserSubscription.id k UserSubscription.amountUsed -
    posted s (paysSubscription k) .funding

section accounts

variable {A : BillingSettlementInput → Prop} {C : ChangeKind → Prop} {s s' : Tables}
variable {input : BillingSettlementInput} {now applied appliedToken : ℤ}
variable {current : BillingSettlement}

theorem Application.walletLedger (h : Application input now s current applied appliedToken s')
    (k : ℤ) : walletLedger s' k = Settlement.walletLedger s k := by
  obtain ⟨t, selections, hf, husers, _⟩ := h.tables
  obtain ⟨hsource, huser, _⟩ := h.same
  unfold Settlement.walletLedger
  rw [posted_application h, husers]
  simp only [paysWallet, parties, hsource, huser]
  cases hf with
  | wallet hs _ hmem _ =>
      unfold moveWallet
      dsimp only
      rw [Table.sumAt_update (d := -input.fundingDelta)
        (fun a ha b hb hab => Table.eq_of_clash ha hb hab) (fun _ => rfl) (fun _ => rfl)
        fun _ hd => hmem (by omega)]
      simp only [hs, true_and]
      split_ifs <;> omega
  | subscription hs h =>
      rw [h.subscriptions.2]
      simp [hs]

theorem Application.tokens (h : Application input now s current applied appliedToken s') {k : ℤ}
    (hk : ∃ t ∈ s.tokens, t.id = k) :
    s'.tokens.sumAt Token.id k Token.remainQuota =
        s.tokens.sumAt Token.id k Token.remainQuota -
          (if input.tokenID = k then appliedToken else 0) ∧
      s'.tokens.sumAt Token.id k Token.usedQuota =
        s.tokens.sumAt Token.id k Token.usedQuota +
          (if input.tokenID = k then appliedToken else 0) := by
  obtain ⟨_, _, _, _, _, _, htok, _⟩ := h.tables
  rw [htok]
  unfold moveTokenIfAny moveToken
  by_cases h0 : input.tokenID ≤ 0 ∨ appliedToken = 0
  · have hz : appliedToken = 0 := by
      rcases h0 with h0 | h0
      · rcases h.token with ht | ⟨ht, _⟩
        · exact ht
        · omega
      · exact h0
    rw [if_pos h0, hz]
    simp
  · rw [if_neg h0]
    dsimp only
    have hex : input.tokenID = k → ∃ t ∈ s.tokens, t.id = input.tokenID := fun h => h ▸ hk
    rw [Table.sumAt_update (d := -appliedToken)
      (fun a ha b hb hab => Table.eq_of_clash ha hb hab) (fun _ => rfl) (fun _ => rfl)
      fun h _ => hex h]
    rw [Table.sumAt_update (d := appliedToken)
      (fun a ha b hb hab => Table.eq_of_clash ha hb hab) (fun _ => rfl) (fun _ => rfl)
      fun h _ => hex h]
    constructor <;> split_ifs <;> omega

theorem Application.tokenLedger (h : Application input now s current applied appliedToken s')
    {k : ℤ} (hk : ∃ t ∈ s.tokens, t.id = k) :
    tokenLedger s' k = Settlement.tokenLedger s k ∧
      tokenUsageLedger s' k = Settlement.tokenUsageLedger s k := by
  obtain ⟨_, _, _, htoken, _⟩ := h.same
  obtain ⟨hremain, hused⟩ := h.tokens hk
  unfold Settlement.tokenLedger Settlement.tokenUsageLedger
  rw [posted_application h, hremain, hused]
  simp only [paysToken, parties, htoken]
  constructor <;> split_ifs <;> omega

theorem Application.taskLedger (h : Application input now s current applied appliedToken s')
    {k : ℤ} (hk : 0 < k) : taskLedger s' k = Settlement.taskLedger s k := by
  obtain ⟨_, _, _, _, _, _, htaskID, _⟩ := h.same
  obtain ⟨_, _, _, _, _, _, _, htask, _⟩ := h.tables
  unfold Settlement.taskLedger
  rw [posted_application h, htask]
  simp only [paysTask, parties, htaskID]
  unfold moveTaskIfAny moveTask
  split_ifs with hc hid hid
  · -- the task still has the quota the settlement was priced at, so writing the target adds
    obtain ⟨t, ht, htid, htq⟩ := h.task hc.1
    dsimp only
    have hsum : ∀ a ∈ s.tasks, a.id = input.taskID → a = t := fun a ha hai =>
      Table.eq_of_clash ha ht (hai.trans htid.symm)
    unfold Table.sumAt
    rw [Table.sum_update_single ht htid hsum]
    dsimp only
    rw [if_pos (htid.trans hid), if_pos (htid.trans hid), htq]
    ring
  · dsimp only
    unfold Table.sumAt
    rw [Table.sum_update_eq]
    · ring
    · intro a _ ha
      have hne : a.id ≠ k := fun h => hid (ha.symm.trans h)
      rw [if_neg hne, if_neg hne]
  · have h0 : applied = 0 := by
      by_contra hne
      exact hc ⟨by omega, hne⟩
    omega
  · ring

theorem Application.subscriptionLedger
    (h : Application input now s current applied appliedToken s') (k : ℤ) :
    subscriptionLedger s' k = Settlement.subscriptionLedger s k := by
  obtain ⟨t, selections, hf, _, hsubs, _⟩ := h.tables
  obtain ⟨hsource, _, hsub, _⟩ := h.same
  unfold Settlement.subscriptionLedger
  rw [posted_application h, hsubs]
  simp only [paysSubscription, parties, hsource, hsub]
  cases hf with
  | wallet hs => simp [hs, moveWallet]
  | subscription hs hf =>
      rw [hf.subscriptions.1]
      unfold moveSubscriptionIfAny moveSubscription
      simp only [hs, true_and]
      by_cases h0 : applied = 0
      · rw [if_pos h0, h0]
        simp
      · rw [if_neg h0]
        dsimp only
        rw [Table.sumAt_update (d := applied)
          (fun a ha b hb hab => Table.eq_of_clash ha hb hab) (fun _ => rfl) (fun _ => rfl)
          fun _ _ => ⟨_, hf.sub_mem, hf.sub_id⟩]
        ring

/-! ### One change -/

theorem walletLedger_change (h : Change A C s s') (hs : Unposted s) (k : ℤ) :
    walletLedger s' k = walletLedger s k := by
  rcases h.quiet_or_application hs with hq | ⟨_, _, _, _, _, _, happ⟩
  · unfold walletLedger
    rw [hq.posted, hq.wallets]
  · exact happ.walletLedger k

theorem subscriptionLedger_change (h : Change A C s s') (hs : Unposted s) (k : ℤ) :
    subscriptionLedger s' k = subscriptionLedger s k := by
  rcases h.quiet_or_application hs with hq | ⟨_, _, _, _, _, _, happ⟩
  · unfold subscriptionLedger
    rw [hq.posted, hq.subscriptions]
  · exact happ.subscriptionLedger k

theorem taskLedger_change (h : Change A C s s') (hs : Unposted s) {k : ℤ} (hk : 0 < k) :
    taskLedger s' k = taskLedger s k := by
  rcases h.quiet_or_application hs with hq | ⟨_, _, _, _, _, _, happ⟩
  · unfold taskLedger
    rw [hq.posted, hq.tasks]
  · exact happ.taskLedger hk

/-- A token that is there after a change was there before, and its ledgers are the same. -/
theorem tokenLedger_change (h : Change A C s s') (hs : Unposted s) {k : ℤ}
    (hk : ∃ t ∈ s'.tokens, t.id = k) :
    (∃ t ∈ s.tokens, t.id = k) ∧ tokenLedger s' k = tokenLedger s k ∧
      tokenUsageLedger s' k = tokenUsageLedger s k := by
  rcases h.quiet_or_application hs with hq | ⟨input, _, _, _, _, _, happ⟩
  · unfold tokenLedger tokenUsageLedger
    rw [hq.posted]
    rcases hq.tokens with htok | ⟨id, htok⟩
    · rw [htok] at hk ⊢
      exact ⟨hk, rfl, rfl⟩
    · rw [htok] at hk ⊢
      obtain ⟨t, ht, htk⟩ := hk
      obtain ⟨ht, hne⟩ := Table.mem_delete.mp ht
      have hidk : id ≠ k := fun h => hne (htk.trans h.symm)
      rw [Table.sumAt_delete hidk, Table.sumAt_delete hidk]
      exact ⟨⟨t, ht, htk⟩, rfl, rfl⟩
  · have hlive : ∃ t ∈ s.tokens, t.id = k := by
      obtain ⟨t, ht, htk⟩ := hk
      obtain ⟨_, _, _, _, _, _, htok, _⟩ := happ.tables
      have hkeys : s'.tokens.keys = s.tokens.keys := by
        rw [htok]
        unfold moveTokenIfAny moveToken
        split
        · rfl
        · exact Table.keys_update
      obtain ⟨a, ha, hak⟩ := Table.mem_keys hkeys.symm ht
      exact ⟨a, ha, Eq.trans hak htk⟩
    exact ⟨hlive, happ.tokenLedger hlive⟩

/-- Users are never added or removed. -/
theorem users_keys_change (h : Change A C s s') (hs : Unposted s) :
    s'.users.keys = s.users.keys := by
  rcases h.quiet_or_application hs with hq | ⟨_, _, _, _, _, _, happ⟩
  · exact hq.users
  · obtain ⟨t, _, hf, husers, _⟩ := happ.tables
    rw [husers]
    cases hf with
    | wallet => exact Table.keys_update
    | subscription _ hf => rw [hf.subscriptions.2]

/-- Tasks are never added or removed. -/
theorem tasks_keys_change (h : Change A C s s') (hs : Unposted s) :
    s'.tasks.keys = s.tasks.keys := by
  rcases h.quiet_or_application hs with hq | ⟨_, _, _, _, _, _, happ⟩
  · rw [hq.tasks]
  · obtain ⟨_, _, _, _, _, _, _, htask, _⟩ := happ.tables
    rw [htask]
    unfold moveTaskIfAny moveTask
    split
    · exact Table.keys_update
    · rfl

/-- Subscriptions are never added or removed. -/
theorem subscriptions_keys_change (h : Change A C s s') (hs : Unposted s) :
    s'.userSubscriptions.keys = s.userSubscriptions.keys := by
  rcases h.quiet_or_application hs with hq | ⟨_, _, _, _, _, _, happ⟩
  · rw [hq.subscriptions]
  · obtain ⟨t, _, hf, _, hsubs, _⟩ := happ.tables
    rw [hsubs]
    cases hf with
    | wallet => rfl
    | subscription _ hf =>
        rw [hf.subscriptions.1]
        unfold moveSubscriptionIfAny moveSubscription
        split
        · rfl
        · exact Table.keys_update

end accounts

/-! ### Every run -/

/-- The ledgers of `s` are those of `s₀`, account by account. -/
structure SameLedgers (s₀ s : Tables) : Prop where
  unposted : Unposted s
  users : s.users.keys = s₀.users.keys
  tasks : s.tasks.keys = s₀.tasks.keys
  subscriptions : s.userSubscriptions.keys = s₀.userSubscriptions.keys
  wallet : ∀ k, walletLedger s k = walletLedger s₀ k
  token : ∀ k, (∃ t ∈ s.tokens, t.id = k) → (∃ t ∈ s₀.tokens, t.id = k) ∧
    tokenLedger s k = tokenLedger s₀ k ∧ tokenUsageLedger s k = tokenUsageLedger s₀ k
  task : ∀ k, 0 < k → taskLedger s k = taskLedger s₀ k
  subscription : ∀ k, subscriptionLedger s k = subscriptionLedger s₀ k

theorem SameLedgers.refl {s : Tables} (h : Unposted s) : SameLedgers s s where
  unposted := h
  users := rfl
  tasks := rfl
  subscriptions := rfl
  wallet _ := rfl
  token _ hk := ⟨hk, rfl, rfl⟩
  task _ _ := rfl
  subscription _ := rfl

theorem SameLedgers.change {A : BillingSettlementInput → Prop} {C : ChangeKind → Prop}
    {s₀ s s' : Tables}
    (hc : Change A C s s') (h : SameLedgers s₀ s) : SameLedgers s₀ s' where
  unposted := h.unposted.change hc
  users := (users_keys_change hc h.unposted).trans h.users
  tasks := (tasks_keys_change hc h.unposted).trans h.tasks
  subscriptions := (subscriptions_keys_change hc h.unposted).trans h.subscriptions
  wallet k := (walletLedger_change hc h.unposted k).trans (h.wallet k)
  token k hk := by
    obtain ⟨hlive, hremain, hused⟩ := tokenLedger_change hc h.unposted hk
    obtain ⟨hlive₀, hremain₀, hused₀⟩ := h.token k hlive
    exact ⟨hlive₀, hremain.trans hremain₀, hused.trans hused₀⟩
  task k hk := (taskLedger_change hc h.unposted hk).trans (h.task k hk)
  subscription k := (subscriptionLedger_change hc h.unposted k).trans (h.subscription k)

/-- No step changes a ledger. -/
theorem sameLedgers_step (host : Host) (s₀ : Tables) (w : World) (op : Op)
    (h : SameLedgers s₀ w.db) : SameLedgers s₀ (step host w op).db := by
  obtain ⟨_, _, hc⟩ := step_changes_any host w op
  exact hc.preserve SameLedgers.change h

/-- No run changes a ledger. -/
theorem sameLedgers_runs (host : Host) (w : World) (h : Unposted w.db) (ops : List Op) :
    SameLedgers w.db (runs host w ops).db :=
  Transition.run_invariant (I := fun v => SameLedgers w.db v.db) (step host)
    (fun v op => sameLedgers_step host w.db v op) ops w (.refl h)

/-- Every balance of `s` is the balance of `s₀` moved by exactly what the applied records of `s`
have posted to it. -/
structure Conserved (s₀ s : Tables) : Prop where
  wallet : ∀ u₀ ∈ s₀.users, ∃ u ∈ s.users, u.id = u₀.id ∧
    u.quota = u₀.quota - posted s (paysWallet u₀.id) .funding
  token : ∀ t ∈ s.tokens, ∃ t₀ ∈ s₀.tokens, t₀.id = t.id ∧
    t.remainQuota = t₀.remainQuota - posted s (paysToken t.id) .token ∧
    t.usedQuota = t₀.usedQuota + posted s (paysToken t.id) .token
  task : ∀ t₀ ∈ s₀.tasks, 0 < t₀.id → ∃ t ∈ s.tasks, t.id = t₀.id ∧
    t.quota = t₀.quota + posted s (paysTask t₀.id) .funding
  subscription : ∀ u₀ ∈ s₀.userSubscriptions, ∃ u ∈ s.userSubscriptions, u.id = u₀.id ∧
    u.amountUsed = u₀.amountUsed + posted s (paysSubscription u₀.id) .funding

theorem posted_eq_zero {s : Tables} (h : s.billingSettlements = .empty) (owes : Parties → Prop)
    [DecidablePred owes] (amount : Amount) : posted s owes amount = 0 := by
  unfold posted
  rw [h]
  rfl

theorem SameLedgers.conserved {s₀ s : Tables} (h : SameLedgers s₀ s)
    (h₀ : s₀.billingSettlements = .empty) : Conserved s₀ s where
  wallet u₀ hu₀ := by
    obtain ⟨u, hu, hid⟩ := Table.mem_keys h.users hu₀
    have hid : u.id = u₀.id := hid
    have hl := h.wallet u₀.id
    unfold walletLedger at hl
    rw [posted_eq_zero h₀, users_sumAt hu₀, ← hid, users_sumAt hu] at hl
    refine ⟨u, hu, hid, ?_⟩
    rw [← hid]
    omega
  token t ht := by
    obtain ⟨⟨t₀, ht₀, hid⟩, hremain, hused⟩ := h.token t.id ⟨t, ht, rfl⟩
    unfold tokenLedger at hremain
    unfold tokenUsageLedger at hused
    rw [posted_eq_zero h₀, tokens_sumAt ht, ← hid, tokens_sumAt ht₀] at hremain hused
    refine ⟨t₀, ht₀, hid, ?_⟩
    rw [← hid]
    constructor <;> omega
  task t₀ ht₀ hpos := by
    obtain ⟨t, ht, hid⟩ := Table.mem_keys h.tasks ht₀
    have hid : t.id = t₀.id := hid
    have hl := h.task t₀.id hpos
    unfold taskLedger at hl
    rw [posted_eq_zero h₀, tasks_sumAt ht₀, ← hid, tasks_sumAt ht] at hl
    refine ⟨t, ht, hid, ?_⟩
    rw [← hid]
    omega
  subscription u₀ hu₀ := by
    obtain ⟨u, hu, hid⟩ := Table.mem_keys h.subscriptions hu₀
    have hid : u.id = u₀.id := hid
    have hl := h.subscription u₀.id
    unfold subscriptionLedger at hl
    rw [posted_eq_zero h₀, userSubscriptions_sumAt hu₀, ← hid, userSubscriptions_sumAt hu] at hl
    refine ⟨u, hu, hid, ?_⟩
    rw [← hid]
    omega

/-- **Ledger conservation.**  Whatever calls, runner passes, reviews and completions interleave,
and wherever they crash: every balance has moved by exactly what the applied records have posted
to it. -/
theorem ledger_conserved (host : Host) (w : World) (h₀ : w.db.billingSettlements = .empty)
    (ops : List Op) : Conserved w.db (runs host w ops).db := by
  have hunposted : Unposted w.db := by
    intro r hr
    rw [h₀] at hr
    cases hr
  exact (sameLedgers_runs host w hunposted ops).conserved h₀

/-! ### A run with a charge, a failure and a replay -/

/-- An effect that logs a consumption and counts its quota. -/
def demoEffect : BillingSettlementEffect where
  logType := logTypeConsume
  content := "charge"
  channelID := 3
  modelName := "model"
  tokenID := 2
  tokenName := ""
  group := "default"
  other := []
  nodeName := ""
  updateUsage := true
  quota := 0
  quotaIsActual := false
  promptTokens := 0
  completionTokens := 0
  useTimeSeconds := 0
  isStream := false
  requestID := "r"
  upstreamRequestID := ""
  subscription := none

/-- The final charge of a request on the wallet of user 1, through token 2. -/
def demoCharge (fundingDelta : ℤ) : BillingSettlementInput where
  operationKey := billingRequestFinalizeOperationKey "r"
  source := .wallet
  userID := 1
  subscriptionID := 0
  tokenID := 2
  fundingDelta := fundingDelta
  tokenDelta := fundingDelta
  taskID := 0
  taskQuota := 0
  taskQuotaTarget := 0
  subscriptionPreConsumeRequestID := ""
  finalizeSubscriptionPreConsume := false
  allowMissingToken := false
  manualOnFailure := false
  effect := some demoEffect
  preConsumeRequestID := ""
  preConsumeModelName := ""
  preConsumeRequestedQuota := 0
  preConsumeEffectiveQuota := 0

/-- One user, one token and one channel, and nothing settled yet. -/
def demoWorld : World where
  db := { Tables.empty with
    users := ⟨[⟨1, "user", 100, 0, 0, "default"⟩], List.pairwise_singleton _ _⟩
    tokens := ⟨[⟨2, 1, "key", "token", 50, 0, false, 0⟩], List.pairwise_singleton _ _⟩
    channels := ⟨[⟨3, 0⟩], List.pairwise_singleton _ _⟩ }
  logDb := .empty
  calls := []

/-- Two calls race for the same charge while the database drops the first transaction; the runner
replays the record. -/
def demoRace : List Op :=
  [.apply (demoCharge 30), .apply (demoCharge 30), .proceed 0 1 .none "", .proceed 1 1 .none "",
    .proceed 0 2 (.aborted "connection lost") "", .proceed 0 2 .none "", .proceed 0 2 .none "",
    .runner 10, .proceed 2 10 .none "", .proceed 2 10 .none "", .proceed 1 11 .none ""]

/-- The race charges the wallet once, and the ledger accounts for it. -/
theorem ledger_conserved_demoRace :
    Conserved demoWorld.db (runs (plainHost demoEffect) demoWorld demoRace).db ∧
      (runs (plainHost demoEffect) demoWorld demoRace).db.users.rows.map (·.quota) = [70] :=
  ⟨ledger_conserved (plainHost demoEffect) demoWorld rfl demoRace, by decide⟩

end MaxApi.Settlement
