import MaxApi.Lib.System
import MaxApi.Subscription.Groups

/-! # The group a user falls back to

A user buys subscriptions to plans that all grant the group `G`, in any overlap, and each of them
ends in one of three ways.  The group the user held before is remembered only by the purchase that
moved the user into `G`.  `KeepsSnapshot` says what the step that ends the last subscription must
end with: a subscription that remembers the group.  It holds along a run exactly when every state
of the run that leaves the user without a subscription has the group restored. -/

namespace MaxApi.Subscription

open Relational MaxApi.Billing

/-- What can happen to the subscriptions of the users. -/
inductive Op where
  /-- A user buys a subscription. -/
  | purchase (userId : ℤ) (plan : SubscriptionPlan) (now updatedAt : ℤ)
  /-- A pass of `ExpireDueSubscriptions`. -/
  | expire (limit now updatedAt : ℤ)
  /-- An administrator cancels a subscription. -/
  | invalidate (userSubscriptionId now : ℤ)
  /-- An administrator deletes a subscription. -/
  | delete (userSubscriptionId now : ℤ)

/-- What an operation makes of the database. -/
def step (cal : Calendar) (s : Tables) : Op → Tables
  | .purchase userId plan now updatedAt =>
      (transaction (createUserSubscriptionFromPlanTx cal userId plan now updatedAt) s).2
  | .expire limit now updatedAt => expireDueSubscriptions limit now updatedAt s
  | .invalidate id now => (transaction (adminInvalidateUserSubscriptionTx id now) s).2
  | .delete id now => (transaction (adminDeleteUserSubscriptionTx id now) s).2

/-- The database after a list of operations. -/
abbrev runs (cal : Calendar) (s : Tables) (ops : List Op) : Tables :=
  Transition.run (step cal) s ops

/-- The purchases of the user are of plans that grant `G` and name no group to fall back to. -/
def Op.Grants (U : ℤ) (G : String) : Op → Prop
  | .purchase userId plan _ _ => userId = U →
      Text.trimSpace plan.upgradeGroup = G ∧ Text.trimSpace plan.downgradeGroup = ""
  | _ => True

instance (U : ℤ) (G : String) : DecidablePred (Op.Grants U G)
  | .purchase _ _ _ _ => inferInstanceAs (Decidable (_ → _))
  | .expire _ _ _ => .isTrue trivial
  | .invalidate _ _ => .isTrue trivial
  | .delete _ _ => .isTrue trivial

/-- The subscriptions that an operation ends. -/
def Op.ends (s : Tables) : Op → UserSubscription → Prop
  | .purchase _ _ _ _, _ => False
  | .expire limit now _, sub => sub.userId ∈ dueUsers s limit now ∧ due now sub
  | .invalidate id _, sub => sub.id = id
  | .delete id _, sub => sub.id = id

instance (s : Tables) : (op : Op) → DecidablePred (op.ends s)
  | .purchase _ _ _ _ => fun _ => .isFalse id
  | .expire _ _ _ => fun _ => inferInstanceAs (Decidable (_ ∧ _))
  | .invalidate _ _ => fun _ => inferInstanceAs (Decidable (_ = _))
  | .delete _ _ => fun _ => inferInstanceAs (Decidable (_ = _))

/-- The subscription of the user by which an operation decides about the group. -/
def decider (s : Tables) (U : ℤ) : Op → Option UserSubscription
  | .purchase _ _ _ _ => none
  | .expire limit now _ =>
      if U ∈ dueUsers s limit now then lastExpired (dueSubscriptions s U now) else none
  | .invalidate id _ => s.userSubscriptions.first? fun sub => sub.id = id ∧ sub.userId = U
  | .delete id _ => s.userSubscriptions.first? fun sub => sub.id = id ∧ sub.userId = U

/-- A user without an active subscription is in the group `g`. -/
def Restored (U : ℤ) (g : String) (s : Tables) : Prop := Unsubscribed s U → groupOf s U = g

/-- A step that ends the last active subscription of a user who is not in the group `g` finds the
user in `G`, and decides by a subscription that remembers `g`. -/
def KeepsSnapshot (U : ℤ) (g G : String) (s : Tables) (op : Op) : Prop :=
  (∀ sub ∈ rowsOf s U, sub.status = .active → op.ends s sub) → groupOf s U ≠ g →
    groupOf s U = G ∧ ∃ sub ∈ decider s U op,
      Text.trimSpace sub.prevUserGroup ≠ "" ∧ Text.trimSpace sub.prevUserGroup = g

instance (U : ℤ) (g G : String) (s : Tables) (op : Op) : Decidable (KeepsSnapshot U g G s op) :=
  inferInstanceAs (Decidable (_ → _ → _ ∧ ∃ sub ∈ decider s U op, _))

/-! ### The fall back of a subscription that grants `G` -/

/-- The group a subscription of `G` sends the user to, empty for none: the group it remembers, if
the user is in `G`. -/
structure TargetOf (sub : UserSubscription) (G currentGroup target : String) : Prop where
  outside : currentGroup ≠ G → target = ""
  inside : currentGroup = G → target = Text.trimSpace sub.prevUserGroup ∨
    (target = "" ∧ Text.trimSpace sub.prevUserGroup = G)

theorem targetOf_downgrade {sub : UserSubscription} {G : String} (currentGroup : String)
    (hG : G ≠ "") (hup : Text.trimSpace sub.upgradeGroup = G)
    (hdown : Text.trimSpace sub.downgradeGroup = "") :
    TargetOf sub G currentGroup (downgradeTarget sub currentGroup) := by
  unfold downgradeTarget
  rw [hdown, hup]
  constructor
  · intro hne
    simp [hne]
  · intro heq
    simp [heq, hG]

theorem targetOf_expiry {sub : UserSubscription} {G : String} (currentGroup : String)
    (hG : G ≠ "") (hup : Text.trimSpace sub.upgradeGroup = G)
    (hdown : Text.trimSpace sub.downgradeGroup = "") :
    TargetOf sub G currentGroup (expiryTarget sub currentGroup) := by
  unfold expiryTarget
  rw [hdown, hup]
  constructor
  · intro hne
    simp [hne]
  · intro heq
    by_cases hprev : G = Text.trimSpace sub.prevUserGroup
    · simp [heq, hG, ← hprev]
    · by_cases hblank : Text.trimSpace sub.prevUserGroup = ""
      · simp [hblank]
      · simp [heq, hG, hprev, hblank]

/-- Where the user ends up is the group `g` exactly when the subscription remembers it. -/
theorem TargetOf.restores {sub : UserSubscription} {g G currentGroup target : String}
    (h : TargetOf sub G currentGroup target)
    (hstays : g = G → currentGroup = G ∧ Text.trimSpace sub.prevUserGroup = "") :
    (if target = "" then currentGroup else target) = g ↔ (currentGroup ≠ g → currentGroup = G ∧
      Text.trimSpace sub.prevUserGroup ≠ "" ∧ Text.trimSpace sub.prevUserGroup = g) := by
  by_cases hcur : currentGroup = G
  · by_cases hgG : g = G
    · have hprev := (hstays hgG).2
      have ht : target = "" := by
        rcases h.inside hcur with ht | ht
        · rw [ht, hprev]
        · exact ht.1
      simp [ht, hcur, hgG]
    · have hne : G ≠ g := Ne.symm hgG
      rcases h.inside hcur with ht | ⟨ht, hprev⟩
      · rw [ht, hcur]
        by_cases hblank : Text.trimSpace sub.prevUserGroup = ""
        · simp [hblank, hne]
        · simp [hblank, hne]
      · rw [ht, hcur, hprev]
        simp [hne]
  · rw [if_pos (h.outside hcur)]
    constructor
    · intro heq hne
      exact absurd heq hne
    · intro himp
      by_contra hne
      exact hcur (himp hne).1

/-! ### The user of a run -/

/-- What holds of a user in every state of the run: the subscriptions are of plans that grant `G`,
and where `G` was the user's group all along nothing else is remembered. -/
structure Enrolled (U : ℤ) (g G : String) (s : Tables) : Prop where
  known : Known s U
  rows : ∀ sub ∈ rowsOf s U, 0 < U ∧ 0 < sub.id ∧ Text.trimSpace sub.upgradeGroup = G ∧
    Text.trimSpace sub.downgradeGroup = ""
  stays : g = G → groupOf s U = G ∧ ∀ sub ∈ rowsOf s U, Text.trimSpace sub.prevUserGroup = ""

variable {U : ℤ} {g G : String} {s s' : Tables}

theorem Enrolled.of_sameFor (h : Enrolled U g G s) (hsame : SameFor U s s') :
    Enrolled U g G s' where
  known := hsame.known h.known
  rows := by
    rw [hsame.rows]
    exact h.rows
  stays := by
    rw [hsame.rows, hsame.group]
    exact h.stays

theorem Restored.of_sameFor (h : Restored U g s) (hsame : SameFor U s s') : Restored U g s' := by
  unfold Restored Unsubscribed at h ⊢
  rw [hsame.rows, hsame.group]
  exact h

/-- An operation that decides by no subscription of the user leaves the user alone, and one that
decides by `sub` ends subscriptions and falls back as `sub` says. -/
inductive Outcome (U : ℤ) (G : String) (s : Tables) (op : Op) (s' : Tables) : Prop where
  | unchanged (h : SameFor U s s') (hnone : decider s U op = none)
      (hends : ∀ sub ∈ rowsOf s U, ¬ op.ends s sub)
  | ended (sub : UserSubscription) (hsub : sub ∈ rowsOf s U) (hsome : decider s U op = some sub)
      (target : String) (htarget : TargetOf sub G (groupOf s U) target)
      (h : EndedBy U (op.ends s) target s s')

/-- The batch that expires for a user decides by one of its subscriptions. -/
theorem lastExpired_eq {batch : List UserSubscription} (hne : batch ≠ []) (hG : G ≠ "")
    (h : ∀ sub ∈ batch, Text.trimSpace sub.upgradeGroup = G) :
    ∃ last ∈ batch, lastExpired batch = some last := by
  have hlast : batch.reverse ≠ [] := fun h => hne (List.reverse_eq_nil_iff.mp h)
  obtain ⟨last, rest, hrev⟩ := List.exists_cons_of_ne_nil hlast
  have hmem : last ∈ batch := by
    rw [← List.mem_reverse, hrev]
    exact List.mem_cons_self
  refine ⟨last, hmem, ?_⟩
  unfold lastExpired
  rw [hrev, List.find?_cons_of_pos]
  rw [decide_eq_true_iff, h last hmem]
  exact .inl hG

theorem outcome_expire (hI : Enrolled U g G s) (hG : G ≠ "") (limit now updatedAt : ℤ) :
    Outcome U G s (.expire limit now updatedAt) (expireDueSubscriptions limit now updatedAt s) := by
  have hpos : ∀ V ∈ dueUsers s limit now, 0 < V := fun V hV => (mem_dueUsers hV).1
  unfold expireDueSubscriptions
  by_cases hU : U ∈ dueUsers s limit now
  · obtain ⟨_, due, hdue, hnow⟩ := mem_dueUsers hU
    have hbatch : dueSubscriptions s U now ≠ [] :=
      List.ne_nil_of_mem (mem_dueSubscriptions.mpr ⟨hdue, hnow⟩)
    obtain ⟨last, hmem, hlast⟩ := lastExpired_eq hbatch hG fun sub hsub =>
      (hI.rows sub (mem_dueSubscriptions.mp hsub).1).2.2.1
    have hrow := (mem_dueSubscriptions.mp hmem).1
    obtain ⟨_, _, hup, hdown⟩ := hI.rows last hrow
    have htarget : batchTarget (dueSubscriptions s U now) (groupOf s U) =
        expiryTarget last (groupOf s U) := by
      unfold batchTarget
      rw [hlast]
      rfl
    have hend := endedBy_expireUsers now updatedAt hpos (List.nodup_dedup _) hU s
    rw [htarget] at hend
    refine .ended last hrow ((if_pos hU).trans hlast) _
      (targetOf_expiry (groupOf s U) hG hup hdown) (hend.congr fun sub hsub => ?_)
    have hmem : sub.userId ∈ dueUsers s limit now := by
      rw [(mem_rowsOf.mp hsub).2]
      exact hU
    exact ⟨fun h => ⟨hmem, h⟩, And.right⟩
  · refine .unchanged (sameFor_expireUsers hpos hU s) (if_neg hU) ?_
    intro sub hsub hends
    rw [(mem_rowsOf.mp hsub).2.symm] at hU
    exact hU hends.1

/-- The two operations of an administrator on the subscription `id`. -/
theorem outcome_admin (id : ℤ) {op : Op} (hI : Enrolled U g G s) (hG : G ≠ "")
    (hends : ∀ sub, op.ends s sub ↔ sub.id = id)
    (hdecider : decider s U op =
      s.userSubscriptions.first? fun sub => sub.id = id ∧ sub.userId = U)
    (hother : (∀ sub ∈ rowsOf s U, sub.id ≠ id) → SameFor U s s')
    (hown : ∀ sub ∈ s.userSubscriptions, 0 < sub.id → 0 < sub.userId → sub.id = id →
      sub.userId = U → EndedBy U (fun u => u.id = id) (downgradeTarget sub (groupOf s U)) s s') :
    Outcome U G s op s' := by
  cases hfirst : s.userSubscriptions.first? fun sub => sub.id = id ∧ sub.userId = U with
  | none =>
      have hne : ∀ sub ∈ rowsOf s U, sub.id ≠ id := by
        intro sub hsub hid
        obtain ⟨hmem, hU⟩ := mem_rowsOf.mp hsub
        exact Table.first?_eq_none.mp hfirst sub hmem ⟨hid, hU⟩
      refine .unchanged (hother hne) (hdecider.trans hfirst) ?_
      intro sub hsub h
      exact hne sub hsub ((hends sub).mp h)
  | some sub =>
      obtain ⟨hmem, hid, hU⟩ := Table.first?_mem hfirst
      have hrow : sub ∈ rowsOf s U := mem_rowsOf.mpr ⟨hmem, hU⟩
      obtain ⟨hpos, hidpos, hup, hdown⟩ := hI.rows sub hrow
      have hend := hown sub hmem hidpos (hU.symm ▸ hpos) hid hU
      exact .ended sub hrow (hdecider.trans hfirst) _
        (targetOf_downgrade (groupOf s U) hG hup hdown)
        (hend.congr fun u _ => (hends u).symm)

theorem outcome_invalidate (hI : Enrolled U g G s) (hG : G ≠ "") (id now : ℤ) :
    Outcome U G s (.invalidate id now)
      (transaction (adminInvalidateUserSubscriptionTx id now) s).2 := by
  refine outcome_admin id hI hG (fun _ => Iff.rfl) rfl ?_ ?_
  · intro hne
    rcases transaction_cases (adminInvalidateUserSubscriptionTx id now) s with
      ⟨a, s', hok, ht⟩ | ⟨e, ht⟩
    · rw [ht]
      exact sameFor_invalidate hok hne
    · rw [ht]
      exact .refl U s
  · rintro sub hsub hid hpos rfl rfl
    exact endedBy_invalidate hsub hid hpos

theorem outcome_delete (hI : Enrolled U g G s) (hG : G ≠ "") (id now : ℤ) :
    Outcome U G s (.delete id now) (transaction (adminDeleteUserSubscriptionTx id now) s).2 := by
  refine outcome_admin id hI hG (fun _ => Iff.rfl) rfl ?_ ?_
  · intro hne
    rcases transaction_cases (adminDeleteUserSubscriptionTx id now) s with
      ⟨a, s', hok, ht⟩ | ⟨e, ht⟩
    · rw [ht]
      exact sameFor_delete hok hne
    · rw [ht]
      exact .refl U s
  · rintro sub hsub hid hpos rfl rfl
    exact endedBy_delete hsub hid hpos

/-! ### One step -/

/-- What a purchase leaves behind for the user. -/
inductive Bought (U : ℤ) (G : String) (s s' : Tables) : Prop where
  | unchanged (h : SameFor U s s')
  | bought (new : UserSubscription) (hpos : 0 < U) (hknown : Known s' U)
      (hgroup : groupOf s' U = G) (hnew : new ∈ rowsOf s' U) (hactive : new.status = .active)
      (hid : 0 < new.id) (hup : Text.trimSpace new.upgradeGroup = G)
      (hdown : Text.trimSpace new.downgradeGroup = "")
      (hprev : new.prevUserGroup ≠ "" → groupOf s U ≠ G)
      (hrows : ∀ sub ∈ rowsOf s' U, sub ∈ rowsOf s U ∨ sub = new)

theorem bought_purchase {cal : Calendar} {V now updatedAt : ℤ} {plan : SubscriptionPlan}
    (hk : Known s U) (hG : G ≠ "") (hplan : Op.Grants U G (.purchase V plan now updatedAt)) :
    Bought U G s
      (transaction (createUserSubscriptionFromPlanTx cal V plan now updatedAt) s).2 := by
  rcases transaction_cases (createUserSubscriptionFromPlanTx cal V plan now updatedAt) s with
    ⟨a, s', hok, ht⟩ | ⟨e, ht⟩
  · rw [ht]
    by_cases hV : V = U
    · obtain ⟨hup, hdown⟩ := hplan hV
      rw [hV] at hok
      obtain ⟨hpos, hk', hgroup, new, hnew, hact, hid, hnup, hndown, hprev, hrows⟩ :=
        purchase_for hk (by rw [hup]; exact hG) hok
      rw [hup] at hgroup hnup hprev
      rw [hdown] at hndown
      refine .bought new hpos hk' hgroup hnew hact hid ?_ ?_ hprev hrows
      · rw [hnup, ← hup]
        exact Text.trimSpace_trimSpace _
      · rw [hndown]
        decide
    · exact .unchanged (sameFor_purchase hV hok)
  · rw [ht]
    exact .unchanged (.refl U s)

theorem Enrolled.of_bought (hI : Enrolled U g G s) (h : Bought U G s s') : Enrolled U g G s' := by
  cases h with
  | unchanged h => exact hI.of_sameFor h
  | bought new hpos hknown hgroup hnew hactive hid hup hdown hprev hrows =>
      refine ⟨hknown, ?_, ?_⟩
      · intro sub hsub
        rcases hrows sub hsub with hold | rfl
        · exact hI.rows sub hold
        · exact ⟨hpos, hid, hup, hdown⟩
      · intro hg
        refine ⟨hgroup, ?_⟩
        intro sub hsub
        rcases hrows sub hsub with hold | rfl
        · exact (hI.stays hg).2 sub hold
        · have hblank : sub.prevUserGroup = "" := by
            by_contra hne
            exact hprev hne (hI.stays hg).1
          rw [hblank]
          decide

theorem Enrolled.of_outcome {op : Op} (hI : Enrolled U g G s) (h : Outcome U G s op s') :
    Enrolled U g G s' := by
  cases h with
  | unchanged h => exact hI.of_sameFor h
  | ended last hlast hsome target htarget h =>
      refine ⟨h.known hI.known, ?_, ?_⟩
      · intro sub hsub
        obtain ⟨old, hold, hsame⟩ := h.rows sub hsub
        rw [hsame.id, hsame.upgradeGroup, hsame.downgradeGroup]
        exact hI.rows old hold
      · intro hg
        obtain ⟨hgroup, hprevs⟩ := hI.stays hg
        have ht : target = "" := by
          rcases htarget.inside hgroup with ht | ⟨ht, _⟩
          · rw [ht, hprevs last hlast]
          · exact ht
        constructor
        · rcases h.moved hI.known with h | ⟨_, hne⟩
          · rw [h, hgroup]
          · exact absurd ht hne
        · intro sub hsub
          obtain ⟨old, hold, hsame⟩ := h.rows sub hsub
          rw [hsame.prevUserGroup]
          exact hprevs old hold

/-- Where a user without an active subscription has the group `g`, a step that ends none of the
user's subscriptions meets the condition. -/
theorem keepsSnapshot_of_not_ends {op : Op} (hP : Restored U g s)
    (h : ∀ sub ∈ rowsOf s U, ¬ op.ends s sub) : KeepsSnapshot U g G s op := by
  intro hall hne
  have hnone : Unsubscribed s U := fun sub hsub hact => h sub hsub (hall sub hsub hact)
  exact absurd (hP hnone) hne

theorem keepsSnapshot_of_bought {op : Op} (h : Bought U G s s') (hP : Restored U g s)
    (hends : ∀ sub ∈ rowsOf s U, ¬ op.ends s sub) :
    KeepsSnapshot U g G s op ↔ Restored U g s' := by
  refine iff_of_true (keepsSnapshot_of_not_ends hP hends) ?_
  cases h with
  | unchanged h => exact hP.of_sameFor h
  | bought new hpos hknown hgroup hnew hactive hid hup hdown hprev hrows =>
      intro hnone
      exact absurd hactive (hnone new hnew)

theorem keepsSnapshot_of_outcome {op : Op} (hI : Enrolled U g G s) (h : Outcome U G s op s')
    (hP : Restored U g s) : KeepsSnapshot U g G s op ↔ Restored U g s' := by
  cases h with
  | unchanged h hnone hends =>
      exact iff_of_true (keepsSnapshot_of_not_ends hP hends) (hP.of_sameFor h)
  | ended last hlast hsome target htarget h =>
      have hstays : g = G → groupOf s U = G ∧ Text.trimSpace last.prevUserGroup = "" :=
        fun hg => ⟨(hI.stays hg).1, (hI.stays hg).2 last hlast⟩
      have hiff := htarget.restores hstays
      unfold KeepsSnapshot Restored
      rw [h.unsubscribed, hsome]
      constructor
      · intro hcond hall
        rw [h.left hI.known (h.unsubscribed.mpr hall), hiff]
        intro hne
        obtain ⟨hG, sub, hsub, hprev⟩ := hcond hall hne
        obtain rfl := Option.some.inj hsub
        exact ⟨hG, hprev⟩
      · intro hgroup hall hne
        have heq := hgroup hall
        rw [h.left hI.known (h.unsubscribed.mpr hall), hiff] at heq
        obtain ⟨hG, hprev⟩ := heq hne
        exact ⟨hG, last, rfl, hprev⟩

theorem step_enrolled (cal : Calendar) {op : Op} (hG : G ≠ "") (hop : op.Grants U G)
    (hI : Enrolled U g G s) : Enrolled U g G (step cal s op) := by
  cases op with
  | purchase V plan now updatedAt => exact hI.of_bought (bought_purchase hI.known hG hop)
  | expire limit now updatedAt => exact hI.of_outcome (outcome_expire hI hG limit now updatedAt)
  | invalidate id now => exact hI.of_outcome (outcome_invalidate hI hG id now)
  | delete id now => exact hI.of_outcome (outcome_delete hI hG id now)

/-- The condition says of each step whether it keeps the group restored. -/
theorem step_restored (cal : Calendar) {op : Op} (hG : G ≠ "") (hop : op.Grants U G)
    (hI : Enrolled U g G s) (hP : Restored U g s) :
    KeepsSnapshot U g G s op ↔ Restored U g (step cal s op) := by
  cases op with
  | purchase V plan now updatedAt =>
      exact keepsSnapshot_of_bought (bought_purchase hI.known hG hop) hP fun _ _ h => h
  | expire limit now updatedAt =>
      exact keepsSnapshot_of_outcome hI (outcome_expire hI hG limit now updatedAt) hP
  | invalidate id now => exact keepsSnapshot_of_outcome hI (outcome_invalidate hI hG id now) hP
  | delete id now => exact keepsSnapshot_of_outcome hI (outcome_delete hI hG id now) hP

/-- **Group restoration.** From before the user's first purchase, every state of a run that leaves
the user without an active subscription has the user's group restored exactly when every step of
the run meets `KeepsSnapshot`. -/
theorem group_restored (cal : Calendar) {ops : List Op} (hknown : Known s U)
    (hrows : rowsOf s U = []) (hG : G ≠ "") (hops : ∀ op ∈ ops, op.Grants U G) :
    Transition.Throughout (step cal) (KeepsSnapshot U (groupOf s U) G) s ops ↔
      ∀ pre, pre <+: ops → Unsubscribed (runs cal s pre) U →
        groupOf (runs cal s pre) U = groupOf s U := by
  have hI : Enrolled U (groupOf s U) G s := by
    refine ⟨hknown, ?_, fun hg => ⟨hg, ?_⟩⟩
    · rw [hrows]
      exact fun _ h => absurd h List.not_mem_nil
    · rw [hrows]
      exact fun _ h => absurd h List.not_mem_nil
  exact Transition.throughout_iff (step cal) (P := Restored U (groupOf s U)) ops
    (fun t op hop ht => step_enrolled cal hG (hops op hop) ht)
    (fun t op hop ht hP => step_restored cal hG (hops op hop) ht hP) s hI fun _ => rfl

/-! ### Two overlapping subscriptions -/

/-- A plan of `hours` hours that grants the group `vip`. -/
def vipPlan (id hours : ℤ) : SubscriptionPlan where
  id := id
  durationUnit := .hour
  durationValue := hours
  customSeconds := 0
  allowWalletOverflow := none
  maxPurchasePerUser := 0
  upgradeGroup := "vip"
  downgradeGroup := ""
  totalAmount := 500
  quotaResetPeriod := "never"
  quotaResetCustomSeconds := 0

/-- The database with one user, in the group `default`. -/
def vipTables : Tables :=
  { Tables.empty with
    users := Table.empty.insert
      { id := 1, username := "u", quota := 0, usedQuota := 0, requestCount := 0,
        group := "default" } }

/-- A calendar of days; plans of whole hours without a quota period ask nothing of it. -/
def dayCalendar : Calendar where
  addDate t _ _ days := t + days * 86400
  startOfDay t := t - t % 86400
  startOfMonth t := t
  weekday t := (t / 86400 + 4) % 7

/-- One subscription, bought and expired. -/
def vipOnce : List Op := [.purchase 1 (vipPlan 1 1) 1000 1000, .expire 0 4600 4600]

/-- Two subscriptions bought at the same time, the first of which expires before the second. -/
def vipTwice : List Op :=
  [.purchase 1 (vipPlan 1 1) 1000 1000, .purchase 1 (vipPlan 2 2) 1000 1000,
    .expire 0 4600 4600, .expire 0 8200 8200]

theorem group_restored_vipOnce :
    Unsubscribed (runs dayCalendar vipTables vipOnce) 1 ∧
      groupOf (runs dayCalendar vipTables vipOnce) 1 = groupOf vipTables 1 := by
  have hnone : Unsubscribed (runs dayCalendar vipTables vipOnce) 1 := by decide
  exact ⟨hnone, (group_restored dayCalendar (U := 1) (G := "vip") (s := vipTables)
    ⟨_, List.mem_singleton_self _, rfl⟩ rfl (by decide) (by decide)).mp (by decide) vipOnce
      (List.prefix_rfl) hnone⟩

/-- The second purchase found the user in the group already and remembers nothing, so the user
keeps the group after both subscriptions are over. -/
theorem group_kept_vipTwice :
    ¬ ∀ (cal : Calendar) (s : Tables) (U : ℤ) (G : String) (ops : List Op), Known s U →
      rowsOf s U = [] → G ≠ "" → (∀ op ∈ ops, op.Grants U G) →
        Unsubscribed (runs cal s ops) U → groupOf (runs cal s ops) U = groupOf s U := by
  intro h
  have hgroup := h dayCalendar vipTables 1 "vip" vipTwice ⟨_, List.mem_singleton_self _, rfl⟩ rfl
    (by decide) (by decide) (by decide)
  exact absurd hgroup (by decide)

end MaxApi.Subscription
