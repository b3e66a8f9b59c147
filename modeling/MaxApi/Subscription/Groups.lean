import MaxApi.Subscription.LifeTime
import Mathlib.Data.List.Dedup

/-! # What the end of a subscription does to its user

Purchase, expiry, cancellation and deletion, as far as one user goes: which subscriptions of the
user are over (`EndedBy`), which group the user is in afterwards, and that operations on other
users' subscriptions change nothing (`SameFor`). -/

namespace MaxApi.Subscription

open Relational MaxApi.Billing

/-! ### Groups and rows of one user -/

/-- The subscriptions of a user. -/
def rowsOf (s : Tables) (U : ℤ) : List UserSubscription :=
  s.userSubscriptions.rows.filter fun sub => decide (sub.userId = U)

theorem mem_rowsOf {s : Tables} {U : ℤ} {sub : UserSubscription} :
    sub ∈ rowsOf s U ↔ sub ∈ s.userSubscriptions ∧ sub.userId = U := by
  unfold rowsOf
  rw [List.mem_filter, decide_eq_true_iff, Table.mem_iff]

/-- The user is in the database. -/
def Known (s : Tables) (U : ℤ) : Prop := ∃ u ∈ s.users, u.id = U

theorem groupOf_eq {s : Tables} {u : User} (hu : u ∈ s.users) : groupOf s u.id = u.group := by
  unfold groupOf
  rw [Table.first?_eq_some (p := fun a => a.id = u.id) hu rfl fun a ha h =>
    Table.eq_of_clash ha hu h]
  rfl

theorem groupOf_setGroup {s : Tables} {U : ℤ} (h : Known s U) (group : String) :
    groupOf (setGroup U group s) U = group := by
  obtain ⟨u, hu, rfl⟩ := h
  have hmem : { u with group := group } ∈ (setGroup u.id group s).users :=
    Table.mem_update.mpr ⟨u, hu, by rw [if_pos rfl]⟩
  exact groupOf_eq hmem

theorem groupOf_setGroup_of_ne {s : Tables} {U V : ℤ} (h : V ≠ U) (group : String) :
    groupOf (setGroup V group s) U = groupOf s U := by
  unfold groupOf
  congr 1
  unfold setGroup Table.first? Table.update
  dsimp only
  rw [List.find?_map, Option.map_map]
  have hfind : s.users.rows.find?
      ((fun u => decide (u.id = U)) ∘ fun u => if u.id = V then { u with group := group } else u) =
      s.users.rows.find? fun u => decide (u.id = U) := by
    congr 1
    funext u
    simp only [Function.comp]
    split
    · rfl
    · rfl
  rw [hfind]
  cases hu : s.users.rows.find? fun u => decide (u.id = U) with
  | none => rfl
  | some u =>
      have hid : u.id = U := by simpa using List.find?_some hu
      simp only [Option.map_some, Function.comp]
      rw [if_neg fun hV => h (hV.symm.trans hid)]

/-- Nothing has changed for the user. -/
structure SameFor (U : ℤ) (s s' : Tables) : Prop where
  known : Known s U → Known s' U
  group : groupOf s' U = groupOf s U
  rows : rowsOf s' U = rowsOf s U

theorem SameFor.refl (U : ℤ) (s : Tables) : SameFor U s s := ⟨id, rfl, rfl⟩

theorem SameFor.trans {U : ℤ} {s s' s'' : Tables} (h : SameFor U s s') (h' : SameFor U s' s'') :
    SameFor U s s'' :=
  ⟨fun hk => h'.known (h.known hk), h'.group.trans h.group, h'.rows.trans h.rows⟩

theorem known_setGroup {s : Tables} {U V : ℤ} (h : Known s U) (group : String) :
    Known (setGroup V group s) U := by
  obtain ⟨u, hu, hid⟩ := h
  refine ⟨_, Table.mem_update.mpr ⟨u, hu, rfl⟩, ?_⟩
  split
  · exact hid
  · exact hid

theorem sameFor_setGroup {U V : ℤ} (h : V ≠ U) (s : Tables) (group : String) :
    SameFor U s (setGroup V group s) where
  known hk := known_setGroup hk group
  group := groupOf_setGroup_of_ne h group
  rows := rfl

/-- An update of other users' subscriptions changes nothing for the user. -/
theorem rowsOf_update {s : Tables} {U : ℤ} {p : UserSubscription → Prop} [DecidablePred p]
    {m : SetClause UserSubscription} (hm : ∀ a, (m.set a).userId = a.userId)
    (h : ∀ a ∈ s.userSubscriptions, p a → a.userId ≠ U) :
    rowsOf { s with userSubscriptions := s.userSubscriptions.update p m } U = rowsOf s U := by
  unfold rowsOf Table.update
  dsimp only
  have h : ∀ a ∈ s.userSubscriptions.rows, p a → a.userId ≠ U := h
  revert h
  generalize s.userSubscriptions.rows = l
  induction l with
  | nil => simp
  | cons a l ih =>
      intro h
      have ih := ih fun b hb => h b (List.mem_cons_of_mem a hb)
      rw [List.map_cons, List.filter_cons, List.filter_cons, ih]
      by_cases hp : p a
      · have hne := h a List.mem_cons_self hp
        rw [if_pos hp, hm, if_neg (by simpa using hne), if_neg (by simpa using hne)]
      · rw [if_neg hp]

/-! ### Falling back -/

/-- The user moves into the group `target`, unless there is none or the group is kept. -/
def fallBack (U : ℤ) (target : String) (kept : Prop) [Decidable kept] (s : Tables) : Tables :=
  if target = "" ∨ target = groupOf s U ∨ kept then s else setGroup U target s

theorem groupOf_fallBack {s : Tables} {U : ℤ} (h : Known s U) (target : String) (kept : Prop)
    [Decidable kept] : groupOf (fallBack U target kept s) U =
      if target = "" ∨ kept then groupOf s U else target := by
  unfold fallBack
  by_cases ht : target = groupOf s U
  · rw [if_pos (.inr (.inl ht)), ht, ite_self]
  · simp only [ht, false_or]
    split
    · rfl
    · exact groupOf_setGroup h target

theorem rowsOf_fallBack {s : Tables} {U V : ℤ} {target : String} {kept : Prop} [Decidable kept] :
    rowsOf (fallBack V target kept s) U = rowsOf s U := by
  unfold fallBack
  split
  · rfl
  · rfl

theorem known_fallBack {s : Tables} {U V : ℤ} (h : Known s U) {target : String} {kept : Prop}
    [Decidable kept] : Known (fallBack V target kept s) U := by
  unfold fallBack
  split
  · exact h
  · exact known_setGroup h target

theorem sameFor_fallBack {U V : ℤ} (h : V ≠ U) (s : Tables) (target : String) (kept : Prop)
    [Decidable kept] : SameFor U s (fallBack V target kept s) := by
  unfold fallBack
  split
  · exact .refl U s
  · exact sameFor_setGroup h s target

theorem downgradeTarget_blank {sub : UserSubscription} {currentGroup : String}
    (hup : Text.trimSpace sub.upgradeGroup = "") (hdown : Text.trimSpace sub.downgradeGroup = "") :
    downgradeTarget sub currentGroup = "" := by
  unfold downgradeTarget
  simp [hup, hdown]

theorem getUserGroupByIdTx_ok {userId : ℤ} (h : 0 < userId) (s : Tables) :
    (getUserGroupByIdTx userId).Ok s (groupOf s userId) s := by
  unfold getUserGroupByIdTx
  exact Txn.ok_bind.mpr ⟨(), s, Txn.ok_require.mpr ⟨h, rfl⟩,
    Txn.ok_bind.mpr ⟨s, s, Txn.ok_get.mpr ⟨rfl, rfl⟩, Txn.ok_pure.mpr ⟨rfl, rfl⟩⟩⟩

/-- The end of a cancellation or deletion: the move itself. -/
theorem move_ok (s : Tables) (U : ℤ) (target : String) (kept : Prop) [Decidable kept] :
    ∃ a, (if kept then pure "" else
      if target = "" ∨ target = groupOf s U then pure "" else do
        modify (setGroup U target)
        pure target : Tx String).Ok s a (fallBack U target kept s) := by
  unfold fallBack
  by_cases hkept : kept
  · refine ⟨"", ?_⟩
    rw [if_pos hkept, if_pos (.inr (.inr hkept))]
    exact Txn.ok_pure.mpr ⟨rfl, rfl⟩
  · simp only [hkept, or_false]
    by_cases ht : target = "" ∨ target = groupOf s U
    · refine ⟨"", ?_⟩
      rw [if_pos ht, if_pos ht]
      exact Txn.ok_pure.mpr ⟨rfl, rfl⟩
    · refine ⟨target, ?_⟩
      rw [if_neg ht, if_neg ht]
      exact Txn.ok_bind.mpr ⟨⟨⟩, _, Txn.ok_modify.mpr rfl, Txn.ok_pure.mpr ⟨rfl, rfl⟩⟩

/-- What cancellation and deletion do about the group. -/
theorem downgrade_ok {sub : UserSubscription} (hid : 0 < sub.userId) (now : ℤ) (s : Tables) :
    ∃ a, (downgradeUserGroupForSubscriptionTx sub now).Ok s a
      (fallBack sub.userId (downgradeTarget sub (groupOf s sub.userId))
        (0 < s.userSubscriptions.affected
          (fun u => grantsGroup sub.userId now (groupOf s sub.userId) u ∧ u.id ≠ sub.id)) s) := by
  unfold downgradeUserGroupForSubscriptionTx
  by_cases hblank : Text.trimSpace sub.downgradeGroup = "" ∧ Text.trimSpace sub.upgradeGroup = ""
  · unfold fallBack
    rw [if_pos hblank, downgradeTarget_blank hblank.2 hblank.1, if_pos (.inl rfl)]
    exact ⟨"", Txn.ok_pure.mpr ⟨rfl, rfl⟩⟩
  · rw [if_neg hblank]
    obtain ⟨a, h⟩ := move_ok s sub.userId (downgradeTarget sub (groupOf s sub.userId))
      (0 < s.userSubscriptions.affected
        (fun u => grantsGroup sub.userId now (groupOf s sub.userId) u ∧ u.id ≠ sub.id))
    exact ⟨a, Txn.ok_bind.mpr ⟨_, s, getUserGroupByIdTx_ok hid s,
      Txn.ok_bind.mpr ⟨s, s, Txn.ok_get.mpr ⟨rfl, rfl⟩, h⟩⟩⟩

/-- The group a batch of expired subscriptions sends the user to; empty for none. -/
def batchTarget (batch : List UserSubscription) (currentGroup : String) : String :=
  ((lastExpired batch).map (expiryTarget · currentGroup)).getD ""

/-- What the expiry of a user's due subscriptions does. -/
theorem expireUser_ok {V : ℤ} (hV : 0 < V) (now updatedAt : ℤ) (s : Tables) :
    (expireUserSubscriptionsTx V now updatedAt).Ok s ⟨⟩
      (fallBack V (batchTarget (dueSubscriptions s V now) (groupOf s V))
        (0 < (markExpired V now updatedAt s).userSubscriptions.affected
          (grantsGroup V now (groupOf s V))) (markExpired V now updatedAt s)) := by
  unfold expireUserSubscriptionsTx batchTarget
  refine Txn.ok_bind.mpr ⟨s, s, Txn.ok_get.mpr ⟨rfl, rfl⟩, ?_⟩
  by_cases hdue : dueSubscriptions s V now = []
  · have hnone : ∀ sub ∈ s.userSubscriptions, ¬ (sub.userId = V ∧ due now sub) := by
      unfold dueSubscriptions at hdue
      intro sub hsub hp
      have hmem : sub ∈ (s.userSubscriptions.rows.filter fun sub =>
          decide (sub.userId = V ∧ due now sub)).insertionSort endsBefore :=
        (List.perm_insertionSort _ _).mem_iff.mpr
          (List.mem_filter.mpr ⟨hsub, decide_eq_true hp⟩)
      rw [hdue] at hmem
      exact List.not_mem_nil hmem
    have hsame : markExpired V now updatedAt s = s := by
      unfold markExpired
      rw [Table.update_eq_self fun a ha hp => absurd hp (hnone a ha)]
    rw [hsame, hdue]
    unfold fallBack lastExpired
    rw [if_pos rfl]
    exact Txn.ok_pure.mpr ⟨rfl, rfl⟩
  · rw [if_neg hdue]
    refine Txn.ok_bind.mpr ⟨⟨⟩, _, Txn.ok_modify.mpr rfl, ?_⟩
    cases hlast : lastExpired (dueSubscriptions s V now) with
    | none =>
        unfold fallBack
        exact Txn.ok_pure.mpr ⟨rfl, rfl⟩
    | some last =>
        refine Txn.ok_bind.mpr ⟨_, _, getUserGroupByIdTx_ok hV _, ?_⟩
        refine Txn.ok_bind.mpr ⟨_, _, Txn.ok_get.mpr ⟨rfl, rfl⟩, ?_⟩
        have hgroup : groupOf (markExpired V now updatedAt s) V = groupOf s V := rfl
        unfold fallBack
        rw [hgroup]
        dsimp only [Option.map_some, Option.getD_some]
        rw [Txn.ok_ite]
        split
        · next h => exact .inl ⟨h, Txn.ok_pure.mpr ⟨rfl, rfl⟩⟩
        · next h => exact .inr ⟨h, Txn.ok_modify.mpr rfl⟩

/-! ### What a step does to the user -/

/-- No subscription of the user is active. -/
def Unsubscribed (s : Tables) (U : ℤ) : Prop := ∀ sub ∈ rowsOf s U, sub.status ≠ .active

instance (s : Tables) (U : ℤ) : Decidable (Unsubscribed s U) :=
  inferInstanceAs (Decidable (∀ sub ∈ rowsOf s U, sub.status ≠ .active))

/-- The columns by which a subscription decides about groups. -/
structure SameTerms (a b : UserSubscription) : Prop where
  id : b.id = a.id
  userId : b.userId = a.userId
  upgradeGroup : b.upgradeGroup = a.upgradeGroup
  prevUserGroup : b.prevUserGroup = a.prevUserGroup
  downgradeGroup : b.downgradeGroup = a.downgradeGroup

theorem SameTerms.refl (a : UserSubscription) : SameTerms a a := ⟨rfl, rfl, rfl, rfl, rfl⟩

/-- The subscriptions of the user that satisfy `ended` are over, and the user was to fall back to
`target`. -/
structure EndedBy (U : ℤ) (ended : UserSubscription → Prop) (target : String) (s s' : Tables) :
    Prop where
  known : Known s U → Known s' U
  rows : ∀ sub ∈ rowsOf s' U, ∃ old ∈ rowsOf s U, SameTerms old sub
  unsubscribed : Unsubscribed s' U ↔ ∀ sub ∈ rowsOf s U, sub.status = .active → ended sub
  moved : Known s U → groupOf s' U = groupOf s U ∨ groupOf s' U = target ∧ target ≠ ""
  left : Known s U → Unsubscribed s' U →
    groupOf s' U = if target = "" then groupOf s U else target

theorem EndedBy.congr {U : ℤ} {ended ended' : UserSubscription → Prop} {target : String}
    {s s' : Tables} (h : EndedBy U ended target s s')
    (he : ∀ sub ∈ rowsOf s U, ended sub ↔ ended' sub) : EndedBy U ended' target s s' where
  known := h.known
  rows := h.rows
  unsubscribed := by
    rw [h.unsubscribed]
    exact forall₂_congr fun sub hsub => imp_congr_right fun _ => he sub hsub
  moved := h.moved
  left := h.left

theorem EndedBy.of_sameFor {U : ℤ} {ended : UserSubscription → Prop} {target : String}
    {s t t' s' : Tables} (h : EndedBy U ended target t t') (hpre : SameFor U s t)
    (hpost : SameFor U t' s') : EndedBy U ended target s s' where
  known hk := hpost.known (h.known (hpre.known hk))
  rows sub hsub := by
    rw [hpost.rows] at hsub
    rw [← hpre.rows]
    exact h.rows sub hsub
  unsubscribed := by
    have hu := h.unsubscribed
    unfold Unsubscribed at hu ⊢
    rw [hpost.rows, hu, hpre.rows]
  moved hk := by
    rw [hpost.group, ← hpre.group]
    exact h.moved (hpre.known hk)
  left hk hu := by
    have hu' : Unsubscribed t' U := by
      unfold Unsubscribed at hu ⊢
      rw [← hpost.rows]
      exact hu
    rw [hpost.group, ← hpre.group]
    exact h.left (hpre.known hk) hu'

/-- The rows of the user after an update of the subscriptions. -/
theorem mem_rowsOf_update {s : Tables} {U : ℤ} {p : UserSubscription → Prop} [DecidablePred p]
    {m : SetClause UserSubscription} (hm : ∀ a, (m.set a).userId = a.userId)
    {sub : UserSubscription} :
    sub ∈ rowsOf { s with userSubscriptions := s.userSubscriptions.update p m } U ↔
      ∃ old ∈ rowsOf s U, sub = if p old then m.set old else old := by
  rw [mem_rowsOf]
  dsimp only
  rw [Table.mem_update]
  constructor
  · intro ⟨⟨old, hold, heq⟩, hU⟩
    refine ⟨old, mem_rowsOf.mpr ⟨hold, ?_⟩, heq⟩
    rw [heq] at hU
    split at hU
    · exact (hm old).symm.trans hU
    · exact hU
  · intro ⟨old, hold, heq⟩
    obtain ⟨hmem, hU⟩ := mem_rowsOf.mp hold
    refine ⟨⟨old, hmem, heq⟩, ?_⟩
    rw [heq]
    split
    · exact (hm old).trans hU
    · exact hU

/-- Closing the subscriptions that satisfy `ended` leaves the group alone. -/
theorem endedBy_update {U : ℤ} {ended : UserSubscription → Prop} {p : UserSubscription → Prop}
    [DecidablePred p] {m : SetClause UserSubscription} {s : Tables}
    (hm : ∀ a, SameTerms a (m.set a) ∧ (m.set a).status ≠ .active)
    (hp : ∀ a ∈ rowsOf s U, p a ↔ ended a) :
    EndedBy U ended "" s { s with userSubscriptions := s.userSubscriptions.update p m } where
  known := id
  rows sub hsub := by
    rw [mem_rowsOf_update fun a => (hm a).1.userId] at hsub
    obtain ⟨old, hold, rfl⟩ := hsub
    refine ⟨old, hold, ?_⟩
    split
    · exact (hm old).1
    · exact .refl old
  unsubscribed := by
    unfold Unsubscribed
    simp only [mem_rowsOf_update fun a => (hm a).1.userId]
    constructor
    · intro h sub hsub hact
      by_contra hne
      rw [← hp sub hsub] at hne
      exact h _ ⟨sub, hsub, rfl⟩ (by rw [if_neg hne, hact])
    · rintro h _ ⟨old, hold, rfl⟩
      split
      · exact (hm old).2
      · next hne => exact fun hact => hne ((hp old hold).mpr (h old hold hact))
  moved _ := .inl rfl
  left _ _ := rfl

/-- Deleting the subscriptions that satisfy `ended` leaves the group alone. -/
theorem endedBy_remove {U : ℤ} {p : UserSubscription → Prop} [DecidablePred p] {s : Tables} :
    EndedBy U p "" s { s with userSubscriptions := s.userSubscriptions.delete p } where
  known := id
  rows sub hsub := by
    obtain ⟨hmem, hU⟩ := mem_rowsOf.mp hsub
    exact ⟨sub, mem_rowsOf.mpr ⟨(Table.mem_delete.mp hmem).1, hU⟩, .refl sub⟩
  unsubscribed := by
    unfold Unsubscribed
    constructor
    · intro h sub hsub hact
      by_contra hne
      obtain ⟨hmem, hU⟩ := mem_rowsOf.mp hsub
      exact h sub (mem_rowsOf.mpr ⟨Table.mem_delete.mpr ⟨hmem, hne⟩, hU⟩) hact
    · intro h sub hsub hact
      obtain ⟨hmem, hU⟩ := mem_rowsOf.mp hsub
      obtain ⟨hold, hne⟩ := Table.mem_delete.mp hmem
      exact hne (h sub (mem_rowsOf.mpr ⟨hold, hU⟩) hact)
  moved _ := .inl rfl
  left _ _ := rfl

/-- The move that follows, unless another active subscription keeps the group. -/
theorem EndedBy.fallBack {U : ℤ} {ended : UserSubscription → Prop} {s s' : Tables}
    (h : EndedBy U ended "" s s') (target : String) {kept : Prop} [Decidable kept]
    (hkept : kept → ∃ sub ∈ rowsOf s' U, sub.status = .active) :
    EndedBy U ended target s (fallBack U target kept s') := by
  have hgroup : Known s U → groupOf s' U = groupOf s U := by
    intro hk
    rcases h.moved hk with h | ⟨_, h⟩
    · exact h
    · exact absurd rfl h
  constructor
  · intro hk
    exact known_fallBack (h.known hk)
  · rw [rowsOf_fallBack]
    exact h.rows
  · have hu := h.unsubscribed
    unfold Unsubscribed at hu ⊢
    rw [rowsOf_fallBack]
    exact hu
  · intro hk
    rw [groupOf_fallBack (h.known hk), hgroup hk]
    split
    · exact .inl rfl
    · next hne => exact .inr ⟨rfl, fun ht => hne (.inl ht)⟩
  · intro hk hu
    have hfree : ¬ kept := by
      intro hk
      obtain ⟨sub, hsub, hact⟩ := hkept hk
      unfold Unsubscribed at hu
      rw [rowsOf_fallBack] at hu
      exact hu sub hsub hact
    rw [groupOf_fallBack (h.known hk), hgroup hk]
    simp only [hfree, or_false]

/-! ### Expiry -/

theorem mem_dueUsers {s : Tables} {limit now U : ℤ} (h : U ∈ dueUsers s limit now) :
    0 < U ∧ ∃ sub ∈ rowsOf s U, due now sub := by
  unfold dueUsers at h
  obtain ⟨hsub, hpos⟩ := List.mem_filter.mp (List.mem_dedup.mp h)
  obtain ⟨sub, htake, hU⟩ := List.mem_map.mp hsub
  have hrow := (List.perm_insertionSort _ _).mem_iff.mp (List.mem_of_mem_take htake)
  obtain ⟨hmem, hdue⟩ := List.mem_filter.mp hrow
  exact ⟨of_decide_eq_true hpos, sub, mem_rowsOf.mpr ⟨hmem, hU⟩, of_decide_eq_true hdue⟩

theorem dueSubscriptions_eq (s : Tables) (U now : ℤ) :
    dueSubscriptions s U now =
      ((rowsOf s U).filter fun sub => decide (due now sub)).insertionSort endsBefore := by
  unfold dueSubscriptions rowsOf
  rw [List.filter_filter]
  congr 2
  funext sub
  rw [Bool.and_comm, Bool.decide_and]

theorem mem_dueSubscriptions {s : Tables} {U now : ℤ} {sub : UserSubscription} :
    sub ∈ dueSubscriptions s U now ↔ sub ∈ rowsOf s U ∧ due now sub := by
  rw [dueSubscriptions_eq, (List.perm_insertionSort _ _).mem_iff, List.mem_filter,
    decide_eq_true_iff]

theorem expireUser_eq {V now updatedAt : ℤ} (hV : 0 < V) (s : Tables) :
    transaction (expireUserSubscriptionsTx V now updatedAt) s =
      (.ok ⟨⟩, fallBack V (batchTarget (dueSubscriptions s V now) (groupOf s V))
        (0 < (markExpired V now updatedAt s).userSubscriptions.affected
          (grantsGroup V now (groupOf s V))) (markExpired V now updatedAt s)) :=
  transaction_of_ok (expireUser_ok hV now updatedAt s)

theorem expired_ne_active (updatedAt : ℤ) (a : UserSubscription) :
    SameTerms a (expiredSubscription updatedAt a) ∧
      (expiredSubscription updatedAt a).status ≠ .active :=
  ⟨⟨rfl, rfl, rfl, rfl, rfl⟩, by unfold expiredSubscription; simp⟩

/-- The expiry of the due subscriptions of `U`, for `U`. -/
theorem endedBy_expire (U now updatedAt : ℤ) (s : Tables) (target : String) :
    EndedBy U (due now) target s (fallBack U target
      (0 < (markExpired U now updatedAt s).userSubscriptions.affected
        (grantsGroup U now (groupOf s U))) (markExpired U now updatedAt s)) := by
  apply EndedBy.fallBack
  · apply endedBy_update (expired_ne_active updatedAt)
    intro a ha
    exact ⟨And.right, fun h => ⟨(mem_rowsOf.mp ha).2, h⟩⟩
  · intro h
    obtain ⟨sub, hmem, hgrants⟩ := Table.exists_of_affected_ne_zero (Nat.pos_iff_ne_zero.mp h)
    exact ⟨sub, mem_rowsOf.mpr ⟨hmem, hgrants.1⟩, hgrants.2.1⟩

/-- The expiry of the due subscriptions of another user. -/
theorem sameFor_expire {U V : ℤ} (h : V ≠ U) (now updatedAt : ℤ) (s : Tables) (target : String)
    (kept : Prop) [Decidable kept] :
    SameFor U s (fallBack V target kept (markExpired V now updatedAt s)) := by
  have hrows : rowsOf (markExpired V now updatedAt s) U = rowsOf s U := by
    apply rowsOf_update
    · intro a
      rfl
    · intro a _ ha
      rw [ha.1]
      exact h
  have hmark : SameFor U s (markExpired V now updatedAt s) := ⟨id, rfl, hrows⟩
  exact hmark.trans (sameFor_fallBack h _ target kept)

theorem sameFor_expireUsers {U now updatedAt : ℤ} {users : List ℤ} (hpos : ∀ V ∈ users, 0 < V)
    (h : U ∉ users) (s : Tables) : SameFor U s (expireUsers now updatedAt users s) := by
  induction users generalizing s with
  | nil => exact .refl U s
  | cons V users ih =>
      rw [List.mem_cons, not_or] at h
      obtain ⟨hne, hnot⟩ := h
      unfold expireUsers
      rw [expireUser_eq (hpos V List.mem_cons_self)]
      exact .trans (sameFor_expire (Ne.symm hne) now updatedAt s _ _)
        (ih (fun W hW => hpos W (List.mem_cons_of_mem V hW)) hnot _)

/-- A pass over users among which `U` is one. -/
theorem endedBy_expireUsers {U : ℤ} (now updatedAt : ℤ) {users : List ℤ} (hpos : ∀ V ∈ users, 0 < V)
    (hnodup : users.Nodup) (h : U ∈ users) (s : Tables) :
    EndedBy U (due now) (batchTarget (dueSubscriptions s U now) (groupOf s U)) s
      (expireUsers now updatedAt users s) := by
  induction users generalizing s with
  | nil => exact absurd h List.not_mem_nil
  | cons V users ih =>
      obtain ⟨hnot, hnodup⟩ := List.nodup_cons.mp hnodup
      have hrest := fun W hW => hpos W (List.mem_cons_of_mem V hW)
      unfold expireUsers
      rw [expireUser_eq (hpos V List.mem_cons_self)]
      by_cases hV : V = U
      · rw [hV] at hnot ⊢
        exact (endedBy_expire U now updatedAt s _).of_sameFor (.refl U s)
          (sameFor_expireUsers hrest hnot _)
      · have hsame := sameFor_expire hV now updatedAt s
          (batchTarget (dueSubscriptions s V now) (groupOf s V))
          (0 < (markExpired V now updatedAt s).userSubscriptions.affected
            (grantsGroup V now (groupOf s V)))
        have hU : U ∈ users := (List.mem_cons.mp h).resolve_left (Ne.symm hV)
        have hend := ih hrest hnodup hU (fallBack V
          (batchTarget (dueSubscriptions s V now) (groupOf s V))
          (0 < (markExpired V now updatedAt s).userSubscriptions.affected
            (grantsGroup V now (groupOf s V))) (markExpired V now updatedAt s))
        rw [dueSubscriptions_eq, hsame.rows, ← dueSubscriptions_eq, hsame.group] at hend
        exact hend.of_sameFor hsame (.refl U _)

/-! ### Cancellation and deletion -/

/-- The fall back of one user changes nothing for another. -/
theorem downgrade_sameFor {sub : UserSubscription} {now U : ℤ} {s s' : Tables} {a : String}
    (h : (downgradeUserGroupForSubscriptionTx sub now).Ok s a s') (hne : sub.userId ≠ U) :
    SameFor U s s' := by
  by_cases hid : 0 < sub.userId
  · obtain ⟨b, hb⟩ := downgrade_ok hid now s
    have heq := (Prod.mk.inj (h.symm.trans hb)).2
    rw [heq]
    exact sameFor_fallBack hne s _ _
  · unfold downgradeUserGroupForSubscriptionTx getUserGroupByIdTx at h
    rw [Txn.ok_ite] at h
    rcases h with ⟨_, h⟩ | ⟨_, h⟩
    · rw [← (Txn.ok_pure.mp h).2]
      exact .refl U s
    · obtain ⟨_, _, hgroup, _⟩ := Txn.ok_bind.mp h
      obtain ⟨_, _, hreq, _⟩ := Txn.ok_bind.mp hgroup
      exact absurd (Txn.ok_require.mp hreq).1 hid

theorem cancelled_ne_active (now : ℤ) (a : UserSubscription) :
    SameTerms a (cancelledSubscription now a) ∧ (cancelledSubscription now a).status ≠ .active :=
  ⟨⟨rfl, rfl, rfl, rfl, rfl⟩, by unfold cancelledSubscription; simp⟩

theorem first?_id {t : Table UserSubscription} {id : ℤ} {sub : UserSubscription} :
    t.first? (·.id = id) = some sub ↔ sub ∈ t ∧ sub.id = id := by
  constructor
  · exact Table.first?_mem
  · intro ⟨hsub, hid⟩
    exact Table.first?_eq_some (p := fun u => u.id = id) hsub hid fun a ha h =>
      Table.eq_of_clash ha hsub (h.trans hid.symm)

theorem invalidate_ok {id now : ℤ} {s s' : Tables} {a : String} :
    (adminInvalidateUserSubscriptionTx id now).Ok s a s' ↔
      0 < id ∧ ∃ sub ∈ s.userSubscriptions, sub.id = id ∧
        (downgradeUserGroupForSubscriptionTx (cancelledSubscription now sub) now).Ok
          (markCancelled id now s) a s' := by
  unfold adminInvalidateUserSubscriptionTx
  simp only [Txn.ok_bind, Txn.ok_require, Txn.ok_get, Txn.ok_orThrow, Txn.ok_modify, first?_id]
  constructor
  · rintro ⟨_, _, ⟨hid, rfl⟩, _, _, ⟨rfl, rfl⟩, sub, _, ⟨⟨hsub, rfl⟩, rfl⟩, _, _, rfl, h⟩
    exact ⟨hid, sub, hsub, rfl, h⟩
  · rintro ⟨hid, sub, hsub, rfl, h⟩
    exact ⟨(), s, ⟨hid, rfl⟩, s, s, ⟨rfl, rfl⟩, sub, s, ⟨⟨hsub, rfl⟩, rfl⟩, ⟨⟩, _, rfl, h⟩

theorem delete_ok {id now : ℤ} {s s' : Tables} {a : String} :
    (adminDeleteUserSubscriptionTx id now).Ok s a s' ↔
      0 < id ∧ ∃ sub ∈ s.userSubscriptions, sub.id = id ∧ ∃ t,
        (downgradeUserGroupForSubscriptionTx sub now).Ok s a t ∧
          s' = { t with userSubscriptions := t.userSubscriptions.delete (·.id = id) } := by
  unfold adminDeleteUserSubscriptionTx
  simp only [Txn.ok_bind, Txn.ok_require, Txn.ok_get, Txn.ok_orThrow, Txn.ok_modify, Txn.ok_pure,
    first?_id]
  constructor
  · rintro ⟨_, _, ⟨hid, rfl⟩, _, _, ⟨rfl, rfl⟩, sub, _, ⟨⟨hsub, rfl⟩, rfl⟩, b, t, h, _, _, rfl,
      rfl, rfl⟩
    exact ⟨hid, sub, hsub, rfl, t, h, rfl⟩
  · rintro ⟨hid, sub, hsub, rfl, t, h, rfl⟩
    exact ⟨(), s, ⟨hid, rfl⟩, s, s, ⟨rfl, rfl⟩, sub, s, ⟨⟨hsub, rfl⟩, rfl⟩, a, t, h, ⟨⟩, _, rfl,
      rfl, rfl⟩

/-- The subscriptions with the identifier of one that belongs to another user are not the
user's. -/
theorem ne_of_id {s : Tables} {U : ℤ} {sub : UserSubscription} (hsub : sub ∈ s.userSubscriptions)
    (hne : sub.userId ≠ U) : ∀ a ∈ s.userSubscriptions, a.id = sub.id → a.userId ≠ U := by
  intro a ha hid
  rw [Table.eq_of_clash ha hsub hid]
  exact hne

/-- Cancelling a subscription of another user. -/
theorem sameFor_invalidate {U id now : ℤ} {s s' : Tables} {a : String}
    (h : (adminInvalidateUserSubscriptionTx id now).Ok s a s')
    (hne : ∀ sub ∈ rowsOf s U, sub.id ≠ id) : SameFor U s s' := by
  obtain ⟨_, sub, hsub, rfl, hdown⟩ := invalidate_ok.mp h
  have hU : sub.userId ≠ U := fun hU => hne sub (mem_rowsOf.mpr ⟨hsub, hU⟩) rfl
  have hmark : SameFor U s (markCancelled sub.id now s) :=
    ⟨id, rfl, rowsOf_update (fun _ => rfl) (ne_of_id hsub hU)⟩
  exact hmark.trans (downgrade_sameFor hdown hU)

/-- Deleting a subscription of another user. -/
theorem sameFor_delete {U id now : ℤ} {s s' : Tables} {a : String}
    (h : (adminDeleteUserSubscriptionTx id now).Ok s a s')
    (hne : ∀ sub ∈ rowsOf s U, sub.id ≠ id) : SameFor U s s' := by
  obtain ⟨_, sub, hsub, rfl, t, hdown, rfl⟩ := delete_ok.mp h
  have hU : sub.userId ≠ U := fun hU => hne sub (mem_rowsOf.mpr ⟨hsub, hU⟩) rfl
  have hsame := downgrade_sameFor hdown hU
  have hrows : rowsOf { t with userSubscriptions := t.userSubscriptions.delete (·.id = sub.id) } U
      = rowsOf t U := by
    unfold rowsOf Table.delete
    dsimp only
    rw [List.filter_filter]
    apply List.filter_congr
    intro a ha
    by_cases haU : a.userId = U
    · have hmem : a ∈ rowsOf s U := by
        rw [← hsame.rows]
        exact mem_rowsOf.mpr ⟨ha, haU⟩
      simp [haU, hne a hmem]
    · simp [haU]
  exact hsame.trans ⟨id, rfl, hrows⟩

/-- Cancelling a subscription of the user. -/
theorem endedBy_invalidate {now : ℤ} {s : Tables} {sub : UserSubscription}
    (hsub : sub ∈ s.userSubscriptions) (hid : 0 < sub.id) (hU : 0 < sub.userId) :
    EndedBy sub.userId (fun u => u.id = sub.id) (downgradeTarget sub (groupOf s sub.userId)) s
      (transaction (adminInvalidateUserSubscriptionTx sub.id now) s).2 := by
  have hU' : 0 < (cancelledSubscription now sub).userId := hU
  have htarget : downgradeTarget (cancelledSubscription now sub) = downgradeTarget sub := by
    unfold downgradeTarget cancelledSubscription
    rfl
  have huser : (cancelledSubscription now sub).userId = sub.userId := rfl
  have hgroup : groupOf (markCancelled sub.id now s) sub.userId = groupOf s sub.userId := rfl
  obtain ⟨a, hdown⟩ := downgrade_ok hU' now (markCancelled sub.id now s)
  rw [htarget, huser, hgroup] at hdown
  have hok := invalidate_ok.mpr ⟨hid, sub, hsub, rfl, hdown⟩
  rw [transaction_of_ok hok]
  have hmark : EndedBy sub.userId (fun u => u.id = sub.id) "" s (markCancelled sub.id now s) :=
    endedBy_update (cancelled_ne_active now) fun _ _ => Iff.rfl
  dsimp only
  apply hmark.fallBack
  intro h
  obtain ⟨u, hu, hgrants⟩ := Table.exists_of_affected_ne_zero (Nat.pos_iff_ne_zero.mp h)
  exact ⟨u, mem_rowsOf.mpr ⟨hu, hgrants.1.1⟩, hgrants.1.2.1⟩

/-- Deleting a subscription of the user. -/
theorem endedBy_delete {now : ℤ} {s : Tables} {sub : UserSubscription}
    (hsub : sub ∈ s.userSubscriptions) (hid : 0 < sub.id) (hU : 0 < sub.userId) :
    EndedBy sub.userId (fun u => u.id = sub.id) (downgradeTarget sub (groupOf s sub.userId)) s
      (transaction (adminDeleteUserSubscriptionTx sub.id now) s).2 := by
  obtain ⟨a, hdown⟩ := downgrade_ok hU now s
  have hok := delete_ok.mpr ⟨hid, sub, hsub, rfl, _, hdown, rfl⟩
  rw [transaction_of_ok hok]
  have hcomm : ∀ (target : String) (kept : Prop) [Decidable kept],
      { fallBack sub.userId target kept s with
        userSubscriptions := (fallBack sub.userId target kept s).userSubscriptions.delete
          (·.id = sub.id) } =
      fallBack sub.userId target kept { s with
        userSubscriptions := s.userSubscriptions.delete (·.id = sub.id) } := by
    intro target kept _
    unfold fallBack
    have hgroup : groupOf { s with
        userSubscriptions := s.userSubscriptions.delete (·.id = sub.id) } sub.userId =
          groupOf s sub.userId := rfl
    rw [hgroup]
    split
    · rfl
    · rfl
  rw [hcomm]
  dsimp only
  apply endedBy_remove.fallBack
  intro h
  obtain ⟨u, hu, hgrants⟩ := Table.exists_of_affected_ne_zero (Nat.pos_iff_ne_zero.mp h)
  exact ⟨u, mem_rowsOf.mpr ⟨Table.mem_delete.mpr ⟨hu, hgrants.2⟩, hgrants.1.1⟩, hgrants.1.2.1⟩

/-! ### Purchase -/

/-- A purchase moves the user into the group of the plan, and remembers where the user came from
exactly when it does. -/
theorem upgradeUserGroup_ok {V : ℤ} {group prev : String} {s s' : Tables}
    (h : (upgradeUserGroup V group).Ok s prev s') :
    (s' = s ∧ prev = "" ∧ (group = "" ∨ groupOf s V = group)) ∨
      (s' = setGroup V group s ∧ prev = groupOf s V ∧ groupOf s V ≠ group ∧ group ≠ "") := by
  unfold upgradeUserGroup at h
  rcases Txn.ok_ite.mp h with ⟨hgroup, h⟩ | ⟨hgroup, h⟩
  · obtain ⟨cur, t, hcur, hmove⟩ := Txn.ok_bind.mp h
    have hcur' : cur = groupOf s V ∧ t = s := by
      unfold getUserGroupByIdTx at hcur
      obtain ⟨_, w, hreq, hread⟩ := Txn.ok_bind.mp hcur
      obtain ⟨db, w', hget, hread⟩ := Txn.ok_bind.mp hread
      have hs := (Txn.ok_require.mp hreq).2
      obtain ⟨hdb, hw⟩ := Txn.ok_get.mp hget
      obtain ⟨hval, ht⟩ := Txn.ok_pure.mp hread
      rw [← hval, ← ht, ← hdb, ← hw, ← hs]
      exact ⟨rfl, rfl⟩
    rw [hcur'.1, hcur'.2] at hmove
    rcases Txn.ok_ite.mp hmove with ⟨hne, hmove⟩ | ⟨hne, hmove⟩
    · obtain ⟨_, w, hset, hret⟩ := Txn.ok_bind.mp hmove
      obtain ⟨hprev, hs'⟩ := Txn.ok_pure.mp hret
      rw [← hprev, ← hs', ← Txn.ok_modify.mp hset]
      exact .inr ⟨rfl, rfl, hne, hgroup⟩
    · obtain ⟨hprev, hs'⟩ := Txn.ok_pure.mp hmove
      exact .inl ⟨hs'.symm, hprev.symm, .inr (not_not.mp hne)⟩
  · obtain ⟨hprev, hs'⟩ := Txn.ok_pure.mp h
    exact .inl ⟨hs'.symm, hprev.symm, .inl (not_not.mp hgroup)⟩

theorem checkPurchaseLimit_ok {V : ℤ} {plan : SubscriptionPlan} {s s' : Tables} {u : Unit}
    (h : (checkPurchaseLimit V plan).Ok s u s') : s' = s := by
  unfold checkPurchaseLimit at h
  rcases Txn.ok_ite.mp h with ⟨_, h⟩ | ⟨_, h⟩
  · obtain ⟨_, _, hget, h⟩ := Txn.ok_bind.mp h
    obtain ⟨_, _, hrow, h⟩ := Txn.ok_bind.mp h
    rw [← (Txn.ok_require.mp h).2, ← (Txn.ok_orThrow.mp hrow).2, ← (Txn.ok_get.mp hget).2]
  · exact (Txn.ok_pure.mp h).2.symm

/-- A purchase that succeeds. -/
theorem purchase_ok {cal : Calendar} {V now updatedAt : ℤ} {plan : SubscriptionPlan}
    {s s' : Tables} {u : PUnit}
    (h : (createUserSubscriptionFromPlanTx cal V plan now updatedAt).Ok s u s') :
    0 < V ∧ ∃ t prev endUnix nextReset,
      (upgradeUserGroup V (Text.trimSpace plan.upgradeGroup)).Ok s prev t ∧
        s' = { t with
          userSubscriptions := t.userSubscriptions.insert
            (purchasedSubscription V plan now endUnix nextReset prev updatedAt
              (t.userSubscriptions.nextID (·.id))) } := by
  unfold createUserSubscriptionFromPlanTx at h
  obtain ⟨_, _, hplan, hbody⟩ := Txn.ok_bind.mp h
  obtain ⟨_, _, hreq, hbody⟩ := Txn.ok_bind.mp hbody
  obtain ⟨_, _, hlimit, hbody⟩ := Txn.ok_bind.mp hbody
  obtain ⟨endUnix, w, hend, hbody⟩ := Txn.ok_bind.mp hbody
  obtain ⟨prev, t, hup, hins⟩ := Txn.ok_bind.mp hbody
  obtain ⟨hV, hreq⟩ := Txn.ok_require.mp hreq
  have hw : w = s := by
    rw [← (Txn.ok_ofExcept.mp hend).2, checkPurchaseLimit_ok hlimit, ← hreq,
      ← (Txn.ok_require.mp hplan).2]
  rw [hw] at hup
  exact ⟨hV, t, prev, endUnix, calcNextResetTime cal now plan endUnix, hup,
    (Txn.ok_modify.mp hins).symm⟩

/-- The purchase of another user. -/
theorem sameFor_purchase {cal : Calendar} {U V now updatedAt : ℤ} {plan : SubscriptionPlan}
    {s s' : Tables} {u : PUnit} (hne : V ≠ U)
    (h : (createUserSubscriptionFromPlanTx cal V plan now updatedAt).Ok s u s') :
    SameFor U s s' := by
  obtain ⟨_, t, prev, endUnix, nextReset, hup, rfl⟩ := purchase_ok h
  have ht : SameFor U s t := by
    rcases upgradeUserGroup_ok hup with ⟨rfl, _⟩ | ⟨rfl, _⟩
    · exact .refl U t
    · exact sameFor_setGroup hne s _
  refine ht.trans ⟨id, rfl, ?_⟩
  unfold rowsOf Table.insert
  dsimp only
  split
  · rw [List.filter_append, List.filter_cons_of_neg, List.filter_nil, List.append_nil]
    rw [decide_eq_true_iff]
    exact hne
  · rfl

/-- What a purchase does to the user who makes it. -/
theorem purchase_for {cal : Calendar} {U now updatedAt : ℤ} {plan : SubscriptionPlan}
    {s s' : Tables} {u : PUnit} (hk : Known s U)
    (hplan : Text.trimSpace plan.upgradeGroup ≠ "")
    (h : (createUserSubscriptionFromPlanTx cal U plan now updatedAt).Ok s u s') :
    0 < U ∧ Known s' U ∧ groupOf s' U = Text.trimSpace plan.upgradeGroup ∧
      ∃ new ∈ rowsOf s' U, new.status = .active ∧ 0 < new.id ∧
        new.upgradeGroup = Text.trimSpace plan.upgradeGroup ∧
        new.downgradeGroup = Text.trimSpace plan.downgradeGroup ∧
        (new.prevUserGroup ≠ "" → groupOf s U ≠ Text.trimSpace plan.upgradeGroup) ∧
        ∀ sub ∈ rowsOf s' U, sub ∈ rowsOf s U ∨ sub = new := by
  obtain ⟨hU, t, prev, endUnix, nextReset, hup, rfl⟩ := purchase_ok h
  have ht : Known t U ∧ groupOf t U = Text.trimSpace plan.upgradeGroup ∧ rowsOf t U = rowsOf s U ∧
      (prev ≠ "" → groupOf s U ≠ Text.trimSpace plan.upgradeGroup) := by
    rcases upgradeUserGroup_ok hup with ⟨rfl, hprev, hgroup⟩ | ⟨rfl, _, hne, _⟩
    · exact ⟨hk, hgroup.resolve_left hplan, rfl, fun h => absurd hprev h⟩
    · exact ⟨known_setGroup hk _, groupOf_setGroup hk _, rfl, fun _ => hne⟩
  obtain ⟨hk', hgroup, hrows, hprev⟩ := ht
  have hfree : ∀ a ∈ t.userSubscriptions, ¬ a.id = t.userSubscriptions.nextID (·.id) :=
    fun a ha => ne_of_lt (Table.lt_nextID ha)
  refine ⟨hU, hk', hgroup, _, mem_rowsOf.mpr ⟨Table.mem_insert_self hfree, rfl⟩, rfl,
    Table.nextID_pos _, rfl, rfl, hprev, ?_⟩
  intro sub hsub
  obtain ⟨hmem, hsubU⟩ := mem_rowsOf.mp hsub
  rcases Table.mem_insert hmem with hmem | ⟨hnew, _⟩
  · rw [← hrows]
    exact .inl (mem_rowsOf.mpr ⟨hmem, hsubU⟩)
  · exact .inr hnew

end MaxApi.Subscription
