import MaxApi.Redemption.Store

/-! # Redemption codes: credited once

A successful `redeem` credits the quota that is stored at that moment to one user, and a failed one
changes nothing.  A code that is marked used stays so, and is therefore credited at most once,
exactly in the runs in which no edit writes another status over it (`credited_once_iff`): the copy
that an edit writes back may be older than the redemption. -/

namespace MaxApi.Redemptions

open Relational Relational.Txn

/-! ### One redemption -/

/-- What a successful transaction does. -/
theorem redeemTx_ok {key : String} {userId now : ℤ} {fails : Bool} {s s' : Store} {r : Redemption}
    (h : (redeemTx key userId now fails).Ok s r s') :
    r ∈ s.redemptions ∧ r.key = key ∧ r.deleted = false ∧ r.status = RedemptionCodeStatusEnabled ∧
      (r.expiredTime = 0 ∨ now ≤ r.expiredTime) ∧ 0 < r.quota ∧
      s'.redemptions = s.redemptions.update (Redeemable r.id now) (usedSet userId now) ∧
      s'.users = s.users.update (·.id = userId) (creditSet r.quota) := by
  unfold redeemTx at h
  simp only [ok_bind, ok_get, ok_orThrow, ok_require, ok_modify, ok_pure] at h
  obtain ⟨_, _, ⟨rfl, rfl⟩, redemption, _, ⟨hfirst, rfl⟩, _, _, ⟨hstatus, rfl⟩, _, _,
    ⟨hexpired, rfl⟩, _, _, ⟨hquota, rfl⟩, _, _, ⟨_, rfl⟩, _, _, rfl, _, _, ⟨_, rfl⟩, _, _, rfl,
    _, _, ⟨_, rfl⟩, rfl, rfl⟩ := h
  obtain ⟨hmem, hdeleted, hkey⟩ := Table.first?_mem hfirst
  refine ⟨hmem, hkey, hdeleted, hstatus, ?_, hquota, rfl, rfl⟩
  omega

/-- A redemption that succeeds: the row it found, and the store after it. -/
structure Redeemed (key : String) (userId now : ℤ) (s s' : Store) (r : Redemption) : Prop where
  mem : r ∈ s.redemptions
  key_eq : r.key = key
  live : r.deleted = false
  enabled : r.status = RedemptionCodeStatusEnabled
  unexpired : r.expiredTime = 0 ∨ now ≤ r.expiredTime
  positive : 0 < r.quota
  redemptions : s'.redemptions = s.redemptions.update (Redeemable r.id now) (usedSet userId now)
  users : s'.users = s.users.update (·.id = userId) (creditSet r.quota)

/-- **A redemption** either is complete or changes nothing. -/
theorem redeem_cases (key : String) (userId now : ℤ) (fails : Bool) (s : Store) :
    (∃ r s', redeem key userId now fails s = (.ok r, s') ∧ Redeemed key userId now s s' r) ∨
      ∃ e, redeem key userId now fails s = (.error e, s) := by
  unfold redeem
  by_cases hkey : key = ""
  · rw [if_pos hkey]
    exact Or.inr ⟨_, rfl⟩
  rw [if_neg hkey]
  by_cases huser : userId = 0
  · rw [if_pos huser]
    exact Or.inr ⟨_, rfl⟩
  rw [if_neg huser]
  rcases transaction_cases (redeemTx key userId now fails) s with ⟨r, s', hok, htx⟩ | ⟨e, htx⟩
  · left
    obtain ⟨hmem, hk, hd, hs, he, hq, hr, hu⟩ := redeemTx_ok hok
    exact ⟨r, s', htx, hmem, hk, hd, hs, he, hq, hr, hu⟩
  · exact Or.inr ⟨e, htx⟩

/-! ### The law -/

/-- The code is marked used, and by whom. -/
def MarkedUsed (t : Table Redemption) (id user : ℤ) : Prop :=
  ∃ r ∈ t, r.id = id ∧ r.status = RedemptionCodeStatusUsed ∧ r.usedUserId = user

/-- If the code is marked used, it stays so. -/
def UsedStays (id : ℤ) (w : World) (op : Op) : Prop :=
  ∀ user, MarkedUsed w.store.redemptions id user → MarkedUsed (step w op).store.redemptions id user

/-- A redemption credits the stored quota to one user, marks the code with it and touches nothing
else, or changes nothing; nothing else credits. -/
def CreditsStored (w : World) (op : Op) : Prop :=
  match op with
  | .redeem key userId now _ =>
      step w op = w ∨
        ∃ r, Redeemed key userId now w.store (step w op).store r ∧
          (step w op).credits = w.credits ++ [⟨r.id, userId, r.quota⟩]
  | _ => (step w op).store.users = w.store.users ∧ (step w op).credits = w.credits

/-- The code is credited at most once, and if it is, it is marked used by the credited user. -/
def CreditedOnce (id : ℤ) (w : World) : Prop :=
  w.credits.countP (fun c => c.code = id) ≤ 1 ∧
    ∀ c ∈ w.credits, c.code = id → MarkedUsed w.store.redemptions id c.user

/-- An edit that is written over the code while it is used carries that status. -/
def KeepsUsed (id : ℤ) (w : World) (op : Op) : Prop :=
  match op with
  | .writeEdit i =>
      ∀ clean, w.edits[i]? = some clean → clean.id = id → ∀ r ∈ w.store.redemptions, r.id = id →
        r.deleted = false → r.status = RedemptionCodeStatusUsed →
        clean.status = RedemptionCodeStatusUsed
  | _ => True

/-- A status-only edit of the run sets the code back to enabled. -/
def Reenabled (id : ℤ) (ops : List Op) : Prop :=
  ∃ req now, Op.readEdit req now ∈ ops ∧ req.id = id ∧ req.statusOnly = true ∧
    req.status = RedemptionCodeStatusEnabled

/-- Every step credits what is stored, or nothing. -/
theorem step_creditsStored (w : World) (op : Op) : CreditsStored w op := by
  cases op with
  | redeem key userId now fails =>
      unfold CreditsStored step
      dsimp only
      rcases redeem_cases key userId now fails w.store with ⟨r, s', heq, hr⟩ | ⟨e, heq⟩
      · rw [heq]
        exact Or.inr ⟨r, hr, rfl⟩
      · rw [heq]
        exact Or.inl rfl
  | readEdit req now => exact ⟨rfl, rfl⟩
  | writeEdit i =>
      unfold CreditsStored step
      dsimp only
      cases w.edits[i]? with
      | none => exact ⟨rfl, rfl⟩
      | some clean => exact ⟨rfl, rfl⟩
  | delete id =>
      unfold CreditsStored step deleteRedemptionById
      dsimp only
      split_ifs
      · exact ⟨rfl, rfl⟩
      · exact ⟨rfl, rfl⟩
  | deleteInvalid now => exact ⟨rfl, rfl⟩

/-! ### What an update keeps -/

/-- An update that keeps status and user of the code if it is used. -/
theorem markedUsed_update {t : Table Redemption} {p : Redemption → Prop} [DecidablePred p]
    {m : SetClause Redemption} {id user : ℤ}
    (h : ∀ r ∈ t, r.id = id → p r → r.status = RedemptionCodeStatusUsed →
      (m.set r).status = RedemptionCodeStatusUsed ∧ (m.set r).usedUserId = r.usedUserId)
    (hused : MarkedUsed t id user) : MarkedUsed (t.update p m) id user := by
  obtain ⟨r, hr, hid, hstatus, huser⟩ := hused
  refine ⟨if p r then m.set r else r, Table.mem_update.mpr ⟨r, hr, rfl⟩, ?_⟩
  by_cases hp : p r
  · rw [if_pos hp]
    obtain ⟨hs, hu⟩ := h r hr hid hp hstatus
    have hkey := congrArg Prod.fst (m.keeps r)
    exact ⟨hkey.trans hid, hs, hu.trans huser⟩
  · rw [if_neg hp]
    exact ⟨hid, hstatus, huser⟩

/-- A code that is marked used stays so in a step exactly if the step keeps its status. -/
theorem usedStays_iff (id : ℤ) (w : World) (op : Op) : UsedStays id w op ↔ KeepsUsed id w op := by
  cases op with
  | redeem key userId now fails =>
      apply iff_of_true _ trivial
      intro user hused
      unfold step
      dsimp only
      rcases redeem_cases key userId now fails w.store with ⟨r, s', heq, hr⟩ | ⟨e, heq⟩
      · rw [heq]
        dsimp only
        rw [hr.redemptions]
        refine markedUsed_update (fun a _ _ hp hs => ?_) hused
        rw [hp.2.2.1] at hs
        exact absurd hs (by decide)
      · rw [heq]
        exact hused
  | readEdit req now => exact iff_of_true (fun user hused => hused) trivial
  | writeEdit i =>
      unfold UsedStays KeepsUsed step
      dsimp only
      cases hedit : w.edits[i]? with
      | none => exact iff_of_true (fun user hused => hused) nofun
      | some clean =>
          dsimp only
          constructor
          · rintro h _ ⟨⟩ hclean r hr hid hlive hused
            obtain ⟨a, ha, haid, hastatus, _⟩ := h r.usedUserId ⟨r, hr, hid, hused, rfl⟩
            obtain ⟨b, hb, rfl⟩ := Table.mem_update.mp ha
            by_cases hp : b.id = clean.id ∧ b.deleted = false
            · rw [if_pos hp] at hastatus
              exact hastatus
            · rw [if_neg hp] at haid
              have hbr := redemption_eq_of_id hb hr (haid.trans hid.symm)
              rw [hbr] at hp
              exact absurd ⟨hid.trans hclean.symm, hlive⟩ hp
          · intro h user hused
            refine markedUsed_update (fun a ha hid hp hs => ?_) hused
            exact ⟨h clean rfl (hp.1.symm.trans hid) a ha hid hp.2 hs, rfl⟩
  | delete id' =>
      apply iff_of_true _ trivial
      intro user hused
      unfold step deleteRedemptionById
      dsimp only
      split_ifs
      · exact hused
      · exact markedUsed_update (fun a _ _ _ hs => ⟨hs, rfl⟩) hused
  | deleteInvalid now =>
      apply iff_of_true _ trivial
      intro user hused
      exact markedUsed_update (fun a _ _ _ hs => ⟨hs, rfl⟩) hused

/-- A step that keeps the mark of a code keeps it credited once. -/
theorem creditedOnce_step {id : ℤ} {w : World} {op : Op} (hstays : UsedStays id w op)
    (h : CreditedOnce id w) : CreditedOnce id (step w op) := by
  have hsame : (step w op).credits = w.credits → CreditedOnce id (step w op) := by
    intro hcredits
    unfold CreditedOnce
    rw [hcredits]
    exact ⟨h.1, fun c hc hid => hstays c.user (h.2 c hc hid)⟩
  have hspec := step_creditsStored w op
  cases op with
  | readEdit req now => exact hsame hspec.2
  | writeEdit i => exact hsame hspec.2
  | delete id => exact hsame hspec.2
  | deleteInvalid now => exact hsame hspec.2
  | redeem key userId now fails =>
      rcases hspec with heq | ⟨r, hr, hcredits⟩
      · rw [heq]
        exact h
      unfold CreditedOnce
      rw [hcredits]
      by_cases hid : r.id = id
      · -- The code was enabled, so that it had no credit before.
        have hnew : ∀ c ∈ w.credits, ¬ c.code = id := by
          intro c hc hcode
          obtain ⟨a, ha, haid, hastatus, _⟩ := h.2 c hc hcode
          rw [redemption_eq_of_id ha hr.mem (haid.trans hid.symm), hr.enabled] at hastatus
          exact absurd hastatus (by decide)
        have hzero : w.credits.countP (fun c => c.code = id) = 0 := by
          rw [List.countP_eq_zero]
          intro c hc
          rw [decide_eq_true_eq]
          exact hnew c hc
        constructor
        · rw [List.countP_append, hzero, List.countP_singleton]
          split_ifs <;> omega
        · intro c hc hcode
          rcases List.mem_append.mp hc with hc | hc
          · exact absurd hcode (hnew c hc)
          · rw [List.mem_singleton.mp hc, hr.redemptions]
            refine ⟨(usedSet userId now).set r, Table.mem_update.mpr ⟨r, hr.mem, ?_⟩, hid, rfl, rfl⟩
            rw [if_pos ⟨rfl, hr.live, hr.enabled, hr.unexpired⟩]
      · constructor
        · rw [List.countP_append, List.countP_singleton, if_neg (by simpa using hid)]
          exact h.1
        · intro c hc hcode
          rcases List.mem_append.mp hc with hc | hc
          · exact hstays c.user (h.2 c hc hcode)
          · rw [List.mem_singleton.mp hc] at hcode
            exact absurd hcode hid

/-! ### Runs -/

/-- The mark of a code stays along a run exactly while no edit writes another status over it, and
then the code is credited once. -/
theorem throughout_keepsUsed_iff (id : ℤ) (store : Store) (ops : List Op) :
    (Transition.Throughout step (UsedStays id) ⟨store, [], []⟩ ops ∧
        ∀ pre, pre <+: ops → CreditedOnce id (Transition.run step ⟨store, [], []⟩ pre)) ↔
      Transition.Throughout step (KeepsUsed id) ⟨store, [], []⟩ ops := by
  constructor
  · intro h
    exact Transition.throughout_mono step (fun w op => (usedStays_iff id w op).mp) ops _ h.1
  · intro h
    have hstays := Transition.throughout_mono step (fun w op => (usedStays_iff id w op).mpr) ops _ h
    refine ⟨hstays, fun pre hpre => ?_⟩
    apply Transition.throughout_invariant step (fun w op => creditedOnce_step) pre
    · exact Transition.throughout_prefix step hpre hstays
    · exact ⟨Nat.zero_le 1, nofun⟩

/-- **Credited once.** In every run every redemption credits what is stored, or changes nothing.
Unless a status-only edit enables it again, a code that is marked used stays so and is credited at
most once, by the user it is marked with, exactly if no edit writes another status over it while it
is used. -/
theorem credited_once_iff (store : Store) (ops : List Op) (id : ℤ) :
    Transition.Throughout step CreditsStored ⟨store, [], []⟩ ops ∧
      ((¬ Reenabled id ops →
          Transition.Throughout step (UsedStays id) ⟨store, [], []⟩ ops ∧
            ∀ pre, pre <+: ops → CreditedOnce id (Transition.run step ⟨store, [], []⟩ pre)) ↔
        (¬ Reenabled id ops →
          Transition.Throughout step (KeepsUsed id) ⟨store, [], []⟩ ops)) := by
  constructor
  · exact Transition.throughout_of_forall step step_creditsStored ops _
  · exact imp_congr_right fun _ => throughout_keepsUsed_iff id store ops

/-- A code worth 100 and two users. -/
def soldTwice : Store where
  redemptions := ⟨[⟨7, 1, "k", 1, "sale", 100, 0, 0, 0, false, 0⟩], by decide⟩
  users := ⟨[⟨1, 0⟩, ⟨2, 0⟩], by decide⟩

/-- The name is edited while the first user redeems; the second user redeems after it. -/
def renamedMeanwhile : List Op :=
  [.readEdit ⟨7, false, "sold", 1, 100, 0⟩ 10, .redeem "k" 1 11 false, .writeEdit 0,
    .redeem "k" 2 12 false]

/-- A change of the name lets a second user redeem the code. -/
theorem redeemed_twice :
    ¬ ∀ (store : Store) (ops : List Op) (id : ℤ), ¬ Reenabled id ops →
        Transition.Throughout step (UsedStays id) ⟨store, [], []⟩ ops ∧
          ∀ pre, pre <+: ops → CreditedOnce id (Transition.run step ⟨store, [], []⟩ pre) := by
  intro h
  have hnot : ¬ Reenabled 7 renamedMeanwhile := by
    rintro ⟨req, now, hmem, _, honly, _⟩
    simp [renamedMeanwhile] at hmem
    rw [hmem.1] at honly
    exact absurd honly (by decide)
  have honce := (h soldTwice renamedMeanwhile 7 hnot).2 renamedMeanwhile List.prefix_rfl
  exact absurd honce.1 (by decide)

end MaxApi.Redemptions
