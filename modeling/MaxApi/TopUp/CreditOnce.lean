import MaxApi.Lib.System
import MaxApi.TopUp.Recharge

/-! # An order is credited once

Runs of the store: the provider callbacks, duplicated and in any order, the closing of unpaid
orders and the completion by an administrator, between changes of `QuotaPerUnit`, new orders and
arbitrary other writes of the wallets.  What an order has credited is read off the wallets before
and after the calls that name it (`creditsOf`). -/

namespace MaxApi.TopUps

open Relational Relational.Txn

/-! ### Runs -/

/-- A call of the store that names an order. -/
inductive Call where
  | recharge (referenceId customerId : String) (validations : List PaymentValidation) (now : ℤ)
  | rechargeEpay (tradeNo actualPaymentMethod : String) (validations : List PaymentValidation)
      (now : ℤ)
  | rechargeCreem (referenceId : String) (validations : List PaymentValidation) (now : ℤ)
  | rechargeWaffo (tradeNo : String) (validations : List PaymentValidation) (now : ℤ)
  | rechargeWaffoPancake (tradeNo : String) (validations : List PaymentValidation) (now : ℤ)
  | updatePendingTopUpStatus (tradeNo : String) (expectedPaymentProvider : PaymentProvider)
      (target : Closing)
  | manualCompleteTopUp (tradeNo : String) (now : ℤ)

/-- The order a call names. -/
def Call.tradeNo : Call → String
  | .recharge no _ _ _ => no
  | .rechargeEpay no _ _ _ => no
  | .rechargeCreem no _ _ => no
  | .rechargeWaffo no _ _ => no
  | .rechargeWaffoPancake no _ _ => no
  | .updatePendingTopUpStatus no _ _ => no
  | .manualCompleteTopUp no _ => no

/-- The provider for which a call speaks. -/
def Call.provider : Call → Option PaymentProvider
  | .recharge .. => some .stripe
  | .rechargeEpay .. => some .epay
  | .rechargeCreem .. => some .creem
  | .rechargeWaffo .. => some .waffo
  | .rechargeWaffoPancake .. => some .waffoPancake
  | .updatePendingTopUpStatus _ p _ => if p = .unset then none else some p
  | .manualCompleteTopUp .. => none

/-- The administrator's call. -/
def Call.Manual : Call → Prop
  | .manualCompleteTopUp .. => True
  | _ => False

/-- A call at the current value of `QuotaPerUnit`. -/
def Call.run (q : ℚ) : Call → Store → Except TopUpError Unit × Store
  | .recharge no customer vs now => Recharge no customer vs q now
  | .rechargeEpay no method vs now => RechargeEpay no method vs q now
  | .rechargeCreem no vs now => RechargeCreem no vs q now
  | .rechargeWaffo no vs now => RechargeWaffo no vs q now
  | .rechargeWaffoPancake no vs now => RechargeWaffoPancake no vs q now
  | .updatePendingTopUpStatus no p target => UpdatePendingTopUpStatus no p target.status
  | .manualCompleteTopUp no now => ManualCompleteTopUp no q now

/-- The store and the option `QuotaPerUnit`. -/
structure World where
  store : Store
  quotaPerUnit : ℚ

/-- One operation: a call, a new unpaid order, a new option value, or a write of a user by other
parts of the program. -/
inductive Op where
  | call (c : Call)
  | insertTopUp (topUp : TopUp)
  | setQuotaPerUnit (q : ℚ)
  | writeQuota (userId quota : ℤ)
  | insertUser (user : User)
  | deleteUser (userId : ℤ)

/-- The wallet is overwritten. -/
def quotaSet (quota : ℤ) : SetClause User :=
  ⟨fun u => { u with quota := quota }, keeps fun _ => rfl⟩

/-- `TopUp.Insert`, as the payment pages call it. -/
def insertTopUp (t : Table TopUp) (topUp : TopUp) : Table TopUp :=
  t.insert { topUp with id := t.nextID (·.id), status := .pending }

def step (w : World) : Op → World
  | .call c => { w with store := (c.run w.quotaPerUnit w.store).2 }
  | .insertTopUp topUp =>
      { w with store := { w.store with topUps := insertTopUp w.store.topUps topUp } }
  | .setQuotaPerUnit q => { w with quotaPerUnit := q }
  | .writeQuota userId quota =>
      { w with store :=
        { w.store with users := w.store.users.update (·.id = userId) (quotaSet quota) } }
  | .insertUser user => { w with store := { w.store with users := w.store.users.insert user } }
  | .deleteUser userId =>
      { w with store := { w.store with users := w.store.users.delete (·.id = userId) } }

/-- The state after a list of operations. -/
def runs (w : World) (ops : List Op) : World := Transition.run step w ops

/-- The wallet of a user; 0 without a row. -/
def walletOf (users : Table User) (userId : ℤ) : ℤ :=
  ((users.first? (·.id = userId)).map (·.quota)).getD 0

/-- What an operation adds to a wallet. -/
def gain (w : World) (op : Op) (userId : ℤ) : ℤ :=
  walletOf (step w op).store.users userId - walletOf w.store.users userId

/-- The operation is a call on the order. -/
def Op.Names (no : String) : Op → Prop
  | .call c => c.tradeNo = no
  | _ => False

instance (no : String) : DecidablePred (Op.Names no)
  | .call c => inferInstanceAs (Decidable (c.tradeNo = no))
  | .insertTopUp _ => .isFalse id
  | .setQuotaPerUnit _ => .isFalse id
  | .writeQuota _ _ => .isFalse id
  | .insertUser _ => .isFalse id
  | .deleteUser _ => .isFalse id

/-- What an operation credits to a user on account of an order, with the value of `QuotaPerUnit` at
that moment. -/
def creditOf (no : String) (userId : ℤ) (w : World) (op : Op) : List (ℚ × ℤ) :=
  if op.Names no ∧ gain w op userId ≠ 0 then [(w.quotaPerUnit, gain w op userId)] else []

/-- The credits of a whole run. -/
def creditsOf (no : String) (userId : ℤ) : World → List Op → List (ℚ × ℤ)
  | _, [] => []
  | w, op :: ops => creditOf no userId w op ++ creditsOf no userId (step w op) ops

/-! ### Rows and wallets -/

/-- The table `t'` has the row `o'` in place of the row `o` of `t`. -/
structure Replaced (t t' : Table TopUp) (o o' : TopUp) : Prop where
  old : o ∈ t
  id : o'.id = o.id
  mem : ∀ x, x ∈ t' ↔ x = o' ∨ x ∈ t ∧ x ≠ o

/-- A guarded update of one order that matched. -/
theorem replaced_update {t : Table TopUp} {p : TopUp → Prop} [DecidablePred p]
    {m : SetClause TopUp} {o : TopUp} (ho : o ∈ t) (hp : p o) (hid : ∀ x, p x → x.id = o.id) :
    Replaced t (t.update p m) o (m.set o) := by
  have hkey : (m.set o).id = o.id := congrArg Prod.fst (m.keeps o)
  refine ⟨ho, hkey, ?_⟩
  intro x
  rw [Table.mem_update]
  constructor
  · rintro ⟨b, hb, rfl⟩
    by_cases hpb : p b
    · rw [if_pos hpb, topUp_eq_of_id hb ho (hid b hpb)]
      exact .inl rfl
    · rw [if_neg hpb]
      refine .inr ⟨hb, ?_⟩
      rintro rfl
      exact hpb hp
  · rintro (rfl | ⟨hx, hne⟩)
    · exact ⟨o, ho, (if_pos hp).symm⟩
    · exact ⟨x, hx, (if_neg fun hpx => hne (topUp_eq_of_id hx ho (hid x hpx))).symm⟩

theorem Replaced.trans {t t' t'' : Table TopUp} {o o' o'' : TopUp} (h : Replaced t t' o o')
    (h' : Replaced t' t'' o' o'') : Replaced t t'' o o'' := by
  refine ⟨h.old, h'.id.trans h.id, ?_⟩
  intro x
  rw [h'.mem, h.mem]
  have hne : x ∈ t ∧ x ≠ o → x ≠ o' := by
    rintro ⟨hx, hxo⟩ rfl
    exact hxo (topUp_eq_of_id hx h.old h.id)
  tauto

theorem Replaced.new {t t' : Table TopUp} {o o' : TopUp} (h : Replaced t t' o o') : o' ∈ t' :=
  (h.mem o').mpr (.inl rfl)

theorem Replaced.keeps {t t' : Table TopUp} {o o' x : TopUp} (h : Replaced t t' o o') (hx : x ∈ t)
    (hne : x ≠ o) : x ∈ t' := (h.mem x).mpr (.inr ⟨hx, hne⟩)

theorem walletOf_eq {users : Table User} {u : User} (hu : u ∈ users) :
    walletOf users u.id = u.quota := by
  unfold walletOf
  rw [Table.first?_eq_some (p := fun v => v.id = u.id) hu rfl fun v hv h => user_eq_of_id hv hu h]
  rfl

/-- An update that does not match the user leaves the wallet alone. -/
theorem walletOf_update_of_ne {users : Table User} {p : User → Prop} [DecidablePred p]
    {m : SetClause User} {userId : ℤ} (h : ∀ v ∈ users, v.id = userId → ¬ p v) :
    walletOf (users.update p m) userId = walletOf users userId := by
  cases hf : users.first? (·.id = userId) with
  | none =>
      have hnone : (users.update p m).first? (·.id = userId) = none := by
        rw [Table.first?_eq_none] at hf ⊢
        intro a ha haid
        obtain ⟨b, hb, rfl⟩ := Table.mem_update.mp ha
        have hbid : b.id = userId := by
          split at haid
          · exact (m.keeps b).symm.trans haid
          · exact haid
        exact hf b hb hbid
      unfold walletOf
      rw [hnone, hf]
  | some v =>
      obtain ⟨hv, hid⟩ := Table.first?_mem hf
      have hv' : v ∈ users.update p m := Table.mem_update.mpr ⟨v, hv, (if_neg (h v hv hid)).symm⟩
      rw [← hid, walletOf_eq hv, walletOf_eq hv']

/-- A credit that had room raises its wallet and no other. -/
theorem walletOf_credit {users : Table User} {u : User} {m a : ℤ} {customer : Option String}
    (hu : u ∈ users) (hroom : u.quota ≤ m) (userId : ℤ) :
    walletOf (users.update (HasRoom u.id m) (credit a customer)) userId =
      walletOf users userId + if userId = u.id then a else 0 := by
  by_cases h : userId = u.id
  · have hu' : (credit a customer).set u ∈
        users.update (HasRoom u.id m) (credit a customer) :=
      Table.mem_update.mpr ⟨u, hu, (if_pos ⟨rfl, hroom⟩).symm⟩
    have hafter := walletOf_eq hu'
    rw [if_pos h, h, walletOf_eq hu]
    exact hafter
  · rw [if_neg h, add_zero]
    exact walletOf_update_of_ne fun v _ hv hp => h (hv.symm.trans hp.1)

/-! ### What the statements do -/

/-- The parts of an order that no statement writes. -/
structure SameOrder (o o' : TopUp) : Prop where
  userId : o'.userId = o.userId
  amount : o'.amount = o.amount
  money : o'.money = o.money
  tradeNo : o'.tradeNo = o.tradeNo
  provider : o'.paymentProvider = o.paymentProvider

theorem SameOrder.providerQuota_eq {o o' : TopUp} (h : SameOrder o o') (q : ℚ) :
    providerQuota q o' = providerQuota q o := by
  unfold providerQuota stripeQuota creemQuota unitQuota
  rw [h.provider, h.money, h.amount]

/-- A credit goes through as a whole or leaves the store alone. -/
theorem exec_credit (userId a : ℤ) (customer : Option String) (s : Store) :
    (∃ u ∈ s.users, u.id = userId ∧ u.quota ≤ maxQuota - 1 - a ∧
      (creditTopUpQuota userId a customer).exec s = (.ok (),
        { s with users := s.users.update (HasRoom u.id (maxQuota - 1 - a)) (credit a customer) })) ∨
      ∃ e, (creditTopUpQuota userId a customer).exec s = (.error e, s) := by
  unfold creditTopUpQuota topUpQuotaMaxCurrent
  by_cases hbad : a ≤ 0 ∨ maxQuota ≤ a
  · rw [if_pos hbad]
    exact .inr ⟨_, rfl⟩
  · rw [if_neg hbad, exec_bind, exec_ofExcept_ok]
    dsimp only
    rw [exec_bind, exec_get]
    dsimp only
    rw [exec_bind, exec_require]
    by_cases h1 : s.users.affected (HasRoom userId (maxQuota - 1 - a)) = 1
    · obtain ⟨u, hu, hroom, _⟩ := Table.exists_of_affected_eq_one h1
      rw [if_pos h1]
      refine .inl ⟨u, hu, hroom.1, hroom.2, ?_⟩
      rw [hroom.1]
      rfl
    · rw [if_neg h1]
      exact .inr ⟨_, rfl⟩

/-- A guarded update that goes through replaces one order. -/
theorem ok_updateTopUp {topUp : TopUp} {status : TopUpStatus} {m : SetClause TopUp}
    {s s' : Store} {r : Unit} (h : (updateTopUp topUp status m).Ok s r s') :
    s'.users = s.users ∧ ∃ o, o.id = topUp.id ∧ o.status = status ∧
      Replaced s.topUps s'.topUps o (m.set o) := by
  unfold updateTopUp at h
  obtain ⟨_, s₁, h₁, h⟩ := ok_bind.mp h
  obtain ⟨t, s₂, h₂, h⟩ := ok_bind.mp h
  obtain ⟨_, s₃, h₃, h⟩ := ok_bind.mp h
  obtain ⟨_, rfl⟩ := ok_require.mp h₁
  obtain ⟨rfl, rfl⟩ := ok_get.mp h₂
  obtain ⟨h1, rfl⟩ := ok_require.mp h₃
  obtain rfl := ok_modify.mp h
  obtain ⟨o, ho, hin, _⟩ := Table.exists_of_affected_eq_one h1
  exact ⟨rfl, o, hin.1, hin.2, replaced_update ho hin fun x hx => hx.1.trans hin.1.symm⟩

/-- The correction of the payment method keeps the order pending. -/
theorem ok_correctPaymentMethod {topUp : TopUp} {method : String} {s s' : Store} {r : Unit}
    (hmem : topUp ∈ s.topUps) (hpending : topUp.status = .pending)
    (h : (correctPaymentMethod topUp method).Ok s r s') :
    s'.users = s.users ∧ ∃ o', SameOrder topUp o' ∧ o'.status = .pending ∧
      Replaced s.topUps s'.topUps topUp o' := by
  unfold correctPaymentMethod at h
  rcases ok_ite.mp h with ⟨_, h⟩ | ⟨_, h⟩
  · obtain ⟨t, s₂, h₂, h⟩ := ok_bind.mp h
    obtain ⟨_, s₃, h₃, h⟩ := ok_bind.mp h
    obtain ⟨rfl, rfl⟩ := ok_get.mp h₂
    obtain ⟨_, rfl⟩ := ok_require.mp h₃
    obtain rfl := ok_modify.mp h
    have hin : InStatus topUp.id .pending topUp := ⟨rfl, hpending⟩
    have hrow : Replaced s.topUps (s.topUps.update (InStatus topUp.id .pending)
        (paymentMethodSet method)) topUp ((paymentMethodSet method).set topUp) :=
      replaced_update hmem hin fun x hx => hx.1
    exact ⟨rfl, (paymentMethodSet method).set topUp, ⟨rfl, rfl, rfl, rfl, rfl⟩, hpending, hrow⟩
  · obtain ⟨_, rfl⟩ := ok_pure.mp h
    refine ⟨rfl, topUp, ⟨rfl, rfl, rfl, rfl, rfl⟩, hpending, hmem, rfl, ?_⟩
    intro x
    constructor
    · intro hx
      by_cases hxo : x = topUp
      · exact .inl hxo
      · exact .inr ⟨hx, hxo⟩
    · rintro (rfl | ⟨hx, _⟩)
      · exact hmem
      · exact hx

/-- What a call that goes through did: nothing, or one step of one order. -/
inductive Effect (s : Store) (q : ℚ) (c : Call) : Except TopUpError Unit → Store → Prop
  | unchanged (r : Except TopUpError Unit) : Effect s q c r s
  | closed (s' : Store) (o : TopUp) (target : Closing) (hno : o.tradeNo = c.tradeNo)
      (hprovider : ∀ p, c.provider = some p → o.paymentProvider = p) (hstatus : o.status = .pending)
      (hrow : Replaced s.topUps s'.topUps o { o with status := target.status })
      (husers : s'.users = s.users) : Effect s q c (.ok ()) s'
  | reconciled (s' : Store) (o o' : TopUp) (hno : o.tradeNo = c.tradeNo)
      (hprovider : ∀ p, c.provider = some p → o.paymentProvider = p) (hstatus : o.status = .pending)
      (hrow : Replaced s.topUps s'.topUps o o') (hsame : SameOrder o o')
      (hstatus' : o'.status = .paidReconciliation) (husers : s'.users = s.users) :
      Effect s q c (.error .topUpNeedsReconciliation) s'
  | credited (s' : Store) (o o' : TopUp) (u : User) (a : ℤ) (customer : Option String)
      (hno : o.tradeNo = c.tradeNo)
      (hprovider : ∀ p, c.provider = some p → o.paymentProvider = p)
      (hstatus : o.status = .pending ∨ o.status = .paidReconciliation ∧ c.Manual)
      (hrow : Replaced s.topUps s'.topUps o o') (hsame : SameOrder o o')
      (hstatus' : o'.status = .success) (hquota : providerQuota q o = some a) (hpos : 0 < a)
      (hu : u ∈ s.users) (hid : u.id = o.userId) (hroom : u.quota ≤ maxQuota - 1 - a)
      (husers : s'.users = s.users.update (HasRoom u.id (maxQuota - 1 - a)) (credit a customer)) :
      Effect s q c (.ok ()) s'

/-- The formula of a gateway is the one that an administrator's completion would use. -/
def Gateway.Agrees (g : Gateway) : Prop :=
  ∀ q topUp, topUp.paymentProvider = g.provider → g.creditedQuota q topUp = providerQuota q topUp

/-- A settled payment: credited and successful, or uncredited and in reconciliation. -/
theorem ok_settlePaidTopUpTx {topUp : TopUp} {a now : ℤ} {customer : Option String}
    {s s' : Store} {needsReconciliation : Bool}
    (h : (settlePaidTopUpTx topUp a customer now).Ok s needsReconciliation s') :
    (needsReconciliation = true ∧ s'.users = s.users ∧ ∃ o, o.id = topUp.id ∧
        o.status = .pending ∧
        Replaced s.topUps s'.topUps o ((statusCompleted .paidReconciliation now).set o)) ∨
      (needsReconciliation = false ∧ ∃ u ∈ s.users, u.id = topUp.userId ∧
        u.quota ≤ maxQuota - 1 - a ∧
        s'.users = s.users.update (HasRoom u.id (maxQuota - 1 - a)) (credit a customer) ∧
        ∃ o, o.id = topUp.id ∧ o.status = .pending ∧
          Replaced s.topUps s'.topUps o ((statusCompleted .success now).set o)) := by
  unfold settlePaidTopUpTx at h
  obtain ⟨credited, s₁, h₁, h₂⟩ := ok_bind.mp h
  rcases ok_recover.mp h₁ with ⟨_, rfl, hok⟩ | ⟨rfl, e, _, herr⟩
  · right
    unfold recordPaidTopUp at h₂
    obtain ⟨_, s₂, hmark, hret⟩ := ok_bind.mp h₂
    obtain ⟨rfl, rfl⟩ := ok_pure.mp hret
    obtain ⟨husers, o, hid, hpending, hrow⟩ := ok_updateTopUp hmark
    rcases exec_credit topUp.userId a customer s with ⟨u, hu, huid, hroom, hexec⟩ | ⟨e, hexec⟩
    · obtain ⟨_, rfl⟩ := Prod.mk.inj (hok.symm.trans hexec)
      exact ⟨rfl, u, hu, huid, hroom, husers, o, hid, hpending, hrow⟩
    · exact absurd (hok.symm.trans hexec) (by simp)
  · left
    unfold recordPaidTopUp at h₂
    obtain ⟨_, s₂, hmark, hret⟩ := ok_bind.mp h₂
    obtain ⟨rfl, rfl⟩ := ok_pure.mp hret
    obtain ⟨husers, o, hid, hpending, hrow⟩ := ok_updateTopUp hmark
    rcases exec_credit topUp.userId a customer s with ⟨u, hu, huid, hroom, hexec⟩ | ⟨e, hexec⟩
    · exact absurd (herr.symm.trans hexec) (by simp)
    · obtain ⟨_, rfl⟩ := Prod.mk.inj (herr.symm.trans hexec)
      exact ⟨rfl, husers, o, hid, hpending, hrow⟩

/-- A pending order under a callback of its provider. -/
theorem effect_settlePending {g : Gateway} {c : Call} {topUp : TopUp} {p : Payment}
    {s s' : Store} {needsReconciliation : Bool} (hg : g.Agrees) (hmem : topUp ∈ s.topUps)
    (hno : topUp.tradeNo = c.tradeNo) (hgp : topUp.paymentProvider = g.provider)
    (hprovider : ∀ p, c.provider = some p → topUp.paymentProvider = p)
    (hpending : topUp.status = .pending)
    (h : (settlePendingTopUp g topUp p).Ok s needsReconciliation s') :
    Effect s p.quotaPerUnit c (reported g (.ok needsReconciliation)) s' := by
  unfold settlePendingTopUp at h
  obtain ⟨_, s₁, hvalid, h⟩ := ok_bind.mp h
  obtain ⟨a, s₂, hconv, h⟩ := ok_bind.mp h
  obtain ⟨_, s₃, hreq, h⟩ := ok_bind.mp h
  obtain ⟨_, s₄, hmethod, hsettle⟩ := ok_bind.mp h
  obtain ⟨_, rfl⟩ := ok_ofExcept.mp hvalid
  obtain ⟨hquota, rfl⟩ := ok_orThrow.mp hconv
  obtain ⟨hpos, rfl⟩ := ok_require.mp hreq
  obtain ⟨husers, o₁, hsame, hpending₁, hrow₁⟩ := ok_correctPaymentMethod hmem hpending hmethod
  rw [hg _ _ hgp] at hquota
  have hsole : ∀ {o : TopUp}, o.id = topUp.id → o ∈ s₄.topUps → o = o₁ := fun hid ho =>
    topUp_eq_of_id ho hrow₁.new (hid.trans hrow₁.id.symm)
  rcases ok_settlePaidTopUpTx hsettle with
    ⟨rfl, husers', o, hid, _, hrow⟩ | ⟨rfl, u, hu, huid, hroom, husers', o, hid, _, hrow⟩
  · obtain rfl := hsole hid hrow.old
    exact .reconciled s' topUp _ hno hprovider hpending (hrow₁.trans hrow)
      ⟨hsame.userId, hsame.amount, hsame.money, hsame.tradeNo, hsame.provider⟩ rfl
      (husers'.trans husers)
  · obtain rfl := hsole hid hrow.old
    rw [husers] at hu husers'
    exact .credited s' topUp _ u a p.stripeCustomer hno hprovider (.inl hpending)
      (hrow₁.trans hrow) ⟨hsame.userId, hsame.amount, hsame.money, hsame.tradeNo, hsame.provider⟩
      rfl hquota hpos hu huid hroom husers'

/-- A callback. -/
theorem effect_rechargeWith {g : Gateway} {c : Call} {no : String} (p : Payment) (s : Store)
    (hg : g.Agrees) (hno : c.tradeNo = no) (hprovider : c.provider = some g.provider) :
    Effect s p.quotaPerUnit c (rechargeWith g no p s).1 (rechargeWith g no p s).2 := by
  unfold rechargeWith
  by_cases hempty : no = ""
  · rw [if_pos hempty]
    exact .unchanged _
  · rw [if_neg hempty]
    rcases transaction_cases (rechargeTx g no p) s with ⟨b, s', hok, ht⟩ | ⟨e, ht⟩
    · rw [ht]
      unfold rechargeTx at hok
      obtain ⟨t, s₁, hget, h⟩ := ok_bind.mp hok
      obtain ⟨topUp, s₂, hfind, h⟩ := ok_bind.mp h
      obtain ⟨_, s₃, hreq, hbody⟩ := ok_bind.mp h
      obtain ⟨rfl, rfl⟩ := ok_get.mp hget
      obtain ⟨hfirst, rfl⟩ := ok_orThrow.mp hfind
      obtain ⟨hgp, rfl⟩ := ok_require.mp hreq
      obtain ⟨hmem, htrade⟩ := Table.first?_mem hfirst
      have hp : ∀ q, c.provider = some q → topUp.paymentProvider = q := by
        intro q hq
        rw [hprovider] at hq
        exact hgp.trans (Option.some.inj hq)
      unfold rechargeTopUp at hbody
      cases hs : topUp.status with
      | pending =>
          rw [hs] at hbody
          exact effect_settlePending hg hmem (htrade.trans hno.symm) hgp hp hs hbody
      | success =>
          rw [hs] at hbody
          obtain ⟨rfl, rfl⟩ := ok_pure.mp hbody
          exact .unchanged _
      | paidReconciliation =>
          rw [hs] at hbody
          obtain ⟨rfl, rfl⟩ := ok_pure.mp hbody
          exact .unchanged _
      | failed =>
          rw [hs] at hbody
          exact absurd hbody ok_throw
      | expired =>
          rw [hs] at hbody
          exact absurd hbody ok_throw
    · rw [ht]
      exact .unchanged _

/-- The closing of an unpaid order. -/
theorem effect_close (no : String) (p : PaymentProvider) (target : Closing) (q : ℚ) (s : Store) :
    Effect s q (.updatePendingTopUpStatus no p target)
      (UpdatePendingTopUpStatus no p target.status s).1
      (UpdatePendingTopUpStatus no p target.status s).2 := by
  unfold UpdatePendingTopUpStatus
  by_cases hempty : no = ""
  · rw [if_pos hempty]
    exact .unchanged _
  · rw [if_neg hempty]
    rcases transaction_cases (closeTx no p target.status) s with ⟨_, s', hok, ht⟩ | ⟨e, ht⟩
    · rw [ht]
      unfold closeTx at hok
      obtain ⟨t, s₁, hget, h⟩ := ok_bind.mp hok
      obtain ⟨topUp, s₂, hfind, h⟩ := ok_bind.mp h
      obtain ⟨_, s₃, hreq, h⟩ := ok_bind.mp h
      obtain ⟨_, s₄, hpend, hupdate⟩ := ok_bind.mp h
      obtain ⟨rfl, rfl⟩ := ok_get.mp hget
      obtain ⟨hfirst, rfl⟩ := ok_orThrow.mp hfind
      obtain ⟨hp, rfl⟩ := ok_require.mp hreq
      obtain ⟨hpending, rfl⟩ := ok_require.mp hpend
      obtain ⟨hmem, htrade⟩ := Table.first?_mem hfirst
      obtain ⟨husers, o, hid, _, hrow⟩ := ok_updateTopUp hupdate
      obtain rfl := topUp_eq_of_id hrow.old hmem hid
      refine .closed s' o target htrade ?_ hpending hrow husers
      intro r hr
      dsimp only [Call.provider] at hr
      split at hr
      · exact absurd hr (by simp)
      · next hne =>
        rw [← Option.some.inj hr]
        exact hp.resolve_left hne
    · rw [ht]
      exact .unchanged _

/-- The completion by an administrator. -/
theorem effect_manual (no : String) (now : ℤ) (q : ℚ) (s : Store) :
    Effect s q (.manualCompleteTopUp no now) (ManualCompleteTopUp no q now s).1
      (ManualCompleteTopUp no q now s).2 := by
  unfold ManualCompleteTopUp
  by_cases hempty : no = ""
  · rw [if_pos hempty]
    exact .unchanged _
  · rw [if_neg hempty]
    rcases transaction_cases (completeTx no q now) s with ⟨_, s', hok, ht⟩ | ⟨e, ht⟩
    · rw [ht]
      unfold completeTx at hok
      obtain ⟨t, s₁, hget, h⟩ := ok_bind.mp hok
      obtain ⟨topUp, s₂, hfind, h⟩ := ok_bind.mp h
      obtain ⟨rfl, rfl⟩ := ok_get.mp hget
      obtain ⟨hfirst, rfl⟩ := ok_orThrow.mp hfind
      obtain ⟨hmem, htrade⟩ := Table.first?_mem hfirst
      rcases ok_ite.mp h with ⟨_, h⟩ | ⟨_, h⟩
      · obtain ⟨_, rfl⟩ := ok_pure.mp h
        exact .unchanged _
      · unfold completeTopUp at h
        obtain ⟨_, s₃, hreq, h⟩ := ok_bind.mp h
        obtain ⟨a, s₄, hconv, h⟩ := ok_bind.mp h
        obtain ⟨_, s₅, hreq', h⟩ := ok_bind.mp h
        obtain ⟨_, s₆, hcredit, hmark⟩ := ok_bind.mp h
        obtain ⟨hstatus, rfl⟩ := ok_require.mp hreq
        obtain ⟨hquota, rfl⟩ := ok_orThrow.mp hconv
        obtain ⟨hpos, rfl⟩ := ok_require.mp hreq'
        obtain ⟨husers, o, hid, _, hrow⟩ := ok_updateTopUp hmark
        rcases exec_credit topUp.userId a none s with ⟨u, hu, huid, hroom, hexec⟩ | ⟨e, hexec⟩
        · obtain ⟨_, rfl⟩ := Prod.mk.inj (hcredit.symm.trans hexec)
          obtain rfl := topUp_eq_of_id hrow.old hmem hid
          exact .credited s' o _ u a none htrade (fun _ hp => absurd hp (by simp [Call.provider]))
            (hstatus.imp_right fun h => ⟨h, trivial⟩) hrow ⟨rfl, rfl, rfl, rfl, rfl⟩ rfl hquota
            hpos hu huid hroom husers
        · exact absurd (hcredit.symm.trans hexec) (by simp)
    · rw [ht]
      exact .unchanged _

theorem stripeGateway_agrees : stripeGateway.Agrees := by
  intro q topUp h
  unfold providerQuota
  rw [h]
  rfl

theorem epayGateway_agrees : epayGateway.Agrees := by
  intro q topUp h
  unfold providerQuota
  rw [h]
  rfl

theorem creemGateway_agrees : creemGateway.Agrees := by
  intro q topUp h
  unfold providerQuota
  rw [h]
  rfl

theorem waffoGateway_agrees : waffoGateway.Agrees := by
  intro q topUp h
  unfold providerQuota
  rw [h]
  rfl

theorem waffoPancakeGateway_agrees : waffoPancakeGateway.Agrees := by
  intro q topUp h
  unfold providerQuota
  rw [h]
  rfl

/-- Every call has one of the four effects. -/
theorem effect_call (c : Call) (q : ℚ) (s : Store) : Effect s q c (c.run q s).1 (c.run q s).2 := by
  cases c with
  | recharge no customer vs now =>
      exact effect_rechargeWith (c := .recharge no customer vs now)
        { validations := vs, quotaPerUnit := q, now, stripeCustomer := some customer } s
        stripeGateway_agrees rfl rfl
  | rechargeEpay no method vs now =>
      exact effect_rechargeWith (c := .rechargeEpay no method vs now)
        { validations := vs, quotaPerUnit := q, now, actualPaymentMethod := method } s
        epayGateway_agrees rfl rfl
  | rechargeCreem no vs now =>
      exact effect_rechargeWith (c := .rechargeCreem no vs now)
        { validations := vs, quotaPerUnit := q, now } s
        creemGateway_agrees rfl rfl
  | rechargeWaffo no vs now =>
      exact effect_rechargeWith (c := .rechargeWaffo no vs now)
        { validations := vs, quotaPerUnit := q, now } s
        waffoGateway_agrees rfl rfl
  | rechargeWaffoPancake no vs now =>
      exact effect_rechargeWith (c := .rechargeWaffoPancake no vs now)
        { validations := vs, quotaPerUnit := q, now } s
        waffoPancakeGateway_agrees rfl rfl
  | updatePendingTopUpStatus no p target => exact effect_close no p target q s
  | manualCompleteTopUp no now => exact effect_manual no now q s

/-! ### One call -/

section call

variable {s s' : Store} {q : ℚ} {c : Call} {r : Except TopUpError Unit}

/-- The pending order of the call, and no other, has been moved to reconciliation, and the wallets
are as they were. -/
def Reconciles (c : Call) (s s' : Store) : Prop :=
  s'.users = s.users ∧ ∃ o o', o.tradeNo = c.tradeNo ∧ o.status = .pending ∧
    o'.status = .paidReconciliation ∧ SameOrder o o' ∧ Replaced s.topUps s'.topUps o o'

/-- A failing call changes nothing, unless it reports that the payment needs reconciliation and
moves the order there. -/
theorem Effect.of_error (h : Effect s q c r s') {e : TopUpError} (hr : r = .error e) :
    s' = s ∨ e = .topUpNeedsReconciliation ∧ Reconciles c s s' := by
  cases h with
  | unchanged => exact .inl rfl
  | closed _ o target => exact absurd hr (by simp)
  | reconciled _ o o' hno hprovider hstatus hrow hsame hstatus' husers =>
      exact .inr ⟨(Except.error.inj hr).symm, husers, o, o', hno, hstatus, hstatus', hsame, hrow⟩
  | credited => exact absurd hr (by simp)

/-- A call for another provider than the order's changes nothing. -/
theorem Effect.of_provider (h : Effect s q c r s') {p : PaymentProvider} (hp : c.provider = some p)
    {o : TopUp} (ho : o ∈ s.topUps) (hno : o.tradeNo = c.tradeNo) (hne : o.paymentProvider ≠ p) :
    s' = s := by
  have hsole : ∀ {x : TopUp}, x ∈ s.topUps → x.tradeNo = c.tradeNo →
      (∀ p, c.provider = some p → x.paymentProvider = p) → False := by
    intro x hx hxno hxp
    obtain rfl := topUp_eq_of_tradeNo hx ho (hxno.trans hno.symm)
    exact hne (hxp p hp)
  cases h with
  | unchanged => rfl
  | closed _ x target hxno hprovider hstatus hrow husers =>
      exact (hsole hrow.old hxno hprovider).elim
  | reconciled _ x x' hxno hprovider hstatus hrow => exact (hsole hrow.old hxno hprovider).elim
  | credited _ x x' u a customer hxno hprovider hstatus hrow =>
      exact (hsole hrow.old hxno hprovider).elim

/-- No call writes an order that is credited or closed. -/
theorem Effect.keeps_final (h : Effect s q c r s') {o : TopUp} (ho : o ∈ s.topUps)
    (hp : o.status ≠ .pending) (hr : o.status ≠ .paidReconciliation) : o ∈ s'.topUps := by
  cases h with
  | unchanged => exact ho
  | closed _ x target hno hprovider hstatus hrow husers =>
      refine hrow.keeps ho ?_
      rintro rfl
      exact hp hstatus
  | reconciled _ x x' hno hprovider hstatus hrow hsame hstatus' husers =>
      refine hrow.keeps ho ?_
      rintro rfl
      exact hp hstatus
  | credited _ x x' u a customer hno hprovider hstatus hrow =>
      refine hrow.keeps ho ?_
      rintro rfl
      exact hstatus.elim hp fun h => hr h.1

/-- An order in reconciliation stays as it is until an administrator completes it. -/
theorem Effect.of_paidReconciliation (h : Effect s q c r s') {o : TopUp} (ho : o ∈ s.topUps)
    (hr : o.status = .paidReconciliation) :
    o ∈ s'.topUps ∨ c.Manual ∧ c.tradeNo = o.tradeNo ∧
      ∃ o', Replaced s.topUps s'.topUps o o' ∧ o'.status = .success := by
  cases h with
  | unchanged => exact .inl ho
  | closed _ x target hno hprovider hstatus hrow husers =>
      refine .inl (hrow.keeps ho ?_)
      rintro rfl
      exact absurd (hr.symm.trans hstatus) (by decide)
  | reconciled _ x x' hno hprovider hstatus hrow hsame hstatus' husers =>
      refine .inl (hrow.keeps ho ?_)
      rintro rfl
      exact absurd (hr.symm.trans hstatus) (by decide)
  | credited _ x x' u a customer hno hprovider hstatus hrow hsame hstatus' =>
      by_cases hox : o = x
      · subst hox
        rcases hstatus with hpending | ⟨_, hmanual⟩
        · exact absurd (hr.symm.trans hpending) (by decide)
        · exact .inr ⟨hmanual, hno.symm, x', hrow, hstatus'⟩
      · exact .inl (hrow.keeps ho hox)

/-- A call that changes a wallet credits an order of that user within the ceiling. -/
theorem Effect.wallet_le (h : Effect s q c r s') {userId : ℤ}
    (hne : walletOf s'.users userId ≠ walletOf s.users userId) :
    walletOf s'.users userId ≤ maxQuota - 1 := by
  cases h with
  | unchanged => exact absurd rfl hne
  | closed _ x target hno hprovider hstatus hrow husers =>
      rw [husers] at hne
      exact absurd rfl hne
  | reconciled _ x x' hno hprovider hstatus hrow hsame hstatus' husers =>
      rw [husers] at hne
      exact absurd rfl hne
  | credited _ x x' u a customer hno hprovider hstatus hrow hsame hstatus' hquota hpos hu hid hroom
      husers =>
      rw [husers, walletOf_credit hu hroom] at hne ⊢
      by_cases huser : userId = u.id
      · rw [if_pos huser, huser, walletOf_eq hu]
        omega
      · rw [if_neg huser, add_zero] at hne
        exact absurd rfl hne

end call

/-! ### The account of an order -/

/-- What an order has credited to a user agrees with its status. -/
structure Accounted (t : Table TopUp) (no : String) (userId : ℤ) (credits : List (ℚ × ℤ)) :
    Prop where
  /-- A successful order was credited once, to its user, by the formula of its provider. -/
  success : ∀ o ∈ t, o.tradeNo = no → o.status = .success →
    if o.userId = userId then
      ∃ q a, credits = [(q, a)] ∧ providerQuota q o = some a ∧ 0 < a
    else credits = []
  /-- Every other order was credited nothing. -/
  unpaid : ∀ o ∈ t, o.tradeNo = no → o.status ≠ .success → credits = []
  /-- So was an order that does not exist. -/
  absent : (∀ o ∈ t, o.tradeNo ≠ no) → credits = []

section account

variable {t t' : Table TopUp} {no : String} {userId : ℤ} {credits : List (ℚ × ℤ)} {o o' : TopUp}

/-- Replacing the order of another trade number. -/
theorem Accounted.of_other (h : Accounted t no userId credits) (hr : Replaced t t' o o')
    (ho : o.tradeNo ≠ no) (ho' : o'.tradeNo ≠ no) : Accounted t' no userId credits := by
  have hback : ∀ x ∈ t', x.tradeNo = no → x ∈ t := by
    intro x hx hxno
    rcases (hr.mem x).mp hx with rfl | ⟨hx, _⟩
    · exact absurd hxno ho'
    · exact hx
  refine ⟨fun x hx hxno => h.success x (hback x hx hxno) hxno,
    fun x hx hxno => h.unpaid x (hback x hx hxno) hxno, ?_⟩
  intro hnone
  apply h.absent
  intro x hx
  by_cases hxo : x = o
  · rw [hxo]
    exact ho
  · exact hnone x (hr.keeps hx hxo)

/-- Replacing the order by one that is not successful either. -/
theorem Accounted.of_unpaid (h : Accounted t no userId credits) (hr : Replaced t t' o o')
    (ho : o.status ≠ .success) (ho' : o'.status ≠ .success) (hno : o'.tradeNo = o.tradeNo) :
    Accounted t' no userId credits := by
  by_cases hmine : o.tradeNo = no
  · have hempty : credits = [] := h.unpaid o hr.old hmine ho
    refine ⟨?_, fun _ _ _ _ => hempty, fun _ => hempty⟩
    intro x hx hxno hxs
    rcases (hr.mem x).mp hx with rfl | ⟨hxt, hxo⟩
    · exact absurd hxs ho'
    · exact absurd (topUp_eq_of_tradeNo hxt hr.old (hxno.trans hmine.symm)) hxo
  · exact h.of_other hr hmine (hno ▸ hmine)

/-- Replacing an order that was credited nothing by a successful one, with its credit. -/
theorem Accounted.of_credited (h : Accounted t no userId credits) (hr : Replaced t t' o o')
    (ho : o.status ≠ .success) (hmine : o.tradeNo = no) (hsame : SameOrder o o')
    (hstatus' : o'.status = .success) {q : ℚ} {a : ℤ} (hquota : providerQuota q o = some a)
    (hpos : 0 < a) :
    Accounted t' no userId (credits ++ if o.userId = userId then [(q, a)] else []) := by
  have hempty : credits = [] := h.unpaid o hr.old hmine ho
  have hsole : ∀ x ∈ t', x.tradeNo = no → x = o' := by
    intro x hx hxno
    rcases (hr.mem x).mp hx with hxo | ⟨hxt, hxo⟩
    · exact hxo
    · exact absurd (topUp_eq_of_tradeNo hxt hr.old (hxno.trans hmine.symm)) hxo
  rw [hempty, List.nil_append]
  refine ⟨?_, ?_, ?_⟩
  · intro x hx hxno _
    rw [hsole x hx hxno, hsame.userId]
    by_cases huser : o.userId = userId
    · rw [if_pos huser, if_pos huser]
      exact ⟨q, a, rfl, (hsame.providerQuota_eq q).trans hquota, hpos⟩
    · rw [if_neg huser, if_neg huser]
  · intro x hx hxno hxs
    rw [hsole x hx hxno] at hxs
    exact absurd hstatus' hxs
  · intro hnone
    exact absurd (hsame.tradeNo.trans hmine) (hnone o' hr.new)

/-- A new order is unpaid. -/
theorem Accounted.of_insert (h : Accounted t no userId credits) (topUp : TopUp) :
    Accounted (insertTopUp t topUp) no userId credits := by
  unfold insertTopUp
  by_cases hclash : ∃ x ∈ t, Keyed.Clash (Keyed.key x)
      (Keyed.key { topUp with id := t.nextID (·.id), status := .pending })
  · obtain ⟨x, hx, hc⟩ := hclash
    rw [Table.insert_of_clash hx hc]
    exact h
  · have hfree : ∀ x ∈ t, ¬ Keyed.Clash (Keyed.key x)
        (Keyed.key { topUp with id := t.nextID (·.id), status := .pending }) :=
      fun x hx hc => hclash ⟨x, hx, hc⟩
    refine ⟨?_, ?_, ?_⟩
    · intro x hx hxno hxs
      rcases Table.mem_insert hx with hx | ⟨rfl, _⟩
      · exact h.success x hx hxno hxs
      · exact absurd hxs (by simp)
    · intro x hx hxno hxs
      rcases Table.mem_insert hx with hx | ⟨rfl, _⟩
      · exact h.unpaid x hx hxno hxs
      · exact h.absent fun y hy hyno => hfree y hy (.inr (hyno.trans hxno.symm))
    · intro hnone
      exact h.absent fun x hx => hnone x (Table.mem_insert_of_mem hx)

end account

/-! ### Runs -/

theorem creditOf_of_not_names {no : String} {userId : ℤ} {w : World} {op : Op}
    (h : ¬ op.Names no) : creditOf no userId w op = [] := if_neg fun hn => h hn.1

theorem creditOf_of_gain_zero {no : String} {userId : ℤ} {w : World} {op : Op}
    (h : gain w op userId = 0) : creditOf no userId w op = [] := if_neg fun hn => hn.2 h

theorem gain_call {w : World} {c : Call} {userId : ℤ} {users : Table User}
    (h : (c.run w.quotaPerUnit w.store).2.users = users) :
    gain w (.call c) userId = walletOf users userId - walletOf w.store.users userId := by
  rw [← h]
  rfl

theorem gain_eq_zero {w : World} {c : Call} {userId : ℤ}
    (h : (c.run w.quotaPerUnit w.store).2.users = w.store.users) :
    gain w (.call c) userId = 0 := by
  rw [gain_call h, sub_self]

/-- One operation keeps the account of an order, extended by what the operation credited. -/
theorem step_accounted {w : World} {no : String} {userId : ℤ} {credits : List (ℚ × ℤ)}
    (h : Accounted w.store.topUps no userId credits) (op : Op) :
    Accounted (step w op).store.topUps no userId (credits ++ creditOf no userId w op) := by
  cases op with
  | insertTopUp topUp =>
      rw [creditOf_of_not_names id, List.append_nil]
      exact h.of_insert topUp
  | setQuotaPerUnit q =>
      rw [creditOf_of_not_names id, List.append_nil]
      exact h
  | writeQuota user quota =>
      rw [creditOf_of_not_names id, List.append_nil]
      exact h
  | insertUser user =>
      rw [creditOf_of_not_names id, List.append_nil]
      exact h
  | deleteUser user =>
      rw [creditOf_of_not_names id, List.append_nil]
      exact h
  | call c =>
      show Accounted (c.run w.quotaPerUnit w.store).2.topUps no userId _
      have heffect := effect_call c w.quotaPerUnit w.store
      generalize hr : (c.run w.quotaPerUnit w.store).1 = r at heffect
      generalize hs : (c.run w.quotaPerUnit w.store).2 = s' at heffect
      cases heffect with
      | unchanged =>
          rw [creditOf_of_gain_zero (gain_eq_zero (congrArg Store.users hs)), List.append_nil]
          exact h
      | closed _ o target hno hprovider hstatus hrow husers =>
          have husers' : (c.run w.quotaPerUnit w.store).2.users = w.store.users := hs ▸ husers
          rw [creditOf_of_gain_zero (gain_eq_zero husers'), List.append_nil]
          refine h.of_unpaid hrow ?_ ?_ rfl
          · rw [hstatus]
            decide
          · cases target with
            | failed => exact fun h => nomatch h
            | expired => exact fun h => nomatch h
      | reconciled _ o o' hno hprovider hstatus hrow hsame hstatus' husers =>
          have husers' : (c.run w.quotaPerUnit w.store).2.users = w.store.users := hs ▸ husers
          rw [creditOf_of_gain_zero (gain_eq_zero husers'), List.append_nil]
          refine h.of_unpaid hrow ?_ ?_ hsame.tradeNo
          · rw [hstatus]
            decide
          · rw [hstatus']
            decide
      | credited _ o o' u a customer hno hprovider hstatus hrow hsame hstatus' hquota hpos hu hid
          hroom husers =>
          have hunpaid : o.status ≠ .success := by
            rcases hstatus with hs | ⟨hs, _⟩
            · rw [hs]
              decide
            · rw [hs]
              decide
          by_cases hmine : o.tradeNo = no
          · have hgain : gain w (.call c) userId = if userId = u.id then a else 0 := by
              rw [gain_call (congrArg Store.users hs), husers, walletOf_credit hu hroom]
              omega
            have hcredit : creditOf no userId w (.call c) =
                if o.userId = userId then [(w.quotaPerUnit, a)] else [] := by
              by_cases huser : userId = u.id
              · rw [if_pos huser] at hgain
                rw [if_pos (hid.symm.trans huser.symm)]
                unfold creditOf
                rw [hgain, if_pos ⟨hno.symm.trans hmine, by omega⟩]
              · rw [if_neg huser] at hgain
                rw [if_neg fun h => huser (h.symm.trans hid.symm)]
                exact creditOf_of_gain_zero hgain
            rw [hcredit]
            exact h.of_credited hrow hunpaid hmine hsame hstatus' hquota hpos
          · have hnames : ¬ (Op.call c).Names no := fun hn => hmine (hno.trans hn)
            rw [creditOf_of_not_names hnames, List.append_nil]
            exact h.of_other hrow hmine (hsame.tradeNo ▸ hmine)

theorem runs_accounted {no : String} {userId : ℤ} :
    ∀ (ops : List Op) (w : World) (credits : List (ℚ × ℤ)),
      Accounted w.store.topUps no userId credits →
        Accounted (runs w ops).store.topUps no userId (credits ++ creditsOf no userId w ops)
  | [], w, credits, h => by
      unfold creditsOf
      rw [List.append_nil]
      exact h
  | op :: ops, w, credits, h => by
      have hnext := runs_accounted ops (step w op) _ (step_accounted h op)
      unfold creditsOf
      rw [← List.append_assoc]
      exact hnext

/-- A credited or closed order is never written again. -/
theorem runs_keeps_final {o : TopUp} (hp : o.status ≠ .pending)
    (hr : o.status ≠ .paidReconciliation) (ops : List Op) (w : World) (ho : o ∈ w.store.topUps) :
    o ∈ (runs w ops).store.topUps := by
  refine Transition.run_invariant step (I := fun w => o ∈ w.store.topUps) ?_ ops w ho
  intro v op hv
  cases op with
  | call c => exact (effect_call c v.quotaPerUnit v.store).keeps_final hv hp hr
  | insertTopUp topUp => exact Table.mem_insert_of_mem hv
  | setQuotaPerUnit q => exact hv
  | writeQuota user quota => exact hv
  | insertUser user => exact hv
  | deleteUser user => exact hv

/-- Only an administrator moves an order out of reconciliation, and then to success. -/
theorem step_paidReconciliation {w : World} {o : TopUp} (ho : o ∈ w.store.topUps)
    (hr : o.status = .paidReconciliation) (op : Op) :
    o ∈ (step w op).store.topUps ∨
      (∃ now, op = .call (.manualCompleteTopUp o.tradeNo now)) ∧
        ∃ o', Replaced w.store.topUps (step w op).store.topUps o o' ∧ o'.status = .success := by
  cases op with
  | call c =>
      rcases (effect_call c w.quotaPerUnit w.store).of_paidReconciliation ho hr with
        h | ⟨hmanual, hno, h⟩
      · exact .inl h
      · cases c with
        | manualCompleteTopUp no now =>
            rw [← hno]
            exact .inr ⟨⟨now, rfl⟩, h⟩
        | _ => exact hmanual.elim
  | insertTopUp topUp => exact .inl (Table.mem_insert_of_mem ho)
  | setQuotaPerUnit q => exact .inl ho
  | writeQuota user quota => exact .inl ho
  | insertUser user => exact .inl ho
  | deleteUser user => exact .inl ho

/-- **A top-up order is credited once.** Along every run from a state in which the order (if it
exists) has not succeeded: a successful order has credited its user once, by the formula of its
provider at the value of `QuotaPerUnit` of that moment, and no other user; every other order has
credited nobody.  Credited and closed orders are final, an order in reconciliation leaves it only
through an administrator, a call for another provider changes nothing, a credit respects the
ceiling of the wallet, and a failing call changes nothing, except that a payment reported for
reconciliation may move the order there. -/
theorem credited_once (w : World) (ops : List Op) (no : String)
    (hunpaid : ∀ o ∈ w.store.topUps, o.tradeNo = no → o.status ≠ .success) :
    let w' := runs w ops
    (∀ userId, Accounted w'.store.topUps no userId (creditsOf no userId w ops)) ∧
    (∀ o ∈ w'.store.topUps, o.status ≠ .pending → o.status ≠ .paidReconciliation →
      ∀ later, o ∈ (runs w' later).store.topUps) ∧
    (∀ o ∈ w'.store.topUps, o.status = .paidReconciliation → ∀ op,
      o ∈ (step w' op).store.topUps ∨
        (∃ now, op = .call (.manualCompleteTopUp o.tradeNo now)) ∧
          ∃ o', Replaced w'.store.topUps (step w' op).store.topUps o o' ∧ o'.status = .success) ∧
    (∀ c : Call, ∀ o ∈ w'.store.topUps, o.tradeNo = c.tradeNo →
      ∀ p, c.provider = some p → o.paymentProvider ≠ p →
        (c.run w'.quotaPerUnit w'.store).2 = w'.store) ∧
    (∀ (c : Call) (userId : ℤ), gain w' (.call c) userId ≠ 0 →
      walletOf (step w' (.call c)).store.users userId ≤ maxQuota - 1) ∧
    (∀ (c : Call) (e : TopUpError), (c.run w'.quotaPerUnit w'.store).1 = .error e →
      (c.run w'.quotaPerUnit w'.store).2 = w'.store ∨
        e = .topUpNeedsReconciliation ∧
          Reconciles c w'.store (c.run w'.quotaPerUnit w'.store).2) := by
  intro w'
  refine ⟨?_, ?_, ?_, ?_, ?_, ?_⟩
  · intro userId
    refine runs_accounted ops w [] ⟨?_, fun _ _ _ _ => rfl, fun _ => rfl⟩
    intro o ho hno hs
    exact absurd hs (hunpaid o ho hno)
  · intro o ho hp hr later
    exact runs_keeps_final hp hr later w' ho
  · intro o ho hr op
    exact step_paidReconciliation ho hr op
  · intro c o ho hno p hp hne
    exact (effect_call c w'.quotaPerUnit w'.store).of_provider hp ho hno hne
  · intro c userId hgain
    refine (effect_call c w'.quotaPerUnit w'.store).wallet_le ?_
    intro heq
    have hzero : gain w' (.call c) userId = 0 := sub_eq_zero.mpr heq
    exact hgain hzero
  · intro c e he
    exact (effect_call c w'.quotaPerUnit w'.store).of_error he

/-! ### An order of one and a half units -/

/-- A Stripe order of 0.000003 dollars. -/
def stripePending : TopUp where
  id := 1
  userId := 1
  amount := 0
  money := 3 / 1000000
  tradeNo := "ref_1"
  paymentMethod := "stripe"
  paymentProvider := .stripe
  createTime := 0
  completeTime := 0
  status := .pending

/-- The order after it was paid at time 10. -/
def stripePaid : TopUp := { stripePending with completeTime := 10, status := .success }

/-- The order and a user with an empty wallet, at 500000 units a dollar. -/
def stripeOrder : World where
  store :=
    { users := Table.empty.insert { id := 1, quota := 0, stripeCustomer := "" },
      topUps := Table.empty.insert stripePending }
  quotaPerUnit := 500000

/-- The webhook of the payment, delivered twice. -/
def paidTwice : List Op :=
  [.call (.recharge "ref_1" "cus_1" [] 10), .call (.recharge "ref_1" "cus_1" [] 11)]

theorem stripeOrder_unpaid :
    ∀ o ∈ stripeOrder.store.topUps, o.tradeNo = "ref_1" → o.status ≠ .success := by
  intro o ho _
  rw [List.mem_singleton.mp ho]
  decide

theorem credited_once_stripeOrder :
    Accounted (runs stripeOrder paidTwice).store.topUps "ref_1" 1
        (creditsOf "ref_1" 1 stripeOrder paidTwice) ∧
      creditsOf "ref_1" 1 stripeOrder paidTwice = [(500000, 2)] :=
  ⟨(credited_once stripeOrder paidTwice "ref_1" stripeOrder_unpaid).1 1, by decide +kernel⟩

/-- The same order and a wallet that is full. -/
def fullWallet : World :=
  runs stripeOrder [.writeQuota 1 (maxQuota - 1)]

/-- The conversion rounds: the order of one and a half units is credited two, which a truncation
would not do.  And the callback of a payment that does not fit fails after it has moved the order
to reconciliation. -/
theorem credit_rounds_and_reconciles :
    (¬ ∀ (w : World) (ops : List Op) (no : String) (userId : ℤ) (q : ℚ) (a : ℤ),
      (∀ o ∈ w.store.topUps, o.tradeNo = no → o.status ≠ .success) →
        (q, a) ∈ creditsOf no userId w ops →
          ∀ o ∈ (runs w ops).store.topUps, o.tradeNo = no → o.paymentProvider = .stripe →
            a = ⌊o.money * q⌋) ∧
    ¬ ∀ (w : World) (c : Call) (e : TopUpError), (c.run w.quotaPerUnit w.store).1 = .error e →
      (c.run w.quotaPerUnit w.store).2 = w.store := by
  constructor
  · intro h
    have hcredit : (500000, 2) ∈ creditsOf "ref_1" 1 stripeOrder paidTwice := by decide +kernel
    have hrow : stripePaid ∈ (runs stripeOrder paidTwice).store.topUps.rows := by decide +kernel
    have htwo := h stripeOrder paidTwice "ref_1" 1 500000 2 stripeOrder_unpaid hcredit stripePaid
      hrow rfl rfl
    exact absurd htwo (by decide +kernel)
  · intro h
    have hsame := h fullWallet (.recharge "ref_1" "cus_1" [] 10) .topUpNeedsReconciliation
      (by decide +kernel)
    have hrows := congrArg (fun s : Store => s.topUps.rows.map (·.status)) hsame
    exact absurd hrows (by decide +kernel)

end MaxApi.TopUps
