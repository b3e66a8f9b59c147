import Mathlib.Data.List.Basic

/-! # Transactions

A body of database work is a program in `Txn σ ε`: it reads and writes a store `σ` and may stop
with an error `ε`.  What it had written when it stopped is still visible in its final store;
`transaction` is the bracket that rolls this back, so that a failing transaction leaves the store
as it found it, while a body run without the bracket commits every statement by itself.

`Txn.Ok x s a s'` says that `x`, started in `s`, returns `a` and ends in `s'`.  The `ok_` lemmas
read a successful run backwards through the statements of the body: this is how every
specification of a body below is obtained. -/

namespace Relational

/-- A body of database work over the store `σ` that may stop with an error in `ε`. -/
abbrev Txn (σ ε : Type) := ExceptT ε (StateM σ)

namespace Txn

variable {σ ε α β : Type}

/-- Run a body, each statement committing by itself. -/
def exec (x : Txn σ ε α) (s : σ) : Except ε α × σ := x.run s

/-- The body `x`, started in `s`, returns `a` and ends in `s'`. -/
def Ok (x : Txn σ ε α) (s : σ) (a : α) (s' : σ) : Prop := x.exec s = (.ok a, s')

/-- Stop with `e` unless `p` holds. -/
def require (p : Prop) [Decidable p] (e : ε) : Txn σ ε Unit := if p then pure () else throw e

/-- The value of an optional row, or stop with `e`. -/
def orThrow (o : Option α) (e : ε) : Txn σ ε α :=
  match o with
  | some a => pure a
  | none => throw e

/-- A result computed outside the store. -/
def ofExcept (r : Except ε α) : Txn σ ε α :=
  match r with
  | .ok a => pure a
  | .error e => throw e

/-- Run `x` and go on with `none` after an error that satisfies `p`; `x` is not rolled back. -/
def recover (x : Txn σ ε α) (p : ε → Prop) [DecidablePred p] : Txn σ ε (Option α) :=
  fun s => match x.exec s with
    | (.ok a, s') => (.ok (some a), s')
    | (.error e, s') => if p e then (.ok none, s') else (.error e, s')

/-! ### Runs of a body -/

theorem exec_pure (a : α) (s : σ) : (pure a : Txn σ ε α).exec s = (.ok a, s) := rfl

theorem exec_throw (e : ε) (s : σ) : (throw e : Txn σ ε α).exec s = (.error e, s) := rfl

theorem exec_bind (x : Txn σ ε α) (f : α → Txn σ ε β) (s : σ) :
    (x >>= f).exec s = match x.exec s with
      | (.ok a, s') => (f a).exec s'
      | (.error e, s') => (.error e, s') := by
  unfold exec
  show (ExceptT.bind x f) s = _
  unfold ExceptT.bind ExceptT.mk
  show (StateT.bind x _) s = _
  unfold StateT.bind
  rcases h : x s with ⟨r, s'⟩
  have h' : x.run s = (r, s') := h
  cases r <;> simp [h', ExceptT.bindCont] <;> rfl

theorem exec_get (s : σ) : (get : Txn σ ε σ).exec s = (.ok s, s) := rfl

theorem exec_modify (f : σ → σ) (s : σ) : (modify f : Txn σ ε PUnit).exec s = (.ok ⟨⟩, f s) := rfl

theorem exec_require {p : Prop} [Decidable p] (e : ε) (s : σ) :
    (require p e : Txn σ ε Unit).exec s = if p then (.ok (), s) else (.error e, s) := by
  unfold require
  split <;> rfl

theorem exec_ofExcept_ok (a : α) (s : σ) : (ofExcept (.ok a) : Txn σ ε α).exec s = (.ok a, s) :=
  rfl

/-! ### Bodies that only read -/

/-- The body writes nothing, whether it succeeds or fails. -/
def ReadOnly (x : Txn σ ε α) : Prop := ∀ s, (x.exec s).2 = s

@[simp] theorem readOnly_pure (a : α) : ReadOnly (pure a : Txn σ ε α) := fun _ => rfl

@[simp] theorem readOnly_throw (e : ε) : ReadOnly (throw e : Txn σ ε α) := fun _ => rfl

@[simp] theorem readOnly_get : ReadOnly (get : Txn σ ε σ) := fun _ => rfl

@[simp] theorem readOnly_require {p : Prop} [Decidable p] (e : ε) :
    ReadOnly (require p e : Txn σ ε Unit) := by
  unfold require
  split <;> simp

@[simp] theorem readOnly_orThrow (o : Option α) (e : ε) :
    ReadOnly (orThrow o e : Txn σ ε α) := by
  cases o <;> simp [orThrow]

@[simp] theorem readOnly_ofExcept (r : Except ε α) : ReadOnly (ofExcept r : Txn σ ε α) := by
  cases r <;> simp [ofExcept]

/-- What follows a body and only reads does not change what the body wrote. -/
theorem exec_bind_readOnly {x : Txn σ ε α} {f : α → Txn σ ε β} (hf : ∀ a, ReadOnly (f a)) (s : σ) :
    ((x >>= f).exec s).2 = (x.exec s).2 := by
  rw [exec_bind]
  rcases x.exec s with ⟨r, t⟩
  cases r with
  | ok a => exact hf a t
  | error e => rfl

@[simp] theorem readOnly_bind {x : Txn σ ε α} {f : α → Txn σ ε β} (hx : ReadOnly x)
    (hf : ∀ a, ReadOnly (f a)) : ReadOnly (x >>= f) := by
  intro s
  rw [exec_bind_readOnly hf, hx s]

/-! ### Successful runs, read backwards -/

@[simp] theorem ok_pure {a b : α} {s s' : σ} :
    (pure a : Txn σ ε α).Ok s b s' ↔ a = b ∧ s = s' := by
  simp [Ok, exec_pure]

@[simp] theorem ok_throw {e : ε} {b : α} {s s' : σ} :
    ¬ (throw e : Txn σ ε α).Ok s b s' := by
  simp [Ok, exec_throw]

@[simp] theorem ok_bind {x : Txn σ ε α} {f : α → Txn σ ε β} {s s' : σ} {b : β} :
    (x >>= f).Ok s b s' ↔ ∃ a t, x.Ok s a t ∧ (f a).Ok t b s' := by
  unfold Ok
  rw [exec_bind]
  rcases x.exec s with ⟨r, t⟩
  cases r <;> simp

@[simp] theorem ok_get {s s' t : σ} : (get : Txn σ ε σ).Ok s t s' ↔ s = t ∧ s = s' := by
  simp [Ok, exec_get]

@[simp] theorem ok_modify {f : σ → σ} {s s' : σ} {u : PUnit} :
    (modify f : Txn σ ε PUnit).Ok s u s' ↔ f s = s' := by
  simp [Ok, exec_modify]

@[simp] theorem ok_require {p : Prop} [Decidable p] {e : ε} {s s' : σ} {u : Unit} :
    (require p e : Txn σ ε Unit).Ok s u s' ↔ p ∧ s = s' := by
  unfold require
  by_cases hp : p <;> simp [hp]

@[simp] theorem ok_orThrow {o : Option α} {e : ε} {a : α} {s s' : σ} :
    (orThrow o e : Txn σ ε α).Ok s a s' ↔ o = some a ∧ s = s' := by
  cases o <;> simp [orThrow]

@[simp] theorem ok_ofExcept {r : Except ε α} {a : α} {s s' : σ} :
    (ofExcept r : Txn σ ε α).Ok s a s' ↔ r = .ok a ∧ s = s' := by
  cases r <;> simp [ofExcept]

/-- Rewriting the error of a body. -/
theorem exec_mapError (x : Txn σ ε α) (m : ε → ε) (s : σ) :
    (tryCatch x fun e => throw (m e) : Txn σ ε α).exec s =
      match x.exec s with
        | (.ok a, t) => (.ok a, t)
        | (.error e, t) => (.error (m e), t) := by
  show (ExceptT.tryCatch x _) s = _
  unfold ExceptT.tryCatch ExceptT.mk exec
  show (StateT.bind x _) s = _
  unfold StateT.bind
  rcases h : x s with ⟨r, t⟩
  have h' : x.run s = (r, t) := h
  cases r <;> simp [h'] <;> rfl

/-- Rewriting the error of a body does not change its successful runs. -/
theorem ok_mapError {x : Txn σ ε α} {f : ε → ε} {s s' : σ} {a : α} :
    (tryCatch x fun e => throw (f e) : Txn σ ε α).Ok s a s' ↔ x.Ok s a s' := by
  unfold Ok
  rw [exec_mapError]
  rcases x.exec s with ⟨r, t⟩
  cases r <;> simp

theorem exec_recover (x : Txn σ ε α) (p : ε → Prop) [DecidablePred p] (s : σ) :
    (recover x p).exec s = match x.exec s with
      | (.ok a, s') => (.ok (some a), s')
      | (.error e, s') => if p e then (.ok none, s') else (.error e, s') := rfl

theorem ok_recover {x : Txn σ ε α} {p : ε → Prop} [DecidablePred p] {s s' : σ} {o : Option α} :
    (recover x p).Ok s o s' ↔
      (∃ a, o = some a ∧ x.Ok s a s') ∨ (o = none ∧ ∃ e, p e ∧ x.exec s = (.error e, s')) := by
  unfold Ok
  rw [exec_recover]
  rcases x.exec s with ⟨r, t⟩
  cases r with
  | ok a =>
      simp only [Prod.mk.injEq, Except.ok.injEq, reduceCtorEq, false_and, and_false, exists_false,
        or_false]
      constructor
      · rintro ⟨rfl, rfl⟩
        exact ⟨a, rfl, rfl, rfl⟩
      · rintro ⟨b, rfl, rfl, rfl⟩
        exact ⟨rfl, rfl⟩
  | error e =>
      by_cases hp : p e
      · simp only [if_pos hp, Prod.mk.injEq, Except.ok.injEq, Except.error.injEq, reduceCtorEq,
          false_and, and_false, exists_false, false_or]
        constructor
        · rintro ⟨rfl, rfl⟩
          exact ⟨rfl, e, hp, rfl, rfl⟩
        · rintro ⟨rfl, _, _, _, rfl⟩
          exact ⟨rfl, rfl⟩
      · simp only [if_neg hp, Prod.mk.injEq, Except.error.injEq, reduceCtorEq, false_and,
          and_false, exists_false, false_or, false_iff]
        rintro ⟨_, e', hp', rfl, _⟩
        exact hp hp'

theorem ok_ite {p : Prop} [Decidable p] {x y : Txn σ ε α} {s s' : σ} {a : α} :
    (if p then x else y).Ok s a s' ↔ (p ∧ x.Ok s a s') ∨ (¬ p ∧ y.Ok s a s') := by
  by_cases hp : p <;> simp [hp]

/-! ### Partial correctness -/

/-- If the body succeeds, then what it returns and the store it ends in satisfy `Q`. -/
def Post (x : Txn σ ε α) (Q : α → σ → Prop) (s : σ) : Prop := ∀ a s', x.Ok s a s' → Q a s'

section post

variable {x y : Txn σ ε α} {f : α → Txn σ ε β} {Q R : α → σ → Prop} {P : β → σ → Prop} {s : σ}

theorem post_pure {a : α} (h : Q a s) : Post (pure a : Txn σ ε α) Q s := by
  intro b s' hok
  obtain ⟨rfl, rfl⟩ := ok_pure.mp hok
  exact h

theorem post_throw {e : ε} : Post (throw e : Txn σ ε α) Q s := fun _ _ h => absurd h ok_throw

theorem post_bind (h : Post x (fun a t => Post (f a) P t) s) : Post (x >>= f) P s := by
  intro b s' hok
  obtain ⟨a, t, hx, hf⟩ := ok_bind.mp hok
  exact h a t hx b s' hf

theorem post_get {f : σ → Txn σ ε β} (h : Post (f s) P s) : Post (get >>= f) P s := by
  refine post_bind fun a t hget => ?_
  obtain ⟨rfl, rfl⟩ := ok_get.mp hget
  exact h

theorem post_require {p : Prop} [Decidable p] {e : ε} {Q : Unit → σ → Prop} (h : p → Q () s) :
    Post (require p e) Q s := by
  intro _ s' hok
  obtain ⟨hp, rfl⟩ := ok_require.mp hok
  exact h hp

theorem post_orThrow {o : Option α} {e : ε} (h : ∀ a, o = some a → Q a s) :
    Post (orThrow o e) Q s := by
  intro a s' hok
  obtain ⟨ho, rfl⟩ := ok_orThrow.mp hok
  exact h a ho

theorem post_ofExcept {r : Except ε α} (h : ∀ a, r = .ok a → Q a s) : Post (ofExcept r) Q s := by
  intro a s' hok
  obtain ⟨hr, rfl⟩ := ok_ofExcept.mp hok
  exact h a hr

theorem post_modify {f : σ → σ} {Q : PUnit → σ → Prop} (h : Q ⟨⟩ (f s)) :
    Post (modify f : Txn σ ε PUnit) Q s := by
  intro _ s' hok
  obtain rfl := ok_modify.mp hok
  exact h

theorem post_ite {p : Prop} [Decidable p] (hx : p → Post x Q s) (hy : ¬ p → Post y Q s) :
    Post (if p then x else y) Q s := by
  by_cases hp : p
  · rw [if_pos hp]
    exact hx hp
  · rw [if_neg hp]
    exact hy hp

theorem post_mapError {m : ε → ε} (h : Post x Q s) :
    Post (tryCatch x fun e => throw (m e)) Q s := fun a s' hok => h a s' (ok_mapError.mp hok)

theorem Post.mono (h : Post x Q s) (hQ : ∀ a t, Q a t → R a t) : Post x R s :=
  fun a s' hok => hQ a s' (h a s' hok)

end post

end Txn

/-! ### The transaction bracket -/

section bracket

variable {σ ε α : Type}

/-- Run a body as one transaction: a failing body leaves the store as it was. -/
def transaction (x : Txn σ ε α) (s : σ) : Except ε α × σ :=
  match x.exec s with
  | (.ok a, s') => (.ok a, s')
  | (.error e, _) => (.error e, s)

theorem transaction_of_ok {x : Txn σ ε α} {s s' : σ} {a : α} (h : x.Ok s a s') :
    transaction x s = (.ok a, s') := by
  unfold transaction
  rw [show x.exec s = (.ok a, s') from h]

/-- A transaction either commits what its body wrote or changes nothing. -/
theorem transaction_cases (x : Txn σ ε α) (s : σ) :
    (∃ a s', x.Ok s a s' ∧ transaction x s = (.ok a, s')) ∨
      ∃ e, transaction x s = (.error e, s) := by
  rcases h : x.exec s with ⟨r, s'⟩
  cases r with
  | ok a => exact .inl ⟨a, s', h, transaction_of_ok h⟩
  | error e =>
      refine .inr ⟨e, ?_⟩
      unfold transaction
      rw [h]

end bracket

end Relational
