import MaxApi.Lib.Txn

/-! # Two runs of a body

`Txn.Commutes f x` says that the body `x` neither looks at nor touches what `f` changes in the
store.  `Txn.Agrees R x y s t` compares the run of `x` from `s` with the run of `y` from `t`: they
return the same, and end in stores that `R` relates.  Both are proved along the statements of a
body, and a body that commutes agrees with itself on stores that differ by `f`. -/

namespace Relational.Txn

variable {σ ε α β : Type}

/-! ### Bodies that do not see a change of the store -/

/-- The body returns the same and does the same on a store that `f` has changed. -/
def Commutes (f : σ → σ) (x : Txn σ ε α) : Prop :=
  ∀ s, x.exec (f s) = ((x.exec s).1, f (x.exec s).2)

section commutes

variable {f : σ → σ}

@[simp] theorem commutes_pure (a : α) : Commutes f (pure a : Txn σ ε α) := fun _ => rfl

@[simp] theorem commutes_throw (e : ε) : Commutes f (throw e : Txn σ ε α) := fun _ => rfl

theorem commutes_bind {x : Txn σ ε α} {g : α → Txn σ ε β} (hx : Commutes f x)
    (hg : ∀ a, Commutes f (g a)) : Commutes f (x >>= g) := by
  intro s
  rw [exec_bind, exec_bind, hx s]
  rcases x.exec s with ⟨r, t⟩
  cases r with
  | ok a => exact hg a t
  | error e => rfl

/-- What follows a read must not tell the changed store from the other one. -/
theorem commutes_get {g : σ → Txn σ ε β} (hsame : ∀ s, g (f s) = g s)
    (hg : ∀ s, Commutes f (g s)) : Commutes f (get >>= g) := by
  intro s
  rw [exec_bind, exec_bind, exec_get, exec_get]
  dsimp only
  rw [hsame]
  exact hg s s

theorem commutes_modify {g : σ → σ} (h : ∀ s, g (f s) = f (g s)) :
    Commutes f (modify g : Txn σ ε PUnit) := by
  intro s
  rw [exec_modify, exec_modify, h]

@[simp] theorem commutes_require {p : Prop} [Decidable p] (e : ε) :
    Commutes f (require p e : Txn σ ε Unit) := by
  unfold require
  split <;> simp

@[simp] theorem commutes_orThrow (o : Option α) (e : ε) :
    Commutes f (orThrow o e : Txn σ ε α) := by
  cases o <;> simp [orThrow]

@[simp] theorem commutes_ofExcept (r : Except ε α) : Commutes f (ofExcept r : Txn σ ε α) := by
  cases r <;> simp [ofExcept]

theorem commutes_ite {p : Prop} [Decidable p] {x y : Txn σ ε α} (hx : Commutes f x)
    (hy : Commutes f y) : Commutes f (if p then x else y) := by
  split
  · exact hx
  · exact hy

theorem commutes_mapError {x : Txn σ ε α} {m : ε → ε} (hx : Commutes f x) :
    Commutes f (tryCatch x fun e => throw (m e)) := by
  intro s
  rw [exec_mapError, exec_mapError, hx s]
  rcases x.exec s with ⟨r, t⟩
  cases r <;> rfl

theorem commutes_recover {x : Txn σ ε α} {p : ε → Prop} [DecidablePred p] (hx : Commutes f x) :
    Commutes f (recover x p) := by
  intro s
  rw [exec_recover, exec_recover, hx s]
  rcases x.exec s with ⟨r, t⟩
  cases r with
  | ok a => rfl
  | error e =>
      dsimp only
      split
      · rfl
      · rfl

/-- The bracket of a body that does not see the change does not see it either. -/
theorem Commutes.transaction {x : Txn σ ε α} (hx : Commutes f x) (s : σ) :
    Relational.transaction x (f s) =
      ((Relational.transaction x s).1, f (Relational.transaction x s).2) := by
  unfold Relational.transaction
  rw [hx s]
  rcases x.exec s with ⟨r, t⟩
  cases r <;> rfl

end commutes

/-! ### Bodies that agree -/

/-- The runs return the same and end in related stores. -/
def Agrees (R : σ → σ → Prop) (x y : Txn σ ε α) (s t : σ) : Prop :=
  (x.exec s).1 = (y.exec t).1 ∧ R (x.exec s).2 (y.exec t).2

section agrees

variable {R : σ → σ → Prop} {s t : σ}

theorem agrees_pure (a : α) (h : R s t) : Agrees R (pure a : Txn σ ε α) (pure a) s t := ⟨rfl, h⟩

theorem agrees_throw (e : ε) (h : R s t) : Agrees R (throw e : Txn σ ε α) (throw e) s t := ⟨rfl, h⟩

theorem agrees_bind {x y : Txn σ ε α} {g k : α → Txn σ ε β} (hx : Agrees R x y s t)
    (hg : ∀ a s' t', x.Ok s a s' → y.Ok t a t' → R s' t' → Agrees R (g a) (k a) s' t') :
    Agrees R (x >>= g) (y >>= k) s t := by
  obtain ⟨hres, hrel⟩ := hx
  unfold Agrees
  rw [exec_bind, exec_bind]
  rcases hxs : x.exec s with ⟨r, s'⟩
  rcases hyt : y.exec t with ⟨r', t'⟩
  rw [hxs, hyt] at hres hrel
  dsimp only at hres hrel
  subst hres
  cases r with
  | ok a => exact hg a s' t' hxs hyt hrel
  | error e => exact ⟨rfl, hrel⟩

theorem agrees_get {g k : σ → Txn σ ε β} (h : Agrees R (g s) (k t) s t) :
    Agrees R (get >>= g) (get >>= k) s t := by
  unfold Agrees
  rw [exec_bind, exec_bind, exec_get, exec_get]
  exact h

/-- Two lookups that find nothing, or values from which the bodies agree. -/
theorem agrees_orThrow {o p : Option α} {e : ε} {g k : α → Txn σ ε β} (hnone : o = none ↔ p = none)
    (hsome : ∀ a b, o = some a → p = some b → Agrees R (g a) (k b) s t) (h : R s t) :
    Agrees R (orThrow o e >>= g) (orThrow p e >>= k) s t := by
  cases o with
  | none =>
      rw [hnone.mp rfl]
      exact ⟨rfl, h⟩
  | some a =>
      cases p with
      | none => exact absurd (hnone.mpr rfl) (Option.some_ne_none a)
      | some b => exact hsome a b rfl rfl

theorem agrees_modify {g k : σ → σ} (h : R (g s) (k t)) :
    Agrees R (modify g : Txn σ ε PUnit) (modify k) s t := ⟨rfl, h⟩

/-- A check that both runs pass or both fail. -/
theorem agrees_require {p q : Prop} [Decidable p] [Decidable q] {e : ε} {g k : Unit → Txn σ ε β}
    (hpq : p ↔ q) (h : R s t) (hg : p → Agrees R (g ()) (k ()) s t) :
    Agrees R (require p e >>= g) (require q e >>= k) s t := by
  unfold Agrees
  rw [exec_bind, exec_bind, exec_require, exec_require]
  by_cases hp : p
  · rw [if_pos hp, if_pos (hpq.mp hp)]
    exact hg hp
  · rw [if_neg hp, if_neg fun hq => hp (hpq.mpr hq)]
    exact ⟨rfl, h⟩

/-- A check at the end of a body. -/
theorem agrees_require_end {p q : Prop} [Decidable p] [Decidable q] {e : ε} (hpq : p ↔ q)
    (h : R s t) : Agrees R (require p e : Txn σ ε Unit) (require q e) s t := by
  unfold Agrees
  rw [exec_require, exec_require]
  by_cases hp : p
  · rw [if_pos hp, if_pos (hpq.mp hp)]
    exact ⟨rfl, h⟩
  · rw [if_neg hp, if_neg fun hq => hp (hpq.mpr hq)]
    exact ⟨rfl, h⟩

theorem agrees_ofExcept {r : Except ε α} {g k : α → Txn σ ε β} (h : R s t)
    (hg : ∀ a, r = .ok a → Agrees R (g a) (k a) s t) :
    Agrees R (ofExcept r >>= g) (ofExcept r >>= k) s t := by
  cases r with
  | ok a => exact hg a rfl
  | error e => exact ⟨rfl, h⟩

theorem agrees_ite {p q : Prop} [Decidable p] [Decidable q] {x y x' y' : Txn σ ε α} (hpq : p ↔ q)
    (hx : p → Agrees R x x' s t) (hy : ¬ p → Agrees R y y' s t) :
    Agrees R (if p then x else y) (if q then x' else y') s t := by
  by_cases hp : p
  · rw [if_pos hp, if_pos (hpq.mp hp)]
    exact hx hp
  · rw [if_neg hp, if_neg fun hq => hp (hpq.mpr hq)]
    exact hy hp

/-- The brackets of bodies that agree agree. -/
theorem Agrees.transaction {x y : Txn σ ε α} (hst : R s t) (h : Agrees R x y s t) :
    (Relational.transaction x s).1 = (Relational.transaction y t).1 ∧
      R (Relational.transaction x s).2 (Relational.transaction y t).2 := by
  obtain ⟨hres, hrel⟩ := h
  unfold Relational.transaction
  rcases hxs : x.exec s with ⟨r, s'⟩
  rcases hyt : y.exec t with ⟨r', t'⟩
  rw [hxs, hyt] at hres hrel
  dsimp only at hres hrel
  subst hres
  cases r with
  | ok a => exact ⟨rfl, hrel⟩
  | error e => exact ⟨rfl, hst⟩

end agrees

end Relational.Txn
