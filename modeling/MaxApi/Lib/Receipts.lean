import Mathlib.Algebra.BigOperators.Group.List.Lemmas
import Mathlib.Tactic.Abel

/-! # Amounts that are added once for a receipt

Amounts wait, in memory or in a journal, until they are added to the total of a key.  A receipt
that is written together with the addition makes a repeated attempt a no-op.  What is still due is
`outstanding`: the amounts whose receipt does not exist yet.  The total of a key plus what is
outstanding for it is conserved as long as an amount whose receipt appears has been added, and no
amount joins a receipt that exists. -/

namespace Receipts

variable {ρ κ M : Type} [AddCommGroup M] [DecidableEq κ]

/-- An amount that waits for the total of `key`, under `receipt`. -/
structure Waiting (ρ κ M : Type) where
  receipt : ρ
  key : κ
  amount : M

/-- What an amount adds to the total of `k` once it is committed. -/
def due (done : ρ → Prop) [DecidablePred done] (k : κ) (w : Waiting ρ κ M) : M :=
  if done w.receipt then 0 else if w.key = k then w.amount else 0

/-- What a list of amounts still adds to the total of `k`. -/
def outstanding (done : ρ → Prop) [DecidablePred done] (k : κ) (l : List (Waiting ρ κ M)) : M :=
  (l.map (due done k)).sum

section outstanding

variable {done done' : ρ → Prop} [DecidablePred done] [DecidablePred done'] {k : κ}
variable {l l' : List (Waiting ρ κ M)} {w : Waiting ρ κ M}

@[simp] theorem outstanding_nil : outstanding done k ([] : List (Waiting ρ κ M)) = 0 := rfl

@[simp] theorem outstanding_cons :
    outstanding done k (w :: l) = due done k w + outstanding done k l := by
  unfold outstanding
  rw [List.map_cons, List.sum_cons]

@[simp] theorem outstanding_append :
    outstanding done k (l ++ l') = outstanding done k l + outstanding done k l' := by
  unfold outstanding
  rw [List.map_append, List.sum_append]

@[simp] theorem due_zero {r : ρ} {k' : κ} : due done k ⟨r, k', (0 : M)⟩ = 0 := by
  unfold due
  split_ifs
  · rfl
  · rfl
  · rfl

theorem due_of_done (h : done w.receipt) : due done k w = 0 := if_pos h

theorem due_add {r : ρ} {k' : κ} {a b : M} :
    due done k ⟨r, k', a + b⟩ = due done k ⟨r, k', a⟩ + due done k ⟨r, k', b⟩ := by
  unfold due
  dsimp only
  split_ifs
  · rw [add_zero]
  · rfl
  · rw [add_zero]

/-- Replacing one amount moves what is outstanding by the difference. -/
theorem outstanding_set {i : ℕ} {v : Waiting ρ κ M} (h : l[i]? = some w) :
    outstanding done k (l.set i v) = outstanding done k l - due done k w + due done k v := by
  obtain ⟨hi, hw⟩ := List.getElem?_eq_some_iff.mp h
  unfold outstanding
  rw [List.map_set, List.sum_set', dif_pos (by rw [List.length_map]; exact hi),
    List.getElem_map, hw]
  abel

theorem outstanding_eq_zero (h : ∀ w ∈ l, due done k w = 0) : outstanding done k l = 0 := by
  unfold outstanding
  refine List.sum_eq_zero fun a ha => ?_
  obtain ⟨w, hw, rfl⟩ := List.mem_map.mp ha
  exact h w hw

/-- Nothing is outstanding for a key no amount waits for. -/
theorem outstanding_of_not_mem (h : k ∉ l.map (·.key)) : outstanding done k l = 0 := by
  refine outstanding_eq_zero fun w hw => ?_
  unfold due
  have hne : w.key ≠ k := fun hk => h (hk ▸ List.mem_map_of_mem hw)
  split_ifs
  · rfl
  · rfl

/-- A receipt matters only to the amounts that wait under it. -/
theorem outstanding_congr (h : ∀ w ∈ l, w.amount = 0 ∨ (done w.receipt ↔ done' w.receipt)) :
    outstanding done k l = outstanding done' k l := by
  unfold outstanding
  congr 1
  refine List.map_congr_left fun w hw => ?_
  rcases h w hw with h0 | hiff
  · obtain ⟨r, k', a⟩ := w
    obtain rfl : a = 0 := h0
    rw [due_zero, due_zero]
  · unfold due
    by_cases hd : done w.receipt
    · rw [if_pos hd, if_pos (hiff.mp hd)]
    · rw [if_neg hd, if_neg fun h => hd (hiff.mpr h)]

theorem outstanding_perm (h : l.Perm l') : outstanding done k l = outstanding done k l' := by
  unfold outstanding
  exact (h.map (due done k)).sum_eq

/-- An amount is added to the total of its key and its receipt appears, while nothing else waits
under it: what is outstanding goes down by the amount. -/
theorem outstanding_commit (hnew : ¬ done w.receipt)
    (hdone : ∀ r, done' r ↔ done r ∨ w.receipt = r)
    (halone : ∀ v ∈ l, v.receipt = w.receipt → v.amount = 0) :
    outstanding done k (w :: l) = outstanding done' k l + if w.key = k then w.amount else 0 := by
  have hothers : outstanding done k l = outstanding done' k l := by
    refine outstanding_congr fun v hv => ?_
    by_cases hreceipt : v.receipt = w.receipt
    · exact .inl (halone v hv hreceipt)
    · right
      rw [hdone]
      exact ⟨.inl, fun hor => hor.resolve_right fun heq => hreceipt heq.symm⟩
  have hdue : due done k w = if w.key = k then w.amount else 0 := if_neg hnew
  rw [outstanding_cons, hothers, hdue]
  abel

/-- Some of the amounts are discarded. -/
theorem outstanding_discard {α : Type} {p : α → Prop} [DecidablePred p]
    {g g' : α → Waiting ρ κ M} (hgone : ∀ a, p a → due done k (g' a) = 0)
    (hkept : ∀ a, ¬ p a → g' a = g a) :
    ∀ l : List α, outstanding done k (l.map g') + outstanding done k ((l.filter p).map g) =
      outstanding done k (l.map g)
  | [] => add_zero 0
  | a :: l => by
      have ih := outstanding_discard hgone hkept l
      rw [List.map_cons, List.map_cons, outstanding_cons, outstanding_cons, ← ih]
      by_cases hp : p a
      · rw [List.filter_cons_of_pos (by simpa using hp), List.map_cons, outstanding_cons,
          hgone a hp]
        abel
      · rw [List.filter_cons_of_neg (by simpa using hp), hkept a hp]
        abel

end outstanding

end Receipts
