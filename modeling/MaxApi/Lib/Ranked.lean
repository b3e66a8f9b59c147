import Mathlib.Algebra.BigOperators.Group.List.Basic
import Mathlib.Algebra.Ring.Nat
import Mathlib.Data.List.Dedup
import Mathlib.Data.List.Sort

/-! # Ranks and draws

Selections that first rank the candidates and then draw among those of one rank.  `levels` are the
distinct ranks, in descending order, and `levelAt l n` is the one with index `n`, or the last.
`draw` picks the element in whose share of the sum of the weights a number falls. -/

namespace Ranked

/-! ### Levels -/

/-- The distinct values, in descending order. -/
def levels (l : List ℤ) : List ℤ := l.dedup.insertionSort (· ≥ ·)

theorem mem_levels {l : List ℤ} {p : ℤ} : p ∈ levels l ↔ p ∈ l := by
  unfold levels
  rw [List.mem_insertionSort, List.mem_dedup]

theorem levels_pairwise (l : List ℤ) : (levels l).Pairwise (· > ·) := by
  have hge : (levels l).Pairwise (· ≥ ·) := List.pairwise_insertionSort _ _
  have hne : (levels l).Pairwise (· ≠ ·) :=
    ((List.perm_insertionSort _ _).nodup_iff).mpr (List.nodup_dedup l)
  exact (hge.and hne).imp fun ⟨hab, hab'⟩ => lt_of_le_of_ne hab hab'.symm

/-- Levels depend only on which values there are. -/
theorem levels_congr {l l' : List ℤ} (h : ∀ p, p ∈ l ↔ p ∈ l') : levels l = levels l' := by
  have hperm : (levels l).Perm (levels l') := by
    rw [List.perm_ext_iff_of_nodup]
    · intro p
      rw [mem_levels, mem_levels]
      exact h p
    · exact (levels_pairwise l).imp fun hab => (ne_of_gt hab)
    · exact (levels_pairwise l').imp fun hab => (ne_of_gt hab)
  exact hperm.eq_of_pairwise (fun a b _ _ hab hba => absurd hab (not_lt_of_gt hba))
    (levels_pairwise l) (levels_pairwise l')

theorem levels_eq_nil {l : List ℤ} : levels l = [] ↔ l = [] := by
  rw [List.eq_nil_iff_forall_not_mem, List.eq_nil_iff_forall_not_mem]
  exact forall_congr' fun p => not_congr mem_levels

/-- The level with index `n`, or the last one. -/
def levelAt (l : List ℤ) (n : ℕ) : Option ℤ := (levels l)[min n ((levels l).length - 1)]?

theorem levelAt_congr {l l' : List ℤ} (h : ∀ p, p ∈ l ↔ p ∈ l') (n : ℕ) :
    levelAt l n = levelAt l' n := by
  unfold levelAt
  rw [levels_congr h]

theorem levelAt_eq_none {l : List ℤ} {n : ℕ} : levelAt l n = none ↔ l = [] := by
  unfold levelAt
  rw [List.getElem?_eq_none_iff, ← levels_eq_nil, ← List.length_eq_zero_iff]
  omega

theorem levelAt_mem {l : List ℤ} {n : ℕ} {p : ℤ} (h : levelAt l n = some p) : p ∈ l :=
  mem_levels.mp (List.mem_of_getElem? h)

/-- The first level is the largest value. -/
theorem levelAt_zero (l : List ℤ) : levelAt l 0 = l.max? := by
  cases h : levelAt l 0 with
  | none =>
      rw [levelAt_eq_none.mp h]
      rfl
  | some p =>
      symm
      rw [List.max?_eq_some_iff]
      refine ⟨levelAt_mem h, fun b hb => ?_⟩
      unfold levelAt at h
      rw [Nat.zero_min] at h
      cases hl : levels l with
      | nil =>
          rw [hl] at h
          cases h
      | cons a as =>
          rw [hl] at h
          obtain rfl : a = p := Option.some.inj h
          have hb' : b ∈ a :: as := by
            rw [← hl]
            exact mem_levels.mpr hb
          have hpair := levels_pairwise l
          rw [hl] at hpair
          rcases List.mem_cons.mp hb' with rfl | hb'
          · exact le_rfl
          · exact le_of_lt ((List.pairwise_cons.mp hpair).1 b hb')

/-- With one level there is no choice. -/
theorem levelAt_of_forall {l : List ℤ} {p : ℤ} (hne : l ≠ []) (h : ∀ q ∈ l, q = p) (n : ℕ) :
    levelAt l n = some p := by
  cases hl : levelAt l n with
  | none => exact absurd (levelAt_eq_none.mp hl) hne
  | some q => rw [h q (levelAt_mem hl)]

/-- In a descending list, larger values come earlier. -/
theorem index_lt {l : List ℤ} (hl : l.Pairwise (· > ·)) {i m : ℕ} {p q : ℤ} (hp : l[i]? = some p)
    (hq : l[m]? = some q) (hlt : q < p) : i < m := by
  obtain ⟨hi, hpi⟩ := List.getElem?_eq_some_iff.mp hp
  obtain ⟨hm, hqm⟩ := List.getElem?_eq_some_iff.mp hq
  by_contra hnot
  rcases Nat.lt_or_eq_of_le (Nat.le_of_not_lt hnot) with hmi | hmi
  · have hgt := List.pairwise_iff_getElem.mp hl m i hm hi hmi
    omega
  · subst hmi
    omega

theorem mem_take {l : List ℤ} {i n : ℕ} {p : ℤ} (hp : l[i]? = some p) (hi : i < n) :
    p ∈ l.take n := by
  refine List.mem_of_getElem? (i := i) ?_
  rw [List.getElem?_take, if_pos hi]
  exact hp

/-- The levels above the one with index `n` are among the first. -/
theorem mem_take_of_lt {l : List ℤ} {n : ℕ} {p q : ℤ} (h : levelAt l n = some q) (hp : p ∈ l)
    (hlt : q < p) : p ∈ (levels l).take (min n ((levels l).length - 1)) := by
  obtain ⟨i, hi⟩ := List.mem_iff_getElem?.mp (mem_levels.mpr hp)
  exact mem_take hi (index_lt (levels_pairwise l) hi h hlt)

/-- A level below the one with index `n` is not among the first `n + 1`, nor in a larger list. -/
theorem not_mem_take_of_lt {e l : List ℤ} (hsub : ∀ p ∈ l, p ∈ e) {n : ℕ} {p q : ℤ}
    (h : levelAt l n = some q) (hp : p ∈ l) (hlt : p < q) : p ∉ (levels e).take (n + 1) := by
  intro hmem
  obtain ⟨i, hi⟩ := List.mem_iff_getElem?.mp (mem_levels.mpr hp)
  have hmi := index_lt (levels_pairwise l) h hi hlt
  have hilen := (List.getElem?_eq_some_iff.mp hi).1
  have hni : n < i := by omega
  obtain ⟨j, hj⟩ := List.mem_iff_getElem?.mp hmem
  rw [List.getElem?_take] at hj
  split at hj
  · next hjn =>
    -- the values above `p` are all in the larger list, before `p`
    have habove : (levels l).take i ⊆ (levels e).take j := by
      intro x hx
      obtain ⟨k, hk⟩ := List.mem_iff_getElem?.mp hx
      rw [List.getElem?_take] at hk
      split at hk
      · next hki =>
        obtain ⟨hklen, hkx⟩ := List.getElem?_eq_some_iff.mp hk
        obtain ⟨_, hip⟩ := List.getElem?_eq_some_iff.mp hi
        have hpx : p < x := by
          have hgt := List.pairwise_iff_getElem.mp (levels_pairwise l) k i hklen hilen hki
          omega
        have hxe : x ∈ e := hsub x (mem_levels.mp (List.mem_of_getElem? hk))
        obtain ⟨m, hm⟩ := List.mem_iff_getElem?.mp (mem_levels.mpr hxe)
        exact mem_take hm (index_lt (levels_pairwise e) hm hj hpx)
      · cases hk
    have hnd : ((levels l).take i).Nodup :=
      ((levels_pairwise l).imp fun hab => ne_of_gt hab).sublist (List.take_sublist i _)
    have hle := (List.subperm_of_subset hnd habove).length_le
    rw [List.length_take, List.length_take] at hle
    omega
  · cases hj

/-! ### Draws -/

variable {α : Type} {weight : α → ℕ}

/-- The element in whose share of the weights the number falls. -/
def draw (weight : α → ℕ) : List α → ℕ → Option α
  | [], _ => none
  | a :: l, n => if n < weight a then some a else draw weight l (n - weight a)

theorem draw_mem : ∀ {l : List α} {n : ℕ} {a : α}, draw weight l n = some a → a ∈ l
  | b :: l, n, a, h => by
      unfold draw at h
      split at h
      · rw [Option.some.inj h]
        exact List.mem_cons_self
      · exact List.mem_cons_of_mem b (draw_mem h)

/-- A number below the sum of the weights falls into the share of an element. -/
theorem draw_isSome : ∀ {l : List α} {n : ℕ}, n < (l.map weight).sum → (draw weight l n).isSome
  | [], n, h => absurd h (Nat.not_lt_zero n)
  | a :: l, n, h => by
      rw [List.map_cons, List.sum_cons] at h
      unfold draw
      split
      · rfl
      · exact draw_isSome (by omega)

/-- An element of positive weight has a share. -/
theorem exists_draw : ∀ {l : List α} {a : α}, a ∈ l → 0 < weight a →
    ∃ n, n < (l.map weight).sum ∧ draw weight l n = some a
  | b :: l, a, h, hpos => by
      rw [List.map_cons, List.sum_cons]
      by_cases hb : b = a
      · refine ⟨0, ?_, ?_⟩
        · rw [hb]
          omega
        · unfold draw
          rw [hb, if_pos hpos]
      · obtain ⟨n, hn, hdraw⟩ :=
          exists_draw (List.mem_of_ne_of_mem (fun hab => hb hab.symm) h) hpos
        refine ⟨weight b + n, by omega, ?_⟩
        unfold draw
        rw [if_neg (by omega), Nat.add_sub_cancel_left]
        exact hdraw

end Ranked
