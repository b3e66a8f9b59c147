import Mathlib.Data.List.Basic
import Mathlib.Tactic.Linarith

/-! # Ranges cut out of a list

What is left of a list when ranges of its positions are cut out.  Only the set of covered positions
counts (`remaining_congr`), a list is cut part by part (`remaining_append`), and separated ranges
are cut one after the other (`remaining_separated`). -/

namespace Cuts

/-- The positions from `start` up to `stop`, without `stop`. -/
structure Range where
  start : ℕ
  stop : ℕ
  deriving DecidableEq

variable {α : Type} {rs rs' : List Range}

/-- A position in one of the ranges. -/
def Covered (rs : List Range) (i : ℕ) : Prop := ∃ r ∈ rs, r.start ≤ i ∧ i < r.stop

instance (rs : List Range) (i : ℕ) : Decidable (Covered rs i) := List.decidableBEx _ rs

/-- What is left of a list whose first element has the position `o`. -/
def remaining (rs : List Range) : ℕ → List α → List α
  | _, [] => []
  | o, a :: l => if Covered rs o then remaining rs (o + 1) l else a :: remaining rs (o + 1) l

theorem not_covered_nil (i : ℕ) : ¬ Covered [] i := by
  rintro ⟨r, hr, -⟩
  cases hr

theorem covered_append {i : ℕ} : Covered (rs ++ rs') i ↔ Covered rs i ∨ Covered rs' i := by
  constructor
  · rintro ⟨r, hr, h⟩
    rcases List.mem_append.mp hr with hl | hl
    · exact Or.inl ⟨r, hl, h⟩
    · exact Or.inr ⟨r, hl, h⟩
  · rintro (⟨r, hr, h⟩ | ⟨r, hr, h⟩)
    · exact ⟨r, List.mem_append_left _ hr, h⟩
    · exact ⟨r, List.mem_append_right _ hr, h⟩

theorem covered_singleton {r : Range} {i : ℕ} : Covered [r] i ↔ r.start ≤ i ∧ i < r.stop := by
  constructor
  · rintro ⟨r', hr, h⟩
    rw [List.mem_singleton] at hr
    rwa [hr] at h
  · intro h
    exact ⟨r, List.mem_cons_self, h⟩

theorem covered_cons {r : Range} {i : ℕ} :
    Covered (r :: rs) i ↔ (r.start ≤ i ∧ i < r.stop) ∨ Covered rs i := by
  rw [← List.singleton_append, covered_append, covered_singleton]

/-! ### Parts of a list -/

@[simp] theorem remaining_nil (o : ℕ) : remaining rs o ([] : List α) = [] := rfl

theorem remaining_covered {o : ℕ} (h : Covered rs o) (a : α) (l : List α) :
    remaining rs o (a :: l) = remaining rs (o + 1) l := if_pos h

theorem remaining_uncovered {o : ℕ} (h : ¬ Covered rs o) (a : α) (l : List α) :
    remaining rs o (a :: l) = a :: remaining rs (o + 1) l := if_neg h

theorem remaining_append (o : ℕ) (l l' : List α) :
    remaining rs o (l ++ l') = remaining rs o l ++ remaining rs (o + l.length) l' := by
  induction l generalizing o with
  | nil => rfl
  | cons a l ih =>
      have hlength : o + (a :: l).length = o + 1 + l.length := by
        rw [List.length_cons]
        omega
      rw [hlength, List.cons_append]
      by_cases h : Covered rs o
      · rw [remaining_covered h, remaining_covered h, ih]
      · rw [remaining_uncovered h, remaining_uncovered h, ih, List.cons_append]

theorem remaining_congr {o : ℕ} {l : List α}
    (h : ∀ i, o ≤ i → i < o + l.length → (Covered rs i ↔ Covered rs' i)) :
    remaining rs o l = remaining rs' o l := by
  induction l generalizing o with
  | nil => rfl
  | cons a l ih =>
      have hrest : remaining rs (o + 1) l = remaining rs' (o + 1) l := by
        apply ih
        intro i hlow hhigh
        apply h i (by omega)
        rw [List.length_cons]
        omega
      have hfirst := h o (le_refl o) (by rw [List.length_cons]; omega)
      by_cases hc : Covered rs o
      · rw [remaining_covered hc, remaining_covered (hfirst.mp hc), hrest]
      · rw [remaining_uncovered hc, remaining_uncovered (mt hfirst.mpr hc), hrest]

theorem remaining_of_covered {o : ℕ} {l : List α}
    (h : ∀ i, o ≤ i → i < o + l.length → Covered rs i) : remaining rs o l = [] := by
  induction l generalizing o with
  | nil => rfl
  | cons a l ih =>
      rw [remaining_covered (h o (le_refl o) (by rw [List.length_cons]; omega))]
      apply ih
      intro i hlow hhigh
      apply h i (by omega)
      rw [List.length_cons]
      omega

theorem covered_of_remaining {o : ℕ} {l : List α} (h : remaining rs o l = []) {i : ℕ}
    (hlow : o ≤ i) (hhigh : i < o + l.length) : Covered rs i := by
  induction l generalizing o with
  | nil =>
      rw [List.length_nil] at hhigh
      omega
  | cons a l ih =>
      by_cases hc : Covered rs o
      · rw [remaining_covered hc] at h
        rw [List.length_cons] at hhigh
        rcases Nat.eq_or_lt_of_le hlow with rfl | hlt
        · exact hc
        · exact ih h hlt (by omega)
      · rw [remaining_uncovered hc] at h
        cases h

/-- More ranges leave nothing where nothing was left. -/
theorem remaining_append_nil {o : ℕ} {l : List α} (h : remaining rs o l = []) :
    remaining (rs ++ rs') o l = [] := by
  apply remaining_of_covered
  intro i hlow hhigh
  exact covered_append.mpr (Or.inl (covered_of_remaining h hlow hhigh))

theorem remaining_no_ranges (o : ℕ) (l : List α) : remaining [] o l = l := by
  induction l generalizing o with
  | nil => rfl
  | cons a l ih =>
      rw [remaining_uncovered (not_covered_nil o), ih]

theorem remaining_of_not_covered {o : ℕ} {l : List α}
    (h : ∀ i, o ≤ i → i < o + l.length → ¬ Covered rs i) : remaining rs o l = l := by
  have hcongr : remaining rs o l = remaining [] o l := by
    apply remaining_congr
    intro i hlow hhigh
    exact iff_of_false (h i hlow hhigh) (not_covered_nil i)
  rw [hcongr, remaining_no_ranges]

/-! ### Where ranges lie -/

/-- Ranges with at least one position, from `low` up to `high`. -/
def Within (low high : ℕ) (rs : List Range) : Prop :=
  ∀ r ∈ rs, low ≤ r.start ∧ r.start < r.stop ∧ r.stop ≤ high

theorem within_nil (low high : ℕ) : Within low high [] := by
  intro r hr
  cases hr

theorem Within.append {low high : ℕ} (h : Within low high rs) (h' : Within low high rs') :
    Within low high (rs ++ rs') := by
  intro r hr
  rcases List.mem_append.mp hr with hl | hl
  · exact h r hl
  · exact h' r hl

theorem Within.mono {low high low' high' : ℕ} (h : Within low high rs) (hlow : low' ≤ low)
    (hhigh : high ≤ high') : Within low' high' rs := by
  intro r hr
  have hr := h r hr
  exact ⟨by omega, hr.2.1, by omega⟩

theorem within_singleton {low high : ℕ} {r : Range} (hlow : low ≤ r.start)
    (hr : r.start < r.stop) (hhigh : r.stop ≤ high) : Within low high [r] := by
  intro r' h
  rw [List.mem_singleton.mp h]
  exact ⟨hlow, hr, hhigh⟩

theorem Within.not_covered {low high i : ℕ} (h : Within low high rs) (hi : i < low ∨ high ≤ i) :
    ¬ Covered rs i := by
  rintro ⟨r, hr, hstart, hstop⟩
  have hr := h r hr
  omega

/-- Ranges behind a part of the list do not cut it. -/
theorem remaining_append_before {low high o : ℕ} {l : List α} (h : Within low high rs')
    (ho : o + l.length ≤ low) : remaining (rs ++ rs') o l = remaining rs o l := by
  apply remaining_congr
  intro i hlow hhigh
  rw [covered_append, or_iff_left]
  exact h.not_covered (Or.inl (by omega))

/-- Ranges in front of a part of the list do not cut it. -/
theorem remaining_append_behind {low high o : ℕ} {l : List α} (h : Within low high rs)
    (ho : high ≤ o) : remaining (rs ++ rs') o l = remaining rs' o l := by
  apply remaining_congr
  intro i hlow hhigh
  rw [covered_append, or_iff_right]
  exact h.not_covered (Or.inr (by omega))

/-! ### Separated ranges -/

/-- Ranges in order, with a position between each and the next. -/
def Separated (rs : List Range) : Prop := rs.Pairwise fun r r' => r.stop < r'.start

/-- The number of positions in separated ranges. -/
def total (rs : List Range) : ℕ := (rs.map fun r => r.stop - r.start).sum

/-- The first of separated ranges is cut out, and the others of what follows it. -/
theorem remaining_separated {r : Range} {o : ℕ} {l : List α} (hsep : Separated (r :: rs))
    (hwithin : Within o (o + l.length) (r :: rs)) :
    remaining (r :: rs) o l =
      l.take (r.start - o) ++ remaining rs r.stop (l.drop (r.stop - o)) := by
  obtain ⟨hlow, hr, hhigh⟩ := hwithin r List.mem_cons_self
  obtain ⟨hfirst, -⟩ := List.pairwise_cons.mp hsep
  have hbehind : ∀ i, i ≤ r.stop → ¬ Covered rs i := by
    rintro i hi ⟨r', hr', hstart, -⟩
    have hlt := hfirst r' hr'
    omega
  have htake : (l.take (r.start - o)).length = r.start - o := by
    rw [List.length_take]
    omega
  have hmiddle : ((l.drop (r.start - o)).take (r.stop - r.start)).length = r.stop - r.start := by
    rw [List.length_take, List.length_drop]
    omega
  have hsplit : l = l.take (r.start - o) ++
      ((l.drop (r.start - o)).take (r.stop - r.start) ++ l.drop (r.stop - o)) := by
    have hdrop : l.drop (r.stop - o) = (l.drop (r.start - o)).drop (r.stop - r.start) := by
      rw [List.drop_drop]
      congr 1
      omega
    rw [hdrop, List.take_append_drop, List.take_append_drop]
  conv_lhs => rw [hsplit]
  rw [remaining_append, remaining_append, htake, hmiddle]
  have hbefore : remaining (r :: rs) o (l.take (r.start - o)) = l.take (r.start - o) := by
    apply remaining_of_not_covered
    intro i hi hi'
    rw [htake] at hi'
    rw [covered_cons, not_or]
    exact ⟨by omega, hbehind i (by omega)⟩
  have hinside : remaining (r :: rs) (o + (r.start - o))
      ((l.drop (r.start - o)).take (r.stop - r.start)) = [] := by
    apply remaining_of_covered
    intro i hi hi'
    rw [hmiddle] at hi'
    exact covered_cons.mpr (Or.inl ⟨by omega, by omega⟩)
  have hposition : o + (r.start - o) + (r.stop - r.start) = r.stop := by omega
  have hafter : remaining (r :: rs) r.stop (l.drop (r.stop - o)) =
      remaining rs r.stop (l.drop (r.stop - o)) := by
    apply remaining_congr
    intro i hi _
    rw [covered_cons, or_iff_right]
    omega
  rw [hbefore, hinside, hposition, hafter, List.nil_append]

/-- The ranges behind the first one lie in what follows it. -/
theorem Within.tail {r : Range} {o : ℕ} {l : List α} (hsep : Separated (r :: rs))
    (hwithin : Within o (o + l.length) (r :: rs)) :
    Within r.stop (r.stop + (l.drop (r.stop - o)).length) rs := by
  obtain ⟨hlow, hr, hhigh⟩ := hwithin r List.mem_cons_self
  obtain ⟨hfirst, -⟩ := List.pairwise_cons.mp hsep
  intro r' hr'
  have hlt := hfirst r' hr'
  obtain ⟨-, hne, hle⟩ := hwithin r' (List.mem_cons_of_mem _ hr')
  refine ⟨by omega, hne, ?_⟩
  rw [List.length_drop]
  omega

theorem length_remaining {o : ℕ} {l : List α} (hsep : Separated rs)
    (hwithin : Within o (o + l.length) rs) :
    (remaining rs o l).length + total rs = l.length := by
  induction rs generalizing o l with
  | nil =>
      rw [remaining_no_ranges]
      rfl
  | cons r rs ih =>
      obtain ⟨hlow, hr, hhigh⟩ := hwithin r List.mem_cons_self
      have hrest := ih (List.pairwise_cons.mp hsep).2 (hwithin.tail hsep)
      have htotal : total (r :: rs) = (r.stop - r.start) + total rs := by
        unfold total
        rw [List.map_cons, List.sum_cons]
      rw [remaining_separated hsep hwithin, List.length_append, List.length_take, htotal]
      rw [List.length_drop] at hrest
      omega

end Cuts
