import Mathlib.Data.List.Induction

/-! # Calls and answers in a list

The elements of a list call ids and answer ids.  The list is paired if an element only answers what
an earlier one has called.  A list grows at its end: what it takes for one more element
(`paired_concat`), for a last element that calls more than before (`Paired.replace_last`), and for
a block that stands for an element (`paired_flatMap`). -/

namespace Pairing

variable {α β ι : Type} {calls answers : α → List ι}

/-- Each id that an element answers is called by an element before it. -/
def Paired (calls answers : α → List ι) (l : List α) : Prop :=
  ∀ pre x post, l = pre ++ x :: post → ∀ i ∈ answers x, ∃ y ∈ pre, i ∈ calls y

theorem paired_nil : Paired calls answers [] := by
  intro pre x post h
  simp at h

/-- The end of a list with one more element. -/
theorem concat_eq_append_cons {l pre post : List α} {x y : α}
    (h : l ++ [x] = pre ++ y :: post) :
    (pre = l ∧ y = x) ∨ ∃ rest, l = pre ++ y :: rest := by
  rcases List.eq_nil_or_concat post with rfl | ⟨rest, z, rfl⟩
  · left
    obtain ⟨rfl, hx⟩ := List.append_inj' h rfl
    exact ⟨rfl, (List.head_eq_of_cons_eq hx).symm⟩
  · right
    refine ⟨rest, ?_⟩
    have hl : l ++ [x] = (pre ++ y :: rest) ++ [z] := by simpa using h
    exact (List.append_inj' hl rfl).1

theorem paired_concat {l : List α} {x : α} :
    Paired calls answers (l ++ [x]) ↔
      Paired calls answers l ∧ ∀ i ∈ answers x, ∃ y ∈ l, i ∈ calls y := by
  constructor
  · intro h
    refine ⟨?_, h l x [] rfl⟩
    intro pre y post hl i hi
    exact h pre y (post ++ [x]) (by simp [hl]) i hi
  · rintro ⟨h, hx⟩ pre y post hl
    rcases concat_eq_append_cons hl with ⟨rfl, rfl⟩ | ⟨rest, hrest⟩
    · exact hx
    · exact h pre y rest hrest

theorem paired_pair {x y : α} :
    Paired calls answers [x, y] ↔ answers x = [] ∧ ∀ i ∈ answers y, i ∈ calls x := by
  have hx : Paired calls answers [x] ↔ answers x = [] := by
    have h := @paired_concat _ _ calls answers [] x
    rw [List.nil_append] at h
    rw [h, List.eq_nil_iff_forall_not_mem]
    simp [paired_nil]
  have h := @paired_concat _ _ calls answers [x] y
  rw [List.cons_append, List.nil_append] at h
  rw [h, hx]
  simp

/-- The last element may be replaced by one that answers nothing. -/
theorem Paired.replace_last {l : List α} {x y : α} (h : Paired calls answers (l ++ [x]))
    (hy : answers y = []) : Paired calls answers (l ++ [y]) := by
  rw [paired_concat] at h ⊢
  refine ⟨h.1, ?_⟩
  rw [hy]
  exact fun i hi => absurd hi List.not_mem_nil

/-- A block that calls nothing, or answers nothing, at the end of a list. -/
theorem paired_append {l r : List α} (hr : (∀ x ∈ r, calls x = []) ∨ ∀ x ∈ r, answers x = []) :
    Paired calls answers (l ++ r) ↔
      Paired calls answers l ∧ ∀ x ∈ r, ∀ i ∈ answers x, ∃ y ∈ l, i ∈ calls y := by
  induction r using List.reverseRecOn with
  | nil => simp
  | append_singleton r x ih =>
      have hr' : (∀ x ∈ r, calls x = []) ∨ ∀ x ∈ r, answers x = [] :=
        hr.imp (fun h y hy => h y (List.mem_append_left _ hy))
          (fun h y hy => h y (List.mem_append_left _ hy))
      rw [← List.append_assoc, paired_concat, ih hr', and_assoc]
      refine and_congr_right fun _ => ?_
      have hlast : (∀ i ∈ answers x, ∃ y ∈ l ++ r, i ∈ calls y) ↔
          ∀ i ∈ answers x, ∃ y ∈ l, i ∈ calls y := by
        rcases hr with hc | ha
        · refine forall₂_congr fun i _ => ⟨?_, ?_⟩
          · rintro ⟨y, hy, hi⟩
            rcases List.mem_append.mp hy with hy | hy
            · exact ⟨y, hy, hi⟩
            · rw [hc y (List.mem_append_left _ hy)] at hi
              exact absurd hi List.not_mem_nil
          · rintro ⟨y, hy, hi⟩
            exact ⟨y, List.mem_append_left _ hy, hi⟩
        · have hx : answers x = [] := ha x (by simp)
          simp [hx]
      rw [hlast]
      simp [or_imp, forall_and]

/-- **A list whose elements stand for blocks is paired as the blocks are**, if a block does not
both call and answer. -/
theorem paired_flatMap {calls' answers' : β → List ι} {f : α → List β}
    (hcalls : ∀ x, (f x).flatMap calls' = calls x)
    (hanswers : ∀ x, (f x).flatMap answers' = answers x)
    (hone : ∀ x, calls x = [] ∨ answers x = []) (l : List α) :
    Paired calls' answers' (l.flatMap f) ↔ Paired calls answers l := by
  have hblock : ∀ x, (∀ b ∈ f x, calls' b = []) ∨ ∀ b ∈ f x, answers' b = [] := by
    intro x
    refine (hone x).imp ?_ ?_
    · intro h
      rw [← hcalls, List.flatMap_eq_nil_iff] at h
      exact h
    · intro h
      rw [← hanswers, List.flatMap_eq_nil_iff] at h
      exact h
  have hcalled : ∀ (m : List α) (i : ι),
      (∃ b ∈ m.flatMap f, i ∈ calls' b) ↔ ∃ x ∈ m, i ∈ calls x := by
    intro m i
    simp only [← hcalls, List.mem_flatMap]
    grind
  induction l using List.reverseRecOn with
  | nil => simp [paired_nil]
  | append_singleton l x ih =>
      rw [List.flatMap_append, List.flatMap_singleton, paired_append (hblock x), paired_concat]
      refine and_congr ih ?_
      rw [← hanswers x]
      simp only [hcalled]
      constructor
      · intro h i hi
        obtain ⟨b, hb, hib⟩ := List.mem_flatMap.mp hi
        exact h b hb i hib
      · intro h b hb i hib
        exact h i (List.mem_flatMap.mpr ⟨b, hb, hib⟩)

/-- Pairing carries over to other ids of the same elements, if answered ids go with called ones. -/
theorem Paired.map {κ : Type} {calls' answers' : α → List κ} {l : List α}
    (h : Paired calls answers l)
    (hmap : ∀ x ∈ l, ∀ k ∈ answers' x, ∃ i ∈ answers x, ∀ y ∈ l, i ∈ calls y → k ∈ calls' y) :
    Paired calls' answers' l := by
  intro pre x post hl k hk
  have hpre : ∀ y ∈ pre, y ∈ l := fun y hy => by simp [hl, hy]
  obtain ⟨i, hi, hcalls⟩ := hmap x (by simp [hl]) k hk
  obtain ⟨y, hy, hiy⟩ := h pre x post hl i hi
  exact ⟨y, hy, hcalls y (hpre y hy) hiy⟩

end Pairing
