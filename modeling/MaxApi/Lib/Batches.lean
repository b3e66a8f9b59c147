import Mathlib.Data.List.Sort

/-! # Draining a queue in batches

A loop takes the first `limit` elements of a queue.  It counts some of them, and some of those it
counts leave the queue.  It ends with the first batch in which it has counted fewer than `limit`
elements.  Elements that are counted but do not leave come again with the next batch, so the loop
ends exactly when the queue is not `Stalled`: when the elements that do not leave at all do not
make up a full batch of counted ones (`exists_ends_iff`). -/

namespace Batches

variable {α : Type} (counted leaves : α → Bool) (limit : ℕ)

/-- The number of elements that a batch counts. -/
def count (q : List α) : ℕ := (q.take limit).countP counted

/-- The queue after a batch. -/
def rest (q : List α) : List α := (q.take limit).filter (fun a => !leaves a) ++ q.drop limit

/-- The loop ends within so many batches. -/
def Ends : ℕ → List α → Prop
  | 0, _ => False
  | rounds + 1, q => count counted limit q < limit ∨ Ends rounds (rest leaves limit q)

/-- The first elements that do not leave make up a full batch of counted ones. -/
def Stalled (q : List α) : Prop :=
  limit ≤ (q.filter fun a => !leaves a).length ∧
    ∀ a ∈ (q.filter fun a => !leaves a).take limit, counted a

section rules

variable {counted leaves : α → Bool} {limit : ℕ} {q : List α}

/-- The queue after a batch, when no element occurs twice. -/
theorem filter_eq_rest [DecidableEq α] (hq : q.Nodup) :
    (q.filter fun a => ¬ (a ∈ q.take limit ∧ leaves a)) = rest leaves limit q := by
  have hdisjoint := hq
  rw [← List.take_append_drop limit q, List.nodup_append] at hdisjoint
  have htake : (q.take limit).filter (fun a => ¬ (a ∈ q.take limit ∧ leaves a)) =
      (q.take limit).filter fun a => !leaves a := by
    refine List.filter_congr fun a ha => ?_
    simp [ha]
  have hdrop : (q.drop limit).filter (fun a => ¬ (a ∈ q.take limit ∧ leaves a)) =
      q.drop limit := by
    rw [List.filter_eq_self]
    intro a ha
    refine decide_eq_true fun h => ?_
    exact hdisjoint.2.2 a h.1 a ha rfl
  have hsplit := List.filter_append (p := fun a => decide ¬ (a ∈ q.take limit ∧ leaves a))
    (q.take limit) (q.drop limit)
  rw [List.take_append_drop, htake, hdrop] at hsplit
  exact hsplit

theorem filter_rest :
    (rest leaves limit q).filter (fun a => !leaves a) = q.filter fun a => !leaves a := by
  unfold rest
  rw [List.filter_append, List.filter_filter]
  simp only [Bool.and_self]
  rw [← List.filter_append, List.take_append_drop]

theorem stalled_rest : Stalled counted leaves limit (rest leaves limit q) ↔
    Stalled counted leaves limit q := by
  unfold Stalled
  rw [filter_rest]

/-- What stays of a batch is among the first elements that do not leave. -/
theorem mem_take_filter {a : α} (ha : a ∈ q.take limit) (hstay : leaves a = false) :
    a ∈ (q.filter fun a => !leaves a).take limit := by
  have hprefix : (q.take limit).filter (fun a => !leaves a) <+:
      (q.filter fun a => !leaves a).take limit :=
    List.prefix_take_iff.mpr ⟨(List.take_prefix limit q).filter _,
      (List.length_filter_le _ _).trans (List.length_take_le _ _)⟩
  exact hprefix.subset (List.mem_filter.mpr ⟨ha, by simp [hstay]⟩)

/-- A batch of a stalled queue counts all its elements. -/
theorem count_of_stalled (hleaves : ∀ a ∈ q, leaves a → counted a)
    (h : Stalled counted leaves limit q) : count counted limit q = limit := by
  obtain ⟨hlength, hcounted⟩ := h
  have hle := List.length_filter_le (fun a => !leaves a) q
  have hall : ∀ a ∈ q.take limit, counted a := by
    intro a ha
    cases hstay : leaves a with
    | true => exact hleaves a (List.mem_of_mem_take ha) hstay
    | false => exact hcounted a (mem_take_filter ha hstay)
  unfold count
  rw [List.countP_eq_length.mpr hall, List.length_take]
  omega

/-- The queue gets shorter with a batch from which an element leaves. -/
theorem length_rest_lt_iff :
    (rest leaves limit q).length < q.length ↔ ∃ a ∈ q.take limit, leaves a := by
  have hq : q.length = (q.take limit).length + (q.drop limit).length := by
    rw [← List.length_append, List.take_append_drop]
  unfold rest
  rw [List.length_append, hq, Nat.add_lt_add_iff_right, List.length_filter_lt_length_iff_exists]
  simp

/-- A full batch from which no element leaves has stalled the queue. -/
theorem stalled_of_count (hcount : limit ≤ count counted limit q)
    (hstay : ¬ ∃ a ∈ q.take limit, leaves a) : Stalled counted leaves limit q := by
  have hlength : count counted limit q ≤ (q.take limit).length := List.countP_le_length
  have htake := List.length_take_le limit q
  have hkeep : (q.take limit).filter (fun a => !leaves a) = q.take limit := by
    rw [List.filter_eq_self]
    intro a ha
    by_contra hne
    exact hstay ⟨a, ha, by simpa using hne⟩
  have hprefix : q.take limit <+: q.filter fun a => !leaves a := by
    have h := (List.take_prefix limit q).filter fun a => !leaves a
    rwa [hkeep] at h
  have hall : ∀ a ∈ q.take limit, counted a := by
    apply List.countP_eq_length.mp
    unfold count at hcount hlength
    omega
  refine ⟨by have := hprefix.length_le; omega, ?_⟩
  have heq : (q.filter fun a => !leaves a).take limit = q.take limit := by
    rw [List.prefix_iff_eq_take.mp hprefix]
    congr 1
    omega
  rw [heq]
  exact hall

/-- The loop never ends on a stalled queue. -/
theorem not_ends_of_stalled (hleaves : ∀ a ∈ q, leaves a → counted a)
    (h : Stalled counted leaves limit q) (rounds : ℕ) :
    ¬ Ends counted leaves limit rounds q := by
  induction rounds generalizing q with
  | zero => exact id
  | succ rounds ih =>
      rintro (hlt | hends)
      · rw [count_of_stalled hleaves h] at hlt
        omega
      · refine ih ?_ (stalled_rest.mpr h) hends
        intro a ha
        refine hleaves a ?_
        unfold rest at ha
        rcases List.mem_append.mp ha with ha | ha
        · exact List.mem_of_mem_take (List.mem_of_mem_filter ha)
        · exact List.mem_of_mem_drop ha

/-- The loop ends on a queue that is not stalled: each full batch makes the queue shorter. -/
theorem exists_ends (h : ¬ Stalled counted leaves limit q) :
    ∃ rounds, Ends counted leaves limit rounds q := by
  induction hn : q.length using Nat.strong_induction_on generalizing q with
  | _ n ih =>
      subst hn
      by_cases hcount : count counted limit q < limit
      · exact ⟨1, .inl hcount⟩
      · have hleave : ∃ a ∈ q.take limit, leaves a := by
          by_contra hstay
          exact h (stalled_of_count (by omega) hstay)
        obtain ⟨rounds, hends⟩ := ih _ (length_rest_lt_iff.mpr hleave)
          (fun hstalled => h (stalled_rest.mp hstalled)) rfl
        exact ⟨rounds + 1, .inr hends⟩

/-- **Main.** The loop ends exactly when the queue is not stalled. -/
theorem exists_ends_iff (hleaves : ∀ a ∈ q, leaves a → counted a) :
    (∃ rounds, Ends counted leaves limit rounds q) ↔ ¬ Stalled counted leaves limit q :=
  ⟨fun ⟨rounds, hends⟩ hstalled => not_ends_of_stalled hleaves hstalled rounds hends, exists_ends⟩

end rules

/-! ### Batches in order -/

/-- Elements that are removed from a list are missing from the sorted list. -/
theorem filter_orderedInsert {r : α → α → Prop} [DecidableRel r] [IsTrans α r] (p : α → Bool)
    (a : α) {l : List α} (hl : l.Pairwise r) :
    (l.orderedInsert r a).filter p =
      if p a then (l.filter p).orderedInsert r a else l.filter p := by
  induction l with
  | nil => by_cases hp : p a <;> simp [hp]
  | cons b l ih =>
      have ⟨hb, hl⟩ := List.pairwise_cons.mp hl
      rw [List.orderedInsert_cons]
      by_cases hab : r a b
      · rw [if_pos hab, List.filter_cons]
        have hhead : ∀ c ∈ (b :: l).filter p, r a c := by
          intro c hc
          rcases List.mem_cons.mp (List.mem_of_mem_filter hc) with rfl | hc
          · exact hab
          · exact trans_of r hab (hb c hc)
        by_cases hp : p a
        · rw [if_pos hp, if_pos hp]
          cases hf : (b :: l).filter p with
          | nil => rfl
          | cons c k =>
              rw [List.orderedInsert_cons, if_pos]
              exact hhead c (by rw [hf]; exact List.mem_cons_self)
        · rw [if_neg hp, if_neg hp]
      · rw [if_neg hab, List.filter_cons, ih hl]
        by_cases hpb : p b
        · rw [if_pos hpb, List.filter_cons, if_pos hpb]
          by_cases hp : p a
          · rw [if_pos hp, if_pos hp, List.orderedInsert_cons, if_neg hab]
          · rw [if_neg hp, if_neg hp]
        · rw [if_neg hpb, List.filter_cons, if_neg hpb]

theorem filter_insertionSort {r : α → α → Prop} [DecidableRel r] [IsTrans α r] [Std.Total r]
    (p : α → Bool) (l : List α) :
    (l.insertionSort r).filter p = (l.filter p).insertionSort r := by
  induction l with
  | nil => rfl
  | cons a l ih =>
      rw [List.insertionSort_cons,
        filter_orderedInsert p a (List.pairwise_insertionSort r l), ih, List.filter_cons]
      by_cases hp : p a
      · rw [if_pos hp, if_pos hp, List.insertionSort_cons]
      · rw [if_neg hp, if_neg hp]

end Batches
