import Mathlib.Data.List.Basic

/-! # Texts of lines

A text whose lines all end with a line break determines its lines; and a list is cut in only one way
before its last element of a kind. -/

namespace Lines

/-- The text of lines, each with its line break. -/
def unlines (ls : List (List Char)) : List Char := ls.flatMap fun l => l ++ ['\n']

theorem unlines_append (ls ls' : List (List Char)) :
    unlines (ls ++ ls') = unlines ls ++ unlines ls' := List.flatMap_append

theorem unlines_cons (l : List Char) (ls : List (List Char)) :
    unlines (l :: ls) = l ++ '\n' :: unlines ls := by
  show l ++ ['\n'] ++ unlines ls = l ++ '\n' :: unlines ls
  rw [List.append_assoc]
  rfl

/-- What stands before a separator ends at its first occurrence. -/
theorem append_cons_inj {α : Type} {c : α} {l l' r r' : List α} (hl : c ∉ l) (hl' : c ∉ l')
    (h : l ++ c :: r = l' ++ c :: r') : l = l' ∧ r = r' := by
  induction l generalizing l' with
  | nil =>
      cases l' with
      | nil => exact ⟨rfl, (List.cons.inj h).2⟩
      | cons a l' => exact absurd ((List.cons.inj h).1 ▸ List.mem_cons_self) hl'
  | cons a l ih =>
      cases l' with
      | nil => exact absurd ((List.cons.inj h).1 ▸ List.mem_cons_self) hl
      | cons b l' =>
          obtain ⟨hab, hrest⟩ := List.cons.inj h
          obtain ⟨hlist, hr⟩ := ih (fun hm => hl (List.mem_cons_of_mem _ hm))
            (fun hm => hl' (List.mem_cons_of_mem _ hm)) hrest
          exact ⟨by rw [hab, hlist], hr⟩

theorem unlines_inj {ls ls' : List (List Char)} (hls : ∀ l ∈ ls, '\n' ∉ l)
    (hls' : ∀ l ∈ ls', '\n' ∉ l) (h : unlines ls = unlines ls') : ls = ls' := by
  induction ls generalizing ls' with
  | nil =>
      cases ls' with
      | nil => rfl
      | cons l ls' =>
          rw [unlines_cons] at h
          exact absurd (congrArg List.length h) (by simp [unlines])
  | cons l ls ih =>
      cases ls' with
      | nil =>
          rw [unlines_cons] at h
          exact absurd (congrArg List.length h) (by simp [unlines])
      | cons l' ls' =>
          rw [unlines_cons, unlines_cons] at h
          obtain ⟨hl, hrest⟩ := append_cons_inj (hls l List.mem_cons_self)
            (hls' l' List.mem_cons_self) h
          have htail := ih (fun m hm => hls m (List.mem_cons_of_mem _ hm))
            (fun m hm => hls' m (List.mem_cons_of_mem _ hm)) hrest
          rw [hl, htail]

/-- Every text with a line break at its end consists of lines. -/
theorem exists_unlines (t : List Char) :
    ∃ ls, (∀ l ∈ ls, '\n' ∉ l) ∧ t ++ ['\n'] = unlines ls := by
  induction t with
  | nil => exact ⟨[[]], by simp, rfl⟩
  | cons c t ih =>
      obtain ⟨ls, hls, ht⟩ := ih
      by_cases hc : c = '\n'
      · refine ⟨[] :: ls, ?_, ?_⟩
        · intro l hl
          rcases List.mem_cons.mp hl with rfl | hl
          · exact List.not_mem_nil
          · exact hls l hl
        · rw [unlines_cons, hc, List.cons_append, ht, List.nil_append]
      · cases ls with
        | nil => exact absurd (congrArg List.length ht) (by simp [unlines])
        | cons l ls =>
            refine ⟨(c :: l) :: ls, ?_, ?_⟩
            · intro m hm
              rcases List.mem_cons.mp hm with rfl | hm
              · intro hmem
                rcases List.mem_cons.mp hmem with heq | hmem
                · exact hc heq.symm
                · exact hls l List.mem_cons_self hmem
              · exact hls m (List.mem_cons_of_mem _ hm)
            · rw [unlines_cons] at ht ⊢
              rw [List.cons_append, ht, List.cons_append]

/-- A list is cut in only one way at the last element that satisfies `p`. -/
theorem last_inj {α : Type} {p : α → Prop} {a a' : α} {l l' r r' : List α} (ha : p a) (ha' : p a')
    (hr : ∀ b ∈ r, ¬ p b) (hr' : ∀ b ∈ r', ¬ p b) (h : l ++ a :: r = l' ++ a' :: r') :
    l = l' ∧ a = a' ∧ r = r' := by
  induction l generalizing l' with
  | nil =>
      cases l' with
      | nil => exact ⟨rfl, List.cons.inj h⟩
      | cons b l' =>
          have hmem : a' ∈ r := by
            rw [(List.cons.inj h).2]
            exact List.mem_append_right _ List.mem_cons_self
          exact absurd ha' (hr a' hmem)
  | cons b l ih =>
      cases l' with
      | nil =>
          have hmem : a ∈ r' := by
            rw [← (List.cons.inj h).2]
            exact List.mem_append_right _ List.mem_cons_self
          exact absurd ha (hr' a hmem)
      | cons b' l' =>
          obtain ⟨hb, hrest⟩ := List.cons.inj h
          obtain ⟨hl, har⟩ := ih hrest
          exact ⟨by rw [hb, hl], har⟩

end Lines
