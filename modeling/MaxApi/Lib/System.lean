import Mathlib.Data.List.Basic

/-! # Runs of a system

A system is a total function `step : σ → α → σ`: what the operation `a` makes of the state `s`.
An operation that is not enabled leaves the state alone, so every list of operations is a run.
Interleavings of concurrent parties are lists of operations in which each party's next move is an
operation of its own.

Facts about whole runs come from facts about one step by the rules of this file: an invariant
(`run_invariant`), a preorder between the states before and after (`run_relates`), and both of
them for runs whose steps all meet a side condition (`Throughout`). -/

namespace Transition

variable {σ α : Type} (step : σ → α → σ)

/-- The state after a list of operations. -/
def run (s : σ) (ops : List α) : σ := ops.foldl step s

@[simp] theorem run_nil (s : σ) : run step s [] = s := rfl

@[simp] theorem run_cons (s : σ) (a : α) (ops : List α) :
    run step s (a :: ops) = run step (step s a) ops := rfl

theorem run_append (s : σ) (as bs : List α) :
    run step s (as ++ bs) = run step (run step s as) bs := List.foldl_append

/-- An invariant of one step is an invariant of every run. -/
theorem run_invariant {I : σ → Prop} (hstep : ∀ s a, I s → I (step s a)) :
    ∀ (ops : List α) (s : σ), I s → I (run step s ops)
  | [], _, h => h
  | a :: ops, s, h => run_invariant hstep ops (step s a) (hstep s a h)

/-- An invariant of the steps that the operations of a run make is an invariant of the run. -/
theorem run_invariant_mem {I : σ → Prop} :
    ∀ (ops : List α), (∀ s, ∀ a ∈ ops, I s → I (step s a)) → ∀ s, I s → I (run step s ops)
  | [], _, _, h => h
  | a :: ops, hstep, s, h =>
      run_invariant_mem ops (fun s b hb => hstep s b (List.mem_cons_of_mem a hb)) (step s a)
        (hstep s a List.mem_cons_self h)

/-- A preorder that relates the two ends of a step relates the two ends of a run, while an
invariant of the states in between may be used. -/
theorem run_relates {I : σ → Prop} {R : σ → σ → Prop} (hstep : ∀ s a, I s → I (step s a))
    (refl : ∀ s, R s s) (trans : ∀ {s t u}, R s t → R t u → R s u)
    (hR : ∀ s a, I s → R s (step s a)) :
    ∀ (ops : List α) (s : σ), I s → R s (run step s ops)
  | [], s, _ => refl s
  | a :: ops, s, h =>
      trans (hR s a h) (run_relates hstep refl trans hR ops (step s a) (hstep s a h))

/-! ### Runs under a side condition -/

/-- Every step of the run meets the condition `C` in the state it starts from. -/
def Throughout (C : σ → α → Prop) : σ → List α → Prop
  | _, [] => True
  | s, a :: ops => C s a ∧ Throughout C (step s a) ops

instance {C : σ → α → Prop} [∀ s a, Decidable (C s a)] :
    ∀ (ops : List α) (s : σ), Decidable (Throughout step C s ops)
  | [], _ => .isTrue trivial
  | a :: ops, s =>
      have : Decidable (Throughout step C (step s a) ops) := instDecidableThroughout ops (step s a)
      inferInstanceAs (Decidable (C s a ∧ Throughout step C (step s a) ops))

/-- An invariant of the steps that meet the condition is an invariant of the runs that do. -/
theorem throughout_invariant {C : σ → α → Prop} {I : σ → Prop}
    (hstep : ∀ s a, C s a → I s → I (step s a)) :
    ∀ (ops : List α) (s : σ), Throughout step C s ops → I s → I (run step s ops)
  | [], _, _, h => h
  | a :: ops, s, hC, h =>
      throughout_invariant hstep ops (step s a) hC.2 (hstep s a hC.1 h)

/-- A condition that is stronger in every step is stronger along a run. -/
theorem throughout_mono {C C' : σ → α → Prop} (h : ∀ s a, C s a → C' s a) :
    ∀ (ops : List α) (s : σ), Throughout step C s ops → Throughout step C' s ops
  | [], _, _ => trivial
  | a :: ops, s, hops => ⟨h s a hops.1, throughout_mono h ops (step s a) hops.2⟩

/-- What every step meets is met throughout. -/
theorem throughout_of_forall {C : σ → α → Prop} (h : ∀ s a, C s a) :
    ∀ (ops : List α) (s : σ), Throughout step C s ops
  | [], _ => trivial
  | a :: ops, s => ⟨h s a, throughout_of_forall h ops (step s a)⟩

/-- A condition that is met throughout a run is met throughout its beginnings. -/
theorem throughout_prefix {C : σ → α → Prop} :
    ∀ {ops pre : List α} {s : σ}, pre <+: ops → Throughout step C s ops → Throughout step C s pre
  | _, [], _, _, _ => trivial
  | [], b :: pre, _, hpre, _ => absurd (List.prefix_nil.mp hpre) (List.cons_ne_nil b pre)
  | a :: ops, b :: pre, s, hpre, h => by
      obtain ⟨rfl, htail⟩ := List.cons_prefix_cons.mp hpre
      exact ⟨h.1, throughout_prefix htail h.2⟩

/-- What every step under the condition guarantees, while an invariant holds, is guaranteed along
the runs under the condition. -/
theorem throughout_of_invariant {C D : σ → α → Prop} {I : σ → Prop}
    (hstep : ∀ s a, C s a → I s → I (step s a)) (hD : ∀ s a, C s a → I s → D s a) :
    ∀ (ops : List α) (s : σ), Throughout step C s ops → I s → Throughout step D s ops
  | [], _, _, _ => trivial
  | a :: ops, s, hC, h =>
      ⟨hD s a hC.1 h,
        throughout_of_invariant hstep hD ops (step s a) hC.2 (hstep s a hC.1 h)⟩

/-- Where the condition says of each step whether it keeps `P`, the runs under the condition are
those of which every state satisfies `P`. -/
theorem throughout_iff {C : σ → α → Prop} {I P : σ → Prop} :
    ∀ (ops : List α), (∀ s, ∀ a ∈ ops, I s → I (step s a)) →
      (∀ s, ∀ a ∈ ops, I s → P s → (C s a ↔ P (step s a))) → ∀ s, I s → P s →
        (Throughout step C s ops ↔ ∀ pre, pre <+: ops → P (run step s pre))
  | [], _, _, s, _, hP => by
      constructor
      · intro _ pre hpre
        rw [List.prefix_nil.mp hpre]
        exact hP
      · intro _
        trivial
  | a :: ops, hI, hC, s, hs, hP => by
      have hnext : ∀ h : P (step s a), Throughout step C (step s a) ops ↔
          ∀ pre, pre <+: ops → P (run step (step s a) pre) :=
        throughout_iff ops (fun t b hb => hI t b (List.mem_cons_of_mem a hb))
          (fun t b hb => hC t b (List.mem_cons_of_mem a hb)) (step s a)
          (hI s a List.mem_cons_self hs)
      constructor
      · intro ⟨ha, hrest⟩ pre hpre
        have hPa := (hC s a List.mem_cons_self hs hP).mp ha
        cases pre with
        | nil => exact hP
        | cons b pre =>
            obtain ⟨hba, htail⟩ := List.cons_prefix_cons.mp hpre
            rw [hba]
            exact (hnext hPa).mp hrest pre htail
      · intro hall
        have hPa : P (step s a) := hall [a] (List.cons_prefix_cons.mpr ⟨rfl, List.nil_prefix⟩)
        refine ⟨(hC s a List.mem_cons_self hs hP).mpr hPa, (hnext hPa).mpr fun pre hpre => ?_⟩
        exact hall (a :: pre) (List.cons_prefix_cons.mpr ⟨rfl, hpre⟩)

end Transition
