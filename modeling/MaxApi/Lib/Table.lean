import Mathlib.Algebra.BigOperators.Group.List.Basic
import Mathlib.Algebra.Order.BigOperators.Group.List
import Mathlib.Data.List.Nodup
import Mathlib.Data.List.Pairwise
import Mathlib.Data.Int.Basic
import Mathlib.Tactic.Ring

/-! # Tables

A table is a list of rows of which no two clash in a unique index.  The structure carries that
fact, and a `SetClause`, which must not change the indexed columns, cannot break it.
A statement `UPDATE … SET m WHERE p` is `update p m`; the number of rows it matched is
`affected p`; `INSERT … ON CONFLICT DO NOTHING` is `insert`.  Where a statement sets an indexed
column to `NULL`, which clashes with nothing, it is `updateFreeing`.

Sums over a table are what conservation laws are about.  `sum_update` says how an update moves a
sum, and `sum_eq_single` evaluates a sum to which a single row contributes. -/

namespace Relational

/-- The columns of a row type that unique indexes cover. -/
class Keyed (ρ : Type) where
  /-- The values of the indexed columns. -/
  Key : Type
  key : ρ → Key
  /-- Two keys agree in one of the unique indexes. -/
  Clash : Key → Key → Prop
  clashDec : DecidableRel Clash
  clash_refl : ∀ a, Clash a a
  clash_symm : ∀ {a b}, Clash a b → Clash b a

/-- Keys of two unique indexes clash in the one or the other. -/
theorem eitherEq_refl {α β : Type} (a : α × β) : a.1 = a.1 ∨ a.2 = a.2 := .inl rfl

theorem eitherEq_symm {α β : Type} {a b : α × β} (h : a.1 = b.1 ∨ a.2 = b.2) :
    b.1 = a.1 ∨ b.2 = a.2 := h.imp Eq.symm Eq.symm

open Keyed (key Clash)

instance {ρ : Type} [Keyed ρ] (a b : Keyed.Key ρ) : Decidable (Clash a b) :=
  Keyed.clashDec a b

/-- The `SET` clause of an update: a new row for every row, with the indexed columns as before. -/
structure SetClause (ρ : Type) [Keyed ρ] where
  set : ρ → ρ
  keeps : ∀ r, key (set r) = key r

/-- States the fact that a row function leaves the indexed columns alone at the type a `SetClause`
expects. -/
theorem keeps {ρ : Type} [Keyed ρ] {f : ρ → ρ} (h : ∀ r, key (f r) = key r) :
    ∀ r, key (f r) = key r := h

/-- The `SET` clause of an update that gives up values of the indexed columns (it sets them to
`NULL`) and takes no new ones. -/
structure FreeClause (ρ : Type) [Keyed ρ] where
  set : ρ → ρ
  frees : ∀ r k, Clash (key (set r)) k → Clash (key r) k

/-- Rows of which no two clash in a unique index. -/
structure Table (ρ : Type) [Keyed ρ] where
  rows : List ρ
  distinct : rows.Pairwise fun a b => ¬ Clash (key a) (key b)

namespace Table

variable {ρ : Type} [Keyed ρ]

instance : Membership ρ (Table ρ) := ⟨fun t r => r ∈ t.rows⟩

theorem mem_iff {t : Table ρ} {r : ρ} : r ∈ t ↔ r ∈ t.rows := Iff.rfl

/-- The table without rows. -/
def empty : Table ρ := ⟨[], .nil⟩

/-- The first row that satisfies `p`. -/
def first? (t : Table ρ) (p : ρ → Prop) [DecidablePred p] : Option ρ :=
  t.rows.find? fun r => decide (p r)

/-- How many rows satisfy `p`. -/
def affected (t : Table ρ) (p : ρ → Prop) [DecidablePred p] : ℕ :=
  t.rows.countP fun r => decide (p r)

/-- Rewrite the rows that satisfy `p`. -/
def update (t : Table ρ) (p : ρ → Prop) [DecidablePred p] (m : SetClause ρ) : Table ρ where
  rows := t.rows.map fun r => if p r then m.set r else r
  distinct := by
    have hk : ∀ r, key (if p r then m.set r else r) = key r := by
      intro r
      split
      · exact m.keeps r
      · rfl
    rw [List.pairwise_map]
    refine t.distinct.imp ?_
    intro a b hab
    rw [hk a, hk b]
    exact hab

/-- Rewrite the rows that satisfy `p`, where the new rows may hold fewer indexed values. -/
def updateFreeing (t : Table ρ) (p : ρ → Prop) [DecidablePred p] (m : FreeClause ρ) : Table ρ where
  rows := t.rows.map fun r => if p r then m.set r else r
  distinct := by
    have hk : ∀ r k, Clash (key (if p r then m.set r else r)) k → Clash (key r) k := by
      intro r k h
      split at h
      · exact m.frees r k h
      · exact h
    rw [List.pairwise_map]
    refine t.distinct.imp ?_
    intro a b hab h
    exact hab (Keyed.clash_symm (hk b _ (Keyed.clash_symm (hk a _ h))))

/-- Append a row unless it clashes with one that is there. -/
def insert (t : Table ρ) (r : ρ) : Table ρ :=
  if h : ∀ a ∈ t.rows, ¬ Clash (key a) (key r) then
    ⟨t.rows ++ [r], by
      rw [List.pairwise_append]
      refine ⟨t.distinct, List.pairwise_singleton _ _, ?_⟩
      intro a ha b hb
      rw [List.mem_singleton] at hb
      rw [hb]
      exact h a ha⟩
  else t

/-- Remove the rows that satisfy `p`. -/
def delete (t : Table ρ) (p : ρ → Prop) [DecidablePred p] : Table ρ where
  rows := t.rows.filter fun r => !decide (p r)
  distinct := t.distinct.filter _

/-- The automatic primary key of the next row: one more than the largest in use. -/
def nextID (t : Table ρ) (id : ρ → ℤ) : ℤ := t.rows.foldl (fun n r => max n (id r)) 0 + 1

/-- The indexed columns of all rows. -/
def keys (t : Table ρ) : List (Keyed.Key ρ) := t.rows.map key

/-- The sum of `g` over all rows. -/
def sum (t : Table ρ) (g : ρ → ℤ) : ℤ := (t.rows.map g).sum

/-- The sum of `g` over the rows whose identifier is `k`. -/
def sumAt (t : Table ρ) (id : ρ → ℤ) (k : ℤ) (g : ρ → ℤ) : ℤ :=
  t.sum fun r => if id r = k then g r else 0

section lemmas

variable {t : Table ρ} {p q : ρ → Prop} [DecidablePred p] [DecidablePred q]
variable {m n : SetClause ρ} {r : ρ}

/-! ### Rows -/

theorem eq_of_clash {a b : ρ} (ha : a ∈ t) (hb : b ∈ t) (h : Clash (key a) (key b)) : a = b := by
  have : Std.Symm fun a b : ρ => ¬ Clash (key a) (key b) :=
    ⟨fun _ _ hab hba => hab (Keyed.clash_symm hba)⟩
  by_contra hne
  exact t.distinct.forall ha hb hne h

theorem first?_mem (h : t.first? p = some r) : r ∈ t ∧ p r := by
  unfold first? at h
  exact ⟨List.mem_of_find?_eq_some h, by simpa using List.find?_some h⟩

theorem first?_eq_none : t.first? p = none ↔ ∀ a ∈ t, ¬ p a := by
  unfold first?
  simp [List.find?_eq_none, mem_iff]

/-- The only row that satisfies `p` is the first one. -/
theorem first?_eq_some (hr : r ∈ t) (hp : p r) (h : ∀ a ∈ t, p a → a = r) :
    t.first? p = some r := by
  cases hf : t.first? p with
  | none => exact absurd hp (first?_eq_none.mp hf r hr)
  | some a =>
      obtain ⟨ha, hpa⟩ := first?_mem hf
      rw [h a ha hpa]

theorem affected_eq_zero : t.affected p = 0 ↔ ∀ a ∈ t, ¬ p a := by
  unfold affected
  simp [List.countP_eq_zero, mem_iff]

theorem mem_update {a : ρ} : a ∈ t.update p m ↔ ∃ b ∈ t, a = if p b then m.set b else b := by
  simp only [mem_iff, update, List.mem_map, eq_comm]

theorem mem_updateFreeing {a : ρ} {f : FreeClause ρ} :
    a ∈ t.updateFreeing p f ↔ ∃ b ∈ t, a = if p b then f.set b else b := by
  simp only [mem_iff, updateFreeing, List.mem_map, eq_comm]

/-- A row of the table after an insert was there before, or it is the new row, which then clashed
with no row. -/
theorem mem_insert {a : ρ} (h : a ∈ t.insert r) :
    a ∈ t ∨ (a = r ∧ ∀ b ∈ t, ¬ Clash (key b) (key r)) := by
  unfold insert at h
  split at h
  · next hfree =>
    rcases List.mem_append.mp h with h | h
    · exact .inl h
    · exact .inr ⟨List.mem_singleton.mp h, hfree⟩
  · exact .inl h

theorem insert_of_clash {a : ρ} (ha : a ∈ t) (h : Clash (key a) (key r)) : t.insert r = t := by
  unfold insert
  exact dif_neg fun hfree => hfree a ha h

theorem mem_insert_self (h : ∀ a ∈ t, ¬ Clash (key a) (key r)) : r ∈ t.insert r := by
  unfold insert
  split
  · exact List.mem_append_right _ (List.mem_singleton_self r)
  · next hn => exact absurd h hn

theorem mem_insert_of_mem {a : ρ} (h : a ∈ t) : a ∈ t.insert r := by
  unfold insert
  split
  · exact List.mem_append_left _ h
  · exact h

theorem rows_insert (h : ∀ a ∈ t, ¬ Clash (key a) (key r)) : (t.insert r).rows = t.rows ++ [r] := by
  have hfree : ∀ a ∈ t.rows, ¬ Clash (key a) (key r) := h
  unfold insert
  rw [dif_pos hfree]

/-- No row occurs twice. -/
theorem nodup (t : Table ρ) : t.rows.Nodup := by
  refine t.distinct.imp ?_
  rintro a b hab rfl
  exact hab (Keyed.clash_refl _)

/-- An update that matches one row rewrites it in its place. -/
theorem rows_update_single (hr : r ∈ t) (hp : p r) (h : ∀ a ∈ t, p a → a = r) :
    ∃ l l', t.rows = l ++ r :: l' ∧ (t.update p m).rows = l ++ m.set r :: l' := by
  obtain ⟨l, l', hl⟩ := List.append_of_mem (mem_iff.mp hr)
  have hnd := t.nodup
  rw [hl, List.nodup_middle] at hnd
  have hkeep : ∀ k : List ρ, (∀ a ∈ k, a ∈ l ++ l') →
      k.map (fun a => if p a then m.set a else a) = k := by
    intro k hk
    refine (List.map_congr_left fun a ha => ?_).trans (List.map_id k)
    have hmem : a ∈ t := by
      rw [mem_iff, hl]
      rcases List.mem_append.mp (hk a ha) with ha | ha
      · exact List.mem_append_left _ ha
      · exact List.mem_append_right _ (List.mem_cons_of_mem _ ha)
    refine if_neg fun hpa => (List.nodup_cons.mp hnd).1 ?_
    rw [← h a hmem hpa]
    exact hk a ha
  refine ⟨l, l', hl, ?_⟩
  unfold update
  dsimp only
  rw [hl, List.map_append, List.map_cons, if_pos hp,
    hkeep l fun a ha => List.mem_append_left _ ha, hkeep l' fun a ha => List.mem_append_right _ ha]

/-- Which values of a unique column are there after an insert. -/
theorem exists_insert_iff {β : Type} {f : ρ → β} (hf : ∀ a, Clash (key a) (key r) → f a = f r)
    (k : β) : (∃ a ∈ (t.insert r).rows, f a = k) ↔ (∃ a ∈ t.rows, f a = k) ∨ f r = k := by
  constructor
  · rintro ⟨a, ha, rfl⟩
    rcases mem_insert ha with ha | ⟨rfl, _⟩
    · exact .inl ⟨a, ha, rfl⟩
    · exact .inr rfl
  · rintro (⟨a, ha, rfl⟩ | rfl)
    · exact ⟨a, mem_insert_of_mem ha, rfl⟩
    · by_cases hfree : ∀ a ∈ t, ¬ Clash (key a) (key r)
      · exact ⟨r, mem_insert_self hfree, rfl⟩
      · obtain ⟨a, ha, hclash⟩ := not_forall₂.mp hfree
        exact ⟨a, mem_insert_of_mem ha, hf a (not_not.mp hclash)⟩

theorem mem_delete {a : ρ} : a ∈ t.delete p ↔ a ∈ t ∧ ¬ p a := by
  simp [mem_iff, delete]

theorem ext {t u : Table ρ} (h : t.rows = u.rows) : t = u := by
  cases t
  cases u
  simpa using h

/-- Two updates that agree on the rows of the table are the same update. -/
theorem update_congr
    (h : ∀ a ∈ t, (if p a then m.set a else a) = if q a then n.set a else a) :
    t.update p m = t.update q n := by
  apply ext
  unfold update
  exact List.map_congr_left h

/-- Two updates that match the same single row and do the same to it are the same update. -/
theorem update_single_congr (hp : p r) (hq : q r) (hp1 : ∀ a ∈ t, p a → a = r)
    (hq1 : ∀ a ∈ t, q a → a = r) (hmn : m.set r = n.set r) :
    t.update p m = t.update q n := by
  apply update_congr
  intro a ha
  by_cases har : a = r
  · rw [har, if_pos hp, if_pos hq, hmn]
  · rw [if_neg fun h => har (hp1 a ha h), if_neg fun h => har (hq1 a ha h)]

theorem update_eq_self (h : ∀ a ∈ t, p a → m.set a = a) : t.update p m = t := by
  apply ext
  have hid : ∀ a ∈ t.rows, (if p a then m.set a else a) = id a := by
    intro a ha
    split
    · exact h a ha ‹_›
    · rfl
  show t.rows.map _ = t.rows
  rw [List.map_congr_left hid, List.map_id]

/-- An update that matched one row matched a row, and no other. -/
theorem exists_of_affected_eq_one (h : t.affected p = 1) :
    ∃ a ∈ t, p a ∧ ∀ b ∈ t, p b → b = a := by
  unfold affected at h
  rw [List.countP_eq_length_filter, List.length_eq_one_iff] at h
  obtain ⟨a, ha⟩ := h
  have hmem : ∀ b, b ∈ t ∧ p b ↔ b = a := by
    intro b
    have hb : b ∈ t.rows.filter (fun r => decide (p r)) ↔ b ∈ [a] := by rw [ha]
    simpa [mem_iff] using hb
  obtain ⟨hat, hpa⟩ := (hmem a).mpr rfl
  exact ⟨a, hat, hpa, fun b hb hpb => (hmem b).mp ⟨hb, hpb⟩⟩

/-- An update that can match one row only matches one. -/
theorem affected_eq_one (hr : r ∈ t) (hp : p r) (h : ∀ a ∈ t, p a → a = r) : t.affected p = 1 := by
  have hnd : t.rows.Nodup := by
    refine t.distinct.imp ?_
    rintro a b hab rfl
    exact hab (Keyed.clash_refl _)
  unfold affected
  rw [List.countP_eq_length_filter, List.length_eq_one_iff]
  refine ⟨r, List.perm_singleton.mp ?_⟩
  rw [List.perm_ext_iff_of_nodup (hnd.filter _) (List.nodup_singleton r)]
  intro a
  rw [List.mem_filter, List.mem_singleton]
  constructor
  · intro ha
    exact h a ha.1 (of_decide_eq_true ha.2)
  · intro ha
    rw [ha]
    exact ⟨hr, decide_eq_true hp⟩

theorem exists_of_affected_ne_zero (h : t.affected p ≠ 0) : ∃ a ∈ t, p a := by
  have h' : 0 < t.rows.countP fun r => decide (p r) := Nat.pos_of_ne_zero h
  rw [List.countP_pos_iff] at h'
  simpa [mem_iff] using h'

/-- An automatic primary key is larger than every key of the table. -/
theorem lt_nextID {id : ρ → ℤ} (h : r ∈ t) : id r < t.nextID id := by
  have hmax : ∀ (l : List ρ) (n : ℤ), n ≤ l.foldl (fun n r => max n (id r)) n ∧
      ∀ r ∈ l, id r ≤ l.foldl (fun n r => max n (id r)) n := by
    intro l
    induction l with
    | nil => simp
    | cons a l ih =>
        intro n
        obtain ⟨h1, h2⟩ := ih (max n (id a))
        refine ⟨le_trans (le_max_left _ _) h1, ?_⟩
        intro r hr
        rcases List.mem_cons.mp hr with rfl | hr
        · exact le_trans (le_max_right _ _) h1
        · exact h2 r hr
  have := (hmax t.rows 0).2 r h
  unfold nextID
  omega

theorem nextID_pos (id : ρ → ℤ) : 0 < t.nextID id := by
  have hmax : ∀ (l : List ρ) (n : ℤ), n ≤ l.foldl (fun n r => max n (id r)) n := by
    intro l
    induction l with
    | nil => simp
    | cons a l ih =>
        intro n
        exact le_trans (le_max_left _ _) (ih (max n (id a)))
  have := hmax t.rows 0
  unfold nextID
  omega

@[simp] theorem keys_update : (t.update p m).keys = t.keys := by
  unfold keys update
  rw [List.map_map]
  apply List.map_congr_left
  intro a _
  simp only [Function.comp]
  split
  · exact m.keeps a
  · rfl

theorem mem_keys {u : Table ρ} (h : u.keys = t.keys) {a : ρ} (ha : a ∈ t) :
    ∃ b ∈ u, key b = key a := by
  have hk : key a ∈ u.keys := by
    rw [h]
    exact List.mem_map_of_mem ha
  exact List.mem_map.mp hk

/-! ### Sums -/

theorem sum_congr {g h : ρ → ℤ} (he : ∀ a ∈ t, g a = h a) : t.sum g = t.sum h := by
  unfold sum
  rw [List.map_congr_left he]

theorem sum_add (g h : ρ → ℤ) : t.sum (fun a => g a + h a) = t.sum g + t.sum h := by
  unfold sum
  exact List.sum_map_add

theorem sum_zero : t.sum (fun _ => 0) = 0 := by
  unfold sum
  simp

theorem sum_eq_zero {g : ρ → ℤ} (h : ∀ a ∈ t, g a = 0) : t.sum g = 0 := by
  rw [sum_congr h]
  exact sum_zero

/-- An update moves a sum by what it changes in the rows it matches. -/
theorem sum_update (g : ρ → ℤ) :
    (t.update p m).sum g = t.sum g + t.sum fun a => if p a then g (m.set a) - g a else 0 := by
  rw [← sum_add]
  unfold sum update
  simp only [List.map_map]
  congr 1
  apply List.map_congr_left
  intro a _
  simp only [Function.comp]
  split
  · ring
  · ring

theorem sum_update_eq {g : ρ → ℤ} (h : ∀ a ∈ t, p a → g (m.set a) = g a) :
    (t.update p m).sum g = t.sum g := by
  have h0 : (t.sum fun a => if p a then g (m.set a) - g a else 0) = 0 := by
    apply sum_eq_zero
    intro a ha
    split
    · rw [h a ha ‹_›]
      ring
    · rfl
  rw [sum_update, h0, add_zero]

/-- A sum to which the row `r` alone contributes. -/
theorem sum_eq_single {g : ρ → ℤ} (hr : r ∈ t) (h : ∀ a ∈ t, a ≠ r → g a = 0) :
    t.sum g = g r := by
  have hnd : t.rows.Nodup := by
    refine t.distinct.imp ?_
    rintro a b hab rfl
    exact hab (Keyed.clash_refl _)
  obtain ⟨l, l', hl⟩ := List.append_of_mem (mem_iff.mp hr)
  have hout : ∀ a ∈ l ++ l', g a = 0 := by
    intro a ha
    apply h a
    · rw [mem_iff, hl]
      rcases List.mem_append.mp ha with ha | ha
      · exact List.mem_append_left _ ha
      · exact List.mem_append_right _ (List.mem_cons_of_mem _ ha)
    · rintro rfl
      rw [hl, List.nodup_middle] at hnd
      exact (List.nodup_cons.mp hnd).1 ha
  have hsum : ∀ k : List ρ, (∀ a ∈ k, a ∈ l ++ l') → (k.map g).sum = 0 := by
    intro k hk
    apply List.sum_eq_zero
    intro x hx
    obtain ⟨a, ha, rfl⟩ := List.mem_map.mp hx
    exact hout a (hk a ha)
  unfold sum
  rw [hl, List.map_append, List.map_cons, List.sum_append, List.sum_cons]
  rw [hsum l fun a ha => List.mem_append_left _ ha, hsum l' fun a ha => List.mem_append_right _ ha]
  ring

/-- An update that matches the single row `r` moves a sum by what it changes there. -/
theorem sum_update_single {g : ρ → ℤ} (hr : r ∈ t) (hp : p r) (h : ∀ a ∈ t, p a → a = r) :
    (t.update p m).sum g = t.sum g + (g (m.set r) - g r) := by
  have h1 : (t.sum fun a => if p a then g (m.set a) - g a else 0) = g (m.set r) - g r := by
    rw [sum_eq_single hr, if_pos hp]
    intro a ha hne
    exact if_neg fun hpa => hne (h a ha hpa)
  rw [sum_update, h1]

/-- The sum at the identifier of a row is its own contribution. -/
theorem sumAt_eq {id : ρ → ℤ} {g : ρ → ℤ} (huniq : ∀ a ∈ t, ∀ b ∈ t, id a = id b → a = b)
    (hr : r ∈ t) : t.sumAt id (id r) g = g r := by
  unfold sumAt
  rw [sum_eq_single hr, if_pos rfl]
  intro a ha hne
  exact if_neg fun h => hne (huniq a ha r hr h)

/-- Adding `d` at the row with identifier `j` adds `d` to the sum at `j`. -/
theorem sumAt_update {id : ρ → ℤ} {g : ρ → ℤ} {j k d : ℤ}
    (huniq : ∀ a ∈ t, ∀ b ∈ t, id a = id b → a = b)
    (hid : ∀ a, id (m.set a) = id a) (hf : ∀ a, g (m.set a) = g a + d)
    (hex : j = k → d ≠ 0 → ∃ a ∈ t, id a = j) :
    (t.update (fun a => id a = j) m).sumAt id k g =
      t.sumAt id k g + if j = k then d else 0 := by
  unfold sumAt
  by_cases hjk : j = k
  · rw [if_pos hjk]
    by_cases hd : d = 0
    · rw [sum_update_eq, hd, add_zero]
      intro a _ _
      rw [hid, hf, hd, add_zero]
    · obtain ⟨a, ha, haj⟩ := hex hjk hd
      rw [sum_update_single ha haj fun b hb hbj => huniq b hb a ha (hbj.trans haj.symm)]
      rw [hid, hf, if_pos (haj.trans hjk), if_pos (haj.trans hjk)]
      ring
  · rw [if_neg hjk, add_zero]
    apply sum_update_eq
    intro a _ haj
    rw [hid, if_neg fun h => hjk (haj.symm.trans h), if_neg fun h => hjk (haj.symm.trans h)]

/-- An update that leaves `g` and the identifiers alone leaves the sums alone. -/
theorem sumAt_update_eq {id : ρ → ℤ} {g : ρ → ℤ} {k : ℤ}
    (hid : ∀ a, id (m.set a) = id a) (hf : ∀ a, g (m.set a) = g a) :
    (t.update p m).sumAt id k g = t.sumAt id k g := by
  apply sum_update_eq
  intro a _ _
  rw [hid, hf]

/-- Deleting a row does not touch the sums at other identifiers. -/
theorem sumAt_delete {id : ρ → ℤ} {g : ρ → ℤ} {j k : ℤ} (hjk : j ≠ k) :
    (t.delete fun a => id a = j).sumAt id k g = t.sumAt id k g := by
  have h : ∀ l : List ρ, ((l.filter fun a => !decide (id a = j)).map
      fun a => if id a = k then g a else 0).sum =
        (l.map fun a => if id a = k then g a else 0).sum := by
    intro l
    induction l with
    | nil => rfl
    | cons a l ih =>
        by_cases ha : id a = j
        · rw [List.filter_cons_of_neg (by simp [ha]), ih, List.map_cons, List.sum_cons,
            if_neg fun hk => hjk (ha.symm.trans hk), zero_add]
        · rw [List.filter_cons_of_pos (by simp [ha]), List.map_cons, List.sum_cons, ih,
            List.map_cons, List.sum_cons]
  exact h t.rows

theorem sum_insert_new {g : ρ → ℤ} (h : ∀ a ∈ t, ¬ Clash (key a) (key r)) :
    (t.insert r).sum g = t.sum g + g r := by
  unfold sum
  rw [rows_insert h, List.map_append, List.sum_append, List.map_singleton, List.sum_singleton]

theorem sum_insert {g : ρ → ℤ} (h : g r = 0) : (t.insert r).sum g = t.sum g := by
  unfold insert
  split
  · simp [sum, h]
  · rfl

end lemmas

end Table

end Relational
