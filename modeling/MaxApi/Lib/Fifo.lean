import Mathlib.Data.List.Nodup
import Mathlib.Data.List.Perm.Lattice

/-! # A bounded cache that gives up its oldest key

The entries of the cache are a map, and a list beside it holds the keys in the order in which they
came.  The two are separate data, so that they could disagree; `Consistent` says that they do not,
and `put` keeps it (`exists_put`).  Making room in a full cache reads the head of the order list:
`evict` has no result where that list is empty. -/

namespace Fifo

variable {κ α : Type} [DecidableEq κ]

structure Cache (κ α : Type) where
  entries : List (κ × α)
  order : List κ

namespace Cache

def empty : Cache κ α := ⟨[], []⟩

def keys (c : Cache κ α) : List κ := c.entries.map (·.1)

def lookup (c : Cache κ α) (k : κ) : Option α := (c.entries.find? (·.1 = k)).map (·.2)

/-- The entries without those of a key. -/
def without (k : κ) (entries : List (κ × α)) : List (κ × α) := entries.filter (·.1 ≠ k)

/-- Make room for one entry. -/
def evict (limit : ℕ) (c : Cache κ α) : Option (Cache κ α) :=
  if limit ≤ c.entries.length then
    match c.order with
    | [] => none
    | oldest :: rest => some ⟨without oldest c.entries, rest⟩
  else some c

/-- Make room and store an entry. -/
def put (limit : ℕ) (k : κ) (a : α) (c : Cache κ α) : Option (Cache κ α) :=
  (c.evict limit).map fun c => ⟨(k, a) :: without k c.entries, c.order ++ [k]⟩

/-- The order list holds the keys of the cache, each once, and there are not too many. -/
structure Consistent (limit : ℕ) (c : Cache κ α) : Prop where
  keys_nodup : c.keys.Nodup
  order_nodup : c.order.Nodup
  mem_order : ∀ k, k ∈ c.order ↔ k ∈ c.keys
  length_le : c.entries.length ≤ limit

variable {c : Cache κ α} {k : κ} {limit : ℕ}

omit [DecidableEq κ] in
theorem consistent_empty : (empty : Cache κ α).Consistent limit :=
  ⟨List.nodup_nil, List.nodup_nil, fun _ => Iff.rfl, Nat.zero_le _⟩

theorem lookup_eq_none : c.lookup k = none ↔ k ∉ c.keys := by
  unfold lookup keys
  rw [Option.map_eq_none_iff, List.find?_eq_none, List.mem_map]
  constructor
  · rintro h ⟨e, he, heq⟩
    exact h e he (decide_eq_true heq)
  · intro h e he heq
    exact h ⟨e, he, of_decide_eq_true heq⟩

theorem keys_without (k : κ) (entries : List (κ × α)) :
    (without k entries).map (·.1) = (entries.map (·.1)).filter (· ≠ k) := by
  unfold without
  rw [List.filter_map]
  rfl

theorem lookup_without {order : List κ} (k k' : κ) (entries : List (κ × α)) :
    (Cache.mk (without k entries) order).lookup k' =
      if k' = k then none else (Cache.mk entries order).lookup k' := by
  by_cases hk : k' = k
  · rw [if_pos hk, lookup_eq_none]
    unfold keys
    rw [keys_without]
    simp [hk]
  · rw [if_neg hk]
    unfold lookup without
    dsimp only
    rw [List.find?_filter]
    congr 2
    funext e
    by_cases he : e.1 = k'
    · simp [he, hk]
    · simp [he]

/-- A full cache loses one entry. -/
theorem length_without (hnodup : c.keys.Nodup) (hk : k ∈ c.keys) :
    (without k c.entries).length + 1 = c.entries.length := by
  have hlen : (without k c.entries).length = (c.keys.erase k).length := by
    rw [hnodup.erase_eq_filter, ← List.length_map (·.1), keys_without]
    unfold keys
    congr 2
    funext k'
    by_cases hk' : k' = k
    · simp [hk']
    · simp [hk']
  rw [hlen, List.length_erase_of_mem hk]
  have hpos := List.length_pos_of_mem hk
  unfold keys at hpos ⊢
  rw [List.length_map] at hpos ⊢
  omega

/-- **Making room** succeeds, and drops entries only. -/
theorem exists_evict (h : c.Consistent limit) (hlimit : 0 < limit) :
    ∃ c', c.evict limit = some c' ∧ c'.Consistent limit ∧ c'.entries.length < limit ∧
      (∀ k' b, c'.lookup k' = some b → c.lookup k' = some b) := by
  unfold evict
  by_cases hfull : limit ≤ c.entries.length
  · rw [if_pos hfull]
    have hlen := h.length_le
    cases horder : c.order with
    | nil =>
        have hkeys : c.keys = [] := by
          apply List.eq_nil_iff_forall_not_mem.mpr
          intro k hk
          have := (h.mem_order k).mpr hk
          rw [horder] at this
          exact List.not_mem_nil this
        have : c.entries.length = 0 := by
          rw [← List.length_map (·.1), show c.entries.map (·.1) = [] from hkeys]
          rfl
        omega
    | cons oldest rest =>
        have hnodup := h.order_nodup
        rw [horder] at hnodup
        obtain ⟨hnot, hrest⟩ := List.nodup_cons.mp hnodup
        have hmem : oldest ∈ c.keys := by
          rw [← h.mem_order, horder]
          exact List.mem_cons_self
        have hshorter := length_without h.keys_nodup hmem
        refine ⟨_, rfl, ⟨?_, hrest, ?_, ?_⟩, ?_, ?_⟩
        · unfold keys
          rw [keys_without]
          exact h.keys_nodup.filter _
        · intro k
          unfold keys
          rw [keys_without, List.mem_filter]
          have hk := h.mem_order k
          rw [horder, List.mem_cons] at hk
          dsimp only
          rw [decide_eq_true_iff]
          constructor
          · intro hrest
            exact ⟨hk.mp (Or.inr hrest), fun heq => hnot (heq ▸ hrest)⟩
          · intro ⟨hkey, hne⟩
            exact (hk.mpr hkey).resolve_left hne
        · dsimp only
          omega
        · dsimp only
          omega
        · intro k' b hb
          rw [lookup_without] at hb
          split_ifs at hb
          exact hb
  · rw [if_neg hfull]
    exact ⟨c, rfl, h, by omega, fun _ _ hb => hb⟩

/-- **Storing** an entry under a new key succeeds, keeps the cache consistent, and everything else
that is found afterwards was there before. -/
theorem exists_put (h : c.Consistent limit) (hlimit : 0 < limit) (hk : c.lookup k = none) (a : α) :
    ∃ c', c.put limit k a = some c' ∧ c'.Consistent limit ∧ c'.lookup k = some a ∧
      ∀ k' b, c'.lookup k' = some b → (k' = k ∧ b = a) ∨ c.lookup k' = some b := by
  obtain ⟨c₁, hevict, hc₁, hroom, hold⟩ := exists_evict h hlimit
  have hnew : k ∉ c₁.keys := by
    rw [← lookup_eq_none]
    cases hl : c₁.lookup k with
    | none => rfl
    | some b => rw [hold k b hl] at hk; cases hk
  have hsame : without k c₁.entries = c₁.entries := by
    unfold without
    rw [List.filter_eq_self]
    intro e he
    rw [decide_eq_true_iff]
    intro heq
    exact hnew (List.mem_map.mpr ⟨e, he, heq⟩)
  refine ⟨⟨(k, a) :: c₁.entries, c₁.order ++ [k]⟩, ?_, ⟨?_, ?_, ?_, ?_⟩, ?_, ?_⟩
  · unfold put
    rw [hevict, Option.map_some, hsame]
  · exact List.nodup_cons.mpr ⟨hnew, hc₁.keys_nodup⟩
  · rw [List.nodup_append]
    refine ⟨hc₁.order_nodup, List.nodup_singleton k, ?_⟩
    intro x hx y hy hxy
    rw [hxy, List.mem_singleton.mp hy] at hx
    exact hnew ((hc₁.mem_order k).mp hx)
  · intro k'
    have := hc₁.mem_order k'
    unfold keys at this ⊢
    rw [List.mem_append, List.mem_singleton, List.map_cons, List.mem_cons, this]
    exact or_comm
  · rw [List.length_cons]
    exact hroom
  · unfold lookup
    rw [List.find?_cons_of_pos (by simp)]
    rfl
  · intro k' b hb
    unfold lookup at hb
    by_cases hk' : k = k'
    · rw [List.find?_cons_of_pos (by simpa using hk')] at hb
      exact Or.inl ⟨hk'.symm, (Option.some.inj hb).symm⟩
    · rw [List.find?_cons_of_neg (by simpa using hk')] at hb
      exact Or.inr (hold k' b hb)

end Cache

end Fifo
