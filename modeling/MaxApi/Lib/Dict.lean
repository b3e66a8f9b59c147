import Mathlib.Data.List.AList

/-! # Maps with string keys

A map is an association list without duplicate keys.  Two loops over a map recur: one that builds
a map over the same keys and may leave keys out (`collect`), and one that only checks
(`checkAll`).  Either stops at the first error.  Their results are described key by key, so that
no proof depends on the order in which a loop visits the keys. -/

/-- A map with string keys. -/
abbrev Dict (α : Type) := AList fun _ : String => α

namespace Dict

variable {α β ε : Type}

/-- An entry of a map. -/
abbrev Entry (α : Type) := Sigma fun _ : String => α

/-- The entries that `f` makes of a list of entries. -/
def collectEntries (f : String → α → Except ε (Option β)) :
    List (Entry α) → Except ε (List (Entry β))
  | [] => .ok []
  | ⟨k, a⟩ :: l =>
      match f k a, collectEntries f l with
      | .error e, _ => .error e
      | .ok _, .error e => .error e
      | .ok none, .ok r => .ok r
      | .ok (some b), .ok r => .ok (⟨k, b⟩ :: r)

theorem collectEntries_cons {f : String → α → Except ε (Option β)} {k : String} {a : α}
    {l : List (Entry α)} {r : List (Entry β)} (h : collectEntries f (⟨k, a⟩ :: l) = .ok r) :
    ∃ o r', f k a = .ok o ∧ collectEntries f l = .ok r' ∧
      r = match o with | none => r' | some b => ⟨k, b⟩ :: r' := by
  unfold collectEntries at h
  cases hf : f k a with
  | error e => simp [hf] at h
  | ok o =>
      cases hl : collectEntries f l with
      | error e => cases o <;> simp [hf, hl] at h
      | ok r' =>
          refine ⟨o, r', rfl, rfl, ?_⟩
          cases o <;> simpa [hf, hl] using h.symm

theorem collectEntries_keys {f : String → α → Except ε (Option β)} :
    ∀ {l : List (Entry α)} {r : List (Entry β)}, collectEntries f l = .ok r →
      r.keys.Sublist l.keys
  | [], r, h => by
      have hr : r = [] := by
        unfold collectEntries at h
        simpa using h.symm
      rw [hr]
      exact List.Sublist.refl _
  | ⟨k, a⟩ :: l, r, h => by
      obtain ⟨o, r', _, hl, rfl⟩ := collectEntries_cons h
      have ih := collectEntries_keys hl
      cases o with
      | none => exact ih.cons k
      | some b => exact ih.cons_cons k

/-- The map that `f` makes of the entries of `s`. -/
def collect (f : String → α → Except ε (Option β)) (s : Dict α) : Except ε (Dict β) :=
  match h : collectEntries f s.entries with
  | .error e => .error e
  | .ok r => .ok ⟨r, List.Nodup.sublist (collectEntries_keys h) s.nodupKeys⟩

/-- Check the entries of a list. -/
def checkEntries (f : String → α → Except ε Unit) : List (Entry α) → Except ε Unit
  | [] => .ok ()
  | ⟨k, a⟩ :: l =>
      match f k a with
      | .error e => .error e
      | .ok _ => checkEntries f l

/-- Check every entry of `s`. -/
def checkAll (f : String → α → Except ε Unit) (s : Dict α) : Except ε Unit :=
  checkEntries f s.entries

theorem collect_entries {f : String → α → Except ε (Option β)} {s : Dict α} {t : Dict β} :
    collect f s = .ok t ↔ collectEntries f s.entries = .ok t.entries := by
  unfold collect
  constructor
  · intro h
    split at h
    · simp at h
    · next r hr =>
      rw [hr]
      obtain rfl := Except.ok.inj h
      rfl
  · intro h
    split
    · next e he => simp [he] at h
    · next r hr =>
      rw [hr] at h
      exact congrArg Except.ok (AList.ext (Except.ok.inj h))

theorem dlookup_collect {f : String → α → Except ε (Option β)} {k : String} :
    ∀ {l : List (Entry α)} {r : List (Entry β)}, collectEntries f l = .ok r → l.NodupKeys →
      (l.dlookup k = none → r.dlookup k = none) ∧
        ∀ a, l.dlookup k = some a → f k a = .ok (r.dlookup k)
  | [], r, h, _ => by
      have hr : r = [] := by
        unfold collectEntries at h
        simpa using h.symm
      rw [hr]
      exact ⟨fun _ => rfl, fun a ha => by simp at ha⟩
  | ⟨k', a'⟩ :: l, r, h, hnd => by
      obtain ⟨o, r', hf, hl, rfl⟩ := collectEntries_cons h
      have hnd' := List.nodupKeys_of_nodupKeys_cons hnd
      have hk' : k' ∉ l.keys := List.notMem_keys_of_nodupKeys_cons hnd
      obtain ⟨ihnone, ihsome⟩ := dlookup_collect (k := k) hl hnd'
      by_cases hk : k = k'
      · subst hk
        have hnone : r'.dlookup k = none := ihnone (List.dlookup_eq_none.mpr hk')
        constructor
        · intro h
          simp at h
        · intro a ha
          rw [List.dlookup_cons_eq] at ha
          obtain rfl := Option.some.inj ha
          cases o with
          | none => exact hf.trans (congrArg Except.ok hnone.symm)
          | some b =>
              dsimp only
              rw [List.dlookup_cons_eq]
              exact hf
      · have hne : (⟨k', a'⟩ : Entry α).1 ≠ k := fun h => hk h.symm
        rw [List.dlookup_cons_ne _ _ hk]
        cases o with
        | none => exact ⟨ihnone, ihsome⟩
        | some b =>
            dsimp only
            rw [List.dlookup_cons_ne _ _ hk]
            exact ⟨ihnone, ihsome⟩

section lemmas

variable {f : String → α → Except ε (Option β)} {s : Dict α} {t : Dict β} {k : String} {a : α}

/-- `collect` adds no keys. -/
theorem collect_none (h : collect f s = .ok t) (hk : s.lookup k = none) : t.lookup k = none :=
  (dlookup_collect (collect_entries.mp h) s.nodupKeys).1 hk

/-- What `collect` makes of one key. -/
theorem collect_some (h : collect f s = .ok t) (hk : s.lookup k = some a) :
    f k a = .ok (t.lookup k) :=
  (dlookup_collect (collect_entries.mp h) s.nodupKeys).2 a hk

/-- A key of the result comes from an entry of `s`. -/
theorem exists_of_collect {b : β} (h : collect f s = .ok t) (hk : t.lookup k = some b) :
    ∃ a, s.lookup k = some a ∧ f k a = .ok (some b) := by
  cases hs : s.lookup k with
  | none =>
      rw [collect_none h hs] at hk
      simp at hk
  | some a =>
      refine ⟨a, rfl, ?_⟩
      rw [← hk]
      exact collect_some h hs

/-- A loop that keeps every entry as it is returns the map it was given. -/
theorem collect_self {f : String → α → Except ε (Option α)} {s : Dict α}
    (h : ∀ k a, s.lookup k = some a → f k a = .ok (some a)) : collect f s = .ok s := by
  rw [collect_entries]
  have hall : ∀ l : List (Entry α), (∀ e ∈ l, f e.1 e.2 = .ok (some e.2)) →
      collectEntries f l = .ok l := by
    intro l
    induction l with
    | nil => exact fun _ => rfl
    | cons e l ih =>
        intro he
        have hl := ih fun e' he' => he e' (List.mem_cons_of_mem e he')
        have hf := he e List.mem_cons_self
        unfold collectEntries
        rw [hf, hl]
  refine hall s.entries fun e he => h e.1 e.2 ?_
  exact AList.mem_lookup_iff.mpr he

/-- Two loops that do the same to every entry are the same. -/
theorem collect_congr {g : String → α → Except ε (Option β)}
    (h : ∀ k a, s.lookup k = some a → f k a = g k a) : collect f s = collect g s := by
  have hall : ∀ l : List (Entry α), (∀ e ∈ l, f e.1 e.2 = g e.1 e.2) →
      collectEntries f l = collectEntries g l := by
    intro l
    induction l with
    | nil => exact fun _ => rfl
    | cons e l ih =>
        intro he
        have hl := ih fun e' he' => he e' (List.mem_cons_of_mem e he')
        have hf := he e List.mem_cons_self
        unfold collectEntries
        rw [hf, hl]
  have hentries := hall s.entries fun e he => h e.1 e.2 (AList.mem_lookup_iff.mpr he)
  cases hg : collect g s with
  | ok t =>
      rw [collect_entries, hentries]
      exact collect_entries.mp hg
  | error x =>
      unfold collect at hg ⊢
      split at hg
      · next y hy =>
        rw [← hg]
        split
        · next z hz =>
          rw [hentries, hy] at hz
          rw [Except.error.inj hz]
        · next r hr =>
          rw [hentries, hy] at hr
          simp at hr
      · simp at hg

/-- A loop that keeps every key keeps the keys. -/
theorem collect_keys (h : collect f s = .ok t) (hf : ∀ k a, f k a ≠ .ok none) :
    t.keys = s.keys := by
  have hall : ∀ (l : List (Entry α)) (r : List (Entry β)), collectEntries f l = .ok r →
      r.keys = l.keys := by
    intro l
    induction l with
    | nil =>
        intro r h
        have hr : r = [] := by
          unfold collectEntries at h
          simpa using h.symm
        rw [hr]
        rfl
    | cons e l ih =>
        intro r h
        obtain ⟨o, r', hf', hl, rfl⟩ := collectEntries_cons h
        cases o with
        | none => exact absurd hf' (hf _ _)
        | some b => rw [List.keys_cons, List.keys_cons, ih r' hl]
  exact hall s.entries t.entries (collect_entries.mp h)

end lemmas

/-! ### Changing every value -/

/-- Apply `f` to every value. -/
def mapValues (f : α → β) (s : Dict α) : Dict β :=
  ⟨s.entries.map fun e => ⟨e.1, f e.2⟩, by
    have hkeys : (s.entries.map fun e => (⟨e.1, f e.2⟩ : Entry β)).keys = s.entries.keys := by
      unfold List.keys
      rw [List.map_map]
      rfl
    unfold List.NodupKeys
    rw [hkeys]
    exact s.nodupKeys⟩

theorem lookup_mapValues (f : α → β) (s : Dict α) (k : String) :
    (s.mapValues f).lookup k = (s.lookup k).map f := by
  have hall : ∀ l : List (Entry α),
      (l.map fun e => (⟨e.1, f e.2⟩ : Entry β)).dlookup k = (l.dlookup k).map f := by
    intro l
    induction l with
    | nil => rfl
    | cons e l ih =>
        obtain ⟨k', a⟩ := e
        by_cases hk : k = k'
        · subst hk
          rw [List.map_cons, List.dlookup_cons_eq, List.dlookup_cons_eq]
          rfl
        · rw [List.map_cons, List.dlookup_cons_ne _ _ hk, List.dlookup_cons_ne _ _ hk]
          exact ih
  exact hall s.entries

end Dict
