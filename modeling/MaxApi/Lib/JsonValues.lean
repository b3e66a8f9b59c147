import MaxApi.Lib.Json

/-! # Values of documents

Two documents have the same value if a decoder that keeps every number reads the same from them.
A document whose objects have one member of each name keeps its value through a decoder exactly
when the decoder keeps its numbers (`same_decode_iff`). -/

namespace Json

/-- Induction over the tree. -/
@[elab_as_elim]
theorem induction {motive : Json → Prop} (null : motive .null) (bool : ∀ b, motive (.bool b))
    (number : ∀ n, motive (.number n)) (string : ∀ s, motive (.string s))
    (array : ∀ items, (∀ j ∈ items, motive j) → motive (.array items))
    (object : ∀ ms, (∀ m ∈ ms, motive m.2) → motive (.object ms)) (j : Json) : motive j := by
  refine Json.rec (motive_1 := motive) (motive_2 := fun items => ∀ j ∈ items, motive j)
    (motive_3 := fun ms => ∀ m ∈ ms, motive m.2) (motive_4 := fun m => motive m.2)
    null bool number string array object ?_ ?_ ?_ ?_ ?_ j
  · exact fun j h => absurd h List.not_mem_nil
  · intro j items hj hitems x hx
    rcases List.mem_cons.mp hx with rfl | hx
    · exact hj
    · exact hitems x hx
  · exact fun m h => absurd h List.not_mem_nil
  · intro m ms hm hms x hx
    rcases List.mem_cons.mp hx with rfl | hx
    · exact hm
    · exact hms x hx
  · exact fun k j hj => hj

/-! ### Canonical members -/

section canonical

variable {α β : Type}

theorem mem_of_last {k : String} {a : α} {ms : List (String × α)} (h : last k ms = some a) :
    (k, a) ∈ ms := by
  induction ms with
  | nil => exact nomatch h
  | cons m ms ih =>
      obtain ⟨l, b⟩ := m
      unfold last at h
      cases hlast : last k ms with
      | some c =>
          rw [hlast] at h
          obtain rfl : c = a := Option.some.inj h
          exact List.mem_cons_of_mem _ (ih hlast)
      | none =>
          rw [hlast] at h
          by_cases hl : l = k
          · subst hl
            have hb : some b = some a := by simpa using h
            rw [Option.some.inj hb]
            exact List.mem_cons_self
          · simp [hl] at h

/-- With one member of each name, the last member of a name is the first one. -/
theorem last_eq_first {ms : List (String × α)} (h : (ms.map Prod.fst).Nodup) (k : String) :
    last k ms = first k ms := by
  cases hlast : last k ms with
  | none => exact (first_eq_none_of_not_mem (last_eq_none_iff.mp hlast)).symm
  | some a => exact (first_of_mem h (mem_of_last hlast)).symm

theorem last_of_mem {ms : List (String × α)} (h : (ms.map Prod.fst).Nodup) {m : String × α}
    (hm : m ∈ ms) : last m.1 ms = some m.2 := by
  rw [last_eq_first h]
  exact first_of_mem h hm

theorem canonicalBy_first {ms : List (String × α)} (h : (ms.map Prod.fst).Nodup) :
    canonicalBy first ms = canonical ms := by
  unfold canonical canonicalBy
  congr 1
  funext k
  rw [last_eq_first h]

/-- A list of names, each with its last member. -/
theorem names_filterMap_last {names : List String} {ms : List (String × α)}
    (h : ∀ k ∈ names, k ∈ ms.map Prod.fst) :
    (names.filterMap fun k => (last k ms).map (k, ·)).map Prod.fst = names := by
  induction names with
  | nil => rfl
  | cons k names ih =>
      have hrest := ih fun l hl => h l (List.mem_cons_of_mem _ hl)
      cases hlast : last k ms with
      | none => exact absurd (h k List.mem_cons_self) (last_eq_none_iff.mp hlast)
      | some a =>
          rw [List.filterMap_cons, hlast, Option.map_some]
          dsimp only
          rw [List.map_cons, hrest]

/-- The names of canonical members are the names in their order, each once. -/
theorem names_canonical (ms : List (String × α)) :
    (canonical ms).map Prod.fst = (ms.map Prod.fst).dedup.insertionSort (· ≤ ·) := by
  unfold canonical canonicalBy
  apply names_filterMap_last
  intro k hk
  rw [List.mem_insertionSort, List.mem_dedup] at hk
  exact hk

theorem nodup_canonical (ms : List (String × α)) : ((canonical ms).map Prod.fst).Nodup := by
  rw [names_canonical]
  exact (List.perm_insertionSort _ _).nodup_iff.mpr (List.nodup_dedup _)

theorem last_canonical (k : String) (ms : List (String × α)) :
    last k (canonical ms) = last k ms := by
  rw [last_eq_first (nodup_canonical ms), first_canonical]

/-- Canonical members are not changed again. -/
theorem canonical_canonical (ms : List (String × α)) : canonical (canonical ms) = canonical ms := by
  have hnames : ((canonical ms).map Prod.fst).dedup.insertionSort (· ≤ ·) =
      (ms.map Prod.fst).dedup.insertionSort (· ≤ ·) := by
    rw [(nodup_canonical ms).dedup, names_canonical]
    exact (List.pairwise_insertionSort _ _).insertionSort_eq
  show canonicalBy last (canonical ms) = canonicalBy last ms
  unfold canonicalBy
  rw [hnames]
  congr 1
  funext k
  rw [last_canonical]

theorem mem_canonical {ms : List (String × α)} {m : String × α} (h : m ∈ canonical ms) :
    m ∈ ms := by
  unfold canonical canonicalBy at h
  obtain ⟨k, -, hk⟩ := List.mem_filterMap.mp h
  obtain ⟨a, ha, rfl⟩ := Option.map_eq_some_iff.mp hk
  exact mem_of_last ha

theorem canonical_map_congr {f g : String × α → β} {ms : List (String × α)}
    (h : ∀ m ∈ ms, f m = g m) :
    canonical (ms.map fun m => (m.1, f m)) = canonical (ms.map fun m => (m.1, g m)) := by
  congr 1
  apply List.map_congr_left
  intro m hm
  rw [h m hm]

/-- Canonical members of one name each can be told apart. -/
theorem canonical_map_inj {f g : String × α → β} {ms : List (String × α)}
    (hnodup : (ms.map Prod.fst).Nodup)
    (h : canonical (ms.map fun m => (m.1, f m)) = canonical (ms.map fun m => (m.1, g m))) :
    ∀ m ∈ ms, f m = g m := by
  intro m hm
  have hnames : ∀ t : String × α → β, ((ms.map fun m => (m.1, t m)).map Prod.fst).Nodup := by
    intro t
    rw [List.map_map]
    exact hnodup
  have hlast : ∀ t : String × α → β, last m.1 (ms.map fun m => (m.1, t m)) = some (t m) :=
    fun t => last_of_mem (hnames t) (m := (m.1, t m)) (List.mem_map.mpr ⟨m, hm, rfl⟩)
  have heq := congrArg (last m.1) h
  rw [last_canonical, last_canonical, hlast, hlast] at heq
  exact Option.some.inj heq

end canonical

/-! ### The same value -/

/-- The value of a document: what a decoder that keeps the numbers reads. -/
def meaning : Json → Json := decode fun n => n

/-- Two documents have the same value. -/
def Same (x y : Json) : Prop := meaning x = meaning y

theorem Same.refl (x : Json) : Same x x := rfl

section values

variable (rewrite : ℚ → ℚ)

theorem decode_array (items : List Json) :
    decode rewrite (.array items) = .array (items.map (decode rewrite)) := by
  unfold decode
  rw [convert, convertItems_eq_map]

theorem decode_members (ms : List (String × Json)) :
    decode rewrite (.object ms) =
      .object (canonical (ms.map fun m => (m.1, decode rewrite m.2))) := by
  rw [decode_object]
  unfold decodeMembers
  rw [convertMembers_eq_map]
  rfl

theorem value_array (items : List Json) :
    value rewrite (.array items) = .array (items.map (value rewrite)) := by
  unfold value
  rw [convert, convertItems_eq_map]

theorem value_members (ms : List (String × Json)) :
    value rewrite (.object ms) =
      .object (canonicalBy first (ms.map fun m => (m.1, value rewrite m.2))) := by
  unfold value
  rw [convert, convertMembers_eq_map]

/-- A decoded document is its own value. -/
theorem meaning_decode (j : Json) : meaning (decode rewrite j) = decode rewrite j := by
  induction j using Json.induction with
  | null => rfl
  | bool b => rfl
  | number n => rfl
  | string s => rfl
  | array items ih =>
      unfold meaning at ih ⊢
      rw [decode_array, decode_array, List.map_map]
      congr 1
      exact List.map_congr_left ih
  | object ms ih =>
      unfold meaning at ih ⊢
      rw [decode_members rewrite ms, decode_members]
      have hfixed : ∀ L : List (String × Json), (∀ m ∈ L, decode (fun n => n) m.2 = m.2) →
          L.map (fun m => (m.1, decode (fun n => n) m.2)) = L := by
        intro L hL
        conv_rhs => rw [← List.map_id L]
        apply List.map_congr_left
        intro m hm
        rw [hL m hm]
        rfl
      rw [hfixed, canonical_canonical]
      intro m hm
      obtain ⟨m', hm', rfl⟩ := List.mem_map.mp (mem_canonical hm)
      exact ih m' hm'

mutual

/-- The numbers of a document. -/
def numbers : Json → List ℚ
  | .number n => [n]
  | .array items => numbersItems items
  | .object ms => numbersMembers ms
  | _ => []

def numbersItems : List Json → List ℚ
  | [] => []
  | j :: items => numbers j ++ numbersItems items

def numbersMembers : List (String × Json) → List ℚ
  | [] => []
  | (_, j) :: ms => numbers j ++ numbersMembers ms

end

theorem mem_numbersItems {n : ℚ} {items : List Json} :
    n ∈ numbersItems items ↔ ∃ j ∈ items, n ∈ numbers j := by
  induction items with
  | nil => simp [numbersItems]
  | cons j items ih => simp [numbersItems, ih]

theorem mem_numbersMembers {n : ℚ} {ms : List (String × Json)} :
    n ∈ numbersMembers ms ↔ ∃ m ∈ ms, n ∈ numbers m.2 := by
  induction ms with
  | nil => simp [numbersMembers]
  | cons m ms ih =>
      obtain ⟨k, j⟩ := m
      simp [numbersMembers, ih]

mutual

/-- Every object of the document has one member of each name. -/
def Distinct : Json → Prop
  | .array items => DistinctItems items
  | .object ms => (ms.map Prod.fst).Nodup ∧ DistinctMembers ms
  | _ => True

def DistinctItems : List Json → Prop
  | [] => True
  | j :: items => Distinct j ∧ DistinctItems items

def DistinctMembers : List (String × Json) → Prop
  | [] => True
  | (_, j) :: ms => Distinct j ∧ DistinctMembers ms

end

theorem distinctItems_iff {items : List Json} :
    DistinctItems items ↔ ∀ j ∈ items, Distinct j := by
  induction items with
  | nil => simp [DistinctItems]
  | cons j items ih => simp [DistinctItems, ih]

theorem distinctMembers_iff {ms : List (String × Json)} :
    DistinctMembers ms ↔ ∀ m ∈ ms, Distinct m.2 := by
  induction ms with
  | nil => simp [DistinctMembers]
  | cons m ms ih =>
      obtain ⟨k, j⟩ := m
      simp [DistinctMembers, ih]

/-- The numbers of the document survive `rewrite`. -/
def Exact (j : Json) : Prop := ∀ n ∈ numbers j, rewrite n = n

/-- With distinct names a decoded document is the document's value exactly when its numbers
survive. -/
theorem decode_eq_meaning_iff {j : Json} (h : Distinct j) :
    decode rewrite j = meaning j ↔ Exact rewrite j := by
  unfold meaning Exact
  induction j using Json.induction with
  | null => exact ⟨fun _ n hn => absurd hn List.not_mem_nil, fun _ => rfl⟩
  | bool b => exact ⟨fun _ n hn => absurd hn List.not_mem_nil, fun _ => rfl⟩
  | string s => exact ⟨fun _ n hn => absurd hn List.not_mem_nil, fun _ => rfl⟩
  | number n =>
      constructor
      · intro heq m hm
        obtain rfl := List.mem_singleton.mp hm
        exact Json.number.inj heq
      · intro hall
        exact congrArg Json.number (hall n (List.mem_singleton.mpr rfl))
  | array items ih =>
      have hitems := distinctItems_iff.mp h
      rw [decode_array, decode_array, Json.array.injEq, List.map_inj_left]
      constructor
      · intro hall n hn
        obtain ⟨j, hj, hnj⟩ := mem_numbersItems.mp hn
        exact (ih j hj (hitems j hj)).mp (hall j hj) n hnj
      · intro hall j hj
        exact (ih j hj (hitems j hj)).mpr fun n hn => hall n (mem_numbersItems.mpr ⟨j, hj, hn⟩)
  | object ms ih =>
      obtain ⟨hnodup, hms⟩ := h
      have hms := distinctMembers_iff.mp hms
      rw [decode_members, decode_members, Json.object.injEq]
      constructor
      · intro hall n hn
        obtain ⟨m, hm, hnm⟩ := mem_numbersMembers.mp hn
        have heq := canonical_map_inj (f := fun m => decode rewrite m.2)
          (g := fun m => decode (fun n => n) m.2) hnodup hall m hm
        exact (ih m hm (hms m hm)).mp heq n hnm
      · intro hall
        apply canonical_map_congr (f := fun m => decode rewrite m.2)
          (g := fun m => decode (fun n => n) m.2)
        intro m hm
        exact (ih m hm (hms m hm)).mpr fun n hn => hall n (mem_numbersMembers.mpr ⟨m, hm, hn⟩)

/-- With distinct names it does not matter which member of a name a reader keeps. -/
theorem value_eq_decode {j : Json} (h : Distinct j) : value rewrite j = decode rewrite j := by
  induction j using Json.induction with
  | null => rfl
  | bool b => rfl
  | number n => rfl
  | string s => rfl
  | array items ih =>
      have hitems := distinctItems_iff.mp h
      rw [value_array, decode_array]
      congr 1
      exact List.map_congr_left fun j hj => ih j hj (hitems j hj)
  | object ms ih =>
      obtain ⟨hnodup, hms⟩ := h
      have hms := distinctMembers_iff.mp hms
      have hmap : ms.map (fun m => (m.1, value rewrite m.2)) =
          ms.map fun m => (m.1, decode rewrite m.2) := by
        apply List.map_congr_left
        intro m hm
        rw [ih m hm (hms m hm)]
      rw [value_members, decode_members, hmap, canonicalBy_first]
      rw [List.map_map]
      exact hnodup

variable {rewrite}

theorem same_decode_iff {j : Json} (h : Distinct j) :
    Same (decode rewrite j) j ↔ Exact rewrite j := by
  unfold Same
  rw [meaning_decode, decode_eq_meaning_iff rewrite h]

/-- **Main.** With distinct names, a document that is read into interface values and written back
keeps its value exactly when its numbers survive. -/
theorem same_value_iff {j : Json} (h : Distinct j) :
    Same (value rewrite j) j ↔ Exact rewrite j := by
  rw [value_eq_decode rewrite h, same_decode_iff h]

end values

end Json
