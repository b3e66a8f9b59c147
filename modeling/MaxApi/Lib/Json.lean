import Mathlib.Data.List.Dedup
import Mathlib.Data.List.Sort
import Mathlib.Data.Rat.Defs

/-! # JSON documents

A document is a tree whose objects are lists of members, in the order of the text and possibly with
several members of one name.  Two readings of an object exist: a lookup in the text takes the first
member of a name, a decoder keeps the last one.

A location is a list of components.  A component names a member of an object, or an element of an
array by its index.  `setAt` and `deleteAt` write one location: `setAt` also makes the containers
that are missing on the way, and `-1` is the place after the last element of an array. -/

/-- A document; numbers are the values of their literals. -/
inductive Json where
  | null
  | bool (b : Bool)
  | number (n : ℚ)
  | string (s : String)
  | array (items : List Json)
  | object (members : List (String × Json))

namespace Json

/-! ### Members of one name -/

section members

variable {α : Type}

/-- The first member of a name. -/
def first (k : String) : List (String × α) → Option α
  | [] => none
  | (l, a) :: ms => if l = k then some a else first k ms

/-- The last member of a name. -/
def last (k : String) : List (String × α) → Option α
  | [] => none
  | (l, a) :: ms => (last k ms).orElse fun _ => if l = k then some a else none

/-- Write the first member of a name, or a new one at the end. -/
def put (k : String) (v : α) : List (String × α) → List (String × α)
  | [] => [(k, v)]
  | (l, a) :: ms => if l = k then (l, v) :: ms else (l, a) :: put k v ms

/-- Remove the first member of a name. -/
def removeFirst (k : String) : List (String × α) → List (String × α)
  | [] => []
  | (l, a) :: ms => if l = k then ms else (l, a) :: removeFirst k ms

/-- The number of members of a name. -/
def occurrences (k : String) : List (String × α) → ℕ
  | [] => 0
  | (l, _) :: ms => occurrences k ms + if l = k then 1 else 0

/-- One member for each name, the one that `lookup` finds, in the order of the names. -/
def canonicalBy (lookup : String → List (String × α) → Option α) (ms : List (String × α)) :
    List (String × α) :=
  ((ms.map Prod.fst).dedup.insertionSort (· ≤ ·)).filterMap fun k => (lookup k ms).map (k, ·)

/-- One member for each name, the last one, in the order of the names. -/
def canonical (ms : List (String × α)) : List (String × α) := canonicalBy last ms

theorem last_eq_none {k : String} {ms : List (String × α)} :
    last k ms = none ↔ occurrences k ms = 0 := by
  induction ms with
  | nil => simp [last, occurrences]
  | cons m ms ih =>
      obtain ⟨l, a⟩ := m
      unfold last occurrences
      cases hl : last k ms with
      | none =>
          rw [ih.mp hl]
          by_cases hk : l = k
          · simp [hk]
          · simp [hk]
      | some b =>
          have hne : occurrences k ms ≠ 0 := fun h => by simp [ih.mpr h] at hl
          simp
          omega

theorem first_put (k l : String) (v : α) (ms : List (String × α)) :
    first l (put k v ms) = if k = l then some v else first l ms := by
  induction ms with
  | nil => simp [put, first]
  | cons m ms ih =>
      obtain ⟨n, a⟩ := m
      unfold put
      by_cases hn : n = k
      · rw [if_pos hn]
        unfold first
        subst hn
        by_cases hl : n = l
        · simp [hl]
        · simp [hl]
      · rw [if_neg hn]
        unfold first
        rw [ih]
        by_cases hl : n = l
        · have hk : k ≠ l := fun h => hn (hl.trans h.symm)
          simp [hl, hk]
        · simp [hl]

theorem occurrences_put (k l : String) (v : α) (ms : List (String × α)) :
    occurrences l (put k v ms) =
      if k = l then max 1 (occurrences l ms) else occurrences l ms := by
  induction ms with
  | nil =>
      unfold put occurrences occurrences
      by_cases hl : k = l
      · simp [hl]
      · simp [hl]
  | cons m ms ih =>
      obtain ⟨n, a⟩ := m
      unfold put
      by_cases hn : n = k
      · rw [if_pos hn]
        unfold occurrences
        subst hn
        by_cases hl : n = l
        · simp [hl]
        · simp [hl]
      · rw [if_neg hn]
        unfold occurrences
        rw [ih]
        by_cases hk : k = l
        · have hl : n ≠ l := fun h => hn (h.trans hk.symm)
          simp [hk, hl]
        · simp [hk]

/-- What a decoder keeps of a name after a write: the value if the name occurs at most once, the
old last member otherwise. -/
theorem last_put (k l : String) (v : α) (ms : List (String × α)) :
    last l (put k v ms) = if k = l ∧ occurrences l ms ≤ 1 then some v else last l ms := by
  induction ms with
  | nil =>
      unfold put last last occurrences
      by_cases hl : k = l
      · simp [hl]
      · simp [hl]
  | cons m ms ih =>
      obtain ⟨n, a⟩ := m
      unfold put
      by_cases hn : n = k
      · rw [if_pos hn]
        subst hn
        unfold last occurrences
        by_cases hl : n = l
        · subst hl
          cases hlast : last n ms with
          | none =>
              rw [last_eq_none.mp hlast]
              simp
          | some b =>
              have hpos : occurrences n ms ≠ 0 := fun h => by simp [last_eq_none.mpr h] at hlast
              simp [hpos]
        · simp [hl]
      · rw [if_neg hn]
        unfold last occurrences
        rw [ih]
        by_cases hk : k = l
        · have hl : n ≠ l := fun h => hn (h.trans hk.symm)
          simp only [hk, hl, true_and, if_false, Nat.add_zero]
          by_cases hone : occurrences l ms ≤ 1
          · simp [hone]
          · simp [hone]
        · simp [hk]

theorem last_concat (k l : String) (v : α) (ms : List (String × α)) :
    last l (ms ++ [(k, v)]) = if k = l then some v else last l ms := by
  induction ms with
  | nil => simp [last]
  | cons m ms ih =>
      obtain ⟨n, a⟩ := m
      rw [List.cons_append]
      unfold last
      rw [ih]
      by_cases hk : k = l
      · simp [hk]
      · simp [hk]

theorem occurrences_concat (k l : String) (v : α) (ms : List (String × α)) :
    occurrences l (ms ++ [(k, v)]) = occurrences l ms + if k = l then 1 else 0 := by
  induction ms with
  | nil => simp [occurrences]
  | cons m ms ih =>
      obtain ⟨n, a⟩ := m
      rw [List.cons_append]
      unfold occurrences
      rw [ih]
      omega

/-- Write the entries of a list one after the other; for a name in `adds` a new member is made in
any case. -/
def writes (adds : String → Bool) (entries ms : List (String × α)) : List (String × α) :=
  entries.foldl (fun ms e => if adds e.1 then ms ++ [e] else put e.1 e.2 ms) ms

theorem first_eq_none_of_not_mem {k : String} {ms : List (String × α)}
    (h : k ∉ ms.map Prod.fst) : first k ms = none := by
  induction ms with
  | nil => rfl
  | cons m ms ih =>
      simp only [List.map_cons, List.mem_cons, not_or] at h
      unfold first
      rw [if_neg fun hk => h.1 hk.symm, ih h.2]

theorem mem_of_first {k : String} {v : α} {ms : List (String × α)} (h : first k ms = some v) :
    (k, v) ∈ ms := by
  induction ms with
  | nil => simp [first] at h
  | cons m ms ih =>
      obtain ⟨l, a⟩ := m
      unfold first at h
      by_cases hl : l = k
      · rw [if_pos hl] at h
        rw [hl, Option.some.inj h]
        exact List.mem_cons_self
      · rw [if_neg hl] at h
        exact List.mem_cons_of_mem _ (ih h)

theorem first_eq_none_iff {k : String} {ms : List (String × α)} :
    first k ms = none ↔ k ∉ ms.map Prod.fst := by
  refine ⟨fun h hk => ?_, first_eq_none_of_not_mem⟩
  induction ms with
  | nil => exact absurd hk List.not_mem_nil
  | cons m ms ih =>
      unfold first at h
      by_cases hl : m.1 = k
      · rw [if_pos hl] at h
        exact nomatch h
      · rw [if_neg hl] at h
        rcases List.mem_cons.mp hk with hk | hk
        · exact hl hk.symm
        · exact ih h hk

theorem first_of_mem {k : String} {v : α} {ms : List (String × α)}
    (hnodup : (ms.map Prod.fst).Nodup) (h : (k, v) ∈ ms) : first k ms = some v := by
  induction ms with
  | nil => exact absurd h List.not_mem_nil
  | cons m ms ih =>
      rw [List.map_cons, List.nodup_cons] at hnodup
      unfold first
      rcases List.mem_cons.mp h with rfl | h
      · exact if_pos rfl
      · rw [if_neg, ih hnodup.2 h]
        intro hm
        exact hnodup.1 (List.mem_map.mpr ⟨(k, v), h, hm.symm⟩)

/-- What a decoder keeps of a name after writes of different names. -/
theorem last_writes {adds : String → Bool} {entries : List (String × α)}
    (hnodup : (entries.map Prod.fst).Nodup) (k : String) (ms : List (String × α)) :
    last k (writes adds entries ms) = match first k entries with
      | some v => if adds k = true ∨ occurrences k ms ≤ 1 then some v else last k ms
      | none => last k ms := by
  induction entries generalizing ms with
  | nil => rfl
  | cons e entries ih =>
      obtain ⟨l, v⟩ := e
      rw [List.map_cons, List.nodup_cons] at hnodup
      have hfirst : first k ((l, v) :: entries) = if l = k then some v else first k entries := rfl
      show last k (writes adds entries (if adds l then ms ++ [(l, v)] else put l v ms)) = _
      rw [ih hnodup.2, hfirst]
      by_cases hl : l = k
      · subst hl
        rw [first_eq_none_of_not_mem hnodup.1]
        by_cases hadds : adds l = true
        · simp [hadds, last_concat]
        · simp [hadds, last_put]
      · by_cases hadds : adds l = true
        · simp [hadds, hl, last_concat, occurrences_concat]
        · simp [hadds, hl, last_put, occurrences_put]

end members

/-! ### Locations -/

/-- A component of a location; `force` takes a text of digits for a name. -/
structure Component where
  part : String
  force : Bool
  deriving DecidableEq

/-- The value of a text of digits. -/
def digitsValue (cs : List Char) : ℕ := cs.foldl (fun n c => n * 10 + (c.toNat - '0'.toNat)) 0

/-- The number that a component is, if it is one. -/
def Component.number? (c : Component) : Option ℕ :=
  if ¬ c.force ∧ c.part.toList.all Char.isDigit then some (digitsValue c.part.toList) else none

/-- The index that a text addresses in an array. -/
def index? (part : String) : Option ℕ :=
  if part ≠ "" ∧ part.toList.all Char.isDigit then some (digitsValue part.toList) else none

/-- The value below a component. -/
def child (part : String) : Json → Option Json
  | .object ms => first part ms
  | .array items => (index? part).bind fun i => items[i]?
  | _ => none

/-- The value at a location. -/
def getAt : Json → List String → Option Json
  | j, [] => some j
  | j, part :: parts => (child part j).bind fun x => getAt x parts

/-- Replace the value below a component that has one. -/
def replaceChild (part : String) (v : Json) : Json → Json
  | .object ms => .object (put part v ms)
  | .array items =>
      match index? part with
      | some i => .array (items.set i v)
      | none => .array items
  | j => j

/-- Make the value below a component that has none. -/
def addChild (c : Component) (v : Json) : Json → Except String Json
  | .object ms => .ok (.object (put c.part v ms))
  | .array items =>
      match c.number? with
      | some n => .ok (.array (items ++ List.replicate (n - items.length) .null ++ [v]))
      | none =>
          if c.part = "-1" ∧ ¬ c.force then .ok (.array (items ++ [v]))
          else .error ("cannot set array element for non-numeric key '" ++ c.part ++ "'")
  | _ =>
      match c.number? with
      | some n => .ok (.array (List.replicate n .null ++ [v]))
      | none => .ok (.object [(c.part, v)])

/-- A value in containers of its own. -/
def build : List Component → Json → Json
  | [], v => v
  | c :: cs, v =>
      match c.number? with
      | some n => .array (List.replicate n .null ++ [build cs v])
      | none =>
          if c.part = "-1" ∧ ¬ c.force then .array [build cs v] else .object [(c.part, build cs v)]

/-- Write a location. -/
def setAt : Json → List Component → Json → Except String Json
  | _, [], v => .ok v
  | j, c :: cs, v =>
      match child c.part j with
      | some x => (setAt x cs v).map fun y => replaceChild c.part y j
      | none => addChild c (build cs v) j

/-- The component that a removal takes `-1` for: the last element of an array. -/
def removedPart (c : Component) : Json → String
  | .array items => if c.part = "-1" ∧ ¬ c.force then toString (items.length - 1) else c.part
  | _ => c.part

/-- Remove the value below a component. -/
def removeChild (part : String) : Json → Json
  | .object ms => .object (removeFirst part ms)
  | .array items =>
      match index? part with
      | some i => .array (items.eraseIdx i)
      | none => .array items
  | j => j

/-- Remove a location; a location that does not exist is left alone. -/
def deleteAt : Json → List Component → Json
  | j, [] => j
  | j, [c] => removeChild (removedPart c j) j
  | j, c :: cs =>
      match child (removedPart c j) j with
      | some x => replaceChild (removedPart c j) (deleteAt x cs) j
      | none => j

/-! ### Decoded documents -/

section decoding

variable (rewrite : ℚ → ℚ) (members : List (String × Json) → List (String × Json))

mutual

/-- The document with the members of its objects as `members` makes them, and each number as
`rewrite` makes it. -/
def convert : Json → Json
  | .number n => .number (rewrite n)
  | .array items => .array (convertItems items)
  | .object ms => .object (members (convertMembers ms))
  | j => j

def convertItems : List Json → List Json
  | [] => []
  | j :: items => convert j :: convertItems items

def convertMembers : List (String × Json) → List (String × Json)
  | [] => []
  | (k, j) :: ms => (k, convert j) :: convertMembers ms

end

/-- What a decoder makes of a document: the last member of each name counts. -/
def decode : Json → Json := convert rewrite canonical

/-- The members of a decoded object, before those of one name are reduced to one. -/
def decodeMembers : List (String × Json) → List (String × Json) := convertMembers rewrite canonical

/-- What a reader that keeps the first member of each name makes of a document. -/
def value : Json → Json := convert rewrite (canonicalBy first)

theorem convertItems_eq_map (items : List Json) :
    convertItems rewrite members items = items.map (convert rewrite members) := by
  induction items with
  | nil => rfl
  | cons j items ih => rw [convertItems, ih, List.map_cons]

theorem convertMembers_eq_map (ms : List (String × Json)) :
    convertMembers rewrite members ms = ms.map fun m => (m.1, convert rewrite members m.2) := by
  induction ms with
  | nil => rfl
  | cons m ms ih => rw [convertMembers, ih, List.map_cons]

theorem decode_object (ms : List (String × Json)) :
    decode rewrite (.object ms) = .object (canonical (decodeMembers rewrite ms)) := by
  unfold decode convert decodeMembers
  rfl

theorem last_decodeMembers (k : String) (ms : List (String × Json)) :
    last k (decodeMembers rewrite ms) = (last k ms).map (decode rewrite) := by
  unfold decodeMembers
  induction ms with
  | nil => rfl
  | cons m ms ih =>
      obtain ⟨l, a⟩ := m
      unfold convertMembers last
      rw [ih]
      cases last k ms with
      | some b => rfl
      | none =>
          by_cases hk : l = k
          · simp [hk, decode]
          · simp [hk]

end decoding

/-- Canonical members keep the member of each name that was looked up. -/
theorem first_canonicalBy {α : Type} {lookup : String → List (String × α) → Option α}
    {ms : List (String × α)} (hnone : ∀ k, k ∉ ms.map Prod.fst → lookup k ms = none) (k : String) :
    first k (canonicalBy lookup ms) = lookup k ms := by
  have hfirst : ∀ names : List String,
      first k (names.filterMap fun l => (lookup l ms).map (l, ·)) =
        if k ∈ names then lookup k ms else none := by
    intro names
    induction names with
    | nil => rfl
    | cons l names ih =>
        rw [List.filterMap_cons]
        cases hl : lookup l ms with
        | none =>
            simp only [Option.map_none, ih, List.mem_cons]
            by_cases hk : k = l
            · subst hk
              simp [hl]
            · simp [hk]
        | some v =>
            simp only [Option.map_some]
            unfold first
            by_cases hk : l = k
            · subst hk
              simp [hl]
            · have hk' : ¬ k = l := fun h => hk h.symm
              rw [if_neg hk, ih]
              simp [hk']
  unfold canonicalBy
  rw [hfirst]
  by_cases hmem : k ∈ ((ms.map Prod.fst).dedup.insertionSort (· ≤ ·))
  · rw [if_pos hmem]
  · rw [if_neg hmem]
    rw [List.mem_insertionSort, List.mem_dedup] at hmem
    exact (hnone k hmem).symm

theorem last_eq_none_iff {α : Type} {k : String} {ms : List (String × α)} :
    last k ms = none ↔ k ∉ ms.map Prod.fst := by
  induction ms with
  | nil => exact ⟨fun _ h => absurd h List.not_mem_nil, fun _ => rfl⟩
  | cons m ms ih =>
      obtain ⟨l, b⟩ := m
      unfold last
      rw [List.map_cons, List.mem_cons]
      cases hlast : last k ms with
      | none =>
          have hrest := ih.mp hlast
          by_cases hl : l = k
          · simp [hl]
          · have hk : ¬ k = l := fun h => hl h.symm
            simp only [Option.orElse_none, if_neg hl, hk, hrest, or_self, not_false_eq_true]
      | some c =>
          have hrest : k ∈ ms.map Prod.fst := by
            by_contra hnot
            rw [ih.mpr hnot] at hlast
            exact nomatch hlast
          simp [hrest]

/-- Canonical members keep the last member of each name. -/
theorem first_canonical {α : Type} (k : String) (ms : List (String × α)) :
    first k (canonical ms) = last k ms :=
  first_canonicalBy (fun _ hk => last_eq_none_iff.mpr hk) k

theorem first_canonicalBy_first {α : Type} (k : String) (ms : List (String × α)) :
    first k (canonicalBy first ms) = first k ms :=
  first_canonicalBy (fun _ hk => first_eq_none_of_not_mem hk) k

theorem first_map {α β : Type} (f : α → β) (k : String) (ms : List (String × α)) :
    first k (ms.map fun m => (m.1, f m.2)) = (first k ms).map f := by
  induction ms with
  | nil => rfl
  | cons m ms ih =>
      obtain ⟨l, a⟩ := m
      rw [List.map_cons]
      unfold first
      by_cases hl : l = k
      · rw [if_pos hl, if_pos hl, Option.map_some]
      · rw [if_neg hl, if_neg hl, ih]

end Json
