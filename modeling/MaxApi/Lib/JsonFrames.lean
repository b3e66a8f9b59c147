import MaxApi.Lib.Json

/-! # Locations apart from each other

Two locations that part at a component do not meet: writing one of them leaves the value at the
other.  A location of names goes through objects only; writing or removing a location apart from
it also makes nothing appear at it. -/

namespace Json

/-- Two components that name different members and different elements. -/
def Differ (a b : String) : Prop := a ≠ b ∧ ∀ i, index? a = some i → index? b ≠ some i

theorem differ_of_name {a b : String} (hne : a ≠ b) (h : index? a = none) : Differ a b := by
  refine ⟨hne, fun i hi => ?_⟩
  rw [h] at hi
  exact nomatch hi

/-- Two locations that part at one of their components. -/
def Apart : List String → List String → Prop
  | a :: p, b :: q => Differ a b ∨ a = b ∧ Apart p q
  | _, _ => False

/-- The location goes through objects only. -/
def Names (q : List String) : Prop := ∀ b ∈ q, index? b = none

theorem child_object (part : String) (ms : List (String × Json)) :
    child part (.object ms) = first part ms := rfl

theorem child_array (part : String) (items : List Json) :
    child part (.array items) = (index? part).bind fun i => items[i]? := rfl

theorem getAt_cons (j : Json) (part : String) (parts : List String) :
    getAt j (part :: parts) = (child part j).bind fun x => getAt x parts := rfl

theorem child_replaceChild_of_differ {a b : String} (h : Differ a b) (v j : Json) :
    child b (replaceChild a v j) = child b j := by
  cases j with
  | object ms =>
      show first b (put a v ms) = first b ms
      rw [first_put, if_neg h.1]
  | array items =>
      unfold replaceChild
      cases ha : index? a with
      | none => rfl
      | some i =>
          dsimp only
          rw [child_array, child_array]
          cases hb : index? b with
          | none => rfl
          | some k =>
              have hne : i ≠ k := fun he => h.2 i ha (he ▸ hb)
              exact List.getElem?_set_ne hne
  | null | bool _ | number _ | string _ => rfl

theorem child_replaceChild_self {a : String} {x j : Json} (h : child a j = some x) (v : Json) :
    child a (replaceChild a v j) = some v := by
  cases j with
  | object ms =>
      show first a (put a v ms) = some v
      rw [first_put, if_pos rfl]
  | array items =>
      rw [child_array] at h
      unfold replaceChild
      cases ha : index? a with
      | none =>
          rw [ha] at h
          exact nomatch h
      | some i =>
          rw [ha] at h
          obtain ⟨hi, -⟩ := List.getElem?_eq_some_iff.mp h
          dsimp only
          rw [child_array, ha]
          exact List.getElem?_set_self hi
  | null | bool _ | number _ | string _ => exact nomatch h

theorem child_addChild_of_differ {c : Component} {b : String} {v j j' z : Json}
    (h : Differ c.part b) (hadd : addChild c v j = .ok j') (hz : child b j = some z) :
    child b j' = some z := by
  cases j with
  | object ms =>
      obtain rfl := Except.ok.inj hadd
      rw [child_object, first_put, if_neg h.1]
      exact hz
  | array items =>
      rw [child_array] at hz
      obtain ⟨k, hk, hget⟩ := Option.bind_eq_some_iff.mp hz
      have hlt := (List.getElem?_eq_some_iff.mp hget).1
      unfold addChild at hadd
      cases hn : c.number? with
      | some n =>
          rw [hn] at hadd
          obtain rfl := Except.ok.inj hadd
          rw [child_array, hk, Option.bind_some, List.append_assoc, List.getElem?_append_left hlt,
            hget]
      | none =>
          rw [hn] at hadd
          dsimp only at hadd
          by_cases hlast : c.part = "-1" ∧ ¬ c.force
          · rw [if_pos hlast] at hadd
            obtain rfl := Except.ok.inj hadd
            rw [child_array, hk, Option.bind_some, List.getElem?_append_left hlt, hget]
          · rw [if_neg hlast] at hadd
            exact nomatch hadd
  | null | bool _ | number _ | string _ => exact nomatch hz

theorem setAt_some {c : Component} {cs : List Component} {v j j' x : Json}
    (h : child c.part j = some x) (hset : setAt j (c :: cs) v = .ok j') :
    ∃ y, setAt x cs v = .ok y ∧ j' = replaceChild c.part y j := by
  unfold setAt at hset
  rw [h] at hset
  dsimp only at hset
  cases hy : setAt x cs v with
  | error e =>
      rw [hy] at hset
      exact nomatch hset
  | ok y =>
      rw [hy] at hset
      exact ⟨y, rfl, (Except.ok.inj hset).symm⟩

theorem setAt_none {c : Component} {cs : List Component} {v j : Json}
    (h : child c.part j = none) : setAt j (c :: cs) v = addChild c (build cs v) j := by
  unfold setAt
  rw [h]

/-- Writing a location leaves the values at locations apart from it. -/
theorem getAt_setAt_of_apart {cs : List Component} {q : List String} {v j j' x : Json}
    (h : Apart (cs.map Component.part) q) (hset : setAt j cs v = .ok j')
    (hx : getAt j q = some x) : getAt j' q = some x := by
  induction cs generalizing j j' q with
  | nil => exact h.elim
  | cons c cs ih =>
      cases q with
      | nil => exact h.elim
      | cons b q =>
          rw [getAt_cons] at hx
          obtain ⟨z, hz, hq⟩ := Option.bind_eq_some_iff.mp hx
          cases hchild : child c.part j with
          | none =>
              rw [setAt_none hchild] at hset
              rcases h with hdiffer | ⟨heq, _⟩
              · rw [getAt_cons, child_addChild_of_differ hdiffer hset hz]
                exact hq
              · rw [heq, hz] at hchild
                exact nomatch hchild
          | some y =>
              obtain ⟨y', hy', rfl⟩ := setAt_some hchild hset
              rcases h with hdiffer | ⟨heq, hapart⟩
              · rw [getAt_cons, child_replaceChild_of_differ hdiffer, hz]
                exact hq
              · rw [heq, hz] at hchild
                obtain rfl := Option.some.inj hchild
                rw [heq, getAt_cons, child_replaceChild_self hz]
                exact ih hapart hy' hq

/-! ### Locations of names -/

theorem child_eq_none_of_name {b : String} (h : index? b = none) (items : List Json) :
    child b (.array items) = none := by
  rw [child_array, h]
  rfl

/-- What has been made for a location has nothing at the locations apart from it. -/
theorem getAt_build_of_apart {cs : List Component} {q : List String} {v : Json}
    (h : Apart (cs.map Component.part) q) (hnames : Names q) : getAt (build cs v) q = none := by
  induction cs generalizing q with
  | nil => exact h.elim
  | cons c cs ih =>
      cases q with
      | nil => exact h.elim
      | cons b q =>
          have hb := hnames b List.mem_cons_self
          rw [getAt_cons]
          unfold build
          cases c.number? with
          | some n =>
              dsimp only
              rw [child_eq_none_of_name hb]
              rfl
          | none =>
              dsimp only
              by_cases hlast : c.part = "-1" ∧ ¬ c.force
              · rw [if_pos hlast, child_eq_none_of_name hb]
                rfl
              · rw [if_neg hlast, child_object]
                unfold first
                rcases h with hdiffer | ⟨heq, hapart⟩
                · rw [if_neg hdiffer.1]
                  rfl
                · rw [if_pos heq]
                  exact ih hapart fun d hd => hnames d (List.mem_cons_of_mem _ hd)

theorem child_addChild_of_name {c : Component} {b : String} {v j j' : Json} (hb : index? b = none)
    (hne : c.part ≠ b) (hadd : addChild c v j = .ok j') : child b j' = child b j := by
  cases j with
  | object ms =>
      obtain rfl := Except.ok.inj hadd
      rw [child_object, child_object, first_put, if_neg hne]
  | array items =>
      unfold addChild at hadd
      rw [child_eq_none_of_name hb]
      cases hn : c.number? with
      | some n =>
          rw [hn] at hadd
          obtain rfl := Except.ok.inj hadd
          exact child_eq_none_of_name hb _
      | none =>
          rw [hn] at hadd
          dsimp only at hadd
          by_cases hlast : c.part = "-1" ∧ ¬ c.force
          · rw [if_pos hlast] at hadd
            obtain rfl := Except.ok.inj hadd
            exact child_eq_none_of_name hb _
          · rw [if_neg hlast] at hadd
            exact nomatch hadd
  | null | bool _ | number _ | string _ =>
      unfold addChild at hadd
      cases hn : c.number? with
      | some n =>
          rw [hn] at hadd
          obtain rfl := Except.ok.inj hadd
          exact child_eq_none_of_name hb _
      | none =>
          rw [hn] at hadd
          obtain rfl := Except.ok.inj hadd
          exact if_neg hne

theorem child_addChild_self {c : Component} {b : String} {v j j' : Json} (hb : index? b = none)
    (heq : c.part = b) (hadd : addChild c v j = .ok j') : ∀ x ∈ child b j', x = v := by
  intro x hx
  subst heq
  cases j with
  | object ms =>
      obtain rfl := Except.ok.inj hadd
      rw [child_object, first_put, if_pos rfl] at hx
      exact (Option.some.inj hx).symm
  | array items =>
      unfold addChild at hadd
      cases hn : c.number? with
      | some n =>
          rw [hn] at hadd
          obtain rfl := Except.ok.inj hadd
          rw [child_eq_none_of_name hb] at hx
          exact nomatch hx
      | none =>
          rw [hn] at hadd
          dsimp only at hadd
          by_cases hlast : c.part = "-1" ∧ ¬ c.force
          · rw [if_pos hlast] at hadd
            obtain rfl := Except.ok.inj hadd
            rw [child_eq_none_of_name hb] at hx
            exact nomatch hx
          · rw [if_neg hlast] at hadd
            exact nomatch hadd
  | null | bool _ | number _ | string _ =>
      unfold addChild at hadd
      cases hn : c.number? with
      | some n =>
          rw [hn] at hadd
          obtain rfl := Except.ok.inj hadd
          rw [child_eq_none_of_name hb] at hx
          exact nomatch hx
      | none =>
          rw [hn] at hadd
          obtain rfl := Except.ok.inj hadd
          have hself : child c.part (.object [(c.part, v)]) = some v := if_pos rfl
          rw [hself] at hx
          exact (Option.some.inj hx).symm

/-- Writing a location leaves the locations of names apart from it. -/
theorem getAt_setAt_of_names {cs : List Component} {q : List String} {v j j' : Json}
    (h : Apart (cs.map Component.part) q) (hnames : Names q) (hset : setAt j cs v = .ok j') :
    getAt j' q = getAt j q := by
  induction cs generalizing j j' q with
  | nil => exact h.elim
  | cons c cs ih =>
      cases q with
      | nil => exact h.elim
      | cons b q =>
          have hb := hnames b List.mem_cons_self
          have hrest : Names q := fun d hd => hnames d (List.mem_cons_of_mem _ hd)
          rw [getAt_cons, getAt_cons]
          cases hchild : child c.part j with
          | none =>
              rw [setAt_none hchild] at hset
              rcases h with hdiffer | ⟨heq, hapart⟩
              · rw [child_addChild_of_name hb hdiffer.1 hset]
              · rw [← heq, hchild]
                cases hz : child c.part j' with
                | none => rfl
                | some z =>
                    rw [heq] at hz
                    rw [child_addChild_self hb heq hset z hz]
                    exact getAt_build_of_apart hapart hrest
          | some y =>
              obtain ⟨y', hy', rfl⟩ := setAt_some hchild hset
              rcases h with hdiffer | ⟨heq, hapart⟩
              · rw [child_replaceChild_of_differ hdiffer]
              · rw [← heq, child_replaceChild_self hchild, hchild]
                exact ih hapart hrest hy'

theorem first_removeFirst_of_ne {α : Type} {k l : String} (h : k ≠ l) (ms : List (String × α)) :
    first l (removeFirst k ms) = first l ms := by
  induction ms with
  | nil => rfl
  | cons m ms ih =>
      obtain ⟨n, a⟩ := m
      unfold removeFirst
      by_cases hn : n = k
      · rw [if_pos hn]
        exact (if_neg fun hl => h (hn.symm.trans hl)).symm
      · rw [if_neg hn]
        unfold first
        rw [ih]

theorem child_removeChild_of_name {a b : String} (h : a ≠ b) (hb : index? b = none) (j : Json) :
    child b (removeChild a j) = child b j := by
  cases j with
  | object ms => exact first_removeFirst_of_ne h ms
  | array items =>
      rw [child_eq_none_of_name hb]
      unfold removeChild
      cases index? a with
      | none => exact child_eq_none_of_name hb _
      | some i => exact child_eq_none_of_name hb _
  | null | bool _ | number _ | string _ => rfl

theorem child_replaceChild_of_name {a b : String} (h : a ≠ b) (hb : index? b = none) (v j : Json) :
    child b (replaceChild a v j) = child b j := by
  cases j with
  | object ms =>
      show first b (put a v ms) = first b ms
      rw [first_put, if_neg h]
  | array items =>
      rw [child_eq_none_of_name hb]
      unfold replaceChild
      cases index? a with
      | none => exact child_eq_none_of_name hb _
      | some i => exact child_eq_none_of_name hb _
  | null | bool _ | number _ | string _ => rfl

/-- A component stands for itself in an object; in an array no name is affected. -/
theorem removedPart_eq_or (c : Component) (j : Json) :
    removedPart c j = c.part ∨ ∃ items, j = .array items := by
  cases j with
  | array items => exact .inr ⟨items, rfl⟩
  | object _ | null | bool _ | number _ | string _ => exact .inl rfl

/-- Removing a location leaves the locations of names apart from it. -/
theorem getAt_deleteAt_of_names {cs : List Component} {q : List String} {j : Json}
    (h : Apart (cs.map Component.part) q) (hnames : Names q) :
    getAt (deleteAt j cs) q = getAt j q := by
  induction cs generalizing j q with
  | nil => exact h.elim
  | cons c cs ih =>
      cases q with
      | nil => exact h.elim
      | cons b q =>
          have hb := hnames b List.mem_cons_self
          have hrest : Names q := fun d hd => hnames d (List.mem_cons_of_mem _ hd)
          rw [getAt_cons, getAt_cons]
          rcases removedPart_eq_or c j with hpart | ⟨items, rfl⟩
          · cases cs with
            | nil =>
                rcases h with hdiffer | ⟨_, hfalse⟩
                · unfold deleteAt
                  rw [hpart, child_removeChild_of_name hdiffer.1 hb]
                · exact hfalse.elim
            | cons d ds =>
                unfold deleteAt
                rw [hpart]
                cases hchild : child c.part j with
                | none => rfl
                | some x =>
                    dsimp only
                    rcases h with hdiffer | ⟨heq, hapart⟩
                    · rw [child_replaceChild_of_name hdiffer.1 hb]
                    · rw [← heq, child_replaceChild_self hchild, hchild]
                      exact ih hapart hrest
          · have hdelete : ∃ items', deleteAt (.array items) (c :: cs) = .array items' := by
              cases cs with
              | nil =>
                  unfold deleteAt removeChild
                  cases index? (removedPart c (.array items)) with
                  | none => exact ⟨_, rfl⟩
                  | some i => exact ⟨_, rfl⟩
              | cons d ds =>
                  unfold deleteAt
                  cases child (removedPart c (.array items)) (.array items) with
                  | none => exact ⟨_, rfl⟩
                  | some x =>
                      unfold replaceChild
                      cases index? (removedPart c (.array items)) with
                      | none => exact ⟨_, rfl⟩
                      | some i => exact ⟨_, rfl⟩
            obtain ⟨items', hitems'⟩ := hdelete
            rw [hitems', child_eq_none_of_name hb, child_eq_none_of_name hb]

/-! ### Reading what has been written -/

/-- No component is empty or stands for the place after the last element. -/
def Plain (cs : List Component) : Prop := ∀ c ∈ cs, c.part ≠ "" ∧ (c.part = "-1" → c.force = true)

theorem index?_of_number? {c : Component} {n : ℕ} (hne : c.part ≠ "") (h : c.number? = some n) :
    index? c.part = some n := by
  unfold Component.number? at h
  by_cases hdigits : ¬ c.force ∧ c.part.toList.all Char.isDigit
  · rw [if_pos hdigits] at h
    unfold index?
    rw [if_pos ⟨hne, hdigits.2⟩]
    exact h
  · rw [if_neg hdigits] at h
    exact nomatch h

theorem getElem?_pad (items : List Json) {n : ℕ} (h : items.length ≤ n) (v : Json) :
    (items ++ List.replicate (n - items.length) .null ++ [v])[n]? = some v := by
  have hlength : (items ++ List.replicate (n - items.length) Json.null).length = n := by
    rw [List.length_append, List.length_replicate]
    omega
  rw [List.getElem?_append_right (Nat.le_of_eq hlength), hlength, Nat.sub_self]
  rfl

theorem child_padded {c : Component} {n : ℕ} (hne : c.part ≠ "") (hn : c.number? = some n)
    (v : Json) : child c.part (.array (List.replicate n .null ++ [v])) = some v := by
  rw [child_array, index?_of_number? hne hn, Option.bind_some]
  exact getElem?_pad [] (Nat.zero_le n) v

theorem child_addChild_of_none {c : Component} {v j j' : Json} (hne : c.part ≠ "")
    (hlast : c.part = "-1" → c.force = true) (hnone : child c.part j = none)
    (hadd : addChild c v j = .ok j') : child c.part j' = some v := by
  cases j with
  | object ms =>
      obtain rfl := Except.ok.inj hadd
      rw [child_object, first_put, if_pos rfl]
  | array items =>
      unfold addChild at hadd
      cases hn : c.number? with
      | some n =>
          rw [hn] at hadd
          obtain rfl := Except.ok.inj hadd
          rw [child_array, index?_of_number? hne hn, Option.bind_some] at hnone ⊢
          exact getElem?_pad items (List.getElem?_eq_none_iff.mp hnone) v
      | none =>
          rw [hn] at hadd
          dsimp only at hadd
          rw [if_neg fun h => h.2 (hlast h.1)] at hadd
          exact nomatch hadd
  | null | bool _ | number _ | string _ =>
      unfold addChild at hadd
      cases hn : c.number? with
      | some n =>
          rw [hn] at hadd
          obtain rfl := Except.ok.inj hadd
          exact child_padded hne hn v
      | none =>
          rw [hn] at hadd
          obtain rfl := Except.ok.inj hadd
          exact if_pos rfl

theorem Plain.tail {c : Component} {cs : List Component} (h : Plain (c :: cs)) : Plain cs :=
  fun d hd => h d (List.mem_cons_of_mem _ hd)

theorem getAt_build_self {cs : List Component} (h : Plain cs) (v : Json) :
    getAt (build cs v) (cs.map Component.part) = some v := by
  induction cs with
  | nil => rfl
  | cons c cs ih =>
      obtain ⟨hne, hlast⟩ := h c List.mem_cons_self
      have hrest := ih h.tail
      rw [List.map_cons, getAt_cons]
      unfold build
      cases hn : c.number? with
      | some n =>
          dsimp only
          rw [child_padded hne hn]
          exact hrest
      | none =>
          dsimp only
          rw [if_neg fun h => h.2 (hlast h.1), child_object]
          have hfirst : first c.part [(c.part, build cs v)] = some (build cs v) := if_pos rfl
          rw [hfirst]
          exact hrest

/-- What has been written at a location is read there. -/
theorem getAt_setAt_self {cs : List Component} {v j j' : Json} (h : Plain cs)
    (hset : setAt j cs v = .ok j') : getAt j' (cs.map Component.part) = some v := by
  induction cs generalizing j j' with
  | nil => exact congrArg some (Except.ok.inj hset).symm
  | cons c cs ih =>
      obtain ⟨hne, hlast⟩ := h c List.mem_cons_self
      rw [List.map_cons, getAt_cons]
      cases hchild : child c.part j with
      | none =>
          rw [setAt_none hchild] at hset
          rw [child_addChild_of_none hne hlast hchild hset]
          exact getAt_build_self h.tail v
      | some y =>
          obtain ⟨y', hy', rfl⟩ := setAt_some hchild hset
          rw [child_replaceChild_self hchild]
          exact ih h.tail hy'

/-! ### Removing an element -/

/-- The index of an element after the removal of one. -/
def shiftIndex (removed part : String) : String :=
  match index? removed, index? part with
  | some i, some k => if i < k then toString (k - 1) else part
  | _, _ => part

def isArray : Json → Bool
  | .array _ => true
  | _ => false

/-- Where a value is after the removal of another one. -/
def relocate : Json → List String → List String → List String
  | j, a :: p, b :: q =>
      if p = [] then (if isArray j then shiftIndex a b else b) :: q
      else if a = b then
        match child a j with
        | some x => b :: relocate x p q
        | none => b :: q
      else b :: q
  | _, _, q => q

theorem index?_toString (n : ℕ) : index? (toString n) = some n := by
  have hlist : (toString n).toList = Nat.toDigits 10 n := by
    rw [Nat.toString_eq_ofList_toDigits, String.toList_ofList]
  have hdigits : (toString n).toList.all Char.isDigit = true := by
    rw [hlist, List.all_eq_true]
    intro c hc
    exact Nat.isDigit_of_mem_toDigits (by decide) (by decide) hc
  have hne : toString n ≠ "" := by
    intro he
    have hnil : Nat.toDigits 10 n = [] := by rw [← hlist, he]; rfl
    exact Nat.toDigits_ne_nil hnil
  unfold index?
  rw [if_pos ⟨hne, hdigits⟩, hlist]
  have hvalue : ∀ cs : List Char, ∀ m, cs.foldl (fun n c => n * 10 + (c.toNat - '0'.toNat)) m =
      Nat.ofDigitChars 10 cs m := by
    intro cs
    induction cs with
    | nil => exact fun m => rfl
    | cons c cs ih =>
        intro m
        rw [List.foldl_cons, ih, Nat.ofDigitChars_cons, Nat.mul_comm]
  unfold digitsValue
  rw [hvalue, Nat.ofDigitChars_ten_toDigits]

theorem removedPart_of_child {c : Component} {j x : Json} (h : child c.part j = some x) :
    removedPart c j = c.part := by
  rcases removedPart_eq_or c j with heq | ⟨items, rfl⟩
  · exact heq
  · unfold removedPart
    apply if_neg
    rintro ⟨hlast, -⟩
    rw [hlast] at h
    exact nomatch h

theorem child_removeChild {a b : String} {j v z : Json} (h : Differ a b)
    (hv : child a j = some v) (hz : child b j = some z) :
    child (if isArray j then shiftIndex a b else b) (removeChild a j) = some z := by
  cases j with
  | object ms =>
      show first b (removeFirst a ms) = some z
      rw [first_removeFirst_of_ne h.1]
      exact hz
  | array items =>
      rw [child_array] at hv hz
      obtain ⟨i, hi, -⟩ := Option.bind_eq_some_iff.mp hv
      obtain ⟨k, hk, hget⟩ := Option.bind_eq_some_iff.mp hz
      have hne : i ≠ k := fun he => h.2 i hi (he ▸ hk)
      unfold isArray shiftIndex removeChild
      rw [hi, hk]
      dsimp only
      rw [if_pos rfl]
      by_cases hlt : i < k
      · rw [if_pos hlt, child_array, index?_toString, Option.bind_some, List.getElem?_eraseIdx,
          if_neg (by omega)]
        have hsucc : k - 1 + 1 = k := by omega
        rw [hsucc, hget]
      · rw [if_neg hlt, child_array, hk, Option.bind_some, List.getElem?_eraseIdx,
          if_pos (by omega), hget]
  | null | bool _ | number _ | string _ => exact nomatch hv

/-- After the removal of a value, every value at a location apart from it is at its relocated
place. -/
theorem getAt_deleteAt {cs : List Component} {q : List String} {j v x : Json}
    (h : Apart (cs.map Component.part) q) (hv : getAt j (cs.map Component.part) = some v)
    (hx : getAt j q = some x) :
    getAt (deleteAt j cs) (relocate j (cs.map Component.part) q) = some x := by
  induction cs generalizing j q with
  | nil => exact h.elim
  | cons c cs ih =>
      cases q with
      | nil => exact h.elim
      | cons b q =>
          rw [List.map_cons, getAt_cons] at hv
          rw [getAt_cons] at hx
          obtain ⟨y, hy, hv⟩ := Option.bind_eq_some_iff.mp hv
          obtain ⟨z, hz, hx⟩ := Option.bind_eq_some_iff.mp hx
          rw [List.map_cons]
          unfold relocate
          cases cs with
          | nil =>
              rcases h with hdiffer | ⟨_, hfalse⟩
              · unfold deleteAt
                rw [removedPart_of_child hy, List.map_nil, if_pos rfl, getAt_cons,
                  child_removeChild hdiffer hy hz]
                exact hx
              · exact hfalse.elim
          | cons d ds =>
              unfold deleteAt
              rw [removedPart_of_child hy, hy, if_neg (by simp)]
              dsimp only
              rcases h with hdiffer | ⟨heq, hapart⟩
              · rw [if_neg hdiffer.1, getAt_cons, child_replaceChild_of_differ hdiffer, hz]
                exact hx
              · rw [if_pos heq, getAt_cons, ← heq, child_replaceChild_self hy]
                rw [← heq, hy] at hz
                obtain rfl := Option.some.inj hz
                exact ih hapart hv hx

theorem isArray_setAt {c : Component} {cs : List Component} {a : String} {v j j' x : Json}
    (hset : setAt j (c :: cs) v = .ok j') (hx : child a j = some x) : isArray j' = isArray j := by
  have hreplace : ∀ part y, isArray (replaceChild part y j) = isArray j := by
    intro part y
    cases j with
    | array items =>
        unfold replaceChild
        cases index? part with
        | none => rfl
        | some i => rfl
    | object _ | null | bool _ | number _ | string _ => rfl
  cases hchild : child c.part j with
  | some y =>
      obtain ⟨y', -, rfl⟩ := setAt_some hchild hset
      exact hreplace _ _
  | none =>
      rw [setAt_none hchild] at hset
      cases j with
      | object ms =>
          obtain rfl := Except.ok.inj hset
          rfl
      | array items =>
          unfold addChild at hset
          cases hn : c.number? with
          | some n =>
              rw [hn] at hset
              obtain rfl := Except.ok.inj hset
              rfl
          | none =>
              rw [hn] at hset
              dsimp only at hset
              by_cases hlast : c.part = "-1" ∧ ¬ c.force
              · rw [if_pos hlast] at hset
                obtain rfl := Except.ok.inj hset
                rfl
              · rw [if_neg hlast] at hset
                exact nomatch hset
      | null | bool _ | number _ | string _ => exact nomatch hx

/-- A write apart from a value does not change where its removal moves the others. -/
theorem relocate_setAt {cs : List Component} {p q : List String} {v j j' x : Json}
    (h : Apart (cs.map Component.part) p) (hset : setAt j cs v = .ok j')
    (hx : getAt j p = some x) : relocate j' p q = relocate j p q := by
  induction cs generalizing j j' p q with
  | nil => exact h.elim
  | cons c cs ih =>
      cases p with
      | nil => exact h.elim
      | cons a p =>
          cases q with
          | nil => rfl
          | cons b q =>
              rw [getAt_cons] at hx
              obtain ⟨z, hz, hx⟩ := Option.bind_eq_some_iff.mp hx
              unfold relocate
              rw [isArray_setAt hset hz]
              by_cases hp : p = []
              · rw [if_pos hp, if_pos hp]
              · rw [if_neg hp, if_neg hp]
                by_cases hab : a = b
                · rw [if_pos hab, if_pos hab, hz]
                  dsimp only
                  cases hchild : child c.part j with
                  | none =>
                      rw [setAt_none hchild] at hset
                      rcases h with hdiffer | ⟨heq, _⟩
                      · rw [child_addChild_of_differ hdiffer hset hz]
                      · rw [heq, hz] at hchild
                        exact nomatch hchild
                  | some y =>
                      obtain ⟨y', hy', rfl⟩ := setAt_some hchild hset
                      rcases h with hdiffer | ⟨heq, hapart⟩
                      · rw [child_replaceChild_of_differ hdiffer, hz]
                      · rw [heq, hz] at hchild
                        obtain rfl := Option.some.inj hchild
                        rw [heq, child_replaceChild_self hz]
                        dsimp only
                        rw [ih hapart hy' hx]
                · rw [if_neg hab, if_neg hab]

theorem Apart.symm {p q : List String} (h : Apart p q) : Apart q p := by
  induction p generalizing q with
  | nil => exact h.elim
  | cons a p ih =>
      cases q with
      | nil => exact h.elim
      | cons b q =>
          rcases h with ⟨hne, hindex⟩ | ⟨heq, hapart⟩
          · exact .inl ⟨fun he => hne he.symm, fun i hi hi' => hindex i hi' hi⟩
          · exact .inr ⟨heq.symm, ih hapart⟩

/-! ### Locations below each other -/

theorem getAt_append (j : Json) (p q : List String) :
    getAt j (p ++ q) = (getAt j p).bind fun x => getAt x q := by
  induction p generalizing j with
  | nil => rfl
  | cons a p ih =>
      rw [List.cons_append, getAt_cons, getAt_cons]
      cases child a j with
      | none => rfl
      | some x => exact ih x

theorem put_self {α : Type} {k : String} {v : α} {ms : List (String × α)}
    (h : first k ms = some v) : put k v ms = ms := by
  induction ms with
  | nil => exact nomatch h
  | cons m ms ih =>
      obtain ⟨l, a⟩ := m
      unfold first at h
      unfold put
      by_cases hl : l = k
      · rw [if_pos hl] at h ⊢
        rw [Option.some.inj h]
      · rw [if_neg hl] at h ⊢
        rw [ih h]

theorem removeFirst_of_none {α : Type} {k : String} {ms : List (String × α)}
    (h : first k ms = none) : removeFirst k ms = ms := by
  induction ms with
  | nil => rfl
  | cons m ms ih =>
      obtain ⟨l, a⟩ := m
      unfold first at h
      unfold removeFirst
      by_cases hl : l = k
      · rw [if_pos hl] at h
        exact absurd h (Option.some_ne_none a)
      · rw [if_neg hl] at h ⊢
        rw [ih h]

theorem replaceChild_self {part : String} {x j : Json} (h : child part j = some x) :
    replaceChild part x j = j := by
  cases j with
  | object ms => exact congrArg Json.object (put_self h)
  | array items =>
      rw [child_array] at h
      obtain ⟨i, hi, hget⟩ := Option.bind_eq_some_iff.mp h
      unfold replaceChild
      rw [hi]
      obtain ⟨hlt, rfl⟩ := List.getElem?_eq_some_iff.mp hget
      exact congrArg Json.array (List.set_getElem_self hlt)
  | null | bool _ | number _ | string _ => exact nomatch h

theorem removeChild_of_none {part : String} {j : Json} (h : child part j = none) :
    removeChild part j = j := by
  cases j with
  | object ms => exact congrArg Json.object (removeFirst_of_none h)
  | array items =>
      rw [child_array] at h
      unfold removeChild
      cases hi : index? part with
      | none => rfl
      | some i =>
          rw [hi, Option.bind_some] at h
          exact congrArg Json.array (List.eraseIdx_of_length_le (List.getElem?_eq_none_iff.mp h))
  | null | bool _ | number _ | string _ => rfl

theorem removedPart_of_plain {c : Component} (h : c.part = "-1" → c.force = true) (j : Json) :
    removedPart c j = c.part := by
  rcases removedPart_eq_or c j with heq | ⟨items, rfl⟩
  · exact heq
  · exact if_neg fun hlast => hlast.2 (h hlast.1)

/-- Removing what is not there changes nothing. -/
theorem deleteAt_of_none {cs : List Component} {j : Json} (h : Plain cs)
    (hnone : getAt j (cs.map Component.part) = none) : deleteAt j cs = j := by
  induction cs generalizing j with
  | nil => rfl
  | cons c cs ih =>
      have hpart := removedPart_of_plain (h c List.mem_cons_self).2 j
      rw [List.map_cons, getAt_cons] at hnone
      cases cs with
      | nil =>
          unfold deleteAt
          rw [hpart]
          apply removeChild_of_none
          cases hchild : child c.part j with
          | none => rfl
          | some x =>
              rw [hchild] at hnone
              exact nomatch hnone
      | cons d ds =>
          unfold deleteAt
          rw [hpart]
          cases hchild : child c.part j with
          | none => rfl
          | some x =>
              rw [hchild] at hnone
              dsimp only
              rw [ih h.tail hnone]
              exact replaceChild_self hchild

/-- The removal of a value below a location moves nothing apart from the location. -/
theorem relocate_append {p q s : List String} {j : Json} (h : Apart p q) (hs : s ≠ []) :
    relocate j (p ++ s) q = q := by
  induction p generalizing j q with
  | nil => exact h.elim
  | cons a p ih =>
      cases q with
      | nil => exact h.elim
      | cons b q =>
          rw [List.cons_append]
          unfold relocate
          rw [if_neg (List.append_ne_nil_of_right_ne_nil p hs)]
          rcases h with hdiffer | ⟨heq, hapart⟩
          · rw [if_neg hdiffer.1]
          · rw [if_pos heq]
            cases child a j with
            | none => rfl
            | some x =>
                dsimp only
                rw [ih hapart]

end Json
