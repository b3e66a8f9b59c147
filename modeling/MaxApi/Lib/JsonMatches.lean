import MaxApi.Lib.JsonFrames
import MaxApi.Lib.JsonValues

/-! # Effects at many locations

What is done at a location depends on the value there (`Effect`, `actAt`).  Done one after the
other at the children of a value, in any order, it is done at each child once (`foldlM_members`,
`foldlM_items`); the elements of an array must not be removed for this, since the elements behind
a removed one move (`foldl_eraseIdx`). -/

namespace Json

/-- What is done at a location. -/
inductive Effect where
  | keep
  | set (v : Json)
  | remove

/-- The components of a location that are no forced names. -/
def components (loc : List String) : List Component := loc.map fun part => ⟨part, false⟩

/-- Do it at a location. -/
def act (j : Json) (loc : List String) : Effect → Except String Json
  | .keep => .ok j
  | .set v => setAt j (components loc) v
  | .remove => .ok (deleteAt j (components loc))

/-- Do at a location what the value there asks for. -/
def actAt (effect : Option Json → Except String Effect) (j : Json) (loc : List String) :
    Except String Json :=
  (effect (getAt j loc)).bind (act j loc)

/-- Two computations that succeed with the same results. -/
def Agree {α : Type} (x y : Except String α) : Prop := ∀ a, x = .ok a ↔ y = .ok a

theorem Agree.refl {α : Type} (x : Except String α) : Agree x x := fun _ => Iff.rfl

theorem Agree.trans {α : Type} {x y z : Except String α} (h : Agree x y) (h' : Agree y z) :
    Agree x z := fun a => (h a).trans (h' a)

theorem Agree.symm {α : Type} {x y : Except String α} (h : Agree x y) : Agree y x :=
  fun a => (h a).symm

theorem Agree.map {α β : Type} {x y : Except String α} (h : Agree x y) (f : α → β) :
    Agree (x.map f) (y.map f) := by
  intro b
  cases x with
  | ok a =>
      rw [(h a).mp rfl]
  | error e =>
      cases y with
      | ok a => exact absurd ((h a).mpr rfl) (fun h => nomatch h)
      | error e' => exact Iff.intro (fun h => nomatch h) fun h => nomatch h

/-! ### One child -/

theorem components_cons (part : String) (loc : List String) :
    components (part :: loc) = ⟨part, false⟩ :: components loc := rfl

theorem put_cons {α : Type} (k : String) (v : α) (m : String × α) (ms : List (String × α)) :
    put k v (m :: ms) = if m.1 = k then (m.1, v) :: ms else m :: put k v ms := rfl

theorem put_put {α : Type} (k : String) (v w : α) (ms : List (String × α)) :
    put k w (put k v ms) = put k w ms := by
  induction ms with
  | nil => simp [put]
  | cons m ms ih =>
      rw [put_cons, put_cons]
      by_cases hl : m.1 = k
      · rw [if_pos hl, if_pos hl, put_cons, if_pos hl]
      · rw [if_neg hl, if_neg hl, put_cons, if_neg hl, ih]

theorem replaceChild_replaceChild (part : String) (v w j : Json) :
    replaceChild part w (replaceChild part v j) = replaceChild part w j := by
  cases j with
  | object ms => exact congrArg Json.object (put_put part v w ms)
  | array items =>
      unfold replaceChild
      cases hi : index? part with
      | none => dsimp only
      | some i =>
          dsimp only
          rw [List.set_set]
  | null | bool _ | number _ | string _ => rfl

/-- What is done below a child is done in the child. -/
theorem actAt_cons {effect : Option Json → Except String Effect} {part : String} {j x : Json}
    {loc : List String} (hchild : child part j = some x) (hloc : loc ≠ []) :
    actAt effect j (part :: loc) =
      (actAt effect x loc).map fun y => replaceChild part y j := by
  unfold actAt
  rw [getAt_cons, hchild, Option.bind_some]
  cases effect (getAt x loc) with
  | error e => rfl
  | ok e =>
      show act j (part :: loc) e = (act x loc e).map fun y => replaceChild part y j
      cases e with
      | keep => exact congrArg Except.ok (replaceChild_self hchild).symm
      | set v =>
          show setAt j (components (part :: loc)) v = _
          rw [components_cons]
          conv_lhs => unfold setAt
          dsimp only
          rw [hchild]
          rfl
      | remove =>
          cases loc with
          | nil => exact absurd rfl hloc
          | cons part' loc =>
              refine congrArg Except.ok ?_
              rw [components_cons, components_cons]
              conv_lhs => unfold deleteAt
              rw [removedPart_of_child (c := ⟨part, false⟩) hchild]
              dsimp only
              rw [hchild]

/-- A fold below a child is a fold in the child. -/
theorem foldlM_child {effect : Option Json → Except String Effect} {part : String}
    {locs : List (List String)} (hlocs : ∀ loc ∈ locs, loc ≠ []) {j x : Json}
    (hchild : child part j = some x) :
    (locs.map (part :: ·)).foldlM (actAt effect) j =
      (locs.foldlM (actAt effect) x).map fun y => replaceChild part y j := by
  induction locs generalizing j x with
  | nil => exact congrArg Except.ok (replaceChild_self hchild).symm
  | cons loc locs ih =>
      rw [List.map_cons, List.foldlM_cons, List.foldlM_cons,
        actAt_cons hchild (hlocs loc List.mem_cons_self)]
      cases actAt effect x loc with
      | error e => rfl
      | ok y =>
          show (locs.map (part :: ·)).foldlM (actAt effect) (replaceChild part y j) =
            (locs.foldlM (actAt effect) y).map fun y => replaceChild part y j
          rw [ih (fun l hl => hlocs l (List.mem_cons_of_mem _ hl))
            (child_replaceChild_self hchild y)]
          congr 1
          funext z
          exact replaceChild_replaceChild part y z j

theorem foldlM_flatMap {α β σ : Type} (f : σ → β → Except String σ) (g : α → List β) (l : List α)
    (s : σ) : (l.flatMap g).foldlM f s = l.foldlM (fun s a => (g a).foldlM f s) s := by
  induction l generalizing s with
  | nil => rfl
  | cons a l ih =>
      rw [List.flatMap_cons, List.foldlM_append, List.foldlM_cons]
      cases (g a).foldlM f s with
      | error e => rfl
      | ok s' => exact ih s'

/-! ### The members of an object -/

/-- The outcome for a child: its new value, or none if it is removed. -/
def onMembers (h : Json → Except String (Option Json)) :
    List (String × Json) → Except String (List (String × Json))
  | [] => .ok []
  | (k, x) :: ms => do
      let y ← h x
      let rest ← onMembers h ms
      .ok ((y.map (k, ·)).toList ++ rest)

/-- A member gets its outcome. -/
def settle (k : String) (y : Option Json) (ms : List (String × Json)) : List (String × Json) :=
  match y with
  | some y => put k y ms
  | none => removeFirst k ms

/-- The outcome of a computation that succeeds. -/
def outcome (h : Json → Except String (Option Json)) (x : Json) : Option Json :=
  match h x with
  | .ok y => y
  | .error _ => some x

theorem onMembers_ok {h : Json → Except String (Option Json)} {ms ms' : List (String × Json)} :
    onMembers h ms = .ok ms' ↔ (∀ m ∈ ms, ∃ y, h m.2 = .ok y) ∧
      ms' = ms.filterMap fun m => (outcome h m.2).map (m.1, ·) := by
  induction ms generalizing ms' with
  | nil =>
      constructor
      · intro hok
        exact ⟨fun m hm => absurd hm List.not_mem_nil, (Except.ok.inj hok).symm⟩
      · rintro ⟨-, rfl⟩
        rfl
  | cons m ms ih =>
      obtain ⟨k, x⟩ := m
      unfold onMembers
      rw [List.filterMap_cons]
      cases hx : h x with
      | error e =>
          constructor
          · exact fun hok => nomatch hok
          · rintro ⟨hall, -⟩
            obtain ⟨y, hy⟩ := hall (k, x) List.mem_cons_self
            dsimp only at hy
            rw [hx] at hy
            exact nomatch hy
      | ok y =>
          have houtcome : outcome h x = y := by
            unfold outcome
            rw [hx]
          dsimp only
          rw [houtcome]
          cases hrest : onMembers h ms with
          | error e =>
              constructor
              · exact fun hok => nomatch hok
              · rintro ⟨hall, -⟩
                have hok := ih.mpr ⟨fun m hm => hall m (List.mem_cons_of_mem _ hm), rfl⟩
                rw [hrest] at hok
                exact nomatch hok
          | ok rest =>
              obtain ⟨hall, rfl⟩ := ih.mp hrest
              have hall' : ∀ m ∈ (k, x) :: ms, ∃ y, h m.2 = .ok y := by
                intro m hm
                rcases List.mem_cons.mp hm with rfl | hm
                · exact ⟨y, hx⟩
                · exact hall m hm
              cases y with
              | none => exact ⟨fun hok => ⟨hall', (Except.ok.inj hok).symm⟩, fun hok => hok.2 ▸ rfl⟩
              | some y =>
                  exact ⟨fun hok => ⟨hall', (Except.ok.inj hok).symm⟩, fun hok => hok.2 ▸ rfl⟩

/-- With distinct names, settling a member changes this one only. -/
theorem settle_eq_filterMap {k : String} {y : Option Json} {ms : List (String × Json)}
    (hnodup : (ms.map Prod.fst).Nodup) (hk : k ∈ ms.map Prod.fst) :
    settle k y ms = ms.filterMap fun m => if m.1 = k then y.map (m.1, ·) else some m := by
  have hother : ∀ ms : List (String × Json), k ∉ ms.map Prod.fst →
      (ms.filterMap fun m => if m.1 = k then y.map (m.1, ·) else some m) = ms := by
    intro ms hms
    conv_rhs => rw [← List.filterMap_some (l := ms)]
    apply List.filterMap_congr
    intro m hm
    refine if_neg fun he => hms ?_
    rw [← he]
    exact List.mem_map_of_mem hm
  induction ms with
  | nil => exact absurd hk List.not_mem_nil
  | cons m ms ih =>
      obtain ⟨l, x⟩ := m
      rw [List.map_cons, List.nodup_cons] at hnodup
      rw [List.filterMap_cons]
      dsimp only
      by_cases hl : l = k
      · subst hl
        rw [if_pos rfl, hother ms hnodup.1]
        unfold settle
        cases y with
        | some y => exact if_pos rfl
        | none => exact if_pos rfl
      · have hrest : k ∈ ms.map Prod.fst := by
          rcases List.mem_cons.mp hk with he | he
          · exact absurd he.symm hl
          · exact he
        rw [if_neg hl]
        dsimp only
        rw [← ih hnodup.2 hrest]
        unfold settle
        cases y with
        | some y => exact if_neg hl
        | none => exact if_neg hl

theorem nodup_names_filterMap {f : String × Json → Option (String × Json)}
    (hf : ∀ m m', f m = some m' → m'.1 = m.1) {ms : List (String × Json)}
    (hnodup : (ms.map Prod.fst).Nodup) : ((ms.filterMap f).map Prod.fst).Nodup := by
  induction ms with
  | nil => exact hnodup
  | cons m ms ih =>
      rw [List.map_cons, List.nodup_cons] at hnodup
      rw [List.filterMap_cons]
      cases hm : f m with
      | none => exact ih hnodup.2
      | some m' =>
          dsimp only
          rw [List.map_cons, List.nodup_cons, hf m m' hm]
          refine ⟨fun hmem => hnodup.1 ?_, ih hnodup.2⟩
          obtain ⟨n', hn', heq⟩ := List.mem_map.mp hmem
          obtain ⟨n, hn, hfn⟩ := List.mem_filterMap.mp hn'
          rw [← heq, hf n n' hfn]
          exact List.mem_map_of_mem hn

theorem first_settle_of_ne {k l : String} (h : k ≠ l) (y : Option Json)
    (ms : List (String × Json)) : first l (settle k y ms) = first l ms := by
  unfold settle
  cases y with
  | some y => exact (first_put k l y ms).trans (if_neg h)
  | none => exact first_removeFirst_of_ne h ms

theorem mem_names_of_first {k : String} {x : Json} {ms : List (String × Json)}
    (h : first k ms = some x) : k ∈ ms.map Prod.fst :=
  List.mem_map_of_mem (mem_of_first h)

/-- Done one after the other at different members, in any order, each member gets its outcome. -/
theorem foldlM_members {step : Json → String → Except String Json}
    {h : Json → Except String (Option Json)} {names : List String} (hnames : names.Nodup)
    {ms : List (String × Json)} (hnodup : (ms.map Prod.fst).Nodup)
    (hmem : ∀ k ∈ names, k ∈ ms.map Prod.fst)
    (hstep : ∀ k ∈ names, ∀ x, first k ms = some x → ∀ ms', first k ms' = some x →
      step (.object ms') k = (h x).map fun y => .object (settle k y ms')) (j : Json) :
    names.foldlM step (.object ms) = .ok j ↔
      (∀ m ∈ ms, m.1 ∈ names → ∃ y, h m.2 = .ok y) ∧
        j = .object (ms.filterMap fun m =>
          if m.1 ∈ names then (outcome h m.2).map (m.1, ·) else some m) := by
  induction names generalizing ms with
  | nil =>
      have hsame : (ms.filterMap fun m =>
          if m.1 ∈ ([] : List String) then (outcome h m.2).map (m.1, ·) else some m) = ms := by
        conv_rhs => rw [← List.filterMap_some (l := ms)]
        exact List.filterMap_congr fun m _ => if_neg List.not_mem_nil
      rw [hsame]
      constructor
      · intro hok
        exact ⟨fun m _ hm => absurd hm List.not_mem_nil, (Except.ok.inj hok).symm⟩
      · rintro ⟨-, rfl⟩
        rfl
  | cons k names ih =>
      rw [List.nodup_cons] at hnames
      obtain ⟨⟨k', x⟩, hkx, hk'⟩ := List.mem_map.mp (hmem k List.mem_cons_self)
      dsimp only at hk'
      subst hk'
      have hfirst := first_of_mem hnodup hkx
      rw [List.foldlM_cons, hstep k' List.mem_cons_self x hfirst ms hfirst]
      -- the member of the name is the only one
      have hunique : ∀ m ∈ ms, m.1 = k' → m.2 = x := by
        intro m hm he
        have hm' := first_of_mem hnodup hm
        rw [he, hfirst] at hm'
        exact (Option.some.inj hm').symm
      cases hx : h x with
      | error e =>
          constructor
          · exact fun hok => nomatch hok
          · rintro ⟨hall, -⟩
            obtain ⟨y, hy⟩ := hall (k', x) hkx List.mem_cons_self
            dsimp only at hy
            rw [hx] at hy
            exact nomatch hy
      | ok y =>
          have houtcome : outcome h x = y := by
            unfold outcome
            rw [hx]
          have hsettle := settle_eq_filterMap (y := y) hnodup (hmem k' List.mem_cons_self)
          have hne : ∀ l ∈ names, k' ≠ l := fun l hl he => hnames.1 (he ▸ hl)
          have hnodup' : ((settle k' y ms).map Prod.fst).Nodup := by
            rw [hsettle]
            apply nodup_names_filterMap _ hnodup
            intro m m' hm
            by_cases he : m.1 = k'
            · rw [if_pos he] at hm
              obtain ⟨z, -, rfl⟩ := Option.map_eq_some_iff.mp hm
              rfl
            · rw [if_neg he] at hm
              rw [Option.some.inj hm]
          have hmem' : ∀ l ∈ names, l ∈ (settle k' y ms).map Prod.fst := by
            intro l hl
            obtain ⟨⟨l', z⟩, hz, hl'⟩ := List.mem_map.mp (hmem l (List.mem_cons_of_mem _ hl))
            dsimp only at hl'
            subst hl'
            have hfirst' := first_of_mem hnodup hz
            rw [← first_settle_of_ne (hne l' hl) y ms] at hfirst'
            exact mem_names_of_first hfirst'
          show names.foldlM step (.object (settle k' y ms)) = .ok j ↔ _
          rw [ih hnames.2 hnodup' hmem' fun l hl z hz ms' hz' =>
            hstep l (List.mem_cons_of_mem _ hl) z
              ((first_settle_of_ne (hne l hl) y ms).symm.trans hz) ms' hz']
          have hresult : ((settle k' y ms).filterMap fun m =>
              if m.1 ∈ names then (outcome h m.2).map (m.1, ·) else some m) =
                ms.filterMap fun m =>
                  if m.1 ∈ k' :: names then (outcome h m.2).map (m.1, ·) else some m := by
            rw [hsettle, List.filterMap_filterMap]
            apply List.filterMap_congr
            intro m hm
            by_cases he : m.1 = k'
            · rw [if_pos he, if_pos (he ▸ List.mem_cons_self), hunique m hm he, houtcome]
              cases y with
              | none => rfl
              | some y => exact if_neg fun hin => hne _ hin he.symm
            · rw [if_neg he, Option.bind_some]
              by_cases hin : m.1 ∈ names
              · rw [if_pos hin, if_pos (List.mem_cons_of_mem _ hin)]
              · rw [if_neg hin, if_neg fun hcons => (List.mem_cons.mp hcons).elim he hin]
          rw [hresult]
          refine and_congr_left fun _ => ⟨fun hall m hm hin => ?_, fun hall m hm hin => ?_⟩
          · by_cases he : m.1 = k'
            · exact ⟨y, by rw [hunique m hm he, hx]⟩
            · apply hall m _ ((List.mem_cons.mp hin).resolve_left he)
              rw [hsettle]
              exact List.mem_filterMap.mpr ⟨m, hm, if_neg he⟩
          · rw [hsettle] at hm
            obtain ⟨m', hm', heq⟩ := List.mem_filterMap.mp hm
            by_cases he : m'.1 = k'
            · exfalso
              rw [if_pos he] at heq
              obtain ⟨z, -, rfl⟩ := Option.map_eq_some_iff.mp heq
              exact hne _ hin he.symm
            · rw [if_neg he] at heq
              obtain rfl := Option.some.inj heq
              exact hall m' hm' (List.mem_cons_of_mem _ hin)

/-! ### The elements of an array -/

/-- The elements with their outcomes, without those that are removed. -/
def onItems (h : Json → Except String (Option Json)) : List Json → Except String (List Json)
  | [] => .ok []
  | x :: items => do
      let y ← h x
      let rest ← onItems h items
      .ok (y.toList ++ rest)

theorem onItems_ok {h : Json → Except String (Option Json)} {items items' : List Json} :
    onItems h items = .ok items' ↔
      (∀ x ∈ items, ∃ y, h x = .ok y) ∧ items' = items.filterMap (outcome h) := by
  induction items generalizing items' with
  | nil =>
      constructor
      · intro hok
        exact ⟨fun x hx => absurd hx List.not_mem_nil, (Except.ok.inj hok).symm⟩
      · rintro ⟨-, rfl⟩
        rfl
  | cons x items ih =>
      unfold onItems
      rw [List.filterMap_cons]
      cases hx : h x with
      | error e =>
          constructor
          · exact fun hok => nomatch hok
          · rintro ⟨hall, -⟩
            obtain ⟨y, hy⟩ := hall x List.mem_cons_self
            rw [hx] at hy
            exact nomatch hy
      | ok y =>
          have houtcome : outcome h x = y := by
            unfold outcome
            rw [hx]
          rw [houtcome]
          cases hrest : onItems h items with
          | error e =>
              constructor
              · exact fun hok => nomatch hok
              · rintro ⟨hall, -⟩
                have hok := ih.mpr ⟨fun x hx => hall x (List.mem_cons_of_mem _ hx), rfl⟩
                rw [hrest] at hok
                exact nomatch hok
          | ok rest =>
              obtain ⟨hall, rfl⟩ := ih.mp hrest
              have hall' : ∀ z ∈ x :: items, ∃ y, h z = .ok y := by
                intro z hz
                rcases List.mem_cons.mp hz with rfl | hz
                · exact ⟨y, hx⟩
                · exact hall z hz
              cases y with
              | none => exact ⟨fun hok => ⟨hall', (Except.ok.inj hok).symm⟩, fun hok => hok.2 ▸ rfl⟩
              | some y =>
                  exact ⟨fun hok => ⟨hall', (Except.ok.inj hok).symm⟩, fun hok => hok.2 ▸ rfl⟩

/-- Done one after the other at the elements, none of which is removed, each element gets its
outcome. -/
theorem foldlM_items {step : Json → ℕ → Except String Json}
    {h : Json → Except String (Option Json)} (hkeep : ∀ x, h x ≠ .ok none) {items : List Json}
    (hstep : ∀ i x, items[i]? = some x → ∀ items', items'[i]? = some x →
      step (.array items') i = (h x).map fun y => .array (items'.set i (y.getD x))) (j : Json) :
    (List.range items.length).foldlM step (.array items) = .ok j ↔
      (onItems h items).map Json.array = .ok j := by
  have hsuffix : ∀ rest pre done : List Json, pre ++ rest = items → done.length = pre.length →
      ((List.range' pre.length rest.length).foldlM step (.array (done ++ rest)) = .ok j ↔
        (onItems h rest).map (fun rest' => Json.array (done ++ rest')) = .ok j) := by
    intro rest
    induction rest with
    | nil => exact fun pre done _ _ => Iff.rfl
    | cons x rest ih =>
        intro pre done hitems hlength
        have hx : items[pre.length]? = some x := by
          rw [← hitems, List.getElem?_append_right (Nat.le_refl _), Nat.sub_self]
          rfl
        have hx' : (done ++ x :: rest)[pre.length]? = some x := by
          rw [← hlength, List.getElem?_append_right (Nat.le_refl _), Nat.sub_self]
          rfl
        rw [List.length_cons, List.range'_succ, List.foldlM_cons, hstep _ _ hx _ hx']
        unfold onItems
        cases hh : h x with
        | error e => exact Iff.intro (fun hok => nomatch hok) fun hok => nomatch hok
        | ok y =>
            cases y with
            | none => exact absurd hh (hkeep x)
            | some y =>
                have hset : (done ++ x :: rest).set pre.length y = (done ++ [y]) ++ rest := by
                  rw [← hlength, List.set_append_right _ _ (Nat.le_refl _), Nat.sub_self]
                  simp
                have hnext := ih (pre ++ [x]) (done ++ [y]) (by simp [hitems]) (by simp [hlength])
                rw [List.length_append, List.length_singleton] at hnext
                show (List.range' (pre.length + 1) rest.length).foldlM step
                  (.array ((done ++ x :: rest).set pre.length y)) = .ok j ↔ _
                rw [hset, hnext]
                cases onItems h rest with
                | error e => exact Iff.rfl
                | ok rest' =>
                    show Except.ok (Json.array (done ++ [y] ++ rest')) = .ok j ↔
                      Except.ok (Json.array (done ++ (y :: rest'))) = .ok j
                    rw [List.append_assoc]
                    exact Iff.rfl
  have hall := hsuffix items [] [] rfl rfl
  rw [List.range_eq_range']
  exact hall

/-- Removed one after the other, not every element of an array with two is removed. -/
theorem foldl_eraseIdx {y : Json} {items : List Json} {indices : List ℕ}
    (hpos : ∀ i ∈ indices, i ≠ 0) :
    ∃ items', indices.foldl (fun items i => items.eraseIdx i) (y :: items) = y :: items' := by
  induction indices generalizing items with
  | nil => exact ⟨items, rfl⟩
  | cons i indices ih =>
      obtain ⟨k, rfl⟩ := Nat.exists_eq_succ_of_ne_zero (hpos i List.mem_cons_self)
      rw [List.foldl_cons, List.eraseIdx_cons_succ]
      exact ih fun i hi => hpos i (List.mem_cons_of_mem _ hi)

end Json
