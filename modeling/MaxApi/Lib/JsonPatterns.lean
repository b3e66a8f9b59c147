import MaxApi.Lib.JsonMatches

/-! # Patterns of locations

A pattern is a location in which `*` stands for every child.  `actMatches` does at once, at every
location that a pattern addresses, what the value there asks for; `actEach` does it one location
after the other.  They agree if nothing is removed (`actEach_agree`); removals agree exactly when
no two elements of one array are removed (`actEach_removal_iff`). -/

namespace Json

/-! ### Patterns -/

/-- The locations that a pattern addresses in a document; `*` stands for every child, and the last
component of a pattern may be a new member of an object. -/
def locations : Json → List String → List (List String)
  | _, [] => [[]]
  | j, part :: parts =>
      if part = "*" then
        match j with
        | .object ms => ms.flatMap fun m => (locations m.2 parts).map (m.1 :: ·)
        | .array items => items.zipIdx.flatMap fun (item, i) =>
            (locations item parts).map (toString i :: ·)
        | _ => []
      else
        match child part j, j, parts with
        | some x, _, _ => (locations x parts).map (part :: ·)
        | none, .object _, [] => [[part]]
        | none, _, _ => []

/-- Do at every child what it asks for, or remove it. -/
def onChildren (h : Json → Except String (Option Json)) : Json → Except String Json
  | .object ms => (onMembers h ms).map Json.object
  | .array items => (onItems h items).map Json.array
  | j => .ok j

/-- The outcome of an effect on a value. -/
def Effect.outcome (x : Json) : Effect → Option Json
  | .keep => some x
  | .set v => some v
  | .remove => none

/-- Do at once, at every location that a pattern addresses in a document, what the value there asks
for. -/
def actMatches (effect : Option Json → Except String Effect) : Json → List String →
    Except String Json
  | j, [] => .ok j
  | j, part :: parts =>
      if part = "*" then
        onChildren (fun x =>
          if parts = [] then (effect (some x)).map (Effect.outcome x)
          else (actMatches effect x parts).map some) j
      else
        match child part j, j, parts with
        | some x, _, [] => (effect (some x)).bind (act j [part])
        | some x, _, _ :: _ => (actMatches effect x parts).map fun y => replaceChild part y j
        | none, .object _, [] => (effect none).bind (act j [part])
        | none, _, _ => .ok j

/-- No array of a document has two elements where a pattern with a last `*` addresses its
elements. -/
def Single : Json → List String → Prop
  | _, [] => True
  | j, part :: parts =>
      if part = "*" then
        if parts = [] then ∀ items, j = .array items → items.length ≤ 1
        else match j with
          | .object ms => ∀ m ∈ ms, Single m.2 parts
          | .array items => ∀ x ∈ items, Single x parts
          | _ => True
      else ∀ x, child part j = some x → Single x parts

/-- The objects that a pattern passes tell their members apart: where it takes all of them their
names differ, and a name that it goes below is there once. -/
def TellsApart : Json → List String → Prop
  | _, [] => True
  | j, part :: parts =>
      if part = "*" then
        match j with
        | .object ms => (ms.map Prod.fst).Nodup ∧ ∀ m ∈ ms, TellsApart m.2 parts
        | .array items => ∀ x ∈ items, TellsApart x parts
        | _ => True
      else parts ≠ [] → (∀ ms, j = .object ms → occurrences part ms ≤ 1) ∧
        ∀ x, child part j = some x → TellsApart x parts

/-! ### One location after the other -/

theorem locations_ne_nil {parts : List String} (hparts : parts ≠ []) (j : Json) :
    ∀ loc ∈ locations j parts, loc ≠ [] := by
  intro loc hloc
  cases parts with
  | nil => exact absurd rfl hparts
  | cons part parts =>
      unfold locations at hloc
      by_cases hstar : part = "*"
      · rw [if_pos hstar] at hloc
        cases j with
        | object ms =>
            obtain ⟨m, -, hm⟩ := List.mem_flatMap.mp hloc
            obtain ⟨loc', -, rfl⟩ := List.mem_map.mp hm
            exact List.cons_ne_nil _ _
        | array items =>
            obtain ⟨m, -, hm⟩ := List.mem_flatMap.mp hloc
            obtain ⟨loc', -, rfl⟩ := List.mem_map.mp hm
            exact List.cons_ne_nil _ _
        | null | bool _ | number _ | string _ => exact absurd hloc List.not_mem_nil
      · rw [if_neg hstar] at hloc
        split at hloc
        · obtain ⟨loc', -, rfl⟩ := List.mem_map.mp hloc
          exact List.cons_ne_nil _ _
        · rw [List.mem_singleton.mp hloc]
          exact List.cons_ne_nil _ _
        · exact absurd hloc List.not_mem_nil

theorem locations_members (ms : List (String × Json)) (parts : List String) :
    locations (.object ms) ("*" :: parts) =
      ms.flatMap fun m => (locations m.2 parts).map (m.1 :: ·) := by
  conv_lhs => unfold locations
  exact if_pos rfl

theorem locations_items (items : List Json) (parts : List String) :
    locations (.array items) ("*" :: parts) = items.zipIdx.flatMap fun m =>
      (locations m.1 parts).map (toString m.2 :: ·) := by
  conv_lhs => unfold locations
  exact if_pos rfl

theorem deleteAt_single (c : Component) (j : Json) :
    deleteAt j [c] = removeChild (removedPart c j) j := by
  rw [deleteAt]

theorem foldlM_congr {α σ : Type} {f g : σ → α → Except String σ} {l : List α}
    (h : ∀ a ∈ l, ∀ s, f s a = g s a) (s : σ) : l.foldlM f s = l.foldlM g s := by
  induction l generalizing s with
  | nil => rfl
  | cons a l ih =>
      rw [List.foldlM_cons, List.foldlM_cons, h a List.mem_cons_self]
      congr 1
      funext s'
      exact ih (fun b hb => h b (List.mem_cons_of_mem _ hb)) s'

section folds

variable (rewrite : ℚ → ℚ) (effect : Option Json → Except String Effect)

/-- What is done at the locations of a pattern, which are those of the decoded document, one after
the other. -/
def actEach (parts : List String) (j : Json) : Except String Json :=
  (locations (decode rewrite j) parts).foldlM (actAt effect) j

/-- What is done for one child. -/
def actChild (parts : List String) (x : Json) : Except String (Option Json) :=
  if parts = [] then (effect (some x)).map (Effect.outcome x)
  else (actEach rewrite effect parts x).map some

variable {rewrite effect}

theorem last_eq_first_of_occurrences {α : Type} {k : String} {ms : List (String × α)}
    (h : occurrences k ms ≤ 1) : last k ms = first k ms := by
  induction ms with
  | nil => rfl
  | cons m ms ih =>
      obtain ⟨l, a⟩ := m
      unfold occurrences at h
      unfold last first
      by_cases hl : l = k
      · rw [if_pos hl] at h
        rw [last_eq_none.mpr (by omega), if_pos hl, if_pos hl]
        rfl
      · rw [ih (by omega), if_neg hl, if_neg hl]
        cases first k ms with
        | none => rfl
        | some b => rfl

theorem child_decode {part : String} {j : Json}
    (h : ∀ ms, j = .object ms → occurrences part ms ≤ 1) :
    child part (decode rewrite j) = (child part j).map (decode rewrite) := by
  cases j with
  | object ms =>
      rw [decode_object, child_object, child_object, first_canonical, last_decodeMembers,
        last_eq_first_of_occurrences (h ms rfl)]
  | array items =>
      rw [decode_array, child_array, child_array]
      cases index? part with
      | none => rfl
      | some i => exact List.getElem?_map
  | null | bool _ | number _ | string _ => rfl

/-- A child is there after decoding exactly if it is there before. -/
theorem isSome_child_decode (rewrite : ℚ → ℚ) (part : String) (j : Json) :
    (child part (decode rewrite j)).isSome = (child part j).isSome := by
  by_cases hobject : ∃ ms, j = .object ms
  · obtain ⟨ms, rfl⟩ := hobject
    rw [decode_object, child_object, child_object, first_canonical, last_decodeMembers,
      Option.isSome_map, Bool.eq_iff_iff, Option.isSome_iff_ne_none, Option.isSome_iff_ne_none,
      ne_eq, ne_eq, last_eq_none_iff, first_eq_none_iff]
  · rw [child_decode fun ms hms => absurd ⟨ms, hms⟩ hobject, Option.isSome_map]

theorem Distinct.child {part : String} {j x : Json} (h : Distinct j)
    (hx : Json.child part j = some x) : Distinct x := by
  cases j with
  | object ms => exact distinctMembers_iff.mp h.2 _ (mem_of_first hx)
  | array items =>
      rw [child_array] at hx
      obtain ⟨i, -, hget⟩ := Option.bind_eq_some_iff.mp hx
      exact distinctItems_iff.mp h x (List.mem_of_getElem? hget)
  | null | bool _ | number _ | string _ => exact nomatch hx

/-- An effect at a child that exists. -/
theorem act_single {part : String} {j x : Json} (hchild : child part j = some x) (e : Effect) :
    act j [part] e = .ok (match e.outcome x with
      | some y => replaceChild part y j
      | none => removeChild part j) := by
  cases e with
  | keep => exact congrArg Except.ok (replaceChild_self hchild).symm
  | set v =>
      show setAt j [⟨part, false⟩] v = _
      unfold setAt
      dsimp only
      rw [hchild]
      rfl
  | remove =>
      refine congrArg Except.ok ?_
      show deleteAt j [⟨part, false⟩] = removeChild part j
      rw [deleteAt_single, removedPart_of_child (c := ⟨part, false⟩) hchild]

/-- What is done at one member or element. -/
theorem foldlM_actChild {part : String} {parts : List String} {j x : Json}
    (hchild : child part j = some x) :
    ((locations (decode rewrite x) parts).map (part :: ·)).foldlM (actAt effect) j =
      (actChild rewrite effect parts x).map fun y =>
        match y with
        | some y => replaceChild part y j
        | none => removeChild part j := by
  unfold actChild
  by_cases hparts : parts = []
  · subst hparts
    rw [if_pos rfl]
    show (actAt effect j [part] >>= fun j' => [].foldlM (actAt effect) j') = _
    unfold actAt
    rw [getAt_cons, hchild, Option.bind_some]
    cases he : effect (some x) with
    | error e =>
        rw [show effect (getAt x []) = .error e from he]
        rfl
    | ok e =>
        rw [show effect (getAt x []) = .ok e from he]
        show (act j [part] e >>= _) = _
        rw [act_single hchild]
        rfl
  · rw [if_neg hparts, foldlM_child (locations_ne_nil hparts _) hchild]
    unfold actEach
    cases (locations (decode rewrite x) parts).foldlM (actAt effect) x with
    | error e => rfl
    | ok y => rfl

/-- Done one after the other at the members of an object, every member gets its outcome. -/
theorem actEach_members {parts : List String} {ms : List (String × Json)}
    (hnodup : (ms.map Prod.fst).Nodup) :
    Agree (actEach rewrite effect ("*" :: parts) (.object ms))
      ((onMembers (actChild rewrite effect parts) ms).map Json.object) := by
  have hmember : ∀ m ∈ canonical (decodeMembers rewrite ms), ∀ x, first m.1 ms = some x →
      m.2 = decode rewrite x := by
    intro m hm x hx
    have hlast := last_of_mem (nodup_canonical _) hm
    rw [last_canonical, last_decodeMembers, last_eq_first hnodup, hx] at hlast
    exact (Option.some.inj hlast).symm
  have hnames : ∀ k, k ∈ (canonical (decodeMembers rewrite ms)).map Prod.fst ↔
      k ∈ ms.map Prod.fst := by
    intro k
    rw [names_canonical, List.mem_insertionSort, List.mem_dedup]
    unfold decodeMembers
    rw [convertMembers_eq_map, List.map_map]
    exact Iff.rfl
  -- the locations of a name are those below its decoded value
  have hfold : actEach rewrite effect ("*" :: parts) (.object ms) =
      ((canonical (decodeMembers rewrite ms)).map Prod.fst).foldlM (fun j k =>
        ((locations ((first k (canonical (decodeMembers rewrite ms))).getD .null) parts).map
          (k :: ·)).foldlM (actAt effect) j) (.object ms) := by
    unfold actEach
    rw [decode_object, locations_members, foldlM_flatMap, List.foldlM_map]
    apply foldlM_congr
    intro m hm j
    rw [first_of_mem (nodup_canonical _) hm]
    rfl
  intro j
  rw [hfold, foldlM_members (h := actChild rewrite effect parts) (nodup_canonical _) hnodup
    (fun k hk => (hnames k).mp hk)]
  · have hall : (ms.filterMap fun m => if m.1 ∈ (canonical (decodeMembers rewrite ms)).map Prod.fst
        then (outcome (actChild rewrite effect parts) m.2).map (m.1, ·) else some m) =
          ms.filterMap fun m => (outcome (actChild rewrite effect parts) m.2).map (m.1, ·) := by
      apply List.filterMap_congr
      intro m hm
      exact if_pos ((hnames m.1).mpr (List.mem_map_of_mem hm))
    rw [hall]
    constructor
    · rintro ⟨hok, rfl⟩
      rw [onMembers_ok.mpr ⟨fun m hm => hok m hm ((hnames m.1).mpr (List.mem_map_of_mem hm)), rfl⟩]
      rfl
    · intro hok
      cases hms : onMembers (actChild rewrite effect parts) ms with
      | error e =>
          rw [hms] at hok
          exact nomatch hok
      | ok ms' =>
          rw [hms] at hok
          obtain ⟨hall', rfl⟩ := onMembers_ok.mp hms
          exact ⟨fun m hm _ => hall' m hm, (Except.ok.inj hok).symm⟩
  · intro k hk x hx ms' hx'
    obtain ⟨m, hm, rfl⟩ := List.mem_map.mp hk
    rw [first_of_mem (nodup_canonical _) hm, Option.getD_some, hmember m hm x hx]
    rw [foldlM_actChild (j := .object ms') hx']
    congr 1
    funext y
    cases y with
    | some y => rfl
    | none => rfl

/-- Done one after the other at the elements of an array, none of which is removed, every element
gets its outcome. -/
theorem actEach_items {parts : List String} {items : List Json}
    (hkeep : ∀ x, actChild rewrite effect parts x ≠ .ok none) :
    Agree (actEach rewrite effect ("*" :: parts) (.array items))
      ((onItems (actChild rewrite effect parts) items).map Json.array) := by
  have hfold : actEach rewrite effect ("*" :: parts) (.array items) =
      (List.range items.length).foldlM (fun j i =>
        ((locations (decode rewrite (items[i]?.getD .null)) parts).map (toString i :: ·)).foldlM
          (actAt effect) j) (.array items) := by
    unfold actEach
    rw [decode_array, locations_items, foldlM_flatMap]
    have hrange : List.range items.length =
        (items.map (decode rewrite)).zipIdx.map Prod.snd := by
      rw [List.zipIdx_map_snd, List.length_map, List.range_eq_range']
    rw [hrange, List.foldlM_map]
    apply foldlM_congr
    intro m hm j
    have hget := List.mem_zipIdx_iff_getElem?.mp hm
    rw [List.getElem?_map] at hget
    obtain ⟨x, hx, hdecode⟩ := Option.map_eq_some_iff.mp hget
    rw [hx, Option.getD_some, hdecode]
  intro j
  rw [hfold]
  apply foldlM_items hkeep
  intro i x hx items' hx'
  have hchild : child (toString i) (.array items') = some x := by
    rw [child_array, index?_toString, Option.bind_some]
    exact hx'
  rw [hx, Option.getD_some, foldlM_actChild hchild]
  cases hact : actChild rewrite effect parts x with
  | error e => rfl
  | ok y =>
      cases y with
      | none => exact absurd hact (hkeep x)
      | some y =>
          refine congrArg Except.ok ?_
          show replaceChild (toString i) y (.array items') = .array (items'.set i y)
          unfold replaceChild
          rw [index?_toString]

end folds

/-! ### At once -/

/-- The members' values or the elements. -/
def children : Json → List Json
  | .object ms => ms.map Prod.snd
  | .array items => items
  | _ => []

theorem TellsApart.children {parts : List String} {j x : Json} (h : TellsApart j ("*" :: parts))
    (hx : x ∈ Json.children j) : TellsApart x parts := by
  unfold TellsApart at h
  rw [if_pos rfl] at h
  cases j with
  | object ms =>
      obtain ⟨m, hm, rfl⟩ := List.mem_map.mp hx
      exact h.2 m hm
  | array items => exact h x hx
  | null | bool _ | number _ | string _ => exact absurd hx List.not_mem_nil

theorem TellsApart.nodup {parts : List String} {ms : List (String × Json)}
    (h : TellsApart (.object ms) ("*" :: parts)) : (ms.map Prod.fst).Nodup := by
  unfold TellsApart at h
  rw [if_pos rfl] at h
  exact h.1

theorem TellsApart.child {part : String} {parts : List String} {j x : Json} (hstar : part ≠ "*")
    (h : TellsApart j (part :: parts)) (hx : Json.child part j = some x) :
    TellsApart x parts := by
  cases parts with
  | nil =>
      unfold TellsApart
      trivial
  | cons part' parts =>
      unfold TellsApart at h
      rw [if_neg hstar] at h
      exact (h (List.cons_ne_nil _ _)).2 x hx

theorem Agree.outcome {h h' : Json → Except String (Option Json)} {x : Json}
    (hx : Agree (h x) (h' x)) : Json.outcome h x = Json.outcome h' x := by
  unfold Json.outcome
  cases hy : h x with
  | ok y => rw [(hx y).mp hy]
  | error e =>
      cases hy' : h' x with
      | ok y =>
          rw [(hx y).mpr hy'] at hy
          exact nomatch hy
      | error e' => rfl

theorem onChildren_agree {h h' : Json → Except String (Option Json)} {j : Json}
    (hall : ∀ x ∈ children j, Agree (h x) (h' x)) : Agree (onChildren h j) (onChildren h' j) := by
  cases j with
  | object ms =>
      have hm : ∀ m ∈ ms, Agree (h m.2) (h' m.2) := fun m hm => hall m.2 (List.mem_map_of_mem hm)
      refine Agree.map (fun ms' => ?_) Json.object
      have houtcome : (ms.filterMap fun m => (Json.outcome h m.2).map (m.1, ·)) =
          ms.filterMap fun m => (Json.outcome h' m.2).map (m.1, ·) :=
        List.filterMap_congr fun m hmem => by rw [(hm m hmem).outcome]
      rw [onMembers_ok, onMembers_ok, houtcome]
      refine and_congr_left fun _ => ⟨fun hok m hmem => ?_, fun hok m hmem => ?_⟩
      · obtain ⟨y, hy⟩ := hok m hmem
        exact ⟨y, (hm m hmem y).mp hy⟩
      · obtain ⟨y, hy⟩ := hok m hmem
        exact ⟨y, (hm m hmem y).mpr hy⟩
  | array items =>
      have hm : ∀ x ∈ items, Agree (h x) (h' x) := hall
      refine Agree.map (fun items' => ?_) Json.array
      have houtcome : items.filterMap (Json.outcome h) = items.filterMap (Json.outcome h') :=
        List.filterMap_congr fun x hmem => (hm x hmem).outcome
      rw [onItems_ok, onItems_ok, houtcome]
      refine and_congr_left fun _ => ⟨fun hok m hmem => ?_, fun hok m hmem => ?_⟩
      · obtain ⟨y, hy⟩ := hok m hmem
        exact ⟨y, (hm m hmem y).mp hy⟩
      · obtain ⟨y, hy⟩ := hok m hmem
        exact ⟨y, (hm m hmem y).mpr hy⟩
  | null | bool _ | number _ | string _ => exact Agree.refl _

section folds

variable {rewrite : ℚ → ℚ} {effect : Option Json → Except String Effect}

/-- The locations below a child. -/
theorem locations_child {part : String} {parts : List String} {j x : Json} (hstar : part ≠ "*")
    (h : TellsApart j (part :: parts)) (hchild : child part j = some x) :
    locations (decode rewrite j) (part :: parts) =
      (locations (decode rewrite x) parts).map (part :: ·) := by
  conv_lhs => unfold locations
  rw [if_neg hstar]
  cases parts with
  | nil =>
      have hsome := isSome_child_decode rewrite part j
      rw [hchild] at hsome
      obtain ⟨y, hy⟩ := Option.isSome_iff_exists.mp hsome
      rw [hy]
      dsimp only
      unfold locations
      rfl
  | cons part' parts =>
      unfold TellsApart at h
      rw [if_neg hstar] at h
      rw [child_decode (h (List.cons_ne_nil _ _)).1, hchild]
      rfl

theorem actEach_child {part : String} {parts : List String} {j x : Json} (hstar : part ≠ "*")
    (h : TellsApart j (part :: parts)) (hchild : child part j = some x) :
    actEach rewrite effect (part :: parts) j = (actChild rewrite effect parts x).map fun y =>
      match y with
      | some y => replaceChild part y j
      | none => removeChild part j := by
  rw [← foldlM_actChild hchild]
  unfold actEach
  rw [locations_child hstar h hchild]

theorem actEach_missing {part : String} {parts : List String} {j : Json} (hstar : part ≠ "*")
    (hchild : child part j = none) :
    actEach rewrite effect (part :: parts) j = actMatches effect j (part :: parts) := by
  have hnone : child part (decode rewrite j) = none := by
    have hsome := isSome_child_decode rewrite part j
    rw [hchild] at hsome
    exact Option.not_isSome_iff_eq_none.mp (Bool.eq_false_iff.mp hsome)
  unfold actEach actMatches
  conv_lhs => unfold locations
  rw [if_neg hstar, if_neg hstar, hnone, hchild]
  cases j with
  | object ms =>
      rw [decode_object]
      cases parts with
      | nil =>
          show (actAt effect (.object ms) [part] >>= fun j' => [].foldlM (actAt effect) j') = _
          have hact : actAt effect (.object ms) [part] =
              (effect none).bind (act (.object ms) [part]) := by
            unfold actAt
            rw [getAt_cons, hchild]
            rfl
          rw [hact]
          dsimp only
          cases (effect none).bind (act (.object ms) [part]) with
          | error e => rfl
          | ok j => rfl
      | cons part' parts => rfl
  | array items =>
      rw [decode_array]
      cases parts with
      | nil => rfl
      | cons part' parts => rfl
  | null | bool _ | number _ | string _ =>
      cases parts with
      | nil => rfl
      | cons part' parts => rfl

theorem actMatches_star (j : Json) (parts : List String) :
    actMatches effect j ("*" :: parts) = onChildren (fun x =>
      if parts = [] then (effect (some x)).map (Effect.outcome x)
      else (actMatches effect x parts).map some) j := by
  conv_lhs => unfold actMatches
  exact if_pos rfl

theorem actMatches_child {part : String} {parts : List String} {j x : Json} (hstar : part ≠ "*")
    (hchild : child part j = some x) :
    actMatches effect j (part :: parts) =
      (if parts = [] then (effect (some x)).map (Effect.outcome x)
        else (actMatches effect x parts).map some).map fun y =>
          match y with
          | some y => replaceChild part y j
          | none => removeChild part j := by
  conv_lhs => unfold actMatches
  rw [if_neg hstar, hchild]
  cases parts with
  | nil =>
      rw [if_pos rfl]
      dsimp only
      cases effect (some x) with
      | error e => rfl
      | ok e => exact act_single hchild e
  | cons part' parts =>
      rw [if_neg (List.cons_ne_nil _ _)]
      dsimp only
      cases actMatches effect x (part' :: parts) with
      | error e => rfl
      | ok y => rfl

/-- An effect that removes nothing leaves a child. -/
theorem actChild_ne_none (hkeep : ∀ o, effect o ≠ .ok .remove) (parts : List String) (x : Json) :
    actChild rewrite effect parts x ≠ .ok none := by
  intro hx
  unfold actChild at hx
  by_cases hnil : parts = []
  · rw [if_pos hnil] at hx
    cases he : effect (some x) with
    | error e =>
        rw [he] at hx
        exact nomatch hx
    | ok e =>
        rw [he] at hx
        cases e with
        | keep => exact nomatch (Except.ok.inj hx)
        | set v => exact nomatch (Except.ok.inj hx)
        | remove => exact hkeep _ he
  · rw [if_neg hnil] at hx
    cases hy : actEach rewrite effect parts x with
    | error e =>
        rw [hy] at hx
        exact nomatch hx
    | ok y =>
        rw [hy] at hx
        exact nomatch (Except.ok.inj hx)

/-- Where nothing is removed, the writes one after the other are the writes at once. -/
theorem actEach_agree (hkeep : ∀ o, effect o ≠ .ok .remove) {parts : List String}
    (hparts : parts ≠ []) {j : Json} (h : TellsApart j parts) :
    Agree (actEach rewrite effect parts j) (actMatches effect j parts) := by
  induction parts generalizing j with
  | nil => exact absurd rfl hparts
  | cons part parts ih =>
      have hchildren : ∀ x, TellsApart x parts → Agree (actChild rewrite effect parts x)
          (if parts = [] then (effect (some x)).map (Effect.outcome x)
            else (actMatches effect x parts).map some) := by
        intro x hx
        unfold actChild
        by_cases hnil : parts = []
        · rw [if_pos hnil, if_pos hnil]
          exact Agree.refl _
        · rw [if_neg hnil, if_neg hnil]
          exact (ih hnil hx).map some
      by_cases hstar : part = "*"
      · subst hstar
        rw [actMatches_star]
        refine Agree.trans ?_ (onChildren_agree fun x hx => hchildren x (h.children hx))
        cases j with
        | object ms => exact actEach_members h.nodup
        | array items =>
            apply actEach_items
            intro x
            exact actChild_ne_none hkeep parts x
        | null | bool _ | number _ | string _ => exact Agree.refl _
      · cases hchild : child part j with
        | none =>
            rw [actEach_missing hstar hchild]
            exact Agree.refl _
        | some x =>
            rw [actEach_child hstar h hchild, actMatches_child hstar hchild]
            exact (hchildren x (h.child hstar hchild)).map _

end folds

/-! ### Removals -/

/-- The effect of a removal. -/
def removal : Option Json → Except String Effect := fun _ => .ok .remove

theorem Agree.ok_iff {α : Type} {a b : α} :
    Agree (Except.ok a : Except String α) (.ok b) ↔ a = b := by
  constructor
  · exact fun h => (Except.ok.inj ((h a).mp rfl)).symm
  · rintro rfl
    exact Agree.refl _

theorem onMembers_some {f : Json → Json} {h : Json → Except String (Option Json)}
    {ms : List (String × Json)} (hall : ∀ m ∈ ms, h m.2 = .ok (some (f m.2))) :
    onMembers h ms = .ok (ms.map fun m => (m.1, f m.2)) := by
  rw [onMembers_ok]
  refine ⟨fun m hm => ⟨_, hall m hm⟩, ?_⟩
  rw [← List.filterMap_eq_map]
  apply List.filterMap_congr
  intro m hm
  unfold outcome
  rw [hall m hm]
  rfl

theorem onItems_some {f : Json → Json} {h : Json → Except String (Option Json)} {items : List Json}
    (hall : ∀ x ∈ items, h x = .ok (some (f x))) : onItems h items = .ok (items.map f) := by
  rw [onItems_ok]
  refine ⟨fun x hx => ⟨_, hall x hx⟩, ?_⟩
  rw [← List.filterMap_eq_map]
  apply List.filterMap_congr
  intro x hx
  unfold outcome
  rw [hall x hx]
  rfl

/-- Two ways to treat the children agree exactly when they agree at every child. -/
theorem onChildren_agree_iff {f g : Json → Json} {h h' : Json → Except String (Option Json)}
    {j : Json} (hf : ∀ x ∈ children j, h x = .ok (some (f x)))
    (hg : ∀ x ∈ children j, h' x = .ok (some (g x))) :
    Agree (onChildren h j) (onChildren h' j) ↔ ∀ x ∈ children j, f x = g x := by
  cases j with
  | object ms =>
      have hf' : ∀ m ∈ ms, h m.2 = .ok (some (f m.2)) :=
        fun m hm => hf m.2 (List.mem_map_of_mem hm)
      have hg' : ∀ m ∈ ms, h' m.2 = .ok (some (g m.2)) :=
        fun m hm => hg m.2 (List.mem_map_of_mem hm)
      unfold onChildren
      dsimp only
      rw [onMembers_some hf', onMembers_some hg', Except.map, Except.map, Agree.ok_iff,
        Json.object.injEq, List.map_inj_left]
      constructor
      · intro hall x hx
        obtain ⟨m, hm, rfl⟩ := List.mem_map.mp hx
        exact (Prod.mk.inj (hall m hm)).2
      · intro hall m hm
        rw [hall m.2 (List.mem_map_of_mem hm)]
  | array items =>
      have hf' : ∀ x ∈ items, h x = .ok (some (f x)) := hf
      have hg' : ∀ x ∈ items, h' x = .ok (some (g x)) := hg
      unfold onChildren
      dsimp only
      rw [onItems_some hf', onItems_some hg', Except.map, Except.map, Agree.ok_iff,
        Json.array.injEq, List.map_inj_left]
      rfl
  | null | bool _ | number _ | string _ =>
      exact ⟨fun _ x hx => absurd hx List.not_mem_nil, fun _ => Agree.refl _⟩

section removals

variable {rewrite : ℚ → ℚ}

/-- A removal always succeeds. -/
theorem actEach_removal (parts : List String) (j : Json) :
    ∃ j', actEach rewrite removal parts j = .ok j' := by
  unfold actEach
  generalize locations (decode rewrite j) parts = locs
  induction locs generalizing j with
  | nil => exact ⟨j, rfl⟩
  | cons loc locs ih =>
      rw [List.foldlM_cons]
      exact ih (deleteAt j (components loc))

theorem actMatches_removal (parts : List String) (j : Json) :
    ∃ j', actMatches removal j parts = .ok j' := by
  induction parts generalizing j with
  | nil => exact ⟨j, rfl⟩
  | cons part parts ih =>
      by_cases hstar : part = "*"
      · subst hstar
        rw [actMatches_star]
        have htotal : ∀ x, ∃ y, (if parts = [] then (removal (some x)).map (Effect.outcome x)
            else (actMatches removal x parts).map some) = .ok y := by
          intro x
          by_cases hnil : parts = []
          · rw [if_pos hnil]
            exact ⟨none, rfl⟩
          · rw [if_neg hnil]
            obtain ⟨y, hy⟩ := ih x
            rw [hy]
            exact ⟨some y, rfl⟩
        cases j with
        | object ms =>
            unfold onChildren
            dsimp only
            rw [onMembers_ok.mpr ⟨fun m _ => htotal m.2, rfl⟩]
            exact ⟨_, rfl⟩
        | array items =>
            unfold onChildren
            dsimp only
            rw [onItems_ok.mpr ⟨fun x _ => htotal x, rfl⟩]
            exact ⟨_, rfl⟩
        | null | bool _ | number _ | string _ => exact ⟨_, rfl⟩
      · cases hchild : child part j with
        | some x =>
            rw [actMatches_child hstar hchild]
            by_cases hnil : parts = []
            · rw [if_pos hnil]
              exact ⟨_, rfl⟩
            · rw [if_neg hnil]
              obtain ⟨y, hy⟩ := ih x
              rw [hy]
              exact ⟨_, rfl⟩
        | none =>
            unfold actMatches
            rw [if_neg hstar, hchild]
            cases parts with
            | nil =>
                cases j with
                | object ms => exact ⟨_, rfl⟩
                | array _ | null | bool _ | number _ | string _ => exact ⟨_, rfl⟩
            | cons part' parts =>
                cases j with
                | object ms => exact ⟨_, rfl⟩
                | array _ | null | bool _ | number _ | string _ => exact ⟨_, rfl⟩

/-- The elements of an array are removed one after the other. -/
theorem actEach_removal_items (items : List Json) :
    actEach rewrite removal ["*"] (.array items) =
      .ok (.array ((List.range items.length).foldl (fun items i => items.eraseIdx i) items)) := by
  have hlocations : locations (decode rewrite (.array items)) ["*"] =
      (List.range items.length).map fun i => [toString i] := by
    rw [decode_array, locations_items]
    have hrange : List.range items.length =
        (items.map (decode rewrite)).zipIdx.map Prod.snd := by
      rw [List.zipIdx_map_snd, List.length_map, List.range_eq_range']
    rw [hrange, List.map_map]
    exact List.map_eq_flatMap.symm
  unfold actEach
  rw [hlocations, List.foldlM_map]
  clear hlocations
  generalize List.range items.length = indices
  induction indices generalizing items with
  | nil => rfl
  | cons i indices ih =>
      have hindex : index? (toString i) = some i := index?_toString i
      have hact : actAt removal (.array items) [toString i] = .ok (.array (items.eraseIdx i)) := by
        refine congrArg Except.ok ?_
        show deleteAt (.array items) [⟨toString i, false⟩] = _
        have hpart : removedPart ⟨toString i, false⟩ (.array items) = toString i := by
          apply if_neg
          rintro ⟨hlast, -⟩
          dsimp only at hlast
          rw [hlast] at hindex
          exact nomatch hindex
        rw [deleteAt_single, hpart]
        unfold removeChild
        rw [hindex]
      rw [List.foldlM_cons, hact, List.foldl_cons]
      exact ih (items.eraseIdx i)

/-- Of the elements of an array every second one is removed, and all of them only if there is at
most one. -/
theorem foldl_eraseIdx_eq_nil (items : List Json) :
    (List.range items.length).foldl (fun items i => items.eraseIdx i) items = [] ↔
      items.length ≤ 1 := by
  match items with
  | [] => exact ⟨fun _ => Nat.zero_le 1, fun _ => rfl⟩
  | [x] => exact ⟨fun _ => Nat.le_refl 1, fun _ => rfl⟩
  | x :: y :: items =>
      constructor
      · intro hempty
        exfalso
        rw [List.length_cons, List.range_succ_eq_map, List.foldl_cons] at hempty
        have hpos : ∀ i ∈ (List.range (y :: items).length).map Nat.succ, i ≠ 0 := by
          intro i hi
          obtain ⟨k, -, rfl⟩ := List.mem_map.mp hi
          exact Nat.succ_ne_zero k
        have hrest : ∃ items', ((List.range (y :: items).length).map Nat.succ).foldl
            (fun items i => items.eraseIdx i) (y :: items) = y :: items' :=
          foldl_eraseIdx hpos
        obtain ⟨items', hitems'⟩ := hrest
        exact List.cons_ne_nil _ _ (hitems'.symm.trans hempty)
      · intro hlength
        simp at hlength

/-- The children of a value are removed. -/
theorem actEach_removal_children {j : Json} (h : TellsApart j ["*"]) :
    Agree (actEach rewrite removal ["*"] j) (actMatches removal j ["*"]) ↔ Single j ["*"] := by
  rw [actMatches_star]
  unfold Single
  rw [if_pos rfl, if_pos rfl]
  cases j with
  | object ms =>
      have hagree : Agree (actEach rewrite removal ["*"] (.object ms)) _ :=
        actEach_members h.nodup
      exact Iff.intro (fun _ items hitems => nomatch hitems) fun _ => hagree
  | array items =>
      rw [actEach_removal_items]
      have hnone : onItems (fun x => (removal (some x)).map (Effect.outcome x)) items =
          .ok [] := by
        rw [onItems_ok]
        refine ⟨fun x _ => ⟨none, rfl⟩, ?_⟩
        rw [eq_comm, List.filterMap_eq_nil_iff]
        exact fun x _ => rfl
      show Agree _ ((onItems (fun x => (removal (some x)).map (Effect.outcome x)) items).map
        Json.array) ↔ _
      rw [hnone, Except.map, Agree.ok_iff, Json.array.injEq, foldl_eraseIdx_eq_nil]
      constructor
      · intro hlength items' hitems
        cases hitems
        exact hlength
      · intro hall
        exact hall items rfl
  | null | bool _ | number _ | string _ =>
      exact Iff.intro (fun _ items hitems => nomatch hitems) fun _ => Agree.refl _

/-- The removals go below the children of a value. -/
theorem actEach_removal_below {parts : List String} (hnil : parts ≠ []) {j : Json}
    (h : TellsApart j ("*" :: parts))
    (ih : ∀ x, TellsApart x parts →
      (Agree (actEach rewrite removal parts x) (actMatches removal x parts) ↔ Single x parts)) :
    Agree (actEach rewrite removal ("*" :: parts) j) (actMatches removal j ("*" :: parts)) ↔
      Single j ("*" :: parts) := by
  rw [actMatches_star]
  unfold Single
  rw [if_pos rfl, if_neg hnil]
  -- what is left of a child, one after the other and at once
  have hleft : ∀ x, ∃ y, actEach rewrite removal parts x = .ok y := actEach_removal parts
  have hright : ∀ x, ∃ y, actMatches removal x parts = .ok y := actMatches_removal parts
  obtain ⟨f, hf⟩ : ∃ f : Json → Json, ∀ x, actEach rewrite removal parts x = .ok (f x) :=
    ⟨fun x => (hleft x).choose, fun x => (hleft x).choose_spec⟩
  obtain ⟨g, hg⟩ : ∃ g : Json → Json, ∀ x, actMatches removal x parts = .ok (g x) :=
    ⟨fun x => (hright x).choose, fun x => (hright x).choose_spec⟩
  have hf' : ∀ x, actChild rewrite removal parts x = .ok (some (f x)) := by
    intro x
    unfold actChild
    rw [if_neg hnil, hf]
    rfl
  have hg' : ∀ x, (if parts = [] then (removal (some x)).map (Effect.outcome x)
      else (actMatches removal x parts).map some) = .ok (some (g x)) := by
    intro x
    rw [if_neg hnil, hg]
    rfl
  have hchildren : ∀ x, TellsApart x parts → (f x = g x ↔ Single x parts) := by
    intro x hx
    rw [← ih x hx, hf, hg, Agree.ok_iff]
  have hboth := onChildren_agree_iff (j := j) (fun x _ => hf' x) (fun x _ => hg' x)
  have heach : Agree (actEach rewrite removal ("*" :: parts) j)
      (onChildren (actChild rewrite removal parts) j) := by
    cases j with
    | object ms => exact actEach_members h.nodup
    | array items =>
        apply actEach_items
        intro x hx
        rw [hf'] at hx
        exact nomatch hx
    | null | bool _ | number _ | string _ => exact Agree.refl _
  constructor
  · intro hagree
    have hall := hboth.mp (heach.symm.trans hagree)
    cases j with
    | object ms =>
        intro m hm
        have hx : m.2 ∈ children (.object ms) := List.mem_map_of_mem hm
        exact (hchildren m.2 (h.children hx)).mp (hall m.2 hx)
    | array items =>
        intro x hx
        exact (hchildren x (TellsApart.children (j := .array items) h hx)).mp (hall x hx)
    | null | bool _ | number _ | string _ => trivial
  · intro hsingle
    refine heach.trans (hboth.mpr fun x hx => (hchildren x (h.children hx)).mpr ?_)
    cases j with
    | object ms =>
        obtain ⟨m, hm, rfl⟩ := List.mem_map.mp hx
        exact hsingle m hm
    | array items => exact hsingle x hx
    | null | bool _ | number _ | string _ => exact absurd hx List.not_mem_nil

/-- The removals go below one child. -/
theorem actEach_removal_child {part : String} {parts : List String} (hstar : part ≠ "*")
    {j x : Json} (h : TellsApart j (part :: parts)) (hchild : child part j = some x)
    (ih : parts ≠ [] → (Agree (actEach rewrite removal parts x) (actMatches removal x parts) ↔
      Single x parts)) :
    Agree (actEach rewrite removal (part :: parts) j) (actMatches removal j (part :: parts)) ↔
      Single x parts := by
  rw [actEach_child hstar h hchild, actMatches_child hstar hchild]
  unfold actChild
  by_cases hnil : parts = []
  · subst hnil
    rw [if_pos rfl, if_pos rfl]
    refine ⟨fun _ => ?_, fun _ => Agree.refl _⟩
    unfold Single
    trivial
  · rw [if_neg hnil, if_neg hnil]
    obtain ⟨y, hy⟩ : ∃ y, actEach rewrite removal parts x = .ok y := actEach_removal parts x
    obtain ⟨z, hz⟩ := actMatches_removal parts x
    have hiff := ih hnil
    rw [hy, hz, Agree.ok_iff] at hiff
    rw [hy, hz]
    show Agree (Except.ok (replaceChild part y j)) (.ok (replaceChild part z j)) ↔ _
    rw [Agree.ok_iff, ← hiff]
    constructor
    · intro heq
      have hread := congrArg (child part) heq
      rw [child_replaceChild_self hchild, child_replaceChild_self hchild] at hread
      exact Option.some.inj hread
    · intro heq
      rw [heq]

/-- Removals one after the other are the removals at once exactly when no two elements of one array
are removed. -/
theorem actEach_removal_iff {parts : List String} (hparts : parts ≠ []) {j : Json}
    (h : TellsApart j parts) :
    Agree (actEach rewrite removal parts j) (actMatches removal j parts) ↔ Single j parts := by
  induction parts generalizing j with
  | nil => exact absurd rfl hparts
  | cons part parts ih =>
      by_cases hstar : part = "*"
      · subst hstar
        by_cases hnil : parts = []
        · subst hnil
          exact actEach_removal_children h
        · exact actEach_removal_below hnil h fun x hx => ih hnil hx
      · unfold Single
        rw [if_neg hstar]
        cases hchild : child part j with
        | none =>
            rw [actEach_missing hstar hchild]
            exact Iff.intro (fun _ x hx => nomatch hx) fun _ => Agree.refl _
        | some x =>
            rw [actEach_removal_child hstar h hchild fun hnil => ih hnil (h.child hstar hchild)]
            constructor
            · intro hsingle y hy
              obtain rfl := Option.some.inj hy
              exact hsingle
            · intro hall
              exact hall x rfl

end removals

/-! ### Different locations -/

theorem distinct_decode (rewrite : ℚ → ℚ) (j : Json) : Distinct (decode rewrite j) := by
  induction j using Json.induction with
  | null | bool _ | number _ | string _ => trivial
  | array items ih =>
      rw [decode_array]
      refine distinctItems_iff.mpr fun x hx => ?_
      obtain ⟨y, hy, rfl⟩ := List.mem_map.mp hx
      exact ih y hy
  | object ms ih =>
      rw [decode_members]
      refine ⟨nodup_canonical _, distinctMembers_iff.mpr fun m hm => ?_⟩
      obtain ⟨m', hm', rfl⟩ := List.mem_map.mp (mem_canonical hm)
      exact ih m' hm'

theorem toString_injective {i k : ℕ} (h : toString i = toString k) : i = k := by
  have hindex := index?_toString i
  rw [h, index?_toString] at hindex
  exact (Option.some.inj hindex).symm

/-- A pattern addresses each of its locations once. -/
theorem nodup_locations {j : Json} (h : Distinct j) (parts : List String) :
    (locations j parts).Nodup := by
  induction parts generalizing j with
  | nil =>
      unfold locations
      exact List.nodup_singleton _
  | cons part parts ih =>
      have hcons : ∀ (k : String) (x : Json), Distinct x →
          ((locations x parts).map (k :: ·)).Nodup :=
        fun k x hx => (ih hx).map fun a b hab => (List.cons.inj hab).2
      have hdisjoint : ∀ (k l : String) (x y : Json), k ≠ l →
          List.Disjoint ((locations x parts).map (k :: ·)) ((locations y parts).map (l :: ·)) := by
        intro k l x y hne loc hx hy
        obtain ⟨a, -, rfl⟩ := List.mem_map.mp hx
        obtain ⟨b, -, hb⟩ := List.mem_map.mp hy
        exact hne (List.cons.inj hb).1.symm
      by_cases hstar : part = "*"
      · subst hstar
        cases j with
        | object ms =>
            rw [locations_members, List.nodup_flatMap]
            have hms := distinctMembers_iff.mp h.2
            refine ⟨fun m hm => hcons m.1 m.2 (hms m hm), ?_⟩
            refine (List.pairwise_map.mp h.1).imp fun hne => ?_
            exact hdisjoint _ _ _ _ hne
        | array items =>
            rw [locations_items, List.nodup_flatMap]
            have hitems := distinctItems_iff.mp h
            refine ⟨fun m hm => hcons _ m.1 (hitems m.1 (List.fst_mem_of_mem_zipIdx hm)), ?_⟩
            have hindices : (items.zipIdx.map Prod.snd).Pairwise (· ≠ ·) := by
              rw [List.zipIdx_map_snd]
              exact List.nodup_range'
            refine (List.pairwise_map.mp hindices).imp fun hne => ?_
            exact hdisjoint _ _ _ _ fun he => hne (toString_injective he)
        | null | bool _ | number _ | string _ => exact List.nodup_nil
      · unfold locations
        rw [if_neg hstar]
        split
        · next hchild => exact hcons part _ (h.child hchild)
        · exact List.nodup_singleton _
        · exact List.nodup_nil

end Json
