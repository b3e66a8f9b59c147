import MaxApi.Lib.JsonValues
import MaxApi.Override.Apply
import MaxApi.Override.Writes

/-! # Values that an override carries

`move`, `copy`, `append`, `prepend`, `prune_objects` and `sync_fields` read values of the body into
interface values and write them back.  A value arrives as it was exactly when its numbers survive
this (`intact_iff` for a value that is written at a path); the other values of the body stay, a
`move` moving up the elements behind the removed one. -/

namespace MaxApi.Override

open Json (Component Same)

/-- The path is written at a location, and what is written there is there. -/
structure PlainPath (path : String) (cs : List Component) : Prop where
  parse : sjsonPath path = some cs
  plain : Json.Plain cs

/-- The path is read where it is written. -/
def ReadsAt (path : String) (cs : List Component) : Prop :=
  gjsonPath path = some (cs.map Component.part)

/-- Every value apart from a location is where it was. -/
def Keeps (cs : List Component) (doc doc' : Json) : Prop :=
  ∀ q x, Json.Apart (cs.map Component.part) q → Json.getAt doc q = some x →
    Json.getAt doc' q = some x

/-- The value at a location is the same as `v`. -/
def Arrives (doc : Json) (cs : List Component) (v : Json) : Prop :=
  ∃ w, Json.getAt doc (cs.map Component.part) = some w ∧ Same w v

section values

variable {lib : Libraries} {doc doc' v w : Json} {path : String} {cs : List Component}

theorem sjsonSet_keeps (hlib : Documented lib) (hpath : PlainPath path cs)
    (h : lib.sjsonSet doc path w = .ok doc') : Keeps cs doc doc' :=
  fun _ _ hapart hx => Json.getAt_setAt_of_apart hapart (hlib.set_ok hpath.parse h) hx

theorem getAt_sjsonSet (hlib : Documented lib) (hpath : PlainPath path cs)
    (h : lib.sjsonSet doc path w = .ok doc') : Json.getAt doc' (cs.map Component.part) = some w :=
  Json.getAt_setAt_self hpath.plain (hlib.set_ok hpath.parse h)

/-- A value that is written at a path arrives exactly when it survives the way. -/
theorem intact_iff (hlib : Documented lib) (hpath : PlainPath path cs)
    (h : lib.sjsonSet doc path (lib.value v) = .ok doc') :
    Keeps cs doc doc' ∧ (Arrives doc' cs v ↔ Same (lib.value v) v) := by
  refine ⟨sjsonSet_keeps hlib hpath h, ?_, ?_⟩
  · rintro ⟨w, hw, hsame⟩
    rw [getAt_sjsonSet hlib hpath h] at hw
    rw [Option.some.inj hw]
    exact hsame
  · exact fun hsame => ⟨_, getAt_sjsonSet hlib hpath h, hsame⟩

theorem copyValue_intact (hlib : Documented lib) {fromPath toPath : String}
    (hto : PlainPath toPath cs) (hget : lib.gjsonGet doc fromPath = some v)
    (h : copyValue lib doc fromPath toPath = .ok doc') :
    Keeps cs doc doc' ∧ (Arrives doc' cs v ↔ Same (lib.value v) v) := by
  unfold copyValue at h
  rw [hget] at h
  exact intact_iff hlib hto h

/-! ### Moves -/

theorem getAt_value (rewrite : ℚ → ℚ) (p : List String) (j : Json) :
    Json.getAt (Json.value rewrite j) p = (Json.getAt j p).map (Json.value rewrite) := by
  induction p generalizing j with
  | nil => rfl
  | cons a p ih =>
      have hchild : Json.child a (Json.value rewrite j) =
          (Json.child a j).map (Json.value rewrite) := by
        cases j with
        | object ms =>
            rw [Json.value_members, Json.child_object, Json.child_object,
              Json.first_canonicalBy_first, Json.first_map]
        | array items =>
            rw [Json.value_array, Json.child_array, Json.child_array]
            cases Json.index? a with
            | none => rfl
            | some i => exact List.getElem?_map
        | null | bool _ | number _ | string _ => rfl
      rw [Json.getAt_cons, Json.getAt_cons, hchild]
      cases Json.child a j with
      | none => rfl
      | some x => exact ih x

/-- The two locations of a move: they part and the removal does not shift the target, or the source
is below the target at a place that the moved value does not have. -/
def MoveApart (doc v : Json) (source target : List Component) : Prop :=
  let p := source.map Component.part
  let q := target.map Component.part
  Json.Apart p q ∧ Json.relocate doc p q = q ∨
    Json.Plain source ∧ ∃ s, p = q ++ s ∧ Json.getAt v s = none

theorem moveValue_intact (hlib : Documented lib) {fromPath toPath : String}
    {source target : List Component}
    (hto : PlainPath toPath target) (hfrom : sjsonPath fromPath = some source)
    (hread : ReadsAt fromPath source) (hget : lib.gjsonGet doc fromPath = some v)
    (hmove : MoveApart doc v source target) (h : moveValue lib doc fromPath toPath = .ok doc') :
    (∀ q x, Json.Apart (target.map Component.part) q → Json.Apart (source.map Component.part) q →
      Json.getAt doc q = some x →
        Json.getAt doc' (Json.relocate doc (source.map Component.part) q) = some x) ∧
      (Arrives doc' target v ↔ Same (lib.value v) v) := by
  unfold moveValue at h
  rw [hget] at h
  obtain ⟨mid, hset, hdelete⟩ := Checked.ok_bind.mp h
  have hv : Json.getAt doc (source.map Component.part) = some v :=
    (hlib.get doc hread).symm.trans hget
  obtain rfl : Json.deleteAt mid source = doc' := hlib.delete_ok hfrom hdelete
  have hkeeps := sjsonSet_keeps hlib hto hset
  have hsetAt := hlib.set_ok hto.parse hset
  have htarget := getAt_sjsonSet hlib hto hset
  -- the value at the target is the one that has been written
  have harrives : Json.getAt (Json.deleteAt mid source) (target.map Component.part) =
      some (lib.value v) →
        (Arrives (Json.deleteAt mid source) target v ↔ Same (lib.value v) v) := by
    intro hread
    constructor
    · rintro ⟨w, hw, hsame⟩
      rw [hread] at hw
      rw [Option.some.inj hw]
      exact hsame
    · exact fun hsame => ⟨_, hread, hsame⟩
  rcases hmove with ⟨hapart, hstays⟩ | ⟨hplain, s, hbelow, hnone⟩
  · have hmid := hkeeps _ _ hapart.symm hv
    have hrelocate : ∀ q, Json.relocate mid (source.map Component.part) q =
        Json.relocate doc (source.map Component.part) q :=
      fun q => Json.relocate_setAt hapart.symm hsetAt hv
    refine ⟨fun q x hq hp hx => ?_, harrives ?_⟩
    · rw [← hrelocate]
      exact Json.getAt_deleteAt hp hmid (hkeeps q x hq hx)
    · have hread := Json.getAt_deleteAt hapart hmid htarget
      rw [hrelocate, hstays] at hread
      exact hread
  · have hs : s ≠ [] := by
      rintro rfl
      exact nomatch hnone
    have hmissing : Json.getAt mid (source.map Component.part) = none := by
      rw [hbelow, Json.getAt_append, htarget, Option.bind_some]
      unfold Libraries.value
      rw [getAt_value, hnone]
      rfl
    have hsame := Json.deleteAt_of_none hplain hmissing
    refine ⟨fun q x hq hp hx => ?_, harrives ?_⟩
    · rw [hsame, hbelow, Json.relocate_append hq hs]
      exact hkeeps q x hq hx
    · rw [hsame]
      exact htarget

/-! ### Arrays -/

theorem marshalSlice_of_ne_nil {items : List Json} (h : items ≠ []) :
    marshalSlice items = .array items := by
  cases items with
  | nil => exact absurd rfl h
  | cons item items => rfl

/-- The elements that `append` and `prepend` add. -/
def addedValues : Json → List Json
  | .array values => values
  | value => [value]

/-- The array has the old elements with their values, and the added ones before or after them. -/
def KeepsElements (items : List Json) (value : Json) (isPrepend : Bool) (array : Option Json) :
    Prop :=
  ∃ kept, array = some (.array
    (if isPrepend then addedValues value ++ kept else kept ++ addedValues value)) ∧
      List.Forall₂ Same kept items

/-- The array keeps its elements exactly when they survive the way and the result is not empty: an
empty slice is written as `null`. -/
theorem modifyValue_array {rt : Runtime} (hlib : Documented rt.toLibraries) {items : List Json}
    {value : Json} {keepOrigin isPrepend : Bool} (hpath : PlainPath path cs)
    (hget : rt.gjsonGet doc path = some (.array items))
    (h : modifyValue rt doc path value keepOrigin isPrepend = .ok doc') :
    KeepsElements items value isPrepend (Json.getAt doc' (cs.map Component.part)) ↔
      (items ≠ [] ∨ addedValues value ≠ []) ∧
        ∀ item ∈ items, Same (rt.toLibraries.value item) item := by
  unfold modifyValue at h
  rw [hget] at h
  have hset : rt.sjsonSet doc path (marshalSlice (if isPrepend then
      addedValues value ++ items.map rt.toLibraries.value
        else items.map rt.toLibraries.value ++ addedValues value)) = .ok doc' := h
  rw [getAt_sjsonSet hlib hpath hset]
  unfold KeepsElements
  by_cases hempty : items = [] ∧ addedValues value = []
  · obtain ⟨rfl, hadded⟩ := hempty
    rw [hadded]
    constructor
    · rintro ⟨kept, heq, -⟩
      cases isPrepend with
      | true => exact nomatch Option.some.inj heq
      | false => exact nomatch Option.some.inj heq
    · rintro ⟨hne, -⟩
      simp at hne
  · have hmarshal : marshalSlice (if isPrepend then
        addedValues value ++ items.map rt.toLibraries.value
          else items.map rt.toLibraries.value ++ addedValues value) = .array (if isPrepend then
        addedValues value ++ items.map rt.toLibraries.value
          else items.map rt.toLibraries.value ++ addedValues value) := by
      apply marshalSlice_of_ne_nil
      intro hnil
      apply hempty
      cases isPrepend with
      | true => simpa [and_comm] using hnil
      | false => simpa using hnil
    rw [hmarshal]
    constructor
    · rintro ⟨kept, heq, hsame⟩
      refine ⟨not_and_or.mp hempty, fun item hitem => ?_⟩
      have hlist := Json.array.inj (Option.some.inj heq)
      obtain rfl : items.map rt.toLibraries.value = kept := by
        cases isPrepend with
        | true => exact List.append_cancel_left hlist
        | false => exact List.append_cancel_right hlist
      rw [List.forall₂_map_left_iff, List.forall₂_same] at hsame
      exact hsame item hitem
    · rintro ⟨-, hall⟩
      refine ⟨_, rfl, ?_⟩
      rw [List.forall₂_map_left_iff, List.forall₂_same]
      exact hall

/-! ### Merged objects -/

/-- The member `k` with the value `x` stays: the override does not have it, or it keeps it. -/
def Stays (keepOrigin : Bool) (override : List (String × Json)) (k : String) (x : Json) : Prop :=
  Json.first k override = none ∨ keepOrigin = true ∧ x ≠ .null

theorem first_mergeMembers {keepOrigin : Bool} {result override : List (String × Json)} {k : String}
    {x : Json} (hx : Json.first k result = some x) (hstays : Stays keepOrigin override k x) :
    Json.first k (mergeMembers keepOrigin result override) = some x := by
  induction override generalizing result with
  | nil => exact hx
  | cons m override ih =>
      obtain ⟨l, v⟩ := m
      unfold mergeMembers
      by_cases hl : l = k
      · subst hl
        rcases hstays with hnone | ⟨rfl, hnull⟩
        · unfold Json.first at hnone
          rw [if_pos rfl] at hnone
          exact absurd hnone (Option.some_ne_none v)
        · have hnil : isNil (Json.first l result) = false := by
            rw [hx]
            cases x with
            | null => exact absurd rfl hnull
            | bool _ | number _ | string _ | array _ | object _ => rfl
          rw [hnil]
          exact ih hx (.inr ⟨rfl, hnull⟩)
      · have hrest : Stays keepOrigin override k x := by
          rcases hstays with hnone | hkeep
          · unfold Json.first at hnone
            rw [if_neg hl] at hnone
            exact .inl hnone
          · exact .inr hkeep
        refine ih ?_ hrest
        split
        · rw [Json.first_put, if_neg hl]
          exact hx
        · exact hx

/-- The members that an override of an object has. -/
def overrideMembers : Json → List (String × Json)
  | .object ms => ms
  | _ => []

/-- The members of an object that stay have their values. -/
def KeepsMembers (ms : List (String × Json)) (value : Json) (keepOrigin : Bool)
    (object : Option Json) : Prop :=
  ∀ k x, Json.last k ms = some x → Stays keepOrigin (overrideMembers value) k x →
    ∃ y, object.bind (Json.child k) = some y ∧ Same y x

theorem decode_ne_null (rewrite : ℚ → ℚ) {x : Json} (h : x ≠ .null) :
    Json.decode rewrite x ≠ .null := by
  cases x with
  | null => exact absurd rfl h
  | bool _ | number _ | string _ | array _ | object _ => exact fun he => nomatch he

theorem modifyValue_object {rt : Runtime} (hlib : Documented rt.toLibraries)
    {ms : List (String × Json)} {value : Json} {keepOrigin isPrepend : Bool}
    (hpath : PlainPath path cs) (hget : rt.gjsonGet doc path = some (.object ms))
    (h : modifyValue rt doc path value keepOrigin isPrepend = .ok doc') :
    KeepsMembers ms value keepOrigin (Json.getAt doc' (cs.map Component.part)) ↔
      ∀ k x, Json.last k ms = some x → Stays keepOrigin (overrideMembers value) k x →
        Same (rt.toLibraries.decode x) x := by
  unfold modifyValue at h
  rw [hget] at h
  have hset : rt.sjsonSet doc path (.object (Json.canonicalBy Json.first (mergeMembers keepOrigin
      (Json.canonical (Json.decodeMembers rt.rewrite ms)) (overrideMembers value)))) =
        .ok doc' := by
    unfold mergeObjects at h
    obtain ⟨newMap, hnew, hset⟩ := Checked.ok_bind.mp h
    obtain rfl : overrideMembers value = newMap := by
      cases value with
      | object ms => exact Except.ok.inj hnew
      | null => exact Except.ok.inj hnew
      | bool _ | number _ | string _ | array _ => exact nomatch hnew
    exact hset
  rw [getAt_sjsonSet hlib hpath hset]
  have hmember : ∀ k x, Json.last k ms = some x → Stays keepOrigin (overrideMembers value) k x →
      Json.child k (.object (Json.canonicalBy Json.first (mergeMembers keepOrigin
        (Json.canonical (Json.decodeMembers rt.rewrite ms)) (overrideMembers value)))) =
          some (rt.toLibraries.decode x) := by
    intro k x hlast hstays
    have hx : Json.first k (Json.canonical (Json.decodeMembers rt.rewrite ms)) =
        some (rt.toLibraries.decode x) := by
      rw [Json.first_canonical, Json.last_decodeMembers, hlast]
      rfl
    have hstays' : Stays keepOrigin (overrideMembers value) k (rt.toLibraries.decode x) := by
      rcases hstays with hnone | ⟨hkeep, hnull⟩
      · exact .inl hnone
      · exact .inr ⟨hkeep, decode_ne_null rt.rewrite hnull⟩
    rw [Json.child_object, Json.first_canonicalBy_first]
    exact first_mergeMembers hx hstays'
  unfold KeepsMembers
  constructor
  · intro hall k x hlast hstays
    obtain ⟨y, hy, hsame⟩ := hall k x hlast hstays
    rw [Option.bind_some, hmember k x hlast hstays] at hy
    rw [Option.some.inj hy]
    exact hsame
  · intro hall k x hlast hstays
    exact ⟨_, hmember k x hlast hstays, hall k x hlast hstays⟩

/-! ### Pruned trees -/

mutual

/-- The second tree is the first one without some of the objects below its root. -/
inductive Pruned : Json → Json → Prop
  | same (j : Json) : Pruned j j
  | array {items items' : List Json} : PrunedItems items items' →
      Pruned (.array items) (.array items')
  | object {ms ms' : List (String × Json)} : PrunedMembers ms ms' →
      Pruned (.object ms) (.object ms')

inductive PrunedItems : List Json → List Json → Prop
  | nil : PrunedItems [] []
  | keep {j j' : Json} {items items' : List Json} : Pruned j j' → PrunedItems items items' →
      PrunedItems (j :: items) (j' :: items')
  | drop {ms : List (String × Json)} {items items' : List Json} : PrunedItems items items' →
      PrunedItems (.object ms :: items) items'

inductive PrunedMembers : List (String × Json) → List (String × Json) → Prop
  | nil : PrunedMembers [] []
  | keep {k : String} {j j' : Json} {ms ms' : List (String × Json)} : Pruned j j' →
      PrunedMembers ms ms' → PrunedMembers ((k, j) :: ms) ((k, j') :: ms')
  | drop {k : String} {dropped ms ms' : List (String × Json)} : PrunedMembers ms ms' →
      PrunedMembers ((k, .object dropped) :: ms) ms'

end

section pruning

variable {shouldPrune : List (String × Json) → Except String Bool} {recursive : Bool}

/-- What `pruneObjectsNode` says about a node: it is an object that is dropped, or it is kept and
pruned. -/
def NodePruned (j : Json) : Json × Bool → Prop
  | (j', false) => Pruned j j'
  | (_, true) => ∃ ms, j = .object ms

theorem pruneItems_pruned {items items' : List Json}
    (hnode : ∀ j ∈ items, ∀ isRoot r, pruneObjectsNode shouldPrune recursive j isRoot = .ok r →
      NodePruned j r)
    (h : pruneItems shouldPrune recursive items = .ok items') : PrunedItems items items' := by
  induction items generalizing items' with
  | nil =>
      rw [pruneItems] at h
      obtain rfl := Except.ok.inj h
      exact .nil
  | cons j items ih =>
      rw [pruneItems] at h
      obtain ⟨⟨next, drop⟩, hnext, h⟩ := Checked.ok_bind.mp h
      obtain ⟨rest, hrest, h⟩ := Checked.ok_bind.mp h
      obtain rfl := Except.ok.inj h
      have htail := ih (fun x hx => hnode x (List.mem_cons_of_mem _ hx)) hrest
      have hhead := hnode j List.mem_cons_self false _ hnext
      cases drop with
      | false => exact .keep hhead htail
      | true =>
          obtain ⟨ms, rfl⟩ := hhead
          exact .drop htail

theorem pruneMembers_pruned {ms ms' : List (String × Json)}
    (hnode : ∀ m ∈ ms, ∀ isRoot r, pruneObjectsNode shouldPrune recursive m.2 isRoot = .ok r →
      NodePruned m.2 r)
    (h : pruneMembers shouldPrune recursive ms = .ok ms') : PrunedMembers ms ms' := by
  induction ms generalizing ms' with
  | nil =>
      rw [pruneMembers] at h
      obtain rfl := Except.ok.inj h
      exact .nil
  | cons m ms ih =>
      obtain ⟨k, j⟩ := m
      rw [pruneMembers] at h
      obtain ⟨⟨next, drop⟩, hnext, h⟩ := Checked.ok_bind.mp h
      obtain ⟨rest, hrest, h⟩ := Checked.ok_bind.mp h
      obtain rfl := Except.ok.inj h
      have htail := ih (fun x hx => hnode x (List.mem_cons_of_mem _ hx)) hrest
      have hhead := hnode (k, j) List.mem_cons_self false _ hnext
      cases drop with
      | false => exact .keep hhead htail
      | true =>
          obtain ⟨dropped, hdropped⟩ := hhead
          dsimp only at hdropped
          rw [hdropped]
          exact .drop htail

theorem pruneObjectsNode_pruned (j : Json) : ∀ isRoot r,
    pruneObjectsNode shouldPrune recursive j isRoot = .ok r → NodePruned j r := by
  induction j using Json.induction with
  | null | bool b | number n | string s =>
      intro isRoot r h
      rw [pruneObjectsNode] at h
      · obtain rfl := Except.ok.inj h
        exact .same _
      all_goals exact fun _ h => nomatch h
  | array items ih =>
      intro isRoot r h
      rw [pruneObjectsNode] at h
      obtain ⟨items', hitems, h⟩ := Checked.ok_bind.mp h
      obtain rfl := Except.ok.inj h
      exact .array (pruneItems_pruned ih hitems)
  | object ms ih =>
      intro isRoot r h
      rw [pruneObjectsNode] at h
      obtain ⟨shouldDrop, -, h⟩ := Checked.ok_bind.mp h
      by_cases hdrop : (shouldDrop && !isRoot) = true
      · rw [if_pos hdrop] at h
        obtain rfl := Except.ok.inj h
        exact ⟨ms, rfl⟩
      · rw [if_neg hdrop] at h
        by_cases hrecursive : recursive = true
        · rw [if_pos hrecursive] at h
          obtain ⟨ms', hms, h⟩ := Checked.ok_bind.mp h
          obtain rfl := Except.ok.inj h
          exact .object (pruneMembers_pruned ih hms)
        · rw [if_neg hrecursive] at h
          obtain rfl := Except.ok.inj h
          exact .same _

/-- The root of a pruned tree is kept. -/
theorem pruneObjectsNode_root {j j' : Json} {drop : Bool}
    (h : pruneObjectsNode shouldPrune recursive j true = .ok (j', drop)) : Pruned j j' := by
  have hnode := pruneObjectsNode_pruned j true _ h
  cases drop with
  | false => exact hnode
  | true =>
      exfalso
      obtain ⟨ms, rfl⟩ := hnode
      rw [pruneObjectsNode] at h
      obtain ⟨shouldDrop, -, h⟩ := Checked.ok_bind.mp h
      rw [if_neg (by simp)] at h
      by_cases hrecursive : recursive = true
      · rw [if_pos hrecursive] at h
        obtain ⟨ms', -, h⟩ := Checked.ok_bind.mp h
        exact nomatch (Prod.mk.inj (Except.ok.inj h)).2
      · rw [if_neg hrecursive] at h
        exact nomatch (Prod.mk.inj (Except.ok.inj h)).2

end pruning

/-- The target is pruned, its other values are those of the input. -/
theorem pruneObjects_intact {rt : Runtime} (hlib : Documented rt.toLibraries)
    {contextJson : Option Json} {value target : Json} (hpath : PlainPath path cs)
    (hempty : path ≠ "")
    (hget : rt.gjsonGet doc path = some target) (hdistinct : Json.Distinct target)
    (hexact : Json.Exact rt.rewrite target)
    (h : pruneObjects rt doc path contextJson value = .ok doc') :
    Keeps cs doc doc' ∧
      ∃ out, Json.getAt doc' (cs.map Component.part) = some out ∧
        Pruned (Json.meaning target) out := by
  unfold pruneObjects at h
  obtain ⟨options, -, h⟩ := Checked.ok_bind.mp h
  rw [if_neg hempty, hget] at h
  obtain ⟨out, hout, hset⟩ := Checked.ok_bind.mp h
  refine ⟨sjsonSet_keeps hlib hpath hset, out, getAt_sjsonSet hlib hpath hset, ?_⟩
  obtain ⟨⟨out', drop⟩, hnode, rfl⟩ := Checked.ok_map.mp hout
  have hmeaning := (Json.decode_eq_meaning_iff rt.rewrite hdistinct).mpr hexact
  rw [← hmeaning]
  exact pruneObjectsNode_root hnode

theorem pruneObjects_body_intact {rt : Runtime} {contextJson : Option Json} {value : Json}
    (hdistinct : Json.Distinct doc) (hexact : Json.Exact rt.rewrite doc)
    (h : pruneObjects rt doc "" contextJson value = .ok doc') :
    Pruned (Json.meaning doc) doc' := by
  unfold pruneObjects at h
  obtain ⟨options, -, h⟩ := Checked.ok_bind.mp h
  rw [if_pos rfl] at h
  obtain ⟨⟨out', drop⟩, hnode, rfl⟩ := Checked.ok_map.mp h
  have hmeaning := (Json.decode_eq_meaning_iff rt.rewrite hdistinct).mpr hexact
  rw [← hmeaning]
  exact pruneObjectsNode_root hnode

/-! ### Synchronised fields -/

/-- The value that a target of `sync_fields` holds. -/
def Holds {Context : Type} (rt : Runtime) (hd : Headers Context) (doc : Json) :
    SyncTarget → Json → Prop
  | .json key, v => rt.gjsonGet doc (processNegativeIndex rt.toLibraries doc key) = some v
  | .header key, v => ∃ context context' s, hd.get context key = (context', some s) ∧ v = .string s

theorem readSyncTargetValue_holds {Context : Type} {rt : Runtime} {hd : Headers Context}
    {context context' : Context} {target : SyncTarget}
    (h : readSyncTargetValue rt hd doc context target = (context', some w)) :
    ∃ v, Holds rt hd doc target v ∧ w = rt.toLibraries.value v := by
  unfold readSyncTargetValue at h
  cases target with
  | json key =>
      dsimp only at h
      cases hget : rt.gjsonGet doc (processNegativeIndex rt.toLibraries doc key) with
      | none =>
          rw [hget] at h
          exact nomatch (Prod.mk.inj h).2
      | some v =>
          rw [hget] at h
          cases v with
          | null => exact nomatch (Prod.mk.inj h).2
          | string s =>
              refine ⟨.string s, hget, ?_⟩
              have hw := (Prod.mk.inj h).2
              by_cases hblank : Text.trimSpace s = ""
              · rw [if_pos hblank] at hw
                exact nomatch hw
              · rw [if_neg hblank] at hw
                exact (Option.some.inj hw).symm
          | bool _ | number _ | array _ | object _ =>
              exact ⟨_, hget, (Option.some.inj (Prod.mk.inj h).2).symm⟩
  | header key =>
      dsimp only at h
      cases hget : hd.get context key with
      | mk context'' s =>
          rw [hget] at h
          cases s with
          | none => exact nomatch (Prod.mk.inj h).2
          | some s =>
              refine ⟨.string s, ⟨context, context'', s, hget, rfl⟩, ?_⟩
              have hw := (Prod.mk.inj h).2
              by_cases hblank : Text.trimSpace s = ""
              · rw [if_pos hblank] at hw
                exact nomatch hw
              · rw [if_neg hblank] at hw
                exact (Option.some.inj hw).symm

/-- `sync_fields` leaves the body, or writes the value of one target at the other one. -/
theorem syncFields_writes {Context : Type} {rt : Runtime} {hd : Headers Context}
    {context context' : Context} {fromSpec toSpec : String}
    (h : syncFieldsBetweenTargets rt hd doc context fromSpec toSpec = .ok (doc', context')) :
    doc' = doc ∨ ∃ source key v, Holds rt hd doc source v ∧
      (parseSyncTarget fromSpec = .ok source ∧ parseSyncTarget toSpec = .ok (.json key) ∨
        parseSyncTarget toSpec = .ok source ∧ parseSyncTarget fromSpec = .ok (.json key)) ∧
      rt.sjsonSet doc (processNegativeIndex rt.toLibraries doc key)
        (rt.toLibraries.value v) = .ok doc' := by
  have hwrite : ∀ {target : SyncTarget} {context₁ : Context} {w : Json},
      writeSyncTargetValue rt hd doc context₁ target w = .ok (doc', context') →
        doc' = doc ∨ ∃ key, target = .json key ∧
          rt.sjsonSet doc (processNegativeIndex rt.toLibraries doc key) w = .ok doc' := by
    intro target context₁ w hwrite
    unfold writeSyncTargetValue at hwrite
    cases target with
    | json key =>
        obtain ⟨next, hset, heq⟩ := Checked.ok_bind.mp hwrite
        obtain rfl := (Prod.mk.inj (Except.ok.inj heq)).1
        exact .inr ⟨key, rfl, hset⟩
    | header key =>
        obtain ⟨context'', -, heq⟩ := Checked.ok_bind.mp hwrite
        exact .inl (Prod.mk.inj (Except.ok.inj heq)).1.symm
  unfold syncFieldsBetweenTargets at h
  obtain ⟨fromTarget, hfrom, h⟩ := Checked.ok_bind.mp h
  obtain ⟨toTarget, hto, h⟩ := Checked.ok_bind.mp h
  cases hread : readSyncTargetValue rt hd doc context fromTarget with
  | mk context₁ fromValue =>
      rw [hread] at h
      dsimp only at h
      cases hread' : readSyncTargetValue rt hd doc context₁ toTarget with
      | mk context₂ toValue =>
          rw [hread'] at h
          dsimp only at h
          cases fromValue with
          | none =>
              cases toValue with
              | none => exact .inl (Prod.mk.inj (Except.ok.inj h)).1.symm
              | some w =>
                  obtain ⟨v, hv, rfl⟩ := readSyncTargetValue_holds hread'
                  rcases hwrite h with hsame | ⟨key, rfl, hset⟩
                  · exact .inl hsame
                  · exact .inr ⟨toTarget, key, v, hv, .inr ⟨hto, hfrom⟩, hset⟩
          | some w =>
              cases toValue with
              | none =>
                  obtain ⟨v, hv, rfl⟩ := readSyncTargetValue_holds hread
                  rcases hwrite h with hsame | ⟨key, rfl, hset⟩
                  · exact .inl hsame
                  · exact .inr ⟨fromTarget, key, v, hv, .inl ⟨hfrom, hto⟩, hset⟩
              | some _ => exact .inl (Prod.mk.inj (Except.ok.inj h)).1.symm

end values

/-- **Main.** The operations that carry values of the body: the values apart from the written path
stay, those behind a moved element one place further up; a value arrives, or is kept in an array or
an object, exactly when its numbers survive the way through a `float64`, and an array that is not
empty in the end; a pruned value is the input's without the dropped objects. -/
theorem values_intact {Context : Type} (rt : Runtime) (hlib : Documented rt.toLibraries)
    (hd : Headers Context) (doc doc' : Json) :
    (∀ fromPath toPath target v, PlainPath toPath target → rt.gjsonGet doc fromPath = some v →
      Json.Distinct v → copyValue rt.toLibraries doc fromPath toPath = .ok doc' →
        Keeps target doc doc' ∧ (Arrives doc' target v ↔ Json.Exact rt.rewrite v)) ∧
      (∀ fromPath toPath source target v, PlainPath toPath target →
        sjsonPath fromPath = some source → ReadsAt fromPath source →
          Json.getAt doc (source.map Component.part) = some v → Json.Distinct v →
            MoveApart doc v source target →
              moveValue rt.toLibraries doc fromPath toPath = .ok doc' →
                (∀ q x, Json.Apart (target.map Component.part) q →
                  Json.Apart (source.map Component.part) q → Json.getAt doc q = some x →
                    Json.getAt doc' (Json.relocate doc (source.map Component.part) q) = some x) ∧
                  (Arrives doc' target v ↔ Json.Exact rt.rewrite v)) ∧
      (∀ path cs value keepOrigin isPrepend, PlainPath path cs → ReadsAt path cs →
        modifyValue rt doc path value keepOrigin isPrepend = .ok doc' →
          Keeps cs doc doc' ∧
            (∀ items, Json.getAt doc (cs.map Component.part) = some (.array items) →
              Json.Distinct (.array items) →
                (KeepsElements items value isPrepend (Json.getAt doc' (cs.map Component.part)) ↔
                  (items ≠ [] ∨ addedValues value ≠ []) ∧
                    Json.Exact rt.rewrite (.array items))) ∧
            ∀ ms, Json.getAt doc (cs.map Component.part) = some (.object ms) →
              Json.Distinct (.object ms) →
                (KeepsMembers ms value keepOrigin (Json.getAt doc' (cs.map Component.part)) ↔
                  ∀ k x, Json.last k ms = some x → Stays keepOrigin (overrideMembers value) k x →
                    Json.Exact rt.rewrite x)) ∧
      (∀ path cs contextJson value target, PlainPath path cs → ReadsAt path cs → path ≠ "" →
        Json.getAt doc (cs.map Component.part) = some target → Json.Distinct target →
          Json.Exact rt.rewrite target → pruneObjects rt doc path contextJson value = .ok doc' →
            Keeps cs doc doc' ∧ ∃ out, Json.getAt doc' (cs.map Component.part) = some out ∧
              Pruned (Json.meaning target) out) ∧
      (∀ contextJson value, Json.Distinct doc → Json.Exact rt.rewrite doc →
        pruneObjects rt doc "" contextJson value = .ok doc' → Pruned (Json.meaning doc) doc') ∧
      ∀ context context' fromSpec toSpec,
        syncFieldsBetweenTargets rt hd doc context fromSpec toSpec = .ok (doc', context') →
          doc' = doc ∨ ∃ source key v, Holds rt hd doc source v ∧
            (parseSyncTarget fromSpec = .ok source ∧ parseSyncTarget toSpec = .ok (.json key) ∨
              parseSyncTarget toSpec = .ok source ∧ parseSyncTarget fromSpec = .ok (.json key)) ∧
            ∀ cs, PlainPath (processNegativeIndex rt.toLibraries doc key) cs → Json.Distinct v →
              Keeps cs doc doc' ∧ (Arrives doc' cs v ↔ Json.Exact rt.rewrite v) := by
  refine ⟨?_, ?_, ?_, ?_, ?_, ?_⟩
  · intro fromPath toPath target v hto hget hdistinct h
    have hintact := copyValue_intact hlib hto hget h
    rw [show Same (rt.toLibraries.value v) v ↔ _ from Json.same_value_iff hdistinct] at hintact
    exact hintact
  · intro fromPath toPath source target v hto hfrom hread hget hdistinct hmove h
    have hintact := moveValue_intact hlib hto hfrom hread ((hlib.get doc hread).trans hget) hmove h
    rw [show Same (rt.toLibraries.value v) v ↔ _ from Json.same_value_iff hdistinct] at hintact
    exact hintact
  · intro path cs value keepOrigin isPrepend hpath hread h
    obtain ⟨w, hset⟩ := modifyValue_sets h
    refine ⟨sjsonSet_keeps hlib hpath hset, fun items hget hdistinct => ?_,
      fun ms hget hdistinct => ?_⟩
    · rw [modifyValue_array hlib hpath ((hlib.get doc hread).trans hget) h]
      have hitems := Json.distinctItems_iff.mp hdistinct
      refine and_congr_right fun _ => ?_
      constructor
      · intro hall n hn
        obtain ⟨item, hitem, hnumber⟩ := Json.mem_numbersItems.mp hn
        exact (Json.same_value_iff (hitems item hitem)).mp (hall item hitem) n hnumber
      · intro hexact item hitem
        apply (Json.same_value_iff (hitems item hitem)).mpr
        exact fun n hn => hexact n (Json.mem_numbersItems.mpr ⟨item, hitem, hn⟩)
    · rw [modifyValue_object hlib hpath ((hlib.get doc hread).trans hget) h]
      have hms := Json.distinctMembers_iff.mp hdistinct.2
      constructor
      · intro hall k x hlast hstays
        have hx := hms (k, x) (Json.mem_of_last hlast)
        exact (Json.same_decode_iff hx).mp (hall k x hlast hstays)
      · intro hall k x hlast hstays
        have hx := hms (k, x) (Json.mem_of_last hlast)
        exact (Json.same_decode_iff hx).mpr (hall k x hlast hstays)
  · intro path cs contextJson value target hpath hread hempty hget hdistinct hexact h
    exact pruneObjects_intact hlib hpath hempty ((hlib.get doc hread).trans hget) hdistinct hexact h
  · intro contextJson value hdistinct hexact h
    exact pruneObjects_body_intact hdistinct hexact h
  · intro context context' fromSpec toSpec h
    rcases syncFields_writes h with hsame | ⟨source, key, v, hholds, hparse, hset⟩
    · exact .inl hsame
    · refine .inr ⟨source, key, v, hholds, hparse, fun cs hpath hdistinct => ?_⟩
      have hintact := intact_iff hlib hpath hset
      rw [show Same (rt.toLibraries.value v) v ↔ _ from Json.same_value_iff hdistinct] at hintact
      exact hintact

/-! ### Numbers that survive, and one that does not -/

/-- The libraries on documents with the number `9007199254740993`, which no `float64` holds. -/
def roundingRuntime : Runtime where
  toLibraries := locationLibraries fun n => if n = 9007199254740993 then 9007199254740992 else n
  text | .string s => s | _ => ""
  sprint | .string s => s | _ => ""
  jsonText | .string s => s | _ => ""
  lower := Text.toLower
  upper := Text.toUpper
  regexReplace _ current _ := .ok current

theorem roundingRuntime_documented : Documented roundingRuntime.toLibraries :=
  locationLibraries_documented _

theorem exact_of_ne {j : Json} (h : ∀ n ∈ Json.numbers j, n ≠ 9007199254740993) :
    Json.Exact roundingRuntime.rewrite j := fun n hn => if_neg (h n hn)

/-- The elements and the members of a body that are carried. -/
def carriedItems : List Json := [.number 1, .number 2, .object [("type", .string "tool")]]

def carriedMembers : List (String × Json) := [("a", .number 3), ("b", .string "u")]

def carriedBody : Json :=
  .object [("list", .array carriedItems), ("opts", .object carriedMembers)]

theorem values_intact_copy :
    (∃ doc', copyValue roundingRuntime.toLibraries carriedBody "opts" "kept.:7" = .ok doc' ∧
      Arrives doc' [⟨"kept", false⟩, ⟨"7", true⟩] (.object carriedMembers)) ∧
      (∃ doc', moveValue roundingRuntime.toLibraries carriedBody "list.0" "first" = .ok doc' ∧
        Json.getAt doc' ["list", "0"] = some (.number 2) ∧
          Arrives doc' [⟨"first", false⟩] (.number 1)) ∧
      (∃ doc', modifyValue roundingRuntime carriedBody "list" (.array [.number 4]) false false =
          .ok doc' ∧
        KeepsElements carriedItems (.array [.number 4]) false (Json.getAt doc' ["list"])) ∧
      (∃ doc', modifyValue roundingRuntime carriedBody "opts" (.object [("a", .null)]) false false =
          .ok doc' ∧
        KeepsMembers carriedMembers (.object [("a", .null)]) false (Json.getAt doc' ["opts"])) ∧
      ∃ doc', pruneObjects roundingRuntime carriedBody "list" none (.string "tool") = .ok doc' ∧
        ∃ out, Json.getAt doc' ["list"] = some out ∧
          Pruned (Json.meaning (.array carriedItems)) out := by
  have hlist : PlainPath "list" [⟨"list", false⟩] :=
    ⟨by decide +kernel, by unfold Json.Plain; decide⟩
  have hopts : PlainPath "opts" [⟨"opts", false⟩] :=
    ⟨by decide +kernel, by unfold Json.Plain; decide⟩
  have hitems : Json.Distinct (.array carriedItems) := by
    simp [carriedItems, Json.Distinct, Json.DistinctItems, Json.DistinctMembers]
  have hmembers : Json.Distinct (.object carriedMembers) := by
    simp [carriedMembers, Json.Distinct, Json.DistinctMembers]
  have hexactItems : Json.Exact roundingRuntime.rewrite (.array carriedItems) := by
    apply exact_of_ne
    simp [carriedItems, Json.numbers, Json.numbersItems, Json.numbersMembers]
  have hexactMembers : Json.Exact roundingRuntime.rewrite (.object carriedMembers) := by
    apply exact_of_ne
    simp [carriedMembers, Json.numbers, Json.numbersMembers]
  have hread : gjsonPath "list" = some ["list"] := by decide +kernel
  have hread' : gjsonPath "opts" = some ["opts"] := by decide +kernel
  refine ⟨?_, ?_, ?_, ?_, ?_⟩
  · obtain ⟨doc', h, -⟩ := exists_of_toBool (x := copyValue roundingRuntime.toLibraries
      carriedBody "opts" "kept.:7") (p := fun _ => true) (by decide +kernel)
    have hpath : PlainPath "kept.:7" [⟨"kept", false⟩, ⟨"7", true⟩] :=
      ⟨by decide +kernel, by unfold Json.Plain; decide⟩
    have hintact := (values_intact roundingRuntime roundingRuntime_documented noHeaders carriedBody
      doc').1 "opts" "kept.:7" _ (.object carriedMembers) hpath
        (roundingRuntime_documented.get carriedBody hread') hmembers h
    exact ⟨doc', h, hintact.2.mpr hexactMembers⟩
  · obtain ⟨doc', h, -⟩ := exists_of_toBool (x := moveValue roundingRuntime.toLibraries
      carriedBody "list.0" "first") (p := fun _ => true) (by decide +kernel)
    have hpath : PlainPath "first" [⟨"first", false⟩] :=
      ⟨by decide +kernel, by unfold Json.Plain; decide⟩
    have hapart : Json.Apart ["list", "0"] ["first"] :=
      .inl (Json.differ_of_name (by decide) (by decide +kernel))
    have hbehind : Json.Apart ["list", "0"] ["list", "1"] := by
      refine .inr ⟨rfl, .inl ⟨by decide, fun i hi => ?_⟩⟩
      have hzero : Json.index? "0" = some 0 := by decide +kernel
      rw [hzero] at hi
      obtain rfl := Option.some.inj hi
      decide +kernel
    have hintact := (values_intact roundingRuntime roundingRuntime_documented noHeaders carriedBody
      doc').2.1 "list.0" "first" [⟨"list", false⟩, ⟨"0", false⟩] _ (.number 1) hpath
        (by decide +kernel) (by unfold ReadsAt; decide +kernel) rfl trivial
        (.inl ⟨hapart, by decide +kernel⟩) h
    have hrelocate : Json.relocate carriedBody ["list", "0"] ["list", "1"] = ["list", "0"] := by
      decide +kernel
    have hmoved := hintact.1 ["list", "1"] (.number 2)
      (.inl (Json.differ_of_name (by decide) (by decide +kernel))) hbehind rfl
    refine ⟨doc', h, ?_, hintact.2.mpr (exact_of_ne (by simp [Json.numbers]))⟩
    rw [← hrelocate]
    exact hmoved
  · obtain ⟨doc', h, -⟩ := exists_of_toBool (x := modifyValue roundingRuntime carriedBody "list"
      (.array [.number 4]) false false) (p := fun _ => true) (by decide +kernel)
    have hintact := (values_intact roundingRuntime roundingRuntime_documented noHeaders carriedBody
      doc').2.2.1 "list" _ (.array [.number 4]) false false hlist hread h
    exact ⟨doc', h, (hintact.2.1 carriedItems rfl hitems).mpr ⟨.inl (by simp [carriedItems]),
      hexactItems⟩⟩
  · obtain ⟨doc', h, -⟩ := exists_of_toBool (x := modifyValue roundingRuntime carriedBody "opts"
      (.object [("a", .null)]) false false) (p := fun _ => true) (by decide +kernel)
    have hintact := (values_intact roundingRuntime roundingRuntime_documented noHeaders carriedBody
      doc').2.2.1 "opts" _ (.object [("a", .null)]) false false hopts hread' h
    refine ⟨doc', h, (hintact.2.2 carriedMembers rfl hmembers).mpr fun k x hlast _ n hn => ?_⟩
    have hmem : (k, x) ∈ carriedMembers := Json.mem_of_last hlast
    exact hexactMembers n (Json.mem_numbersMembers.mpr ⟨(k, x), hmem, hn⟩)
  · obtain ⟨doc', h, -⟩ := exists_of_toBool (x := pruneObjects roundingRuntime carriedBody "list"
      none (.string "tool")) (p := fun _ => true) (by decide +kernel)
    have hintact := (values_intact roundingRuntime roundingRuntime_documented noHeaders carriedBody
      doc').2.2.2.1 "list" _ none (.string "tool") (.array carriedItems) hlist hread (by decide) rfl
        hitems hexactItems h
    exact ⟨doc', h, hintact.2⟩

/-- A copied integer is another one; a value that is moved to its own place is lost; an empty array
that gets no elements becomes `null`. -/
theorem copy_changes_integer :
    (∃ doc', copyValue roundingRuntime.toLibraries (.object [("a", .number 9007199254740993)])
        "a" "b" = .ok doc' ∧ ¬ Arrives doc' [⟨"b", false⟩] (.number 9007199254740993)) ∧
      (∃ doc', moveValue roundingRuntime.toLibraries (.object [("a", .number 1)]) "a" "a" =
          .ok doc' ∧ ¬ Arrives doc' [⟨"a", false⟩] (.number 1)) ∧
      ∃ doc', modifyValue roundingRuntime (.object [("a", .array [])]) "a" (.array []) false false =
          .ok doc' ∧ ¬ KeepsElements [] (.array []) false (Json.getAt doc' ["a"]) := by
  refine ⟨?_, ?_, ?_⟩
  · obtain ⟨doc', h, -⟩ := exists_of_toBool (x := copyValue roundingRuntime.toLibraries
      (.object [("a", .number 9007199254740993)]) "a" "b") (p := fun _ => true) (by decide +kernel)
    have hpath : PlainPath "b" [⟨"b", false⟩] := ⟨by decide +kernel, by unfold Json.Plain; decide⟩
    have hintact := copyValue_intact roundingRuntime_documented hpath
      (v := .number 9007199254740993) rfl h
    refine ⟨doc', h, fun harrives => ?_⟩
    have hsame := Json.number.inj (hintact.2.mp harrives)
    have hrewrite : roundingRuntime.rewrite 9007199254740993 = 9007199254740993 := hsame
    norm_num [roundingRuntime, locationLibraries] at hrewrite
  · obtain ⟨doc', h, hgone⟩ := exists_of_toBool (x := moveValue roundingRuntime.toLibraries
      (.object [("a", .number 1)]) "a" "a")
      (p := fun doc' => (Json.getAt doc' ["a"]).isNone) (by decide +kernel)
    refine ⟨doc', h, ?_⟩
    rintro ⟨w, hw, -⟩
    have hnone : Json.getAt doc' ["a"] = some w := hw
    rw [hnone] at hgone
    exact nomatch hgone
  · obtain ⟨doc', h, -⟩ := exists_of_toBool (x := modifyValue roundingRuntime
      (.object [("a", .array [])]) "a" (.array []) false false) (p := fun _ => true)
      (by decide +kernel)
    have hpath : PlainPath "a" [⟨"a", false⟩] := ⟨by decide +kernel, by unfold Json.Plain; decide⟩
    refine ⟨doc', h, fun hkeeps => ?_⟩
    have hne := ((modifyValue_array roundingRuntime_documented hpath rfl h).mp hkeeps).1
    rcases hne with hne | hne
    · exact hne rfl
    · exact hne rfl

end MaxApi.Override
