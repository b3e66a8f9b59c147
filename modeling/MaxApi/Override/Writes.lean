import MaxApi.Lib.Checked
import MaxApi.Lib.JsonFrames
import MaxApi.Override.Operations

/-! # What an operation writes

An operation at a path leaves the body as it is, or writes the path, or removes it
(`pathOperation_writes`); a write at a location apart from another one leaves the other one
alone. -/

namespace MaxApi.Override

/-- The document after one write or removal at a path, or none. -/
def WritesAt (lib : Libraries) (doc : Json) (path : String) (doc' : Json) : Prop :=
  doc' = doc ∨ (∃ v, lib.sjsonSet doc path v = .ok doc') ∨ lib.sjsonDelete doc path = .ok doc'

section writes

variable {lib : Libraries} {doc doc' v : Json} {path : String}

theorem WritesAt.set (h : lib.sjsonSet doc path v = .ok doc') : WritesAt lib doc path doc' :=
  .inr (.inl ⟨v, h⟩)

theorem modifyValue_sets {rt : Runtime} {value : Json} {keepOrigin isPrepend : Bool}
    (h : modifyValue rt doc path value keepOrigin isPrepend = .ok doc') :
    ∃ v, rt.sjsonSet doc path v = .ok doc' := by
  unfold modifyValue at h
  split at h
  · exact ⟨_, h⟩
  · exact ⟨_, h⟩
  · unfold mergeObjects at h
    obtain ⟨newMap, -, hset⟩ := Checked.ok_bind.mp h
    exact ⟨_, hset⟩
  · exact nomatch h

theorem modifyValue_writes {rt : Runtime} {value : Json} {keepOrigin isPrepend : Bool}
    (h : modifyValue rt doc path value keepOrigin isPrepend = .ok doc') :
    WritesAt rt.toLibraries doc path doc' := .inr (.inl (modifyValue_sets h))

theorem stringOperation_writes {f : String → Except String (Option String)}
    (h : stringOperation lib f doc path = .ok doc') : WritesAt lib doc path doc' := by
  unfold stringOperation at h
  split at h
  · obtain ⟨next, -, hnext⟩ := Checked.ok_bind.mp h
    cases next with
    | none => exact .inl (Except.ok.inj hnext).symm
    | some next => exact WritesAt.set hnext
  · exact nomatch h

theorem pruneObjects_writes {rt : Runtime} {contextJson : Option Json} {value : Json}
    (hpath : path ≠ "") (h : pruneObjects rt doc path contextJson value = .ok doc') :
    WritesAt rt.toLibraries doc path doc' := by
  unfold pruneObjects at h
  obtain ⟨options, -, h⟩ := Checked.ok_bind.mp h
  rw [if_neg hpath] at h
  split at h
  · exact .inl (Except.ok.inj h).symm
  · obtain ⟨cleaned, -, hset⟩ := Checked.ok_bind.mp h
    exact WritesAt.set hset

/-- An operation at a path writes this path only; `prune_objects` takes the empty path for the
whole body. -/
theorem pathOperation_writes {rt : Runtime} {contextJson : Option Json} {op : ParamOperation}
    (hpath : op.mode = "prune_objects" → path ≠ "")
    (h : pathOperation rt contextJson op doc path = .ok doc') :
    WritesAt rt.toLibraries doc path doc' := by
  unfold pathOperation at h
  split at h
  · unfold deleteValue at h
    by_cases hblank : Text.trimSpace path = ""
    · rw [if_pos hblank] at h
      exact .inl (Except.ok.inj h).symm
    · rw [if_neg hblank] at h
      exact .inr (.inr h)
  · by_cases hkeep : op.keepOrigin ∧ (rt.gjsonGet doc path).isSome
    · rw [if_pos hkeep] at h
      exact .inl (Except.ok.inj h).symm
    · rw [if_neg hkeep] at h
      exact WritesAt.set h
  · exact modifyValue_writes h
  · exact modifyValue_writes h
  · exact stringOperation_writes h
  · exact stringOperation_writes h
  · exact stringOperation_writes h
  · exact stringOperation_writes h
  · exact stringOperation_writes h
  · exact stringOperation_writes h
  · exact stringOperation_writes h
  · exact stringOperation_writes h
  · exact stringOperation_writes h
  · next hmode => exact pruneObjects_writes (hpath hmode) h
  · exact nomatch h

/-- The path is written at a location apart from another one. -/
def PathApart (path : String) (q : List String) : Prop :=
  ∃ cs, sjsonPath path = some cs ∧ Json.Apart (cs.map Json.Component.part) q

theorem Documented.set_ok {cs : List Json.Component} (hlib : Documented lib)
    (hpath : sjsonPath path = some cs) (h : lib.sjsonSet doc path v = .ok doc') :
    Json.setAt doc cs v = .ok doc' := by
  by_cases hempty : path = ""
  · rw [hempty, hlib.set_empty] at h
    exact nomatch h
  · rw [hlib.set doc v hempty hpath] at h
    exact h

theorem Documented.delete_ok {cs : List Json.Component} (hlib : Documented lib)
    (hpath : sjsonPath path = some cs) (h : lib.sjsonDelete doc path = .ok doc') :
    Json.deleteAt doc cs = doc' := by
  by_cases hempty : path = ""
  · rw [hempty, hlib.delete_empty] at h
    exact nomatch h
  · rw [hlib.delete doc hempty hpath] at h
    exact Except.ok.inj h

theorem sjsonSet_apart (hlib : Documented lib) {q : List String} (hapart : PathApart path q)
    (hnames : Json.Names q) (h : lib.sjsonSet doc path v = .ok doc') :
    Json.getAt doc' q = Json.getAt doc q := by
  obtain ⟨cs, hpath, hcs⟩ := hapart
  exact Json.getAt_setAt_of_names hcs hnames (hlib.set_ok hpath h)

theorem sjsonDelete_apart (hlib : Documented lib) {q : List String} (hapart : PathApart path q)
    (hnames : Json.Names q) (h : lib.sjsonDelete doc path = .ok doc') :
    Json.getAt doc' q = Json.getAt doc q := by
  obtain ⟨cs, hpath, hcs⟩ := hapart
  rw [← hlib.delete_ok hpath h]
  exact Json.getAt_deleteAt_of_names hcs hnames

/-- A write at a path leaves the locations of names apart from it. -/
theorem WritesAt.apart (hlib : Documented lib) {q : List String}
    (hwrites : WritesAt lib doc path doc') (hapart : PathApart path q) (hnames : Json.Names q) :
    Json.getAt doc' q = Json.getAt doc q := by
  rcases hwrites with rfl | ⟨v, hset⟩ | hdelete
  · rfl
  · exact sjsonSet_apart hlib hapart hnames hset
  · exact sjsonDelete_apart hlib hapart hnames hdelete

theorem copyValue_apart (hlib : Documented lib) {q : List String} {fromPath toPath : String}
    (hto : PathApart toPath q) (hnames : Json.Names q)
    (h : copyValue lib doc fromPath toPath = .ok doc') :
    Json.getAt doc' q = Json.getAt doc q := by
  unfold copyValue at h
  cases hget : lib.gjsonGet doc fromPath with
  | none =>
      rw [hget] at h
      exact nomatch h
  | some source =>
      rw [hget] at h
      exact sjsonSet_apart hlib hto hnames h

theorem moveValue_apart (hlib : Documented lib) {q : List String} {fromPath toPath : String}
    (hfrom : PathApart fromPath q) (hto : PathApart toPath q) (hnames : Json.Names q)
    (h : moveValue lib doc fromPath toPath = .ok doc') :
    Json.getAt doc' q = Json.getAt doc q := by
  unfold moveValue at h
  cases hget : lib.gjsonGet doc fromPath with
  | none =>
      rw [hget] at h
      exact nomatch h
  | some source =>
      rw [hget] at h
      obtain ⟨next, hset, hdelete⟩ := Checked.ok_bind.mp h
      rw [sjsonDelete_apart hlib hfrom hnames hdelete, sjsonSet_apart hlib hto hnames hset]

end writes

end MaxApi.Override
