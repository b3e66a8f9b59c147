import MaxApi.Responses.Reading

/-! # Responses: the shape of a state

Every state of a stream is sound: the items of the response are listed in the order of their
indices, those of the message and of the reasoning from their first delta on, those of the tool
calls from their announcement on, which is when their name is known. -/

namespace MaxApi.Responses

open Dto

structure Sound (s : StreamState) : Prop where
  nodup : s.outputOrder.Nodup
  next : s.nextOutputIndex = s.outputOrder.length
  started : ∀ p : Part, (p.item s).started = true →
    s.outputOrder[(p.item s).outputIndex]? = some p.ref
  fresh : ∀ p : Part, (p.item s).started = false →
    p.ref ∉ s.outputOrder ∧ (p.item s).text = "" ∧ (p.item s).done = false
  sorted : Sorted s.tools
  announced : ∀ k tool, findTool s.tools k = some tool → tool.announced = true →
    s.outputOrder[tool.outputIndex]? = some (.tool k) ∧ tool.name ≠ ""
  nameless : ∀ k tool, findTool s.tools k = some tool → tool.announced = false → tool.name = ""
  listed : ∀ k, .tool k ∈ s.outputOrder →
    ∃ tool, findTool s.tools k = some tool ∧ tool.announced = true
  running : s.finalized = false

theorem Sound.newStreamState (id model : String) (created : ℤ) (customToolNames : List String) :
    Sound (newStreamState id model created customToolNames) where
  nodup := List.nodup_nil
  next := rfl
  started := fun p h => by cases p <;> cases h
  fresh := fun p _ => ⟨List.not_mem_nil, by cases p <;> rfl, by cases p <;> rfl⟩
  sorted := List.Pairwise.nil
  announced := fun k tool h => by cases h
  nameless := fun k tool h => by cases h
  listed := fun k h => by cases h
  running := rfl

section sound

variable {s : StreamState}

theorem Sound.unlisted (hs : Sound s) {k : ℤ}
    (h : ∀ tool, findTool s.tools k = some tool → tool.announced = false) :
    .tool k ∉ s.outputOrder := by
  intro hk
  obtain ⟨tool, hfind, hannounced⟩ := hs.listed k hk
  rw [h tool hfind] at hannounced
  cases hannounced

/-- The fields that nothing here speaks of may change. -/
theorem Sound.congr {s' : StreamState} (hs : Sound s) (hparts : ∀ p : Part, p.item s' = p.item s)
    (horder : s'.outputOrder = s.outputOrder) (hnext : s'.nextOutputIndex = s.nextOutputIndex)
    (htools : s'.tools = s.tools) (hfinalized : s'.finalized = s.finalized) : Sound s' where
  nodup := horder ▸ hs.nodup
  next := by rw [hnext, horder, hs.next]
  started := fun p h => by
    rw [hparts] at h ⊢
    rw [horder]
    exact hs.started p h
  fresh := fun p h => by
    rw [hparts] at h ⊢
    rw [horder]
    exact hs.fresh p h
  sorted := htools ▸ hs.sorted
  announced := by
    rw [htools, horder]
    exact hs.announced
  nameless := htools ▸ hs.nameless
  listed := by
    rw [htools, horder]
    exact hs.listed
  running := hfinalized.trans hs.running

/-- A text that has started changes, but not its place. -/
theorem Sound.set (hs : Sound s) {p : Part} {x : TextItem} (hstarted : (p.item s).started = true)
    (hx : x.started = true) (hindex : x.outputIndex = (p.item s).outputIndex) :
    Sound (p.set s x) where
  nodup := by rw [Part.set_outputOrder]; exact hs.nodup
  next := by rw [Part.set_nextOutputIndex, Part.set_outputOrder]; exact hs.next
  started := fun q hq => by
    rw [Part.set_outputOrder]
    by_cases hqp : q = p
    · rw [hqp, Part.item_set, hindex]
      exact hs.started p hstarted
    · rw [Part.item_set_of_ne s x p hqp] at hq ⊢
      exact hs.started q hq
  fresh := fun q hq => by
    rw [Part.set_outputOrder]
    by_cases hqp : q = p
    · rw [hqp, Part.item_set, hx] at hq
      cases hq
    · rw [Part.item_set_of_ne s x p hqp] at hq ⊢
      exact hs.fresh q hq
  sorted := by rw [Part.set_tools]; exact hs.sorted
  announced := by rw [Part.set_tools, Part.set_outputOrder]; exact hs.announced
  nameless := by rw [Part.set_tools]; exact hs.nameless
  listed := by rw [Part.set_tools, Part.set_outputOrder]; exact hs.listed
  running := by rw [Part.set_finalized]; exact hs.running

/-- What has its place keeps it when an item is added. -/
theorem getElem_append {order : List OutputRef} {i : ℕ} {ref : OutputRef} (new : OutputRef)
    (h : order[i]? = some ref) : (order ++ [new])[i]? = some ref := by
  have hi : i < order.length := (List.getElem?_eq_some_iff.mp h).1
  rw [List.getElem?_append_left hi, h]

theorem getElem_append_self (order : List OutputRef) (new : OutputRef) :
    (order ++ [new])[order.length]? = some new := List.getElem?_concat_length

theorem nodup_append {order : List OutputRef} {new : OutputRef} (h : order.Nodup)
    (hnew : new ∉ order) : (order ++ [new]).Nodup :=
  List.nodup_append.mpr ⟨h, List.pairwise_singleton _ new, fun _ ha _ hb hab =>
    hnew (List.mem_singleton.mp hb ▸ hab ▸ ha)⟩

/-- A text starts. -/
theorem Sound.start (hs : Sound s) {p : Part} (hstarted : (p.item s).started = false) :
    Sound (p.start s).1 := by
  unfold Part.start
  rw [if_neg (by rw [hstarted]; exact Bool.false_ne_true)]
  refine ⟨?_, ?_, ?_, ?_, ?_, ?_, ?_, ?_, ?_⟩
  all_goals dsimp only
  · rw [Part.set_outputOrder]
    exact nodup_append hs.nodup (hs.fresh p hstarted).1
  · rw [Part.set_nextOutputIndex, Part.set_outputOrder]
    show s.nextOutputIndex + 1 = (s.outputOrder ++ [p.ref]).length
    rw [hs.next, List.length_append]
    rfl
  · intro q hq
    rw [Part.set_outputOrder]
    show (s.outputOrder ++ [p.ref])[_]? = _
    by_cases hqp : q = p
    · rw [hqp, Part.item_set, hs.next]
      exact getElem_append_self s.outputOrder p.ref
    · rw [Part.item_set_of_ne _ _ p hqp, Part.item_takeIndex] at hq ⊢
      exact getElem_append p.ref (hs.started q hq)
  · intro q hq
    by_cases hqp : q = p
    · rw [hqp, Part.item_set] at hq
      cases hq
    · rw [Part.item_set_of_ne _ _ p hqp, Part.item_takeIndex] at hq ⊢
      rw [Part.set_outputOrder]
      obtain ⟨hq, htext, hdone⟩ := hs.fresh q hq
      refine ⟨fun hmem => ?_, htext, hdone⟩
      rcases List.mem_append.mp hmem with hmem | hmem
      · exact hq hmem
      · exact hqp (Part.ref_injective (List.mem_singleton.mp hmem))
  · rw [Part.set_tools]
    exact hs.sorted
  · intro k tool hfind hannounced
    rw [Part.set_tools] at hfind
    rw [Part.set_outputOrder]
    obtain ⟨hindex, hname⟩ := hs.announced k tool hfind hannounced
    exact ⟨getElem_append p.ref hindex, hname⟩
  · rw [Part.set_tools]
    exact hs.nameless
  · intro k hk
    rw [Part.set_outputOrder] at hk
    rw [Part.set_tools]
    rcases List.mem_append.mp hk with hk | hk
    · exact hs.listed k hk
    · have href := List.mem_singleton.mp hk
      cases p <;> cases href
  · rw [Part.set_finalized]
    exact hs.running

/-- A tool call changes, but not its place. -/
theorem Sound.setTool (hs : Sound s) {tool : StreamTool}
    (hannounced : tool.announced = true →
      s.outputOrder[tool.outputIndex]? = some (.tool tool.chatIndex) ∧ tool.name ≠ "")
    (hnameless : tool.announced = false →
      tool.name = "" ∧ .tool tool.chatIndex ∉ s.outputOrder) :
    Sound { s with tools := setTool tool s.tools } where
  nodup := hs.nodup
  next := hs.next
  started := hs.started
  fresh := hs.fresh
  sorted := hs.sorted.setTool
  announced := fun k t hfind ht => by
    rw [findTool_setTool] at hfind
    split_ifs at hfind with hk
    · cases hfind
      exact hk ▸ hannounced ht
    · exact hs.announced k t hfind ht
  nameless := fun k t hfind ht => by
    rw [findTool_setTool] at hfind
    split_ifs at hfind with hk
    · cases hfind
      exact (hnameless ht).1
    · exact hs.nameless k t hfind ht
  listed := fun k hk => by
    rw [findTool_setTool]
    by_cases hkt : tool.chatIndex = k
    · refine ⟨tool, if_pos hkt, ?_⟩
      cases ht : tool.announced with
      | true => rfl
      | false => exact absurd (hkt ▸ hk) (hnameless ht).2
    · rw [if_neg hkt]
      exact hs.listed k hk
  running := hs.running

/-- A tool call is announced. -/
theorem Sound.announce (hs : Sound s) {tool : StreamTool}
    (hnew : .tool tool.chatIndex ∉ s.outputOrder) (hname : tool.name ≠ "")
    (hannounced : tool.announced = true) (hindex : tool.outputIndex = s.nextOutputIndex) :
    Sound { s.takeIndex (.tool tool.chatIndex) with
      tools := Responses.setTool tool s.tools } where
  nodup := nodup_append hs.nodup hnew
  next := by
    show s.nextOutputIndex + 1 = (s.outputOrder ++ [_]).length
    rw [hs.next, List.length_append]
    rfl
  started := fun p hp => getElem_append _ (hs.started p hp)
  fresh := fun p hp => by
    obtain ⟨hmem, htext⟩ := hs.fresh p hp
    refine ⟨fun h => ?_, htext⟩
    rcases List.mem_append.mp h with h | h
    · exact hmem h
    · have href := List.mem_singleton.mp h
      cases p <;> cases href
  sorted := hs.sorted.setTool
  announced := fun k t hfind ht => by
    rw [findTool_setTool] at hfind
    split_ifs at hfind with hk
    · cases hfind
      refine ⟨?_, hname⟩
      rw [hindex, hs.next, ← hk]
      exact getElem_append_self _ _
    · obtain ⟨hplace, htname⟩ := hs.announced k t hfind ht
      exact ⟨getElem_append _ hplace, htname⟩
  nameless := fun k t hfind ht => by
    rw [findTool_setTool] at hfind
    split_ifs at hfind with hk
    · cases hfind
      rw [hannounced] at ht
      cases ht
    · exact hs.nameless k t hfind ht
  listed := fun k hk => by
    rw [findTool_setTool]
    by_cases hkt : tool.chatIndex = k
    · exact ⟨tool, if_pos hkt, hannounced⟩
    · rw [if_neg hkt]
      rcases List.mem_append.mp hk with hk | hk
      · exact hs.listed k hk
      · exact absurd (OutputRef.tool.inj (List.mem_singleton.mp hk)).symm hkt
  running := hs.running

end sound

end MaxApi.Responses
