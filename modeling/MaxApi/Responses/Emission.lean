import MaxApi.Responses.Sound

/-! # Responses: what an operation emits

A reader of the events of an operation ends up at the state after the operation (`Emission`), unless
the operation was a delta of a text that is done: no reader accepts that one.  Either way the weight
of the events is what the state has gained. -/

namespace MaxApi.Responses

open Dto

variable (codec : ArgumentsCodec)

/-- What is emitted on the way from `s` to `s'`; `late` says that some delta came too late. -/
structure Emission (s : StreamState) (events : List ResponsesStreamEvent) (s' : StreamState)
    (late : Prop) : Prop where
  sound : Sound s'
  created : s'.sentCreated = true
  weight : (reader codec s').weight = (reader codec s).weight + weightAll events
  positive : ∀ e ∈ events, 0 < eventWeight e
  accepted : ¬late → acceptAll codec (reader codec s) events = some (reader codec s')
  refused : late → acceptAll codec (reader codec s) events = none

variable {codec} {s s' s'' : StreamState} {events events' : List ResponsesStreamEvent}

theorem Emission.of_accepted (hs : Sound s') (hcreated : s'.sentCreated = true)
    (hpositive : ∀ e ∈ events, 0 < eventWeight e)
    (h : acceptAll codec (reader codec s) events = some (reader codec s')) :
    Emission codec s events s' False where
  sound := hs
  created := hcreated
  weight := acceptAll_weight h
  positive := hpositive
  accepted := fun _ => h
  refused := False.elim

/-- Nothing is emitted, and nothing that a reader knows of changes. -/
theorem Emission.silent (hs : Sound s') (hcreated : s'.sentCreated = true)
    (h : reader codec s' = reader codec s) : Emission codec s [] s' False :=
  .of_accepted hs hcreated (fun e he => nomatch he) (by rw [h]; rfl)

theorem Emission.append {late late' : Prop} (h : Emission codec s events s' late)
    (h' : Emission codec s' events' s'' late') :
    Emission codec s (events ++ events') s'' (late ∨ late') where
  sound := h'.sound
  created := h'.created
  weight := by
    rw [weightAll_append, h'.weight, h.weight]
    omega
  positive := fun e he => (List.mem_append.mp he).elim (h.positive e) (h'.positive e)
  accepted := fun hlate => by
    rw [acceptAll_append, h.accepted fun hl => hlate (.inl hl)]
    exact h'.accepted fun hl => hlate (.inr hl)
  refused := fun hlate => by
    rw [acceptAll_append]
    by_cases hl : late
    · rw [h.refused hl]
      rfl
    · rw [h.accepted hl]
      exact h'.refused (hlate.resolve_left hl)

theorem Emission.iff {late late' : Prop} (h : Emission codec s events s' late)
    (hiff : late ↔ late') : Emission codec s events s' late' := propext hiff ▸ h

theorem Emission.append_timely (h : Emission codec s events s' False)
    (h' : Emission codec s' events' s'' False) : Emission codec s (events ++ events') s'' False :=
  (h.append h').iff (or_self_iff)

/-! ### Readers of a state -/

variable (codec)

theorem Sound.open (hs : Sound s) (hcreated : s.sentCreated = true) : (reader codec s).Open :=
  ⟨hcreated, hs.running⟩

theorem reader_getElem {i : ℕ} {ref : OutputRef} (h : s.outputOrder[i]? = some ref) :
    (reader codec s).items[i]? = some (view codec s ref) := by
  unfold reader
  dsimp only
  rw [List.getElem?_map, h]
  rfl

/-- A list of images after one of its values has changed. -/
theorem map_eq_set {α β : Type} {f g : α → β} {a : α} :
    ∀ {l : List α} {i : ℕ}, l.Nodup → l[i]? = some a → (∀ b, b ≠ a → g b = f b) →
      l.map g = (l.map f).set i (g a)
  | [], _, _, h, _ => by cases h
  | b :: l, 0, hnodup, h, hg => by
      rw [List.getElem?_cons_zero, Option.some_inj] at h
      have hb : b ∉ l := (List.nodup_cons.mp hnodup).1
      rw [h] at hb ⊢
      rw [List.map_cons, List.map_cons, List.set_cons_zero]
      congr 1
      exact List.map_congr_left fun c hc => hg c fun hca => hb (hca ▸ hc)
  | b :: l, i + 1, hnodup, h, hg => by
      rw [List.getElem?_cons_succ] at h
      obtain ⟨hb, hl⟩ := List.nodup_cons.mp hnodup
      have ha : a ∈ l := List.mem_of_getElem? h
      rw [List.map_cons, List.map_cons, List.set_cons_succ, map_eq_set hl h hg]
      congr 1
      exact hg b fun hba => hb (hba ▸ ha)

/-- The reader after one item has changed. -/
theorem reader_put (s' : StreamState) (hs : Sound s) {i : ℕ} {ref : OutputRef}
    (h : s.outputOrder[i]? = some ref)
    (horder : s'.outputOrder = s.outputOrder) (hcreated : s'.sentCreated = s.sentCreated)
    (hfinalized : s'.finalized = s.finalized)
    (hview : ∀ r, r ≠ ref → view codec s' r = view codec s r) :
    reader codec s' = (reader codec s).put i (view codec s' ref) := by
  unfold reader Reader.put
  dsimp only
  rw [horder, hcreated, hfinalized, map_eq_set hs.nodup h hview]

/-- The reader after an item has been added. -/
theorem reader_add (s' : StreamState) {ref : OutputRef} (hnew : ref ∉ s.outputOrder)
    (horder : s'.outputOrder = s.outputOrder ++ [ref]) (hcreated : s'.sentCreated = s.sentCreated)
    (hfinalized : s'.finalized = s.finalized)
    (hview : ∀ r, r ≠ ref → view codec s' r = view codec s r) :
    reader codec s' = (reader codec s).add (view codec s' ref) := by
  unfold reader Reader.add
  dsimp only
  rw [horder, hcreated, hfinalized, List.map_append]
  congr 2
  exact List.map_congr_left fun r hr => hview r fun h => hnew (h ▸ hr)

/-- The reader of a state that looks the same. -/
theorem reader_congr (s' : StreamState) (horder : s'.outputOrder = s.outputOrder)
    (hcreated : s'.sentCreated = s.sentCreated) (hfinalized : s'.finalized = s.finalized)
    (hview : ∀ r ∈ s.outputOrder, view codec s' r = view codec s r) :
    reader codec s' = reader codec s := by
  unfold reader
  rw [horder, hcreated, hfinalized, List.map_congr_left hview]

theorem put_weight {r : Reader} {i : ℕ} {v w : ItemView} (h : r.items[i]? = some v) :
    (r.put i w).weight + v.weight = r.weight + w.weight := by
  have hsum := sum_weight_set w h
  unfold Reader.weight Reader.put
  dsimp only
  omega

/-! ### Text and reasoning -/

theorem string_length_pos {text : String} (h : text ≠ "") : 0 < text.length := by
  refine Nat.pos_of_ne_zero fun h0 => h ?_
  exact String.length_eq_zero_iff.mp h0

theorem deltaEvent_eq (s : StreamState) (p : Part) (delta : String) (r : Reader) :
    readEvent codec r (p.deltaEvent s delta) = r.readDelta (p.item s).outputIndex delta ∧
      eventWeight (p.deltaEvent s delta) = delta.length := by
  cases p <;> exact ⟨rfl, rfl⟩

/-- An item starts. -/
theorem start_emission (hs : Sound s) (hcreated : s.sentCreated = true) (p : Part) :
    Emission codec s (p.start s).2 (p.start s).1 False := by
  by_cases hstarted : (p.item s).started = true
  · have hstart : p.start s = (s, []) := if_pos hstarted
    rw [hstart]
    exact .silent hs hcreated rfl
  · rw [Bool.not_eq_true] at hstarted
    have hsound := hs.start hstarted
    obtain ⟨hnew, htext, hdone⟩ := hs.fresh p hstarted
    unfold Part.start at hsound ⊢
    rw [if_neg (by rw [hstarted]; exact Bool.false_ne_true)] at hsound ⊢
    dsimp only at hsound ⊢
    refine .of_accepted hsound (by rw [Part.set_sentCreated]; exact hcreated) ?_ ?_
    · intro e he
      rw [List.mem_singleton.mp he]
      exact Nat.one_pos
    · have hread := reader_add codec (p.set (s.takeIndex p.ref)
        { p.item s with started := true, outputIndex := s.nextOutputIndex }) hnew
        (by rw [Part.set_outputOrder]; rfl) (by rw [Part.set_sentCreated]; rfl)
        (by rw [Part.set_finalized]; rfl)
        (fun r hr => by rw [view_set_of_ne codec _ p _ hr]; cases r <;> rfl)
      have hlength : s.nextOutputIndex = (reader codec s).items.length := by
        unfold reader
        rw [List.length_map, hs.next]
      have hview : (⟨"", false, false⟩ : ItemView) =
          textView { p.item s with started := true, outputIndex := s.nextOutputIndex } := by
        unfold textView
        dsimp only
        rw [htext, hdone]
      rw [acceptAll_cons, hlength, (hs.open codec hcreated).accept_added, ← hlength, hread,
        view_ref, Part.item_set, hview]
      rfl

theorem start_item (s : StreamState) (p : Part) :
    (p.item (p.start s).1).started = true ∧ (p.item (p.start s).1).done = (p.item s).done := by
  unfold Part.start
  by_cases hstarted : (p.item s).started = true
  · rw [if_pos hstarted]
    exact ⟨hstarted, rfl⟩
  · rw [if_neg hstarted]
    dsimp only
    rw [Part.item_set]
    exact ⟨rfl, rfl⟩

/-- A delta of an item that has started. -/
theorem delta_emission (hs : Sound s) (hcreated : s.sentCreated = true) {p : Part} {x : TextItem}
    {delta : String} (hstarted : (p.item s).started = true) (hdelta : delta ≠ "")
    (hx : x = { p.item s with text := (p.item s).text ++ delta }) :
    Emission codec s [p.deltaEvent (p.set s x) delta] (p.set s x) ((p.item s).done = true) := by
  have hplace := hs.started p hstarted
  have hitem : (reader codec s).items[(p.item s).outputIndex]? = some (textView (p.item s)) := by
    rw [reader_getElem codec hplace, view_ref]
  have hread : reader codec (p.set s x) =
      (reader codec s).put (p.item s).outputIndex (textView x) := by
    rw [reader_put codec (p.set s x) hs hplace (Part.set_outputOrder s x p)
      (Part.set_sentCreated s x p) (Part.set_finalized s x p)
      (fun r hr => view_set_of_ne codec s p x hr), view_ref, Part.item_set]
  have hevent := deltaEvent_eq codec (p.set s x) p delta (reader codec s)
  rw [Part.item_set] at hevent
  have hstep : acceptAll codec (reader codec s) [p.deltaEvent (p.set s x) delta] =
      (reader codec s).readDelta (p.item s).outputIndex delta := by
    rw [acceptAll_cons, (hs.open codec hcreated).accept, hevent.1, hx]
    cases (reader codec s).readDelta (p.item s).outputIndex delta <;> rfl
  refine ⟨hs.set hstarted (by rw [hx]; exact hstarted) (by rw [hx]),
    (Part.set_sentCreated s x p).trans hcreated, ?_, ?_, ?_, ?_⟩
  · have hweight := put_weight (w := textView x) hitem
    have hlength : (textView x).weight = (textView (p.item s)).weight + delta.length := by
      unfold textView ItemView.weight
      rw [hx]
      dsimp only
      rw [String.length_append]
      omega
    unfold weightAll
    rw [List.map_singleton, List.sum_singleton, hevent.2, hread]
    omega
  · intro e he
    rw [List.mem_singleton.mp he, hevent.2]
    exact string_length_pos hdelta
  · intro hdone
    rw [Bool.not_eq_true] at hdone
    rw [hstep, hread]
    unfold Reader.readDelta
    rw [Reader.changeItem_eq hitem ⟨hdone, hdone⟩, hx]
    rfl
  · intro hdone
    rw [hstep]
    refine Reader.changeItem_none hitem fun h => ?_
    exact Bool.false_ne_true (h.1.symm.trans hdone)

/-- A delta is late if its item is done. -/
theorem append_emission (hs : Sound s) (hcreated : s.sentCreated = true) (p : Part)
    {delta : String} (hdelta : delta ≠ "") :
    Emission codec s (p.append s delta).2 (p.append s delta).1 ((p.item s).done = true) := by
  have hstart := start_emission codec hs hcreated p
  obtain ⟨hstarted, hdone⟩ := start_item s p
  have hrest := delta_emission codec hstart.sound hstart.created hstarted hdelta rfl
  rw [hdone] at hrest
  exact (hstart.append hrest).iff (iff_of_eq (false_or _))

theorem doneEvent_eq (s : StreamState) (p : Part) (r : Reader) :
    (∃ payload, readEvent codec r (p.doneEvent s) = r.readPart (p.item s).outputIndex payload ∧
      ∀ text ∈ payload, text = (p.item s).text) ∧ eventWeight (p.doneEvent s) = 1 := by
  cases p with
  | message => exact ⟨⟨none, rfl, nofun⟩, rfl⟩
  | reasoning => exact ⟨⟨some s.reasoning.text, rfl, fun t ht => (Option.some.inj ht).symm⟩, rfl⟩

theorem output_carries (s : StreamState) (p : Part) (status : ResponseStatus) :
    Carries codec (p.output s status) (p.item s).text := by
  cases p <;> exact rfl

/-- An item ends. -/
theorem close_emission (hs : Sound s) (hcreated : s.sentCreated = true) (p : Part)
    (status : ResponseStatus) :
    Emission codec s (p.close s status).2 (p.close s status).1 False := by
  by_cases h : (p.item s).started ∧ (p.item s).done = false
  · have hclose : p.close s status =
        (p.set s { p.item s with done := true },
          [p.doneEvent (p.set s { p.item s with done := true }),
            .outputItemDone (p.item s).outputIndex
              (p.output (p.set s { p.item s with done := true }) status)]) := if_pos h
    obtain ⟨hstarted, hdone⟩ := h
    rw [hclose]
    generalize hx : ({ p.item s with done := true } : TextItem) = x
    have htext : x.text = (p.item s).text := by rw [← hx]
    have hindex : x.outputIndex = (p.item s).outputIndex := by rw [← hx]
    have hplace := hs.started p hstarted
    have hitem : (reader codec s).items[(p.item s).outputIndex]? = some (textView (p.item s)) := by
      rw [reader_getElem codec hplace, view_ref]
    have hread : reader codec (p.set s x) =
        (reader codec s).put (p.item s).outputIndex (textView x) := by
      rw [reader_put codec (p.set s x) hs hplace (Part.set_outputOrder s x p)
        (Part.set_sentCreated s x p) (Part.set_finalized s x p)
        (fun r hr => view_set_of_ne codec s p x hr), view_ref, Part.item_set]
    obtain ⟨⟨payload, hevent, hpayload⟩, hweight⟩ :=
      doneEvent_eq codec (p.set s x) p (reader codec s)
    have hcarries := output_carries codec (p.set s x) p status
    rw [Part.item_set] at hevent hpayload hcarries
    rw [htext] at hcarries
    refine .of_accepted (hs.set hstarted (by rw [← hx]; exact hstarted) hindex)
      ((Part.set_sentCreated s x p).trans hcreated) ?_ ?_
    · intro e he
      rcases List.mem_cons.mp he with rfl | he
      · rw [hweight]
        exact Nat.one_pos
      · rw [List.mem_singleton.mp he]
        exact Nat.one_pos
    · have hopen := hs.open codec hcreated
      have hpart : (reader codec s).readPart (p.item s).outputIndex payload =
          some ((reader codec s).put (p.item s).outputIndex
            { textView (p.item s) with closed := true }) :=
        Reader.changeItem_eq hitem ⟨hdone, hdone, fun t ht => (hpayload t ht).trans htext⟩
      have hlast : ((reader codec s).put (p.item s).outputIndex
          { textView (p.item s) with closed := true }).readItem codec (p.item s).outputIndex
            (p.output (p.set s x) status) =
          some (((reader codec s).put (p.item s).outputIndex
            { textView (p.item s) with closed := true }).put (p.item s).outputIndex
              { textView (p.item s) with closed := true, done := true }) :=
        Reader.changeItem_eq (Reader.put_getElem hitem _) ⟨rfl, hdone, hcarries⟩
      rw [acceptAll_cons, hopen.accept, hevent, hindex, hpart, Option.bind_some, acceptAll_cons,
        (hopen.put _ _).accept]
      show ((((reader codec s).put _ _).readItem codec _ _).bind fun r => some r) = _
      rw [hlast, Option.bind_some, Reader.put_put, hread, ← hx]
      rfl
  · have hclose : p.close s status = (s, []) := if_neg h
    rw [hclose]
    exact .silent hs hcreated rfl

end MaxApi.Responses
