import MaxApi.Responses.ToolEmission

/-! # Responses: what the end of the items emits -/

namespace MaxApi.Responses

open Dto

variable (codec : ArgumentsCodec) {s : StreamState}

/-! ### Tool calls -/

/-- A tool call that has been announced ends. -/
theorem toolDone_emission (hs : Sound s) (hcreated : s.sentCreated = true) {tool : StreamTool}
    (hfind : findTool s.tools tool.chatIndex = some tool) (hannounced : tool.announced = true)
    (hdone : tool.done = false) (status : ResponseStatus) :
    Emission codec s (toolDoneEvents codec { tool with done := true } status)
      { s with tools := setTool { tool with done := true } s.tools } False := by
  generalize hnew : ({ tool with done := true } : StreamTool) = new
  have hkey : new.chatIndex = tool.chatIndex := by rw [← hnew]
  have hisDone : new.done = true := by rw [← hnew]
  have htrue : new.announced = true := by rw [← hnew]; exact hannounced
  have hopenView : openView tool = openView new := by rw [← hnew]; rfl
  obtain ⟨hplace, hname⟩ := hs.announced tool.chatIndex tool hfind hannounced
  have hnewPlace : s.outputOrder[new.outputIndex]? = some (.tool new.chatIndex) := by
    rw [← hnew]
    exact hplace
  refine .of_accepted (hs.setTool (fun _ => ⟨hnewPlace, by rw [← hnew]; exact hname⟩)
    (fun h => by rw [htrue] at h; cases h)) hcreated (toolDoneEvents_weight codec new status) ?_
  have hitem : (reader codec s).items[new.outputIndex]? = some (openView new) := by
    rw [reader_getElem codec hnewPlace, hkey, view_tool codec s hfind, toolView_open codec hdone,
      hopenView]
  have hread := reader_put codec { s with tools := setTool new s.tools } hs hnewPlace rfl rfl rfl
    (fun r hr => view_setTool_of_ne codec s new hr)
  rw [view_setTool_self codec s new, toolView_closed codec hisDone] at hread
  rw [accept_toolDoneEvents codec (hs.open codec hcreated) status hitem, hread]

theorem toolDoneEvents_ne_nil (tool : StreamTool) (status : ResponseStatus) :
    toolDoneEvents codec tool status ≠ [] := by
  unfold toolDoneEvents
  exact List.append_ne_nil_of_right_ne_nil _ (List.cons_ne_nil _ _)

/-- What the end of a tool call leaves alone. -/
structure Frame (s s' : StreamState) : Prop where
  parts : ∀ p : Part, p.item s' = p.item s
  outputOrder : s'.outputOrder = s.outputOrder
  status : s'.status = s.status
  incompleteDetails : s'.incompleteDetails = s.incompleteDetails
  usage : s'.usage = s.usage

theorem Frame.refl (s : StreamState) : Frame s s := ⟨fun _ => rfl, rfl, rfl, rfl, rfl⟩

theorem Frame.trans {s s' s'' : StreamState} (h : Frame s s') (h' : Frame s' s'') :
    Frame s s'' where
  parts := fun p => (h'.parts p).trans (h.parts p)
  outputOrder := h'.outputOrder.trans h.outputOrder
  status := h'.status.trans h.status
  incompleteDetails := h'.incompleteDetails.trans h.incompleteDetails
  usage := h'.usage.trans h.usage

/-- A tool call that is done. -/
def ended (tool : StreamTool) : StreamTool := { tool with done := true }

/-- The end of a tool call: what it emits, and what it leaves. -/
structure ToolClosing (s : StreamState) (tool : StreamTool)
    (result : StreamState × List ResponsesStreamEvent) : Prop where
  emission : Emission codec s result.2 result.1 False
  frame : Frame s result.1
  tools : ∀ k, findTool result.1.tools k =
    if tool.chatIndex = k then some (ended tool) else findTool s.tools k
  shows : result.2 ≠ [] ↔ tool.announced = true ∧ tool.done = false

theorem closeTool_closing (hs : Sound s) (hcreated : s.sentCreated = true) {tool : StreamTool}
    (hfind : findTool s.tools tool.chatIndex = some tool) (status : ResponseStatus) :
    ToolClosing codec s tool (closeTool codec status s tool) := by
  have hset : ∀ k, findTool (setTool (ended tool) s.tools) k =
      if tool.chatIndex = k then some (ended tool) else findTool s.tools k :=
    fun k => findTool_setTool (ended tool) k s.tools
  have hframe : Frame s { s with tools := setTool (ended tool) s.tools } :=
    ⟨fun p => by cases p <;> rfl, rfl, rfl, rfl, rfl⟩
  unfold closeTool
  by_cases hdone : tool.done = true
  · rw [if_pos hdone]
    refine ⟨.silent hs hcreated rfl, Frame.refl s, fun k => ?_, ?_⟩
    · have hended : ended tool = tool := by
        unfold ended
        rw [← hdone]
      rw [hended]
      by_cases hk : tool.chatIndex = k
      · rw [if_pos hk, ← hk, hfind]
      · rw [if_neg hk]
    · exact ⟨fun h => absurd rfl h, fun h => absurd (h.2.symm.trans hdone) Bool.false_ne_true⟩
  rw [if_neg hdone]
  rw [Bool.not_eq_true] at hdone
  dsimp only
  by_cases hannounced : tool.announced = true
  · rw [if_pos hannounced]
    refine ⟨?_, hframe, hset, ?_⟩
    · exact toolDone_emission codec hs hcreated hfind hannounced hdone status
    · exact ⟨fun _ => ⟨hannounced, hdone⟩, fun _ => toolDoneEvents_ne_nil codec _ status⟩
  · have hfalse : tool.announced = false := Bool.not_eq_true _ ▸ hannounced
    have hname := hs.nameless tool.chatIndex tool hfind hfalse
    rw [if_neg hannounced, if_pos hname]
    refine ⟨?_, hframe, hset, ?_⟩
    · have hnew : .tool tool.chatIndex ∉ s.outputOrder := by
        refine hs.unlisted fun t ht => ?_
        rw [hfind] at ht
        cases ht
        exact hfalse
      exact buffer_emission codec hs hcreated hnew hfalse hname
    · exact ⟨fun h => absurd rfl h, fun h => absurd h.1 hannounced⟩

/-- The end of all tool calls of a list. -/
structure ToolsClosing (s : StreamState) (tools : List StreamTool)
    (result : StreamState × List ResponsesStreamEvent) : Prop where
  emission : Emission codec s result.2 result.1 False
  frame : Frame s result.1
  others : ∀ k, (∀ tool ∈ tools, tool.chatIndex ≠ k) →
    findTool result.1.tools k = findTool s.tools k
  closed : ∀ tool ∈ tools, findTool result.1.tools tool.chatIndex = some (ended tool)
  shows : result.2 ≠ [] ↔ ∃ tool ∈ tools, tool.announced = true ∧ tool.done = false

theorem append_ne_nil {α : Type} {as bs : List α} : as ++ bs ≠ [] ↔ as ≠ [] ∨ bs ≠ [] := by
  cases as <;> simp

theorem closeTools_closing (status : ResponseStatus) :
    ∀ (tools : List StreamTool) {s : StreamState}, Sound s → s.sentCreated = true →
      Sorted tools → (∀ tool ∈ tools, findTool s.tools tool.chatIndex = some tool) →
      ToolsClosing codec s tools (closeTools codec status s tools)
  | [], s, hs, hcreated, _, _ =>
      ⟨.silent hs hcreated rfl, Frame.refl s, fun _ _ => rfl, fun _ h => absurd h List.not_mem_nil,
        ⟨fun h => absurd rfl h, fun ⟨_, h, _⟩ => absurd h List.not_mem_nil⟩⟩
  | tool :: tools, s, hs, hcreated, hsorted, hfind => by
      obtain ⟨hlt, htail⟩ := List.pairwise_cons.mp hsorted
      have hfirst := closeTool_closing codec hs hcreated (hfind tool List.mem_cons_self) status
      have hrest := closeTools_closing status tools hfirst.emission.sound hfirst.emission.created
        htail (fun t ht => by
          have := hlt t ht
          rw [hfirst.tools, if_neg (by omega)]
          exact hfind t (List.mem_cons_of_mem tool ht))
      refine ⟨hfirst.emission.append_timely hrest.emission, hfirst.frame.trans hrest.frame, ?_, ?_,
        ?_⟩
      · intro k hk
        have htool := hk tool List.mem_cons_self
        refine (hrest.others k fun t ht => hk t (List.mem_cons_of_mem tool ht)).trans ?_
        rw [hfirst.tools, if_neg htool]
      · intro t ht
        rcases List.mem_cons.mp ht with rfl | ht
        · refine (hrest.others t.chatIndex fun u hu => ?_).trans ?_
          · have := hlt u hu
            omega
          · rw [hfirst.tools, if_pos rfl]
        · exact hrest.closed t ht
      · refine append_ne_nil.trans ((or_congr hfirst.shows hrest.shows).trans ?_)
        simp only [List.mem_cons, exists_eq_or_imp]

/-! ### All items -/

section close

variable (s : StreamState) (p : Part) (status : ResponseStatus)

theorem close_item (q : Part) :
    (q.item (p.close s status).1).started = (q.item s).started ∧
      (q.item (p.close s status).1).text = (q.item s).text ∧
      (q = p → (q.item s).started = true → (q.item (p.close s status).1).done = true) ∧
      (q ≠ p → (q.item (p.close s status).1).done = (q.item s).done) := by
  unfold Part.close
  dsimp only
  by_cases h : (p.item s).started ∧ (p.item s).done = false
  · rw [if_pos h]
    dsimp only
    by_cases hqp : q = p
    · rw [hqp, Part.item_set]
      exact ⟨rfl, rfl, fun _ _ => rfl, fun hne => absurd rfl hne⟩
    · rw [Part.item_set_of_ne _ _ p hqp]
      exact ⟨rfl, rfl, fun heq => absurd heq hqp, fun _ => rfl⟩
  · rw [if_neg h]
    refine ⟨rfl, rfl, fun heq hstarted => ?_, fun _ => rfl⟩
    rw [heq] at hstarted ⊢
    by_contra hdone
    exact h ⟨hstarted, Bool.not_eq_true _ ▸ hdone⟩

theorem close_tools : (p.close s status).1.tools = s.tools := by
  unfold Part.close
  dsimp only
  split_ifs
  · exact Part.set_tools s _ p
  · rfl

theorem close_status : (p.close s status).1.status = s.status ∧
    (p.close s status).1.incompleteDetails = s.incompleteDetails ∧
      (p.close s status).1.outputOrder = s.outputOrder ∧ (p.close s status).1.usage = s.usage := by
  unfold Part.close
  dsimp only
  split_ifs
  · exact ⟨Part.set_status s _ p, Part.set_incompleteDetails s _ p, Part.set_outputOrder s _ p,
      Part.set_usage s _ p⟩
  · exact ⟨rfl, rfl, rfl, rfl⟩

theorem close_shows : (p.close s status).2 ≠ [] ↔
    (p.item s).started = true ∧ (p.item s).done = false := by
  unfold Part.close
  dsimp only
  by_cases h : (p.item s).started ∧ (p.item s).done = false
  · rw [if_pos h]
    exact ⟨fun _ => h, fun _ => List.cons_ne_nil _ _⟩
  · rw [if_neg h]
    exact ⟨fun hne => absurd rfl hne, fun hc => absurd hc h⟩

end close

/-- The state with another status: nothing that a reader sees. -/
def relabel (s : StreamState) (status : ResponseStatus) (details : Option String) : StreamState :=
  { s with status := status, incompleteDetails := details }

theorem item_relabel (s : StreamState) (status : ResponseStatus) (details : Option String)
    (p : Part) : p.item (relabel s status details) = p.item s := by cases p <;> rfl

theorem relabel_emission (hs : Sound s) (hcreated : s.sentCreated = true) (status : ResponseStatus)
    (details : Option String) : Emission codec s [] (relabel s status details) False := by
  refine .silent (hs.congr (item_relabel s status details) rfl rfl rfl rfl) hcreated ?_
  refine reader_congr codec (relabel s status details) rfl rfl rfl fun ref _ => ?_
  cases ref <;> rfl

theorem markNameless_eq (s : StreamState) :
    ∃ status details, markNameless s = relabel s status details := by
  unfold markNameless StreamState.markIncomplete
  split_ifs
  · exact ⟨s.status, s.incompleteDetails, rfl⟩
  · exact ⟨_, _, rfl⟩
  · exact ⟨s.status, s.incompleteDetails, rfl⟩

/-- The end of all items: what it emits, and what it leaves. -/
structure Closing (s : StreamState) (result : StreamState × List ResponsesStreamEvent) : Prop where
  emission : Emission codec s result.2 result.1 False
  started : ∀ p : Part, (p.item result.1).started = (p.item s).started
  text : ∀ p : Part, (p.item result.1).text = (p.item s).text
  done : ∀ p : Part, (p.item s).started = true → (p.item result.1).done = true
  tools : ∀ k, findTool result.1.tools k = (findTool s.tools k).map ended
  outputOrder : result.1.outputOrder = s.outputOrder
  status : result.1.status = (markNameless s).status
  incompleteDetails : result.1.incompleteDetails = (markNameless s).incompleteDetails
  usage : result.1.usage = s.usage
  shows : result.2 ≠ [] ↔ (∃ p : Part, (p.item s).started = true ∧ (p.item s).done = false) ∨
    ∃ tool ∈ s.tools, tool.announced = true ∧ tool.done = false

theorem doneDeltaEvents_closing (hs : Sound s) (hcreated : s.sentCreated = true) :
    Closing codec s (doneDeltaEvents codec s) := by
  obtain ⟨status₀, details, hmark⟩ := markNameless_eq s
  unfold doneDeltaEvents
  dsimp only
  rw [hmark]
  have hstart := relabel_emission codec hs hcreated status₀ details
  have hitems₀ := item_relabel s status₀ details
  have htools₀ : (relabel s status₀ details).tools = s.tools := rfl
  have horder₀ : (relabel s status₀ details).outputOrder = s.outputOrder := rfl
  have husage₀ : (relabel s status₀ details).usage = s.usage := rfl
  generalize relabel s status₀ details = s₀ at *
  generalize outputStatus s₀.status = status
  have htext := close_emission codec hstart.sound hstart.created .message status
  have htextItem := close_item s₀ .message status
  have htextTools := close_tools s₀ .message status
  have htextStatus := close_status s₀ .message status
  have htextShows := close_shows s₀ .message status
  generalize Part.message.close s₀ status = text at *
  have hreasoning := close_emission codec htext.sound htext.created .reasoning status
  have hreasoningItem := close_item text.1 .reasoning status
  have hreasoningTools := close_tools text.1 .reasoning status
  have hreasoningStatus := close_status text.1 .reasoning status
  have hreasoningShows := close_shows text.1 .reasoning status
  generalize Part.reasoning.close text.1 status = reasoning at *
  have hclosing := closeTools_closing codec status reasoning.1.tools hreasoning.sound
    hreasoning.created hreasoning.sound.sorted (fun tool h => hreasoning.sound.sorted.findTool h)
  generalize closeTools codec status reasoning.1 reasoning.1.tools = tools at *
  have htools : reasoning.1.tools = s.tools := hreasoningTools.trans (htextTools.trans htools₀)
  have hreason₀ : (Part.reasoning.item text.1).done = (Part.reasoning.item s₀).done :=
    (htextItem .reasoning).2.2.2 (by decide)
  refine
    { emission :=
        ((hstart.append_timely htext).append_timely hreasoning).append_timely hclosing.emission
      started := fun p => ?_
      text := fun p => ?_
      done := fun p hp => ?_
      tools := fun k => ?_
      outputOrder := ?_
      status := ?_
      incompleteDetails := ?_
      usage := ?_
      shows := ?_ }
  · rw [hclosing.frame.parts p, (hreasoningItem p).1, (htextItem p).1, hitems₀]
  · rw [hclosing.frame.parts p, (hreasoningItem p).2.1, (htextItem p).2.1, hitems₀]
  · rw [hclosing.frame.parts p]
    rw [← hitems₀] at hp
    cases p with
    | message =>
        rw [(hreasoningItem .message).2.2.2 (by decide)]
        exact (htextItem .message).2.2.1 rfl hp
    | reasoning =>
        rw [← (htextItem .reasoning).1] at hp
        exact (hreasoningItem .reasoning).2.2.1 rfl hp
  · by_cases hk : ∃ t ∈ reasoning.1.tools, t.chatIndex = k
    · obtain ⟨t, ht, rfl⟩ := hk
      rw [hclosing.closed t ht, ← htools, hreasoning.sound.sorted.findTool ht]
      rfl
    · rw [hclosing.others k fun t ht htk => hk ⟨t, ht, htk⟩, htools]
      cases hfind : findTool s.tools k with
      | none => rfl
      | some tool =>
          rw [htools] at hk
          exact absurd ⟨tool, findTool_some hfind⟩ hk
  · rw [hclosing.frame.outputOrder, hreasoningStatus.2.2.1, htextStatus.2.2.1, horder₀]
  · rw [hmark, hclosing.frame.status, hreasoningStatus.1, htextStatus.1]
  · rw [hmark, hclosing.frame.incompleteDetails, hreasoningStatus.2.1, htextStatus.2.1]
  · rw [hclosing.frame.usage, hreasoningStatus.2.2.2, htextStatus.2.2.2, husage₀]
  · refine append_ne_nil.trans (or_congr (append_ne_nil.trans ?_) ?_)
    · rw [htextShows, hreasoningShows, (htextItem .reasoning).1, hreason₀, hitems₀, hitems₀]
      constructor
      · rintro (h | h)
        · exact ⟨.message, h⟩
        · exact ⟨.reasoning, h⟩
      · intro ⟨p, h⟩
        cases p with
        | message => exact .inl h
        | reasoning => exact .inr h
    · rw [hclosing.shows, htools]

/-- All tool calls are done. -/
theorem Closing.tools_done {result : StreamState × List ResponsesStreamEvent}
    (h : Closing codec s result) {k : ℤ} {tool : StreamTool}
    (hfind : findTool result.1.tools k = some tool) : tool.done = true := by
  rw [h.tools] at hfind
  obtain ⟨old, -, rfl⟩ := Option.map_eq_some_iff.mp hfind
  rfl

end MaxApi.Responses
