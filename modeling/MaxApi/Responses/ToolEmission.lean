import MaxApi.Responses.Emission

/-! # Responses: what the operations on tool calls emit -/

namespace MaxApi.Responses

open Dto

/-! ### The events of a tool call -/

namespace Reader

variable {r : Reader}

theorem put_self {i : ℕ} {v : ItemView} (h : r.items[i]? = some v) : r.put i v = r := by
  obtain ⟨hi, hv⟩ := List.getElem?_eq_some_iff.mp h
  unfold put
  rw [← hv, List.set_getElem_self hi]

end Reader

section events

variable (codec : ArgumentsCodec) {r : Reader}

/-- What is shown of a tool call that is not done. -/
def openView (tool : StreamTool) : ItemView :=
  ⟨if tool.custom then "" else tool.arguments, false, false⟩

/-- What is shown of a tool call that is done. -/
def closedView (tool : StreamTool) : ItemView :=
  ⟨if tool.custom then customToolInputFromArguments codec tool.arguments else tool.arguments,
    true, true⟩

theorem toolView_open {tool : StreamTool} (h : tool.done = false) :
    toolView codec tool = openView tool := by
  unfold toolView openView
  rw [h]
  rfl

theorem toolView_closed {tool : StreamTool} (h : tool.done = true) :
    toolView codec tool = closedView codec tool := by
  unfold toolView closedView
  rw [h]
  rfl

/-- The arguments that a tool call shows are read. -/
theorem accept_argumentsEvents (hr : r.Open) {tool : StreamTool} {shown : String} (delta : String)
    (hannounced : tool.announced = true)
    (h : r.items[tool.outputIndex]? = some ⟨shown, false, false⟩) :
    acceptAll codec r (argumentsEvents tool delta) =
      some (r.put tool.outputIndex
        ⟨if tool.custom then shown else shown ++ delta, false, false⟩) := by
  unfold argumentsEvents
  cases hcustom : tool.custom with
  | true =>
      rw [if_neg (fun hc => Bool.false_ne_true hc.2.1.symm), if_pos rfl, Reader.put_self h]
      rfl
  | false =>
      rw [if_neg Bool.false_ne_true]
      by_cases hdelta : delta = ""
      · rw [if_neg (fun hc => hc.2.2 hdelta), hdelta, String.append_empty, Reader.put_self h]
        rfl
      · rw [if_pos ⟨hannounced, rfl, hdelta⟩, acceptAll_cons, hr.accept]
        show ((r.readDelta tool.outputIndex delta).bind fun r => some r) = _
        unfold Reader.readDelta
        rw [Reader.changeItem_eq h ⟨rfl, rfl⟩]
        rfl

theorem argumentsEvents_weight (tool : StreamTool) (delta : String) :
    ∀ e ∈ argumentsEvents tool delta, 0 < eventWeight e := by
  intro e he
  unfold argumentsEvents at he
  split_ifs at he with h
  · rw [List.mem_singleton.mp he]
    exact string_length_pos h.2.2
  · cases he

theorem toolOutput_carries (tool : StreamTool) (status : ResponseStatus) :
    Carries codec (toolOutput codec tool status) (closedView codec tool).deltas := by
  unfold toolOutput closedView
  cases tool.custom <;> exact rfl

/-- The end of a part and of its item. -/
theorem accept_part_item (hr : r.Open) (partDone : ResponsesStreamEvent) {i : ℕ} {text : String}
    {item : ResponsesOutput}
    (hpart : ∀ r : Reader, readEvent codec r partDone = r.readPart i (some text))
    (hitem : Carries codec item text) (h : r.items[i]? = some ⟨text, false, false⟩) :
    acceptAll codec r [partDone, .outputItemDone i item] = some (r.put i ⟨text, true, true⟩) := by
  have hfirst : r.readPart i (some text) = some (r.put i ⟨text, true, false⟩) :=
    Reader.changeItem_eq h ⟨rfl, rfl, fun t ht => (Option.some.inj ht).symm⟩
  have hlast : (r.put i ⟨text, true, false⟩).readItem codec i item =
      some ((r.put i ⟨text, true, false⟩).put i ⟨text, true, true⟩) :=
    Reader.changeItem_eq (Reader.put_getElem h _) ⟨rfl, rfl, hitem⟩
  rw [acceptAll_cons, hr.accept, hpart, hfirst, Option.bind_some, acceptAll_cons,
    (hr.put _ _).accept]
  show (((r.put i _).readItem codec i item).bind fun r => some r) = _
  rw [hlast, Option.bind_some, Reader.put_put]

/-- The end of a tool call is read. -/
theorem accept_toolDoneEvents (hr : r.Open) {tool : StreamTool} (status : ResponseStatus)
    (h : r.items[tool.outputIndex]? = some (openView tool)) :
    acceptAll codec r (toolDoneEvents codec tool status) =
      some (r.put tool.outputIndex (closedView codec tool)) := by
  have hcarries := toolOutput_carries codec tool status
  unfold toolDoneEvents
  unfold openView at h
  unfold closedView at hcarries ⊢
  cases hcustom : tool.custom with
  | false =>
      rw [hcustom] at h hcarries
      exact accept_part_item codec hr _ (fun _ => rfl) hcarries h
  | true =>
      rw [hcustom] at h hcarries
      dsimp only [if_pos] at h hcarries ⊢
      generalize customToolInputFromArguments codec tool.arguments = input at hcarries ⊢
      by_cases hinput : input = ""
      · rw [hinput] at hcarries ⊢
        exact accept_part_item codec hr _ (fun _ => rfl) hcarries h
      · have hdelta : r.readDelta tool.outputIndex input =
            some (r.put tool.outputIndex ⟨"" ++ input, false, false⟩) :=
          Reader.changeItem_eq h ⟨rfl, rfl⟩
        rw [String.empty_append] at hdelta
        have hrest := accept_part_item codec (hr.put tool.outputIndex ⟨input, false, false⟩)
          (.customInputDone tool.outputIndex tool.id input) (fun _ => rfl) hcarries
          (Reader.put_getElem h _)
        rw [Reader.put_put] at hrest
        rw [if_pos rfl, if_pos hinput, if_pos rfl]
        show acceptAll codec r (.customInputDelta tool.outputIndex tool.id input :: _) = _
        rw [acceptAll_cons, hr.accept]
        show ((r.readDelta tool.outputIndex input).bind _) = _
        rw [hdelta, Option.bind_some]
        exact hrest

theorem toolDoneEvents_weight (tool : StreamTool) (status : ResponseStatus) :
    ∀ e ∈ toolDoneEvents codec tool status, 0 < eventWeight e := by
  intro e he
  unfold toolDoneEvents at he
  dsimp only at he
  rcases List.mem_append.mp he with he | he
  · split_ifs at he with hcustom hinput
    · rcases List.mem_append.mp he with he | he
      · rw [List.mem_singleton.mp he]
        exact string_length_pos hinput
      · rw [List.mem_singleton.mp he]
        exact Nat.one_pos
    · rw [List.mem_singleton.mp he]
      exact Nat.one_pos
    · rw [List.mem_singleton.mp he]
      exact Nat.one_pos
  · rw [List.mem_singleton.mp he]
    exact Nat.one_pos

end events

/-! ### A delta of a tool call -/

section delta

variable (codec : ArgumentsCodec) {s : StreamState}

/-- The tool call that a delta belongs to, before the delta. -/
def oldTool (s : StreamState) (toolCall : ToolCallResponse) : StreamTool :=
  (findTool s.tools (toolCall.index.getD 0)).getD
    ⟨toolCall.index.getD 0, 0,
      if Text.trimSpace toolCall.id = "" then callID s.id (toolCall.index.getD 0)
      else Text.trimSpace toolCall.id,
      Text.trimSpace toolCall.function.name, "", false, false, false⟩

/-- The tool call with the id and the name that the delta gives. -/
def renamed (tool : StreamTool) (toolCall : ToolCallResponse) : StreamTool :=
  { tool with
    id := if Text.trimSpace toolCall.id ≠ "" then Text.trimSpace toolCall.id else tool.id
    name :=
      if Text.trimSpace toolCall.function.name ≠ "" then Text.trimSpace toolCall.function.name
      else tool.name }

/-- The id or the name is given anew. -/
def Renames (tool : StreamTool) (toolCall : ToolCallResponse) : Prop :=
  (Text.trimSpace toolCall.id ≠ "" ∧ tool.id ≠ Text.trimSpace toolCall.id) ∨
    (Text.trimSpace toolCall.function.name ≠ "" ∧
      tool.name ≠ Text.trimSpace toolCall.function.name)

/-- What `mergeToolCall` makes of the tool call. -/
def mergeInto (tool : StreamTool) (toolCall : ToolCallResponse) : Except String StreamTool :=
  let chatIndex := toolCall.index.getD 0
  let id := Text.trimSpace toolCall.id
  let name := Text.trimSpace toolCall.function.name
  if id ≠ "" ∧ tool.announced ∧ tool.id ≠ id then
    .error ("tool-call index " ++ toString chatIndex ++ " changed id after announcement")
  else
    let tool := if id ≠ "" then { tool with id := id } else tool
    if name ≠ "" ∧ tool.announced ∧ tool.name ≠ name then
      .error ("tool-call index " ++ toString chatIndex ++ " changed name after announcement")
    else .ok (if name ≠ "" then { tool with name := name } else tool)

theorem mergeToolCall_eq (s : StreamState) (toolCall : ToolCallResponse) :
    mergeToolCall s toolCall = mergeInto (oldTool s toolCall) toolCall := rfl

theorem mergeInto_error {tool : StreamTool} {toolCall : ToolCallResponse}
    (hannounced : tool.announced = true) (h : Renames tool toolCall) :
    ∃ e, mergeInto tool toolCall = .error e := by
  unfold mergeInto
  dsimp only
  by_cases hid : Text.trimSpace toolCall.id ≠ "" ∧ tool.announced ∧
      tool.id ≠ Text.trimSpace toolCall.id
  · rw [if_pos hid]
    exact ⟨_, rfl⟩
  · rw [if_neg hid]
    obtain hid' | ⟨hname, hne⟩ := h
    · exact absurd ⟨hid'.1, hannounced, hid'.2⟩ hid
    · by_cases hempty : Text.trimSpace toolCall.id ≠ ""
      · rw [if_pos hempty, if_pos ⟨hname, hannounced, hne⟩]
        exact ⟨_, rfl⟩
      · rw [if_neg hempty, if_pos ⟨hname, hannounced, hne⟩]
        exact ⟨_, rfl⟩

theorem mergeInto_ok {tool : StreamTool} {toolCall : ToolCallResponse}
    (h : ¬(tool.announced = true ∧ Renames tool toolCall)) :
    mergeInto tool toolCall = .ok (renamed tool toolCall) := by
  unfold mergeInto renamed
  dsimp only
  rw [if_neg fun hid => h ⟨hid.2.1, .inl ⟨hid.1, hid.2.2⟩⟩]
  by_cases hempty : Text.trimSpace toolCall.id ≠ ""
  · rw [if_pos hempty, if_pos hempty, if_neg fun hname => h ⟨hname.2.1, .inr ⟨hname.1, hname.2.2⟩⟩]
    by_cases hname : Text.trimSpace toolCall.function.name ≠ ""
    · rw [if_pos hname, if_pos hname]
    · rw [if_neg hname, if_neg hname]
  · rw [if_neg hempty, if_neg hempty, if_neg fun hname => h ⟨hname.2.1, .inr ⟨hname.1, hname.2.2⟩⟩]
    by_cases hname : Text.trimSpace toolCall.function.name ≠ ""
    · rw [if_pos hname, if_pos hname]
    · rw [if_neg hname, if_neg hname]

theorem oldTool_found {toolCall : ToolCallResponse} {tool : StreamTool}
    (h : findTool s.tools (toolCall.index.getD 0) = some tool) : oldTool s toolCall = tool := by
  unfold oldTool
  rw [h]
  rfl

theorem oldTool_chatIndex (s : StreamState) (toolCall : ToolCallResponse) :
    (oldTool s toolCall).chatIndex = toolCall.index.getD 0 := by
  unfold oldTool
  cases h : findTool s.tools (toolCall.index.getD 0) with
  | none => rfl
  | some tool => exact (findTool_some h).2

/-- Only a tool call that is there can have been announced. -/
theorem oldTool_announced {toolCall : ToolCallResponse}
    (h : (oldTool s toolCall).announced = true) :
    findTool s.tools (toolCall.index.getD 0) = some (oldTool s toolCall) := by
  cases hfind : findTool s.tools (toolCall.index.getD 0) with
  | some tool => rw [oldTool_found hfind]
  | none =>
      unfold oldTool at h
      rw [hfind] at h
      cases h

/-- The tool call is announced, with the arguments that it has. -/
theorem announce_emission (hs : Sound s) (hcreated : s.sentCreated = true) {tool : StreamTool}
    (hnew : .tool tool.chatIndex ∉ s.outputOrder) (hname : tool.name ≠ "")
    (hdone : tool.done = false) :
    Emission codec s
      ((announceTool codec s tool).2.2 ++
        argumentsEvents (announceTool codec s tool).2.1 tool.arguments)
      { (announceTool codec s tool).1 with
        tools := setTool (announceTool codec s tool).2.1 s.tools } False := by
  unfold announceTool
  dsimp only
  generalize hannounced : ({ tool with
    announced := true
    custom := decide (tool.name ∈ s.customToolNames)
    outputIndex := s.nextOutputIndex } : StreamTool) = shown
  have hindex : shown.outputIndex = s.nextOutputIndex := by rw [← hannounced]
  have hkey : shown.chatIndex = tool.chatIndex := by rw [← hannounced]
  have harguments : shown.arguments = tool.arguments := by rw [← hannounced]
  have hisDone : shown.done = false := by rw [← hannounced]; exact hdone
  have htrue : shown.announced = true := by rw [← hannounced]
  have hopen := hs.open codec hcreated
  have hlength : s.nextOutputIndex = (reader codec s).items.length := by
    unfold reader
    rw [List.length_map, hs.next]
  rw [← hkey] at hnew ⊢
  refine .of_accepted (hs.announce hnew (by rw [← hannounced]; exact hname) htrue hindex)
    hcreated ?_ ?_
  · intro e he
    rcases List.mem_append.mp he with he | he
    · rw [List.mem_singleton.mp he]
      exact Nat.one_pos
    · exact argumentsEvents_weight shown tool.arguments e he
  · have hread : reader codec
        { s.takeIndex (.tool shown.chatIndex) with tools := setTool shown s.tools } =
          (reader codec s).add (openView shown) := by
      refine (reader_add codec { s.takeIndex (.tool shown.chatIndex) with
        tools := setTool shown s.tools } hnew rfl rfl rfl fun r hr => ?_).trans (congrArg _ ?_)
      · exact view_setTool_of_ne codec (s.takeIndex (.tool shown.chatIndex)) shown hr
      · exact (view_setTool_self codec (s.takeIndex (.tool shown.chatIndex)) shown).trans
          (toolView_open codec hisDone)
    have harg := accept_argumentsEvents codec (hopen.add ⟨"", false, false⟩) tool.arguments htrue
      (by rw [hindex, hlength]; exact Reader.add_getElem _)
    rw [hindex, hlength, Reader.add_put] at harg
    rw [acceptAll_append, hlength, acceptAll_cons, hopen.accept_added, Option.bind_some,
      acceptAll_nil, Option.bind_some, harg]
    refine congrArg some (Eq.trans ?_ hread.symm)
    unfold openView
    rw [harguments]
    cases shown.custom with
    | true => rfl
    | false =>
        rw [if_neg Bool.false_ne_true, if_neg Bool.false_ne_true, String.empty_append]

/-- `new` is `tool` with further arguments, and perhaps another id and name. -/
structure Continues (tool new : StreamTool) (delta : String) : Prop where
  chatIndex : new.chatIndex = tool.chatIndex
  outputIndex : new.outputIndex = tool.outputIndex
  announced : new.announced = tool.announced
  done : new.done = tool.done
  custom : new.custom = tool.custom
  arguments : new.arguments = tool.arguments ++ delta

/-- Arguments of a tool call that has been announced. -/
theorem update_emission (hs : Sound s) (hcreated : s.sentCreated = true)
    {tool new : StreamTool} {delta : String}
    (hfind : findTool s.tools tool.chatIndex = some tool) (hannounced : tool.announced = true)
    (hdone : tool.done = false) (hname : new.name = tool.name) (hnew : Continues tool new delta) :
    Emission codec s (argumentsEvents new delta)
      { s with tools := setTool new s.tools } False := by
  have htrue : new.announced = true := hnew.announced.trans hannounced
  obtain ⟨hplace, hnamed⟩ := hs.announced tool.chatIndex tool hfind hannounced
  rw [← hnew.chatIndex, ← hnew.outputIndex] at hplace
  refine .of_accepted (hs.setTool (fun _ => ⟨hplace, by rw [hname]; exact hnamed⟩)
    (fun h => by rw [htrue] at h; cases h)) hcreated (argumentsEvents_weight new delta) ?_
  have hitem : (reader codec s).items[new.outputIndex]? = some (openView tool) := by
    rw [reader_getElem codec hplace, hnew.chatIndex, view_tool codec s hfind,
      toolView_open codec hdone]
  have hread := reader_put codec { s with tools := setTool new s.tools } hs hplace rfl rfl rfl
    (fun r hr => view_setTool_of_ne codec s new hr)
  rw [view_setTool_self codec s new, toolView_open codec (hnew.done.trans hdone)] at hread
  rw [accept_argumentsEvents codec (hs.open codec hcreated) delta htrue hitem, hread]
  unfold openView
  rw [hnew.custom, hnew.arguments]
  cases tool.custom <;> rfl

/-- Arguments of a tool call without a name are kept. -/
theorem buffer_emission (hs : Sound s) (hcreated : s.sentCreated = true) {tool : StreamTool}
    (hnew : .tool tool.chatIndex ∉ s.outputOrder) (hannounced : tool.announced = false)
    (hname : tool.name = "") :
    Emission codec s [] { s with tools := setTool tool s.tools } False := by
  refine .silent (hs.setTool (fun h => by rw [hannounced] at h; cases h) fun _ => ⟨hname, hnew⟩)
    hcreated ?_
  exact reader_congr codec { s with tools := setTool tool s.tools } rfl rfl rfl
    fun r hr => view_setTool_of_ne codec s tool fun h => hnew (h ▸ hr)

theorem oldTool_done {toolCall : ToolCallResponse}
    (h : ¬(findTool s.tools (toolCall.index.getD 0)).any (·.done) = true) :
    (oldTool s toolCall).done = false := by
  cases hfind : findTool s.tools (toolCall.index.getD 0) with
  | none =>
      unfold oldTool
      rw [hfind]
      rfl
  | some tool =>
      rw [hfind, Option.any_some, Bool.not_eq_true] at h
      rw [oldTool_found hfind, h]

theorem appendToolCallDelta_error {toolCall : ToolCallResponse}
    (h : Clash s (.toolCall toolCall)) : ∃ e, appendToolCallDelta codec s toolCall = .error e := by
  obtain ⟨tool, hfind, hdone, hannounced, hrenames⟩ := h
  obtain ⟨e, he⟩ := mergeInto_error hannounced hrenames
  refine ⟨e, ?_⟩
  unfold appendToolCallDelta
  rw [hfind, Option.any_some, hdone, if_neg Bool.false_ne_true, mergeToolCall_eq,
    oldTool_found hfind, he]

/-- What is shown of a delta, in terms of the tool call before it. -/
theorem shows_toolCall {toolCall : ToolCallResponse}
    (h : ¬(findTool s.tools (toolCall.index.getD 0)).any (·.done) = true) :
    Shows s (.toolCall toolCall) ↔
      if (oldTool s toolCall).announced then
        (oldTool s toolCall).custom = false ∧ toolCall.function.arguments ≠ ""
      else Text.trimSpace toolCall.function.name ≠ "" := by
  unfold Shows
  dsimp only
  cases hfind : findTool s.tools (toolCall.index.getD 0) with
  | none =>
      unfold oldTool
      rw [hfind]
      rfl
  | some tool =>
      rw [hfind, Option.any_some, Bool.not_eq_true] at h
      rw [oldTool_found hfind]
      exact ⟨fun hshows => hshows.2, fun hshows => ⟨h, hshows⟩⟩

theorem argumentsEvents_ne_nil {tool : StreamTool} (h : tool.announced = true) (delta : String) :
    argumentsEvents tool delta ≠ [] ↔ tool.custom = false ∧ delta ≠ "" := by
  unfold argumentsEvents
  by_cases hc : tool.announced = true ∧ tool.custom = false ∧ delta ≠ ""
  · rw [if_pos hc]
    exact ⟨fun _ => hc.2, fun _ => List.cons_ne_nil _ _⟩
  · rw [if_neg hc]
    exact ⟨fun hne => absurd rfl hne, fun hshows => absurd ⟨h, hshows⟩ hc⟩

/-- The tool call with what the delta gives. -/
def extended (tool : StreamTool) (toolCall : ToolCallResponse) : StreamTool :=
  { renamed tool toolCall with
    arguments := (renamed tool toolCall).arguments ++ toolCall.function.arguments }

def newTool (s : StreamState) (toolCall : ToolCallResponse) : StreamTool :=
  extended (oldTool s toolCall) toolCall

/-- A name that has been announced stays. -/
theorem extended_name {tool : StreamTool} {toolCall : ToolCallResponse}
    (h : ¬(tool.announced = true ∧ Renames tool toolCall)) (hannounced : tool.announced = true) :
    (extended tool toolCall).name = tool.name := by
  unfold extended renamed
  dsimp only
  by_cases hname : Text.trimSpace toolCall.function.name ≠ ""
  · rw [if_pos hname]
    by_contra hne
    exact h ⟨hannounced, .inr ⟨hname, fun heq => hne heq.symm⟩⟩
  · rw [if_neg hname]

theorem extended_continues (tool : StreamTool) (toolCall : ToolCallResponse) :
    Continues tool (extended tool toolCall) toolCall.function.arguments := by
  unfold extended renamed
  constructor <;> dsimp only

/-- The tool call after a delta is stored, and announced if it has a name by now. -/
def storeTool (s : StreamState) (tool : StreamTool) (delta : String) :
    StreamState × List ResponsesStreamEvent :=
  if tool.announced = false ∧ tool.name ≠ "" then
    ({ (announceTool codec s tool).1 with
        tools := setTool (announceTool codec s tool).2.1 s.tools },
      (announceTool codec s tool).2.2 ++
        argumentsEvents (announceTool codec s tool).2.1 tool.arguments)
  else ({ s with tools := setTool tool s.tools }, argumentsEvents tool delta)

theorem appendToolCallDelta_eq {toolCall : ToolCallResponse}
    (hdone : ¬(findTool s.tools (toolCall.index.getD 0)).any (·.done) = true) :
    appendToolCallDelta codec s toolCall =
      match mergeToolCall s toolCall with
      | .error e => .error e
      | .ok tool =>
          .ok (storeTool codec s
            { tool with arguments := tool.arguments ++ toolCall.function.arguments }
            toolCall.function.arguments) := by
  unfold appendToolCallDelta storeTool
  rw [if_neg hdone]
  cases mergeToolCall s toolCall with
  | error e => rfl
  | ok tool =>
      dsimp only
      by_cases h : tool.announced = false ∧ tool.name ≠ ""
      · rw [if_pos h, if_pos h]
        rfl
      · rw [if_neg h, if_neg h]

theorem appendToolCallDelta_ok {toolCall : ToolCallResponse}
    (hdone : ¬(findTool s.tools (toolCall.index.getD 0)).any (·.done) = true)
    (hmerge : ¬((oldTool s toolCall).announced = true ∧ Renames (oldTool s toolCall) toolCall)) :
    appendToolCallDelta codec s toolCall =
      .ok (storeTool codec s (newTool s toolCall) toolCall.function.arguments) := by
  rw [appendToolCallDelta_eq codec hdone, mergeToolCall_eq, mergeInto_ok hmerge, newTool, extended]

/-- What is emitted when a tool call is stored. -/
theorem storeTool_emission (hs : Sound s) (hcreated : s.sentCreated = true) {old new : StreamTool}
    {delta : String} (hnew : Continues old new delta) (hdone : old.done = false)
    (hfound : old.announced = true → findTool s.tools old.chatIndex = some old)
    (hfresh : old.announced = false → .tool old.chatIndex ∉ s.outputOrder)
    (hname : old.announced = true → new.name = old.name) :
    Emission codec s (storeTool codec s new delta).2 (storeTool codec s new delta).1 False ∧
      ((if old.announced then old.custom = false ∧ delta ≠ "" else new.name ≠ "") ↔
        (storeTool codec s new delta).2 ≠ []) := by
  unfold storeTool
  cases hannounced : old.announced with
  | true =>
      have htrue : new.announced = true := hnew.announced.trans hannounced
      rw [if_neg fun hc => Bool.false_ne_true (hc.1.symm.trans htrue), if_pos rfl]
      constructor
      · exact update_emission codec hs hcreated (hfound hannounced) hannounced hdone
          (hname hannounced) hnew
      · rw [argumentsEvents_ne_nil htrue, hnew.custom]
  | false =>
      have hfalse : new.announced = false := hnew.announced.trans hannounced
      have hunlisted : .tool new.chatIndex ∉ s.outputOrder := by
        rw [hnew.chatIndex]
        exact hfresh hannounced
      rw [if_neg Bool.false_ne_true]
      by_cases hnamed : new.name = ""
      · rw [if_neg fun hc => hc.2 hnamed]
        have hevents : argumentsEvents new delta = [] :=
          if_neg fun hc => Bool.false_ne_true (hfalse.symm.trans hc.1)
        rw [hevents]
        exact ⟨buffer_emission codec hs hcreated hunlisted hfalse hnamed,
          fun hne => absurd hnamed hne, fun hne => absurd rfl hne⟩
      · rw [if_pos ⟨hfalse, hnamed⟩]
        exact ⟨announce_emission codec hs hcreated hunlisted hnamed (hnew.done.trans hdone),
          fun _ => List.cons_ne_nil _ _, fun _ => hnamed⟩

/-- A tool call without a name has the name that the delta gives. -/
theorem newTool_name (hs : Sound s) {toolCall : ToolCallResponse}
    (h : (oldTool s toolCall).announced = false) :
    (newTool s toolCall).name = Text.trimSpace toolCall.function.name := by
  have hold : Text.trimSpace toolCall.function.name = "" → (oldTool s toolCall).name = "" := by
    intro hempty
    cases hfind : findTool s.tools (toolCall.index.getD 0) with
    | none =>
        unfold oldTool
        rw [hfind]
        exact hempty
    | some tool =>
        rw [oldTool_found hfind] at h ⊢
        exact hs.nameless _ tool hfind h
  unfold newTool extended renamed
  dsimp only
  by_cases hempty : Text.trimSpace toolCall.function.name = ""
  · rw [if_neg fun hne => hne hempty, hold hempty, hempty]
  · rw [if_pos hempty]

/-- **A delta of a tool call**, unless it clashes. -/
theorem appendToolCallDelta_emission (hs : Sound s) (hcreated : s.sentCreated = true)
    {toolCall : ToolCallResponse} (h : ¬Clash s (.toolCall toolCall)) :
    ∃ s' events, appendToolCallDelta codec s toolCall = .ok (s', events) ∧
      Emission codec s events s' False ∧ (Shows s (.toolCall toolCall) ↔ events ≠ []) := by
  by_cases hdone : (findTool s.tools (toolCall.index.getD 0)).any (·.done) = true
  · have happend : appendToolCallDelta codec s toolCall = .ok (s, []) := by
      unfold appendToolCallDelta
      rw [if_pos hdone]
    refine ⟨s, [], happend, .silent hs hcreated rfl, fun hshows => ?_, fun hne => absurd rfl hne⟩
    unfold Shows at hshows
    dsimp only at hshows
    cases hfind : findTool s.tools (toolCall.index.getD 0) with
    | none =>
        rw [hfind] at hdone
        cases hdone
    | some tool =>
        rw [hfind] at hdone hshows
        exact absurd (hshows.1.symm.trans hdone) Bool.false_ne_true
  have hnotDone := oldTool_done hdone
  have hmerge : ¬((oldTool s toolCall).announced = true ∧
      Renames (oldTool s toolCall) toolCall) := by
    intro ⟨hannounced, hrenames⟩
    apply h
    unfold Clash
    exact ⟨oldTool s toolCall, oldTool_announced hannounced, hnotDone, hannounced, hrenames⟩
  have hkey := oldTool_chatIndex s toolCall
  have hstore := storeTool_emission codec hs hcreated
    (extended_continues (oldTool s toolCall) toolCall) hnotDone
    (fun hannounced => by rw [hkey]; exact oldTool_announced hannounced)
    (fun hannounced => hs.unlisted fun tool hfind => by
      rw [hkey] at hfind
      rw [← oldTool_found hfind]
      exact hannounced)
    (extended_name hmerge)
  have hshows : Shows s (.toolCall toolCall) ↔
      if (oldTool s toolCall).announced then
        (oldTool s toolCall).custom = false ∧ toolCall.function.arguments ≠ ""
      else (extended (oldTool s toolCall) toolCall).name ≠ "" := by
    rw [shows_toolCall hdone]
    cases hannounced : (oldTool s toolCall).announced with
    | true => rw [if_pos rfl, if_pos rfl]
    | false =>
        rw [if_neg Bool.false_ne_true, if_neg Bool.false_ne_true, ← newTool_name hs hannounced,
          newTool]
  rw [appendToolCallDelta_ok codec hdone hmerge, newTool, hshows]
  generalize extended (oldTool s toolCall) toolCall = new at hstore ⊢
  generalize storeTool codec s new toolCall.function.arguments = result at hstore ⊢
  exact ⟨result.1, result.2, rfl, hstore⟩

end delta

end MaxApi.Responses
