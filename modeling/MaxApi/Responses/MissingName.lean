import MaxApi.Responses.ChunkEmission

/-! # Responses: a tool call without a name

A tool call that has ended without a name stays nameless, since the deltas of a tool call that is
done are ignored; and whoever closes the items finds it.  So the response stays incomplete, whatever
finish reasons come. -/

namespace MaxApi.Responses

open Dto

variable (codec : ArgumentsCodec) {s : StreamState}

/-- A tool call has ended without a name, and the response is incomplete. -/
def Nameless (s : StreamState) : Prop :=
  s.sentCreated = true ∧ s.status = .incomplete ∧ ∃ k tool, findTool s.tools k = some tool ∧
    tool.done = true ∧
    tool.name = ""

/-- Where a tool call has no name, the response is incomplete. -/
theorem markNameless_status (hs : Sound s) {tool : StreamTool} (htool : tool ∈ s.tools)
    (hname : tool.name = "") : (markNameless s).status = .incomplete := by
  unfold markNameless
  rw [if_pos (List.any_eq_true.mpr ⟨tool, htool, decide_eq_true hname⟩)]
  unfold StreamState.markIncomplete
  split_ifs with h
  · obtain h | h := h
    · rw [hs.running] at h
      cases h
    · exact h
  · rfl

/-- The end of the items leaves a nameless tool call nameless. -/
theorem Nameless.done (hs : Sound s) (hcreated : s.sentCreated = true) (h : ∃ k tool,
    findTool s.tools k = some tool ∧ tool.name = "") : Nameless (doneDeltaEvents codec s).1 := by
  have hclosing := doneDeltaEvents_closing codec hs hcreated
  obtain ⟨k, tool, hfind, hname⟩ := h
  have hstatus := hclosing.status.trans (markNameless_status hs (findTool_some hfind).1 hname)
  refine ⟨hclosing.emission.created, hstatus, k, ended tool, ?_, rfl, hname⟩
  rw [hclosing.tools, hfind]
  rfl

/-- Only a tool call without a name is given as the reason that the name is missing. -/
theorem finish_details (hs : Sound s) (reason : String)
    (h : (markNameless (s.applyFinishReason reason)).incompleteDetails =
      some "missing_tool_name") :
    ∃ k tool, findTool s.tools k = some tool ∧ tool.name = "" := by
  unfold markNameless at h
  split_ifs at h with hany
  · obtain ⟨tool, htool, hname⟩ := List.any_eq_true.mp hany
    exact ⟨tool.chatIndex, tool, hs.sorted.findTool htool, of_decide_eq_true hname⟩
  · exfalso
    unfold StreamState.applyFinishReason responsesStatusFromChatFinishReason at h
    dsimp only at h
    split_ifs at h <;> simp at h

/-- What an operation on items leaves alone: the status, and the tool calls that are done. -/
structure Keeps (s s' : StreamState) : Prop where
  created : s.sentCreated = true → s'.sentCreated = true
  status : s'.status = s.status
  incompleteDetails : s'.incompleteDetails = s.incompleteDetails
  tools : ∀ k tool, findTool s.tools k = some tool → tool.done = true →
    findTool s'.tools k = some tool

theorem Keeps.refl (s : StreamState) : Keeps s s := ⟨id, rfl, rfl, fun _ _ h _ => h⟩

theorem Keeps.nameless {s' : StreamState} (h : Keeps s s') (hs : Nameless s) : Nameless s' := by
  obtain ⟨hcreated, hstatus, k, tool, hfind, hdone, hname⟩ := hs
  exact ⟨h.created hcreated, h.status.trans hstatus, k, tool, h.tools k tool hfind hdone,
    hdone, hname⟩

theorem start_keeps (s : StreamState) (p : Part) : Keeps s (p.start s).1 := by
  unfold Part.start
  split_ifs
  · exact Keeps.refl s
  · dsimp only
    refine ⟨fun h => ?_, Part.set_status _ _ p, Part.set_incompleteDetails _ _ p,
      fun k tool h _ => ?_⟩
    · rw [Part.set_sentCreated]
      exact h
    · rw [Part.set_tools]
      exact h

theorem append_keeps (s : StreamState) (p : Part) (delta : String) :
    Keeps s (p.append s delta).1 := by
  have hstart := start_keeps s p
  unfold Part.append
  dsimp only
  refine ⟨fun h => (Part.set_sentCreated _ _ p).trans (hstart.created h),
    (Part.set_status _ _ p).trans hstart.status,
    (Part.set_incompleteDetails _ _ p).trans hstart.incompleteDetails, fun k tool h hdone => ?_⟩
  rw [Part.set_tools]
  exact hstart.tools k tool h hdone

theorem storeTool_keeps {tool : StreamTool} (delta : String)
    (h : ¬(findTool s.tools tool.chatIndex).any (·.done) = true) :
    Keeps s (storeTool codec s tool delta).1 := by
  have hset : ∀ new : StreamTool, new.chatIndex = tool.chatIndex → ∀ k t,
      findTool s.tools k = some t → t.done = true → findTool (setTool new s.tools) k = some t := by
    intro new hkey k t hfind hdone
    rw [findTool_setTool, hkey, if_neg]
    · exact hfind
    · intro hk
      rw [hk, hfind] at h
      exact h hdone
  unfold storeTool
  split_ifs
  · exact ⟨id, rfl, rfl, hset _ rfl⟩
  · exact ⟨id, rfl, rfl, hset tool rfl⟩

theorem appendToolCallDelta_keeps {toolCall : ToolCallResponse}
    {result : StreamState × List ResponsesStreamEvent}
    (h : appendToolCallDelta codec s toolCall = .ok result) : Keeps s result.1 := by
  by_cases hdone : (findTool s.tools (toolCall.index.getD 0)).any (·.done) = true
  · unfold appendToolCallDelta at h
    rw [if_pos hdone] at h
    cases h
    exact Keeps.refl s
  · by_cases hmerge : (oldTool s toolCall).announced = true ∧ Renames (oldTool s toolCall) toolCall
    · obtain ⟨e, he⟩ := mergeInto_error hmerge.1 hmerge.2
      rw [appendToolCallDelta_eq codec hdone, mergeToolCall_eq, he] at h
      cases h
    · rw [appendToolCallDelta_ok codec hdone hmerge] at h
      have hkey : (newTool s toolCall).chatIndex = toolCall.index.getD 0 :=
        (extended_continues (oldTool s toolCall) toolCall).chatIndex.trans
          (oldTool_chatIndex s toolCall)
      rw [← Except.ok.inj h]
      exact storeTool_keeps codec _ (by rw [hkey]; exact hdone)

/-- What has been recorded of a missing name is true. -/
def Recorded (s : StreamState) : Prop :=
  s.incompleteDetails = some "missing_tool_name" → Nameless s

theorem Keeps.recorded {s' : StreamState} (h : Keeps s s') (hs : Recorded s) : Recorded s' :=
  fun hdetails => h.nameless (hs (h.incompleteDetails.symm.trans hdetails))

theorem convertPiece_nameless (hs : Sound s) (hcreated : s.sentCreated = true) (p : Piece) :
    (Nameless s → Nameless (convertPiece codec s p).state) ∧
      (Recorded s → Recorded (convertPiece codec s p).state) := by
  cases p with
  | part p delta =>
      have hkeeps : Keeps s (convertPart p delta s).state := by
        unfold convertPart Progress.emit
        dsimp only
        split_ifs
        · exact append_keeps s p delta
        · exact Keeps.refl s
      exact ⟨hkeeps.nameless, hkeeps.recorded⟩
  | toolCall toolCall =>
      have hkeeps : Keeps s (convertToolCall codec s toolCall).state := by
        unfold convertToolCall
        cases happend : appendToolCallDelta codec s toolCall with
        | error e => exact Keeps.refl s
        | ok result => exact appendToolCallDelta_keeps codec happend
      exact ⟨hkeeps.nameless, hkeeps.recorded⟩
  | finish reason =>
      unfold convertPiece convertFinish
      dsimp only
      cases reason with
      | none => exact ⟨id, id⟩
      | some reason =>
          dsimp only
          by_cases hreason : Text.trimSpace reason = ""
          · rw [if_neg fun hne => hne hreason]
            exact ⟨id, id⟩
          · rw [if_pos hreason]
            have hdetails := finish_details hs reason
            rw [applyFinishReason_eq] at hdetails ⊢
            generalize responsesStatusFromChatFinishReason reason = status at hdetails ⊢
            have hstart := relabel_emission codec hs hcreated status.1 status.2
            have hclosing := doneDeltaEvents_closing codec hstart.sound hstart.created
            have hdone := Nameless.done codec hstart.sound hstart.created
            constructor
            · intro ⟨_, _, k, tool, hfind, _, hname⟩
              exact hdone ⟨k, tool, hfind, hname⟩
            · intro _ hmissing
              exact hdone (hdetails (hclosing.incompleteDetails.symm.trans hmissing))

theorem convertPieces_nameless :
    ∀ (ps : List Piece) {s : StreamState}, Sound s → s.sentCreated = true →
      (Nameless s → Nameless (convertPieces codec s ps).state) ∧
        (Recorded s → Recorded (convertPieces codec s ps).state)
  | [], _, _, _ => ⟨id, id⟩
  | p :: ps, s, hs, hcreated => by
      have hpiece := convertPiece_nameless codec hs hcreated p
      rw [convertPieces_cons]
      by_cases hclash : Clash s p
      · obtain ⟨e, he⟩ := convertPiece_clash codec hclash
        rw [he]
        exact ⟨id, id⟩
      · obtain ⟨s₁, es, hconvert, hemission, -⟩ := convertPiece_emission codec hs hcreated hclash
        rw [hconvert] at hpiece ⊢
        obtain ⟨hnameless, hrecorded⟩ :=
          convertPieces_nameless ps hemission.sound hemission.created
        exact ⟨fun h => hnameless (hpiece.1 h), fun h => hrecorded (hpiece.2 h)⟩

theorem chunkState_keeps (s : StreamState) (chunk : ChatCompletionsStreamResponse) :
    Keeps s (chunkState s chunk) := ⟨fun _ => rfl, rfl, rfl, fun _ _ h _ => h⟩

theorem chunkStep_nameless (hs : Sound s) (chunk : ChatCompletionsStreamResponse) :
    (Nameless s → Nameless (chunkStep codec s chunk)) ∧
      (Recorded s → Recorded (chunkStep codec s chunk)) := by
  have hkeeps := chunkState_keeps s chunk
  obtain ⟨hnameless, hrecorded⟩ :=
    convertPieces_nameless codec (chunkPieces chunk) (chunkState_sound hs chunk) rfl
  unfold chunkStep
  rw [chunk_eq]
  exact ⟨fun h => hnameless (hkeeps.nameless h), fun h => hrecorded (hkeeps.recorded h)⟩

end MaxApi.Responses
