import MaxApi.Convert.ResponsesInput
import MaxApi.Convert.ResponsesMessages
import MaxApi.Lib.Pairing

/-! # Conversions: tool calls and their outputs

In either format an output names the call that it answers by an id.  Both conversions keep the
pairing: a chat request whose tool messages name function calls becomes an input whose outputs name
call items, and an input whose outputs name call items becomes messages whose tool messages name
calls (`pairing_kept`).  A call of another type is left out on the way to an input, and a message
item may have the role of a tool message without any id (`pairing_lost`). -/

namespace MaxApi.Convert.ToolPairing

open MaxApi.ChatRequest (ToolCallRequest)
open MaxApi.ChatMessages Text ResponsesInput ResponsesMessages Pairing

/-! ### Calls and outputs of messages -/

/-- The tool calls of an assistant message. -/
def assistantCalls (m : Message) : List (ToolCallRequest Json) :=
  if trimSpace m.role = "assistant" then m.parseToolCalls else []

def assistantIds (m : Message) : List String := (assistantCalls m).map ToolCallRequest.id

/-- The roles under which the output of a tool is sent. -/
def IsToolMessage (m : Message) : Prop :=
  trimSpace m.role = "tool" ∨ trimSpace m.role = "function"

instance (m : Message) : Decidable (IsToolMessage m) := instDecidableOr

/-- The id of a tool message. -/
def toolId (m : Message) : List String := if IsToolMessage m then [m.toolCallId] else []

/-- The id of a tool message, if it has one. -/
def namedToolId (m : Message) : List String := (toolId m).filter fun i => trimSpace i ≠ ""

/-- A function call with an id and a name. -/
def IsFunctionCall (tc : ToolCallRequest Json) : Prop :=
  trimSpace tc.id ≠ "" ∧ (tc.type = "" ∨ tc.type = "function") ∧ trimSpace tc.function.name ≠ ""

instance (tc : ToolCallRequest Json) : Decidable (IsFunctionCall tc) := instDecidableAnd

/-- The function calls of an assistant message. -/
def functionCalls (m : Message) : List (ToolCallRequest Json) :=
  (assistantCalls m).filter fun tc => IsFunctionCall tc

/-- The ids of the function calls of an assistant message that are written without blanks around
them. -/
def plainIds (m : Message) : List String :=
  ((functionCalls m).map ToolCallRequest.id).filter fun i => trimSpace i = i

/-! ### Calls and outputs of items -/

section items

variable (host : Host)

def IsCallItem (item : Json) : Prop :=
  itemType host item = "function_call" ∨ itemType host item = "custom_tool_call"

def IsOutputItem (item : Json) : Prop :=
  itemType host item = "function_call_output" ∨ itemType host item = "custom_tool_call_output"

instance (item : Json) : Decidable (IsCallItem host item) := instDecidableOr

instance (item : Json) : Decidable (IsOutputItem host item) := instDecidableOr

/-- The `call_id` of a call item, as it is written. -/
def callIds (item : Json) : List String :=
  if IsCallItem host item then [field host item "call_id"] else []

/-- The `call_id` of an output item, as it is written. -/
def outputIds (item : Json) : List String :=
  if IsOutputItem host item then [field host item "call_id"] else []

/-- The id of a call item: its `call_id` or else its `id`, without the blanks around it. -/
def trimmedCallIds (item : Json) : List String :=
  if IsCallItem host item then [responsesCallID host item] else []

/-- The `call_id` of an output item, without the blanks around it. -/
def trimmedOutputIds (item : Json) : List String :=
  if IsOutputItem host item then [trimSpace (field host item "call_id")] else []

/-- The item of a function call. -/
def itemOfCall (tc : ToolCallRequest Json) : Json :=
  functionCall tc.id (trimSpace tc.function.name) tc.function.arguments

end items

/-! ### Messages to items -/

section toItems

variable {host : Host}

section fields

attribute [local simp] itemType field messageItem functionCall functionCallOutput member Json.last
  interface2String

theorem itemType_messageItem (role : String) (content : Json) :
    itemType host (messageItem role content) = "" := by
  simp
  decide

theorem itemType_functionCall (callID name arguments : String) :
    itemType host (functionCall callID name arguments) = "function_call" := by
  simp
  decide +kernel

theorem itemType_functionCallOutput (callID output : String) :
    itemType host (functionCallOutput callID output) = "function_call_output" := by
  simp
  decide +kernel

theorem field_functionCall (callID name arguments : String) :
    field host (functionCall callID name arguments) "call_id" = callID := by
  simp

theorem field_functionCallOutput (callID output : String) :
    field host (functionCallOutput callID output) "call_id" = callID := by
  simp

end fields

theorem isCallItem_messageItem (role : String) (content : Json) :
    ¬ IsCallItem host (messageItem role content) := by
  unfold IsCallItem
  rw [itemType_messageItem]
  decide

theorem isCallItem_functionCallOutput (callID output : String) :
    ¬ IsCallItem host (functionCallOutput callID output) := by
  unfold IsCallItem
  rw [itemType_functionCallOutput]
  decide

theorem isCallItem_itemOfCall (tc : ToolCallRequest Json) : IsCallItem host (itemOfCall tc) :=
  Or.inl (itemType_functionCall _ _ _)

theorem isOutputItem_messageItem (role : String) (content : Json) :
    ¬ IsOutputItem host (messageItem role content) := by
  unfold IsOutputItem
  rw [itemType_messageItem]
  decide

theorem isOutputItem_itemOfCall (tc : ToolCallRequest Json) :
    ¬ IsOutputItem host (itemOfCall tc) := by
  unfold IsOutputItem itemOfCall
  rw [itemType_functionCall]
  decide

theorem callItem_eq (tc : ToolCallRequest Json) :
    callItem tc = if IsFunctionCall tc then some (itemOfCall tc) else none := by
  unfold callItem itemOfCall IsFunctionCall
  have htype : (tc.type ≠ "" ∧ tc.type ≠ "function") ↔ ¬ (tc.type = "" ∨ tc.type = "function") :=
    not_or.symm
  by_cases hid : trimSpace tc.id = ""
  · simp [hid]
  · by_cases ht : tc.type = "" ∨ tc.type = "function"
    · by_cases hname : trimSpace tc.function.name = ""
      · simp [hid, hname]
      · simp [hid, htype, ht, hname]
    · simp [hid, htype, ht]

/-- The loop over the tool calls makes an item of each function call. -/
theorem filterMap_callItem (l : List (ToolCallRequest Json)) :
    l.filterMap callItem = (l.filter fun tc => IsFunctionCall tc).map itemOfCall := by
  induction l with
  | nil => rfl
  | cons tc l ih =>
      rw [List.filterMap_cons, callItem_eq, ih, List.filter_cons]
      by_cases hc : IsFunctionCall tc
      · simp [hc]
      · simp [hc]

theorem functionCalls_of_toolMessage {m : Message} (h : IsToolMessage m) :
    functionCalls m = [] := by
  have hassistant : trimSpace m.role ≠ "assistant" := by
    intro ha
    unfold IsToolMessage at h
    rw [ha] at h
    revert h
    decide
  unfold functionCalls assistantCalls
  rw [if_neg hassistant]
  rfl

/-- What the items of a message are: those of its calls behind others that call nothing, or an
output, or neither. -/
theorem messageItems_cases (m : Message) :
    (∃ pre, messageItems host m = pre ++ (functionCalls m).map itemOfCall ∧
      (∀ item ∈ pre, ¬ IsCallItem host item ∧ ¬ IsOutputItem host item) ∧
      namedToolId m = []) ∨
    (functionCalls m = [] ∧ ∃ output,
      messageItems host m = [functionCallOutput (trimSpace m.toolCallId) output] ∧
      namedToolId m = [m.toolCallId]) := by
  have hmessage : ∀ role content, ∀ item ∈ [messageItem role content],
      ¬ IsCallItem host item ∧ ¬ IsOutputItem host item := by
    intro role content item hitem
    rw [List.mem_singleton.mp hitem]
    exact ⟨isCallItem_messageItem _ _, isOutputItem_messageItem _ _⟩
  by_cases htool : IsToolMessage m
  · have hnone : functionCalls m = [] := functionCalls_of_toolMessage htool
    have hnamed : namedToolId m = if trimSpace m.toolCallId = "" then [] else [m.toolCallId] := by
      unfold namedToolId toolId
      rw [if_pos htool]
      by_cases hid : trimSpace m.toolCallId = "" <;> simp [hid]
    have hrole : trimSpace m.role ≠ "" := by
      intro h
      unfold IsToolMessage at htool
      rw [h] at htool
      revert htool
      decide
    have htool' : trimSpace m.role = "tool" ∨ trimSpace m.role = "function" := htool
    unfold messageItems
    dsimp only
    rw [if_neg hrole, if_pos htool', hnone, hnamed]
    by_cases hid : trimSpace m.toolCallId = ""
    · left
      rw [if_pos hid, if_pos hid]
      exact ⟨_, (List.append_nil _).symm, hmessage _ _, rfl⟩
    · right
      rw [if_neg hid, if_neg hid]
      exact ⟨rfl, _, rfl, rfl⟩
  · left
    have hnamed : namedToolId m = [] := by
      unfold namedToolId toolId
      rw [if_neg htool]
      rfl
    have htool' : ¬ (trimSpace m.role = "tool" ∨ trimSpace m.role = "function") := htool
    unfold messageItems functionCalls assistantCalls
    dsimp only
    rw [if_neg htool']
    by_cases hassistant : trimSpace m.role = "assistant"
    · refine ⟨[messageItem (trimSpace m.role) (itemContent (trimSpace m.role) m)], ?_,
        hmessage _ _, hnamed⟩
      simp [hassistant, filterMap_callItem]
    · rw [if_neg hassistant, if_neg hassistant]
      split_ifs
      · exact ⟨[], rfl, by simp, hnamed⟩
      · exact ⟨[], rfl, by simp, hnamed⟩
      · exact ⟨_, (List.append_nil _).symm, hmessage _ _, hnamed⟩

/-- The ids under which a message is called and answered in the input. -/
def itemIds (m : Message) : List String := (functionCalls m).map ToolCallRequest.id

theorem callIds_itemOfCall (tc : ToolCallRequest Json) :
    callIds host (itemOfCall tc) = [tc.id] := by
  unfold callIds
  rw [if_pos (isCallItem_itemOfCall tc), itemOfCall, field_functionCall]

theorem outputIds_functionCallOutput (callID output : String) :
    outputIds host (functionCallOutput callID output) = [callID] := by
  have h : IsOutputItem host (functionCallOutput callID output) :=
    Or.inl (itemType_functionCallOutput _ _)
  unfold outputIds
  rw [if_pos h, field_functionCallOutput]

theorem callItems_messageItems (m : Message) :
    (messageItems host m).filter (fun item => IsCallItem host item) =
      (functionCalls m).map itemOfCall := by
  rcases @messageItems_cases host m with ⟨pre, hitems, hpre, -⟩ | ⟨hnone, output, hitems, -⟩
  · have hpre' : pre.filter (fun item => decide (IsCallItem host item)) = [] :=
      List.filter_eq_nil_iff.mpr fun item hitem => by simpa using (hpre item hitem).1
    have hcalls :
        ((functionCalls m).map itemOfCall).filter (fun item => decide (IsCallItem host item))
        = (functionCalls m).map itemOfCall := by
      rw [List.filter_eq_self]
      intro item hitem
      obtain ⟨tc, -, rfl⟩ := List.mem_map.mp hitem
      exact decide_eq_true (isCallItem_itemOfCall tc)
    rw [hitems, List.filter_append, hpre', hcalls, List.nil_append]
  · rw [hitems, hnone]
    simp [isCallItem_functionCallOutput]

theorem callIds_messageItems (m : Message) :
    (messageItems host m).flatMap (callIds host) = itemIds m := by
  unfold itemIds
  rcases @messageItems_cases host m with ⟨pre, hitems, hpre, -⟩ | ⟨hnone, output, hitems, -⟩
  · have hpre' : pre.flatMap (callIds host) = [] :=
      List.flatMap_eq_nil_iff.mpr fun item hitem => if_neg (hpre item hitem).1
    rw [hitems, List.flatMap_append, hpre', List.nil_append, List.flatMap_map]
    simp only [callIds_itemOfCall]
    rw [List.map_eq_flatMap]
  · rw [hitems, hnone, List.flatMap_singleton]
    exact if_neg (isCallItem_functionCallOutput _ _)

theorem outputIds_messageItems (m : Message) :
    (messageItems host m).flatMap (outputIds host) = (namedToolId m).map trimSpace := by
  rcases @messageItems_cases host m with ⟨pre, hitems, hpre, hnamed⟩ |
    ⟨-, output, hitems, hnamed⟩
  · rw [hitems, hnamed, List.map_nil, List.flatMap_eq_nil_iff]
    intro item hitem
    rcases List.mem_append.mp hitem with h | h
    · exact if_neg (hpre item h).2
    · obtain ⟨tc, -, rfl⟩ := List.mem_map.mp h
      exact if_neg (isOutputItem_itemOfCall tc)
  · rw [hitems, hnamed, List.flatMap_singleton, outputIds_functionCallOutput]
    rfl

theorem itemIds_or_namedToolId (m : Message) :
    itemIds m = [] ∨ (namedToolId m).map trimSpace = [] := by
  by_cases htool : IsToolMessage m
  · left
    unfold itemIds
    rw [functionCalls_of_toolMessage htool]
    rfl
  · right
    unfold namedToolId toolId
    rw [if_neg htool]
    rfl

/-- The outputs of an input are paired if the tool messages name, up to blanks around their own
id, the function calls before them. -/
theorem paired_inputItems (messages : List Message) :
    Paired (callIds host) (outputIds host) (inputItems host messages) ↔
      Paired itemIds (fun m => (namedToolId m).map trimSpace) messages :=
  paired_flatMap callIds_messageItems outputIds_messageItems itemIds_or_namedToolId messages

theorem callItems_inputItems (messages : List Message) :
    (inputItems host messages).filter (fun item => IsCallItem host item) =
      (messages.flatMap functionCalls).map itemOfCall := by
  unfold inputItems
  rw [List.filter_flatMap, List.map_flatMap]
  exact congrArg messages.flatMap (funext fun m => callItems_messageItems m)

theorem paired_input_of_named {messages : List Message}
    (h : Paired plainIds namedToolId messages) :
    Paired (callIds host) (outputIds host) (inputItems host messages) := by
  rw [paired_inputItems]
  refine h.map ?_
  intro m hm k hk
  obtain ⟨i, hi, rfl⟩ := List.mem_map.mp hk
  refine ⟨i, hi, ?_⟩
  intro y hy hiy
  obtain ⟨hid, hplain⟩ := List.mem_filter.mp hiy
  rw [decide_eq_true_eq] at hplain
  rw [hplain]
  exact hid

end toItems

/-! ### Items to messages -/

section toMessages

variable {host : Host}

theorem functionToolCall_id (callID name arguments : String) :
    (functionToolCall callID name arguments).id = callID := rfl

theorem addToolCall_role (m : Message) (tc : ToolCallRequest Json) :
    (Message.addToolCall m tc).role = m.role := rfl

theorem addToolCall_calls (m : Message) (tc : ToolCallRequest Json) :
    (Message.addToolCall m tc).parseToolCalls = m.parseToolCalls ++ [tc] := rfl

theorem toolCallOf_id {type arguments : String} {item : Json} {tc : ToolCallRequest Json}
    (h : toolCallOf host type item arguments = .ok tc) : tc.id = responsesCallID host item := by
  unfold toolCallOf at h
  dsimp only at h
  split_ifs at h
  rw [← Except.ok.inj h, functionToolCall_id]

/-- A call joins the last message if that is an assistant message, and else makes one. -/
theorem appendToolCall_cases (messages : List Message) (tc : ToolCallRequest Json) :
    (∃ rest last, messages = rest ++ [last] ∧ last.role = "assistant" ∧
      appendToolCallToLastAssistant messages tc = rest ++ [Message.addToolCall last tc]) ∨
    appendToolCallToLastAssistant messages tc =
      messages ++ [Message.addToolCall (.ofRole "assistant") tc] := by
  unfold appendToolCallToLastAssistant
  rcases List.eq_nil_or_concat messages with rfl | ⟨rest, last, rfl⟩
  · right
    rfl
  · rw [List.concat_eq_append, List.getLast?_concat]
    dsimp only
    by_cases hrole : last.role = "assistant"
    · left
      exact ⟨rest, last, rfl, hrole, by rw [if_pos hrole, List.dropLast_concat]⟩
    · right
      rw [if_neg hrole]

theorem assistantIds_addToolCall {m : Message} (hrole : m.role = "assistant")
    (tc : ToolCallRequest Json) :
    assistantIds (Message.addToolCall m tc) = assistantIds m ++ [tc.id] := by
  have htrim : trimSpace m.role = "assistant" := by
    rw [hrole]
    decide +kernel
  unfold assistantIds assistantCalls
  rw [addToolCall_role, addToolCall_calls, if_pos htrim, if_pos htrim, List.map_append,
    List.map_singleton]

theorem namedToolId_addToolCall {m : Message} (hrole : m.role = "assistant")
    (tc : ToolCallRequest Json) : namedToolId (Message.addToolCall m tc) = [] := by
  have htool : ¬ IsToolMessage (Message.addToolCall m tc) := by
    unfold IsToolMessage
    rw [addToolCall_role, hrole]
    decide +kernel
  unfold namedToolId toolId
  rw [if_neg htool]
  rfl

/-- The messages of the items so far: every call item is a call of theirs, and their tool messages
are paired. -/
structure Follows (host : Host) (done : List Json) (messages : List Message) : Prop where
  called : ∀ item ∈ done, ∀ i ∈ trimmedCallIds host item, ∃ m ∈ messages, i ∈ assistantIds m
  paired : Paired assistantIds namedToolId messages
  unnamed : ∀ m ∈ messages, IsToolMessage m → trimSpace m.toolCallId = "" →
    ∃ item ∈ done, responsesInputItemHasChatMessageShape host item ∧ itemRole host item = m.role

theorem ofContent_role (role : String) (content : Json) :
    (Message.ofContent role content).role = role := rfl

/-- An item that calls nothing and adds a message. -/
theorem Follows.append {done : List Json} {messages : List Message} {item : Json} {m : Message}
    (h : Follows host done messages) (hcall : ¬ IsCallItem host item)
    (hnamed : ∀ i ∈ namedToolId m, ∃ y ∈ done, i ∈ trimmedCallIds host y)
    (hunnamed : IsToolMessage m → trimSpace m.toolCallId = "" →
      responsesInputItemHasChatMessageShape host item ∧ itemRole host item = m.role) :
    Follows host (done ++ [item]) (messages ++ [m]) where
  called := by
    intro x hx i hi
    rcases List.mem_append.mp hx with hx | hx
    · obtain ⟨y, hy, hiy⟩ := h.called x hx i hi
      exact ⟨y, List.mem_append_left _ hy, hiy⟩
    · rw [List.mem_singleton.mp hx] at hi
      unfold trimmedCallIds at hi
      rw [if_neg hcall] at hi
      exact absurd hi List.not_mem_nil
  paired := by
    rw [paired_concat]
    refine ⟨h.paired, ?_⟩
    intro i hi
    obtain ⟨y, hy, hiy⟩ := hnamed i hi
    exact h.called y hy i hiy
  unnamed := by
    intro x hx htool hid
    rcases List.mem_append.mp hx with hx | hx
    · obtain ⟨y, hy, hshape⟩ := h.unnamed x hx htool hid
      exact ⟨y, List.mem_append_left _ hy, hshape⟩
    · rw [List.mem_singleton.mp hx] at htool hid ⊢
      exact ⟨item, by simp, hunnamed htool hid⟩

/-- An item that neither calls nor adds anything. -/
theorem Follows.skip {done : List Json} {messages : List Message} {item : Json}
    (h : Follows host done messages) (hcall : ¬ IsCallItem host item) :
    Follows host (done ++ [item]) messages where
  called := by
    intro x hx i hi
    rcases List.mem_append.mp hx with hx | hx
    · exact h.called x hx i hi
    · rw [List.mem_singleton.mp hx] at hi
      unfold trimmedCallIds at hi
      rw [if_neg hcall] at hi
      exact absurd hi List.not_mem_nil
  paired := h.paired
  unnamed := by
    intro x hx htool hid
    obtain ⟨y, hy, hshape⟩ := h.unnamed x hx htool hid
    exact ⟨y, List.mem_append_left _ hy, hshape⟩

theorem isToolMessage_addToolCall {m : Message} (hrole : m.role = "assistant")
    (tc : ToolCallRequest Json) : ¬ IsToolMessage (Message.addToolCall m tc) := by
  unfold IsToolMessage
  rw [addToolCall_role, hrole]
  decide +kernel

/-- A call item. -/
theorem Follows.call {done : List Json} {messages : List Message} {item : Json}
    {tc : ToolCallRequest Json} (h : Follows host done messages)
    (hid : tc.id = responsesCallID host item) :
    Follows host (done ++ [item]) (appendToolCallToLastAssistant messages tc) := by
  have hcalled : ∀ x : Json, x ∈ [item] → ∀ i ∈ trimmedCallIds host x, i = tc.id := by
    intro x hx i hi
    rw [List.mem_singleton.mp hx] at hi
    unfold trimmedCallIds at hi
    split_ifs at hi
    · rw [hid]
      exact List.mem_singleton.mp hi
    · exact absurd hi List.not_mem_nil
  rcases appendToolCall_cases messages tc with ⟨rest, last, rfl, hrole, heq⟩ | heq
  · have hids : assistantIds (Message.addToolCall last tc) = assistantIds last ++ [tc.id] :=
      assistantIds_addToolCall hrole tc
    rw [heq]
    refine ⟨?_, h.paired.replace_last (namedToolId_addToolCall hrole tc), ?_⟩
    · intro x hx i hi
      rcases List.mem_append.mp hx with hx | hx
      · obtain ⟨y, hy, hiy⟩ := h.called x hx i hi
        rcases List.mem_append.mp hy with hy | hy
        · exact ⟨y, List.mem_append_left _ hy, hiy⟩
        · rw [List.mem_singleton.mp hy] at hiy
          refine ⟨Message.addToolCall last tc, by simp, ?_⟩
          rw [hids]
          exact List.mem_append_left _ hiy
      · exact ⟨_, List.mem_append_right _ (List.mem_singleton_self _),
          by simp [hids, hcalled x hx i hi]⟩
    · intro x hx htool hidx
      rcases List.mem_append.mp hx with hx | hx
      · obtain ⟨y, hy, hshape⟩ := h.unnamed x (List.mem_append_left _ hx) htool hidx
        exact ⟨y, List.mem_append_left _ hy, hshape⟩
      · rw [List.mem_singleton.mp hx] at htool
        exact absurd htool (isToolMessage_addToolCall hrole tc)
  · have hids : assistantIds (Message.addToolCall (.ofRole "assistant") tc) = [tc.id] := by
      rw [assistantIds_addToolCall rfl]
      unfold assistantIds assistantCalls
      split_ifs <;> rfl
    rw [heq]
    refine ⟨?_, ?_, ?_⟩
    · intro x hx i hi
      rcases List.mem_append.mp hx with hx | hx
      · obtain ⟨y, hy, hiy⟩ := h.called x hx i hi
        exact ⟨y, List.mem_append_left _ hy, hiy⟩
      · exact ⟨_, List.mem_append_right _ (List.mem_singleton_self _),
          by simp [hids, hcalled x hx i hi]⟩
    · rw [paired_concat, namedToolId_addToolCall rfl]
      exact ⟨h.paired, fun i hi => absurd hi List.not_mem_nil⟩
    · intro x hx htool hidx
      rcases List.mem_append.mp hx with hx | hx
      · obtain ⟨y, hy, hshape⟩ := h.unnamed x hx htool hidx
        exact ⟨y, List.mem_append_left _ hy, hshape⟩
      · rw [List.mem_singleton.mp hx] at htool
        exact absurd htool (isToolMessage_addToolCall rfl tc)

/-- One item, whose output names a call item before it. -/
theorem Follows.item {done : List Json} {messages messages' : List Message} {item : Json}
    (h : Follows host done messages)
    (hstep : responsesInputItemToChatMessages host item messages = .ok messages')
    (hnamed : ∀ i ∈ trimmedOutputIds host item, ∃ y ∈ done, i ∈ trimmedCallIds host y) :
    Follows host (done ++ [item]) messages' := by
  unfold responsesInputItemToChatMessages at hstep
  by_cases hfunction : itemType host item = "function_call"
  · rw [if_pos hfunction] at hstep
    cases htc : responsesFunctionCallItemToChatToolCall host item with
    | error e => simp [htc] at hstep
    | ok tc =>
        have heq : appendToolCallToLastAssistant messages tc = messages' := by
          simpa [htc] using hstep
        rw [← heq]
        exact h.call (toolCallOf_id htc)
  rw [if_neg hfunction] at hstep
  by_cases hcustom : itemType host item = "custom_tool_call"
  · rw [if_pos hcustom] at hstep
    cases htc : responsesCustomToolCallItemToChatToolCall host item with
    | error e => simp [htc] at hstep
    | ok tc =>
        have heq : appendToolCallToLastAssistant messages tc = messages' := by
          simpa [htc] using hstep
        rw [← heq]
        exact h.call (toolCallOf_id htc)
  rw [if_neg hcustom] at hstep
  have hcall : ¬ IsCallItem host item := by
    unfold IsCallItem
    exact not_or.mpr ⟨hfunction, hcustom⟩
  by_cases houtput : itemType host item = "function_call_output" ∨
      itemType host item = "custom_tool_call_output"
  · rw [if_pos houtput] at hstep
    dsimp only at hstep
    by_cases hid : trimSpace (field host item "call_id") = ""
    · rw [if_pos hid] at hstep
      cases hstep
    · rw [if_neg hid] at hstep
      cases hstep
      refine h.append hcall ?_ ?_
      · intro i hi
        have htool := (List.mem_filter.mp hi).1
        unfold toolId at htool
        split_ifs at htool
        · rw [List.mem_singleton.mp htool]
          refine hnamed _ ?_
          unfold trimmedOutputIds
          rw [if_pos (show IsOutputItem host item from houtput)]
          exact List.mem_singleton_self _
        · exact absurd htool List.not_mem_nil
      · intro _ hblank
        exact absurd ((trimSpace_trimSpace _).symm.trans hblank) hid
  rw [if_neg houtput] at hstep
  by_cases hshape : responsesInputItemHasChatMessageShape host item
  · rw [if_pos hshape] at hstep
    cases hstep
    refine h.append hcall ?_ fun _ _ => ⟨hshape, (ofContent_role _ _).symm⟩
    intro i hi
    have hblank : namedToolId (.ofContent (itemRole host item)
        (responsesInputContentToChatContent host (member item "content"))) = [] := by
      unfold namedToolId toolId
      split_ifs
      · simp [Message.ofContent, trimSpace, trim]
      · rfl
    rw [hblank] at hi
    exact absurd hi List.not_mem_nil
  · rw [if_neg hshape] at hstep
    cases hstep
    exact h.skip hcall

/-- The whole loop. -/
theorem Follows.items {items : List Json} :
    ∀ {done : List Json} {messages messages' : List Message},
    Follows host done messages → appendItems host items messages = .ok messages' →
    Paired (trimmedCallIds host) (trimmedOutputIds host) (done ++ items) →
    Follows host (done ++ items) messages' := by
  induction items with
  | nil =>
      intro done messages messages' h hrun _
      cases hrun
      rw [List.append_nil]
      exact h
  | cons item items ih =>
      intro done messages messages' h hrun hpaired
      unfold appendItems at hrun
      cases hitem : responsesInputItemToChatMessages host item messages with
      | error e => simp [hitem] at hrun
      | ok middle =>
          have hrest : appendItems host items middle = .ok messages' := by
            simpa [hitem] using hrun
          have hstep : Follows host (done ++ [item]) middle :=
            h.item hitem (hpaired done item items rfl)
          have hassoc : done ++ item :: items = (done ++ [item]) ++ items := by simp
          rw [hassoc] at hpaired ⊢
          exact ih hstep hrest hpaired

theorem follows_instructions (instructions : Option RawMessage) :
    Follows host [] (instructionMessages instructions) := by
  have hsystem : ∀ content, ¬ IsToolMessage (.ofContent "system" content) := by
    intro content
    show ¬ (trimSpace "system" = "tool" ∨ trimSpace "system" = "function")
    decide +kernel
  have hone : ∀ content, Follows host [] [.ofContent "system" content] := by
    intro content
    refine ⟨by simp, ?_, ?_⟩
    · have hnil : namedToolId (.ofContent "system" content) = [] := by
        unfold namedToolId toolId
        rw [if_neg (hsystem content)]
        rfl
      have h := @paired_concat _ _ assistantIds namedToolId [] (.ofContent "system" content)
      rw [List.nil_append] at h
      rw [h, hnil]
      exact ⟨paired_nil, fun i hi => absurd hi List.not_mem_nil⟩
    · intro m hm htool
      rw [List.mem_singleton.mp hm] at htool
      exact absurd htool (hsystem content)
  have hnone : Follows host [] [] := ⟨by simp, paired_nil, by simp⟩
  unfold instructionMessages
  split
  · exact hnone
  · dsimp only
    split_ifs
    · exact hone _
    · exact hnone

end toMessages

/-! ### Both ways -/

/-- The items of a request. -/
def requestItems (req : ResponsesMessages.OpenAIResponsesRequest) : List Json :=
  match rawJSONPresent req.input with
  | some ⟨_, .array items⟩ => items
  | _ => []

theorem follows_messages {host : Host} {decodeError : String}
    {req : ResponsesMessages.OpenAIResponsesRequest} {messages : List Message}
    (h : responsesRequestMessagesToChat host decodeError req = .ok messages)
    (hpaired : Paired (trimmedCallIds host) (trimmedOutputIds host) (requestItems req)) :
    Follows host (requestItems req) messages := by
  have hstart : Follows host [] (instructionMessages req.instructions) :=
    follows_instructions _
  have huser : ∀ content, ¬ IsToolMessage (.ofContent "user" content) := by
    intro content
    show ¬ (trimSpace "user" = "tool" ∨ trimSpace "user" = "function")
    decide +kernel
  unfold responsesRequestMessagesToChat at h
  unfold requestItems at hpaired ⊢
  dsimp only at h
  cases hraw : rawJSONPresent req.input with
  | none =>
      rw [hraw] at h
      cases h
      exact hstart
  | some raw =>
      obtain ⟨text, value⟩ := raw
      rw [hraw] at h hpaired
      cases value with
      | string input =>
          cases h
          have hnil : namedToolId (.ofContent "user" (.string input)) = [] := by
            unfold namedToolId toolId
            rw [if_neg (huser _)]
            rfl
          refine ⟨by simp, ?_, ?_⟩
          · rw [paired_concat, hnil]
            exact ⟨hstart.paired, fun i hi => absurd hi List.not_mem_nil⟩
          · intro m hm htool hid
            rcases List.mem_append.mp hm with hm | hm
            · exact hstart.unnamed m hm htool hid
            · rw [List.mem_singleton.mp hm] at htool
              exact absurd htool (huser _)
      | array items =>
          dsimp only at h hpaired ⊢
          split_ifs at h
          exact hstart.items h hpaired
      | null => cases h
      | bool b => cases h
      | number n => cases h
      | object ms => cases h

/-- **Both conversions keep the pairing of tool calls and outputs.**  An input has exactly one call
item for each function call, in order, and its outputs are paired if the tool messages name function
calls.  Messages have paired tool messages if the outputs name call items; a tool message without an
id is a message item with that role. -/
theorem pairing_kept (host : Host) :
    (∀ req out, chatCompletionsRequestToResponsesRequest host req = .ok out →
      out.input.filter (fun item => IsCallItem host item) =
        (req.messages.flatMap functionCalls).map itemOfCall ∧
      (Paired plainIds namedToolId req.messages →
        Paired (callIds host) (outputIds host) out.input)) ∧
    ∀ decodeError req messages, responsesRequestMessagesToChat host decodeError req = .ok messages →
      Paired (trimmedCallIds host) (trimmedOutputIds host) (requestItems req) →
      Paired assistantIds namedToolId messages ∧
      ∀ m ∈ messages, IsToolMessage m → trimSpace m.toolCallId = "" →
        ∃ item ∈ requestItems req, responsesInputItemHasChatMessageShape host item ∧
          itemRole host item = m.role := by
  constructor
  · intro req out h
    rw [converted_input h]
    exact ⟨callItems_inputItems _, paired_input_of_named⟩
  · intro decodeError req messages h hpaired
    have hfollows := follows_messages h hpaired
    exact ⟨hfollows.paired, hfollows.unnamed⟩

/-- Texts of values that none of the inputs below contains. -/
def plainHost : Host := ⟨fun q => toString q.num, fun _ => "", fun _ => ""⟩

/-- A message with one call. -/
def asking (type : String) : Message :=
  { Message.ofRole "assistant" with toolCalls := some [⟨"a", type, ⟨"", "f", none, "x"⟩⟩] }

/-- The message that answers it. -/
def answering : Message := { Message.ofContent "tool" (.string "y") with toolCallId := "a" }

def askedRequest (type : String) : GeneralOpenAIRequest := ⟨"m", none, [asking type, answering]⟩

def answeredRequest : ResponsesMessages.OpenAIResponsesRequest :=
  ⟨none, some ⟨"", .array [functionCall "a" "f" "x", functionCallOutput "a" "y"]⟩⟩

/-- A message item with the role of a tool message. -/
def toolRoleRequest : ResponsesMessages.OpenAIResponsesRequest :=
  ⟨none, some ⟨"", .array [messageItem "tool" (.string "y")]⟩⟩

section inputs

theorem trimSpace_plain : ∀ s ∈ ["assistant", "tool", "a", "f"], trimSpace s = s := by
  decide +kernel

theorem trimSpace_assistant : trimSpace "assistant" = "assistant" :=
  trimSpace_plain _ (by simp)

theorem trimSpace_tool : trimSpace "tool" = "tool" := trimSpace_plain _ (by simp)

theorem trimSpace_a : trimSpace "a" = "a" := trimSpace_plain _ (by simp)

theorem trimSpace_f : trimSpace "f" = "f" := trimSpace_plain _ (by simp)

theorem assistantCalls_asking (type : String) :
    assistantCalls (asking type) = [⟨"a", type, ⟨"", "f", none, "x"⟩⟩] := by
  simp [assistantCalls, asking, Message.ofRole, Message.parseToolCalls, trimSpace_assistant]

theorem assistantCalls_answering : assistantCalls answering = [] := by
  simp [assistantCalls, answering, Message.ofContent, trimSpace_tool]

theorem toolId_asking (type : String) : toolId (asking type) = [] := by
  simp [toolId, IsToolMessage, asking, Message.ofRole, trimSpace_assistant]

theorem toolId_answering : toolId answering = ["a"] := by
  simp [toolId, IsToolMessage, answering, Message.ofContent, trimSpace_tool]

theorem askedRequest_converts (type : String) :
    chatCompletionsRequestToResponsesRequest plainHost (askedRequest type) =
      .ok ⟨"m", inputItems plainHost [asking type, answering], none⟩ := by
  have hparts : instructionsParts [asking type, answering] = [] := by
    simp [instructionsParts, asking, answering, Message.ofRole, Message.ofContent,
      trimSpace_assistant, trimSpace_tool]
  have htools : (askedRequest type).hasMessageTools = false := rfl
  unfold chatCompletionsRequestToResponsesRequest
  dsimp only
  have hmodel : ¬ (askedRequest type).model = "" := by
    show ¬ "m" = ""
    decide
  have hn : ¬ 1 < (askedRequest type).n.getD 1 := by
    show ¬ (1 : ℤ) < 1
    omega
  rw [htools, if_neg Bool.false_ne_true, if_neg hmodel, if_neg hn]
  rw [show (askedRequest type).messages = [asking type, answering] from rfl, hparts]
  rfl

theorem answeredRequest_converts :
    responsesRequestMessagesToChat plainHost "" answeredRequest =
      .ok [asking "function", answering] := by
  have hcallType : itemType plainHost (functionCall "a" "f" "x") = "function_call" :=
    itemType_functionCall _ _ _
  have houtputType : itemType plainHost (functionCallOutput "a" "y") = "function_call_output" :=
    itemType_functionCallOutput _ _
  have hcall : responsesFunctionCallItemToChatToolCall plainHost (functionCall "a" "f" "x") =
      .ok (functionToolCall "a" "f" "x") := by
    simp [responsesFunctionCallItemToChatToolCall, toolCallOf, responsesCallID, field, functionCall,
      member, Json.last, interface2String, trimSpace_a, trimSpace_f, responsesArgumentsString]
  have hfirst : responsesInputItemToChatMessages plainHost (functionCall "a" "f" "x") [] =
      .ok [asking "function"] := by
    unfold responsesInputItemToChatMessages
    rw [if_pos hcallType, hcall]
    rfl
  have hsecond : responsesInputItemToChatMessages plainHost (functionCallOutput "a" "y")
      [asking "function"] = .ok [asking "function", answering] := by
    have houtput : member (functionCallOutput "a" "y") "output" = .string "y" := by
      simp [functionCallOutput, member, Json.last]
    unfold responsesInputItemToChatMessages
    simp [houtputType, field_functionCallOutput, trimSpace_a, houtput,
      responseToolOutputToChatContent, answering]
  have hrun : appendItems plainHost
      [functionCall "a" "f" "x", functionCallOutput "a" "y"] [] =
      .ok [asking "function", answering] := by
    simp [appendItems, hfirst, hsecond]
  exact hrun

theorem toolRoleRequest_converts :
    responsesRequestMessagesToChat plainHost "" toolRoleRequest =
      .ok [.ofContent "tool" (.string "y")] := by
  have htype : itemType plainHost (messageItem "tool" (.string "y")) = "" :=
    itemType_messageItem _ _
  have hrole : field plainHost (messageItem "tool" (.string "y")) "role" = "tool" := by
    simp [field, messageItem, member, Json.last, interface2String]
  have hitem : responsesInputItemToChatMessages plainHost (messageItem "tool" (.string "y")) [] =
      .ok [.ofContent "tool" (.string "y")] := by
    have hcontent : member (messageItem "tool" (.string "y")) "content" = .string "y" := by
      simp [messageItem, member, Json.last]
    unfold responsesInputItemToChatMessages
    simp [htype, responsesInputItemHasChatMessageShape, itemRole, hrole, trimSpace_tool, hcontent,
      responsesInputContentToChatContent]
  have hrun : appendItems plainHost [messageItem "tool" (.string "y")] [] =
      .ok [.ofContent "tool" (.string "y")] := by
    simp [appendItems, hitem]
  exact hrun

end inputs

/-- A function call and its answer, converted and converted back. -/
theorem pairing_kept_answered :
    Paired (callIds plainHost) (outputIds plainHost)
      (inputItems plainHost [asking "function", answering]) ∧
    Paired assistantIds namedToolId [asking "function", answering] := by
  constructor
  · have h := (pairing_kept plainHost).1 _ _ (askedRequest_converts "function")
    refine h.2 ?_
    show Paired plainIds namedToolId [asking "function", answering]
    rw [paired_pair]
    constructor
    · simp [namedToolId, toolId_asking]
    · simp [namedToolId, toolId_answering, plainIds, functionCalls, assistantCalls_asking,
        IsFunctionCall, trimSpace_a, trimSpace_f]
  · refine ((pairing_kept plainHost).2 _ _ _ answeredRequest_converts ?_).1
    show Paired _ _ [functionCall "a" "f" "x", functionCallOutput "a" "y"]
    rw [paired_pair]
    constructor
    · simp [trimmedOutputIds, IsOutputItem, itemType_functionCall]
    · simp [trimmedOutputIds, IsOutputItem, itemType_functionCallOutput, trimmedCallIds, IsCallItem,
        itemType_functionCall, field_functionCallOutput, responsesCallID, field_functionCall,
        trimSpace_a]

/-- A call of another type has no item, and so its output has no call; and a message item with the
role of a tool message has no call either. -/
theorem pairing_lost :
    (∃ req out, chatCompletionsRequestToResponsesRequest plainHost req = .ok out ∧
      Paired assistantIds toolId req.messages ∧
      ¬ Paired (callIds plainHost) (outputIds plainHost) out.input ∧
      (out.input.filter fun item => IsCallItem plainHost item).length ≠
        (req.messages.flatMap assistantCalls).length) ∧
    ∃ req messages, responsesRequestMessagesToChat plainHost "" req = .ok messages ∧
      Paired (callIds plainHost) (outputIds plainHost) (requestItems req) ∧
      ¬ Paired assistantIds toolId messages := by
  have hnone : functionCalls (asking "custom") = [] := by
    simp [functionCalls, assistantCalls_asking, IsFunctionCall]
  have hnone' : functionCalls answering = [] := by
    simp [functionCalls, assistantCalls_answering]
  constructor
  · refine ⟨askedRequest "custom", _, askedRequest_converts "custom", ?_, ?_, ?_⟩
    · show Paired assistantIds toolId [asking "custom", answering]
      rw [paired_pair, toolId_asking, toolId_answering, assistantIds, assistantCalls_asking]
      simp
    · show ¬ Paired _ _ (inputItems plainHost [asking "custom", answering])
      rw [paired_inputItems, paired_pair]
      simp [namedToolId, toolId_answering, itemIds, hnone, trimSpace_a]
    · show ((inputItems plainHost [asking "custom", answering]).filter _).length ≠
        ([asking "custom", answering].flatMap assistantCalls).length
      rw [callItems_inputItems]
      simp [hnone, hnone', assistantCalls_asking, assistantCalls_answering]
  · refine ⟨toolRoleRequest, _, toolRoleRequest_converts, ?_, ?_⟩
    · intro pre x post h i hi
      have hmem : x ∈ requestItems toolRoleRequest := by simp [h]
      have hx : x = messageItem "tool" (.string "y") := List.mem_singleton.mp hmem
      rw [hx, outputIds, if_neg (isOutputItem_messageItem _ _)] at hi
      exact absurd hi List.not_mem_nil
    · intro h
      have hid : toolId (.ofContent "tool" (.string "y")) = [""] := by
        simp [toolId, IsToolMessage, Message.ofContent, trimSpace_tool]
      obtain ⟨y, hy, -⟩ := h [] _ [] rfl "" (by simp [hid])
      exact absurd hy List.not_mem_nil

end MaxApi.Convert.ToolPairing
