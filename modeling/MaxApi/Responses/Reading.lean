import MaxApi.Responses.EventStream
import MaxApi.Responses.Pieces

/-! # Responses: what has been read of a state

The state of a stream as a reader of its events knows it (`reader`), and the shape that every
state of a stream has (`Sound`): the items in the order of their indices, each of them once. -/

namespace MaxApi.Responses

open Dto

/-! ### The tools -/

theorem findTool_some {tools : List StreamTool} {k : ℤ} {tool : StreamTool}
    (h : findTool tools k = some tool) : tool ∈ tools ∧ tool.chatIndex = k := by
  unfold findTool at h
  have hk := List.find?_some h
  exact ⟨List.mem_of_find?_eq_some h, of_decide_eq_true hk⟩

theorem findTool_cons (t : StreamTool) (tools : List StreamTool) (k : ℤ) :
    findTool (t :: tools) k = if t.chatIndex = k then some t else findTool tools k := by
  unfold findTool
  rw [List.find?_cons]
  by_cases h : t.chatIndex = k
  · rw [if_pos h, decide_eq_true h]
  · rw [if_neg h, decide_eq_false h]

/-- A map that holds `tool` under its index. -/
theorem findTool_setTool (tool : StreamTool) (k : ℤ) :
    ∀ tools : List StreamTool,
      findTool (setTool tool tools) k =
        if tool.chatIndex = k then some tool else findTool tools k
  | [] => findTool_cons tool [] k
  | t :: tools => by
      unfold setTool
      by_cases hlt : tool.chatIndex < t.chatIndex
      · rw [if_pos hlt, findTool_cons tool]
      rw [if_neg hlt]
      by_cases heq : tool.chatIndex = t.chatIndex
      · rw [if_pos heq, findTool_cons, findTool_cons]
        by_cases hk : tool.chatIndex = k
        · rw [if_pos hk, if_pos hk]
        · rw [if_neg hk, if_neg hk, if_neg (by omega)]
      · rw [if_neg heq, findTool_cons, findTool_cons, findTool_setTool tool k tools]
        by_cases ht : t.chatIndex = k
        · rw [if_pos ht, if_neg (by omega), if_pos ht]
        · rw [if_neg ht, if_neg ht]

theorem mem_setTool {tool t : StreamTool} :
    ∀ {tools : List StreamTool}, t ∈ setTool tool tools → t = tool ∨ t ∈ tools
  | [], h => .inl (List.mem_singleton.mp h)
  | u :: tools, h => by
      unfold setTool at h
      split_ifs at h
      · exact List.mem_cons.mp h
      · exact (List.mem_cons.mp h).imp id (List.mem_cons_of_mem u)
      · rcases List.mem_cons.mp h with hu | htail
        · exact .inr (hu ▸ List.mem_cons_self)
        · exact (mem_setTool htail).imp id (List.mem_cons_of_mem u)

/-- The indices increase. -/
def Sorted (tools : List StreamTool) : Prop := tools.Pairwise fun a b => a.chatIndex < b.chatIndex

theorem Sorted.setTool {tool : StreamTool} :
    ∀ {tools : List StreamTool}, Sorted tools → Sorted (setTool tool tools)
  | [], _ => List.pairwise_singleton _ _
  | t :: tools, h => by
      obtain ⟨ht, htail⟩ := List.pairwise_cons.mp h
      unfold Responses.setTool
      by_cases hlt : tool.chatIndex < t.chatIndex
      · rw [if_pos hlt]
        refine List.pairwise_cons.mpr ⟨fun u hu => ?_, h⟩
        rcases List.mem_cons.mp hu with rfl | hu
        · exact hlt
        · have := ht u hu
          omega
      rw [if_neg hlt]
      by_cases heq : tool.chatIndex = t.chatIndex
      · rw [if_pos heq]
        refine List.pairwise_cons.mpr ⟨fun u hu => ?_, htail⟩
        have := ht u hu
        omega
      · rw [if_neg heq]
        refine List.pairwise_cons.mpr ⟨fun u hu => ?_, Sorted.setTool htail⟩
        rcases mem_setTool hu with rfl | hu
        · omega
        · exact ht u hu

theorem Sorted.findTool {tool : StreamTool} :
    ∀ {tools : List StreamTool}, Sorted tools → tool ∈ tools →
      findTool tools tool.chatIndex = some tool
  | [], _, h => nomatch h
  | t :: tools, hsorted, h => by
      obtain ⟨ht, htail⟩ := List.pairwise_cons.mp hsorted
      rw [findTool_cons]
      rcases List.mem_cons.mp h with rfl | h
      · exact if_pos rfl
      · have := ht tool h
        rw [if_neg (by omega)]
        exact Sorted.findTool htail h

/-! ### The parts -/

namespace Part

variable (s : StreamState) (x : TextItem) (p : Part)

@[simp] theorem item_set : p.item (p.set s x) = x := by cases p <;> rfl

theorem item_set_of_ne {q : Part} (h : q ≠ p) : q.item (p.set s x) = q.item s := by
  cases p <;> cases q <;> first | rfl | exact absurd rfl h

@[simp] theorem set_tools : (p.set s x).tools = s.tools := by cases p <;> rfl

@[simp] theorem set_outputOrder : (p.set s x).outputOrder = s.outputOrder := by cases p <;> rfl

@[simp] theorem set_nextOutputIndex : (p.set s x).nextOutputIndex = s.nextOutputIndex := by
  cases p <;> rfl

@[simp] theorem set_finalized : (p.set s x).finalized = s.finalized := by cases p <;> rfl

@[simp] theorem set_sentCreated : (p.set s x).sentCreated = s.sentCreated := by cases p <;> rfl

@[simp] theorem set_status : (p.set s x).status = s.status := by cases p <;> rfl

@[simp] theorem set_usage : (p.set s x).usage = s.usage := by cases p <;> rfl

@[simp] theorem set_customToolNames : (p.set s x).customToolNames = s.customToolNames := by
  cases p <;> rfl

@[simp] theorem set_incompleteDetails : (p.set s x).incompleteDetails = s.incompleteDetails := by
  cases p <;> rfl

theorem item_takeIndex (ref : OutputRef) : p.item (s.takeIndex ref) = p.item s := by
  cases p <;> rfl

theorem ref_injective : Function.Injective ref := by
  intro p q h
  cases p <;> cases q <;> first | rfl | cases h

end Part

/-! ### The view -/

section codec

variable (codec : ArgumentsCodec)

/-- The arguments of a tool call as far as they have been shown: those of a custom tool only when it
is done. -/
def toolView (tool : StreamTool) : ItemView :=
  ⟨if tool.custom then
      if tool.done then customToolInputFromArguments codec tool.arguments else ""
    else tool.arguments, tool.done, tool.done⟩

def textView (x : TextItem) : ItemView := ⟨x.text, x.done, x.done⟩

def view (s : StreamState) : OutputRef → ItemView
  | .message => textView s.message
  | .reasoning => textView s.reasoning
  | .tool k => (findTool s.tools k).elim ⟨"", false, false⟩ (toolView codec)

/-- The reader of the events that led to a state. -/
def reader (s : StreamState) : Reader :=
  ⟨s.sentCreated, s.outputOrder.map (view codec s), s.finalized⟩

variable (s : StreamState)

theorem view_ref (p : Part) : view codec s p.ref = textView (p.item s) := by cases p <;> rfl

theorem view_tool {k : ℤ} {tool : StreamTool} (h : findTool s.tools k = some tool) :
    view codec s (.tool k) = toolView codec tool := by
  unfold view
  dsimp only
  rw [h]
  rfl

theorem view_set_of_ne (p : Part) (x : TextItem) {ref : OutputRef} (h : ref ≠ p.ref) :
    view codec (p.set s x) ref = view codec s ref := by
  cases p <;> cases ref <;> first | rfl | exact absurd rfl h

theorem view_setTool_of_ne (tool : StreamTool) {ref : OutputRef}
    (h : ref ≠ .tool tool.chatIndex) :
    view codec { s with tools := setTool tool s.tools } ref = view codec s ref := by
  cases ref with
  | message => rfl
  | reasoning => rfl
  | tool k =>
      unfold view
      dsimp only
      rw [findTool_setTool, if_neg fun hk => h (congrArg OutputRef.tool hk.symm)]

theorem view_setTool_self (tool : StreamTool) :
    view codec { s with tools := setTool tool s.tools } (.tool tool.chatIndex) =
      toolView codec tool := by
  refine view_tool codec _ ?_
  dsimp only
  rw [findTool_setTool, if_pos rfl]

end codec

end MaxApi.Responses
